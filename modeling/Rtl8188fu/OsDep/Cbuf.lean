import Rtl8188fu.Library.Ring
import Rtl8188fu.Library.Trace

/-! # Circular buffers

`rtw_cbuf`, with calls of `rtw_cbuf_push` and `rtw_cbuf_pop` one at a time. A pointer is given as what it points to,
`NULL` as `none`.
-/
namespace Rtl8188fu
variable {α : Type}

structure RtwCbuf (α : Type) where
  write : UInt32
  read : UInt32
  size : UInt32
  bufs : ℕ → Option α

namespace RtwCbuf
variable (cbuf : RtwCbuf α)

def full : Bool := cbuf.write = cbuf.read - 1

def empty : Bool := cbuf.write = cbuf.read

/-- `rtw_cbuf_push`, with its status -/
def push (buf : Option α) : RtwCbuf α × Bool :=
  if cbuf.full then (cbuf,false)
  else ({ cbuf with
    bufs := Function.update cbuf.bufs cbuf.write.toNat buf
    write := (cbuf.write + 1) % cbuf.size },true)

def pop : RtwCbuf α × Option α :=
  if cbuf.empty then (cbuf,none)
  else ({ cbuf with read := (cbuf.read + 1) % cbuf.size },cbuf.bufs cbuf.read.toNat)

end RtwCbuf

/-- `rtw_cbuf_alloc`, in memory that holds `bufs` -/
def rtwCbufAlloc (bufs : ℕ → Option α) (size : UInt32) : RtwCbuf α := ⟨0,0,size,bufs⟩

inductive CbufCall (α : Type)
  | push (buf : Option α)
  | pop

/-- A call with what it returned -/
inductive CbufEntry (α : Type)
  | pushed (buf : Option α) (success : Bool)
  | popped (buf : Option α)
deriving DecidableEq

/-- A buffer, and all calls up to now -/
structure CbufState (α : Type) where
  cbuf : RtwCbuf α
  log : List (CbufEntry α)

def CbufState.step (s : CbufState α) : CbufCall α → CbufState α
  | .push buf => ⟨(s.cbuf.push buf).1,s.log ++ [.pushed buf (s.cbuf.push buf).2]⟩
  | .pop => ⟨s.cbuf.pop.1,s.log ++ [.popped s.cbuf.pop.2]⟩

/-- Calls on a buffer that has just been made -/
def cbufRun (bufs : ℕ → Option α) (size : UInt32) (calls : List (CbufCall α)) : CbufState α :=
  Run.run CbufState.step ⟨rtwCbufAlloc bufs size,[]⟩ calls

namespace CbufEntry

def put : CbufEntry α → List (Option α)
  | pushed buf success => if success then [buf] else []
  | popped _ => []

def take : CbufEntry α → List (Option α)
  | pushed _ _ => []
  | popped buf => if buf.isSome then [buf] else []

/-- The pointers of the pushes that returned `_SUCCESS` -/
def puts (log : List (CbufEntry α)) : List (Option α) := log.flatMap put

/-- The pointers that were popped, all but `NULL` -/
def takes (log : List (CbufEntry α)) : List (Option α) := log.flatMap take

/-- What has been pushed and not popped -/
def held (log : List (CbufEntry α)) : List (Option α) := (puts log).drop (takes log).length

/-- What a queue of `size - 1` places returns behind the calls of a log -/
def Right (size : UInt32) (past : List (CbufEntry α)) : CbufEntry α → Prop
  | .pushed _ success => success = true ↔ (held past).length < size.toNat - 1
  | .popped buf => buf = none ↔ held past = []

end CbufEntry

/-- The pointers popped are the first of those that were pushed, every call returned what a queue returns, and the
indices are in the array. -/
structure CbufState.IsFifo (size : UInt32) (s : CbufState α) : Prop where
  inOrder : CbufEntry.takes s.log <+: CbufEntry.puts s.log
  right : Trace.Holds (CbufEntry.Right size) s.log
  read : s.cbuf.read < size
  write : s.cbuf.write < size

/-- The last place is not filled while the read index is 0, and `NULL` is not popped. -/
def RtwCbuf.CallOk (cbuf : RtwCbuf α) : CbufCall α → Prop
  | .push _ => ¬(cbuf.read = 0 ∧ cbuf.write = cbuf.size - 1)
  | .pop => cbuf.read = cbuf.write ∨ cbuf.bufs cbuf.read.toNat ≠ none

/-- The cells from the read index to the write index are what is held. -/
structure CbufState.Holds (size : UInt32) (s : CbufState α) : Prop where
  sizeIs : s.cbuf.size = size
  readLt : s.cbuf.read.toNat < size.toNat
  room : (CbufEntry.held s.log).length < size.toNat
  writeIs : s.cbuf.write.toNat = (s.cbuf.read.toNat + (CbufEntry.held s.log).length) % size.toNat
  cells : Ring.held s.cbuf.bufs size.toNat s.cbuf.read.toNat (CbufEntry.held s.log).length = CbufEntry.held s.log
  inOrder : CbufEntry.takes s.log <+: CbufEntry.puts s.log
  right : Trace.Holds (CbufEntry.Right size) s.log

section Log
variable {log : List (CbufEntry α)} {e : CbufEntry α} {buf : Option α} {rest : List (Option α)}

theorem puts_concat : CbufEntry.puts (log ++ [e]) = CbufEntry.puts log ++ e.put := by
  rw [CbufEntry.puts, List.flatMap_append, List.flatMap_singleton, ← CbufEntry.puts]

theorem takes_concat : CbufEntry.takes (log ++ [e]) = CbufEntry.takes log ++ e.take := by
  rw [CbufEntry.takes, List.flatMap_append, List.flatMap_singleton, ← CbufEntry.takes]

theorem takes_append_held (h : CbufEntry.takes log <+: CbufEntry.puts log) :
    CbufEntry.takes log ++ CbufEntry.held log = CbufEntry.puts log := by
  obtain ⟨rest,hrest⟩ := h
  rw [CbufEntry.held, ← hrest, List.drop_left]

/-- What is held behind a call that leaves the order as it is -/
theorem held_concat (h : CbufEntry.takes log ++ e.take ++ rest = CbufEntry.puts log ++ e.put) :
    CbufEntry.held (log ++ [e]) = rest ∧ CbufEntry.takes (log ++ [e]) <+: CbufEntry.puts (log ++ [e]) := by
  rw [CbufEntry.held, puts_concat, takes_concat, ← h]
  exact ⟨List.drop_left,List.prefix_append _ _⟩

end Log

section Step
variable {size : UInt32} {s : CbufState α} {buf : Option α} {call : CbufCall α}

/-- `(i + 1) % size` of an index in the array -/
theorem next_toNat {i : UInt32} (hi : i.toNat < size.toNat) : ((i + 1) % size).toNat = (i.toNat + 1) % size.toNat := by
  have hlt := size.toNat_lt
  rw [UInt32.toNat_mod, UInt32.toNat_add, Nat.mod_eq_of_lt (show i.toNat + UInt32.toNat 1 < 2 ^ 32 by
    rw [show UInt32.toNat 1 = 1 from rfl]
    omega)]
  rfl

theorem CbufState.Holds.writeLt (h : s.Holds size) : s.cbuf.write.toNat < size.toNat := by
  rw [h.writeIs]
  exact Nat.mod_lt _ (Nat.zero_lt_of_lt h.readLt)

theorem CbufState.Holds.empty_iff (h : s.Holds size) : s.cbuf.empty = true ↔ CbufEntry.held s.log = [] := by
  rw [RtwCbuf.empty, decide_eq_true_iff, ← UInt32.toNat_inj, h.writeIs, Ring.place_eq_head_iff h.readLt h.room,
    List.length_eq_zero_iff]

/-- The last place but one is filled, and the read index is not the one that the test for a full buffer misses. -/
theorem CbufState.Holds.full_iff (h : s.Holds size) :
    s.cbuf.full = true ↔ (CbufEntry.held s.log).length + 1 = size.toNat ∧ s.cbuf.read ≠ 0 := by
  have hlt := size.toNat_lt
  have hwrite := h.writeLt
  have hread := h.readLt
  rw [RtwCbuf.full, decide_eq_true_iff, ← Ring.place_succ_eq_head_iff h.readLt h.room, ← h.writeIs,
    ← UInt32.toNat_inj,
    UInt32.toNat_sub, show UInt32.toNat 1 = 1 from rfl, Ne, ← UInt32.toNat_inj, show UInt32.toNat 0 = 0 from rfl]
  constructor
  · intro hfull
    have hne : s.cbuf.read.toNat ≠ 0 := by omega
    have hnext : s.cbuf.write.toNat + 1 = s.cbuf.read.toNat := by omega
    exact ⟨by rw [hnext, Nat.mod_eq_of_lt hread],hne⟩
  · rintro ⟨hnext,hne⟩
    have hin : s.cbuf.write.toNat + 1 < size.toNat := by
      by_contra hend
      rw [show s.cbuf.write.toNat + 1 = size.toNat by omega, Nat.mod_self] at hnext
      exact hne hnext.symm
    rw [Nat.mod_eq_of_lt hin] at hnext
    omega

theorem CbufState.Holds.lost_iff (h : s.Holds size) :
    (s.cbuf.read = 0 ∧ s.cbuf.write = s.cbuf.size - 1) ↔ s.cbuf.read = 0 ∧
    (CbufEntry.held s.log).length + 1 = size.toNat := by
  have hlt := size.toNat_lt
  have hroom := h.room
  have hwrite := h.writeIs
  refine and_congr_right fun hread => ?_
  rw [hread, show UInt32.toNat 0 = 0 from rfl, Nat.zero_add, Nat.mod_eq_of_lt hroom] at hwrite
  rw [h.sizeIs, ← UInt32.toNat_inj, UInt32.toNat_sub, show UInt32.toNat 1 = 1 from rfl, hwrite]
  omega

theorem push_of_full (hfull : s.cbuf.full = true) : s.cbuf.push buf = (s.cbuf,false) := if_pos hfull

theorem push_of_not_full (hfull : ¬s.cbuf.full = true) : s.cbuf.push buf = ({ s.cbuf with
    bufs := Function.update s.cbuf.bufs s.cbuf.write.toNat buf
    write := (s.cbuf.write + 1) % s.cbuf.size },true) := if_neg hfull

theorem pop_of_empty (hempty : s.cbuf.empty = true) : s.cbuf.pop = (s.cbuf,none) := if_pos hempty

theorem pop_of_not_empty (hempty : ¬s.cbuf.empty = true) :
    s.cbuf.pop = ({ s.cbuf with read := (s.cbuf.read + 1) % s.cbuf.size },s.cbuf.bufs s.cbuf.read.toNat) :=
  if_neg hempty

/-- The test for a full buffer is right except at one place. -/
theorem CbufState.Holds.push_right_iff (h : s.Holds size) :
    CbufEntry.Right size s.log (.pushed buf (s.cbuf.push buf).2) ↔ s.cbuf.CallOk (.push buf) := by
  have hroom := h.room
  rw [RtwCbuf.CallOk, h.lost_iff, CbufEntry.Right]
  by_cases hfull : s.cbuf.full = true
  · obtain ⟨hlast,hread⟩ := h.full_iff.mp hfull
    rw [push_of_full hfull]
    exact ⟨fun _ hlost => hread hlost.1,fun _ => ⟨fun hno => (by cases hno),fun hlen => absurd hlen (by omega)⟩⟩
  · rw [push_of_not_full hfull]
    rw [h.full_iff, not_and_or, not_not] at hfull
    constructor
    · intro hright hlost
      have := hright.mp rfl
      omega
    · intro hlost
      refine ⟨fun _ => ?_,fun _ => rfl⟩
      have hfew : (CbufEntry.held s.log).length + 1 ≠ size.toNat := fun hlast =>
        hlost ⟨hfull.resolve_left (not_not_intro hlast),hlast⟩
      omega

theorem CbufState.Holds.front (h : s.Holds size) (hempty : ¬s.cbuf.empty = true) : ∃ rest,
    CbufEntry.held s.log = s.cbuf.bufs s.cbuf.read.toNat :: rest ∧
      Ring.held s.cbuf.bufs size.toNat ((s.cbuf.read.toNat + 1) % size.toNat) rest.length = rest := by
  rw [h.empty_iff] at hempty
  obtain ⟨a,rest,hheld⟩ := List.exists_cons_of_ne_nil hempty
  have hcells := h.cells
  rw [hheld, List.length_cons, Ring.held_succ, Nat.mod_eq_of_lt h.readLt] at hcells
  obtain ⟨hfirst,hrest⟩ := List.cons.inj hcells
  exact ⟨rest,by rw [hheld, hfirst],hrest⟩

theorem CbufState.Holds.pop_right_iff (h : s.Holds size) :
    CbufEntry.Right size s.log (.popped s.cbuf.pop.2) ↔ s.cbuf.CallOk .pop := by
  rw [RtwCbuf.CallOk, CbufEntry.Right]
  by_cases hempty : s.cbuf.empty = true
  · have hread : s.cbuf.read = s.cbuf.write := (decide_eq_true_iff.mp hempty).symm
    rw [pop_of_empty hempty]
    exact ⟨fun _ => .inl hread,fun _ => ⟨fun _ => h.empty_iff.mp hempty,fun _ => rfl⟩⟩
  · have hread : s.cbuf.read ≠ s.cbuf.write := fun hread => hempty (decide_eq_true_iff.mpr hread.symm)
    rw [pop_of_not_empty hempty]
    rw [h.empty_iff] at hempty
    exact ⟨fun hright => .inr fun hnone => hempty (hright.mp hnone),
      fun hok => ⟨fun hnone => absurd hnone (hok.resolve_left hread),fun hnil => absurd hnil hempty⟩⟩

theorem CbufState.Holds.step_push (h : s.Holds size) (hok : s.cbuf.CallOk (.push buf)) :
    (s.step (.push buf)).Holds size := by
  have hright := Trace.holds_concat.mpr ⟨h.right,h.push_right_iff.mpr hok⟩
  have horder := takes_append_held h.inOrder
  by_cases hfull : s.cbuf.full = true
  · rw [push_of_full hfull] at hright
    obtain ⟨hheld,hpref⟩ := @held_concat _ s.log (.pushed buf false) (CbufEntry.held s.log)
      (by simpa [CbufEntry.take, CbufEntry.put] using horder)
    rw [CbufState.step, push_of_full hfull]
    exact ⟨h.sizeIs,h.readLt,by rw [hheld]; exact h.room,by rw [hheld]; exact h.writeIs,
      by rw [hheld]; exact h.cells,hpref,hright⟩
  · rw [push_of_not_full hfull] at hright
    obtain ⟨hheld,hpref⟩ := @held_concat _ s.log (.pushed buf true) (CbufEntry.held s.log ++ [buf])
      (by simp [CbufEntry.take, CbufEntry.put, ← horder])
    have hroom : (CbufEntry.held s.log).length + 1 < size.toNat := by
      rw [RtwCbuf.CallOk, h.lost_iff] at hok
      rw [h.full_iff, not_and_or, not_not] at hfull
      have hfew : (CbufEntry.held s.log).length + 1 ≠ size.toNat := fun hlast =>
        hok ⟨hfull.resolve_left (not_not_intro hlast),hlast⟩
      have := h.room
      omega
    have hlen : (CbufEntry.held s.log ++ [buf]).length = (CbufEntry.held s.log).length + 1 := List.length_append
    rw [CbufState.step, push_of_not_full hfull]
    refine ⟨h.sizeIs,h.readLt,?_,?_,?_,hpref,hright⟩
    · rw [hheld, hlen]
      exact hroom
    · rw [hheld, hlen]
      dsimp only
      rw [h.sizeIs, next_toNat h.writeLt, h.writeIs, Nat.mod_add_mod, Nat.add_assoc]
    · rw [hheld, hlen]
      dsimp only
      rw [h.writeIs, Ring.held_push h.room, h.cells]

theorem CbufState.Holds.step_pop (h : s.Holds size) (hok : s.cbuf.CallOk .pop) : (s.step .pop).Holds size := by
  have hright := Trace.holds_concat.mpr ⟨h.right,h.pop_right_iff.mpr hok⟩
  have horder := takes_append_held h.inOrder
  by_cases hempty : s.cbuf.empty = true
  · rw [pop_of_empty hempty] at hright
    obtain ⟨hheld,hpref⟩ := @held_concat _ s.log (.popped none) (CbufEntry.held s.log)
      (by simpa [CbufEntry.take, CbufEntry.put] using horder)
    rw [CbufState.step, pop_of_empty hempty]
    exact ⟨h.sizeIs,h.readLt,by rw [hheld]; exact h.room,by rw [hheld]; exact h.writeIs,
      by rw [hheld]; exact h.cells,hpref,hright⟩
  · rw [pop_of_not_empty hempty] at hright
    obtain ⟨rest,hfront,hcells⟩ := h.front hempty
    have hread : s.cbuf.read ≠ s.cbuf.write := fun hread => hempty (decide_eq_true_iff.mpr hread.symm)
    have hsome : (s.cbuf.bufs s.cbuf.read.toNat).isSome = true := Option.isSome_iff_ne_none.mpr (hok.resolve_left hread)
    obtain ⟨hheld,hpref⟩ := @held_concat _ s.log (.popped (s.cbuf.bufs s.cbuf.read.toNat)) rest (by
      rw [CbufEntry.take, if_pos hsome, CbufEntry.put, List.append_nil, List.append_assoc, ← horder, hfront]
      rfl)
    have hlen : (CbufEntry.held s.log).length = rest.length + 1 := by rw [hfront, List.length_cons]
    have hroom := h.room
    rw [CbufState.step, pop_of_not_empty hempty]
    refine ⟨h.sizeIs,?_,?_,?_,?_,hpref,hright⟩
    · dsimp only
      rw [h.sizeIs, next_toNat h.readLt]
      exact Nat.mod_lt _ (Nat.zero_lt_of_lt h.readLt)
    · rw [hheld]
      omega
    · rw [hheld]
      dsimp only
      rw [h.sizeIs, next_toNat h.readLt, h.writeIs, hlen, Nat.mod_add_mod, Nat.add_assoc, Nat.add_comm 1]
    · rw [hheld]
      dsimp only
      rw [h.sizeIs, next_toNat h.readLt]
      exact hcells

theorem CbufState.Holds.step (h : s.Holds size) (hok : s.cbuf.CallOk call) : (s.step call).Holds size := by
  cases call with
  | push buf => exact h.step_push hok
  | pop => exact h.step_pop hok

/-- A call after which the buffer is still a queue was an admissible one. -/
theorem CbufState.Holds.callOk_of_isFifo (h : s.Holds size) (hfifo : (s.step call).IsFifo size) :
    s.cbuf.CallOk call := by
  cases call with
  | push buf => exact h.push_right_iff.mp (Trace.holds_concat.mp hfifo.right).2
  | pop => exact h.pop_right_iff.mp (Trace.holds_concat.mp hfifo.right).2

theorem CbufState.Holds.isFifo (h : s.Holds size) : s.IsFifo size :=
  ⟨h.inOrder,h.right,UInt32.lt_iff_toNat_lt.mpr h.readLt,UInt32.lt_iff_toNat_lt.mpr h.writeLt⟩

theorem holds_alloc (bufs : ℕ → Option α) (hsize : 2 ≤ size) :
    CbufState.Holds size ⟨rtwCbufAlloc bufs size,[]⟩ := by
  have h2 : 2 ≤ size.toNat := UInt32.le_iff_toNat_le.mp hsize
  exact ⟨rfl,Nat.zero_lt_of_lt h2,Nat.zero_lt_of_lt h2,(Nat.zero_mod _).symm,rfl,List.prefix_rfl,Trace.holds_nil⟩

end Step

/-- In every state of a run the buffer is a queue of `size - 1` places exactly when no push of the run fills the last
place while the read index is 0, and no pop meets `NULL`. -/
theorem cbuf_fifo_iff (bufs : ℕ → Option α) (size : UInt32) (hsize : 2 ≤ size) (calls : List (CbufCall α)) :
    (∀ past, past <+: calls → (cbufRun bufs size past).IsFifo size) ↔
      ∀ past call, past ++ [call] <+: calls → (cbufRun bufs size past).cbuf.CallOk call := by
  have hstep : ∀ past call, cbufRun bufs size (past ++ [call]) = (cbufRun bufs size past).step call :=
    fun _ _ => Run.run_append _ _ _ _
  apply Trace.prefix_iff (I := fun past => (cbufRun bufs size past).Holds size)
  · exact holds_alloc bufs hsize
  · exact fun past h => h.isFifo
  · intro past call h hok
    rw [hstep]
    exact h.step hok
  · intro past call h hfifo
    rw [hstep] at hfifo
    exact h.callOk_of_isFifo hfifo

instance (cbuf : RtwCbuf α) : (call : CbufCall α) → Decidable (cbuf.CallOk call)
  | .push _ => inferInstanceAs (Decidable ¬(cbuf.read = 0 ∧ cbuf.write = cbuf.size - 1))
  | .pop => inferInstanceAs (Decidable (cbuf.read = cbuf.write ∨ cbuf.bufs cbuf.read.toNat ≠ none))

def fullAroundTheEnd : List (CbufCall ℕ) :=
  [.push (some 1),.pop,.push (some 2),.push (some 3),.push (some 4),.pop,.pop,.pop]

/-- A run in which the buffer is full with the read index at 1 -/
theorem cbuf_fifo_around_the_end : (cbufRun (fun _ => none) 3 fullAroundTheEnd).IsFifo 3 := by
  refine (cbuf_fifo_iff (fun _ => none) 3 (by decide) fullAroundTheEnd).mpr ?_ fullAroundTheEnd (List.prefix_refl _)
  change Trace.Holds (fun past call => (cbufRun (fun _ => none) 3 past).cbuf.CallOk call) fullAroundTheEnd
  simp only [fullAroundTheEnd, Trace.holds_cons, Trace.holds_nil, and_true]
  decide

/-- Two pointers go into a buffer for one, and then none is there. -/
theorem full_cbuf_emptied : (cbufRun (fun _ => none) 2 [.push (some 1),.push (some 2),.pop]).log =
      ([.pushed (some 1) true,.pushed (some 2) true,.popped none] : List (CbufEntry ℕ)) ∧
    ¬(cbufRun (fun _ => none) 2 ([.push (some 1),.push (some 2),.pop] : List (CbufCall ℕ))).IsFifo 2 := by
  have hlog : (cbufRun (fun _ => none) 2 [.push (some 1),.push (some 2),.pop]).log =
      ([.pushed (some 1) true,.pushed (some 2) true,.popped none] : List (CbufEntry ℕ)) := by decide
  refine ⟨hlog,fun h => ?_⟩
  have hright := h.right
  rw [hlog] at hright
  have hpop : CbufEntry.Right 2 [.pushed (some 1) true,.pushed (some 2) true] (.popped none) :=
    hright [.pushed (some 1) true,.pushed (some 2) true] (.popped none) List.prefix_rfl
  exact absurd (hpop.mp rfl) (by decide)

end Rtl8188fu
