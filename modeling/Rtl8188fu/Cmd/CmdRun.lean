import Rtl8188fu.Library.Trace
import Rtl8188fu.Cmd.CmdThread

/-! # The life of command objects

Each object is freed once, when it has left the queue; what is executed is executed in the order in
which it was accepted; and no waiter writes to an object that is freed.
-/
namespace Rtl8188fu
variable {s : CmdPriv} {o : CmdObj} {a : ℕ} {b : CmdBlock} {l : List CmdEffect}

/-! ## Effects -/

def CmdBlock.addr : CmdBlock → ℕ
  | .cmdObj a => a
  | .parmbuf a => a
  | .pbuf a => a
  | .rsp a => a

def CmdEffect.addr : CmdEffect → ℕ
  | .attach a => a
  | .accept a => a
  | .exec a => a
  | .complete a => a
  | .detach a => a
  | .free b => b.addr

def CmdEffect.executed : CmdEffect → Option ℕ
  | .exec a => some a
  | _ => none

def CmdEffect.accepted : CmdEffect → Option ℕ
  | .accept a => some a
  | _ => none

def CmdPriv.executed (s : CmdPriv) : List ℕ := s.log.filterMap CmdEffect.executed

def CmdPriv.accepted (s : CmdPriv) : List ℕ := s.log.filterMap CmdEffect.accepted

/-- The memory that goes with a command object -/
def CmdObj.blocks (o : CmdObj) (a : ℕ) : List CmdBlock :=
  .cmdObj a :: match o.parmbuf with
    | .null => []
    | .parm => [.parmbuf a]
    | .drvextra pbuf size => .parmbuf a :: if pbuf = true ∧ 0 < size then [.pbuf a] else []

/-- An object whose submit context is attached is not freed before that is completed or detached,
and its waiter does not write to it when it is freed. -/
def Waited : List CmdEffect → CmdEffect → Prop
  | past, .free (.cmdObj a) => .attach a ∈ past → .complete a ∈ past ∨ .detach a ∈ past
  | past, .detach a => .free (.cmdObj a) ∉ past
  | _, _ => True

/-- What is right in a state: the memory of an object is freed once, and not while it is in the queue. -/
structure CmdOk (s : CmdPriv) : Prop where
  once : s.executed.Nodup
  fifo : s.executed.Sublist s.accepted
  freed : ∀ a < s.next, ∀ b ∈ (s.obj a).blocks a, s.log.count (.free b) = if a ∈ s.cmdQueue then 0 else 1
  waited : Trace.Holds Waited s.log

theorem blocks_addr (h : b ∈ o.blocks a) : b.addr = a := by
  rw [CmdObj.blocks] at h
  rcases List.mem_cons.mp h with rfl | h
  · rfl
  · cases hp : o.parmbuf with
    | null => simp [hp] at h
    | parm =>
      obtain rfl : b = .parmbuf a := by simpa [hp] using h
      rfl
    | drvextra pbuf size =>
      rw [hp] at h
      rcases List.mem_cons.mp h with rfl | h
      · rfl
      · split at h
        · obtain rfl := List.mem_singleton.mp h
          rfl
        · cases h

/-! ## Freeing an object -/

/-- The effects are frees of memory that goes with the object, and each block is freed once. -/
structure Frees (o : CmdObj) (a : ℕ) (l : List CmdEffect) : Prop where
  only : ∀ e ∈ l, ∃ b : CmdBlock, e = .free b ∧ b.addr = a
  once : ∀ b ∈ o.blocks a, l.count (.free b) = 1

theorem freeExtra_eq (o : CmdObj) (a : ℕ) : o.freeExtra a = o.freePbuf a := by
  rw [CmdObj.freeExtra]
  split
  · rfl
  · rename_i hcode
    rw [CmdObj.freePbuf]
    split
    · rename_i size hp
      exact absurd (o.extraParm.mpr ⟨true,size,hp⟩) hcode
    · rfl

theorem freePbuf_only {e : CmdEffect} (h : e ∈ o.freePbuf a) : e = .free (.pbuf a) := by
  rw [CmdObj.freePbuf] at h
  split at h
  · split at h
    · exact List.mem_singleton.mp h
    · cases h
  · cases h

theorem freeParmbuf_only {e : CmdEffect} (h : e ∈ o.freeParmbuf a) : e = .free (.parmbuf a) := by
  rw [CmdObj.freeParmbuf] at h
  split at h
  · cases h
  · exact List.mem_singleton.mp h

/-- The ways of freeing an object differ in the response only. -/
theorem frees_of_rsp {rsp : List CmdEffect} (h : rsp = [] ∨ rsp = [.free (.rsp a)]) :
    Frees o a (o.freeExtra a ++ (o.freeParmbuf a ++ rsp ++ [.free (.cmdObj a)])) := by
  rw [freeExtra_eq]
  constructor
  · intro e he
    rcases List.mem_append.mp he with he | he
    · exact ⟨_,freePbuf_only he,rfl⟩
    rcases List.mem_append.mp he with he | he
    · rcases List.mem_append.mp he with he | he
      · exact ⟨_,freeParmbuf_only he,rfl⟩
      · rcases h with rfl | rfl
        · cases he
        · exact ⟨_,List.mem_singleton.mp he,rfl⟩
    · exact ⟨_,List.mem_singleton.mp he,rfl⟩
  · intro b hb
    have hrsp : rsp.count (.free b) = 0 := by
      rcases h with rfl | rfl
      · rfl
      · apply List.count_eq_zero.mpr
        intro hmem
        obtain rfl : b = .rsp a := by simpa using hmem
        cases hp : o.parmbuf with
        | null => simp [CmdObj.blocks, hp] at hb
        | parm => simp [CmdObj.blocks, hp] at hb
        | drvextra pbuf size => simp [CmdObj.blocks, hp] at hb
    rw [List.count_append, List.count_append, List.count_append, hrsp, CmdObj.freePbuf, CmdObj.freeParmbuf]
    cases hp : o.parmbuf with
    | null =>
      obtain rfl : b = .cmdObj a := by simpa [CmdObj.blocks, hp] using hb
      simp
    | parm =>
      obtain rfl | rfl : b = .cmdObj a ∨ b = .parmbuf a := by simpa [CmdObj.blocks, hp] using hb
      · simp
      · simp
    | drvextra pbuf size =>
      by_cases hbuf : pbuf = true ∧ 0 < size
      · obtain ⟨rfl,hsize⟩ := hbuf
        obtain rfl | rfl | rfl : b = .cmdObj a ∨ b = .parmbuf a ∨ b = .pbuf a := by
          simpa [CmdObj.blocks, hp, hsize] using hb
        · simp [hsize]
        · simp [hsize]
        · simp [hsize]
      · obtain rfl | rfl : b = .cmdObj a ∨ b = .parmbuf a := by simpa [CmdObj.blocks, hp, hbuf] using hb
        · cases pbuf with
          | false => simp
          | true => simp [show ¬ 0 < size from fun h => hbuf ⟨rfl,h⟩]
        · cases pbuf with
          | false => simp
          | true => simp [show ¬ 0 < size from fun h => hbuf ⟨rfl,h⟩]

theorem frees_freeCmdObj (o : CmdObj) (a : ℕ) : Frees o a (o.freeExtra a ++ o.freeCmdObj a) := by
  apply frees_of_rsp
  split
  · exact Or.inr rfl
  · exact Or.inl rfl

/-! ## An iteration of the thread -/

/-- A command that fits is dropped or executed, and `pbuf` is freed either way. -/
theorem process_frees (s : CmdPriv) {o : CmdObj} (a : ℕ) (hfits : o.cmdsz ≤ MAX_CMDSZ) (result : UInt8) :
    (s.process o a result).2 = o.freeExtra a ∨ (s.process o a result).2 = .exec a :: o.freeExtra a := by
  have hno : wlancmds[o.cmdcode]? = none ∨ wlancmds[o.cmdcode]? = some none → o.freeExtra a = [] := by
    intro h
    rw [CmdObj.freeExtra, if_neg]
    intro hcode
    rw [hcode] at h
    rcases h with h | h
    · cases h
    · cases h
  rw [CmdPriv.process, if_neg (Nat.not_lt.mpr hfits)]
  cases hhdl : wlancmds[o.cmdcode]? with
  | none => exact Or.inl (hno (Or.inl hhdl)).symm
  | some entry =>
    cases entry with
    | none => exact Or.inl (hno (Or.inr hhdl)).symm
    | some cmdHdl =>
      dsimp only
      split
      · exact Or.inl rfl
      · right
        have hfrees : cmdHdl.frees o a = o.freeExtra a := by
          cases cmdHdl with
          | rtw_drvextra_cmd_hdl => exact (freeExtra_eq o a).symm
          | other =>
            rw [CmdObj.freeExtra, if_neg]
            · rfl
            · intro hcode
              rw [hcode] at hhdl
              cases hhdl
        rw [hfrees]

theorem disassoc_callback {c : ℕ} : rtw_cmd_callback[c]? = some (some .rtw_disassoc_cmd_callback) ↔
    c = _DisConnect_CMD_ := by
  constructor
  · intro h
    have hc : c < 66 := (List.getElem?_eq_some_iff.mp h).1
    have hall : ∀ c < 66, rtw_cmd_callback[c]? = some (some .rtw_disassoc_cmd_callback) → c = _DisConnect_CMD_ := by
      decide
    exact hall c hc h
  · rintro rfl
    rfl

theorem frees_getbbrfreg (o : CmdObj) (a : ℕ) :
    Frees o a (o.freeExtra a ++ (o.freeParmbuf a ++ [.free (.cmdObj a)])) := by
  simpa using frees_of_rsp (o := o) (a := a) (Or.inl rfl)

/-- The callback frees the object, but for a disconnect that did not succeed. -/
theorem callback_frees {res : ℕ} (h : o.cmdcode = _DisConnect_CMD_ → res = H2C_SUCCESS) :
    Frees o a (o.freeExtra a ++ o.callback a res) := by
  rw [CmdObj.callback]
  cases hentry : rtw_cmd_callback[o.cmdcode]? with
  | none => exact frees_freeCmdObj o a
  | some entry =>
    cases entry with
    | none => exact frees_freeCmdObj o a
    | some callback =>
      cases callback with
      | rtw_disassoc_cmd_callback =>
        have hres := h (disassoc_callback.mp hentry)
        simpa [CmdCallback.frees, hres] using frees_freeCmdObj o a
      | rtw_getbbrfreg_cmdrsp_callback => exact frees_getbbrfreg o a
      | rtw_getmacreg_cmdrsp_callback => exact frees_freeCmdObj o a
      | rtw_joinbss_cmd_callback => exact frees_freeCmdObj o a
      | rtw_survey_cmd_callback => exact frees_freeCmdObj o a
      | rtw_setstaKey_cmdrsp_callback => exact frees_freeCmdObj o a
      | rtw_setassocsta_cmdrsp_callback => exact frees_freeCmdObj o a

theorem callback_leaks {res : ℕ} (hcode : o.cmdcode = _DisConnect_CMD_) (hres : res ≠ H2C_SUCCESS) :
    o.callback a res = [] := by
  rw [CmdObj.callback, disassoc_callback.mpr hcode]
  exact if_pos hres

/-- Objects may be freed whose submit contexts are completed or detached. -/
theorem waited_of_frees {past : List CmdEffect} (hl : ∀ e ∈ l, ∃ b : CmdBlock, e = .free b ∧
    (.attach b.addr ∈ past → .complete b.addr ∈ past ∨ .detach b.addr ∈ past)) :
    Trace.Holds (fun more => Waited (past ++ more)) l := by
  intro more x hx
  obtain ⟨b,rfl,hb⟩ := hl x (hx.subset (by simp))
  cases b with
  | cmdObj c =>
    intro hattach
    have hnot : CmdEffect.attach c ∉ more := by
      intro hm
      obtain ⟨b,hb,-⟩ := hl _ (hx.subset (List.mem_append_left _ hm))
      cases hb
    rcases List.mem_append.mp hattach with hattach | hattach
    · exact (hb hattach).imp (List.mem_append_left _) (List.mem_append_left _)
    · exact absurd hattach hnot
  | parmbuf c => trivial
  | pbuf c => trivial
  | rsp c => trivial

namespace Frees

theorem executed (h : Frees o a l) : l.filterMap CmdEffect.executed = [] := by
  apply List.filterMap_eq_nil_iff.mpr
  intro e he
  obtain ⟨b,rfl,-⟩ := h.only e he
  rfl

theorem accepted (h : Frees o a l) : l.filterMap CmdEffect.accepted = [] := by
  apply List.filterMap_eq_nil_iff.mpr
  intro e he
  obtain ⟨b,rfl,-⟩ := h.only e he
  rfl

theorem addr (h : Frees o a l) : ∀ e ∈ l, e.addr = a := by
  intro e he
  obtain ⟨b,rfl,hb⟩ := h.only e he
  exact hb

end Frees

/-- What the thread does with an object that it has taken from the queue -/
structure Iterated (o : CmdObj) (a : ℕ) (l : List CmdEffect) : Prop where
  addr : ∀ e ∈ l, e.addr = a
  executed : l.filterMap CmdEffect.executed = [] ∨ l.filterMap CmdEffect.executed = [a]
  accepted : l.filterMap CmdEffect.accepted = []
  once : ∀ b ∈ o.blocks a, l.count (.free b) = 1
  waited : ∀ past : List CmdEffect, (.attach a ∈ past → o.sctx = true ∨ .detach a ∈ past) →
    Trace.Holds (fun more => Waited (past ++ more)) l

theorem iterated_of_frees {x cb : List CmdEffect} (hx : x = [] ∨ x = [.exec a])
    (hcb : Frees o a (o.freeExtra a ++ cb)) :
    Iterated o a (x ++ o.freeExtra a ++ (if o.sctx then [.complete a] else []) ++ cb) := by
  have hpbuf : ∀ e ∈ o.freeExtra a, e = .free (.pbuf a) := by
    intro e he
    rw [freeExtra_eq] at he
    exact freePbuf_only he
  -- what comes before the callback
  have hfirst : ∀ e ∈ x ++ o.freeExtra a ++ (if o.sctx then [.complete a] else []),
      e = .exec a ∨ e = .free (.pbuf a) ∨ e = .complete a := by
    intro e he
    rcases List.mem_append.mp he with he | he
    · rcases List.mem_append.mp he with he | he
      · rcases hx with rfl | rfl
        · cases he
        · exact Or.inl (List.mem_singleton.mp he)
      · exact Or.inr (Or.inl (hpbuf e he))
    · split at he
      · exact Or.inr (Or.inr (List.mem_singleton.mp he))
      · cases he
  have hexec := hcb.executed
  have hacc := hcb.accepted
  rw [List.filterMap_append] at hexec hacc
  constructor
  case addr =>
    intro e he
    rcases List.mem_append.mp he with he | he
    · rcases hfirst e he with rfl | rfl | rfl
      · rfl
      · rfl
      · rfl
    · exact hcb.addr e (List.mem_append_right _ he)
  case executed =>
    have hcomplete : (if o.sctx then [CmdEffect.complete a] else []).filterMap CmdEffect.executed = [] := by
      split
      · rfl
      · rfl
    rw [List.filterMap_append, List.filterMap_append, List.filterMap_append, hcomplete,
      (List.append_eq_nil_iff.mp hexec).1, (List.append_eq_nil_iff.mp hexec).2]
    rcases hx with rfl | rfl
    · exact Or.inl rfl
    · exact Or.inr rfl
  case accepted =>
    have hcomplete : (if o.sctx then [CmdEffect.complete a] else []).filterMap CmdEffect.accepted = [] := by
      split
      · rfl
      · rfl
    rw [List.filterMap_append, List.filterMap_append, List.filterMap_append, hcomplete,
      (List.append_eq_nil_iff.mp hacc).1, (List.append_eq_nil_iff.mp hacc).2]
    rcases hx with rfl | rfl
    · rfl
    · rfl
  case once =>
    intro b hb
    have hone := hcb.once b hb
    have hxcount : x.count (.free b) = 0 := by
      rcases hx with rfl | rfl
      · rfl
      · simp
    have hcomplete : (if o.sctx then [CmdEffect.complete a] else []).count (.free b) = 0 := by
      split
      · simp
      · rfl
    rw [List.count_append] at hone
    rw [List.count_append, List.count_append, List.count_append, hxcount, hcomplete]
    omega
  case waited =>
    intro past hpast
    rw [Trace.holds_append]
    constructor
    · apply Trace.holds_of_forall
      intro more e he
      rcases hfirst e he with rfl | rfl | rfl
      · trivial
      · trivial
      · trivial
    · have hcomplete : Trace.Holds (fun more => Waited (past ++ (x ++ o.freeExtra a ++
          (if o.sctx then [.complete a] else [])) ++ more)) cb := by
        apply waited_of_frees
        intro e he
        obtain ⟨b,rfl,hb⟩ := hcb.only e (List.mem_append_right _ he)
        refine ⟨b,rfl,?_⟩
        rw [hb]
        intro hattach
        have hattach : CmdEffect.attach a ∈ past := by
          refine (List.mem_append.mp hattach).resolve_right ?_
          intro hmem
          rcases hfirst _ hmem with h | h | h
          · cases h
          · cases h
          · cases h
        rcases hpast hattach with hsctx | hdetach
        · left
          rw [if_pos hsctx]
          simp
        · exact Or.inr (List.mem_append_left _ hdetach)
      simpa [List.append_assoc] using hcomplete

/-! ## The invariant -/

/-- What is right about one of the objects -/
structure ObjOk (s : CmdPriv) (a : ℕ) : Prop where
  freed : ∀ b ∈ (s.obj a).blocks a, s.log.count (.free b) = if a ∈ s.cmdQueue then 0 else 1
  fits : a ∈ s.cmdQueue → (s.obj a).cmdsz ≤ MAX_CMDSZ
  attached : a ∈ s.cmdQueue → (s.obj a).sctx = true → .attach a ∈ s.log ∧ .complete a ∉ s.log ∧
    .detach a ∉ s.log
  detached : a ∈ s.cmdQueue → (s.obj a).sctx = false → .attach a ∈ s.log → .detach a ∈ s.log
  waiting : a ∈ s.waiters → s.status a = .RTW_SCTX_SUBMITTED → a ∈ s.cmdQueue ∧ (s.obj a).sctx = true

structure CmdInv (s : CmdPriv) : Prop where
  /-- What was accepted is in the queue or was dealt with before, in this order. -/
  queued : ∃ done, s.accepted = done ++ s.cmdQueue ∧ s.executed.Sublist done
  nodup : s.accepted.Nodup
  lt : ∀ e ∈ s.log, e.addr < s.next
  waiters_lt : ∀ a ∈ s.waiters, a < s.next
  objs : ∀ a < s.next, ObjOk s a
  waited : Trace.Holds Waited s.log

theorem ObjOk.congr {t : CmdPriv} (h : ObjOk s a) (hobj : t.obj a = s.obj a) (hstatus : t.status a = s.status a)
    (hq : a ∈ t.cmdQueue ↔ a ∈ s.cmdQueue) (hw : a ∈ t.waiters → a ∈ s.waiters)
    (hlog : ∀ e : CmdEffect, e.addr = a → t.log.count e = s.log.count e) : ObjOk t a := by
  have hmem : ∀ e : CmdEffect, e.addr = a → (e ∈ t.log ↔ e ∈ s.log) := by
    intro e he
    rw [← List.count_pos_iff, hlog e he, List.count_pos_iff]
  constructor
  case freed =>
    intro b hb
    rw [hobj] at hb
    rw [hlog (.free b) (blocks_addr hb), h.freed b hb]
    exact if_congr hq.symm rfl rfl
  case fits =>
    intro ha
    rw [hobj]
    exact h.fits (hq.mp ha)
  case attached =>
    intro ha hsctx
    rw [hobj] at hsctx
    rw [hmem (.attach a) rfl, hmem (.complete a) rfl, hmem (.detach a) rfl]
    exact h.attached (hq.mp ha) hsctx
  case detached =>
    intro ha hsctx
    rw [hobj] at hsctx
    rw [hmem (.attach a) rfl, hmem (.detach a) rfl]
    exact h.detached (hq.mp ha) hsctx
  case waiting =>
    intro ha hsub
    rw [hstatus] at hsub
    rw [hq, hobj]
    exact h.waiting (hw ha) hsub

namespace CmdInv

theorem ok (h : CmdInv s) : CmdOk s := by
  obtain ⟨done,hacc,hexec⟩ := h.queued
  have hsub : s.executed.Sublist s.accepted := by
    rw [hacc]
    exact hexec.trans (List.sublist_append_left _ _)
  exact ⟨hsub.nodup h.nodup,hsub,fun a ha => (h.objs a ha).freed,h.waited⟩

theorem queue_nodup (h : CmdInv s) : s.cmdQueue.Nodup := by
  obtain ⟨done,hacc,-⟩ := h.queued
  have hnodup := h.nodup
  rw [hacc] at hnodup
  exact (List.nodup_append.mp hnodup).2.1

theorem accepted_lt (h : CmdInv s) (ha : a ∈ s.accepted) : a < s.next := by
  obtain ⟨e,he,hae⟩ := List.mem_filterMap.mp ha
  cases e with
  | accept c =>
    obtain rfl : c = a := Option.some.inj hae
    exact h.lt _ he
  | attach c => cases hae
  | exec c => cases hae
  | complete c => cases hae
  | detach c => cases hae
  | free b => cases hae

theorem queue_lt (h : CmdInv s) (ha : a ∈ s.cmdQueue) : a < s.next := by
  obtain ⟨done,hacc,-⟩ := h.queued
  apply h.accepted_lt
  rw [hacc]
  exact List.mem_append_right _ ha

theorem fresh (h : CmdInv s) {e : CmdEffect} (he : e.addr = s.next) : e ∉ s.log := by
  intro hmem
  have hlt := h.lt e hmem
  omega

end CmdInv

theorem count_append_of_addr {log : List CmdEffect} {c : ℕ} (hl : ∀ e ∈ l, e.addr = c) (hac : a ≠ c)
    (e : CmdEffect)
    (he : e.addr = a) : (log ++ l).count e = log.count e := by
  rw [List.count_append, Nat.add_eq_left, List.count_eq_zero]
  intro hmem
  exact hac (he.symm.trans (hl e hmem))

theorem lt_append_of_addr {log : List CmdEffect} {c n m : ℕ} (hl : ∀ e ∈ l, e.addr = c)
    (hlog : ∀ e ∈ log, e.addr < n)
    (hnm : n ≤ m) (hc : c < m) : ∀ e ∈ log ++ l, e.addr < m := by
  intro e he
  rcases List.mem_append.mp he with he | he
  · exact (hlog e he).trans_le hnm
  · rw [hl e he]
    exact hc

/-! ## The steps -/

namespace CmdInv

theorem rejected (h : CmdInv s) {t : CmdPriv} (hq : t.cmdQueue = s.cmdQueue) (hnext : t.next = s.next + 1)
    (hobj : ∀ a < s.next, t.obj a = s.obj a) (hw : t.waiters = s.waiters)
    (hstatus : ∀ a < s.next, t.status a = s.status a)
    (hnew : t.obj s.next = o) (hlog : t.log = s.log ++ l) (hl : Frees o s.next l) : CmdInv t := by
  subst hnew
  have hnew : s.next ∉ t.cmdQueue := by
    rw [hq]
    exact fun hmem => (h.queue_lt hmem).ne rfl
  constructor
  case queued =>
    obtain ⟨done,hacc,hexec⟩ := h.queued
    refine ⟨done,?_,?_⟩
    · rw [CmdPriv.accepted, hlog, List.filterMap_append, hl.accepted, List.append_nil, hq]
      exact hacc
    · rw [CmdPriv.executed, hlog, List.filterMap_append, hl.executed, List.append_nil]
      exact hexec
  case nodup =>
    rw [CmdPriv.accepted, hlog, List.filterMap_append, hl.accepted, List.append_nil]
    exact h.nodup
  case lt =>
    rw [hlog, hnext]
    exact lt_append_of_addr hl.addr h.lt (Nat.le_succ _) (Nat.lt_succ_self _)
  case waiters_lt =>
    intro a ha
    rw [hw] at ha
    rw [hnext]
    exact Nat.lt_succ_of_lt (h.waiters_lt a ha)
  case objs =>
    intro a ha
    rw [hnext] at ha
    rcases Nat.lt_succ_iff_lt_or_eq.mp ha with ha | rfl
    · refine (h.objs a ha).congr (hobj a ha) (hstatus a ha) (by rw [hq]) (by rw [hw]; exact id) ?_
      rw [hlog]
      exact count_append_of_addr hl.addr ha.ne
    · constructor
      case freed =>
        intro b hb
        have hnone : CmdEffect.free b ∉ s.log := h.fresh (blocks_addr hb)
        rw [hlog, List.count_append, hl.once b hb, List.count_eq_zero.mpr hnone, if_neg hnew]
      case fits => exact fun ha => absurd ha hnew
      case attached => exact fun ha => absurd ha hnew
      case detached => exact fun ha => absurd ha hnew
      case waiting =>
        intro ha
        rw [hw] at ha
        exact absurd (h.waiters_lt _ ha) (Nat.lt_irrefl _)
  case waited =>
    rw [hlog, Trace.holds_append]
    refine ⟨h.waited,waited_of_frees ?_⟩
    intro e he
    obtain ⟨b,rfl,hb⟩ := hl.only e he
    exact ⟨b,rfl,fun hattach => absurd hattach (h.fresh hb)⟩

theorem accepted (h : CmdInv s) {t : CmdPriv} (hq : t.cmdQueue = s.cmdQueue ++ [s.next]) (hnext : t.next = s.next + 1)
    (hobj : ∀ a < s.next, t.obj a = s.obj a)
    (hw : ∀ a ∈ t.waiters, a ∈ s.waiters ∨ a = s.next ∧ o.sctx = true)
    (hstatus : ∀ a < s.next, t.status a = s.status a) (hnew : t.obj s.next = o) (hfits : o.cmdsz ≤ MAX_CMDSZ)
    (hlog : t.log = s.log ++ (if o.sctx then [.attach s.next] else []) ++ [.accept s.next]) : CmdInv t := by
  subst hnew
  have haddr : ∀ e ∈ (if (t.obj s.next).sctx then [CmdEffect.attach s.next] else []) ++ [CmdEffect.accept s.next],
      e.addr = s.next := by
    intro e he
    rcases List.mem_append.mp he with he | he
    · split at he
      · rw [List.mem_singleton.mp he]
        rfl
      · cases he
    · rw [List.mem_singleton.mp he]
      rfl
  rw [List.append_assoc] at hlog
  have hacc : t.accepted = s.accepted ++ [s.next] := by
    rw [CmdPriv.accepted, hlog, List.filterMap_append, List.filterMap_append]
    split
    · rfl
    · rfl
  have hexec : t.executed = s.executed := by
    rw [CmdPriv.executed, hlog, List.filterMap_append, List.filterMap_append]
    split
    · exact List.append_nil _
    · exact List.append_nil _
  constructor
  case queued =>
    obtain ⟨done,hdone,hsub⟩ := h.queued
    refine ⟨done,?_,?_⟩
    · rw [hacc, hdone, hq, List.append_assoc]
    · rw [hexec]
      exact hsub
  case nodup =>
    rw [hacc]
    refine List.nodup_append.mpr ⟨h.nodup,List.nodup_singleton _,?_⟩
    rintro c hc d hd rfl
    rw [List.mem_singleton] at hd
    exact (h.accepted_lt hc).ne hd
  case lt =>
    rw [hlog, hnext]
    exact lt_append_of_addr haddr h.lt (Nat.le_succ _) (Nat.lt_succ_self _)
  case waiters_lt =>
    intro a ha
    rw [hnext]
    rcases hw a ha with ha | ⟨rfl,-⟩
    · exact Nat.lt_succ_of_lt (h.waiters_lt a ha)
    · exact Nat.lt_succ_self _
  case objs =>
    intro a ha
    rw [hnext] at ha
    rcases Nat.lt_succ_iff_lt_or_eq.mp ha with ha | rfl
    · have hmem : a ∈ t.cmdQueue ↔ a ∈ s.cmdQueue := by
        rw [hq, List.mem_append, List.mem_singleton]
        exact or_iff_left ha.ne
      refine (h.objs a ha).congr (hobj a ha) (hstatus a ha) hmem ?_ ?_
      · exact fun hmem => (hw a hmem).elim id fun hnew => absurd hnew.1 ha.ne
      · rw [hlog]
        exact count_append_of_addr haddr ha.ne
    · have hnew : s.next ∈ t.cmdQueue := by
        rw [hq]
        exact List.mem_append_right _ (List.mem_singleton_self _)
      have hold : ∀ e : CmdEffect, e.addr = s.next → e ∉ s.log := fun e he => h.fresh he
      constructor
      case freed =>
        intro b hb
        rw [if_pos hnew, List.count_eq_zero, hlog]
        intro hmem
        rcases List.mem_append.mp hmem with hmem | hmem
        · exact hold (.free b) (blocks_addr hb) hmem
        · split at hmem
          · simp at hmem
          · simp at hmem
      case fits => exact fun _ => hfits
      case attached =>
        intro _ hsctx
        rw [hlog, if_pos hsctx]
        refine ⟨by simp,?_,?_⟩
        · intro hmem
          exact (List.mem_append.mp hmem).elim (hold _ rfl) (by simp)
        · intro hmem
          exact (List.mem_append.mp hmem).elim (hold _ rfl) (by simp)
      case detached =>
        intro _ hsctx hattach
        rw [hlog, hsctx] at hattach
        exact absurd ((List.mem_append.mp hattach).resolve_right (by simp)) (hold _ rfl)
      case waiting =>
        intro ha _
        rcases hw _ ha with ha | ⟨-,hsctx⟩
        · exact absurd (h.waiters_lt _ ha) (Nat.lt_irrefl _)
        · exact ⟨hnew,hsctx⟩
  case waited =>
    rw [hlog, Trace.holds_append]
    refine ⟨h.waited,Trace.holds_of_forall ?_⟩
    intro past x hx
    rcases List.mem_append.mp hx with hx | hx
    · split at hx
      · rw [List.mem_singleton.mp hx]
        trivial
      · cases hx
    · rw [List.mem_singleton.mp hx]
      trivial

theorem enqueueCmd (h : CmdInv s) {o : CmdObj} (hok : o.sctx = true → s.filter o = true ∧ o.cmdsz ≤ MAX_CMDSZ) :
    CmdInv (s.enqueueCmd o) := by
  have hne : ∀ a < s.next, a ≠ s.next := fun a ha => ha.ne
  rw [CmdPriv.enqueueCmd]
  dsimp only
  split
  · rename_i hrej
    have hsctx : o.sctx = false := by
      by_contra hsctx
      obtain ⟨hfilter,hsz⟩ := hok (by simpa using hsctx)
      rcases hrej with hrej | hrej
      · rw [hfilter] at hrej
        cases hrej
      · omega
    refine h.rejected rfl rfl ?_ ?_ ?_ (Function.update_self _ _ _) ?_ (frees_freeCmdObj o s.next)
    · exact fun a ha => Function.update_of_ne (hne a ha) _ _
    · simp [hsctx]
    · exact fun a ha => Function.update_of_ne (hne a ha) _ _
    · simp [hsctx]
  · rename_i hacc
    have hsz := (not_or.mp hacc).2
    refine h.accepted rfl rfl ?_ ?_ ?_ (Function.update_self _ _ _) (Nat.not_lt.mp hsz) rfl
    · exact fun a ha => Function.update_of_ne (hne a ha) _ _
    · intro a ha
      dsimp only at ha
      split at ha
      · rename_i hsctx
        rcases List.mem_cons.mp ha with rfl | ha
        · exact Or.inr ⟨rfl,(Bool.and_eq_true_iff.mp hsctx).2⟩
        · exact Or.inl ha
      · exact Or.inl ha
    · exact fun a ha => Function.update_of_ne (hne a ha) _ _

/-- An iteration of the thread frees the object that it takes. -/
theorem taken (h : CmdInv s) {t : CmdPriv} {rest : List ℕ} (hs : s.cmdQueue = a :: rest) (hq : t.cmdQueue = rest)
    (hnext : t.next = s.next) (hobj : ∀ c ≠ a, t.obj c = s.obj c)
    (hblocks : (t.obj a).blocks a = (s.obj a).blocks a)
    (hw : t.waiters = s.waiters) (hstatus : ∀ c ≠ a, t.status c = s.status c)
    (hdone : (s.obj a).sctx = true → t.status a ≠ .RTW_SCTX_SUBMITTED)
    (hsame : (s.obj a).sctx = false → t.status a = s.status a)
    (hlog : t.log = s.log ++ l) (hl : Iterated (s.obj a) a l) : CmdInv t := by
  have ha : a ∈ s.cmdQueue := by
    rw [hs]
    exact List.mem_cons_self
  have hnot : a ∉ t.cmdQueue := by
    have hnodup := h.queue_nodup
    rw [hs] at hnodup
    rw [hq]
    exact (List.nodup_cons.mp hnodup).1
  have hacc : t.accepted = s.accepted := by
    rw [CmdPriv.accepted, hlog, List.filterMap_append, hl.accepted, List.append_nil]
    rfl
  have hold := h.objs a (h.queue_lt ha)
  constructor
  case queued =>
    obtain ⟨done,hdone,hsub⟩ := h.queued
    refine ⟨done ++ [a],?_,?_⟩
    · rw [hacc, hdone, hs, hq, List.append_assoc]
      rfl
    · rw [CmdPriv.executed, hlog, List.filterMap_append]
      apply List.Sublist.append hsub
      rcases hl.executed with h | h
      · rw [h]
        exact List.nil_sublist _
      · rw [h]
  case nodup =>
    rw [hacc]
    exact h.nodup
  case lt =>
    rw [hlog, hnext]
    exact lt_append_of_addr hl.addr h.lt le_rfl (h.queue_lt ha)
  case waiters_lt =>
    rw [hw, hnext]
    exact h.waiters_lt
  case objs =>
    intro c hc
    rw [hnext] at hc
    rcases eq_or_ne c a with rfl | hca
    · constructor
      case freed =>
        intro b hb
        rw [hblocks] at hb
        rw [hlog, List.count_append, hold.freed b hb, hl.once b hb, if_pos ha, if_neg hnot]
      case fits => exact fun ha => absurd ha hnot
      case attached => exact fun ha => absurd ha hnot
      case detached => exact fun ha => absurd ha hnot
      case waiting =>
        intro hwait hsub
        rw [hw] at hwait
        cases hsctx : (s.obj c).sctx with
        | true => exact absurd hsub (hdone hsctx)
        | false =>
          rw [hsame hsctx] at hsub
          have hattached := (hold.waiting hwait hsub).2
          rw [hsctx] at hattached
          cases hattached
    · have hmem : c ∈ t.cmdQueue ↔ c ∈ s.cmdQueue := by
        rw [hq, hs, List.mem_cons]
        exact (or_iff_right hca).symm
      refine (h.objs c hc).congr (hobj c hca) (hstatus c hca) hmem (by rw [hw]; exact id) ?_
      rw [hlog]
      exact count_append_of_addr hl.addr hca
  case waited =>
    rw [hlog, Trace.holds_append]
    refine ⟨h.waited,hl.waited s.log ?_⟩
    intro hattach
    cases hsctx : (s.obj a).sctx with
    | true => exact Or.inl rfl
    | false => exact Or.inr (hold.detached ha hsctx hattach)

theorem iterate (h : CmdInv s) {result : UInt8}
    (hok : ∀ a rest, s.cmdQueue = a :: rest → (s.obj a).cmdcode = _DisConnect_CMD_ →
      s.filter (s.obj a) = true ∧ result.toNat = H2C_SUCCESS) (hrun : s.cmdthdRunning = true) :
    CmdInv (s.iterate result) := by
  rw [CmdPriv.iterate, if_neg (by rw [hrun]; exact Bool.noConfusion)]
  cases hs : s.cmdQueue with
  | nil => exact h
  | cons a rest =>
    have ha : a ∈ s.cmdQueue := by
      rw [hs]
      exact List.mem_cons_self
    have hfits := (h.objs a (h.queue_lt ha)).fits ha
    have hres : (s.obj a).cmdcode = _DisConnect_CMD_ → (s.process (s.obj a) a result).1 = H2C_SUCCESS := by
      intro hcode
      obtain ⟨hfilter,hresult⟩ := hok a rest hs hcode
      rw [CmdPriv.process, if_neg (Nat.not_lt.mpr hfits), hcode]
      change (if s.filter (s.obj a) = false then _ else (result.toNat,_) : ℕ × List CmdEffect).1 = _
      rw [hfilter]
      exact hresult
    have hcb := callback_frees (o := s.obj a) (a := a) hres
    obtain ⟨x,hx,hdone⟩ : ∃ x, (x = [] ∨ x = [.exec a]) ∧
        (s.process (s.obj a) a result).2 = x ++ (s.obj a).freeExtra a := by
      rcases process_frees s a hfits result with h | h
      · exact ⟨[],Or.inl rfl,h⟩
      · exact ⟨[.exec a],Or.inr rfl,h⟩
    have hl := iterated_of_frees hx hcb
    rw [← hdone] at hl
    dsimp only
    refine h.taken hs rfl rfl ?_ ?_ rfl ?_ ?_ ?_ ?_ hl
    · exact fun c hc => Function.update_of_ne hc _ _
    · dsimp only
      rw [Function.update_self]
      rfl
    · intro c hc
      dsimp only
      split
      · exact Function.update_of_ne hc _ _
      · rfl
    · intro hsctx
      dsimp only
      rw [if_pos hsctx, Function.update_self]
      split
      · exact SctxStatus.noConfusion
      · exact SctxStatus.noConfusion
    · intro hsctx
      dsimp only
      rw [hsctx]
      rfl
    · simp only [List.append_assoc]

/-- A waiter whose command is not done takes its submit context back. -/
theorem detach (h : CmdInv s) {t : CmdPriv} (hwait : a ∈ s.waiters) (hsub : s.status a = .RTW_SCTX_SUBMITTED)
    (hq : t.cmdQueue = s.cmdQueue) (hnext : t.next = s.next) (hobj : ∀ c ≠ a, t.obj c = s.obj c)
    (hself : t.obj a = { s.obj a with sctx := false }) (hw : t.waiters = s.waiters.filter (· ≠ a))
    (hstatus : t.status = s.status)
    (hlog : t.log = s.log ++ [.detach a]) : CmdInv t := by
  have hold := h.objs a (h.waiters_lt a hwait)
  have ha := (hold.waiting hwait hsub).1
  have haddr : ∀ e ∈ [CmdEffect.detach a], e.addr = a := by
    intro e he
    rw [List.mem_singleton.mp he]
    rfl
  have hsub : ∀ c ∈ t.waiters, c ∈ s.waiters := by
    intro c hc
    rw [hw] at hc
    exact List.mem_of_mem_filter hc
  constructor
  case queued =>
    obtain ⟨done,hacc,hexec⟩ := h.queued
    refine ⟨done,?_,?_⟩
    · rw [CmdPriv.accepted, hlog, List.filterMap_append, hq]
      exact (List.append_nil _).trans hacc
    · rw [CmdPriv.executed, hlog, List.filterMap_append]
      exact (List.append_nil _).symm ▸ hexec
  case nodup =>
    rw [CmdPriv.accepted, hlog, List.filterMap_append]
    exact (List.append_nil _).symm ▸ h.nodup
  case lt =>
    rw [hlog, hnext]
    exact lt_append_of_addr haddr h.lt le_rfl (h.waiters_lt a hwait)
  case waiters_lt =>
    rw [hnext]
    exact fun c hc => h.waiters_lt c (hsub c hc)
  case objs =>
    intro c hc
    rw [hnext] at hc
    rcases eq_or_ne c a with rfl | hca
    · constructor
      case freed =>
        intro b hb
        rw [hself] at hb
        rw [hlog, List.count_append, hq]
        exact hold.freed b hb
      case fits =>
        intro hmem
        rw [hself]
        exact hold.fits ha
      case attached =>
        intro _ hsctx
        rw [hself] at hsctx
        cases hsctx
      case detached =>
        intro _ _ _
        rw [hlog]
        exact List.mem_append_right _ (List.mem_singleton_self _)
      case waiting =>
        intro hmem
        rw [hw] at hmem
        simp at hmem
    · refine (h.objs c hc).congr (hobj c hca) (by rw [hstatus]) (by rw [hq]) (hsub c) ?_
      rw [hlog]
      exact count_append_of_addr haddr hca
  case waited =>
    rw [hlog, Trace.holds_concat]
    have hzero := hold.freed (.cmdObj a) List.mem_cons_self
    rw [if_pos ha] at hzero
    exact ⟨h.waited,List.count_eq_zero.mp hzero⟩

theorem wake (h : CmdInv s) (a : ℕ) : CmdInv (s.wake a) := by
  rw [CmdPriv.wake]
  split
  · rename_i hwait
    dsimp only
    split
    · rename_i hsub
      exact h.detach hwait hsub rfl rfl (fun c hc => Function.update_of_ne hc _ _)
        (Function.update_self _ _ _) rfl rfl rfl
    · refine ⟨h.queued,h.nodup,h.lt,fun c hc => h.waiters_lt c (List.mem_of_mem_filter hc),?_,h.waited⟩
      exact fun c hc => (h.objs c hc).congr rfl rfl Iff.rfl List.mem_of_mem_filter fun _ _ => rfl
  · exact h

end CmdInv

theorem count_drained {q : List ℕ} (hq : q.Nodup) {f : ℕ → List CmdEffect} {e : CmdEffect}
    (hf : ∀ c ∈ q, c ≠ e.addr → e ∉ f c) :
    (q.flatMap f).count e = if e.addr ∈ q then (f e.addr).count e else 0 := by
  induction q with
  | nil => rfl
  | cons c q ih =>
    obtain ⟨hc,hq⟩ := List.nodup_cons.mp hq
    rw [List.flatMap_cons, List.count_append, ih hq fun d hd => hf d (List.mem_cons_of_mem _ hd)]
    rcases eq_or_ne e.addr c with hce | hce
    · rw [hce, if_neg hc, if_pos List.mem_cons_self, Nat.add_zero]
    · rw [List.count_eq_zero.mpr (hf c List.mem_cons_self hce.symm), Nat.zero_add]
      apply if_congr _ rfl rfl
      rw [List.mem_cons, or_iff_right hce]

namespace CmdInv

theorem stop (h : CmdInv s) (hok : ∀ a ∈ s.cmdQueue, (s.obj a).sctx = false) (hrun : s.cmdthdRunning = true) :
    CmdInv s.stop := by
  rw [CmdPriv.stop, if_neg (by rw [hrun]; exact Bool.noConfusion)]
  have hfrees : ∀ a, Frees (s.obj a) a ((s.obj a).freeExtra a ++ (s.obj a).freeCmdObj a) :=
    fun a => frees_freeCmdObj _ a
  generalize hl : (s.cmdQueue.flatMap fun a => (s.obj a).freeExtra a ++ (s.obj a).freeCmdObj a) = l
  have honly : ∀ e ∈ l, ∃ a ∈ s.cmdQueue, ∃ b : CmdBlock, e = .free b ∧ b.addr = a := by
    intro e he
    rw [← hl] at he
    obtain ⟨a,ha,he⟩ := List.mem_flatMap.mp he
    exact ⟨a,ha,(hfrees a).only e he⟩
  have hcount : ∀ b : CmdBlock, b ∈ (s.obj b.addr).blocks b.addr → l.count (.free b) = if b.addr ∈ s.cmdQueue
      then 1 else 0 := by
    intro b hb
    rw [← hl, count_drained h.queue_nodup]
    · change (if b.addr ∈ s.cmdQueue then _ else _) = _
      split
      · exact (hfrees b.addr).once b hb
      · rfl
    · intro c _ hc hmem
      exact hc ((hfrees c).addr _ hmem).symm
  have hexec : l.filterMap CmdEffect.executed = [] := by
    apply List.filterMap_eq_nil_iff.mpr
    intro e he
    obtain ⟨a,-,b,rfl,-⟩ := honly e he
    rfl
  have hacc : l.filterMap CmdEffect.accepted = [] := by
    apply List.filterMap_eq_nil_iff.mpr
    intro e he
    obtain ⟨a,-,b,rfl,-⟩ := honly e he
    rfl
  constructor
  case queued =>
    obtain ⟨done,hdone,hsub⟩ := h.queued
    refine ⟨done ++ s.cmdQueue,?_,?_⟩
    · rw [CmdPriv.accepted, List.filterMap_append, hacc, List.append_nil, List.append_nil]
      exact hdone
    · rw [CmdPriv.executed, List.filterMap_append, hexec, List.append_nil]
      exact hsub.trans (List.sublist_append_left _ _)
  case nodup =>
    rw [CmdPriv.accepted, List.filterMap_append, hacc, List.append_nil]
    exact h.nodup
  case lt =>
    intro e he
    rcases List.mem_append.mp he with he | he
    · exact h.lt e he
    · obtain ⟨a,ha,b,rfl,hb⟩ := honly e he
      exact hb.trans_lt (h.queue_lt ha)
  case waiters_lt => exact h.waiters_lt
  case objs =>
    intro a ha
    have hold := h.objs a ha
    have hempty : a ∉ ([] : List ℕ) := List.not_mem_nil
    constructor
    case freed =>
      intro b hb
      have hba := blocks_addr hb
      subst hba
      rw [List.count_append, hold.freed b hb, hcount b hb, if_neg hempty]
      split
      · rfl
      · rfl
    case fits => exact fun ha => absurd ha hempty
    case attached => exact fun ha => absurd ha hempty
    case detached => exact fun ha => absurd ha hempty
    case waiting =>
      intro hwait hsub
      obtain ⟨hmem,hsctx⟩ := hold.waiting hwait hsub
      rw [hok a hmem] at hsctx
      cases hsctx
  case waited =>
    rw [Trace.holds_append]
    refine ⟨h.waited,waited_of_frees ?_⟩
    intro e he
    obtain ⟨a,ha,b,rfl,rfl⟩ := honly e he
    exact ⟨b,rfl,fun hattach => Or.inr ((h.objs _ (h.queue_lt ha)).detached ha (hok _ ha) hattach)⟩

end CmdInv

/-! ## Runs -/

/-- The condition on an event in the state that it meets -/
def CmdEventOk (s : CmdPriv) : CmdEvent → Prop
  | .enqueue o => o.sctx = true → s.filter o = true ∧ o.cmdsz ≤ MAX_CMDSZ
  | .iterate result => s.cmdthdRunning = true → ∀ a rest, s.cmdQueue = a :: rest →
      (s.obj a).cmdcode = _DisConnect_CMD_ → s.filter (s.obj a) = true ∧ result.toNat = H2C_SUCCESS
  | .stop => s.cmdthdRunning = true → ∀ a ∈ s.cmdQueue, (s.obj a).sctx = false
  | _ => True

namespace CmdInv

theorem init : CmdInv .init where
  queued := ⟨[],rfl,List.nil_sublist _⟩
  nodup := List.nodup_nil
  lt _ he := absurd he List.not_mem_nil
  waiters_lt _ ha := absurd ha List.not_mem_nil
  objs a ha := absurd ha (Nat.not_lt_zero a)
  waited := Trace.holds_nil

theorem step (h : CmdInv s) {e : CmdEvent} (hok : CmdEventOk s e) : CmdInv (cmdStep s e) := by
  have hflags : ∀ running hwInit, CmdInv { s with cmdthdRunning := running, hwInitCompleted := hwInit } := by
    intro running hwInit
    refine ⟨h.queued,h.nodup,h.lt,h.waiters_lt,?_,h.waited⟩
    exact fun a ha => (h.objs a ha).congr rfl rfl Iff.rfl id fun _ _ => rfl
  cases e with
  | enqueue o => exact h.enqueueCmd hok
  | iterate result =>
    cases hrun : s.cmdthdRunning with
    | true => exact h.iterate (hok hrun) hrun
    | false =>
      rw [cmdStep, CmdPriv.iterate, if_pos hrun]
      exact h
  | wake a => exact h.wake a
  | start => exact hflags true s.hwInitCompleted
  | stop =>
    cases hrun : s.cmdthdRunning with
    | true => exact h.stop (hok hrun) hrun
    | false =>
      rw [cmdStep, CmdPriv.stop, if_pos hrun]
      exact h
  | hwInit completed => exact hflags s.cmdthdRunning completed

/-- A command that is rejected is freed with its submit context attached. -/
theorem enqueue_only (h : CmdInv s) {o : CmdObj} (hok : CmdOk (s.enqueueCmd o)) :
    o.sctx = true → s.filter o = true ∧ o.cmdsz ≤ MAX_CMDSZ := by
  intro hsctx
  by_contra hrej
  have hrej : s.filter o = false ∨ MAX_CMDSZ < o.cmdsz := by
    by_contra hnot
    obtain ⟨hfilter,hsz⟩ := not_or.mp hnot
    exact hrej ⟨by simpa using hfilter,Nat.not_lt.mp hsz⟩
  have hfrees := frees_freeCmdObj o s.next
  obtain ⟨y,hy⟩ : ∃ y, o.freeExtra s.next ++ o.freeCmdObj s.next = y ++ [.free (.cmdObj s.next)] := by
    rw [CmdObj.freeCmdObj]
    exact ⟨_,(List.append_assoc _ _ _).symm⟩
  have hwaited := hok.waited
  rw [CmdPriv.enqueueCmd] at hwaited
  dsimp only at hwaited
  rw [if_pos hrej, if_pos hsctx] at hwaited
  dsimp only at hwaited
  rw [List.append_assoc, hy, ← List.append_assoc, Trace.holds_concat] at hwaited
  have hnone : ∀ e : CmdEffect, e.addr = s.next → (∀ b, e ≠ .free b) → e ≠ .attach s.next →
      e ∉ s.log ++ [.attach s.next] ++ y := by
    intro e he hfree hattach hmem
    rcases List.mem_append.mp hmem with hmem | hmem
    · rcases List.mem_append.mp hmem with hmem | hmem
      · exact h.fresh he hmem
      · exact hattach (List.mem_singleton.mp hmem)
    · obtain ⟨b,hb,-⟩ := hfrees.only e (hy ▸ List.mem_append_left _ hmem)
      exact hfree b hb
  rcases hwaited.2 (by simp) with hmem | hmem
  · exact hnone (.complete s.next) rfl (fun _ => CmdEffect.noConfusion) CmdEffect.noConfusion hmem
  · exact hnone (.detach s.next) rfl (fun _ => CmdEffect.noConfusion) CmdEffect.noConfusion hmem

/-- A disconnect that is dropped or fails is never freed. -/
theorem iterate_only (h : CmdInv s) {result : UInt8} (hok : CmdOk (s.iterate result)) (hrun : s.cmdthdRunning = true)
    {rest : List ℕ} (hs : s.cmdQueue = a :: rest) (hcode : (s.obj a).cmdcode = _DisConnect_CMD_) :
    s.filter (s.obj a) = true ∧ result.toNat = H2C_SUCCESS := by
  by_contra hbad
  have ha : a ∈ s.cmdQueue := by
    rw [hs]
    exact List.mem_cons_self
  have hlt := h.queue_lt ha
  have hfits := (h.objs a hlt).fits ha
  have hnot : a ∉ rest := by
    have hnodup := h.queue_nodup
    rw [hs] at hnodup
    exact (List.nodup_cons.mp hnodup).1
  have hres : (s.process (s.obj a) a result).1 ≠ H2C_SUCCESS := by
    rw [CmdPriv.process, if_neg (Nat.not_lt.mpr hfits), hcode]
    change (if s.filter (s.obj a) = false then (H2C_DROPPED,_) else (result.toNat,_) : ℕ × List CmdEffect).1 ≠ _
    split
    · exact fun h => by cases h
    · rename_i hfilter
      exact fun hresult => hbad ⟨by simpa using hfilter,hresult⟩
  have hone := hok.freed a
  rw [CmdPriv.iterate, if_neg (by rw [hrun]; exact Bool.noConfusion)] at hone
  simp only [hs] at hone
  have hone := hone hlt (.cmdObj a) List.mem_cons_self
  rw [if_neg hnot, callback_leaks hcode hres, List.append_nil] at hone
  have hmem : CmdEffect.free (.cmdObj a) ∈ s.log ++ (s.process (s.obj a) a result).2 ++
      (if (s.obj a).sctx then [CmdEffect.complete a] else []) := by
    rw [← List.count_pos_iff, hone]
    exact Nat.one_pos
  have hzero := (h.objs a hlt).freed (.cmdObj a) List.mem_cons_self
  rw [if_pos ha, List.count_eq_zero] at hzero
  have hpbuf : CmdEffect.free (.cmdObj a) ∉ (s.obj a).freeExtra a := by
    rw [freeExtra_eq]
    intro hmem
    cases freePbuf_only hmem
  rcases List.mem_append.mp hmem with hmem | hmem
  · rcases List.mem_append.mp hmem with hmem | hmem
    · exact hzero hmem
    · rcases process_frees s a hfits result with hdone | hdone
      · rw [hdone] at hmem
        exact hpbuf hmem
      · rw [hdone] at hmem
        rcases List.mem_cons.mp hmem with hmem | hmem
        · cases hmem
        · exact hpbuf hmem
  · split at hmem
    · cases List.mem_singleton.mp hmem
    · cases hmem

/-- At the end of the thread a submit context may be left attached to an object that is freed. -/
theorem stop_only (h : CmdInv s) (hok : CmdOk s.stop) (hrun : s.cmdthdRunning = true) (ha : a ∈ s.cmdQueue) :
    (s.obj a).sctx = false := by
  by_contra hsctx
  obtain ⟨hattach,hcomplete,hdetach⟩ := (h.objs a (h.queue_lt ha)).attached ha (by simpa using hsctx)
  have hwaited := hok.waited
  rw [CmdPriv.stop, if_neg (by rw [hrun]; exact Bool.noConfusion)] at hwaited
  have honly : ∀ e ∈ (s.cmdQueue.flatMap fun a => (s.obj a).freeExtra a ++ (s.obj a).freeCmdObj a), ∃ b,
      e = .free b := by
    intro e he
    obtain ⟨c,-,he⟩ := List.mem_flatMap.mp he
    obtain ⟨b,hb,-⟩ := (frees_freeCmdObj _ c).only e he
    exact ⟨b,hb⟩
  have hmem :
      CmdEffect.free (.cmdObj a) ∈ (s.cmdQueue.flatMap fun a => (s.obj a).freeExtra a ++ (s.obj a).freeCmdObj a) := by
    refine List.mem_flatMap.mpr ⟨a,ha,?_⟩
    rw [← List.count_pos_iff, (frees_freeCmdObj _ a).once _ List.mem_cons_self]
    exact Nat.one_pos
  obtain ⟨p,r,hpr⟩ := List.append_of_mem hmem
  dsimp only at hwaited
  rw [Trace.holds_append] at hwaited
  have hneed := hwaited.2 p (.free (.cmdObj a)) ⟨r,by rw [hpr]; simp⟩ (List.mem_append_left _ hattach)
  have hp : ∀ e, (∀ b, e ≠ .free b) → e ∉ p := by
    intro e hfree hmem
    obtain ⟨b,hb⟩ := honly e (hpr ▸ List.mem_append_left _ hmem)
    exact hfree b hb
  rcases hneed with hmem | hmem
  · exact (List.mem_append.mp hmem).elim hcomplete (hp _ fun _ => CmdEffect.noConfusion)
  · exact (List.mem_append.mp hmem).elim hdetach (hp _ fun _ => CmdEffect.noConfusion)

theorem only (h : CmdInv s) {e : CmdEvent} (hok : CmdOk (cmdStep s e)) : CmdEventOk s e := by
  cases e with
  | enqueue o => exact h.enqueue_only hok
  | iterate result => exact fun hrun a rest hs hcode => h.iterate_only hok hrun hs hcode
  | stop => exact fun hrun a ha => h.stop_only hok hrun ha
  | wake a => trivial
  | start => trivial
  | hwInit completed => trivial

end CmdInv

/-- In every run, each state is right exactly if each event met the condition in its state. -/
theorem cmds_ok_iff (es : List CmdEvent) :
    (∀ past, past <+: es → CmdOk (cmdRun past)) ↔
    ∀ past e, past ++ [e] <+: es → CmdEventOk (cmdRun past) e := by
  have hstep : ∀ past e, cmdRun (past ++ [e]) = cmdStep (cmdRun past) e := fun past e => Run.run_append _ _ _ _
  apply Trace.prefix_iff (I := fun past => CmdInv (cmdRun past))
  · exact CmdInv.init
  · exact fun past h => h.ok
  · intro past e h hok
    rw [hstep]
    exact h.step hok
  · intro past e h hok
    rw [hstep] at hok
    exact h.only hok

def disassocCmd : CmdObj :=
  ⟨_DisConnect_CMD_,.parm,4,false,0,false,false,by simp [_DisConnect_CMD_, _Set_Drv_Extra_CMD_]⟩

/-- `rtw_createbss_cmd` with `RTW_CMDF_WAIT_ACK` -/
def createbssCmd : CmdObj := ⟨16,.parm,8,false,0,true,false,by simp [_Set_Drv_Extra_CMD_]⟩

/-- A disconnect is in the queue when the hardware goes down. -/
def disassocDropped : List CmdEvent := [.start,.hwInit true,.enqueue disassocCmd,.hwInit false,.iterate 0]

/-- The thread ends while a caller waits for its command; then the caller's time is over. -/
def waiterOfDrained : List CmdEvent := [.start,.hwInit true,.enqueue createbssCmd,.stop,.wake 0]

/-- The dropped disconnect is never freed; and the waiter writes to an object that is freed. -/
theorem disassoc_leaks_and_waiter_writes : ¬ CmdOk (cmdRun disassocDropped) ∧ ¬ CmdOk (cmdRun waiterOfDrained) := by
  constructor
  · intro h
    have hone := h.freed 0 (by decide) (.cmdObj 0) List.mem_cons_self
    revert hone
    decide
  · intro h
    have hlog : (cmdRun waiterOfDrained).log =
        [.attach 0,.accept 0,.free (.parmbuf 0),.free (.cmdObj 0)] ++ [.detach 0] := by decide
    have hwaited := h.waited
    rw [hlog, Trace.holds_concat] at hwaited
    exact hwaited.2 (by decide)

end Rtl8188fu
