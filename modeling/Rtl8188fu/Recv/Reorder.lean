import Rtl8188fu.Recv.EthHdr

/-! # The Rx reorder buffer

One `recv_reorder_ctrl` and the calls that change it. A call answers the frames it
takes out of the pending queue as a list of effects, in the order in which the
driver hands them on; handing a frame on never touches the reorder control again.
-/
namespace Rtl8188fu

structure RecvReorderCtrl where
  enable : Bool
  /-- `wstart_b`; `0xffff` until the first frame -/
  indicateSeq : ℕ
  wsizeB : ℕ
  pending : List RecvFrame
  bReorderWaiting : Bool
  deriving DecidableEq

/-- What becomes of a frame that leaves the reorder code. -/
inductive Effect
  | indicate (f : RecvFrame)
  | amsduToMsdu (f : RecvFrame)
  /-- unlinked, then neither indicated nor freed: `RTW_CANNOT_RUN` -/
  | forget (f : RecvFrame)
  deriving DecidableEq

/-- `SN_LESS`: bit 11 of the difference of the two integers -/
def snLess (a b : ℕ) : Bool := decide (2048 ≤ ((a : ℤ) - b) % 4096)

def snEqual (a b : ℕ) : Bool := decide (a = b)

def checkIndicateSeq (c : RecvReorderCtrl) (seqNum : ℕ) : Bool × RecvReorderCtrl :=
  let wsize := c.wsizeB
  let wend := ((((c.indicateSeq : ℤ) + wsize) - 1) % 4096).toNat
  let c := if c.indicateSeq = 0xffff then { c with indicateSeq := seqNum } else c
  if snLess seqNum c.indicateSeq then (false, c)
  else if snEqual seqNum c.indicateSeq then
    (true, { c with indicateSeq := (c.indicateSeq + 1) % 4096 })
  else if snLess wend seqNum then
    -- boundary situation, when seq_num crosses 0xFFF
    if wsize - 1 ≤ seqNum then (true, { c with indicateSeq := seqNum + 1 - wsize })
    else (true, { c with indicateSeq := 0xfff - (wsize - (seqNum + 1)) + 1 })
  else (true, c)

/-- The sorted insertion of `enqueue_reorder_recvframe`; `none` for a duplicate -/
def insertPending (f : RecvFrame) : List RecvFrame → Option (List RecvFrame)
  | [] => some [f]
  | g :: q =>
    if snLess g.attrib.seqNum f.attrib.seqNum then (insertPending f q).map (g :: ·)
    else if snEqual g.attrib.seqNum f.attrib.seqNum then none
    else some (f :: g :: q)

def enqueueReorderRecvframe (c : RecvReorderCtrl) (f : RecvFrame) : Bool × RecvReorderCtrl :=
  match insertPending f c.pending with
  | none => (false, c)
  | some q => (true, { c with pending := q })

/-- The loop of `recv_indicatepkts_in_order`: the new `indicate_seq`, the frames that
leave the queue, and what stays in it. -/
def indicateLoop (indicateSeq : ℕ) : List RecvFrame → ℕ × List RecvFrame × List RecvFrame
  | [] => (indicateSeq, [], [])
  | f :: q =>
    if !snLess indicateSeq f.attrib.seqNum then
      let next := if snEqual indicateSeq f.attrib.seqNum then (indicateSeq + 1) % 4096 else indicateSeq
      let r := indicateLoop next q
      (r.1, f :: r.2.1, r.2.2)
    else (indicateSeq, [], f :: q)

/-- How a frame that was just unlinked is handed on. -/
def handOn (cannotRun : Bool) (f : RecvFrame) : Effect :=
  if !f.attrib.amsdu then
    if !cannotRun then .indicate f else .forget f
  else .amsduToMsdu f

/-- The second half of `recv_indicatepkts_in_order`, from the given `indicate_seq` -/
def indicateFrom (cannotRun : Bool) (c : RecvReorderCtrl) (start : ℕ) :
    Bool × RecvReorderCtrl × List Effect :=
  let r := indicateLoop start c.pending
  (!r.2.2.isEmpty, { c with indicateSeq := r.1, pending := r.2.2 }, r.2.1.map (handOn cannotRun))

/-- `recv_indicatepkts_in_order`; the answer is `bPktInBuf`, or `_TRUE` when a forced
call finds nothing to do. -/
def recvIndicatepktsInOrder (cannotRun : Bool) (c : RecvReorderCtrl) (bforced : Bool) :
    Bool × RecvReorderCtrl × List Effect :=
  if bforced then
    match c.pending with
    | [] => (true, c, [])
    | f :: _ => indicateFrom cannotRun c f.attrib.seqNum
  else indicateFrom cannotRun c c.indicateSeq

/-- Steps s2, s3 and s4 of `recv_indicatepkt_reorder` -/
def reorderRecvframe (cannotRun : Bool) (c : RecvReorderCtrl) (f : RecvFrame) :
    Status × RecvReorderCtrl × List Effect :=
  let s2 := checkIndicateSeq c f.attrib.seqNum
  if !s2.1 then (.fail, s2.2, [])
  else
    let s3 := enqueueReorderRecvframe s2.2 f
    if !s3.1 then (.fail, s3.2, [])
    else
      let s4 := recvIndicatepktsInOrder cannotRun s3.2 false
      (.success, { s4.2.1 with bReorderWaiting := s4.1 }, s4.2.2)

def recvIndicatepktReorder (cannotRun : Bool) (c : RecvReorderCtrl) (f : RecvFrame) :
    Status × RecvReorderCtrl × List Effect :=
  if !f.attrib.amsdu then
    match wlanhdrToEthhdr f with
    | none => (.fail, c, [])
    | some f =>
      if !f.attrib.qos then
        if !cannotRun then (.success, c, [.indicate f]) else (.fail, c, [])
      else if !c.enable then
        (.success, { c with indicateSeq := (f.attrib.seqNum + 1) % 4096 }, [.indicate f])
      else reorderRecvframe cannotRun c f
  else if !c.enable then
    (.success, { c with indicateSeq := (f.attrib.seqNum + 1) % 4096 }, [.amsduToMsdu f])
  else reorderRecvframe cannotRun c f

def rtwReorderingCtrlTimeoutHandler (cannotRun : Bool) (c : RecvReorderCtrl) :
    RecvReorderCtrl × List Effect :=
  if cannotRun then (c, [])
  else (recvIndicatepktsInOrder cannotRun { c with bReorderWaiting := false } true).2

def Effect.frame : Effect → RecvFrame
  | .indicate f => f
  | .amsduToMsdu f => f
  | .forget f => f

@[simp] theorem handOn_frame (cannotRun : Bool) (f : RecvFrame) : (handOn cannotRun f).frame = f := by
  unfold handOn
  split_ifs <;> rfl

theorem insertPending_perm {f : RecvFrame} {q r : List RecvFrame} (h : insertPending f q = some r) :
    r.Perm (f :: q) := by
  induction q generalizing r with
  | nil =>
    cases h
    exact List.Perm.refl _
  | cons g q ih =>
    unfold insertPending at h
    split_ifs at h with hless heq
    · obtain ⟨t,ht,rfl⟩ := Option.map_eq_some_iff.mp h
      exact ((ih ht).cons g).trans (List.Perm.swap f g q)
    · cases h
      exact List.Perm.refl _

theorem indicateLoop_append (start : ℕ) (q : List RecvFrame) :
    (indicateLoop start q).2.1 ++ (indicateLoop start q).2.2 = q := by
  induction q generalizing start with
  | nil => rfl
  | cons f q ih =>
    unfold indicateLoop
    split
    · exact congrArg (f :: ·) (ih _)
    · rfl

theorem enqueueReorderRecvframe_none {c : RecvReorderCtrl} {f : RecvFrame}
    (h : insertPending f c.pending = none) : enqueueReorderRecvframe c f = (false,c) := by
  rw [enqueueReorderRecvframe, h]

theorem enqueueReorderRecvframe_some {c : RecvReorderCtrl} {f : RecvFrame} {q : List RecvFrame}
    (h : insertPending f c.pending = some q) :
    enqueueReorderRecvframe c f = (true,{ c with pending := q }) := by
  rw [enqueueReorderRecvframe, h]

theorem checkIndicateSeq_pending (c : RecvReorderCtrl) (seq : ℕ) :
    (checkIndicateSeq c seq).2.pending = c.pending := by
  unfold checkIndicateSeq
  dsimp only
  split_ifs <;> rfl

/-- A call that fails holds nothing back and hands nothing on; after any other the frame is
in the queue or handed on, with the rest of the queue. -/
structure Conserves (c : RecvReorderCtrl) (f : RecvFrame) (r : Status × RecvReorderCtrl × List Effect) :
    Prop where
  status : r.1 = .success ∨ r.1 = .fail
  fail : r.1 = .fail → r.2.1.pending = c.pending ∧ r.2.2 = []
  success : r.1 = .success →
    ((r.2.2.map (·.frame.id)) ++ r.2.1.pending.map (·.id)).Perm (f.id :: c.pending.map (·.id))

theorem reorderRecvframe_conserves (cannotRun : Bool) (c : RecvReorderCtrl) (f : RecvFrame) :
    Conserves c f (reorderRecvframe cannotRun c f) := by
  obtain ⟨ok,d,hcheck⟩ : ∃ ok d, checkIndicateSeq c f.attrib.seqNum = (ok,d) := ⟨_,_,rfl⟩
  have hpend : d.pending = c.pending := by
    rw [← checkIndicateSeq_pending c f.attrib.seqNum, hcheck]
  unfold reorderRecvframe
  simp only [hcheck]
  cases ok with
  | false => exact ⟨Or.inr rfl,fun _ => ⟨hpend,rfl⟩,nofun⟩
  | true =>
    simp only [Bool.not_true, Bool.false_eq_true, ↓reduceIte]
    cases hins : insertPending f d.pending with
    | none =>
      simp only [enqueueReorderRecvframe_none hins]
      exact ⟨Or.inr rfl,fun _ => ⟨hpend,rfl⟩,nofun⟩
    | some q =>
      simp only [enqueueReorderRecvframe_some hins]
      refine ⟨Or.inl rfl,nofun,fun _ => ?_⟩
      have hperm := insertPending_perm hins
      rw [hpend] at hperm
      have hids : (fun e : Effect => e.frame.id) ∘ handOn cannotRun = fun f : RecvFrame => f.id := by
        funext g
        simp
      simp only [Bool.not_true, recvIndicatepktsInOrder, indicateFrom, Bool.false_eq_true, ↓reduceIte,
        List.map_map, hids]
      rw [← List.map_append, indicateLoop_append]
      exact hperm.map _

theorem recvIndicatepktReorder_conserves (cannotRun : Bool) (c : RecvReorderCtrl) (f : RecvFrame) :
    Conserves c f (recvIndicatepktReorder cannotRun c f) := by
  have hfail : Conserves c f (.fail,c,[]) := ⟨Or.inr rfl,fun _ => ⟨rfl,rfl⟩,nofun⟩
  unfold recvIndicatepktReorder
  cases hamsdu : f.attrib.amsdu with
  | true =>
    simp only [Bool.not_true, Bool.false_eq_true, ↓reduceIte]
    split
    · exact ⟨Or.inl rfl,nofun,fun _ => List.Perm.refl _⟩
    · exact reorderRecvframe_conserves cannotRun c f
  | false =>
    simp only [Bool.not_false, ↓reduceIte]
    cases hconv : wlanhdrToEthhdr f with
    | none => exact hfail
    | some g =>
      obtain ⟨hid,_,_⟩ := wlanhdrToEthhdr_frame hconv
      have hsame : ∀ r, Conserves c g r → Conserves c f r := by
        rintro r ⟨h1,h2,h3⟩
        exact ⟨h1,h2,hid ▸ h3⟩
      refine hsame _ ?_
      dsimp only
      split_ifs
      · exact ⟨Or.inl rfl,nofun,fun _ => List.Perm.refl _⟩
      · exact ⟨Or.inr rfl,fun _ => ⟨rfl,rfl⟩,nofun⟩
      · exact ⟨Or.inl rfl,nofun,fun _ => List.Perm.refl _⟩
      · exact reorderRecvframe_conserves cannotRun c g

end Rtl8188fu
