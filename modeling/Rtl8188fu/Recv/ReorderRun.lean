import Rtl8188fu.Library.Run
import Rtl8188fu.Recv.ReorderWindow

/-! # Runs of one reorder buffer

Frames arrive and the reorder timer fires in any order; from some point on the device
may be gone. Frames without QoS control bypass the buffer, so order is a statement
about the QoS frames.
-/
namespace Rtl8188fu
open SerialOrder

inductive ReorderEvent
  | arrival (f : RecvFrame)
  | timeout
  /-- surprise removal or driver stop: `RTW_CANNOT_RUN` from here on -/
  | stop

/-- A data frame that is not an A-MSDU, with a 12-bit sequence number -/
def ReorderEvent.NotAmsdu : ReorderEvent → Prop
  | .arrival f => f.attrib.amsdu = false ∧ f.attrib.seqNum < 4096
  | .timeout => True
  | .stop => True

def Effect.indicated : Effect → Option RecvFrame
  | .indicate f => some f
  | _ => none

structure ReorderState where
  ctrl : RecvReorderCtrl
  cannotRun : Bool
  /-- everything handed to `rtw_recv_indicatepkt`, oldest first -/
  delivered : List RecvFrame

def ReorderState.step (s : ReorderState) : ReorderEvent → ReorderState
  | .arrival f =>
    let r := recvIndicatepktReorder s.cannotRun s.ctrl f
    { s with ctrl := r.2.1, delivered := s.delivered ++ r.2.2.filterMap Effect.indicated }
  | .timeout =>
    let r := rtwReorderingCtrlTimeoutHandler s.cannotRun s.ctrl
    { s with ctrl := r.1, delivered := s.delivered ++ r.2.filterMap Effect.indicated }
  | .stop => { s with cannotRun := true }

/-- An enabled reorder control before its first frame -/
def ReorderState.init (w : ℕ) : ReorderState :=
  ⟨⟨true, 0xffff, w, [], false⟩, false, []⟩

/-- The sequence numbers of the QoS frames of a list -/
def qosSeqs (fs : List RecvFrame) : List ℕ := seqNums (fs.filter (·.attrib.qos))

/-- The frame objects of the arrivals -/
def arrivals (es : List ReorderEvent) : Multiset ℕ :=
  Multiset.ofList (es.filterMap fun | .arrival f => some f.id | _ => none)

/-- The frame objects of a list -/
def ids (fs : List RecvFrame) : Multiset ℕ := Multiset.ofList (fs.map (·.id))

@[simp] theorem ids_append (fs gs : List RecvFrame) : ids (fs ++ gs) = ids fs + ids gs := by
  simp [ids]

@[simp] theorem ids_nil : ids [] = 0 := rfl

theorem ids_perm {fs gs : List RecvFrame} (h : fs.Perm gs) : ids fs = ids gs :=
  Multiset.coe_eq_coe.mpr (h.map _)

@[simp] theorem arrivals_append (es fs : List ReorderEvent) :
    arrivals (es ++ fs) = arrivals es + arrivals fs := by
  simp [arrivals]

theorem qosSeqs_append (fs gs : List RecvFrame) : qosSeqs (fs ++ gs) = qosSeqs fs ++ qosSeqs gs := by
  simp [qosSeqs, seqNums]

/-- Where `check_indicate_seq` lets the window start, for a number `k` ahead of the old start -/
theorem checkIndicateSeq_true {c d : RecvReorderCtrl} {seq : ℕ} (hb : c.indicateSeq < 4096)
    (hs : seq < 4096) (hw : 1 ≤ c.wsizeB ∧ c.wsizeB ≤ 64) (h : checkIndicateSeq c seq = (true, d)) :
    offset 4096 c.indicateSeq seq < 2048 ∧ ∃ start < 4096, d = { c with indicateSeq := start } ∧
      (offset 4096 c.indicateSeq seq = 0 ∧ offset 4096 c.indicateSeq start = 1 ∨
        offset 4096 c.indicateSeq seq < c.wsizeB ∧ offset 4096 c.indicateSeq start = 0 ∨
        c.wsizeB ≤ offset 4096 c.indicateSeq seq ∧
          offset 4096 c.indicateSeq start = offset 4096 c.indicateSeq seq - c.wsizeB + 1) := by
  unfold checkIndicateSeq at h
  simp only [if_neg (show ¬ c.indicateSeq = 0xffff by omega), snLess, snEqual,
    decide_eq_true_eq] at h
  unfold offset
  split_ifs at h with h1 h2 h3 h4
  · simp at h
  · refine ⟨by omega,_,Nat.mod_lt _ (by norm_num),(Prod.mk.inj h).2.symm,?_⟩
    omega
  · refine ⟨by omega,seq + 1 - c.wsizeB,by omega,(Prod.mk.inj h).2.symm,?_⟩
    omega
  · refine ⟨by omega,0xfff - (c.wsizeB - (seq + 1)) + 1,by omega,(Prod.mk.inj h).2.symm,?_⟩
    omega
  · refine ⟨by omega,c.indicateSeq,hb,(Prod.mk.inj h).2.symm,?_⟩
    omega

theorem checkIndicateSeq_false {c d : RecvReorderCtrl} {seq : ℕ} (hb : c.indicateSeq < 4096)
    (h : checkIndicateSeq c seq = (false, d)) : d = c := by
  unfold checkIndicateSeq at h
  simp only [if_neg (show ¬ c.indicateSeq = 0xffff by omega)] at h
  split_ifs at h <;> cases h
  rfl

/-- Before the first frame the window starts at that frame. -/
theorem checkIndicateSeq_init {c : RecvReorderCtrl} (hc : c.indicateSeq = 0xffff) (seq : ℕ)
    (hs : seq < 4096) : checkIndicateSeq c seq = checkIndicateSeq { c with indicateSeq := seq } seq := by
  have hless : snLess seq seq = false := by simp [snLess]
  have hne : seq ≠ 0xffff := by omega
  simp [checkIndicateSeq, hc, hless, snEqual, hne]

/-- The part of the state that one call of the reorder code may change, as an invariant:
where the window is, and how it stands to what was delivered. -/
structure Placed (w : ℕ) (cannotRun : Bool) (c : RecvReorderCtrl) (delivered : List RecvFrame) : Prop where
  enable : c.enable = true
  wsize : c.wsizeB = w
  place : (c.indicateSeq = 0xffff ∧ c.pending = [] ∧ qosSeqs delivered = []) ∨
    (Window c.indicateSeq w c.pending ∧
      (cannotRun = false → Follows (qosSeqs delivered).getLast? c.indicateSeq c.pending))
  ordered : (qosSeqs delivered).IsChain (fun a b => snLess a b = true)

/-- The frames that reach the OS out of the ones that left the queue -/
theorem filterMap_handOn {cannotRun : Bool} {fs : List RecvFrame} (h : ∀ f ∈ fs, Reorderable f) :
    (fs.map (handOn cannotRun)).filterMap Effect.indicated = if cannotRun then [] else fs := by
  induction fs with
  | nil => simp
  | cons f fs ih =>
    have hf := (h f List.mem_cons_self).2.2
    have ih := ih (fun g hg => h g (List.mem_cons_of_mem _ hg))
    cases cannotRun <;> simp_all [handOn, Effect.indicated]

theorem qosSeqs_of_reorderable {fs : List RecvFrame} (h : ∀ f ∈ fs, Reorderable f) :
    qosSeqs fs = seqNums fs := by
  rw [qosSeqs, List.filter_eq_self.mpr (fun f hf => (h f hf).2.1)]

/-- Indicating from `start` puts the window and the deliveries into place again. -/
theorem indicateFrom_placed {w start b : ℕ} {cannotRun : Bool} {c : RecvReorderCtrl}
    (delivered : List RecvFrame) (he : c.enable = true) (hc : c.wsizeB = w)
    (hq : Queued b c.pending) (hne : c.pending ≠ []) (hstart : start < 4096)
    (hnear : ∀ f ∈ c.pending, offset 4096 b start - off b f < 2048)
    (hspan : ∀ f ∈ c.pending, off b f < offset 4096 b start + w)
    (hlast : ∀ l ∈ c.pending.getLast?, offset 4096 b start ≤ off b l + 1)
    (hF : cannotRun = false → Follows (qosSeqs delivered).getLast? b c.pending)
    (ho : (qosSeqs delivered).IsChain (fun a b => snLess a b = true)) :
    let r := indicateFrom cannotRun c start
    Placed w cannotRun r.2.1 (delivered ++ r.2.2.filterMap Effect.indicated) ∧
      ids (r.2.2.filterMap Effect.indicated) + ids r.2.1.pending ≤ ids c.pending := by
  have hI := indicateLoop_indicated hq hstart hnear
  have hW := hI.window hq hspan
  have hout : ∀ f ∈ (indicateLoop start c.pending).2.1, Reorderable f :=
    fun f hf => hq.frames f (hI.mem_out hf)
  have hids : ids c.pending = ids (indicateLoop start c.pending).2.1 + ids (indicateLoop start c.pending).2.2 := by
    conv_lhs => rw [hI.split]
    exact ids_append _ _
  simp only [indicateFrom, filterMap_handOn hout]
  cases cannotRun with
  | true =>
    simp only [↓reduceIte, List.append_nil, ids_nil, zero_add]
    refine ⟨⟨he,hc,Or.inr ⟨hW,fun h => by cases h⟩,ho⟩,?_⟩
    rw [hids]
    exact Multiset.le_add_left _ _
  | false =>
    simp only [Bool.false_eq_true, ↓reduceIte]
    obtain ⟨hjoin,hF'⟩ := hI.follows hq hne hlast (hF rfl)
    have hchain : (seqNums (indicateLoop start c.pending).2.1).IsChain (fun a b => snLess a b = true) := by
      have hsub : (indicateLoop start c.pending).2.1.Sublist c.pending := by
        conv_rhs => rw [hI.split]
        exact List.sublist_append_left _ _
      exact (List.pairwise_map.mpr (hq.pairwise_snLess.sublist hsub)).isChain
    refine ⟨⟨he,hc,Or.inr ⟨hW,fun _ => ?_⟩,?_⟩,hids.ge⟩
    · rw [qosSeqs_append, qosSeqs_of_reorderable hout, List.getLast?_append]
      exact hF'
    · rw [qosSeqs_append, qosSeqs_of_reorderable hout]
      exact List.isChain_append.mpr ⟨ho,hchain,hjoin⟩

theorem Follows.insert {b : ℕ} {last : Option ℕ} {f : RecvFrame} {q r : List RecvFrame}
    (h : Follows last b q) (hr : Queued b r) (hperm : r.Perm (f :: q)) (hf : off b f < 2048) :
    Follows last b r := by
  intro p hp
  obtain ⟨hpos,hone,hhead⟩ := h p hp
  refine ⟨hpos,?_,?_⟩
  · rintro rfl
    exact absurd hperm.symm (List.not_perm_nil_cons _ _ ∘ List.Perm.symm)
  · intro g hg
    cases q with
    | nil =>
      have hgf : g = f := by simpa using hperm.mem_iff.mp (List.mem_of_mem_head? hg)
      have := hone rfl
      rw [hgf]
      omega
    | cons x q =>
      have h1 := hhead x rfl
      have h2 := hr.head_le hg (hperm.mem_iff.mpr (by simp : x ∈ f :: x :: q))
      omega

theorem insertPending_none {f : RecvFrame} {q : List RecvFrame} (h : insertPending f q = none) :
    ∃ g ∈ q, g.attrib.seqNum = f.attrib.seqNum := by
  induction q with
  | nil => cases h
  | cons g q ih =>
    unfold insertPending at h
    split_ifs at h with hless heq
    · obtain ⟨x,hx,hxf⟩ := ih (Option.map_eq_none_iff.mp h)
      exact ⟨x,List.mem_cons_of_mem _ hx,hxf⟩
    · exact ⟨g,List.mem_cons_self,by simpa [snEqual] using heq⟩

theorem reorderRecvframe_window {w : ℕ} {cannotRun : Bool} {c : RecvReorderCtrl} {f : RecvFrame}
    {delivered : List RecvFrame} (hw : 1 ≤ w ∧ w ≤ 64) (he : c.enable = true) (hc : c.wsizeB = w)
    (hW : Window c.indicateSeq w c.pending) (hf : Reorderable f)
    (hF : cannotRun = false → Follows (qosSeqs delivered).getLast? c.indicateSeq c.pending)
    (ho : (qosSeqs delivered).IsChain (fun a b => snLess a b = true)) :
    let r := reorderRecvframe cannotRun c f
    Placed w cannotRun r.2.1 (delivered ++ r.2.2.filterMap Effect.indicated) ∧
      ids (r.2.2.filterMap Effect.indicated) + ids r.2.1.pending ≤ ids c.pending + {f.id} := by
  have hsame : Placed w cannotRun c (delivered ++ [].filterMap Effect.indicated) ∧
      ids ([].filterMap Effect.indicated) + ids c.pending ≤ ids c.pending + {f.id} :=
    ⟨⟨he,hc,by simpa using Or.inr ⟨hW,hF⟩,by simpa using ho⟩,by simp⟩
  unfold reorderRecvframe
  obtain ⟨ok,d,hcheck⟩ : ∃ ok d, checkIndicateSeq c f.attrib.seqNum = (ok,d) := ⟨_,_,rfl⟩
  simp only [hcheck]
  cases ok with
  | false =>
    rw [checkIndicateSeq_false hW.base_lt hcheck]
    exact hsame
  | true =>
    obtain ⟨hk,start,hstart,rfl,hcase⟩ := checkIndicateSeq_true hW.base_lt hf.1 (hc ▸ hw) hcheck
    simp only [hc] at hcase
    have hk0 := off_nonneg c.indicateSeq f
    change off c.indicateSeq f < 2048 at hk
    change off c.indicateSeq f = 0 ∧ _ ∨ off c.indicateSeq f < w ∧ _ ∨ w ≤ off c.indicateSeq f ∧
      _ = off c.indicateSeq f - w + 1 at hcase
    simp only [Bool.not_true, Bool.false_eq_true, ↓reduceIte]
    cases hins : insertPending f c.pending with
    | none =>
      rw [enqueueReorderRecvframe_none (c := { c with indicateSeq := start }) hins]
      -- a duplicate is inside the window, so the window has not moved
      obtain ⟨g,hg,hseq⟩ := insertPending_none hins
      have hoff : off c.indicateSeq g = off c.indicateSeq f := by rw [off, hseq, off]
      have hin := hW.inside g hg
      have hzero : offset 4096 c.indicateSeq start = offset 4096 c.indicateSeq c.indicateSeq := by
        rw [offset_self]
        omega
      have hb := hW.base_lt
      obtain rfl : start = c.indicateSeq :=
        Nat.cast_injective (offset_inj (by norm_num) hzero ⟨by omega,by omega⟩ ⟨by omega,by omega⟩)
      exact hsame
    | some q =>
      obtain ⟨hperm,hq⟩ := insertPending_queued hW.toQueued hf hk hins
      have hmem : ∀ g ∈ q, g = f ∨ g ∈ c.pending := fun g hg => List.mem_cons.mp (hperm.mem_iff.mp hg)
      have hfq : f ∈ q := hperm.mem_iff.mpr List.mem_cons_self
      have hbound : ∀ g ∈ q, 0 ≤ off c.indicateSeq g ∧
          off c.indicateSeq g < offset 4096 c.indicateSeq start + w := by
        intro g hg
        rcases hmem g hg with rfl | hg
        · omega
        · have := hW.inside g hg
          omega
      have hids : ids q = ids c.pending + {f.id} := by
        rw [ids_perm hperm, add_comm]
        rfl
      have hP := indicateFrom_placed (c := { c with indicateSeq := start, pending := q }) delivered
        he hc hq (List.ne_nil_of_mem hfq) hstart
        (fun g hg => by have := hbound g hg; omega) (fun g hg => (hbound g hg).2)
        (fun l hl => by have := hq.le_last hl hfq; omega)
        (fun h => (hF h).insert hq hperm hk) ho
      rw [enqueueReorderRecvframe_some (c := { c with indicateSeq := start }) hins]
      simp only [Bool.not_true, Bool.false_eq_true, ↓reduceIte, recvIndicatepktsInOrder]
      refine ⟨⟨hP.1.enable,hP.1.wsize,hP.1.place,hP.1.ordered⟩,?_⟩
      rw [← hids]
      exact hP.2

theorem reorderRecvframe_placed {w : ℕ} {cannotRun : Bool} {c : RecvReorderCtrl} {f : RecvFrame}
    {delivered : List RecvFrame} (hw : 1 ≤ w ∧ w ≤ 64) (hf : Reorderable f)
    (h : Placed w cannotRun c delivered) :
    let r := reorderRecvframe cannotRun c f
    Placed w cannotRun r.2.1 (delivered ++ r.2.2.filterMap Effect.indicated) ∧
      ids (r.2.2.filterMap Effect.indicated) + ids r.2.1.pending ≤ ids c.pending + {f.id} := by
  rcases h.place with ⟨hinit,hpend,hnone⟩ | ⟨hW,hF⟩
  · have heq : reorderRecvframe cannotRun c f =
        reorderRecvframe cannotRun { c with indicateSeq := f.attrib.seqNum } f := by
      unfold reorderRecvframe
      rw [checkIndicateSeq_init hinit _ hf.1]
    have hW : Window f.attrib.seqNum w c.pending := by
      rw [hpend]
      exact ⟨⟨by simp,List.Pairwise.nil,by simp⟩,hf.1,by simp⟩
    rw [heq]
    exact reorderRecvframe_window (c := { c with indicateSeq := f.attrib.seqNum }) hw h.enable h.wsize hW hf
      (fun _ => by simp [hnone, Follows]) h.ordered
  · exact reorderRecvframe_window hw h.enable h.wsize hW hf hF h.ordered

theorem timeout_placed {w : ℕ} {cannotRun : Bool} {c : RecvReorderCtrl} {delivered : List RecvFrame}
    (h : Placed w cannotRun c delivered) :
    let r := rtwReorderingCtrlTimeoutHandler cannotRun c
    Placed w cannotRun r.1 (delivered ++ r.2.filterMap Effect.indicated) ∧
      ids (r.2.filterMap Effect.indicated) + ids r.1.pending ≤ ids c.pending := by
  have hsame : Placed w cannotRun c (delivered ++ [].filterMap Effect.indicated) ∧
      ids ([].filterMap Effect.indicated) + ids c.pending ≤ ids c.pending := ⟨by simpa using h,by simp⟩
  unfold rtwReorderingCtrlTimeoutHandler
  cases cannotRun with
  | true => exact hsame
  | false =>
    simp only [Bool.false_eq_true, ↓reduceIte, recvIndicatepktsInOrder]
    cases hpend : c.pending with
    | nil =>
      refine ⟨⟨h.enable,h.wsize,by simpa [hpend] using h.place,by simpa using h.ordered⟩,?_⟩
      simp
    | cons f q =>
      rcases h.place with ⟨_,hnil,_⟩ | ⟨hW,hF⟩
      · rw [hpend] at hnil
        cases hnil
      · have hfq : f ∈ c.pending := by rw [hpend]; exact List.mem_cons_self
        have hhead : f ∈ c.pending.head? := by rw [hpend]; rfl
        have hin := hW.inside
        have hf0 := off_nonneg c.indicateSeq f
        have hle := fun g hg => hW.head_le hhead (f := g) hg
        have hnear := hW.near f hfq
        have hP := indicateFrom_placed (c := { c with bReorderWaiting := false }) delivered
          h.enable h.wsize hW.toQueued (List.ne_nil_of_mem hfq) (hW.frames f hfq).1
          (fun g hg => by have := hle g hg; unfold off at *; omega)
          (fun g hg => by have := hin g hg; unfold off at *; omega)
          (fun l hl => by have := hW.le_last hl hfq; unfold off at *; omega) hF h.ordered
        simp only [hpend] at hP
        exact hP

/-- A call that takes no frame in leaves the invariant to the deliveries: what it hands on
without QoS control does not count. -/
theorem Placed.bypass {w : ℕ} {cannotRun : Bool} {c : RecvReorderCtrl} {delivered : List RecvFrame}
    {f : RecvFrame} (h : Placed w cannotRun c delivered) (hf : f.attrib.qos = false) :
    Placed w cannotRun c (delivered ++ [f]) := by
  have hq : qosSeqs (delivered ++ [f]) = qosSeqs delivered := by
    rw [qosSeqs_append]
    simp [qosSeqs, seqNums, hf]
  exact ⟨h.enable,h.wsize,hq.symm ▸ h.place,hq.symm ▸ h.ordered⟩

theorem recvIndicatepktReorder_placed {w : ℕ} {cannotRun : Bool} {c : RecvReorderCtrl} {f : RecvFrame}
    {delivered : List RecvFrame} (hw : 1 ≤ w ∧ w ≤ 64) (ha : f.attrib.amsdu = false)
    (hs : f.attrib.seqNum < 4096) (h : Placed w cannotRun c delivered) :
    let r := recvIndicatepktReorder cannotRun c f
    Placed w cannotRun r.2.1 (delivered ++ r.2.2.filterMap Effect.indicated) ∧
      ids (r.2.2.filterMap Effect.indicated) + ids r.2.1.pending ≤ ids c.pending + {f.id} := by
  have hsame : Placed w cannotRun c (delivered ++ [].filterMap Effect.indicated) ∧
      ids ([].filterMap Effect.indicated) + ids c.pending ≤ ids c.pending + {f.id} :=
    ⟨by simpa using h,by simp⟩
  simp only [recvIndicatepktReorder, ha, Bool.not_false, ↓reduceIte]
  cases hconv : wlanhdrToEthhdr f with
  | none => exact hsame
  | some g =>
    obtain ⟨hid,_,hattr⟩ := wlanhdrToEthhdr_frame hconv
    have hga : g.attrib.amsdu = false := by rw [hattr]; exact ha
    have hgs : g.attrib.seqNum < 4096 := by rw [hattr]; exact hs
    simp only [h.enable, Bool.not_true, Bool.false_eq_true, ↓reduceIte]
    rw [← hid]
    cases hqos : g.attrib.qos with
    | true => exact reorderRecvframe_placed hw ⟨hgs,hqos,hga⟩ h
    | false =>
      -- no QoS control: handed on at once, or dropped when the device is gone
      simp only [Bool.not_false, ↓reduceIte]
      cases cannotRun with
      | true => exact hid ▸ hsame
      | false =>
        refine ⟨h.bypass hqos,?_⟩
        rw [add_comm]
        rfl

/-- The invariant of a run with the events `past` behind it -/
structure ReorderInv (w : ℕ) (past : List ReorderEvent) (s : ReorderState) : Prop where
  placed : Placed w s.cannotRun s.ctrl s.delivered
  conserved : ids s.delivered + ids s.ctrl.pending ≤ arrivals past

theorem ReorderInv.init (w : ℕ) : ReorderInv w [] (ReorderState.init w) := by
  refine ⟨⟨rfl,rfl,Or.inl ⟨rfl,rfl,rfl⟩,?_⟩,?_⟩
  · exact List.IsChain.nil
  · simp [ReorderState.init]

theorem ReorderInv.step {w : ℕ} (hw : 1 ≤ w ∧ w ≤ 64) {past : List ReorderEvent} {s : ReorderState}
    {e : ReorderEvent} (he : e.NotAmsdu) (h : ReorderInv w past s) :
    ReorderInv w (past ++ [e]) (s.step e) := by
  obtain ⟨hplaced,hcons⟩ := h
  cases e with
  | arrival f =>
    obtain ⟨hP,hids⟩ := recvIndicatepktReorder_placed hw he.1 he.2 hplaced
    refine ⟨hP,?_⟩
    simp only [ReorderState.step, ids_append, arrivals_append, add_assoc]
    calc ids s.delivered + (_ + _) ≤ ids s.delivered + (ids s.ctrl.pending + {f.id}) := by gcongr
      _ = ids s.delivered + ids s.ctrl.pending + {f.id} := (add_assoc _ _ _).symm
      _ ≤ arrivals past + arrivals [.arrival f] := by gcongr; rfl
  | timeout =>
    obtain ⟨hP,hids⟩ := timeout_placed hplaced
    refine ⟨hP,?_⟩
    simp only [ReorderState.step, ids_append, arrivals_append, add_assoc]
    calc ids s.delivered + (_ + _) ≤ ids s.delivered + ids s.ctrl.pending := by gcongr
      _ ≤ arrivals past := hcons
      _ ≤ arrivals past + arrivals [.timeout] := Multiset.le_add_right _ _
  | stop =>
    refine ⟨⟨hplaced.enable,hplaced.wsize,?_,hplaced.ordered⟩,hcons.trans ?_⟩
    · exact hplaced.place.imp id (fun h => ⟨h.1,fun hrun => by cases hrun⟩)
    · rw [arrivals_append]
      exact Multiset.le_add_right _ _

theorem ReorderInv.run {w : ℕ} (hw : 1 ≤ w ∧ w ≤ 64) {es : List ReorderEvent}
    (hes : ∀ e ∈ es, e.NotAmsdu) :
    ReorderInv w es (Run.run ReorderState.step (ReorderState.init w) es) :=
  Run.run_induction ReorderEvent.NotAmsdu (ReorderInv w) (ReorderInv.init w)
    (fun _ _ _ he h => h.step hw he) es hes

/-- What an observer of the queue, of `indicate_seq` and of the OS sees in one state -/
structure InOrder (w : ℕ) (es : List ReorderEvent) (s : ReorderState) : Prop where
  sorted : (seqNums s.ctrl.pending).Pairwise (fun a b => snLess a b = true)
  distinct : (seqNums s.ctrl.pending).Nodup
  window : ∀ x ∈ seqNums s.ctrl.pending, offset 4096 s.ctrl.indicateSeq x < w
  indicateSeq : s.ctrl.indicateSeq = 0xffff ∨ s.ctrl.indicateSeq < 4096
  once : ids s.delivered ≤ arrivals es
  ordered : (qosSeqs s.delivered).IsChain (fun a b => snLess a b = true)

theorem Placed.pending {w : ℕ} {cannotRun : Bool} {c : RecvReorderCtrl} {delivered : List RecvFrame}
    (h : Placed w cannotRun c delivered) :
    Queued c.indicateSeq c.pending ∧ (∀ f ∈ c.pending, off c.indicateSeq f < w) ∧
      (c.indicateSeq = 0xffff ∨ c.indicateSeq < 4096) := by
  rcases h.place with ⟨hinit,hpend,_⟩ | ⟨hW,_⟩
  · rw [hpend]
    exact ⟨⟨by simp,List.Pairwise.nil,by simp⟩,by simp,Or.inl hinit⟩
  · exact ⟨hW.toQueued,fun f hf => (hW.inside f hf).2,Or.inr hW.base_lt⟩

/-- In every state of every run the queue is sorted without duplicates inside the window,
no frame is delivered more often than it arrived, and QoS frames leave in order. -/
theorem reorder_in_order_at_most_once {w : ℕ} (hw : 1 ≤ w ∧ w ≤ 64) (es : List ReorderEvent)
    (hes : ∀ e ∈ es, e.NotAmsdu) :
    InOrder w es (Run.run ReorderState.step (ReorderState.init w) es) := by
  have hinv := ReorderInv.run hw hes
  obtain ⟨hq,hwin,hind⟩ := hinv.placed.pending
  have hsorted : (seqNums (Run.run ReorderState.step (ReorderState.init w) es).ctrl.pending).Pairwise
      (fun a b => snLess a b = true) := List.pairwise_map.mpr hq.pairwise_snLess
  refine ⟨hsorted,?_,?_,hind,?_,hinv.placed.ordered⟩
  · refine hsorted.imp ?_
    rintro a b hab rfl
    simp [snLess] at hab
  · intro x hx
    obtain ⟨f,hf,rfl⟩ := List.mem_map.mp hx
    exact hwin f hf
  · exact (Multiset.le_add_right _ _).trans hinv.conserved

theorem reorder_in_order_at_most_once_four_frames :
    InOrder 4 [.arrival (plainFrame 0 4095 true), .arrival (plainFrame 1 1 true), .timeout,
        .arrival (plainFrame 2 0 true), .stop]
      (Run.run ReorderState.step (ReorderState.init 4)
        [.arrival (plainFrame 0 4095 true), .arrival (plainFrame 1 1 true), .timeout,
          .arrival (plainFrame 2 0 true), .stop]) :=
  reorder_in_order_at_most_once (by decide) _ (by
    simp only [List.forall_mem_cons, List.not_mem_nil, false_implies, implies_true,
      ReorderEvent.NotAmsdu, plainFrame]
    decide)

/-- Frame 5 without QoS control arrives after QoS frame 10 and is indicated at once. -/
theorem reorder_bypass_out_of_order :
    ¬ ∀ w : ℕ, 1 ≤ w ∧ w ≤ 64 → ∀ es : List ReorderEvent, (∀ e ∈ es, e.NotAmsdu) →
      (seqNums (Run.run ReorderState.step (ReorderState.init w) es).delivered).IsChain
        (fun a b => snLess a b = true) := by
  intro h
  have hrun := h 4 (by decide) [.arrival (plainFrame 0 10 true), .arrival (plainFrame 1 5 false)] (by
    simp only [List.forall_mem_cons, List.not_mem_nil, false_implies, implies_true,
      ReorderEvent.NotAmsdu, plainFrame]
    decide)
  revert hrun
  decide +kernel

end Rtl8188fu
