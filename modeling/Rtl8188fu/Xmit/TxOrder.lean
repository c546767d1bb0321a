import Rtl8188fu.Xmit.TxTim

/-! # The order of the frames

Frames of one station and one access category stay in the order in which they have come, wherever they wait on the way.
-/
namespace Rtl8188fu

/-- The unicast frames for a station and an access category in a list -/
def stream (i : StaId) (k : TxAc) (q : List XmitFrame) : List ℕ :=
  (q.filter fun f => decide (f.psta = i ∧ f.ac = k) && !isMcast f.ra).map XmitFrame.id

def TxEvent.arrivalFor (i : StaId) (k : TxAc) : TxEvent → Option ℕ
  | .xmit id ra psta priority _ => if psta = i ∧ txAcOf priority = k ∧ isMcast ra = false then some id else none
  | _ => none

section Stream
variable {i : StaId} {k : TxAc} {f : XmitFrame} {q r : List XmitFrame}

@[simp] theorem stream_nil : stream i k [] = [] := rfl

@[simp] theorem stream_append : stream i k (q ++ r) = stream i k q ++ stream i k r := by simp [stream]

theorem stream_cons : stream i k (f :: q) = stream i k [f] ++ stream i k q := stream_append (q := [f])

theorem stream_eq_nil (h : ∀ f ∈ q, f.psta = i → f.ac = k → isMcast f.ra = true) : stream i k q = [] := by
  rw [stream, List.map_eq_nil_iff, List.filter_eq_nil_iff]
  intro f hf
  simpa using h f hf

theorem stream_sublist (h : q.Sublist r) : (stream i k q).Sublist (stream i k r) := (h.filter _).map _

theorem stream_retag {triggered mdata eosp : Bool} :
    stream i k [{ f with triggered, mdata, eosp }] = stream i k [f] := by
  have hfilter :
      ∀ b : Bool, (if b = true then [{ f with triggered, mdata, eosp }] else ([] : List XmitFrame)).map XmitFrame.id =
      (if b = true then [f] else ([] : List XmitFrame)).map XmitFrame.id := by
    rintro (_ | _) <;> rfl
  simp only [stream, List.filter_cons, List.filter_nil]
  exact hfilter _

theorem stream_untriggered : stream i k (q.map TxQueues.untriggered) = stream i k q := by
  induction q with
  | nil => rfl
  | cons f q ih =>
    rw [List.map_cons, stream_cons, ih, stream_cons (f := f)]
    exact congrArg (· ++ stream i k q) stream_retag

end Stream

namespace TxQueues
variable {t t' : TxQueues} {i j : StaId} {k l : TxAc} {f : XmitFrame} {fits : Prop}

/-- The frames of a station and category: those sent, those that wait for the hardware, those that wait for the station
-/
def line (t : TxQueues) (i : StaId) (k : TxAc) : List ℕ :=
  stream i k t.sent ++ stream i k (t.bank.queue i k) ++ stream i k (t.sta i).sleepQ

theorem line_sublist (hsent : t'.sent = t.sent) (hqueue : t'.bank.queue i k = t.bank.queue i k)
    (hsleep : (t'.sta i).sleepQ = (t.sta i).sleepQ) : (t'.line i k).Sublist (t.line i k) := by
  rw [line, hsent, hqueue, hsleep, line]

theorem Move.line (h : t.Sound) (hmove : Move fits True t t') (i : StaId) (k : TxAc) :
    (t'.line i k).Sublist (t.line i k) := by
  cases hmove with
  | bits tim dz => exact List.Sublist.refl _
  | asleep j sleeping =>
    refine line_sublist rfl rfl ?_
    by_cases hj : i = j
    · subst hj
      simp
    · rw [sta_setSta_of_ne hj]
  | release j kept rest f n mdata eosp hq hkept =>
    by_cases hj : i = j
    · subst hj
      have hf : f.psta = i := (h.sleepTakes i f (by simp [hq])).psta
      unfold TxQueues.line
      simp only [setSta, Function.update_self, hq, stream_append]
      by_cases hac : f.ac = k
      · subst hac
        have hnone : stream i f.ac kept = [] := stream_eq_nil fun g hg _ hac => absurd hac (hkept g hg)
        rw [QueueBank.queue_push_self, stream_append, stream_retag, hnone, stream_cons (q := rest)]
        simp
      · have hnone : stream i k [f] = [] :=
          stream_eq_nil fun g hg _ hg' => absurd (List.mem_singleton.mp hg ▸ hg') hac
        rw [QueueBank.queue_push_of_ne fun _ hk => hac hk.symm, stream_cons, hnone]
        simp
    · refine line_sublist rfl (QueueBank.queue_push_of_ne fun hij => absurd hij hj) ?_
      simp [setSta, hj]
  | buffer j l n tim dz hfresh =>
    by_cases hj : i = j
    · subst hj
      unfold TxQueues.line
      simp only [setSta, Function.update_self, stream_append, stream_untriggered]
      by_cases hl : k = l
      · subst hl
        have hnone : stream i k (t.sta i).sleepQ = [] := by
          refine stream_eq_nil fun g hg _ hac => ?_
          by_contra hmc
          exact hfresh trivial g hg (by simpa using hmc) hac
        rw [QueueBank.queue_clear_self, hnone]
        simp
      · have hnone : stream i k (t.bank.queue i l) = [] :=
          stream_eq_nil fun g hg _ hac => absurd (hac.symm.trans (h.servqTakes i l g hg).1) hl
        rw [QueueBank.queue_clear_of_ne fun _ => hl, hnone]
        simp
    · refine line_sublist rfl (QueueBank.queue_clear_of_ne fun hij => absurd hij hj) ?_
      simp [setSta, hj]
  | strand j l hfits =>
    by_cases hjl : i = j ∧ k = l
    · obtain ⟨rfl,rfl⟩ := hjl
      unfold TxQueues.line
      simp [stream_untriggered]
    · exact line_sublist rfl (QueueBank.queue_setQueue_of_ne fun hi hk => hjl ⟨hi,hk⟩) rfl
  | take j l n turn p =>
    unfold TxQueues.line
    dsimp only
    by_cases hjl : i = j ∧ k = l
    · obtain ⟨rfl,rfl⟩ := hjl
      rw [QueueBank.queue_take_self, stream_append, List.append_assoc (stream i k t.sent)]
      refine List.Sublist.append_right (List.Sublist.append_left ?_ _) _
      rw [← stream_append]
      refine stream_sublist ?_
      have hsplit : (t.bank.queue i k).take n ++ (t.bank.queue i k).drop n = t.bank.queue i k :=
        List.take_append_drop n _
      nth_rewrite 3 [← hsplit]
      exact List.Sublist.append_right List.filter_sublist _
    · have hnone : stream i k (((t.bank.queue j l).take n).filter p) = [] := by
        refine stream_eq_nil fun g hg hi hk => ?_
        have hmem := h.servqTakes j l g (List.mem_of_mem_take (List.mem_filter.mp hg).1)
        exact absurd ⟨hi.symm.trans hmem.2.psta,hk.symm.trans hmem.1⟩ hjl
      rw [QueueBank.queue_take_of_ne fun hi hk => hjl ⟨hi,hk⟩, stream_append, hnone, List.append_nil]

theorem Moves.line (h : t.Sound) (hmoves : Moves fits True t t') (i : StaId) (k : TxAc) :
    (t'.line i k).Sublist (t.line i k) := by
  induction hmoves with
  | refl => exact List.Sublist.refl _
  | tail hpast hmove ih => exact (hmove.line (h.moves hpast) i k).trans ih

/-- A frame is given to the station that its address belongs to. -/
def Found (t : TxQueues) : TxEvent → Prop
  | .xmit _ ra psta _ _ => t.getStainfo ra = some psta
  | _ => True

theorem Tim.fresh (h : t.Tim) (hs : t.Sound) (e : TxEvent) : t.Fresh e := by
  cases e with
  | pwrbit src pwrbit =>
    cases pwrbit with
    | false => trivial
    | true =>
      intro i hi hawake g hg
      by_contra hmc
      have hhwaddr : isMcast (t.sta i).hwaddr = false := by
        rw [← (hs.sleepTakes i g hg).isMcast_ra]
        simpa using hmc
      rw [(h.stations i (mem_of_getStainfo hi) hhwaddr).awake hawake] at hg
      cases hg
  | _ => trivial

/-- Nothing waits in the sleep queue of a station that does not buffer. -/
theorem stream_sleepQ_of_not_buffers (h : t.Tim) (hs : t.Sound) (hi : i ∈ t.staHash) (hb : ¬t.Buffers i) :
    stream i k (t.sta i).sleepQ = [] := by
  refine stream_eq_nil fun g hg _ _ => ?_
  rw [(hs.sleepTakes i g hg).isMcast_ra]
  by_contra hmc
  have hhwaddr : isMcast (t.sta i).hwaddr = false := by simpa using hmc
  have hold := h.stations i hi hhwaddr
  have hawake : (t.sta i).sleeping = false := by
    by_cases haid : (t.sta i).aid = 0
    · exact (hold.idle haid).1
    · unfold Buffers at hb
      rw [hhwaddr, if_neg Bool.false_ne_true, and_aidBit_ne_zero, ← hold.asleep haid] at hb
      simpa using hb
  rw [hold.awake hawake] at hg
  cases hg

theorem line_xmit (h : t.Tim) (hs : t.Sound) {f : XmitFrame} (hf : f.triggered = false)
    (hfound : t.getStainfo f.ra = some f.psta) (direct : Option Bool) (i : StaId) (k : TxAc) :
    ((t.rtwXmit f direct).line i k).Sublist (t.line i k ++ stream i k [f]) := by
  have hmem := mem_of_getStainfo hfound
  obtain ⟨-,-,n,tim,dz,heq⟩ | ⟨-,hb,heq⟩ | ⟨hdirect,heq⟩ | heq := rtwXmit_cases hs hf direct
  · -- behind everything in the sleep queue
    rw [heq]
    by_cases hi : i = f.psta
    · subst hi
      unfold line
      simp [setSta]
    · refine List.Sublist.trans ?_ (List.sublist_append_left _ _)
      refine line_sublist rfl rfl ?_
      simp [setSta, hi]
  · rw [heq]
    by_cases hik : i = f.psta ∧ k = f.ac
    · obtain ⟨rfl,rfl⟩ := hik
      unfold line
      dsimp only
      rw [QueueBank.queue_push_self, stream_sleepQ_of_not_buffers h hs hmem hb]
      simp
    · refine List.Sublist.trans ?_ (List.sublist_append_left _ _)
      exact line_sublist rfl (QueueBank.queue_push_of_ne fun hi hk => hik ⟨hi,hk⟩) rfl
  · rw [heq]
    by_cases hik : i = f.psta ∧ k = f.ac
    · obtain ⟨rfl,rfl⟩ := hik
      have hnone : t.bank.queue f.psta f.ac = [] ∧ stream f.psta f.ac (t.sta f.psta).sleepQ = [] := by
        by_cases htakes : t.Takes f.psta f
        · exact ⟨(hdirect htakes).2,stream_sleepQ_of_not_buffers h hs hmem (hdirect htakes).1⟩
        · -- a station without its link has no frames
          have hlinked : (t.sta f.psta).fwLinked ≠ true := fun hlinked => htakes ⟨rfl,hfound,hlinked⟩
          constructor
          · exact List.eq_nil_iff_forall_not_mem.mpr fun g hg => hlinked (hs.servqTakes _ _ g hg).2.linked
          · rw [List.eq_nil_iff_forall_not_mem.mpr fun g hg => hlinked (hs.sleepTakes _ g hg).linked, stream_nil]
      unfold line
      dsimp only
      rw [hnone.1, hnone.2]
      simp
    · have hone : stream i k [f] = [] := by
        refine stream_eq_nil fun g hg hi hk => ?_
        rw [List.mem_singleton.mp hg] at hi hk
        exact absurd ⟨hi.symm,hk.symm⟩ hik
      unfold line
      dsimp only
      rw [stream_append, hone]
      simp
  · rw [heq]
    exact List.sublist_append_left _ _

theorem sent_freeServqs (ks : List TxAc) (j : StaId) (t : TxQueues) :
    (ks.foldl (fun t k => t.freeServq j k) t).sent = t.sent := by
  induction ks generalizing t with
  | nil => rfl
  | cons k ks ih => exact ih _

theorem line_free (i j : StaId) (k : TxAc) (t : TxQueues) : ((t.freeStainfo j).line i k).Sublist (t.line i k) := by
  by_cases hj : j ∈ t.staHash
  · obtain ⟨hsta,-,hbank⟩ := freeStainfo_eq hj
    have hsent : (t.freeStainfo j).sent = t.sent := by
      rw [freeStainfo, if_pos hj]
      exact sent_freeServqs _ _ _
    by_cases hij : i = j
    · subst hij
      unfold line
      rw [hsent, hbank, QueueBank.queue_clears_of_mem (by cases k <;> simp), hsta]
      simp [unhash]
    · refine line_sublist hsent ?_ ?_
      · rw [hbank, QueueBank.queue_clears_of_ne hij]
      · rw [hsta]
        simp [unhash, setSta, hij]
  · rw [freeStainfo, if_neg hj]

theorem sleepQ_setSta_same {s : TxSta} (h : s.sleepQ = (t.sta j).sleepQ) (i : StaId) :
    ((t.setSta j s).sta i).sleepQ = (t.sta i).sleepQ := by
  by_cases hij : i = j
  · subst hij
    simpa using h
  · rw [sta_setSta_of_ne hij]

theorem line_step (h : t.Tim) (hs : t.Sound) {e : TxEvent} (hfound : t.Found e) (i : StaId) (k : TxAc) :
    ((t.step e).line i k).Sublist (t.line i k ++ (e.arrivalFor i k).toList) := by
  cases he : e.moving with
  | true =>
    have hmoves : Moves False True t (t.step e) := step_moves hs he False.elim fun _ => h.fresh hs e
    exact (hmoves.line hs i k).trans (List.sublist_append_left _ _)
  | false =>
    cases e with
    | xmit id ra psta priority direct =>
      have hxmit := line_xmit (f := ⟨id,ra,psta,priority,false,false,false⟩) h hs rfl hfound direct i k
      have hone : stream i k [⟨id,ra,psta,priority,false,false,false⟩] =
          ((TxEvent.xmit id ra psta priority direct).arrivalFor i k).toList := by
        by_cases hf : psta = i ∧ txAcOf priority = k ∧ isMcast ra = false
        · simp [TxEvent.arrivalFor, stream, hf.1, hf.2.1, hf.2.2, XmitFrame.ac]
        · have hnone : (TxEvent.xmit id ra psta priority direct).arrivalFor i k = none := if_neg hf
          rw [hnone, Option.toList_none]
          refine stream_eq_nil fun f hmem hi hk => ?_
          rw [List.mem_singleton.mp hmem] at hi hk ⊢
          by_contra hmc
          exact hf ⟨hi,hk,by simpa using hmc⟩
      rwa [hone] at hxmit
    | alloc j hwaddr =>
      refine List.Sublist.trans ?_ (List.sublist_append_left _ _)
      by_cases hj : j ∈ t.staHash
      · rw [step, allocStainfo, if_pos hj]
      · rw [step, allocStainfo, if_neg hj]
        refine line_sublist rfl rfl ?_
        exact sleepQ_setSta_same (hs.empty_of_unhashed hj).1.symm i
    | associate j aid uapsd =>
      refine List.Sublist.trans ?_ (List.sublist_append_left _ _)
      by_cases hj : j ∈ t.staHash
      · rw [step, associate, if_pos hj]
        refine line_sublist rfl rfl ?_
        apply sleepQ_setSta_same
        rfl
      · rw [step, associate, if_neg hj]
    | updateBmcSta =>
      refine List.Sublist.trans ?_ (List.sublist_append_left _ _)
      rw [step, updateBmcSta]
      split
      · exact List.Sublist.refl _
      · refine line_sublist rfl rfl ?_
        apply sleepQ_setSta_same
        rfl
    | free j => exact (line_free i j k t).trans (List.sublist_append_left _ _)
    | complete | pwrbit | wmmps | psPoll | chkBmcSleepq | apBmcFrames | chkHiQueue | aliveCheck | aging => cases he

/-- In every run in which the AIDs are different and below 16, the unicast frames of each station and access category
stay in the order of their arrival: those that have gone to the hardware, then those that wait for it, then those that
wait for the station, however often it has slept, polled and triggered in between. -/
theorem frames_in_order (events : List TxEvent)
    (h : Run.Safe TxQueues.step (fun t e => t.Assigned e ∧ t.Found e) init events)
    (i : StaId) (k : TxAc) : ((init.run events).line i k).Sublist (events.filterMap (TxEvent.arrivalFor i k)) := by
  have hinit : (init.Sound ∧ init.Tim) ∧ (init.line i k).Sublist ([].filterMap (TxEvent.arrivalFor i k)) :=
    ⟨⟨sound_init,tim_init⟩,by simp [line, init, TxSta.fresh, QueueBank.empty]⟩
  have hkeep : ∀ (past : List TxEvent) (t : TxQueues) (e : TxEvent), t.Assigned e ∧ t.Found e →
      (t.Sound ∧ t.Tim) ∧ (t.line i k).Sublist (past.filterMap (TxEvent.arrivalFor i k)) →
      ((t.step e).Sound ∧ (t.step e).Tim) ∧
        ((t.step e).line i k).Sublist ((past ++ [e]).filterMap (TxEvent.arrivalFor i k)) := by
    rintro past t e ⟨hassigned,hfound⟩ ⟨⟨hs,htim⟩,hline⟩
    refine ⟨⟨hs.step e,htim.step hs hassigned⟩,?_⟩
    have happend : (past ++ [e]).filterMap (TxEvent.arrivalFor i k) =
        past.filterMap (TxEvent.arrivalFor i k) ++ (e.arrivalFor i k).toList := by
      rw [List.filterMap_append]
      cases he : e.arrivalFor i k <;> simp [he]
    rw [happend]
    exact (line_step htim hs hfound i k).trans (hline.append_right _)
  exact (h.history (fun past (t : TxQueues) => (t.Sound ∧ t.Tim) ∧
    (t.line i k).Sublist (past.filterMap (TxEvent.arrivalFor i k))) hkeep hinit).2

/-- One frame before a station sleeps, and one while it does -/
theorem frames_in_order_asleep :
    let events : List TxEvent := [.alloc 0 [2,0,0,0,0,1],.associate 0 1 fun _ => false,.xmit 7 [2,0,0,0,0,1] 0 0 none,
      .pwrbit [2,0,0,0,0,1] true,.xmit 8 [2,0,0,0,0,1] 0 0 none,.psPoll [2,0,0,0,0,1] 1 0]
    ((init.run events).line 0 .be).Sublist (events.filterMap (TxEvent.arrivalFor 0 .be)) := by
  intro events
  refine frames_in_order events ⟨⟨trivial,trivial⟩,⟨⟨by decide,.inl rfl,fun _ =>
    by decide⟩,trivial⟩,⟨trivial,?_⟩,
    ⟨?_,trivial⟩,⟨trivial,?_⟩,⟨trivial,trivial⟩,trivial⟩ 0 .be
  · change getStainfo _ _ = some 0
    decide
  · intro i hi
    have hzero : i = 0 := by
      refine Option.some.inj (hi.symm.trans ?_)
      decide
    subst hzero
    decide
  · change getStainfo _ _ = some 0
    decide

end TxQueues
end Rtl8188fu
