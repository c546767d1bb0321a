import Rtl8188fu.Xmit.TxMoves
import Rtl8188fu.Library.Run

/-! # Runs of the transmit queues

Whatever happens, in whatever order, the counters are right, and each frame that has come is in one place.
-/
namespace Rtl8188fu
namespace TxQueues
variable {t t' : TxQueues} {i j : StaId} {k : TxAc} {f : XmitFrame} {s : TxSta} {fits fresh : Prop}

theorem rtwXmit_cases (h : t.Sound) (hf : f.triggered = false) (direct : Option Bool) :
    (t.Takes f.psta f ∧ t.Buffers f.psta ∧ ∃ n tim dz, t.rtwXmit f direct =
      { t.setSta f.psta { t.sta f.psta with
          sleepQ := (t.sta f.psta).sleepQ ++ [f], sleepqLen := (t.sta f.psta).sleepqLen + 1, sleepqAcLen := n } with
        timBitmap := tim, staDzBitmap := dz }) ∨
    (t.Takes f.psta f ∧ ¬t.Buffers f.psta ∧ t.rtwXmit f direct = { t with bank := t.bank.push f.psta f.ac f }) ∨
    ((t.Takes f.psta f → ¬t.Buffers f.psta ∧ t.bank.queue f.psta f.ac = []) ∧
      t.rtwXmit f direct = { t with sent := t.sent ++ [f] }) ∨
    t.rtwXmit f direct = { t with freed := t.freed ++ [f] } := by
  unfold rtwXmit
  by_cases htakes : t.Takes f.psta f
  · by_cases hb : t.Buffers f.psta
    · obtain ⟨n,tim,dz,-,hto⟩ := enqueueForSleepingSta_of_buffers htakes hf hb
      exact .inl ⟨htakes,hb,n,tim,dz,by rw [hto]; rfl⟩
    · rw [enqueueForSleepingSta_of_not_buffers htakes hb]
      refine .inr ?_
      unfold preXmitframe
      dsimp only [Option.getD_none]
      split_ifs with hpend
      · exact .inl ⟨htakes,hb,halXmitframeEnqueue_of_takes htakes⟩
      · have hempty : t.bank.queue f.psta f.ac = [] := by
          have hqcnt := h.counted.qcnt f.psta f.ac
          have hle : t.bank.qcnt f.psta f.ac ≤ 0 := by
            simpa [txframesPending, htakes.found, htakes.linked] using hpend
          exact List.length_eq_zero_iff.mp (by omega)
        cases direct with
        | none => exact .inl ⟨htakes,hb,halXmitframeEnqueue_of_takes htakes⟩
        | some coalesced =>
          cases coalesced with
          | false => exact .inr (.inr rfl)
          | true => exact .inr (.inl ⟨fun _ => ⟨hb,hempty⟩,rfl⟩)
  · have hno : t.getStainfo f.ra ≠ some f.psta ∨ (t.sta f.psta).fwLinked = false := by
      by_contra hcon
      push Not at hcon
      exact htakes ⟨rfl,hcon.1,by simpa using hcon.2⟩
    have hnone : t.enqueueForSleepingSta f = none := by
      unfold enqueueForSleepingSta
      rcases hno with hno | hno <;> simp [hno]
    have hpend : t.txframesPending f = 0 := by
      unfold txframesPending
      rcases hno with hno | hno <;> simp [hno]
    have hclass : t.rtwXmitClassifier f = none := by
      unfold rtwXmitClassifier
      rcases hno with hno | hno <;> simp [hno]
    refine .inr (.inr ?_)
    rw [hnone, Option.getD_none]
    unfold preXmitframe
    rw [if_neg (by simp [hpend])]
    cases direct with
    | none =>
      refine .inr ?_
      unfold halXmitframeEnqueue
      rw [hclass, Option.getD_none]
    | some coalesced =>
      cases coalesced with
      | false => exact .inr rfl
      | true => exact .inl ⟨fun hyes => absurd hyes htakes,rfl⟩

theorem getStainfo_alloc {hwaddr a : MacAddr} (hi : i ∉ t.staHash) (h : t.getStainfo a = some j) :
    (t.allocStainfo i hwaddr).getStainfo a = some j := by
  have hsame : ∀ x ∈ t.staHash, (decide (((Function.update t.sta i (.fresh hwaddr)) x).hwaddr = staKey a)) =
      decide ((t.sta x).hwaddr = staKey a) := by
    intro x hx
    have hne : x ≠ i := fun hxi => hi (hxi ▸ hx)
    rw [Function.update_of_ne hne]
  unfold allocStainfo
  rw [if_neg hi]
  change (t.staHash ++ [i]).find? (fun x => decide ((Function.update t.sta i (.fresh hwaddr) x).hwaddr = staKey a)) =
    some j
  rw [List.find?_append, List.find?_congr hsame]
  exact Option.or_eq_some_iff.mpr (.inl h)

theorem find?_erase_of_ne {l : List StaId} {p : StaId → Bool} (h : l.find? p = some j) (hj : j ≠ i) :
    (l.erase i).find? p = some j := by
  induction l with
  | nil => cases h
  | cons x l ih =>
    rw [List.find?_cons] at h
    by_cases hx : x = i
    · subst hx
      rw [List.erase_cons_head]
      split at h
      · exact absurd (Option.some.inj h).symm hj
      · exact h
    · rw [List.erase_cons_tail (by simpa using hx), List.find?_cons]
      split at h
      · exact h
      · exact ih h

/-! ### Stations that come and go -/

theorem Sound.empty_of_unhashed (h : t.Sound) (hi : i ∉ t.staHash) :
    (t.sta i).sleepQ = [] ∧ ∀ k, t.bank.queue i k = [] := by
  constructor
  · refine List.eq_nil_iff_forall_not_mem.mpr fun f hf => hi ?_
    exact (h.sleepTakes i f hf).mem_staHash
  · refine fun k => List.eq_nil_iff_forall_not_mem.mpr fun f hf => hi ?_
    exact (h.servqTakes i k f hf).2.mem_staHash

theorem Takes.alloc {hwaddr : MacAddr} (hi : i ∉ t.staHash) (h : t.Takes j f) :
    (t.allocStainfo i hwaddr).Takes j f := by
  have hne : j ≠ i := fun hji => hi (hji ▸ h.mem_staHash)
  refine ⟨h.psta,getStainfo_alloc hi h.found,?_⟩
  unfold allocStainfo
  rw [if_neg hi]
  simpa [setSta, hne] using h.linked

theorem Sound.alloc (h : t.Sound) (i : StaId) (hwaddr : MacAddr) : (t.allocStainfo i hwaddr).Sound := by
  by_cases hi : i ∈ t.staHash
  · unfold allocStainfo
    rwa [if_pos hi]
  · have heq : t.allocStainfo i hwaddr = { t.setSta i (.fresh hwaddr) with staHash := t.staHash ++ [i] } := if_neg hi
    have htakes : ∀ j f, t.Takes j f → (t.allocStainfo i hwaddr).Takes j f := fun _ _ => Takes.alloc hi
    rw [heq] at htakes ⊢
    refine ⟨?_,h.counted,h.served,?_,?_,?_⟩
    · exact List.nodup_append.mpr ⟨h.nodup,List.nodup_singleton i,
        fun x hx y hy hxy => hi (List.mem_singleton.mp hy ▸ hxy ▸ hx)⟩
    · intro j
      by_cases hj : j = i
      · subst hj
        simp [TxSta.fresh]
      · simpa [setSta, hj] using h.sleepq j
    · intro j k f hf
      exact ⟨(h.servqTakes j k f hf).1,htakes j f (h.servqTakes j k f hf).2⟩
    · intro j f hf
      by_cases hj : j = i
      · subst hj
        simp [TxSta.fresh] at hf
      · exact htakes j f (h.sleepTakes j f (by simpa [setSta, hj] using hf))

theorem Sound.associate (h : t.Sound) (i : StaId) (aid : ℕ) (uapsd : TxAc → Bool) :
    (t.associate i aid uapsd).Sound := by
  unfold TxQueues.associate
  by_cases hi : i ∈ t.staHash
  · rw [if_pos hi]
    exact h.of_sta rfl rfl rfl (fun _ => rfl) (h.sleepq i) (h.sleepTakes i) h.counted h.served h.servqTakes
  · rwa [if_neg hi]

theorem Sound.updateBmcSta (h : t.Sound) : t.updateBmcSta.Sound := by
  unfold TxQueues.updateBmcSta
  split
  · exact h
  · exact h.of_sta rfl rfl rfl (fun _ => rfl) (h.sleepq _) (h.sleepTakes _) h.counted h.served h.servqTakes

/-- What the four queues of a station become when it is freed -/
theorem freeServqs_bank (ks : List TxAc) (t : TxQueues) :
    (ks.foldl (fun t k => t.freeServq i k) t).bank = ks.foldl (fun b k => b.clear i k) t.bank := by
  induction ks generalizing t with
  | nil => rfl
  | cons k ks ih => exact ih _

theorem freeServqs_sta (ks : List TxAc) (t : TxQueues) : (ks.foldl (fun t k => t.freeServq i k) t).sta = t.sta := by
  induction ks generalizing t with
  | nil => rfl
  | cons k ks ih => exact ih _

theorem freeServqs_staHash (ks : List TxAc) (t : TxQueues) :
    (ks.foldl (fun t k => t.freeServq i k) t).staHash = t.staHash := by
  induction ks generalizing t with
  | nil => rfl
  | cons k ks ih => exact ih _

theorem freeStainfo_eq (hi : i ∈ t.staHash) :
    (t.freeStainfo i).sta = (t.unhash i).sta ∧ (t.freeStainfo i).staHash = t.staHash.erase i ∧
      (t.freeStainfo i).bank = [TxAc.vo,.vi,.be,.bk].foldl (fun b k => b.clear i k) t.bank := by
  unfold freeStainfo
  rw [if_pos hi]
  exact ⟨freeServqs_sta _ _,freeServqs_staHash _ _,freeServqs_bank _ _⟩

theorem Takes.free (h : t.Takes j f) (hj : j ≠ i) (hi : i ∈ t.staHash) : (t.freeStainfo i).Takes j f := by
  obtain ⟨hsta,hhash,-⟩ := freeStainfo_eq hi
  refine ⟨h.psta,?_,?_⟩
  · have hhwaddr : ∀ x, ((t.freeStainfo i).sta x).hwaddr = (t.sta x).hwaddr := by
      intro x
      rw [hsta]
      by_cases hx : x = i
      · subst hx
        simp [unhash]
      · simp [unhash, setSta, hx]
    unfold getStainfo
    simp only [hhwaddr, hhash]
    exact find?_erase_of_ne h.found hj
  · rw [hsta]
    simpa [unhash, setSta, hj] using h.linked

theorem Sound.free (h : t.Sound) (i : StaId) : (t.freeStainfo i).Sound := by
  by_cases hi : i ∈ t.staHash
  · obtain ⟨hsta,hhash,hbank⟩ := freeStainfo_eq hi
    constructor
    · rw [hhash]
      exact h.nodup.erase i
    · rw [hbank]
      exact h.counted.clears i _
    · rw [hbank]
      exact h.served.clears i _
    · intro j
      rw [hsta]
      by_cases hj : j = i
      · subst hj
        simp [unhash]
      · simpa [unhash, setSta, hj] using h.sleepq j
    · intro j k f hf
      rw [hbank] at hf
      by_cases hj : j = i
      · subst hj
        rw [QueueBank.queue_clears_of_mem (by cases k <;> simp)] at hf
        cases hf
      · rw [QueueBank.queue_clears_of_ne hj] at hf
        exact ⟨(h.servqTakes j k f hf).1,(h.servqTakes j k f hf).2.free hj hi⟩
    · intro j f hf
      rw [hsta] at hf
      by_cases hj : j = i
      · subst hj
        simp [unhash] at hf
      · exact (h.sleepTakes j f (by simpa [unhash, setSta, hj] using hf)).free hj hi
  · unfold freeStainfo
    rwa [if_neg hi]

theorem Sound.xmit (h : t.Sound) (hf : f.triggered = false) (direct : Option Bool) : (t.rtwXmit f direct).Sound := by
  obtain ⟨htakes,-,n,tim,dz,heq⟩ | ⟨htakes,-,heq⟩ | ⟨-,heq⟩ | heq := rtwXmit_cases h hf direct
  · rw [heq]
    refine h.of_sta rfl rfl rfl id ?_ ?_ h.counted h.served h.servqTakes
    · simp [h.sleepq]
    · intro g hg
      rcases List.mem_append.mp hg with hg | hg
      · exact h.sleepTakes f.psta g hg
      · rwa [List.mem_singleton.mp hg]
  · rw [heq]
    refine h.of_same ⟨rfl,fun _ => rfl,fun _ => id⟩ (h.counted.push _ _ _) (h.served.push _ _ _) h.sleepq
      (servqTakes_of h (fun j l hjl => QueueBank.queue_push_of_ne fun hj hl => hjl ⟨hj,hl⟩) ?_) h.sleepTakes
    intro g hg
    rw [QueueBank.queue_push_self] at hg
    rcases List.mem_append.mp hg with hg | hg
    · exact h.servqTakes f.psta f.ac g hg
    · rw [List.mem_singleton.mp hg]
      exact ⟨rfl,htakes⟩
  · rw [heq]
    exact h.of_same ⟨rfl,fun _ => rfl,fun _ => id⟩ h.counted h.served h.sleepq h.servqTakes h.sleepTakes
  · rw [heq]
    exact h.of_same ⟨rfl,fun _ => rfl,fun _ => id⟩ h.counted h.served h.sleepq h.servqTakes h.sleepTakes

/-! ### Every event -/

/-- The AID of a station that goes to sleep has a bit in the bitmaps. -/
def Fits (t : TxQueues) : TxEvent → Prop
  | .pwrbit src true => ∀ i ∈ t.getStainfo src, (t.sta i).aid < 16
  | _ => True

/-- A station that goes to sleep has nothing in its sleep queue yet. -/
def Fresh (t : TxQueues) : TxEvent → Prop
  | .pwrbit src true => ∀ i ∈ t.getStainfo src, (t.sta i).sleeping = false → ∀ g ∈ (t.sta i).sleepQ,
    isMcast g.ra = true
  | _ => True

theorem processPwrbit_moves (h : t.Sound) {src : MacAddr} {pwrbit : Bool} (hfits : fits → t.Fits (.pwrbit src pwrbit))
    (hfresh : fresh → t.Fresh (.pwrbit src pwrbit)) : Moves fits fresh t (t.processPwrbit src pwrbit) := by
  unfold processPwrbit
  split
  · exact .refl
  · rename_i i hi
    cases pwrbit with
    | false =>
      simp only [Bool.false_eq_true, if_false]
      split_ifs
      · exact .refl
      · exact wakeupStaToXmit_moves h i
    | true =>
      simp only [if_true]
      split_ifs with hsleeping
      · exact .refl
      · exact stopStaXmit_moves h (fun hfit => hfits hfit i hi)
          (fun hfr => hfresh hfr i hi (by simpa using hsleeping))

theorem step_moves (h : t.Sound) {e : TxEvent} (he : e.moving = true) (hfits : fits → t.Fits e)
    (hfresh : fresh → t.Fresh e) : Moves fits fresh t (t.step e) := by
  cases e with
  | xmit | alloc | associate | updateBmcSta | free => cases he
  | complete inx coalesce n => exact xmitframeComplete_moves inx coalesce n t
  | pwrbit src pwrbit => exact processPwrbit_moves h hfits hfresh
  | wmmps src priority => exact processWmmps_moves h src priority
  | psPoll ta aid priority => exact psPoll_moves h ta aid priority
  | chkBmcSleepq => exact chkBmcSleepq_moves h
  | apBmcFrames => exact apBmcFrames_moves h
  | chkHiQueue empty => exact chkHiQueue_moves empty
  | aliveCheck i => exact aliveCheck_moves i
  | aging i =>
    change Moves fits fresh t (t.aging i)
    unfold aging
    split_ifs
    · exact wakeupStaToXmit_moves h i
    · exact .refl

theorem Sound.step (h : t.Sound) (e : TxEvent) : (t.step e).Sound := by
  cases he : e.moving with
  | true =>
    have hmoves : Moves False False t (t.step e) := step_moves h he False.elim False.elim
    exact h.moves hmoves
  | false =>
    cases e with
    | xmit id ra psta priority direct => exact h.xmit rfl direct
    | alloc i hwaddr => exact h.alloc i hwaddr
    | associate i aid uapsd => exact h.associate i aid uapsd
    | updateBmcSta => exact h.updateBmcSta
    | free i => exact h.free i
    | complete | pwrbit | wmmps | psPoll | chkBmcSleepq | apBmcFrames | chkHiQueue | aliveCheck | aging => cases he

theorem sound_init : init.Sound where
  nodup := List.nodup_nil
  counted := QueueBank.counted_empty
  served := QueueBank.served_empty
  sleepq _ := rfl
  servqTakes _ _ f hf := by cases hf
  sleepTakes _ f hf := by cases hf

/-- In every run the counters say what is in the queues, the lists of the hardware queues hold each queue that they hold
once and none that is empty, and a frame waits only for a station that is there. -/
theorem txQueues_sound (events : List TxEvent) : (init.run events).Sound := by
  refine Run.run_induction (fun _ => True)
    (fun _ (t : TxQueues) => t.Sound) sound_init (fun _ t e _ ht => ht.step e) events ?_
  exact fun _ _ => trivial

/-! ### No frame is lost, and none is there twice -/

def frameIds (q : List XmitFrame) : Multiset ℕ := ((q.map XmitFrame.id : List ℕ) : Multiset ℕ)

@[simp] theorem frameIds_nil : frameIds [] = 0 := rfl

@[simp] theorem frameIds_cons (f : XmitFrame) (q : List XmitFrame) : frameIds (f :: q) = {f.id} + frameIds q := rfl

@[simp] theorem frameIds_append (q r : List XmitFrame) : frameIds (q ++ r) = frameIds q + frameIds r := by
  simp [frameIds]

@[simp] theorem frameIds_untriggered (q : List XmitFrame) : frameIds (q.map untriggered) = frameIds q := by
  have hid : XmitFrame.id ∘ untriggered = XmitFrame.id := by
    funext f
    rfl
  rw [frameIds, List.map_map, hid, frameIds]

theorem frameIds_filter (p : XmitFrame → Bool) (q : List XmitFrame) :
    frameIds (q.filter p) + frameIds (q.filter fun f => !p f) = frameIds q := by
  induction q with
  | nil => rfl
  | cons f q ih =>
    cases hf :
      p f <;> simp only [List.filter_cons, hf, Bool.not_true, Bool.not_false, if_true, Bool.false_eq_true, if_false,
      frameIds_cons, ← ih] <;> abel

def servqIds (b : QueueBank StaId TxAc XmitFrame) : Multiset ℕ := b.contents.map XmitFrame.id

def sleepIds (sta : StaId → TxSta) : Multiset ℕ := ∑ i, frameIds (sta i).sleepQ

/-- Every frame that waits, has gone to the hardware or has been dropped -/
def ids (t : TxQueues) : Multiset ℕ := servqIds t.bank + sleepIds t.sta + frameIds t.sent + frameIds t.freed

theorem sleepIds_update (sta : StaId → TxSta) (i : StaId) (s : TxSta) :
    sleepIds (Function.update sta i s) + frameIds (sta i).sleepQ = sleepIds sta + frameIds s.sleepQ := by
  have hsum := sum_update_add (fun j => frameIds (sta j).sleepQ) i (frameIds s.sleepQ)
  have hupdate : (fun j => frameIds (Function.update sta i s j).sleepQ) =
      Function.update (fun j => frameIds (sta j).sleepQ) i (frameIds s.sleepQ) := by
    funext j
    exact Function.apply_update (fun _ (s : TxSta) => frameIds s.sleepQ) sta i s j
  rw [← hupdate] at hsum
  exact hsum

theorem servqIds_push (b : QueueBank StaId TxAc XmitFrame) (i : StaId) (k : TxAc) (f : XmitFrame) :
    servqIds (b.push i k f) = servqIds b + {f.id} := by
  rw [servqIds, QueueBank.contents_push, Multiset.map_add, Multiset.map_singleton, servqIds]

theorem servqIds_clear (b : QueueBank StaId TxAc XmitFrame) (i : StaId) (k : TxAc) :
    servqIds (b.clear i k) + frameIds (b.queue i k) = servqIds b := by
  have hclear := congrArg (Multiset.map XmitFrame.id) (QueueBank.contents_clear (b := b) (i := i) (k := k))
  rwa [Multiset.map_add] at hclear

theorem servqIds_take (b : QueueBank StaId TxAc XmitFrame) (i : StaId) (k : TxAc) (n : ℕ) (turn : Bool) :
    servqIds (b.take i k n turn) + frameIds ((b.queue i k).take n) = servqIds b := by
  have htake := congrArg (Multiset.map XmitFrame.id) (QueueBank.contents_take (b := b) (i := i) (k := k) n turn)
  rwa [Multiset.map_add] at htake

theorem servqIds_setQueue (b : QueueBank StaId TxAc XmitFrame) (i : StaId) (k : TxAc) (q : List XmitFrame) :
    servqIds (b.setQueue i k q) + frameIds (b.queue i k) = servqIds b + frameIds q := by
  have hset := congrArg (Multiset.map XmitFrame.id) (QueueBank.contents_setQueue (b := b) (i := i) (k := k) (q := q))
  rwa [Multiset.map_add, Multiset.map_add] at hset

/-- A change of a station that leaves its sleep queue alone -/
theorem ids_setSta_same (h : s.sleepQ = (t.sta i).sleepQ) : (t.setSta i s).ids = t.ids := by
  have hupdate := sleepIds_update t.sta i s
  rw [h] at hupdate
  unfold TxQueues.ids
  dsimp only [setSta]
  rw [add_right_cancel hupdate]

theorem Move.ids (h : Move fits fresh t t') : t'.ids = t.ids := by
  cases h with
  | bits tim dz => rfl
  | asleep i sleeping => exact ids_setSta_same rfl
  | release i kept rest f n mdata eosp hq hkept =>
    have hupdate := sleepIds_update t.sta i
      { t.sta i with sleepQ := kept ++ rest, sleepqLen := (t.sta i).sleepqLen - 1, sleepqAcLen := n }
    simp only [hq, frameIds_append, frameIds_cons] at hupdate
    have hless : sleepIds (Function.update t.sta i
        { t.sta i with sleepQ := kept ++ rest, sleepqLen := (t.sta i).sleepqLen - 1, sleepqAcLen := n }) + {f.id} =
        sleepIds t.sta := by
      refine add_right_cancel (b := frameIds kept + frameIds rest) ?_
      rw [← hupdate]
      abel
    unfold TxQueues.ids
    dsimp only [setSta]
    rw [servqIds_push, ← hless]
    abel
  | buffer i k n tim dz hfresh =>
    have hupdate := sleepIds_update t.sta i { t.sta i with
      sleepQ := (t.sta i).sleepQ ++ (t.bank.queue i k).map untriggered
      sleepqLen := (t.sta i).sleepqLen + (t.bank.queue i k).length
      sleepqAcLen := n }
    rw [frameIds_append, frameIds_untriggered, ← add_assoc, add_right_comm] at hupdate
    unfold TxQueues.ids
    dsimp only [setSta]
    rw [add_right_cancel hupdate, ← servqIds_clear t.bank i k]
    abel
  | strand i k hfits =>
    have hset := servqIds_setQueue t.bank i k ((t.bank.queue i k).map untriggered)
    rw [frameIds_untriggered] at hset
    unfold TxQueues.ids
    dsimp only
    rw [show servqIds ((t.bank.setQueue i k ((t.bank.queue i k).map untriggered)).unlink i k) = servqIds t.bank from
      add_right_cancel hset]
  | take i k n turn p =>
    unfold TxQueues.ids
    dsimp only
    rw [← servqIds_take t.bank i k n turn, frameIds_append, frameIds_append,
      ← frameIds_filter p ((t.bank.queue i k).take n)]
    abel

theorem Moves.ids (h : Moves fits fresh t t') : t'.ids = t.ids := by
  induction h with
  | refl => rfl
  | tail _ hmove ih => exact hmove.ids.trans ih

theorem ids_unhash (i : StaId) (t : TxQueues) : (t.unhash i).ids = t.ids := by
  have hupdate := sleepIds_update t.sta i { t.sta i with
    fwLinked := false, sleepQ := [], sleepqLen := 0, sleepqAcLen := 0, uapsd := fun _ => false, hasLegacyAc := false,
    aid := 0 }
  rw [frameIds_nil, add_zero] at hupdate
  unfold TxQueues.ids unhash
  dsimp only [setSta]
  rw [← hupdate, frameIds_append]
  abel

theorem ids_freeServqs (ks : List TxAc) (t : TxQueues) : (ks.foldl (fun t k => t.freeServq i k) t).ids = t.ids := by
  induction ks generalizing t with
  | nil => rfl
  | cons k ks ih =>
    refine (ih _).trans ?_
    unfold TxQueues.ids freeServq
    dsimp only
    rw [← servqIds_clear t.bank i k, frameIds_append]
    abel

theorem ids_free (i : StaId) (t : TxQueues) : (t.freeStainfo i).ids = t.ids := by
  unfold freeStainfo
  split_ifs
  · exact (ids_freeServqs _ _).trans (ids_unhash i t)
  · rfl

theorem ids_alloc (h : t.Sound) (i : StaId) (hwaddr : MacAddr) : (t.allocStainfo i hwaddr).ids = t.ids := by
  by_cases hi : i ∈ t.staHash
  · rw [allocStainfo, if_pos hi]
  · have hids : (t.setSta i (.fresh hwaddr)).ids = t.ids := ids_setSta_same (h.empty_of_unhashed hi).1.symm
    rw [allocStainfo, if_neg hi, ← hids]
    rfl

theorem ids_associate (i : StaId) (aid : ℕ) (uapsd : TxAc → Bool) (t : TxQueues) :
    (t.associate i aid uapsd).ids = t.ids := by
  by_cases hi : i ∈ t.staHash
  · rw [associate, if_pos hi]
    exact ids_setSta_same rfl
  · rw [associate, if_neg hi]

theorem ids_updateBmcSta (t : TxQueues) : t.updateBmcSta.ids = t.ids := by
  unfold updateBmcSta
  split
  · rfl
  · exact ids_setSta_same rfl

theorem ids_xmit (h : t.Sound) (hf : f.triggered = false) (direct : Option Bool) :
    (t.rtwXmit f direct).ids = t.ids + {f.id} := by
  obtain ⟨-,-,n,tim,dz,heq⟩ | ⟨-,-,heq⟩ | ⟨-,heq⟩ | heq := rtwXmit_cases h hf direct
  · have hupdate := sleepIds_update t.sta f.psta { t.sta f.psta with
      sleepQ := (t.sta f.psta).sleepQ ++ [f], sleepqLen := (t.sta f.psta).sleepqLen + 1, sleepqAcLen := n }
    rw [frameIds_append, frameIds_cons, frameIds_nil, add_zero, ← add_assoc, add_right_comm] at hupdate
    rw [heq]
    unfold TxQueues.ids
    dsimp only [setSta]
    rw [add_right_cancel hupdate]
    abel
  · rw [heq]
    unfold TxQueues.ids
    dsimp only
    rw [servqIds_push]
    abel
  · rw [heq]
    unfold TxQueues.ids
    dsimp only
    rw [frameIds_append, frameIds_cons, frameIds_nil]
    abel
  · rw [heq]
    unfold TxQueues.ids
    dsimp only
    rw [frameIds_append, frameIds_cons, frameIds_nil]
    abel

theorem ids_step (h : t.Sound) (e : TxEvent) : (t.step e).ids = t.ids + (e.arrival.toList : Multiset ℕ) := by
  cases he : e.moving with
  | true =>
    have hmoves : Moves False False t (t.step e) := step_moves h he False.elim False.elim
    have hnone : e.arrival = none := by
      cases e with
      | xmit => cases he
      | _ => rfl
    rw [hmoves.ids, hnone, Option.toList_none, Multiset.coe_nil, add_zero]
  | false =>
    cases e with
    | xmit id ra psta priority direct => exact ids_xmit h rfl direct
    | alloc i hwaddr => exact (ids_alloc h i hwaddr).trans (add_zero _).symm
    | associate i aid uapsd => exact (ids_associate i aid uapsd t).trans (add_zero _).symm
    | updateBmcSta => exact (ids_updateBmcSta t).trans (add_zero _).symm
    | free i => exact (ids_free i t).trans (add_zero _).symm
    | complete | pwrbit | wmmps | psPoll | chkBmcSleepq | apBmcFrames | chkHiQueue | aliveCheck | aging => cases he

/-- In every run each frame that has come is in exactly one place: in the queue of its station and category, in the
sleep queue of its station, with the hardware, or dropped. -/
theorem frames_conserved (events : List TxEvent) :
    (init.run events).ids = (events.filterMap TxEvent.arrival : List ℕ) ∧
      (∀ i k, ∀ f ∈ (init.run events).bank.queue i k, f.ac = k ∧ (init.run events).Takes i f) ∧
      ∀ i, ∀ f ∈ ((init.run events).sta i).sleepQ, (init.run events).Takes i f := by
  have hrun : (init.run events).Sound ∧ (init.run events).ids = (events.filterMap TxEvent.arrival : List ℕ) := by
    refine Run.run_induction (fun _ => True)
      (fun past (t : TxQueues) => t.Sound ∧ t.ids = (past.filterMap TxEvent.arrival : List ℕ))
        ⟨sound_init,?_⟩ ?_ events
      (fun _ _ => trivial)
    · simp [TxQueues.ids, servqIds, sleepIds, init, TxSta.fresh]
    · rintro past t e - ⟨hsound,hids⟩
      refine ⟨hsound.step e,?_⟩
      rw [ids_step hsound e, hids, List.filterMap_append, ← Multiset.coe_add]
      cases he : e.arrival <;> simp [he]
  exact ⟨hrun.2,hrun.1.servqTakes,hrun.1.sleepTakes⟩

/-! ### No frame is out of reach -/

theorem Move.reached (h : t.Sound) (hr : t.bank.Reached) (hmove : Move True fresh t t') : t'.bank.Reached := by
  cases hmove with
  | bits | asleep => exact hr
  | release i kept rest f n mdata eosp hq hkept => exact hr.push i f.ac _
  | buffer i k n tim dz hfresh => exact hr.clear (h.served.nodup k) i
  | strand i k hfits =>
    have hempty : (t.bank.queue i k).map untriggered = [] := by rw [hfits trivial, List.map_nil]
    rw [hempty]
    exact (hr.shorten fun hne => absurd rfl hne).unlink (h.served.nodup k) QueueBank.queue_setQueue_self
  | take i k n turn p => exact hr.take h.served.nodup i k n turn

theorem Moves.reached (h : t.Sound) (hr : t.bank.Reached) (hmoves : Moves True fresh t t') : t'.bank.Reached := by
  induction hmoves with
  | refl => exact hr
  | tail hpast hmove ih => exact hmove.reached (h.moves hpast) ih

theorem reached_step (h : t.Sound) (hr : t.bank.Reached) {e : TxEvent} (hfits : t.Fits e) :
    (t.step e).bank.Reached := by
  cases he : e.moving with
  | true =>
    have hmoves : Moves True False t (t.step e) := step_moves h he (fun _ => hfits) False.elim
    exact hmoves.reached h hr
  | false =>
    cases e with
    | xmit id ra psta priority direct =>
      have hcases := rtwXmit_cases (f := ⟨id,ra,psta,priority,false,false,false⟩) h rfl direct
      rw [step]
      obtain ⟨-,-,n,tim,dz,heq⟩ | ⟨-,-,heq⟩ | ⟨-,heq⟩ | heq := hcases <;> rw [heq]
      · exact hr
      · exact hr.push _ _ _
      · exact hr
      · exact hr
    | alloc i hwaddr =>
      rw [step, allocStainfo]
      split_ifs <;> exact hr
    | associate i aid uapsd =>
      by_cases hi : i ∈ t.staHash
      · rw [step, associate, if_pos hi]
        exact hr
      · rw [step, associate, if_neg hi]
        exact hr
    | updateBmcSta =>
      rw [step, updateBmcSta]
      split <;> exact hr
    | free i =>
      by_cases hi : i ∈ t.staHash
      · rw [step, (freeStainfo_eq hi).2.2]
        exact hr.clears h.served i _
      · rw [step, freeStainfo, if_neg hi]
        exact hr
    | complete | pwrbit | wmmps | psPoll | chkBmcSleepq | apBmcFrames | chkHiQueue | aliveCheck | aging => cases he

theorem rtwDequeueXframe_eq_none_iff (hr : t.bank.Reached) (inx : List TxAc) :
    t.rtwDequeueXframe inx = none ↔ ∀ k ∈ inx, ∀ i, t.bank.queue i k = [] := by
  have hlist : ∀ k, t.bank.popFirst k (t.bank.linked k) = none ↔ ∀ i, t.bank.queue i k = [] := by
    intro k
    rw [QueueBank.popFirst_eq_none_iff]
    refine ⟨fun h i => ?_,fun h i _ => h i⟩
    by_contra hne
    exact hne (h i (hr i k hne))
  induction inx with
  | nil => simp [rtwDequeueXframe]
  | cons k inx ih =>
    have hk := hlist k
    rw [rtwDequeueXframe, List.forall_mem_cons]
    cases hpop : t.bank.popFirst k (t.bank.linked k) with
    | none => exact ih.trans (and_iff_right (hk.mp hpop)).symm
    | some p =>
      rw [hpop] at hk
      simpa using fun hall => absurd (hk.mpr hall) (Option.some_ne_none p)

theorem pending_eq (t : TxQueues) : t.pending = t.bank.contents.card := by
  simp [pending, QueueBank.contents]

theorem pickFirst_eq_none {inx : List TxAc} {coalesce : XmitFrame → Bool} {fuel : ℕ} (hfuel : t.pending < fuel)
    (h : (pickFirst inx coalesce fuel t).2 = none) : (pickFirst inx coalesce fuel t).1.rtwDequeueXframe inx = none := by
  induction fuel generalizing t with
  | zero => omega
  | succ fuel ih =>
    rw [pickFirst] at h ⊢
    split at h
    · rename_i hdeq
      exact hdeq
    · rename_i f t₁ hdeq
      obtain ⟨i,k,-,q,hq,rfl⟩ := rtwDequeueXframe_eq_some hdeq
      split_ifs at h ⊢ with hf
      refine ih ?_ h
      have hcard := congrArg Multiset.card (QueueBank.contents_take (b := t.bank) (i := i) (k := k) 1 false)
      rw [Multiset.card_add, hq, List.take_succ_cons, List.take_zero, Multiset.coe_singleton, Multiset.card_singleton]
        at hcard
      rw [pending_eq] at hfuel ⊢
      dsimp only
      omega

/-- When the AIDs of the stations that go to sleep are below 16, the hardware finds every frame that waits for it:
`rtw_dequeue_xframe` gives up on some categories only when all their queues are empty, and so does
`rtl8188fu_xmitframe_complete`. -/
theorem nothing_out_of_reach (events : List TxEvent) (h : Run.Safe step Fits init events) (inx : List TxAc) :
    ((init.run events).rtwDequeueXframe inx = none ↔ ∀ k ∈ inx, ∀ i, (init.run events).bank.queue i k = []) ∧
      ∀ coalesce t', pickFirst inx coalesce ((init.run events).pending + 1) (init.run events) = (t',none) →
        ∀ k ∈ inx, ∀ i, t'.bank.queue i k = [] := by
  have hboth : (init.run events).Sound ∧ (init.run events).bank.Reached :=
    h.induction (fun t => t.Sound ∧ t.bank.Reached)
      (fun t e hfits ht => ⟨ht.1.step e,reached_step ht.1 ht.2 hfits⟩)
      ⟨sound_init,fun i k hne => absurd rfl hne⟩ events List.prefix_rfl
  refine ⟨rtwDequeueXframe_eq_none_iff hboth.2 inx,?_⟩
  intro coalesce t' hpick
  have hmoves : Moves True False (init.run events) t' := by
    have hmoves : Moves True False (init.run events) _ := pickFirst_moves inx coalesce ((init.run events).pending + 1) _
    rwa [hpick] at hmoves
  refine (rtwDequeueXframe_eq_none_iff (hmoves.reached hboth.1 hboth.2) inx).mp ?_
  have hnone := congrArg Prod.snd hpick
  have hrest := pickFirst_eq_none (Nat.lt_succ_self _) hnone
  rwa [Nat.succ_eq_add_one, hpick] at hrest

/-- A station that is given a frame and goes to sleep before it is sent -/
theorem nothing_out_of_reach_asleep :
    let events : List TxEvent := [.alloc 0 [2,0,0,0,0,1],.associate 0 1 fun _ => false,.xmit 7 [2,0,0,0,0,1] 0 0 none,
      .pwrbit [2,0,0,0,0,1] true]
    ((init.run events).rtwDequeueXframe [.be] = none ↔
      ∀ k ∈ [TxAc.be], ∀ i, (init.run events).bank.queue i k = []) ∧
      ∀ coalesce t', pickFirst [.be] coalesce ((init.run events).pending + 1) (init.run events) = (t',none) →
        ∀ k ∈ [TxAc.be], ∀ i, t'.bank.queue i k = [] := by
  intro events
  refine nothing_out_of_reach events ⟨trivial,trivial,trivial,?_,trivial⟩ _
  intro i hi
  have hzero : i = 0 := by
    refine Option.some.inj (hi.symm.trans ?_)
    decide
  subst hzero
  decide

end TxQueues
end Rtl8188fu
