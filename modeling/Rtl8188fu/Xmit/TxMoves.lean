import Rtl8188fu.Xmit.TxQueues

/-! # How frames move between the transmit queues

A new frame comes to one of the queues or goes past them. Everything else is made of a few moves, each of which is right
whatever the handler does around it.
-/
namespace Rtl8188fu

theorem isMcast_staKey (a : MacAddr) : isMcast (staKey a) = isMcast a := by
  unfold staKey
  split_ifs with h
  · rw [h]
    decide
  · rfl

namespace TxQueues
variable {t t' : TxQueues} {i j : StaId} {k : TxAc} {f : XmitFrame} {s : TxSta}

/-- The station that a frame is for is in the hash and linked. -/
structure Takes (t : TxQueues) (i : StaId) (f : XmitFrame) : Prop where
  psta : f.psta = i
  found : t.getStainfo f.ra = some i
  linked : (t.sta i).fwLinked = true

/-- What holds between any two events -/
structure Sound (t : TxQueues) : Prop where
  nodup : t.staHash.Nodup
  counted : t.bank.Counted
  served : t.bank.Served
  sleepq : ∀ i, (t.sta i).sleepqLen = (t.sta i).sleepQ.length
  servqTakes : ∀ i k, ∀ f ∈ t.bank.queue i k, f.ac = k ∧ t.Takes i f
  sleepTakes : ∀ i, ∀ f ∈ (t.sta i).sleepQ, t.Takes i f

/-- The stations are the same, and none has lost its link. -/
structure SameStas (t t' : TxQueues) : Prop where
  hash : t'.staHash = t.staHash
  hwaddr : ∀ i, (t'.sta i).hwaddr = (t.sta i).hwaddr
  linked : ∀ i, (t.sta i).fwLinked = true → (t'.sta i).fwLinked = true

theorem SameStas.getStainfo (h : SameStas t t') (a : MacAddr) : t'.getStainfo a = t.getStainfo a := by
  unfold TxQueues.getStainfo
  simp only [h.hash, h.hwaddr]

theorem SameStas.takes (h : SameStas t t') (hf : t.Takes i f) : t'.Takes i f :=
  ⟨hf.psta,(h.getStainfo f.ra).trans hf.found,h.linked i hf.linked⟩

theorem SameStas.of_sta (hsta : t'.sta = Function.update t.sta i s) (hhash : t'.staHash = t.staHash)
    (hhwaddr : s.hwaddr = (t.sta i).hwaddr) (hlinked : (t.sta i).fwLinked = true → s.fwLinked = true) :
    SameStas t t' where
  hash := hhash
  hwaddr j := by
    by_cases hj : j = i
    · subst hj
      simpa [hsta] using hhwaddr
    · simp [hsta, hj]
  linked j := by
    by_cases hj : j = i
    · subst hj
      simpa [hsta] using hlinked
    · simp [hsta, hj]

theorem Takes.mem_staHash (h : t.Takes i f) : i ∈ t.staHash := List.mem_of_find?_eq_some h.found

theorem hwaddr_of_getStainfo {a : MacAddr} (h : t.getStainfo a = some i) : (t.sta i).hwaddr = staKey a := by
  simpa using List.find?_some h

theorem Takes.isMcast_ra (h : t.Takes i f) : isMcast f.ra = isMcast (t.sta i).hwaddr := by
  rw [hwaddr_of_getStainfo h.found, isMcast_staKey]

section Fields

@[simp] theorem sta_setSta_self : (t.setSta i s).sta i = s := by simp [setSta]

theorem sta_setSta_of_ne (h : j ≠ i) : (t.setSta i s).sta j = t.sta j := by simp [setSta, h]

@[simp] theorem sta_halXmitframeEnqueue : (t.halXmitframeEnqueue f).sta = t.sta := by
  unfold halXmitframeEnqueue rtwXmitClassifier
  split_ifs <;> rfl

@[simp] theorem staHash_halXmitframeEnqueue : (t.halXmitframeEnqueue f).staHash = t.staHash := by
  unfold halXmitframeEnqueue rtwXmitClassifier
  split_ifs <;> rfl

@[simp] theorem timBitmap_halXmitframeEnqueue : (t.halXmitframeEnqueue f).timBitmap = t.timBitmap := by
  unfold halXmitframeEnqueue rtwXmitClassifier
  split_ifs <;> rfl

@[simp] theorem staDzBitmap_halXmitframeEnqueue : (t.halXmitframeEnqueue f).staDzBitmap = t.staDzBitmap := by
  unfold halXmitframeEnqueue rtwXmitClassifier
  split_ifs <;> rfl

variable {left : List XmitFrame} {n : ℤ} {mdata eosp : Bool}

@[simp] theorem sta_release_self : (t.release i f left n mdata eosp).sta i =
    { t.sta i with sleepQ := left, sleepqLen := (t.sta i).sleepqLen - 1, sleepqAcLen := n } := by
  simp [release]

@[simp] theorem staHash_release : (t.release i f left n mdata eosp).staHash = t.staHash := by
  simp [release, setSta]

@[simp] theorem timBitmap_release : (t.release i f left n mdata eosp).timBitmap = t.timBitmap := by
  simp [release, setSta]

@[simp] theorem staDzBitmap_release : (t.release i f left n mdata eosp).staDzBitmap = t.staDzBitmap := by
  simp [release, setSta]

end Fields

/-- `triggered` is taken back. -/
def untriggered (f : XmitFrame) : XmitFrame := { f with triggered := false }

/-- What a handler does to the queues in one go. `fits` says that no queue is given up with something in it, `fresh`
that a queue goes to sleep behind nothing of its own. -/
inductive Move (fits fresh : Prop) (t : TxQueues) : TxQueues → Prop
  | bits (tim dz : BitVec 16) : Move fits fresh t { t with timBitmap := tim, staDzBitmap := dz }
  | asleep (i : StaId) (sleeping : Bool) : Move fits fresh t (t.setSta i { t.sta i with sleeping })
  | release (i : StaId) (kept rest : List XmitFrame) (f : XmitFrame) (n : ℤ) (mdata eosp : Bool)
      (hq : (t.sta i).sleepQ = kept ++ f :: rest) (hkept : ∀ g ∈ kept, g.ac ≠ f.ac) :
      Move fits fresh t
        { t.setSta i { t.sta i with
            sleepQ := kept ++ rest, sleepqLen := (t.sta i).sleepqLen - 1, sleepqAcLen := n } with
          bank := t.bank.push i f.ac { f with triggered := true, mdata, eosp } }
  | buffer (i : StaId) (k : TxAc) (n : ℤ) (tim dz : BitVec 16)
      (hfresh : fresh → ∀ g ∈ (t.sta i).sleepQ, isMcast g.ra = false → g.ac ≠ k) :
      Move fits fresh t
        { t.setSta i { t.sta i with
            sleepQ := (t.sta i).sleepQ ++ (t.bank.queue i k).map untriggered
            sleepqLen := (t.sta i).sleepqLen + (t.bank.queue i k).length
            sleepqAcLen := n } with
          bank := t.bank.clear i k, timBitmap := tim, staDzBitmap := dz }
  | strand (i : StaId) (k : TxAc) (hfits : fits → t.bank.queue i k = []) :
      Move fits fresh t { t with bank := (t.bank.setQueue i k ((t.bank.queue i k).map untriggered)).unlink i k }
  | take (i : StaId) (k : TxAc) (n : ℕ) (turn : Bool) (p : XmitFrame → Bool) :
      Move fits fresh t { t with
        bank := t.bank.take i k n turn
        sent := t.sent ++ ((t.bank.queue i k).take n).filter p
        freed := t.freed ++ ((t.bank.queue i k).take n).filter fun f => !p f }

abbrev Moves (fits fresh : Prop) : TxQueues → TxQueues → Prop := Relation.ReflTransGen (Move fits fresh)

theorem Sound.of_same (h : t.Sound) (hsame : SameStas t t') (hcounted : t'.bank.Counted) (hserved : t'.bank.Served)
    (hsleepq : ∀ i, (t'.sta i).sleepqLen = (t'.sta i).sleepQ.length)
    (hservq : ∀ i k, ∀ f ∈ t'.bank.queue i k, f.ac = k ∧ t.Takes i f)
    (hsleep : ∀ i, ∀ f ∈ (t'.sta i).sleepQ, t.Takes i f) : t'.Sound where
  nodup := hsame.hash ▸ h.nodup
  counted := hcounted
  served := hserved
  sleepq := hsleepq
  servqTakes i k f hf := ⟨(hservq i k f hf).1,hsame.takes (hservq i k f hf).2⟩
  sleepTakes i f hf := hsame.takes (hsleep i f hf)

/-- A queue keeps what it had, or has what was there before with new tags. -/
theorem servqTakes_of (h : t.Sound) {b : QueueBank StaId TxAc XmitFrame}
    (hother : ∀ j l, ¬(j = i ∧ l = k) → b.queue j l = t.bank.queue j l)
    (hself : ∀ f ∈ b.queue i k, f.ac = k ∧ t.Takes i f) : ∀ j l, ∀ f ∈ b.queue j l, f.ac = l ∧
    t.Takes j f := by
  intro j l f hf
  by_cases hjl : j = i ∧ l = k
  · obtain ⟨rfl,rfl⟩ := hjl
    exact hself f hf
  · rw [hother j l hjl] at hf
    exact h.servqTakes j l f hf

theorem Sound.of_sta (h : t.Sound) (hsta : t'.sta = Function.update t.sta i s) (hhash : t'.staHash = t.staHash)
    (hhwaddr : s.hwaddr = (t.sta i).hwaddr) (hlinked : (t.sta i).fwLinked = true → s.fwLinked = true)
    (hlen : s.sleepqLen = s.sleepQ.length) (hsleep : ∀ f ∈ s.sleepQ, t.Takes i f) (hcounted : t'.bank.Counted)
    (hserved : t'.bank.Served) (hservq : ∀ i k, ∀ f ∈ t'.bank.queue i k, f.ac = k ∧ t.Takes i f) :
    t'.Sound := by
  have hself : t'.sta i = s := by simp [hsta]
  have hother : ∀ j, j ≠ i → t'.sta j = t.sta j := fun j hj => by simp [hsta, hj]
  refine h.of_same (SameStas.of_sta hsta hhash hhwaddr hlinked) hcounted hserved ?_ hservq ?_
  · intro j
    by_cases hj : j = i
    · rw [hj, hself, hlen]
    · rw [hother j hj, h.sleepq j]
  · intro j f hf
    by_cases hj : j = i
    · subst hj
      exact hsleep f (hself ▸ hf)
    · exact h.sleepTakes j f (hother j hj ▸ hf)

theorem Sound.bits (h : t.Sound) (tim dz : BitVec 16) : Sound { t with timBitmap := tim, staDzBitmap := dz } :=
  h.of_same ⟨rfl,fun _ => rfl,fun _ => id⟩ h.counted h.served h.sleepq h.servqTakes h.sleepTakes

theorem Sound.move {fits fresh : Prop} (h : t.Sound) (hmove : Move fits fresh t t') : t'.Sound := by
  cases hmove with
  | bits tim dz => exact h.bits tim dz
  | asleep i sleeping =>
    exact h.of_sta rfl rfl rfl id (h.sleepq i) (h.sleepTakes i) h.counted h.served h.servqTakes
  | release i kept rest f n mdata eosp hq hkept =>
    have hall : ∀ g ∈ kept ++ f :: rest, t.Takes i g := hq ▸ h.sleepTakes i
    have hf : t.Takes i f := hall f (by simp)
    have hlen : (t.sta i).sleepqLen - 1 = (kept ++ rest).length := by
      have hlen := h.sleepq i
      simp only [hq, List.length_append, List.length_cons] at hlen ⊢
      omega
    refine h.of_sta rfl rfl rfl id hlen (fun g hg => hall g ?_) (h.counted.push i f.ac _) (h.served.push i f.ac _)
      (servqTakes_of h (fun j l hjl => QueueBank.queue_push_of_ne fun hj hl => hjl ⟨hj,hl⟩) ?_)
    · rcases List.mem_append.mp hg with hg | hg
      · exact List.mem_append_left _ hg
      · exact List.mem_append_right _ (List.mem_cons_of_mem f hg)
    · intro g hg
      rw [QueueBank.queue_push_self] at hg
      rcases List.mem_append.mp hg with hg | hg
      · exact h.servqTakes i f.ac g hg
      · rw [List.mem_singleton.mp hg]
        exact ⟨rfl,hf.psta,hf.found,hf.linked⟩
  | buffer i k n tim dz hfresh =>
    have hlen : (t.sta i).sleepqLen + (t.bank.queue i k).length =
        ((t.sta i).sleepQ ++ (t.bank.queue i k).map untriggered).length := by
      rw [List.length_append, List.length_map, h.sleepq i, Nat.cast_add]
    refine h.of_sta rfl rfl rfl id hlen ?_ (h.counted.clear i k) (h.served.clear i k)
      (servqTakes_of h (fun j l hjl => QueueBank.queue_clear_of_ne fun hj hl => hjl ⟨hj,hl⟩) ?_)
    · intro g hg
      rcases List.mem_append.mp hg with hg | hg
      · exact h.sleepTakes i g hg
      · obtain ⟨f,hf,rfl⟩ := List.mem_map.mp hg
        have htakes := (h.servqTakes i k f hf).2
        exact ⟨htakes.psta,htakes.found,htakes.linked⟩
    · intro g hg
      rw [QueueBank.queue_clear_self] at hg
      cases hg
  | strand i k hfits =>
    have hcounted : (t.bank.setQueue i k ((t.bank.queue i k).map untriggered)).Counted := by
      have hchange := h.counted.change i k ((t.bank.queue i k).map untriggered)
      rwa [List.length_map, sub_self, QueueBank.count_zero] at hchange
    refine h.of_same ⟨rfl,fun _ => rfl,fun _ => id⟩ (hcounted.unlink i k) (h.served.setQueue_unlink i k _) h.sleepq
      (servqTakes_of h (fun j l hjl => QueueBank.queue_setQueue_of_ne fun hj hl => hjl ⟨hj,hl⟩) ?_)
      h.sleepTakes
    intro g hg
    rw [QueueBank.queue_unlink, QueueBank.queue_setQueue_self] at hg
    obtain ⟨f,hf,rfl⟩ := List.mem_map.mp hg
    have htakes := h.servqTakes i k f hf
    exact ⟨htakes.1,htakes.2.psta,htakes.2.found,htakes.2.linked⟩
  | take i k n turn p =>
    refine h.of_same ⟨rfl,fun _ => rfl,fun _ => id⟩ (h.counted.take i k n turn) (h.served.take i k n turn) h.sleepq
      (servqTakes_of h (fun j l hjl => QueueBank.queue_take_of_ne fun hj hl => hjl ⟨hj,hl⟩) ?_)
      h.sleepTakes
    intro g hg
    rw [QueueBank.queue_take_self] at hg
    exact h.servqTakes i k g (List.mem_of_mem_drop hg)

theorem Moves.hwaddr {fits fresh : Prop} (h : Moves fits fresh t t') (i : StaId) :
    (t'.sta i).hwaddr = (t.sta i).hwaddr := by
  induction h with
  | refl => rfl
  | @tail u v _ hmove ih =>
    have hstep : SameStas u v := by
      cases hmove with
      | bits | strand | take => exact ⟨rfl,fun _ => rfl,fun _ => id⟩
      | asleep | release | buffer => exact SameStas.of_sta rfl rfl rfl id
    exact (hstep.hwaddr i).trans ih

theorem Sound.moves {fits fresh : Prop} (h : t.Sound) (hmoves : Moves fits fresh t t') : t'.Sound := by
  induction hmoves with
  | refl => exact h
  | tail _ hmove ih => exact ih.move hmove

section Loops
variable {fits fresh : Prop} {left kept rest : List XmitFrame} {n : ℤ} {mdata eosp : Bool}

theorem halXmitframeEnqueue_of_takes (h : t.Takes i f) :
    t.halXmitframeEnqueue f = { t with bank := t.bank.push i f.ac f } := by
  have hfound : t.getStainfo f.ra = some f.psta := h.psta.symm ▸ h.found
  have hlinked : (t.sta f.psta).fwLinked = true := h.psta.symm ▸ h.linked
  simp [halXmitframeEnqueue, rtwXmitClassifier, hfound, h.linked, h.psta]

/-- A frame that leaves a sleep queue is never dropped. -/
theorem release_move (kept : List XmitFrame) (h : t.Sound) (hq : (t.sta i).sleepQ = kept ++ f :: rest)
    (hkept : ∀ g ∈ kept, g.ac ≠ f.ac) :
    Move fits fresh t (t.release i f (kept ++ rest) n mdata eosp) := by
  have hf : t.Takes i f := h.sleepTakes i f (by simp [hq])
  have hsame : SameStas t (t.setSta i { t.sta i with
      sleepQ := kept ++ rest, sleepqLen := (t.sta i).sleepqLen - 1, sleepqAcLen := n }) :=
        SameStas.of_sta rfl rfl rfl id
  have htakes := hsame.takes (f := { f with triggered := true, mdata, eosp }) ⟨hf.psta,hf.found,hf.linked⟩
  rw [release, halXmitframeEnqueue_of_takes htakes]
  exact Move.release i kept rest f n mdata eosp hq hkept

theorem wakeupLoop_moves (h : t.Sound) {q : List XmitFrame} (hq : (t.sta i).sleepQ = q) :
    Moves fits fresh t (wakeupLoop i q t) := by
  induction q generalizing t with
  | nil => exact .refl
  | cons f left ih =>
    have hmove : ∀ n mdata eosp, Move fits fresh t (t.release i f left n mdata eosp) :=
      fun n mdata eosp => release_move [] h hq (List.forall_mem_nil _)
    rw [wakeupLoop]
    split_ifs
    · exact .head (hmove _ _ _) (ih (h.move (hmove _ _ _)) (by simp))
    · exact .head (hmove _ _ _) (ih (h.move (hmove _ _ _)) (by simp))

theorem flushLoop_moves (h : t.Sound) {n : ℕ} {q : List XmitFrame} (hq : (t.sta i).sleepQ = q) :
    Moves fits fresh t (flushLoop i n q t) := by
  induction n generalizing t q with
  | zero => cases q <;> exact .refl
  | succ n ih =>
    cases q with
    | nil => exact .refl
    | cons f left =>
      have hmove : ∀ m mdata eosp, Move fits fresh t (t.release i f left m mdata eosp) :=
        fun m mdata eosp => release_move [] h hq (List.forall_mem_nil _)
      exact .head (hmove _ _ _) (ih (h.move (hmove _ _ _)) (by simp))

theorem deliveryLoop_moves (h : t.Sound) {q : List XmitFrame} (hq : (t.sta i).sleepQ = kept ++ q)
    (hkept : ∀ g ∈ kept, (t.sta i).uapsd g.ac = false) : Moves fits fresh t (deliveryLoop i kept q t) := by
  induction q generalizing t kept with
  | nil => exact .refl
  | cons f q ih =>
    rw [deliveryLoop]
    dsimp only
    by_cases hf : (t.sta i).uapsd f.ac = true
    · have hne : ∀ g ∈ kept, g.ac ≠ f.ac := fun g hg hac => by simp [← hac, hkept g hg] at hf
      have hmove : ∀ n mdata eosp, Move fits fresh t (t.release i f (kept ++ q) n mdata eosp) :=
        fun n mdata eosp => release_move _ h hq hne
      rw [if_pos hf]
      split_ifs
      · exact .head (hmove _ _ _) (.head (.bits _ _)
          (ih ((h.move (hmove _ _ _)).move (show Move fits fresh _ _ from .bits _ _)) (by simp) (by simpa using hkept)))
      · exact .head (hmove _ _ _) (ih (h.move (hmove _ _ _)) (by simp) (by simpa using hkept))
    · rw [if_neg hf]
      refine ih h (by simp [hq]) fun g hg => ?_
      rcases List.mem_append.mp hg with hg | hg
      · exact hkept g hg
      · rw [List.mem_singleton.mp hg]
        simpa using hf

end Loops

/-- The frames of a station are to wait in its sleep queue. -/
def Buffers (t : TxQueues) (i : StaId) : Prop :=
  if isMcast (t.sta i).hwaddr = true then t.staDzBitmap ≠ 0
  else (t.sta i).sleeping = true ∧ t.staDzBitmap &&& aidBit (t.sta i).aid ≠ 0

theorem and_ne_zero_of_grows {x y b : BitVec 16} (hgrows : x &&& y = x) (h : x &&& b ≠ 0) : y &&& b ≠ 0 := by
  intro hzero
  apply h
  calc x &&& b = x &&& (y &&& b) := by rw [← BitVec.and_assoc, hgrows]
    _ = 0 := by simp [hzero]

theorem and_or_self (x y : BitVec 16) : x &&& (x ||| y) = x := by
  ext n hn
  simpa using Or.inl

/-- Nothing is taken back from what a station buffers for. -/
theorem Buffers.grows (h : t.Buffers i) (hhwaddr : (t'.sta i).hwaddr = (t.sta i).hwaddr)
    (hsleeping : (t'.sta i).sleeping = (t.sta i).sleeping) (haid : (t'.sta i).aid = (t.sta i).aid)
    (hdz : t.staDzBitmap &&& t'.staDzBitmap = t.staDzBitmap) : t'.Buffers i := by
  unfold Buffers at h ⊢
  rw [hhwaddr, hsleeping, haid]
  split_ifs at h ⊢ with hmc
  · intro hzero
    rw [hzero] at hdz
    exact h (by simpa using hdz.symm)
  · exact ⟨h.1,and_ne_zero_of_grows hdz h.2⟩

theorem enqueueForSleepingSta_of_buffers (h : t.Takes i f) (hf : f.triggered = false) (hb : t.Buffers i) :
    ∃ n tim dz, t.staDzBitmap &&& dz = t.staDzBitmap ∧ t.enqueueForSleepingSta f = some
      { t.setSta i { t.sta i with
          sleepQ := (t.sta i).sleepQ ++ [f], sleepqLen := (t.sta i).sleepqLen + 1, sleepqAcLen := n } with
        timBitmap := tim, staDzBitmap := dz } := by
  have hmc := h.isMcast_ra
  obtain ⟨rfl,hfound,hlinked⟩ := h
  unfold Buffers at hb
  unfold enqueueForSleepingSta
  rw [if_neg (not_not_intro hfound), if_neg (by simp [hlinked]), if_neg (by simp [hf]), hmc]
  split_ifs at hb ⊢ with hcond
  · exact ⟨_,_,_,and_or_self _ _,rfl⟩
  · unfold bufferUnicast
    dsimp only
    split_ifs <;> exact ⟨_,_,_,BitVec.and_self,rfl⟩

theorem enqueueForSleepingSta_of_not_buffers (h : t.Takes i f) (hb : ¬t.Buffers i) :
    t.enqueueForSleepingSta f = none := by
  have hmc := h.isMcast_ra
  obtain ⟨rfl,hfound,hlinked⟩ := h
  unfold Buffers at hb
  unfold enqueueForSleepingSta
  rw [hmc]
  split_ifs at hb ⊢ <;> rfl

section Sleeping
variable {fits fresh : Prop} {kept q : List XmitFrame}

/-- A station that buffers takes its whole queue to the sleep queue. -/
theorem dequeueToSleeping_of_buffers (hq : t.bank.queue i k = q) (htakes : ∀ f ∈ q, f.ac = k ∧ t.Takes i f)
    (hb : t.Buffers i) : ∃ n tim dz, t.staDzBitmap &&& dz = t.staDzBitmap ∧ dequeueToSleeping i k [] q t =
      { t.setSta i { t.sta i with
          sleepQ := (t.sta i).sleepQ ++ q.map untriggered
          sleepqLen := (t.sta i).sleepqLen + q.length
          sleepqAcLen := n } with
        bank := (t.bank.setQueue i k []).count i k (-q.length), timBitmap := tim, staDzBitmap := dz } := by
  induction q generalizing t with
  | nil =>
    have hnil : t.bank.setQueue i k [] = t.bank := hq ▸ QueueBank.setQueue_queue
    refine ⟨(t.sta i).sleepqAcLen,t.timBitmap,t.staDzBitmap,BitVec.and_self,?_⟩
    simp [dequeueToSleeping, setSta, hnil]
  | cons f q ih =>
    obtain ⟨hac,hf⟩ := htakes f List.mem_cons_self
    obtain ⟨n,tim,dz,hgrows,hto⟩ :=
      enqueueForSleepingSta_of_buffers (f := untriggered f) ⟨hf.psta,hf.found,hf.linked⟩ rfl hb
    have hto' : t.enqueueForSleepingSta { f with triggered := false } = _ := hto
    have hac' : XmitFrame.ac { f with triggered := false } = k := hac
    rw [dequeueToSleeping]
    simp only [hto', List.nil_append, hac']
    obtain ⟨n',tim',dz',hgrows',hrest⟩ := ih (t := { t.setSta i { t.sta i with
        sleepQ := (t.sta i).sleepQ ++ [untriggered f], sleepqLen := (t.sta i).sleepqLen + 1, sleepqAcLen := n } with
      bank := (t.bank.setQueue i k q).count i k (-1), timBitmap := tim, staDzBitmap := dz })
      (by simp) (fun g hg => ⟨(htakes g (List.mem_cons_of_mem f hg)).1,
        SameStas.takes (SameStas.of_sta rfl rfl rfl id) (htakes g (List.mem_cons_of_mem f hg)).2⟩)
      (hb.grows (by simp [setSta]) (by simp [setSta]) (by simp [setSta]) hgrows)
    refine ⟨n',tim',dz',?_,?_⟩
    · dsimp only at hgrows'
      calc t.staDzBitmap &&& dz' = t.staDzBitmap &&& dz &&& dz' := by rw [hgrows]
        _ = t.staDzBitmap &&& (dz &&& dz') := BitVec.and_assoc ..
        _ = t.staDzBitmap := by rw [hgrows', hgrows]
    · refine hrest.trans ?_
      simp [setSta, QueueBank.setQueue_count, add_assoc, add_comm]

theorem dequeueToSleeping_of_not_buffers (hq : t.bank.queue i k = kept ++ q) (htakes : ∀ f ∈ q, t.Takes i f)
    (hb : ¬t.Buffers i) :
    dequeueToSleeping i k kept q t = { t with bank := t.bank.setQueue i k (kept ++ q.map untriggered) } := by
  induction q generalizing t kept with
  | nil =>
    have hall : t.bank.setQueue i k kept = t.bank := by
      rw [List.append_nil] at hq
      exact hq ▸ QueueBank.setQueue_queue
    simp [dequeueToSleeping, hall]
  | cons f q ih =>
    have hf := htakes f List.mem_cons_self
    have hnone : t.enqueueForSleepingSta { f with triggered := false } = none :=
      enqueueForSleepingSta_of_not_buffers ⟨hf.psta,hf.found,hf.linked⟩ hb
    rw [dequeueToSleeping]
    simp only [hnone]
    have hrest := @ih { t with bank := t.bank.setQueue i k (kept ++ untriggered f :: q) } (kept ++ [untriggered f])
      (by simp)
      (fun g hg => SameStas.takes (t := t) ⟨rfl,fun _ => rfl,fun _ => id⟩ (htakes g (List.mem_cons_of_mem f hg))) hb
    refine hrest.trans ?_
    simp

/-- All that can become of a queue in `stop_sta_xmit` -/
theorem stopServq_cases (h : t.Sound) (i : StaId) (k : TxAc) :
    (t.Buffers i ∧ ∃ n tim dz, t.staDzBitmap &&& dz = t.staDzBitmap ∧ t.stopServq i k =
      { t.setSta i { t.sta i with
          sleepQ := (t.sta i).sleepQ ++ (t.bank.queue i k).map untriggered
          sleepqLen := (t.sta i).sleepqLen + (t.bank.queue i k).length
          sleepqAcLen := n } with
        bank := t.bank.clear i k, timBitmap := tim, staDzBitmap := dz }) ∨
    (¬t.Buffers i ∧
      t.stopServq i k = { t with bank := (t.bank.setQueue i k ((t.bank.queue i k).map untriggered)).unlink i k }) := by
  unfold stopServq
  dsimp only
  by_cases hb : t.Buffers i
  · obtain ⟨n,tim,dz,hgrows,heq⟩ := dequeueToSleeping_of_buffers rfl (h.servqTakes i k) hb
    refine .inl ⟨hb,n,tim,dz,hgrows,?_⟩
    have hcount : ((t.bank.queue i k).length : ℤ) = t.bank.qcnt i k := (h.counted.qcnt i k).symm
    rw [heq, hcount]
    rfl
  · refine .inr ⟨hb,?_⟩
    rw [dequeueToSleeping_of_not_buffers rfl (fun f hf => (h.servqTakes i k f hf).2) hb]
    simp

theorem stopServq_move (h : t.Sound) (hfits : fits → t.bank.queue i k ≠ [] → t.Buffers i)
    (hfresh : fresh → ∀ g ∈ (t.sta i).sleepQ, isMcast g.ra = false → g.ac ≠ k) :
    Move fits fresh t (t.stopServq i k) := by
  obtain ⟨hb,n,tim,dz,-,heq⟩ | ⟨hb,heq⟩ := stopServq_cases h i k
  · rw [heq]
    exact .buffer i k n tim dz hfresh
  · rw [heq]
    refine .strand i k fun hfit => ?_
    by_contra hne
    exact hb (hfits hfit hne)

theorem Buffers.stopServq (hb : t.Buffers j) (h : t.Sound) : (t.stopServq i k).Buffers j := by
  obtain ⟨-,n,tim,dz,hgrows,heq⟩ | ⟨-,heq⟩ := stopServq_cases h i k
  · rw [heq]
    by_cases hj : j = i
    · subst hj
      exact hb.grows (by simp [setSta]) (by simp [setSta]) (by simp [setSta]) hgrows
    · exact hb.grows (by simp [setSta, hj]) (by simp [setSta, hj]) (by simp [setSta, hj]) hgrows
  · rw [heq]
    exact hb

theorem mem_sleepQ_stopServq (h : t.Sound) {g : XmitFrame} (hg : g ∈ ((t.stopServq i k).sta j).sleepQ) :
    g ∈ (t.sta j).sleepQ ∨ g.ac = k := by
  obtain ⟨-,n,tim,dz,-,heq⟩ | ⟨-,heq⟩ := stopServq_cases h i k
  · rw [heq] at hg
    by_cases hj : j = i
    · subst hj
      simp only [setSta, Function.update_self] at hg
      rcases List.mem_append.mp hg with hg | hg
      · exact .inl hg
      · obtain ⟨f,hf,rfl⟩ := List.mem_map.mp hg
        exact .inr (h.servqTakes j k f hf).1
    · simp only [setSta, Function.update_of_ne hj] at hg
      exact .inl hg
  · rw [heq] at hg
    exact .inl hg

/-- The queues of a station go to sleep one after the other. -/
theorem stopServqs_moves (ks : List TxAc) (hnd : ks.Nodup) (h : t.Sound) (hfits : fits → t.Buffers i)
    (hfresh : fresh → ∀ g ∈ (t.sta i).sleepQ, isMcast g.ra = false → g.ac ∉ ks) :
    Moves fits fresh t (ks.foldl (fun t k => t.stopServq i k) t) ∧
      ∀ j, t.Buffers j → (ks.foldl (fun t k => t.stopServq i k) t).Buffers j := by
  induction ks generalizing t with
  | nil => exact ⟨.refl,fun j hj => hj⟩
  | cons k ks ih =>
    obtain ⟨hk,hks⟩ := List.nodup_cons.mp hnd
    have hmove : Move fits fresh t (t.stopServq i k) :=
      stopServq_move h (fun hfit _ => hfits hfit) fun hfr g hg hmc hac => hfresh hfr g hg hmc
        (hac ▸ List.mem_cons_self)
    have hrest := ih hks (h.move hmove) (fun hfit => (hfits hfit).stopServq h) fun hfr g hg hmc hmem => by
      rcases mem_sleepQ_stopServq h hg with hold | hnew
      · exact hfresh hfr g hold hmc (List.mem_cons_of_mem k hmem)
      · exact hk (hnew ▸ hmem)
    exact ⟨.head hmove hrest.1,fun j hj => hrest.2 j (hj.stopServq h)⟩

theorem hwaddr_bmc {bmc : StaId} (h : t.getStainfo bcAddr = some bmc) : isMcast (t.sta bmc).hwaddr = true := by
  rw [hwaddr_of_getStainfo h, isMcast_staKey]
  decide

theorem aidBit_ne_zero {aid : ℕ} (h : aid < 16) : aidBit aid ≠ 0 := by
  intro hzero
  have hbit : (aidBit aid).getLsbD aid = true := by
    simp only [aidBit, BitVec.getLsbD_ofNat, Nat.testBit_two_pow_self, h, decide_true, Bool.and_self]
  rw [hzero] at hbit
  simp at hbit

theorem staAsleep_moves (i : StaId) : Moves fits fresh t (t.staAsleep i) := .tail (.single (.asleep i true)) (.bits _ _)

/-- A station whose AID has a bit buffers as soon as it sleeps, and so does the group. -/
theorem staAsleep_buffers (haid : (t.sta i).aid < 16) (hj : isMcast ((t.staAsleep i).sta j).hwaddr = true ∨ j = i) :
    (t.staAsleep i).Buffers j := by
  have hdz : (t.staAsleep i).staDzBitmap &&& aidBit (t.sta i).aid ≠ 0 := by
    intro hzero
    refine aidBit_ne_zero haid ?_
    calc aidBit (t.sta i).aid = (t.staDzBitmap ||| aidBit (t.sta i).aid) &&& aidBit (t.sta i).aid := by
          rw [BitVec.and_comm, BitVec.or_comm, and_or_self]
      _ = 0 := hzero
  unfold Buffers
  split_ifs with hmc
  · intro hzero
    exact hdz (by simp [hzero])
  · rw [hj.resolve_left hmc]
    simpa [staAsleep] using hdz

theorem stopStaXmit_moves (h : t.Sound) (hfits : fits → (t.sta i).aid < 16)
    (hfresh : fresh → ∀ g ∈ (t.sta i).sleepQ, isMcast g.ra = true) : Moves fits fresh t (t.stopStaXmit i) := by
  have hasleep : Moves fits fresh t (t.staAsleep i) := staAsleep_moves i
  have hgroup : fresh → ∀ g ∈ ((t.staAsleep i).sta i).sleepQ, isMcast g.ra = false →
      g.ac ∉ [TxAc.vo,.vi,.be,.bk] := by
    intro hfr g hg hmc
    have hold : g ∈ (t.sta i).sleepQ := by simpa [staAsleep] using hg
    simp [hfresh hfr g hold] at hmc
  have hstop := stopServqs_moves [.vo,.vi,.be,.bk] (by decide) (h.moves hasleep)
    (fun hfit => staAsleep_buffers (hfits hfit) (.inr rfl)) hgroup
  have hmoves := hasleep.trans hstop.1
  have hsound := h.moves hmoves
  unfold stopStaXmit stopGroup
  split
  · rename_i bmc hbmc
    have hmc : isMcast ((t.staAsleep i).sta bmc).hwaddr = true := Moves.hwaddr hstop.1 bmc ▸ hwaddr_bmc hbmc
    refine hmoves.tail (stopServq_move hsound ?_ ?_)
    · intro hfit _
      exact hstop.2 bmc (staAsleep_buffers (hfits hfit) (.inl hmc))
    · intro _ g hg hg'
      have hgmc := (hsound.sleepTakes bmc g hg).isMcast_ra.trans (hwaddr_bmc hbmc)
      exact absurd (hgmc.symm.trans hg') (by decide)
  · exact hmoves

theorem staAwake_moves (i : StaId) : Moves fits fresh t (t.staAwake i) := by
  unfold staAwake
  split_ifs
  · exact .tail (.single (.asleep i false)) (.bits _ _)
  · exact .refl

theorem clearGroupBits_moves : Moves fits fresh t t.clearGroupBits := .single (.bits _ _)

theorem flushGroup_moves (h : t.Sound) (bmc : StaId) : Moves fits fresh t (t.flushGroup bmc) := flushLoop_moves h rfl

theorem wakeupGroup_moves (h : t.Sound) : Moves fits fresh t t.wakeupGroup := by
  unfold wakeupGroup
  split
  · exact .refl
  · rename_i bmc hbmc
    split_ifs
    · exact (flushGroup_moves h bmc).trans clearGroupBits_moves
    · exact flushGroup_moves h bmc
    · exact .refl

theorem wakeupStaToXmit_moves (h : t.Sound) (i : StaId) : Moves fits fresh t (t.wakeupStaToXmit i) := by
  have hloop : Moves fits fresh t (wakeupLoop i (t.sta i).sleepQ t) := wakeupLoop_moves h rfl
  have hawake := hloop.trans (staAwake_moves i)
  exact hawake.trans (wakeupGroup_moves (h.moves hawake))

theorem processWmmps_moves (h : t.Sound) (src : MacAddr) (priority : ℕ) :
    Moves fits fresh t (t.processWmmps src priority) := by
  unfold processWmmps
  split
  · exact .refl
  · split_ifs
    · exact deliveryLoop_moves h rfl (List.forall_mem_nil _)
    · exact .refl

theorem pollFrame_moves (h : t.Sound) (i : StaId) : Moves fits fresh t (t.pollFrame i) := by
  unfold pollFrame
  dsimp only
  split
  · rename_i f left hq
    have hmove : ∀ n mdata eosp, Move fits fresh t (t.release i f left n mdata eosp) :=
      fun n mdata eosp => release_move [] h hq (List.forall_mem_nil _)
    split_ifs
    · exact .tail (.single (hmove _ _ _)) (.bits _ _)
    · exact .single (hmove _ _ _)
  · rename_i hq
    split_ifs
    · -- the counter says already that nothing is there
      have hzero : (t.sta i).sleepqLen = 0 := by simp [h.sleepq i, hq]
      have hsta : ({ t.sta i with sleepqLen := 0 } : TxSta) = t.sta i := by rw [← hzero]
      have hset : t.setSta i { t.sta i with sleepqLen := 0 } = t := by
        rw [hsta]
        simp [setSta]
      rw [hset]
      exact .single (.bits _ _)
    · exact .refl

theorem psPoll_moves (h : t.Sound) (ta : MacAddr) (aid priority : ℕ) :
    Moves fits fresh t (t.psPoll ta aid priority) := by
  unfold psPoll
  split
  · exact .refl
  · split_ifs
    · exact .refl
    · exact pollFrame_moves h _
    · exact .refl

theorem chkBmcSleepq_moves (h : t.Sound) : Moves fits fresh t t.chkBmcSleepq := by
  unfold chkBmcSleepq
  split
  · exact .refl
  · split_ifs
    · exact flushGroup_moves h _
    · exact .refl

theorem apBmcFrames_moves (h : t.Sound) : Moves fits fresh t t.apBmcFrames := by
  unfold apBmcFrames
  split
  · exact .refl
  · split_ifs
    · exact flushLoop_moves h rfl
    · exact clearGroupBits_moves
    · exact .refl

theorem chkHiQueue_moves (empty : Bool) : Moves fits fresh t (t.chkHiQueue empty) := by
  unfold chkHiQueue
  split
  · exact .refl
  · split_ifs
    · exact clearGroupBits_moves
    · exact .refl

theorem aliveCheck_moves (i : StaId) : Moves fits fresh t (t.aliveCheck i) := by
  unfold aliveCheck
  split_ifs
  · exact .single (.bits _ _)
  · exact .refl

end Sleeping

section Sending
variable {fits fresh : Prop} {inx : List TxAc} {coalesce : XmitFrame → Bool}

/-- What is dequeued stood first in a queue of its own. -/
theorem rtwDequeueXframe_eq_some (h : t.rtwDequeueXframe inx = some (f,t')) :
    ∃ i, ∃ k ∈ inx, ∃ q, t.bank.queue i k = f :: q ∧ t' = { t with bank := t.bank.take i k 1 false } := by
  induction inx with
  | nil => cases h
  | cons k inx ih =>
    rw [rtwDequeueXframe] at h
    split at h
    · rename_i g bank hpop
      cases h
      obtain ⟨i,-,q,hq,rfl⟩ := QueueBank.popFirst_eq_some hpop
      exact ⟨i,k,List.mem_cons_self,q,hq,rfl⟩
    · obtain ⟨i,l,hl,hrest⟩ := ih h
      exact ⟨i,l,List.mem_cons_of_mem k hl,hrest⟩

theorem pickFirst_moves (inx : List TxAc) (coalesce : XmitFrame → Bool) (fuel : ℕ) (t : TxQueues) :
    Moves fits fresh t (pickFirst inx coalesce fuel t).1 := by
  induction fuel generalizing t with
  | zero => exact .refl
  | succ fuel ih =>
    rw [pickFirst]
    split
    · exact .refl
    · rename_i f t₁ hdeq
      obtain ⟨i,k,-,q,hq,rfl⟩ := rtwDequeueXframe_eq_some hdeq
      have hmove : Move fits fresh t _ := .take i k 1 false coalesce
      split_ifs with hf
      · simpa [hq, hf] using Relation.ReflTransGen.single hmove
      · refine .head ?_ (ih _)
        simpa [hq, hf] using hmove

theorem aggregate_move (n : ℕ) (i : StaId) (k : TxAc) : Move fits fresh t (t.aggregate coalesce n i k) := by
  have hmove : Move fits fresh t _ := .take i k n (decide (¬(t.bank.linked k).length ≤ 1)) coalesce
  unfold aggregate QueueBank.take at *
  simp only [List.isEmpty_iff, decide_eq_true_eq, ite_not] at hmove
  exact hmove

theorem xmitframeComplete_moves (inx : List TxAc) (coalesce : XmitFrame → Bool) (n : ℕ) (t : TxQueues) :
    Moves fits fresh t (t.xmitframeComplete inx coalesce n) := by
  have hpick : Moves fits fresh t (pickFirst inx coalesce (t.pending + 1) t).1 := pickFirst_moves inx coalesce _ t
  unfold xmitframeComplete
  split
  · rename_i u hu
    rwa [hu] at hpick
  · rename_i u f hu
    rw [hu] at hpick
    exact hpick.tail (aggregate_move n f.psta f.ac)

end Sending

end TxQueues
end Rtl8188fu
