import Rtl8188fu.Xmit.TxRun

/-! # What a sleeping station is told

`sta_dz_bitmap`, `tim_bitmap` and `sleepq_ac_len` against the sleep queues, when the AIDs are different and below 16.
-/
namespace Rtl8188fu

theorem getLsbD_aidBit (aid a : ℕ) : (aidBit aid).getLsbD a = decide (a = aid ∧ a < 16) := by
  rw [aidBit, BitVec.getLsbD_ofNat, Nat.testBit_two_pow]
  by_cases ha : a = aid
  · simp [ha]
  · simp [ha, Ne.symm ha]

theorem and_aidBit_ne_zero (bm : BitVec 16) (aid : ℕ) : bm &&& aidBit aid ≠ 0 ↔ bm.getLsbD aid = true := by
  constructor
  · intro hne
    by_contra hbit
    apply hne
    apply BitVec.eq_of_getLsbD_eq
    intro a ha
    rw [BitVec.getLsbD_and, getLsbD_aidBit]
    by_cases heq : a = aid
    · subst heq
      simp [hbit]
    · simp [heq]
  · intro hbit hzero
    have haid : (bm &&& aidBit aid).getLsbD aid = (0 : BitVec 16).getLsbD aid := by rw [hzero]
    have hlt : aid < 16 := BitVec.lt_of_getLsbD hbit
    rw [BitVec.getLsbD_and, getLsbD_aidBit, hbit] at haid
    simp [hlt] at haid

theorem getLsbD_or_aidBit (bm : BitVec 16) (aid a : ℕ) :
    (bm ||| aidBit aid).getLsbD a = (bm.getLsbD a || decide (a = aid ∧ a < 16)) := by
  rw [BitVec.getLsbD_or, getLsbD_aidBit]

theorem getLsbD_clear_aidBit (bm : BitVec 16) (aid a : ℕ) :
    (bm &&& ~~~aidBit aid).getLsbD a = (bm.getLsbD a && decide (a ≠ aid)) := by
  rw [BitVec.getLsbD_and, BitVec.getLsbD_not, getLsbD_aidBit]
  by_cases ha : a < 16
  · simp [ha]
  · simp [ha, BitVec.getLsbD_of_ge bm a (by omega)]

theorem getLsbD_or_aidBit_of_ne {bm : BitVec 16} {aid a : ℕ} (h : a ≠ aid) :
    (bm ||| aidBit aid).getLsbD a = bm.getLsbD a := by
  rw [getLsbD_or_aidBit, decide_eq_false fun hcon => h hcon.1, Bool.or_false]

theorem getLsbD_or_aidBit_self {bm : BitVec 16} {aid : ℕ} (h : aid < 16) :
    (bm ||| aidBit aid).getLsbD aid = true := by
  rw [getLsbD_or_aidBit, decide_eq_true ⟨rfl,h⟩, Bool.or_true]

theorem getLsbD_clear_aidBit_of_ne {bm : BitVec 16} {aid a : ℕ} (h : a ≠ aid) :
    (bm &&& ~~~aidBit aid).getLsbD a = bm.getLsbD a := by
  rw [getLsbD_clear_aidBit, decide_eq_true h, Bool.and_true]

theorem getLsbD_clear_aidBit_self {bm : BitVec 16} {aid : ℕ} : (bm &&& ~~~aidBit aid).getLsbD aid = false := by
  rw [getLsbD_clear_aidBit, decide_eq_false (not_not.mpr rfl), Bool.and_false]

/-- What a station's record and its bits agree on -/
structure Accounted (s : TxSta) (dz tim : Bool) : Prop where
  idle : s.aid = 0 → s.sleeping = false ∧ s.fwLinked = false
  asleep : s.aid ≠ 0 → s.sleeping = dz
  awake : s.sleeping = false → s.sleepQ = []
  acLen : (s.sleepQ.countP fun f => s.uapsd f.ac) ≤ s.sleepqAcLen
  legacy : s.aid ≠ 0 → s.hasLegacyAc = decide (¬∀ k, s.uapsd k = true)
  tim : ∀ f ∈ s.sleepQ, s.uapsd f.ac = false ∨ s.hasLegacyAc = false → tim = true

/-- What holds of all stations, with a bit for each AID -/
structure TimOk (sta : StaId → TxSta) (hash : List StaId) (dz tim : BitVec 16) : Prop where
  small : ∀ i ∈ hash, (sta i).aid < 16
  distinct : ∀ i ∈ hash, ∀ j ∈ hash, (sta i).aid = (sta j).aid → (sta i).aid ≠ 0 → i = j
  group : ∀ i ∈ hash, isMcast (sta i).hwaddr = true → (sta i).aid = 0
  stray : ∀ a, a ≠ 0 → dz.getLsbD a = true → ∃ i ∈ hash, (sta i).aid = a
  stations : ∀ i ∈ hash, isMcast (sta i).hwaddr = false →
    Accounted (sta i) (dz.getLsbD (sta i).aid) (tim.getLsbD (sta i).aid)

abbrev TxQueues.Tim (t : TxQueues) : Prop := TimOk t.sta t.staHash t.staDzBitmap t.timBitmap

section
variable {s : TxSta} {sta : StaId → TxSta} {hash : List StaId} {dz tim dz' tim' : BitVec 16} {i : StaId}

/-- The bits of a station without an AID say nothing. -/
theorem Accounted.of_idle {b c b' c' : Bool} (h : Accounted s b c) (haid : s.aid = 0) : Accounted s b' c' where
  idle := h.idle
  asleep hne := absurd haid hne
  awake := h.awake
  acLen := h.acLen
  legacy := h.legacy
  tim f hf := by
    rw [h.awake (h.idle haid).1] at hf
    cases hf

/-- One station changes, with the bits of its AID, or gets one that is free. -/
theorem TimOk.assign (h : TimOk sta hash dz tim) (hi : i ∈ hash) (hhwaddr : s.hwaddr = (sta i).hwaddr)
    (hsmall : s.aid < 16)
    (hkeep : s.aid = (sta i).aid ∨ (sta i).aid = 0)
    (hdistinct : ∀ j ∈ hash, (sta j).aid = s.aid → s.aid ≠ 0 → j = i)
    (hgroup : isMcast s.hwaddr = true → s.aid = 0)
    (hdz : ∀ a, a ≠ s.aid → dz'.getLsbD a = dz.getLsbD a)
    (htim : ∀ a, a ≠ s.aid → tim'.getLsbD a = tim.getLsbD a)
    (hs : isMcast s.hwaddr = false → Accounted s (dz'.getLsbD s.aid) (tim'.getLsbD s.aid)) :
    TimOk (Function.update sta i s) hash dz' tim' := by
  have hself : Function.update sta i s i = s := Function.update_self ..
  have hother : ∀ j, j ≠ i → Function.update sta i s j = sta j := fun j hj => Function.update_of_ne hj ..
  constructor
  · intro j hj
    by_cases hji : j = i
    · rwa [hji, hself]
    · rw [hother j hji]
      exact h.small j hj
  · intro j hj l hl
    by_cases hji : j = i
    · by_cases hli : l = i
      · exact fun _ _ => hji.trans hli.symm
      · rw [hji, hself, hother l hli]
        exact fun haid hne => (hdistinct l hl haid.symm hne).symm
    · by_cases hli : l = i
      · rw [hli, hself, hother j hji]
        exact fun haid hne => hdistinct j hj haid (haid ▸ hne)
      · rw [hother j hji, hother l hli]
        exact h.distinct j hj l hl
  · intro j hj
    by_cases hji : j = i
    · rwa [hji, hself]
    · rw [hother j hji]
      exact h.group j hj
  · intro a ha hbit
    by_cases has : a = s.aid
    · exact ⟨i,hi,by rw [hself, has]⟩
    · rw [hdz a has] at hbit
      obtain ⟨j,hj,hja⟩ := h.stray a ha hbit
      have hji : j ≠ i := by
        rintro rfl
        rcases hkeep with hkeep | hkeep
        · exact has (hja.symm.trans hkeep.symm)
        · exact ha (hja.symm.trans hkeep)
      exact ⟨j,hj,by rw [hother j hji, hja]⟩
  · intro j hj hmc
    by_cases hji : j = i
    · subst hji
      rw [hself] at hmc ⊢
      exact hs hmc
    · rw [hother j hji] at hmc ⊢
      have hold := h.stations j hj hmc
      by_cases haid : (sta j).aid = s.aid
      · by_cases hzero : s.aid = 0
        · exact hold.of_idle (haid.trans hzero)
        · exact absurd (hdistinct j hj haid hzero) hji
      · rwa [hdz _ haid, htim _ haid]

theorem TimOk.set (h : TimOk sta hash dz tim) (hi : i ∈ hash) (hhwaddr : s.hwaddr = (sta i).hwaddr)
    (haid : s.aid = (sta i).aid)
    (hdz : ∀ a, a ≠ s.aid → dz'.getLsbD a = dz.getLsbD a)
    (htim : ∀ a, a ≠ s.aid → tim'.getLsbD a = tim.getLsbD a)
    (hs : isMcast s.hwaddr = false → Accounted s (dz'.getLsbD s.aid) (tim'.getLsbD s.aid)) :
    TimOk (Function.update sta i s) hash dz' tim' := by
  refine h.assign hi hhwaddr (haid ▸ h.small i hi) (.inl haid) ?_ ?_ hdz htim hs
  · intro j hj hja hne
    exact h.distinct j hj i hi (hja.trans haid) (hja ▸ hne)
  · intro hmc
    rw [haid]
    exact h.group i hi (hhwaddr ▸ hmc)

/-- A bit of the TIM is taken back from a station that has nothing to fetch. -/
theorem TimOk.clearTim (h : TimOk sta hash dz tim) (hi : i ∈ hash)
    (hempty : isMcast (sta i).hwaddr = false → (sta i).sleepQ = []) :
    TimOk sta hash dz (tim &&& ~~~aidBit (sta i).aid) := by
  have hset : TimOk (Function.update sta i (sta i)) hash dz (tim &&& ~~~aidBit (sta i).aid) := by
    refine h.set hi rfl rfl (fun _ _ => rfl) (fun a ha => getLsbD_clear_aidBit_of_ne ha) (fun hmc => ?_)
    have hold := h.stations i hi hmc
    refine ⟨hold.idle,hold.asleep,hold.awake,hold.acLen,hold.legacy,fun f hf => ?_⟩
    rw [hempty hmc] at hf
    cases hf
  rwa [Function.update_eq_self] at hset

theorem TimOk.setTim (h : TimOk sta hash dz tim) (aid : ℕ) : TimOk sta hash dz (tim ||| aidBit aid) where
  small := h.small
  distinct := h.distinct
  group := h.group
  stray := h.stray
  stations j hj hmc := by
    have hold := h.stations j hj hmc
    refine ⟨hold.idle,hold.asleep,hold.awake,hold.acLen,hold.legacy,fun f hf hneed => ?_⟩
    rw [getLsbD_or_aidBit, hold.tim f hf hneed, Bool.true_or]

theorem TimOk.insert (h : TimOk sta hash dz tim) (hi : i ∉ hash) (haid : s.aid = 0)
    (hs : Accounted s (dz.getLsbD s.aid) (tim.getLsbD s.aid)) :
    TimOk (Function.update sta i s) (hash ++ [i]) dz tim := by
  have hself : Function.update sta i s i = s := Function.update_self ..
  have hother : ∀ j ∈ hash, Function.update sta i s j = sta j := by
    intro j hj
    have hne : j ≠ i := fun hji => hi (hji ▸ hj)
    exact Function.update_of_ne hne ..
  have hmem : ∀ j, j ∈ hash ++ [i] → j ∈ hash ∨ j = i := by simp
  constructor
  · intro j hj
    rcases hmem j hj with hj | rfl
    · rw [hother j hj]
      exact h.small j hj
    · rw [hself, haid]
      decide
  · intro j hj l hl
    rcases hmem j hj with hj | rfl
    · rcases hmem l hl with hl | rfl
      · rw [hother j hj, hother l hl]
        exact h.distinct j hj l hl
      · rw [hself, haid]
        exact fun heq hne => absurd heq hne
    · rw [hself, haid]
      exact fun _ hne => absurd rfl hne
  · intro j hj
    rcases hmem j hj with hj | rfl
    · rw [hother j hj]
      exact h.group j hj
    · rw [hself]
      exact fun _ => haid
  · intro a ha hbit
    obtain ⟨j,hj,hja⟩ := h.stray a ha hbit
    exact ⟨j,List.mem_append_left _ hj,by rw [hother j hj, hja]⟩
  · intro j hj
    rcases hmem j hj with hj | rfl
    · rw [hother j hj]
      exact h.stations j hj
    · rw [hself]
      exact fun _ => hs

theorem TimOk.erase (h : TimOk sta hash dz tim) (hnd : hash.Nodup) (hi : i ∈ hash) :
    TimOk (Function.update sta i s) (hash.erase i)
    (dz &&& ~~~aidBit (sta i).aid) (tim &&& ~~~aidBit (sta i).aid) := by
  have hmem : ∀ j ∈ hash.erase i, j ∈ hash ∧ Function.update sta i s j = sta j ∧
      ((sta j).aid = (sta i).aid → (sta j).aid = 0) := by
    intro j hj
    obtain ⟨hne,hj⟩ := hnd.mem_erase_iff.mp hj
    refine ⟨hj,Function.update_of_ne hne ..,fun haid => ?_⟩
    by_contra hzero
    exact hne (h.distinct j hj i hi haid hzero)
  constructor
  · intro j hj
    obtain ⟨hj,heq,-⟩ := hmem j hj
    rw [heq]
    exact h.small j hj
  · intro j hj l hl
    obtain ⟨hj,hjeq,-⟩ := hmem j hj
    obtain ⟨hl,hleq,-⟩ := hmem l hl
    rw [hjeq, hleq]
    exact h.distinct j hj l hl
  · intro j hj
    obtain ⟨hj,heq,-⟩ := hmem j hj
    rw [heq]
    exact h.group j hj
  · intro a ha hbit
    rw [getLsbD_clear_aidBit, Bool.and_eq_true, decide_eq_true_eq] at hbit
    obtain ⟨j,hj,hja⟩ := h.stray a ha hbit.1
    have hne : j ≠ i := by
      rintro rfl
      exact hbit.2 hja.symm
    have hj' : j ∈ hash.erase i := hnd.mem_erase_iff.mpr ⟨hne,hj⟩
    exact ⟨j,hj',by rw [(hmem j hj').2.1, hja]⟩
  · intro j hj hmc
    obtain ⟨hj,heq,hsame⟩ := hmem j hj
    rw [heq] at hmc ⊢
    have hold := h.stations j hj hmc
    by_cases haid : (sta j).aid = (sta i).aid
    · exact hold.of_idle (hsame haid)
    · rwa [getLsbD_clear_aidBit_of_ne haid, getLsbD_clear_aidBit_of_ne haid]

theorem TimOk.of_bits (h : TimOk sta hash dz tim) (hdz : ∀ a, a ≠ 0 → dz'.getLsbD a = dz.getLsbD a)
    (htim : ∀ a, a ≠ 0 → tim'.getLsbD a = tim.getLsbD a) : TimOk sta hash dz' tim' where
  small := h.small
  distinct := h.distinct
  group := h.group
  stray a ha hbit := h.stray a ha (hdz a ha ▸ hbit)
  stations j hj hmc := by
    have hold := h.stations j hj hmc
    by_cases hzero : (sta j).aid = 0
    · exact hold.of_idle hzero
    · rwa [hdz _ hzero, htim _ hzero]

/-- When everything is delivery-enabled, the counter tells whether something is left. -/
theorem Accounted.empty {b c : Bool} (h : Accounted s b c) (hlegacy : s.hasLegacyAc = false)
    (hlen : s.sleepqAcLen = 0) :
    s.sleepQ = [] := by
  by_cases haid : s.aid = 0
  · exact h.awake (h.idle haid).1
  · have hall : ∀ k, s.uapsd k = true := by simpa [h.legacy haid] using hlegacy
    have hcount := h.acLen
    simpa [hall, hlen] using hcount

end

namespace TxQueues
variable {t t' : TxQueues} {i j : StaId} {k : TxAc} {f : XmitFrame}

theorem Tim.buffer (h : t.Tim) (hto : t.enqueueForSleepingSta f = some t') : t'.Tim := by
  unfold enqueueForSleepingSta at hto
  split_ifs at hto with hfound hlinked htrig hmc hdz hcond
  · cases hto
    have hpsta : t.getStainfo f.ra = some f.psta := not_not.mp hfound
    have hmem : f.psta ∈ t.staHash := List.mem_of_find?_eq_some hpsta
    have hhwaddr : isMcast (t.sta f.psta).hwaddr = true := by rwa [hwaddr_of_getStainfo hpsta, isMcast_staKey]
    have haid := h.group f.psta hmem hhwaddr
    exact TimOk.set h hmem rfl rfl (fun a ha => getLsbD_or_aidBit_of_ne (haid ▸ ha))
      (fun a ha => getLsbD_or_aidBit_of_ne (haid ▸ ha)) (fun huni => absurd (hhwaddr.symm.trans huni) (by decide))
  · cases hto
    have hpsta : t.getStainfo f.ra = some f.psta := not_not.mp hfound
    have hmem : f.psta ∈ t.staHash := List.mem_of_find?_eq_some hpsta
    have hhwaddr : isMcast (t.sta f.psta).hwaddr = false := by
      rw [hwaddr_of_getStainfo hpsta, isMcast_staKey]
      simpa using hmc
    have hold := h.stations f.psta hmem hhwaddr
    have hsmall := h.small f.psta hmem
    have haid : (t.sta f.psta).aid ≠ 0 := fun hzero => by simp [(hold.idle hzero).1] at hcond
    -- one of the two bits is there for each kind of frame
    have hbit : ((t.sta f.psta).uapsd f.ac = false ∨ (t.sta f.psta).hasLegacyAc = false) →
        (t.sta f.psta).hasLegacyAc ≠ (t.sta f.psta).uapsd f.ac := by
      rw [hold.legacy haid]
      rintro (hlegacy | hall)
      · rw [hlegacy]
        simpa using ⟨f.ac,hlegacy⟩
      · simp only [decide_eq_false_iff_not, not_not] at hall
        simp [hall]
    have hacc : ∀ tim : Bool, (∀ g ∈ (t.sta f.psta).sleepQ ++ [f],
        (t.sta f.psta).uapsd g.ac = false ∨ (t.sta f.psta).hasLegacyAc = false → tim = true) →
        Accounted { t.sta f.psta with
          sleepQ := (t.sta f.psta).sleepQ ++ [f]
          sleepqLen := (t.sta f.psta).sleepqLen + 1
          sleepqAcLen := if (t.sta f.psta).uapsd f.ac then (t.sta f.psta).sleepqAcLen + 1
            else (t.sta f.psta).sleepqAcLen }
          (t.staDzBitmap.getLsbD (t.sta f.psta).aid) tim := by
      intro tim htim
      refine ⟨hold.idle,hold.asleep,fun hawake => ?_,?_,hold.legacy,htim⟩
      · exact absurd (hcond.1.symm.trans hawake) (by decide)
      · have hlen := hold.acLen
        rw [List.countP_append]
        by_cases hf : (t.sta f.psta).uapsd f.ac = true
        · simp [hf]
          omega
        · simp [hf]
          omega
    unfold bufferUnicast
    dsimp only
    by_cases hne : (t.sta f.psta).hasLegacyAc ≠ (t.sta f.psta).uapsd f.ac
    · rw [if_pos hne]
      refine TimOk.set h hmem rfl rfl (fun _ _ => rfl) (fun a ha => getLsbD_or_aidBit_of_ne ha) fun _ => hacc _ ?_
      exact fun _ _ _ => getLsbD_or_aidBit_self hsmall
    · rw [if_neg hne]
      refine TimOk.set h hmem rfl rfl (fun _ _ => rfl) (fun _ _ => rfl) fun _ => hacc _ fun g hg hneed => ?_
      rcases List.mem_append.mp hg with hg | hg
      · exact hold.tim g hg hneed
      · rw [List.mem_singleton.mp hg] at hneed
        exact absurd (hbit hneed) hne

theorem Tim.dequeueToSleeping (h : t.Tim) (i : StaId) (k : TxAc) (kept q : List XmitFrame) :
    (dequeueToSleeping i k kept q t).Tim := by
  induction q generalizing t kept with
  | nil => exact h
  | cons f q ih =>
    rw [TxQueues.dequeueToSleeping]
    split
    · rename_i t' hto
      have ht' : t'.Tim := h.buffer hto
      refine ih ?_ kept
      exact ht'
    · refine ih ?_ _
      exact h

theorem Tim.stopServq (h : t.Tim) (i : StaId) (k : TxAc) : (t.stopServq i k).Tim := h.dequeueToSleeping i k [] _

theorem Tim.staAsleep (h : t.Tim) (hi : i ∈ t.staHash) (haid : (t.sta i).aid ≠ 0) : (t.staAsleep i).Tim := by
  refine TimOk.set h hi rfl rfl (fun a ha => getLsbD_or_aidBit_of_ne ha) (fun _ _ => rfl) fun hmc => ?_
  have hold := h.stations i hi hmc
  refine ⟨fun hzero => absurd hzero haid,fun _ => ?_,fun hawake =>
    Bool.noConfusion hawake,hold.acLen,hold.legacy,hold.tim⟩
  exact (getLsbD_or_aidBit_self (h.small i hi)).symm

theorem Tim.stopStaXmit (h : t.Tim) (hi : i ∈ t.staHash) (haid : (t.sta i).aid ≠ 0) : (t.stopStaXmit i).Tim := by
  have hstop : ∀ (ks : List TxAc) (t : TxQueues), t.Tim → (ks.foldl (fun t k => t.stopServq i k) t).Tim := by
    intro ks
    induction ks with
    | nil => exact fun t ht => ht
    | cons k ks ih => exact fun t ht => ih _ (ht.stopServq i k)
  have hasleep := hstop [.vo,.vi,.be,.bk] _ (h.staAsleep hi haid)
  unfold TxQueues.stopStaXmit stopGroup
  split
  · exact hasleep.stopServq _ _
  · exact hasleep

/-! ### Frames that leave the sleep queues -/

section Leaving
variable {kept rest q left : List XmitFrame} {n : ℤ} {mdata eosp : Bool}

/-- A frame leaves, and the counter goes down by one at most, and only with a delivery-enabled frame. -/
theorem Tim.release (kept : List XmitFrame) (h : t.Tim) (hi : i ∈ t.staHash)
    (hq : (t.sta i).sleepQ = kept ++ f :: rest)
    (hn : (t.sta i).sleepqAcLen ≤ n + if (t.sta i).uapsd f.ac then 1 else 0) :
    (t.release i f (kept ++ rest) n mdata eosp).Tim := by
  have hset : TimOk (Function.update t.sta i { t.sta i with
      sleepQ := kept ++ rest, sleepqLen := (t.sta i).sleepqLen - 1, sleepqAcLen := n }) t.staHash t.staDzBitmap
      t.timBitmap := by
    refine TimOk.set h hi rfl rfl (fun _ _ => rfl) (fun _ _ => rfl) fun hmc => ?_
    have hold := h.stations i hi hmc
    refine ⟨hold.idle,hold.asleep,fun hawake => ?_,?_,hold.legacy,fun g hg => hold.tim g ?_⟩
    · have hnil := hold.awake hawake
      rw [hq] at hnil
      simp at hnil
    · have hlen := hold.acLen
      rw [hq, List.countP_append, List.countP_cons] at hlen
      rw [List.countP_append]
      push_cast at hlen ⊢
      split_ifs at hlen hn <;> omega
    · rw [hq]
      rcases List.mem_append.mp hg with hg | hg
      · exact List.mem_append_left _ hg
      · exact List.mem_append_right _ (List.mem_cons_of_mem f hg)
  unfold Tim TxQueues.release
  simpa [setSta] using hset

theorem staHash_wakeupLoop (i : StaId) (q : List XmitFrame) (t : TxQueues) :
    (wakeupLoop i q t).staHash = t.staHash := by
  induction q generalizing t with
  | nil => rfl
  | cons f left ih =>
    rw [wakeupLoop, ih]
    split_ifs <;> simp

theorem sleepQ_wakeupLoop (hq : (t.sta i).sleepQ = q) : ((wakeupLoop i q t).sta i).sleepQ = [] := by
  induction q generalizing t with
  | nil => exact hq
  | cons f left ih =>
    rw [wakeupLoop]
    apply ih
    split_ifs <;> simp

theorem Tim.wakeupLoop (h : t.Tim) (hs : t.Sound) (hq : (t.sta i).sleepQ = q) : (wakeupLoop i q t).Tim := by
  induction q generalizing t with
  | nil => exact h
  | cons f left ih =>
    have hi : i ∈ t.staHash := (hs.sleepTakes i f (by simp [hq])).mem_staHash
    have hmove : ∀ n mdata eosp, Move False False t (t.release i f left n mdata eosp) :=
      fun n mdata eosp => release_move [] hs hq (List.forall_mem_nil _)
    rw [TxQueues.wakeupLoop]
    split_ifs with hac
    · exact ih (h.release [] hi hq (by simp [hac])) (hs.move (hmove _ _ _)) (by simp)
    · exact ih (h.release [] hi hq (by simp [hac])) (hs.move (hmove _ _ _)) (by simp)

theorem Tim.staAwake (h : t.Tim) (hi : i ∈ t.staHash) (hempty : (t.sta i).sleepQ = []) : (t.staAwake i).Tim := by
  unfold TxQueues.staAwake
  split_ifs
  · refine TimOk.set h hi rfl rfl (fun a ha => getLsbD_clear_aidBit_of_ne ha)
      (fun a ha => getLsbD_clear_aidBit_of_ne ha)
      fun hmc => ?_
    have hold := h.stations i hi hmc
    refine ⟨fun hzero => ⟨rfl,(hold.idle hzero).2⟩,fun _ => getLsbD_clear_aidBit_self.symm,fun _ =>
      hempty,hold.acLen, hold.legacy,fun f hf => ?_⟩
    rw [hempty] at hf
    cases hf
  · exact h

theorem Tim.clearGroupBits (h : t.Tim) : t.clearGroupBits.Tim :=
  TimOk.of_bits h (fun _ ha => getLsbD_clear_aidBit_of_ne ha) fun _ ha => getLsbD_clear_aidBit_of_ne ha

theorem Tim.flushLoop {m : ℕ} (h : t.Tim) (hs : t.Sound) (hq : (t.sta i).sleepQ = q) : (flushLoop i m q t).Tim := by
  induction m generalizing t q with
  | zero => cases q <;> exact h
  | succ m ih =>
    cases q with
    | nil => exact h
    | cons f left =>
      have hi : i ∈ t.staHash := (hs.sleepTakes i f (by simp [hq])).mem_staHash
      have hmove : ∀ n mdata eosp, Move False False t (t.release i f left n mdata eosp) :=
        fun n mdata eosp => release_move [] hs hq (List.forall_mem_nil _)
      rw [TxQueues.flushLoop]
      refine ih (h.release [] hi hq ?_) (hs.move (hmove _ _ _)) (by simp)
      split_ifs <;> omega

theorem Tim.clearTim (h : t.Tim) (hi : i ∈ t.staHash) {a : ℕ} (haid : a = (t.sta i).aid)
    (hempty : isMcast (t.sta i).hwaddr = false → (t.sta i).sleepQ = []) :
    Tim { t with timBitmap := t.timBitmap &&& ~~~aidBit a } := by
  subst haid
  exact TimOk.clearTim h hi hempty

theorem Tim.flushGroup (h : t.Tim) (hs : t.Sound) (bmc : StaId) : (t.flushGroup bmc).Tim := h.flushLoop hs rfl

theorem Tim.wakeupGroup (h : t.Tim) (hs : t.Sound) : t.wakeupGroup.Tim := by
  unfold TxQueues.wakeupGroup
  split
  · exact h
  · split_ifs
    · exact (h.flushGroup hs _).clearGroupBits
    · exact h.flushGroup hs _
    · exact h

theorem Tim.wakeupStaToXmit (h : t.Tim) (hs : t.Sound) (hi : i ∈ t.staHash) : (t.wakeupStaToXmit i).Tim := by
  have hloop : Moves False False t (TxQueues.wakeupLoop i (t.sta i).sleepQ t) := wakeupLoop_moves hs rfl
  have hawake : Moves False False t _ := hloop.trans (staAwake_moves i)
  have hmem : i ∈ (TxQueues.wakeupLoop i (t.sta i).sleepQ t).staHash := by rwa [staHash_wakeupLoop]
  exact ((h.wakeupLoop hs rfl).staAwake hmem (sleepQ_wakeupLoop rfl)).wakeupGroup (hs.moves hawake)

theorem Tim.deliveryLoop (h : t.Tim) (hs : t.Sound) (hi : i ∈ t.staHash) (hq : (t.sta i).sleepQ = kept ++ q)
    (hkept : ∀ g ∈ kept, (t.sta i).uapsd g.ac = false) : (deliveryLoop i kept q t).Tim := by
  induction q generalizing t kept with
  | nil => exact h
  | cons f q ih =>
    rw [TxQueues.deliveryLoop]
    dsimp only
    by_cases hf : (t.sta i).uapsd f.ac = true
    · have hne : ∀ g ∈ kept, g.ac ≠ f.ac := fun g hg hac => by simp [← hac, hkept g hg] at hf
      rw [if_pos hf]
      generalize decide (0 < (t.sta i).sleepqAcLen - 1) = mdata, decide (¬0 < (t.sta i).sleepqAcLen - 1) = eosp
      have hmove : Move False False t (t.release i f (kept ++ q) ((t.sta i).sleepqAcLen - 1) mdata eosp) :=
        release_move _ hs hq hne
      have hrelease : (t.release i f (kept ++ q) ((t.sta i).sleepqAcLen - 1) mdata eosp).Tim :=
        h.release _ hi hq (by simp [hf])
      have hmem : i ∈ (t.release i f (kept ++ q) ((t.sta i).sleepqAcLen - 1) mdata eosp).staHash := by simpa using hi
      split_ifs with hdone
      · have hclear := hrelease.clearTim (a := (t.sta i).aid) hmem (by simp) fun hmc =>
          (hrelease.stations i hmem hmc).empty (by simpa using hdone.2) hdone.1
        exact ih hclear ((hs.move hmove).bits _ _) (by simpa using hi) (by simp) (by simpa using hkept)
      · exact ih hrelease (hs.move hmove) hmem (by simp) (by simpa using hkept)
    · rw [if_neg hf]
      refine ih h hs hi (by simp [hq]) fun g hg => ?_
      rcases List.mem_append.mp hg with hg | hg
      · exact hkept g hg
      · rw [List.mem_singleton.mp hg]
        simpa using hf

end Leaving

/-! ### Every event -/

theorem Tim.pollFrame (h : t.Tim) (hs : t.Sound) (hi : i ∈ t.staHash) : (t.pollFrame i).Tim := by
  unfold TxQueues.pollFrame
  dsimp only
  split
  · rename_i f left hq
    generalize decide (0 < (t.sta i).sleepqLen - 1) = mdata
    have hmove : Move False False t (t.release i f left (t.sta i).sleepqAcLen mdata f.eosp) :=
      release_move [] hs hq (List.forall_mem_nil _)
    have hrelease : (t.release i f left (t.sta i).sleepqAcLen mdata f.eosp).Tim :=
      h.release [] hi hq (by split_ifs <;> omega)
    split_ifs with hlen
    · refine hrelease.clearTim (by simpa using hi) (by simp) fun _ => ?_
      rw [(hs.move hmove).sleepq i] at hlen
      exact List.length_eq_zero_iff.mp (by omega)
    · exact hrelease
  · rename_i hq
    split_ifs
    · have hset : TimOk (Function.update t.sta i { t.sta i with sleepqLen := 0 }) t.staHash t.staDzBitmap
          (t.timBitmap &&& ~~~aidBit (t.sta i).aid) := by
        refine TimOk.set h hi rfl rfl (fun _ _ => rfl) (fun a ha => getLsbD_clear_aidBit_of_ne ha) fun hmc => ?_
        have hold := h.stations i hi hmc
        refine ⟨hold.idle,hold.asleep,hold.awake,hold.acLen,hold.legacy,fun f hf => ?_⟩
        rw [hq] at hf
        cases hf
      exact hset
    · exact h

theorem mem_of_getStainfo {a : MacAddr} (h : t.getStainfo a = some i) : i ∈ t.staHash := List.mem_of_find?_eq_some h

theorem Tim.psPoll (h : t.Tim) (hs : t.Sound) (ta : MacAddr) (aid priority : ℕ) : (t.psPoll ta aid priority).Tim := by
  unfold TxQueues.psPoll
  split
  · exact h
  · rename_i i hi
    split_ifs
    · exact h
    · exact h.pollFrame hs (mem_of_getStainfo hi)
    · exact h

theorem Tim.processWmmps (h : t.Tim) (hs : t.Sound) (src : MacAddr) (priority : ℕ) :
    (t.processWmmps src priority).Tim := by
  unfold TxQueues.processWmmps
  split
  · exact h
  · rename_i i hi
    split_ifs
    · exact h.deliveryLoop hs (mem_of_getStainfo hi) rfl (List.forall_mem_nil _)
    · exact h

theorem Tim.chkBmcSleepq (h : t.Tim) (hs : t.Sound) : t.chkBmcSleepq.Tim := by
  unfold TxQueues.chkBmcSleepq
  split
  · exact h
  · split_ifs
    · exact h.flushGroup hs _
    · exact h

theorem Tim.apBmcFrames (h : t.Tim) (hs : t.Sound) : t.apBmcFrames.Tim := by
  unfold TxQueues.apBmcFrames
  split
  · exact h
  · split_ifs
    · exact h.flushLoop hs rfl
    · exact h.clearGroupBits
    · exact h

theorem Tim.chkHiQueue (h : t.Tim) (empty : Bool) : (t.chkHiQueue empty).Tim := by
  unfold TxQueues.chkHiQueue
  split
  · exact h
  · split_ifs
    · exact h.clearGroupBits
    · exact h

theorem Tim.aliveCheck (h : t.Tim) (i : StaId) : (t.aliveCheck i).Tim := by
  unfold TxQueues.aliveCheck
  split_ifs
  · exact TimOk.setTim h _
  · exact h

theorem Tim.pickFirst (h : t.Tim) (inx : List TxAc) (coalesce : XmitFrame → Bool) (fuel : ℕ) :
    (TxQueues.pickFirst inx coalesce fuel t).1.Tim := by
  induction fuel generalizing t with
  | zero => exact h
  | succ fuel ih =>
    rw [TxQueues.pickFirst]
    split
    · exact h
    · rename_i f t₁ hdeq
      obtain ⟨i,k,-,q,hq,rfl⟩ := rtwDequeueXframe_eq_some hdeq
      split_ifs
      · exact h
      · refine ih ?_
        exact h

theorem Tim.xmitframeComplete (h : t.Tim) (inx : List TxAc) (coalesce : XmitFrame → Bool) (n : ℕ) :
    (t.xmitframeComplete inx coalesce n).Tim := by
  have hpick := h.pickFirst inx coalesce (t.pending + 1)
  unfold TxQueues.xmitframeComplete
  split
  · rename_i u hu
    rwa [hu] at hpick
  · rename_i u f hu
    rw [hu] at hpick
    exact hpick

/-- A station sleeps only when it has an AID. The AIDs that are given are different and below 16, and the U-APSD flags
of a station change only when nothing waits for it. -/
def Assigned (t : TxQueues) : TxEvent → Prop
  | .pwrbit src true => ∀ i ∈ t.getStainfo src, (t.sta i).aid ≠ 0
  | .associate i aid uapsd => isMcast (t.sta i).hwaddr = false ∧
      ((t.sta i).sleepQ = [] ∨ uapsd = (t.sta i).uapsd) ∧
      ((t.sta i).aid = 0 → 0 < aid ∧ aid < 16 ∧ ∀ j ∈ t.staHash, (t.sta j).aid ≠ aid)
  | _ => True

theorem Tim.associate (h : t.Tim) {aid : ℕ} {uapsd : TxAc → Bool} (ha : t.Assigned (.associate i aid uapsd)) :
    (t.associate i aid uapsd).Tim := by
  obtain ⟨hmc,hflags,hnew⟩ := ha
  unfold TxQueues.associate
  by_cases hi : i ∈ t.staHash
  · have hold := h.stations i hi hmc
    rw [if_pos hi]
    by_cases hzero : (t.sta i).aid = 0
    · obtain ⟨hpos,hlt,hfree⟩ := hnew hzero
      have hawake := (hold.idle hzero).1
      have hempty := hold.awake hawake
      have hbit : t.staDzBitmap.getLsbD aid = false := by
        by_contra hbit
        obtain ⟨j,hj,hja⟩ := h.stray aid (by omega) (by simpa using hbit)
        exact hfree j hj hja
      have haid : (if 0 < (t.sta i).aid then (t.sta i).aid else aid) = aid := if_neg (by omega)
      rw [haid]
      refine TimOk.assign h hi rfl hlt (.inr hzero) (fun j hj hja => absurd hja (hfree j hj))
        (fun hmc' => absurd (hmc.symm.trans hmc') (by decide)) (fun _ _ => rfl) (fun _ _ => rfl) fun _ => ?_
      refine ⟨fun hcon => absurd hcon (by simpa using hpos.ne'),fun _ => hawake.trans hbit.symm,fun _ => hempty,?_,
        fun _ => rfl,fun f hf => ?_⟩
      · have hlen := hold.acLen
        simpa [hempty] using hlen
      · simp only [hempty] at hf
        cases hf
    · have haid : (if 0 < (t.sta i).aid then (t.sta i).aid else aid) = (t.sta i).aid := if_pos (by omega)
      rw [haid]
      refine TimOk.set h hi rfl rfl (fun _ _ => rfl) (fun _ _ => rfl) fun _ => ?_
      refine ⟨fun hcon => absurd hcon hzero,hold.asleep,hold.awake,?_,fun _ => rfl,fun f hf hneed => ?_⟩
      · have hlen := hold.acLen
        rcases hflags with hempty | rfl
        · simp only [hempty, List.countP_nil, Nat.cast_zero] at hlen ⊢
          exact hlen
        · exact hlen
      · rcases hflags with hempty | rfl
        · simp only [hempty] at hf
          cases hf
        · rw [← hold.legacy hzero] at hneed
          exact hold.tim f hf hneed
  · rwa [if_neg hi]

theorem Tim.updateBmcSta (h : t.Tim) : t.updateBmcSta.Tim := by
  unfold TxQueues.updateBmcSta
  split
  · exact h
  · rename_i bmc hbmc
    have hi := mem_of_getStainfo hbmc
    have haid := h.group bmc hi (hwaddr_bmc hbmc)
    exact TimOk.set h hi rfl haid.symm (fun _ _ => rfl) (fun _ _ => rfl)
      fun huni => absurd ((hwaddr_bmc hbmc).symm.trans huni) (by decide)

theorem Tim.alloc (h : t.Tim) (i : StaId) (hwaddr : MacAddr) : (t.allocStainfo i hwaddr).Tim := by
  unfold allocStainfo
  split_ifs with hi
  · exact h
  · exact TimOk.insert h hi rfl ⟨fun _ => ⟨rfl,rfl⟩,fun hne => absurd rfl hne,fun _ => rfl,le_rfl,fun hne =>
      absurd rfl hne, fun f hf => absurd hf List.not_mem_nil⟩

theorem Tim.free (h : t.Tim) (hs : t.Sound) (i : StaId) : (t.freeStainfo i).Tim := by
  by_cases hi : i ∈ t.staHash
  · obtain ⟨hsta,hhash,-⟩ := freeStainfo_eq hi
    have hdz : (t.freeStainfo i).staDzBitmap = t.staDzBitmap &&& ~~~aidBit (t.sta i).aid := by
      rw [freeStainfo, if_pos hi]
    have htim : (t.freeStainfo i).timBitmap = t.timBitmap &&& ~~~aidBit (t.sta i).aid := by rw [freeStainfo, if_pos hi]
    unfold Tim
    rw [hsta, hhash, hdz, htim]
    exact TimOk.erase h hs.nodup hi
  · rwa [freeStainfo, if_neg hi]

theorem Tim.xmit (h : t.Tim) (f : XmitFrame) (direct : Option Bool) : (t.rtwXmit f direct).Tim := by
  unfold rtwXmit
  cases hto : t.enqueueForSleepingSta f with
  | some t' => exact h.buffer hto
  | none =>
    have hhal : (t.halXmitframeEnqueue f).Tim := by
      unfold Tim
      simpa using h
    unfold preXmitframe
    dsimp only [Option.getD_none]
    split_ifs
    · exact hhal
    · cases direct with
      | none => exact hhal
      | some coalesced => cases coalesced <;> exact h

theorem Tim.processPwrbit (h : t.Tim) (hs : t.Sound) {src : MacAddr} {pwrbit : Bool}
    (ha : t.Assigned (.pwrbit src pwrbit)) :
    (t.processPwrbit src pwrbit).Tim := by
  unfold TxQueues.processPwrbit
  split
  · exact h
  · rename_i i hi
    have hmem := mem_of_getStainfo hi
    cases pwrbit with
    | false =>
      simp only [Bool.false_eq_true, if_false]
      split_ifs
      · exact h
      · exact h.wakeupStaToXmit hs hmem
    | true =>
      simp only [if_true]
      split_ifs
      · exact h
      · exact h.stopStaXmit hmem (ha i hi)

theorem Tim.step (h : t.Tim) (hs : t.Sound) {e : TxEvent} (ha : t.Assigned e) : (t.step e).Tim := by
  cases e with
  | xmit id ra psta priority direct => exact h.xmit _ direct
  | complete inx coalesce n => exact h.xmitframeComplete inx coalesce n
  | pwrbit src pwrbit => exact h.processPwrbit hs ha
  | wmmps src priority => exact h.processWmmps hs src priority
  | psPoll ta aid priority => exact h.psPoll hs ta aid priority
  | chkBmcSleepq => exact h.chkBmcSleepq hs
  | apBmcFrames => exact h.apBmcFrames hs
  | chkHiQueue empty => exact h.chkHiQueue empty
  | aliveCheck i => exact h.aliveCheck i
  | aging i =>
    change (t.aging i).Tim
    unfold aging
    split_ifs with hi
    · exact h.wakeupStaToXmit hs hi
    · exact h
  | alloc i hwaddr => exact h.alloc i hwaddr
  | associate i aid uapsd => exact h.associate ha
  | updateBmcSta => exact h.updateBmcSta
  | free i => exact h.free hs i

theorem tim_init : init.Tim where
  small _ hi := by cases hi
  distinct _ hi := by cases hi
  group _ hi := by cases hi
  stray a ha hbit := by simp [init] at hbit
  stations _ hi := by cases hi

theorem tim_run {events : List TxEvent} (h : Run.Safe TxQueues.step Assigned init events) :
    (init.run events).Sound ∧ (init.run events).Tim :=
  h.induction (fun t => t.Sound ∧ t.Tim)
    (fun _ e ha ht => ⟨ht.1.step e,ht.2.step ht.1 ha⟩) ⟨sound_init,tim_init⟩ events
    List.prefix_rfl

/-- In every run in which the AIDs are different and below 16: a station with an AID sleeps exactly when its bit in
`sta_dz_bitmap` is set, and nothing waits in its sleep queue while it is awake; `sleepq_ac_len` is never less than the
delivery-enabled frames in that queue; and its bit in the TIM is set whenever the queue holds a frame that is not
delivery-enabled, or any frame when everything is. -/
theorem sleeping_station_told (events : List TxEvent) (h : Run.Safe TxQueues.step Assigned init events) (i : StaId)
    (hi : i ∈ (init.run events).staHash) (haid : ((init.run events).sta i).aid ≠ 0) :
    let t := init.run events
    let s := t.sta i
    (s.sleeping = true ↔ t.staDzBitmap &&& aidBit s.aid ≠ 0) ∧ (s.sleeping = false → s.sleepQ = []) ∧
      ((s.sleepQ.countP fun f => s.uapsd f.ac) : ℤ) ≤ s.sleepqAcLen ∧
      ((∃ f ∈ s.sleepQ, s.uapsd f.ac = false ∨ ∀ k, s.uapsd k = true) →
        t.timBitmap &&& aidBit s.aid ≠ 0) := by
  have htim := (tim_run h).2
  have hmc : isMcast ((init.run events).sta i).hwaddr = false := by
    by_contra hmc
    exact haid (htim.group i hi (by simpa using hmc))
  have hold := htim.stations i hi hmc
  refine ⟨?_,hold.awake,hold.acLen,?_⟩
  · rw [and_aidBit_ne_zero, hold.asleep haid]
  · rintro ⟨f,hf,hneed⟩
    rw [and_aidBit_ne_zero]
    refine hold.tim f hf (hneed.imp_right fun hall => ?_)
    rw [hold.legacy haid]
    simpa using hall

/-- A station that is associated, goes to sleep, is sent two frames and polls for one -/
theorem sleeping_station_told_polled :
    let events : List TxEvent := [.alloc 0 [2,0,0,0,0,1],.associate 0 1 fun _ => false,.pwrbit [2,0,0,0,0,1] true,
      .xmit 7 [2,0,0,0,0,1] 0 0 none,.xmit 8 [2,0,0,0,0,1] 0 0 none,.psPoll [2,0,0,0,0,1] 1 0]
    let t := init.run events
    let s := t.sta 0
    (s.sleeping = true ↔ t.staDzBitmap &&& aidBit s.aid ≠ 0) ∧ (s.sleeping = false → s.sleepQ = []) ∧
      ((s.sleepQ.countP fun f => s.uapsd f.ac) : ℤ) ≤ s.sleepqAcLen ∧
      ((∃ f ∈ s.sleepQ, s.uapsd f.ac = false ∨ ∀ k, s.uapsd k = true) →
        t.timBitmap &&& aidBit s.aid ≠ 0) := by
  intro events
  refine sleeping_station_told events ⟨trivial,⟨by decide,.inl rfl,fun _ =>
    by decide⟩,?_,trivial,trivial,trivial,trivial⟩ 0
    (by decide) (by decide)
  intro i hi
  have hzero : i = 0 := by
    refine Option.some.inj (hi.symm.trans ?_)
    decide
  subst hzero
  decide

end TxQueues
end Rtl8188fu
