import Rtl8188fu.Efuse.EfuseWalk

/-! # When the walks of the efuse agree -/
namespace Rtl8188fu

/-- Outside of its eight bytes a packet leaves the map alone. -/
theorem readWords_snd_of_ne (e : Efuse) (wden : UInt8) (base : ℕ) (r : ℕ × (ℕ → UInt8)) {j : ℕ}
    (hj : ∀ i < 8, j ≠ base + i) : (readWords e wden base r).2 j = r.2 j := by
  have hfold : ∀ is : List ℕ, (∀ i ∈ is, i < 4) → ∀ r : ℕ × (ℕ → UInt8),
      (is.foldl (readWord e wden base) r).2 j = r.2 j := by
    intro is
    induction is with
    | nil => exact fun _ r => rfl
    | cons i is ih =>
      intro hi r
      have hlt := hi i List.mem_cons_self
      have h0 : j ≠ base + 2 * i := hj (2 * i) (by omega)
      have h1 : j ≠ base + 2 * i + 1 := hj (2 * i + 1) (by omega)
      rw [List.foldl_cons, ih fun k hk => hi k (List.mem_cons_of_mem _ hk), readWord]
      split
      · exact (Function.update_of_ne h1 _ _).trans (Function.update_of_ne h0 _ _)
      · rfl
  exact hfold (List.range 4) (fun i hi => List.mem_range.mp hi) r

/-- A packet does the same to the data of its section wherever these stand. -/
theorem readWords_shift (e : Efuse) (wden : UInt8) (base addr : ℕ) {data tbl : ℕ → UInt8}
    (h : ∀ j < 8, data j = tbl (base + j)) :
    ∀ j < 8, (readWords e wden 0 (addr,data)).2 j = (readWords e wden base (addr,tbl)).2 (base + j) := by
  have hfold : ∀ is : List ℕ, ∀ (addr : ℕ) (data tbl : ℕ → UInt8),
      (∀ j < 8, data j = tbl (base + j)) → ∀ j < 8,
      (is.foldl (readWord e wden 0) (addr,data)).2 j = (is.foldl (readWord e wden base) (addr,tbl)).2 (base + j) := by
    intro is
    induction is with
    | nil => exact fun addr data tbl h => h
    | cons i is ih =>
      intro addr data tbl h
      rw [List.foldl_cons, List.foldl_cons, readWord, readWord]
      split
      · refine ih (addr + 2) _ _ fun j hj => ?_
        simp only [Function.update_apply, h j hj, Nat.zero_add, Nat.add_assoc, Nat.add_left_cancel_iff]
      · exact ih addr data tbl h
  exact hfold (List.range 4) addr data tbl h

/-- Eight bytes of the map are followed through the packets by the data of their section. -/
theorem readSection_eq (e : Efuse) {offset : ℕ} (hoff : offset < efuseMaxSection) (ps : List (ℕ × ℕ))
    {data tbl : ℕ → UInt8} (h : ∀ j < 8, data j = tbl (offset * 8 + j)) :
    ∀ j < 8, ps.foldl (readSection e offset) data j = ps.foldl (readPkt e) tbl (offset * 8 + j) := by
  have hother : ∀ (wden : UInt8) (other addr : ℕ) (tbl : ℕ → UInt8), other ≠ offset → ∀ j < 8,
      (readWords e wden (other * 8) (addr,tbl)).2 (offset * 8 + j) = tbl (offset * 8 + j) := by
    intro wden other addr tbl hne j hj
    exact readWords_snd_of_ne e wden (other * 8) (addr,tbl) fun i hi => by omega
  induction ps generalizing data tbl with
  | nil => exact h
  | cons p ps ih =>
    rw [List.foldl_cons, List.foldl_cons]
    refine ih ?_
    rw [readSection, readPkt]
    split
    · split
      · exact h
      · by_cases hsame : hdrOffset2 (e p.1) (e (p.1 + 1)) = offset
        · rw [if_pos hsame, hsame, if_pos hoff]
          exact readWords_shift e _ _ _ h
        · rw [if_neg hsame]
          split
          · exact fun j hj => (h j hj).trans (hother _ _ _ _ hsame j hj).symm
          · exact h
    · by_cases hsame : hdrOffset1 (e p.1) = offset
      · rw [if_pos hsame, hsame, if_pos hoff]
        exact readWords_shift e _ _ _ h
      · rw [if_neg hsame]
        split
        · exact fun j hj => (h j hj).trans (hother _ _ _ _ hsame j hj).symm
        · exact h

/-- The address one past the last packet that the reader takes -/
def ReadState.pktsEnd (r : ReadState) : ℕ := (r.pkts.getLast?.map Prod.snd).getD 0

/-- What is asked of the three walks: they take the same packets, the used size is one past the
last of them, also from the stored size, a packet appended there is the next one, and a section
has the same bytes for both readers. -/
structure WalkersAgree (e : Efuse) : Prop where
  sizePkts : (halEfuseGetCurrentSizeWiFi e 0).2 = (halReadEFuseWiFi e).pkts
  size : (halEfuseGetCurrentSizeWiFi e 0).1 = (halReadEFuseWiFi e).pktsEnd
  sizeStored : (halEfuseGetCurrentSizeWiFi e (halReadEFuseWiFi e).used).1 = (halReadEFuseWiFi e).pktsEnd
  append : ∀ f : Efuse, (∀ a < (halReadEFuseWiFi e).pktsEnd, f a = e a) →
    (halReadEFuseWiFi e).pktsEnd < efuseRealContentLen → f (halReadEFuseWiFi e).pktsEnd ≠ 0xFF →
    ∃ next rest, (halReadEFuseWiFi f).pkts =
      (halReadEFuseWiFi e).pkts ++ ((halReadEFuseWiFi e).pktsEnd,next) :: rest
  sections : ∀ offset < efuseMaxSection, ∃ data,
    halEfusePgPacketRead e offset = some (data,(halReadEFuseWiFi e).pkts) ∧
    ∀ j < 8, data j = (halReadEFuseWiFi e).efuseTbl (offset * 8 + j)

section Agree
variable (e : Efuse)

theorem halReadEFuseWiFi_pkts : (halReadEFuseWiFi e).pkts = (readScanner e).records 0 := by
  rw [halReadEFuseWiFi, readEFuseLoop_eq]

theorem halReadEFuseWiFi_pktsEnd : (halReadEFuseWiFi e).pktsEnd = (readScanner e).stop 0 := by
  rw [ReadState.pktsEnd, halReadEFuseWiFi_pkts, ← Scanner.stop_eq]

theorem halReadEFuseWiFi_used : (halReadEFuseWiFi e).used =
    if (readScanner e).stop 0 < efuseRealContentLen then (readScanner e).stop 0 else (readScanner e).stop 0 - 1 := by
  rw [ReadState.used, halReadEFuseWiFi, readEFuseLoop_eq]
  dsimp only
  split <;> rfl

theorem halEfuseGetCurrentSizeWiFi_zero :
    halEfuseGetCurrentSizeWiFi e 0 = ((sizeScanner e).stop 0,(sizeScanner e).records 0) :=
  getCurrentSizeLoop_eq e 0 0

theorem section_agrees {offset : ℕ} (hoff : offset < efuseMaxSection) : ∃ data,
    halEfusePgPacketRead e offset = some (data,(halReadEFuseWiFi e).pkts) ∧
    ∀ j < 8, data j = (halReadEFuseWiFi e).efuseTbl (offset * 8 + j) := by
  refine ⟨((readScanner e).records 0).foldl (readSection e offset) fun _ => 0xFF,?_,?_⟩
  · rw [halEfusePgPacketRead, if_neg (by omega), pgPacketReadLoop_eq, halReadEFuseWiFi_pkts]
  · rw [halReadEFuseWiFi, readEFuseLoop_eq]
    exact readSection_eq e hoff _ fun _ _ => rfl

theorem append_agrees (f : Efuse) (hf : ∀ a < (halReadEFuseWiFi e).pktsEnd, f a = e a)
    (hlt : (halReadEFuseWiFi e).pktsEnd < efuseRealContentLen) (hff : f (halReadEFuseWiFi e).pktsEnd ≠ 0xFF) :
    ∃ next rest, (halReadEFuseWiFi f).pkts =
      (halReadEFuseWiFi e).pkts ++ ((halReadEFuseWiFi e).pktsEnd,next) :: rest := by
  rw [halReadEFuseWiFi_pktsEnd] at hf hlt hff ⊢
  have hmore : ∃ c, readNext f ((readScanner e).stop 0) = some c := by
    rw [← Option.isSome_iff_exists, ← Option.ne_none_iff_isSome, ne_eq, readNext_none_iff]
    exact fun h => hff (h hlt)
  obtain ⟨c,hc⟩ := hmore
  refine ⟨c,(readScanner f).records c,?_⟩
  rw [halReadEFuseWiFi_pkts, halReadEFuseWiFi_pkts]
  refine Scanner.records_append (fun r hr => ?_) hc
  obtain ⟨hr,-,hstop⟩ := Scanner.mem_records hr
  exact readNext_congr hr fun x hx => hf x (by omega)

/-- The measuring function takes the packets of the reader when none is empty. -/
theorem sizePkts_iff : (sizeScanner e).records 0 = (readScanner e).records 0 ↔
    ∀ p ∈ (readScanner e).records 0, ¬ EmptyHeader e p.1 := by
  rw [Scanner.records_eq_iff]
  constructor
  · rintro ⟨hall,-⟩ p hp
    exact (sizeNext_eq_iff (Scanner.mem_records hp).1).mp (hall p hp)
  · intro hall
    refine ⟨fun p hp => (sizeNext_eq_iff (Scanner.mem_records hp).1).mpr (hall p hp),?_⟩
    exact sizeNext_none (Scanner.next_stop (s := readScanner e) 0)

/-- From a stored size behind the last packet but one byte the walk starts anew. -/
theorem halEfuseGetCurrentSizeWiFi_retry {used : ℕ} (hlt : used < efuseRealContentLen) (hne : used ≠ 0)
    (hff : e used ≠ 0xFF) : halEfuseGetCurrentSizeWiFi e used = halEfuseGetCurrentSizeWiFi e 0 := by
  have hretry : ∀ count < 2, getCurrentSizeLoop e used used count = getCurrentSizeLoop e used used (count + 1) := by
    intro count hcount
    rw [getCurrentSizeLoop, if_pos hlt, if_neg hff, if_pos ⟨hne,rfl⟩, if_pos (by omega), if_neg (by omega)]
  have hagain : getCurrentSizeLoop e used used 2 = getCurrentSizeLoop e 0 0 3 := by
    rw [getCurrentSizeLoop, if_pos hlt, if_neg hff, if_pos ⟨hne,rfl⟩, if_pos (by omega), if_pos (by omega)]
  rw [halEfuseGetCurrentSizeWiFi, hretry 0 (by omega), hretry 1 (by omega), hagain, halEfuseGetCurrentSizeWiFi,
    getCurrentSizeLoop_eq, getCurrentSizeLoop_eq]

/-- A stored size at a blank byte, or behind the efuse, is taken as it is. -/
theorem halEfuseGetCurrentSizeWiFi_blank {used : ℕ} (h : used < efuseRealContentLen → e used = 0xFF) :
    (halEfuseGetCurrentSizeWiFi e used).1 = used := by
  rw [halEfuseGetCurrentSizeWiFi, getCurrentSizeLoop]
  split
  · rename_i hlt
    rw [if_pos (h hlt)]
  · rfl

/-- The scan ends at a blank byte, or exactly at the end of the efuse behind a byte that is not
blank. -/
def EndsClean (e : Efuse) : Prop :=
  (readScanner e).stop 0 < efuseRealContentLen ∨
    (readScanner e).stop 0 = efuseRealContentLen ∧ e (efuseRealContentLen - 1) ≠ 0xFF

theorem sizeStored_iff (hpkts : (sizeScanner e).stop 0 = (readScanner e).stop 0) :
    (halEfuseGetCurrentSizeWiFi e (halReadEFuseWiFi e).used).1 = (halReadEFuseWiFi e).pktsEnd ↔ EndsClean e := by
  rw [halReadEFuseWiFi_used, halReadEFuseWiFi_pktsEnd, EndsClean]
  by_cases hlt : (readScanner e).stop 0 < efuseRealContentLen
  · rw [if_pos hlt]
    have hblank := readNext_none_iff.mp (Scanner.next_stop (s := readScanner e) 0)
    simp [halEfuseGetCurrentSizeWiFi_blank e hblank, hlt]
  · have hlen : efuseRealContentLen = 256 := rfl
    rw [if_neg hlt]
    by_cases hend : (readScanner e).stop 0 = efuseRealContentLen
    · by_cases hff : e (efuseRealContentLen - 1) = 0xFF
      · rw [hend, halEfuseGetCurrentSizeWiFi_blank e fun _ => hff]
        simp only [hff, ne_eq, not_true_eq_false, and_false, or_false]
        omega
      · rw [hend, halEfuseGetCurrentSizeWiFi_retry e (by omega) (by omega) hff, halEfuseGetCurrentSizeWiFi_zero]
        simp [hff, hpkts, hend]
    · rw [halEfuseGetCurrentSizeWiFi_blank e fun h => absurd h (by omega)]
      constructor
      · intro h
        omega
      · rintro (h | h)
        · exact absurd h hlt
        · exact absurd h.1 hend

/-- The walks agree exactly when no packet is an extended header that disables all words, and the
packets end cleanly. -/
theorem efuse_walkers_agree_iff :
    WalkersAgree e ↔ (∀ p ∈ (readScanner e).records 0, ¬ EmptyHeader e p.1) ∧ EndsClean e := by
  have hzero := halEfuseGetCurrentSizeWiFi_zero e
  have hstop : (sizeScanner e).records 0 = (readScanner e).records 0 →
      (sizeScanner e).stop 0 = (readScanner e).stop 0 := by
    intro h
    rw [Scanner.stop_eq, h, ← Scanner.stop_eq]
  constructor
  · intro h
    have hpkts : (sizeScanner e).records 0 = (readScanner e).records 0 := by
      rw [← halReadEFuseWiFi_pkts, ← h.sizePkts, hzero]
    exact ⟨(sizePkts_iff e).mp hpkts,(sizeStored_iff e (hstop hpkts)).mp h.sizeStored⟩
  · rintro ⟨hempty,hclean⟩
    have hpkts := (sizePkts_iff e).mpr hempty
    refine ⟨?_,?_,(sizeStored_iff e (hstop hpkts)).mpr hclean,append_agrees e,fun _ h => section_agrees e h⟩
    · rw [hzero, halReadEFuseWiFi_pkts, hpkts]
    · rw [hzero, halReadEFuseWiFi_pktsEnd, hstop hpkts]

end Agree

/-- An efuse whose only packet is an extended header with a blank extension byte -/
def blankExtension : Efuse := fun a => if a = 0 then 0x0F else 0xFF

/-- The reader skips the extension byte, and the measuring function takes it for the end. -/
theorem blank_extension_measured_short : ¬ WalkersAgree blankExtension := by
  intro h
  have hsize := h.size
  have hmeasured : (sizeScanner blankExtension).stop 0 = 1 := by
    rw [Scanner.stop_of_some (show (sizeScanner blankExtension).next 0 = some 1 by decide),
      Scanner.stop_of_none (by decide)]
  have hread : (readScanner blankExtension).stop 0 = 2 := by
    rw [Scanner.stop_of_some (show (readScanner blankExtension).next 0 = some 2 by decide),
      Scanner.stop_of_none (by decide)]
  rw [halEfuseGetCurrentSizeWiFi_zero, halReadEFuseWiFi_pktsEnd, hmeasured, hread] at hsize
  cases hsize

end Rtl8188fu
