import Rtl8188fu.Efuse.Efuse
import Rtl8188fu.Library.Scanner

/-! # What the three walks have in common

The packets of the reader are a scan; the other two walks are compared with it.
-/
namespace Rtl8188fu

/-- The end of the packet at an address for the two functions that read it -/
def readNext (e : Efuse) (a : ℕ) : Option ℕ :=
  if a < efuseRealContentLen then
    if e a = 0xFF then none
    else if extHeader (e a) then
      if allWordsDisabled (e (a + 1)) then some (a + 2)
      else some (a + 2 + 2 * efuseCalculateWordCnts (hdrWden2 (e (a + 1))))
    else some (a + 1 + 2 * efuseCalculateWordCnts (hdrWden1 (e a)))
  else none

/-- The same for the function that measures -/
def sizeNext (e : Efuse) (a : ℕ) : Option ℕ :=
  if a < efuseRealContentLen then
    if e a = 0xFF then none
    else if extHeader (e a) then
      if allWordsDisabled (e (a + 1)) then some (a + 1)
      else some (a + 2 + 2 * efuseCalculateWordCnts (hdrWden2 (e (a + 1))))
    else some (a + 1 + 2 * efuseCalculateWordCnts (hdrWden1 (e a)))
  else none

def readScanner (e : Efuse) : Scanner where
  next := readNext e
  limit := efuseRealContentLen
  forward {a b} h := by
    rw [readNext] at h
    split_ifs at h <;> cases h <;> exact ⟨by omega,by assumption⟩

def sizeScanner (e : Efuse) : Scanner where
  next := sizeNext e
  limit := efuseRealContentLen
  forward {a b} h := by
    rw [sizeNext] at h
    split_ifs at h <;> cases h <;> exact ⟨by omega,by assumption⟩

/-- The header at an address is an extended header that disables all words. -/
def EmptyHeader (e : Efuse) (a : ℕ) : Prop := extHeader (e a) ∧ allWordsDisabled (e (a + 1))

section Next
variable {e : Efuse} {a b : ℕ}

theorem sizeNext_eq_iff (h : readNext e a = some b) : sizeNext e a = some b ↔ ¬ EmptyHeader e a := by
  rw [readNext] at h
  rw [sizeNext, EmptyHeader]
  split_ifs at h ⊢ with ha hff hext hall
  · cases h
    simp [hext, hall]
  · simp [h, hall]
  · simp [h, hext]

theorem sizeNext_none (h : readNext e a = none) : sizeNext e a = none := by
  rw [readNext] at h
  rw [sizeNext]
  split_ifs at h ⊢ <;> rfl

theorem readNext_none_iff : readNext e a = none ↔ a < efuseRealContentLen → e a = 0xFF := by
  rw [readNext]
  split_ifs with ha hff <;> simp_all

/-- The end of a packet depends on no byte behind it. -/
theorem readNext_congr {f : Efuse} (h : readNext e a = some b) (hf : ∀ x < b, f x = e x) : readNext f a = some b := by
  rw [readNext] at h
  split_ifs at h with ha hff hext hall
  all_goals
    cases h
    have h0 : f a = e a := hf a (by omega)
  · have h1 : f (a + 1) = e (a + 1) := hf (a + 1) (by omega)
    simp [readNext, h0, h1, ha, hff, hext, hall]
  · have h1 : f (a + 1) = e (a + 1) := hf (a + 1) (by omega)
    simp [readNext, h0, h1, ha, hff, hext, hall]
  · simp [readNext, h0, ha, hff, hext]

end Next

/-- What a packet of the reader does to the map -/
def readPkt (e : Efuse) (tbl : ℕ → UInt8) (p : ℕ × ℕ) : ℕ → UInt8 :=
  if extHeader (e p.1) then
    if allWordsDisabled (e (p.1 + 1)) then tbl
    else if hdrOffset2 (e p.1) (e (p.1 + 1)) < efuseMaxSection then
      (readWords e (hdrWden2 (e (p.1 + 1))) (hdrOffset2 (e p.1) (e (p.1 + 1)) * 8) (p.1 + 2,tbl)).2
    else tbl
  else if hdrOffset1 (e p.1) < efuseMaxSection then
    (readWords e (hdrWden1 (e p.1)) (hdrOffset1 (e p.1) * 8) (p.1 + 1,tbl)).2
  else tbl

/-- What a packet does to the data of one section -/
def readSection (e : Efuse) (offset : ℕ) (data : ℕ → UInt8) (p : ℕ × ℕ) : ℕ → UInt8 :=
  if extHeader (e p.1) then
    if allWordsDisabled (e (p.1 + 1)) then data
    else if hdrOffset2 (e p.1) (e (p.1 + 1)) = offset then
      (readWords e (hdrWden2 (e (p.1 + 1))) 0 (p.1 + 2,data)).2
    else data
  else if hdrOffset1 (e p.1) = offset then (readWords e (hdrWden1 (e p.1)) 0 (p.1 + 1,data)).2
  else data

section Loops
variable (e : Efuse)

theorem readEFuseLoop_eq (a : ℕ) (tbl : ℕ → UInt8) :
    readEFuseLoop e a tbl = ⟨if (readScanner e).stop a < efuseRealContentLen then (readScanner e).stop a + 1
      else (readScanner e).stop a,((readScanner e).records a).foldl (readPkt e) tbl,(readScanner e).records a⟩ := by
  induction a using (readScanner e).induction generalizing tbl with
  | stop a h =>
    rw [Scanner.stop_of_none h, Scanner.records_of_none h, readEFuseLoop]
    have hblank : a < efuseRealContentLen → e a = 0xFF := readNext_none_iff.mp h
    split
    · rename_i ha
      rw [if_pos (hblank ha)]
      rfl
    · rfl
  | step a b h ih =>
    rw [Scanner.stop_of_some h, Scanner.records_of_some h, List.foldl_cons, readEFuseLoop]
    change readNext e a = some b at h
    rw [readNext] at h
    split_ifs at h with ha hff hext hall
    · cases h
      rw [if_pos ha, if_neg hff, if_pos hext, if_pos hall, ih]
      simp [ReadState.take, readPkt, hext, hall]
    · cases h
      rw [if_pos ha, if_neg hff, if_pos hext, if_neg hall]
      dsimp only
      split
      · rename_i hoff
        rw [readWords_fst, ih]
        simp [ReadState.take, readPkt, hext, hall, hoff]
      · rename_i hoff
        rw [mul_comm _ 2, ih]
        simp [ReadState.take, readPkt, hext, hall, hoff]
    · cases h
      rw [if_pos ha, if_neg hff, if_neg hext]
      dsimp only
      split
      · rename_i hoff
        rw [readWords_fst, ih]
        simp [ReadState.take, readPkt, hext, hoff]
      · rename_i hoff
        rw [mul_comm _ 2, ih]
        simp [ReadState.take, readPkt, hext, hoff]

theorem pgPacketReadLoop_eq (offset a : ℕ) (data : ℕ → UInt8) :
    pgPacketReadLoop e offset a data =
      (((readScanner e).records a).foldl (readSection e offset) data,(readScanner e).records a) := by
  induction a using (readScanner e).induction generalizing data with
  | stop a h =>
    rw [Scanner.records_of_none h, pgPacketReadLoop]
    have hblank : a < efuseRealContentLen → e a = 0xFF := readNext_none_iff.mp h
    split
    · rename_i ha
      rw [if_pos (hblank ha)]
      rfl
    · rfl
  | step a b h ih =>
    rw [Scanner.records_of_some h, List.foldl_cons, pgPacketReadLoop]
    change readNext e a = some b at h
    rw [readNext] at h
    split_ifs at h with ha hff hext hall
    · cases h
      rw [if_pos ha, if_neg hff, if_pos hext, if_pos hall, ih]
      simp [readSection, hext, hall]
    · cases h
      rw [if_pos ha, if_neg hff, if_pos hext, if_neg hall]
      dsimp only
      split
      · rename_i hoff
        rw [readWords_fst, ih]
        simp [readSection, hext, hall, hoff]
      · rename_i hoff
        rw [mul_comm _ 2, ih]
        simp [readSection, hext, hall, hoff]
    · cases h
      rw [if_pos ha, if_neg hff, if_neg hext]
      dsimp only
      split
      · rename_i hoff
        rw [readWords_fst, ih]
        simp [readSection, hext, hoff]
      · rename_i hoff
        rw [mul_comm _ 2, ih]
        simp [readSection, hext, hoff]

/-- Without a stored size the measuring function is a scan. -/
theorem getCurrentSizeLoop_eq (a count : ℕ) :
    getCurrentSizeLoop e a 0 count = ((sizeScanner e).stop a,(sizeScanner e).records a) := by
  induction a using (sizeScanner e).induction with
  | stop a h =>
    rw [Scanner.stop_of_none h, Scanner.records_of_none h, getCurrentSizeLoop]
    change sizeNext e a = none at h
    rw [sizeNext] at h
    split_ifs at h with ha hff
    · rw [if_pos ha, if_pos hff]
    · rw [if_neg ha]
  | step a b h ih =>
    rw [Scanner.stop_of_some h, Scanner.records_of_some h, getCurrentSizeLoop]
    change sizeNext e a = some b at h
    rw [sizeNext] at h
    have hstart : ¬ ((0 : ℕ) ≠ 0 ∧ a = 0) := by simp
    split_ifs at h with ha hff hext hall
    · cases h
      rw [if_pos ha, if_neg hff, if_neg hstart, if_pos hext, if_pos hall, ih]
    · have hb : a + 1 + (efuseCalculateWordCnts (hdrWden2 (e (a + 1))) * 2 + 1) = b := by
        cases h
        ring
      rw [if_pos ha, if_neg hff, if_neg hstart, if_pos hext, if_neg hall]
      dsimp only
      rw [hb, ih]
    · have hb : a + (efuseCalculateWordCnts (hdrWden1 (e a)) * 2 + 1) = b := by
        cases h
        ring
      rw [if_pos ha, if_neg hff, if_neg hstart, if_neg hext]
      dsimp only
      rw [hb, ih]

end Loops

end Rtl8188fu
