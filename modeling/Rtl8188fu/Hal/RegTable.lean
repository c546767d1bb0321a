import Mathlib.Data.Nat.Bitwise
import Rtl8188fu.Library.CondBlocks

/-! # Register tables with conditions

`ODM_ReadAndConfig_MP_8188F_AGC_TAB`, `_PHY_REG`, `_MAC_REG` and `_RadioA` differ in their table and in the function
that they give an entry to. A table is read in pairs of words; the two top bits of the first make it a condition.
-/
namespace Rtl8188fu

def COND_ELSE : ℕ := 2
def COND_ENDIF : ℕ := 3

/-- What `CheckPositive` reads of `DM_ODM_T` -/
structure OdmChip where
  boardType : ℕ
  cutVersion : ℕ
  supportInterface : ℕ
  supportPlatform : ℕ
  packageType : ℕ
  typeGLNA : ℕ
  typeGPA : ℕ
  typeALNA : ℕ
  typeAPA : ℕ

def OdmChip.board (o : OdmChip) : ℕ :=
  (o.boardType &&& 0x10) >>> 4 ||| ((o.boardType &&& 0x08) >>> 3) <<< 1 ||| ((o.boardType &&& 0x80) >>> 7) <<< 2 |||
    ((o.boardType &&& 0x40) >>> 6) <<< 3 ||| ((o.boardType &&& 0x04) >>> 2) <<< 4

def OdmChip.driver1 (o : OdmChip) : ℕ :=
  o.cutVersion <<< 24 ||| (o.supportInterface &&& 0xF0) <<< 16 ||| o.supportPlatform <<< 16 ||| o.packageType <<< 12 |||
    (o.supportInterface &&& 0x0F) <<< 8 ||| o.board

def OdmChip.driver2 (o : OdmChip) : ℕ :=
  (o.typeGLNA &&& 0xFF) ||| (o.typeGPA &&& 0xFF) <<< 8 ||| (o.typeALNA &&& 0xFF) <<< 16 ||| (o.typeAPA &&& 0xFF) <<< 24

def OdmChip.driver4 (o : OdmChip) : ℕ :=
  (o.typeGLNA &&& 0xFF00) >>> 8 ||| (o.typeGPA &&& 0xFF00) ||| (o.typeALNA &&& 0xFF00) <<< 8 |||
    (o.typeAPA &&& 0xFF00) <<< 16

/-- The bytes of the types that a condition asks for -/
def bitMask (cond1 : ℕ) : ℕ :=
  (if cond1 &&& 0x1 ≠ 0 then 0x000000FF else 0) ||| (if cond1 &&& 0x2 ≠ 0 then 0x0000FF00 else 0) |||
    (if cond1 &&& 0x4 ≠ 0 then 0x00FF0000 else 0) ||| (if cond1 &&& 0x8 ≠ 0 then 0xFF000000 else 0)

/-- `CheckPositive`; the third condition is not used. -/
def checkPositive (o : OdmChip) (cond1 cond2 cond4 : ℕ) : Bool :=
  if cond1 &&& 0x0000F000 ≠ 0 ∧ cond1 &&& 0x0000F000 ≠ o.driver1 &&& 0x0000F000 then false
  else if cond1 &&& 0x0F000000 ≠ 0 ∧ cond1 &&& 0x0F000000 ≠ o.driver1 &&& 0x0F000000 then false
  else
    let cond1 := cond1 &&& 0x00FF0FFF
    if cond1 &&& (o.driver1 &&& 0x00FF0FFF) = cond1 then
      if cond1 &&& 0x0F = 0 then true
      else decide (cond2 &&& bitMask cond1 = o.driver2 &&& bitMask cond1 ∧
        cond4 &&& bitMask cond1 = o.driver4 &&& bitMask cond1)
    else false

structure TableState where
  bMatched : Bool
  bSkipped : Bool
  preV1 : ℕ
  preV2 : ℕ

def TableState.init : TableState := ⟨true,false,0,0⟩

/-- One pass of the loop, with the entry that is given to the configuration function -/
def readEntry (o : OdmChip) (s : TableState) (v1 v2 : ℕ) : TableState × List (ℕ × ℕ) :=
  if v1 &&& 0xC0000000 ≠ 0 then
    if v1 &&& 0x80000000 ≠ 0 then
      let cCond := (v1 &&& 0x30000000) >>> 28
      if cCond = COND_ENDIF then ({ s with bMatched := true, bSkipped := false },[])
      else if cCond = COND_ELSE then ({ s with bMatched := !s.bSkipped },[])
      else ({ s with preV1 := v1, preV2 := v2 },[])
    else if v1 &&& 0x40000000 ≠ 0 then
      if s.bSkipped = false then
        if checkPositive o s.preV1 s.preV2 v2 then ({ s with bMatched := true, bSkipped := true },[])
        else ({ s with bMatched := false, bSkipped := false },[])
      else ({ s with bMatched := false },[])
    else (s,[])
  else (s,if s.bMatched then [(v1,v2)] else [])

/-- `ODM_ReadAndConfig_MP_8188F_*`: the entries that are given to the configuration function, in order -/
def readAndConfig (o : OdmChip) : TableState → List ℕ → List (ℕ × ℕ)
  | s, v1 :: v2 :: table => (readEntry o s v1 v2).2 ++ readAndConfig o (readEntry o s v1 v2).1 table
  | _, _ => []

/-! The meaning of a condition, field by field -/

/-- `n` bits of a word from bit `lo` on -/
def bitField (lo n w : ℕ) : ℕ := w / 2 ^ lo % 2 ^ n

/-- Package and cut are compared where the condition gives them; of the other bits the chip has all that are asked
for; for each path that is asked for, the types are those of the chip. -/
structure CondMatches (o : OdmChip) (pos neg : ℕ × ℕ) : Prop where
  package : bitField 12 4 pos.1 = 0 ∨ bitField 12 4 pos.1 = bitField 12 4 o.driver1
  cut : bitField 24 4 pos.1 = 0 ∨ bitField 24 4 pos.1 = bitField 24 4 o.driver1
  bits : ∀ i, Nat.testBit 0x00FF0FFF i = true → pos.1.testBit i = true → o.driver1.testBit i = true
  types : ∀ k < 4, pos.1.testBit k = true →
    bitField (8 * k) 8 pos.2 = bitField (8 * k) 8 o.driver2 ∧ bitField (8 * k) 8 neg.2 = bitField (8 * k) 8 o.driver4

theorem and_eq_and_iff {a b m : ℕ} :
    a &&& m = b &&& m ↔ ∀ i, m.testBit i = true → a.testBit i = b.testBit i := by
  constructor
  · intro h i hi
    have := congrArg (Nat.testBit · i) h
    simpa [Nat.testBit_and, hi] using this
  · intro h
    refine Nat.eq_of_testBit_eq fun i => ?_
    rw [Nat.testBit_and, Nat.testBit_and]
    cases hi : m.testBit i with
    | false => simp
    | true => rw [h i hi]

theorem bitField_eq_iff {lo n a b : ℕ} :
    bitField lo n a = bitField lo n b ↔ ∀ i, lo ≤ i → i < lo + n → a.testBit i = b.testBit i := by
  constructor
  · intro h i hlo hhi
    have := congrArg (Nat.testBit · (i - lo)) h
    simp only [bitField, Nat.testBit_mod_two_pow, Nat.testBit_div_two_pow] at this
    have hadd : i - lo + lo = i := by omega
    have hlt : i - lo < n := by omega
    simpa [hlt, hadd] using this
  · intro h
    refine Nat.eq_of_testBit_eq fun i => ?_
    simp only [bitField, Nat.testBit_mod_two_pow, Nat.testBit_div_two_pow]
    by_cases hi : i < n
    · simp only [hi, decide_true, Bool.true_and]
      exact h (i + lo) (by omega) (by omega)
    · simp [hi]

/-- Comparing under a mask of `n` bits from `lo` on is comparing a field. -/
theorem and_mask_eq_iff (lo n : ℕ) {a b : ℕ} :
    a &&& (2 ^ n - 1) <<< lo = b &&& (2 ^ n - 1) <<< lo ↔ bitField lo n a = bitField lo n b := by
  rw [and_eq_and_iff, bitField_eq_iff]
  refine forall_congr' fun i => ?_
  simp only [Nat.testBit_shiftLeft, Nat.testBit_two_pow_sub_one, Bool.and_eq_true, decide_eq_true_eq]
  constructor
  · exact fun h hlo hhi => h ⟨hlo,by omega⟩
  · exact fun h hi => h hi.1 (by omega)

theorem and_mask_eq_zero_iff (lo n : ℕ) {a : ℕ} : a &&& (2 ^ n - 1) <<< lo = 0 ↔ bitField lo n a = 0 := by
  have h := and_mask_eq_iff lo n (a := a) (b := 0)
  rwa [Nat.zero_and, show bitField lo n 0 = 0 by simp [bitField]] at h

theorem and_bit_ne_zero_iff (k : ℕ) {a : ℕ} : a &&& 2 ^ k ≠ 0 ↔ a.testBit k = true := by
  rw [Nat.and_two_pow]
  cases a.testBit k <;> simp

/-- A byte of the mask is there exactly when its bit in the condition is set. -/
theorem testBit_bitMask (c i : ℕ) : (bitMask c).testBit i = (decide (i < 32) && c.testBit (i / 8)) := by
  have hbyte : ∀ k, (if c &&& 2 ^ k ≠ 0 then (2 ^ 8 - 1) <<< (8 * k) else 0).testBit i =
      (decide (8 * k ≤ i ∧ i < 8 * k + 8) && c.testBit k) := by
    intro k
    by_cases hk : c.testBit k = true
    · rw [if_pos ((and_bit_ne_zero_iff k).mpr hk)]
      simp only [Nat.testBit_shiftLeft, Nat.testBit_two_pow_sub_one, hk, Bool.and_true]
      rw [Bool.eq_iff_iff]
      simp only [Bool.and_eq_true, decide_eq_true_eq]
      omega
    · rw [if_neg (fun h => hk ((and_bit_ne_zero_iff k).mp h))]
      simp [hk]
  have hmask : bitMask c = (if c &&& 2 ^ 0 ≠ 0 then (2 ^ 8 - 1) <<< (8 * 0) else 0) |||
      (if c &&& 2 ^ 1 ≠ 0 then (2 ^ 8 - 1) <<< (8 * 1) else 0) |||
      (if c &&& 2 ^ 2 ≠ 0 then (2 ^ 8 - 1) <<< (8 * 2) else 0) |||
      (if c &&& 2 ^ 3 ≠ 0 then (2 ^ 8 - 1) <<< (8 * 3) else 0) := rfl
  have hone : ∀ k, 8 * k ≤ i ∧ i < 8 * k + 8 ↔ i / 8 = k := by omega
  rw [hmask, Nat.testBit_or, Nat.testBit_or, Nat.testBit_or, hbyte, hbyte, hbyte, hbyte, Bool.eq_iff_iff]
  simp only [hone, Bool.or_eq_true, Bool.and_eq_true, decide_eq_true_eq]
  constructor
  · rintro (((⟨hk,hc⟩ | ⟨hk,hc⟩) | ⟨hk,hc⟩) | ⟨hk,hc⟩) <;> exact ⟨by omega,hk ▸ hc⟩
  · rintro ⟨hi,hc⟩
    have hcases : i / 8 = 0 ∨ i / 8 = 1 ∨ i / 8 = 2 ∨ i / 8 = 3 := by omega
    rcases hcases with hk | hk | hk | hk <;> rw [hk] at hc <;> simp [hk, hc]

theorem and_bitMask_eq_iff (c : ℕ) {a b : ℕ} :
    a &&& bitMask c = b &&& bitMask c ↔
      ∀ k < 4, c.testBit k = true → bitField (8 * k) 8 a = bitField (8 * k) 8 b := by
  simp only [and_eq_and_iff, testBit_bitMask, bitField_eq_iff, Bool.and_eq_true, decide_eq_true_eq]
  constructor
  · intro h k hk hc i hlo hhi
    have hdiv : i / 8 = k := by omega
    exact h i ⟨by omega,hdiv ▸ hc⟩
  · intro h i hi
    exact h (i / 8) (by omega) hi.2 i (by omega) (by omega)

/-- `CheckPositive` decides the match, field by field. -/
theorem checkPositive_iff (o : OdmChip) (pos neg : ℕ × ℕ) :
    checkPositive o pos.1 pos.2 neg.2 = true ↔ CondMatches o pos neg := by
  have hpack : pos.1 &&& 0x0000F000 ≠ 0 ∧ pos.1 &&& 0x0000F000 ≠ o.driver1 &&& 0x0000F000 ↔
      ¬ (bitField 12 4 pos.1 = 0 ∨ bitField 12 4 pos.1 = bitField 12 4 o.driver1) := by
    rw [not_or]
    exact and_congr (and_mask_eq_zero_iff 12 4).not (and_mask_eq_iff 12 4).not
  have hcut : pos.1 &&& 0x0F000000 ≠ 0 ∧ pos.1 &&& 0x0F000000 ≠ o.driver1 &&& 0x0F000000 ↔
      ¬ (bitField 24 4 pos.1 = 0 ∨ bitField 24 4 pos.1 = bitField 24 4 o.driver1) := by
    rw [not_or]
    exact and_congr (and_mask_eq_zero_iff 24 4).not (and_mask_eq_iff 24 4).not
  have hbits : (pos.1 &&& 0x00FF0FFF) &&& (o.driver1 &&& 0x00FF0FFF) = pos.1 &&& 0x00FF0FFF ↔
      ∀ i, Nat.testBit 0x00FF0FFF i = true → pos.1.testBit i = true → o.driver1.testBit i = true := by
    rw [show pos.1 &&& 0x00FF0FFF &&& (o.driver1 &&& 0x00FF0FFF) = o.driver1 &&& (pos.1 &&& 0x00FF0FFF) by
      refine Nat.eq_of_testBit_eq fun i => ?_
      simp only [Nat.testBit_and]
      cases pos.1.testBit i <;> cases o.driver1.testBit i <;> simp]
    constructor
    · intro h i hm hp
      have := congrArg (Nat.testBit · i) h
      simpa [Nat.testBit_and, hm, hp] using this
    · intro h
      refine Nat.eq_of_testBit_eq fun i => ?_
      simp only [Nat.testBit_and]
      cases hm : Nat.testBit 0x00FF0FFF i with
      | false => simp
      | true =>
        cases hp : pos.1.testBit i with
        | false => simp
        | true => simp [h i hm hp]
  have hlow : ∀ k < 4, (pos.1 &&& 0x00FF0FFF).testBit k = pos.1.testBit k := by
    intro k hk
    have hmask : ∀ k < 4, Nat.testBit 0x00FF0FFF k = true := by decide
    rw [Nat.testBit_and, hmask k hk, Bool.and_true]
  have hboard : (pos.1 &&& 0x00FF0FFF) &&& 0x0F = 0 → ∀ k < 4, pos.1.testBit k = false := by
    intro h k hk
    have hmask : ∀ k < 4, Nat.testBit 0x0F k = true := by decide
    have hbit := congrArg (Nat.testBit · k) h
    simpa [Nat.testBit_and, hmask k hk, hlow k hk] using hbit
  have htypes : ∀ a b, a &&& bitMask (pos.1 &&& 0x00FF0FFF) = b &&& bitMask (pos.1 &&& 0x00FF0FFF) ↔
      ∀ k < 4, pos.1.testBit k = true → bitField (8 * k) 8 a = bitField (8 * k) 8 b := by
    intro a b
    rw [and_bitMask_eq_iff]
    refine forall₂_congr fun k hk => ?_
    rw [hlow k hk]
  rw [checkPositive]
  dsimp only
  split_ifs with h1 h2 h3 h4
  · exact iff_of_false id fun h => hpack.mp h1 h.package
  · exact iff_of_false id fun h => hcut.mp h2 h.cut
  · refine iff_of_true rfl ⟨not_not.mp (hpack.not.mp h1),not_not.mp (hcut.not.mp h2),hbits.mp h3,?_⟩
    intro k hk hc
    rw [hboard h4 k hk] at hc
    cases hc
  · rw [decide_eq_true_eq, htypes, htypes]
    constructor
    · rintro ⟨hfirst,hsecond⟩
      exact ⟨not_not.mp (hpack.not.mp h1),not_not.mp (hcut.not.mp h2),hbits.mp h3,
        fun k hk hc => ⟨hfirst k hk hc,hsecond k hk hc⟩⟩
    · intro h
      exact ⟨fun k hk hc => (h.types k hk hc).1,fun k hk hc => (h.types k hk hc).2⟩
  · exact iff_of_false id fun h => h3 (hbits.mpr h.bits)

instance (o : OdmChip) (pos neg : ℕ × ℕ) : Decidable (CondMatches o pos neg) :=
  decidable_of_iff _ (checkPositive_iff o pos neg)

/-! The language of the tables -/

open CondBlocks

/-- The two words of an instruction -/
def entryWords : Instr (ℕ × ℕ) (ℕ × ℕ) → ℕ × ℕ
  | .cond c => c
  | .test c => c
  | .els => (0xA0000000,0)
  | .endif => (0xB0000000,0)
  | .op a => a

/-- The top bits of the first word say what the instruction is. -/
def IsEntry : Instr (ℕ × ℕ) (ℕ × ℕ) → Prop
  | .cond c => c.1.testBit 31 = true ∧ c.1.testBit 29 = false
  | .test c => c.1.testBit 31 = false ∧ c.1.testBit 30 = true
  | .els => True
  | .endif => True
  | .op a => a.1.testBit 31 = false ∧ a.1.testBit 30 = false

instance : DecidablePred IsEntry := fun i => by
  cases i <;> unfold IsEntry <;> infer_instance

/-- Blocks whose words are what they are taken for -/
structure RegProgram where
  items : List (Item (ℕ × ℕ) (ℕ × ℕ))
  entries : ∀ i ∈ items.flatMap Item.encode, IsEntry i

/-- The array of the header file -/
def RegProgram.table (p : RegProgram) : List ℕ :=
  (p.items.flatMap Item.encode).flatMap fun i => [(entryWords i).1,(entryWords i).2]

/-- The entries that a chip is to get -/
def RegProgram.writes (p : RegProgram) (o : OdmChip) : List (ℕ × ℕ) :=
  p.items.flatMap (Item.ops fun pos neg => decide (CondMatches o pos neg))

def TableState.machine (s : TableState) : Machine (ℕ × ℕ) := ⟨s.bMatched,s.bSkipped,(s.preV1,s.preV2)⟩

theorem top_bits_eq_zero_iff {w : ℕ} : w &&& 0xC0000000 = 0 ↔ w.testBit 31 = false ∧ w.testBit 30 = false := by
  have hfield := and_mask_eq_zero_iff 30 2 (a := w)
  have hzero : bitField 30 2 0 = 0 := by simp [bitField]
  rw [← hzero, bitField_eq_iff] at hfield
  refine hfield.trans ⟨fun h => ⟨?_,?_⟩,?_⟩
  · simpa using h 31 (by decide) (by decide)
  · simpa using h 30 (by decide) (by decide)
  · rintro ⟨h31,h30⟩ i hlo hhi
    have hcases : i = 30 ∨ i = 31 := by omega
    rcases hcases with rfl | rfl
    · simpa using h30
    · simpa using h31

theorem readEntry_step (o : OdmChip) (s : TableState) {i : Instr (ℕ × ℕ) (ℕ × ℕ)} (h : IsEntry i) :
    (readEntry o s (entryWords i).1 (entryWords i).2).1.machine =
        (s.machine.step (fun pos neg => decide (CondMatches o pos neg)) i).1 ∧
      (readEntry o s (entryWords i).1 (entryWords i).2).2 =
        (s.machine.step (fun pos neg => decide (CondMatches o pos neg)) i).2 := by
  cases i with
  | cond c =>
    obtain ⟨h31,h29⟩ := h
    have htop : c.1 &&& 0xC0000000 ≠ 0 := fun h => by simp [(top_bits_eq_zero_iff.mp h).1] at h31
    have hpos : c.1 &&& 0x80000000 ≠ 0 := (and_bit_ne_zero_iff 31).mpr h31
    have hcond : ((c.1 &&& 0x30000000) >>> 28).testBit 1 = false := by
      simp [Nat.testBit_shiftRight, Nat.testBit_and, h29]
    have hend : (c.1 &&& 0x30000000) >>> 28 ≠ COND_ENDIF := by
      intro h
      rw [h] at hcond
      revert hcond
      decide
    have helse : (c.1 &&& 0x30000000) >>> 28 ≠ COND_ELSE := by
      intro h
      rw [h] at hcond
      revert hcond
      decide
    simp [entryWords, readEntry, htop, hpos, hend, helse, TableState.machine, Machine.step]
  | test c =>
    obtain ⟨h31,h30⟩ := h
    have htop : c.1 &&& 0xC0000000 ≠ 0 := fun h => by simp [(top_bits_eq_zero_iff.mp h).2] at h30
    have hpos : ¬ c.1 &&& 0x80000000 ≠ 0 := fun h => by simp [(and_bit_ne_zero_iff 31).mp h] at h31
    have hneg : c.1 &&& 0x40000000 ≠ 0 := (and_bit_ne_zero_iff 30).mpr h30
    have hholds : checkPositive o s.preV1 s.preV2 c.2 = decide (CondMatches o (s.preV1,s.preV2) c) := by
      rw [Bool.eq_iff_iff, decide_eq_true_eq]
      exact checkPositive_iff o (s.preV1,s.preV2) c
    cases hskip : s.bSkipped with
    | true => simp [entryWords, readEntry, htop, hpos, hneg, hskip, TableState.machine, Machine.step]
    | false =>
      by_cases hm : CondMatches o (s.preV1,s.preV2) c <;>
        simp [entryWords, readEntry, htop, hpos, hneg, hskip, TableState.machine, Machine.step, hholds, hm]
  | els => simp [entryWords, readEntry, TableState.machine, Machine.step, COND_ENDIF, COND_ELSE]
  | endif => simp [entryWords, readEntry, TableState.machine, Machine.step, COND_ENDIF]
  | op a =>
    have htop : a.1 &&& 0xC0000000 = 0 := top_bits_eq_zero_iff.mpr h
    have hread : readEntry o s a.1 a.2 = (s,if s.bMatched then [a] else []) := by simp [readEntry, htop]
    exact ⟨congrArg (fun r => r.1.machine) hread,congrArg Prod.snd hread⟩

theorem readAndConfig_exec (o : OdmChip) (s : TableState) (is : List (Instr (ℕ × ℕ) (ℕ × ℕ)))
    (h : ∀ i ∈ is, IsEntry i) :
    readAndConfig o s (is.flatMap fun i => [(entryWords i).1,(entryWords i).2]) =
      (s.machine.exec (fun pos neg => decide (CondMatches o pos neg)) is).2 := by
  induction is generalizing s with
  | nil => rfl
  | cons i is ih =>
    obtain ⟨hstep,hout⟩ := readEntry_step o s (h i List.mem_cons_self)
    have hrest := ih (readEntry o s (entryWords i).1 (entryWords i).2).1 fun j hj => h j (List.mem_cons_of_mem i hj)
    rw [hstep] at hrest
    exact congrArg₂ (· ++ ·) hout hrest

/-- A chip gets what the table means for it: of every block the entries of the first branch that matches, or of the
rest. -/
theorem table_read (p : RegProgram) (o : OdmChip) : readAndConfig o .init p.table = p.writes o := by
  have hidle : TableState.init.machine.Idle := ⟨rfl,rfl⟩
  exact (readAndConfig_exec o .init _ p.entries).trans (exec_encode _ hidle p.items).2

def entries (writes : List (ℕ × ℕ)) : List (Item (ℕ × ℕ) (ℕ × ℕ)) := writes.map .op

/-- `Array_MP_8188F_RadioA` -/
def arrayRadioA : RegProgram where
  items :=
    entries
      [(0x000,0x00030000), (0x008,0x00008400), (0x018,0x00000407), (0x019,0x00000012)] ++
    [.block
      ⟨(0x80000400,0),(0x40000000,0),
        [(0x01B,0x00000C6C)]⟩
      []
      (some
        [(0x01B,0x00001C6C)])] ++
    entries
      [(0x01E,0x00080009), (0x01F,0x00000880), (0x02F,0x0001A060), (0x03F,0x00028000), (0x042,0x000060C0),
       (0x057,0x000D0000), (0x058,0x000C0160), (0x067,0x00001552), (0x083,0x00000000), (0x0B0,0x000FF9F0),
       (0x0B1,0x00022218), (0x0B2,0x00034C00), (0x0B4,0x0004484B), (0x0B5,0x0000112A), (0x0B6,0x0000053E),
       (0x0B7,0x00010408), (0x0B8,0x00010200), (0x0B9,0x00080001), (0x0BA,0x00040001), (0x0BB,0x00000400),
       (0x0BF,0x000C0000), (0x0C2,0x00002400), (0x0C3,0x00000009), (0x0C4,0x00040C91), (0x0C5,0x00099999),
       (0x0C6,0x000000A3), (0x0C7,0x0008F820), (0x0C8,0x00076C06), (0x0C9,0x00000000), (0x0CA,0x00080000),
       (0x0DF,0x00000180), (0x0EF,0x000001A0)] ++
    [.block
      ⟨(0x81000000,0),(0x40000000,0),
        [(0x051,0x000E8231)]⟩
      []
      (some
        [(0x051,0x000E8333)])] ++
    [.block
      ⟨(0x80000400,0),(0x40000000,0),
        [(0x052,0x000FAC88)]⟩
      [⟨(0x91000000,0),(0x40000000,0),
        [(0x052,0x000FAC2C)]⟩]
      (some
        [(0x052,0x000FAC2C)])] ++
    [.block
      ⟨(0x81000000,0),(0x40000000,0),
        [(0x053,0x00000141)]⟩
      []
      (some
        [(0x053,0x00000103)])] ++
    entries
      [(0x056,0x000517F0)] ++
    [.block
      ⟨(0x81000000,0),(0x40000000,0),
        [(0x035,0x00000090), (0x035,0x00000190), (0x035,0x00000290), (0x036,0x00001064), (0x036,0x00009064),
         (0x036,0x00011064), (0x036,0x00019064)]⟩
      []
      (some
        [(0x035,0x00000099), (0x035,0x00000199), (0x035,0x00000299), (0x036,0x00000064), (0x036,0x00008064),
         (0x036,0x00010064), (0x036,0x00018064)])] ++
    entries
      [(0x018,0x00000C07), (0x05A,0x00048000), (0x019,0x000739D0)] ++
    [.block
      ⟨(0x80000400,0),(0x40000000,0),
        [(0x034,0x0000ADD2), (0x034,0x00009DCF), (0x034,0x00008CF2), (0x034,0x00007CEF), (0x034,0x00006CEC),
         (0x034,0x00005CE9), (0x034,0x00004CCE), (0x034,0x00003CCB), (0x034,0x00002CC8), (0x034,0x00001C4B),
         (0x034,0x00000C48)]⟩
      [⟨(0x91000000,0),(0x40000000,0),
        [(0x034,0x0000ADD2), (0x034,0x00009DD0), (0x034,0x00008CF3), (0x034,0x00007CF0), (0x034,0x00006CED),
         (0x034,0x00005CD2), (0x034,0x00004CCF), (0x034,0x00003CCC), (0x034,0x00002CC9), (0x034,0x00001C4C),
         (0x034,0x00000C49)]⟩]
      (some
        [(0x034,0x0000ADD6), (0x034,0x00009DD3), (0x034,0x00008CF4), (0x034,0x00007CF1), (0x034,0x00006CEE),
         (0x034,0x00005CEB), (0x034,0x00004CCE), (0x034,0x00003CCB), (0x034,0x00002CC8), (0x034,0x00001C4B),
         (0x034,0x00000C48)])] ++
    entries
      [(0x000,0x00030159), (0x084,0x00048000), (0x086,0x0000002A), (0x087,0x00000025), (0x08E,0x00065540),
       (0x08F,0x00088000), (0x0EF,0x000020A0), (0x03B,0x000F0F00), (0x03B,0x000E0B00), (0x03B,0x000D0900),
       (0x03B,0x000C0700), (0x03B,0x000B0600), (0x03B,0x000A0400), (0x03B,0x00090200), (0x03B,0x00080000),
       (0x03B,0x0007BF00), (0x03B,0x00060B00), (0x03B,0x0005C900), (0x03B,0x00040700), (0x03B,0x00030600),
       (0x03B,0x0002D500), (0x03B,0x00010200), (0x03B,0x0000E000), (0x0EF,0x000000A0), (0x0EF,0x00000010),
       (0x03B,0x0000C0A8), (0x03B,0x00010400), (0x0EF,0x00000000), (0x0EF,0x00080000), (0x030,0x00010000),
       (0x031,0x0000000F), (0x032,0x00007EFE), (0x0EF,0x00000000), (0x000,0x00010159), (0x018,0x0000FC07),
       (0xFFE,0x00000000), (0xFFE,0x00000000), (0x01F,0x00080003), (0xFFE,0x00000000), (0xFFE,0x00000000),
       (0x01E,0x00000001), (0x01F,0x00080000), (0x000,0x00033D95)]
  entries := by decide +kernel

/-- All branches of a block write to the same registers in the same order. -/
def Uniform : Item (ℕ × ℕ) (ℕ × ℕ) → Prop
  | .op _ => True
  | .block first more other => ∀ b ∈ first :: more, b.body.map Prod.fst = (other.getD []).map Prod.fst

instance : DecidablePred Uniform := fun i => by
  cases i <;> unfold Uniform <;> infer_instance

/-- The registers of an item, where they do not depend on the chip -/
def itemRegs : Item (ℕ × ℕ) (ℕ × ℕ) → List ℕ
  | .op a => [a.1]
  | .block _ _ other => (other.getD []).map Prod.fst

theorem ops_regs {i : Item (ℕ × ℕ) (ℕ × ℕ)} (h : Uniform i) (holds : ℕ × ℕ → ℕ × ℕ → Bool) :
    (i.ops holds).map Prod.fst = itemRegs i := by
  cases i with
  | op a => rfl
  | block first more other =>
    have hops : (Item.block first more other).ops holds = pick holds (other.getD []) (first :: more) := rfl
    rw [hops, pick]
    cases hfind : (first :: more).find? fun b => holds b.cond b.test with
    | none => rfl
    | some b => exact h b (List.mem_of_find?_eq_some hfind)

/-- Every chip gets the same radio registers in the same order; only the values differ. -/
theorem radio_registers (o : OdmChip) :
    (readAndConfig o .init arrayRadioA.table).map Prod.fst = arrayRadioA.items.flatMap itemRegs := by
  have huniform : ∀ i ∈ arrayRadioA.items, Uniform i := by decide
  have hread :=
    (readAndConfig_exec o .init _ arrayRadioA.entries).trans (exec_encode _ ⟨rfl,rfl⟩ arrayRadioA.items).2
  rw [RegProgram.table, hread, List.map_flatMap]
  exact List.flatMap_congr fun i hi => ops_regs (huniform i hi) _

end Rtl8188fu
