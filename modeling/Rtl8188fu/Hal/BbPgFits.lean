import Rtl8188fu.Hal.BbPgFile
import Rtl8188fu.Hal.PowerLimitFits

/-! # Lines that fit the parser of the power by rate

The strings that a line is compared with have to lie in the buffer, and its numbers have to end there: a number may also
begin behind the end of its line.
-/
namespace Rtl8188fu
open Bytes Logged

section Numbers
variable (mem : List UInt8) (i : ℕ)

/-- The `x` behind a zero -/
def HexPrefix : Prop := byteAt mem i = chr '0' ∧ (byteAt mem (i + 1) = chr 'x' ∨ byteAt mem (i + 1) = chr 'X')

instance : Decidable (HexPrefix mem i) := inferInstanceAs
  (Decidable (byteAt mem i = chr '0' ∧ (byteAt mem (i + 1) = chr 'x' ∨ byteAt mem (i + 1) = chr 'X')))

def hexStart : ℕ := if HexPrefix mem (scanEnd isBlank mem i) then scanEnd isBlank mem i + 2 else scanEnd isBlank mem i

def hexEnd : ℕ := scanEnd isHexDigit mem (hexStart mem i)

/-- The number, and where it goes on -/
def hexAt : Option (UInt32 × ℕ) :=
  if hexStart mem i = hexEnd mem i then none
  else some ((slice mem (hexStart mem i) (hexEnd mem i - hexStart mem i)).foldl
    (fun v c => (v <<< 4) + (mapCharToHexDigit c).toUInt32) 0,hexEnd mem i)

/-- The number ends in the buffer. -/
def HexFits : Prop :=
  StopsIn isBlank mem i ∧ (byteAt mem (scanEnd isBlank mem i) = chr '0' →
    scanEnd isBlank mem i + 1 < mem.length) ∧
    StopsIn isHexDigit mem (hexStart mem i)

/-- Where the integer part ends; its first character is not looked at. -/
def integerEnd : ℕ := scanEnd isDigit mem (scanEnd isBlank mem i + 1)

def integerAt : UInt8 :=
  (slice mem (scanEnd isBlank mem i) (integerEnd mem i - scanEnd isBlank mem i)).foldl decimalStep 0

def fractionAt : Option (UInt8 × UInt8 × ℕ) :=
  if byteAt mem (integerEnd mem i) = chr '.' then
    if isDigit (byteAt mem (integerEnd mem i + 1)) then
      some (integerAt mem i,byteAt mem (integerEnd mem i + 1) - chr '0',integerEnd mem i + 2)
    else none
  else some (integerAt mem i,0,integerEnd mem i)

def FractionFits : Prop :=
  StopsIn isBlank mem i ∧ StopsIn isDigit mem (scanEnd isBlank mem i + 1) ∧
    (byteAt mem (integerEnd mem i) = chr '.' → integerEnd mem i + 1 < mem.length)

end Numbers

/-- The exact values of a row, up to one that is not read -/
def ExactFits (mem : List UInt8) : ℕ → ℕ → Prop
  | 0, _ => True
  | k + 1, i => FractionFits mem i ∧ ∀ v, fractionAt mem i = some v → ExactFits mem k v.2.2

section Lines
variable (p : PgParser) (mem : List UInt8)

def HeaderFits : Prop :=
  5 ≤ mem.length ∧ (slice mem 0 5 = ascii "#[v1]" ∨ slice mem 0 5 = ascii "#[v0]" →
    13 ≤ mem.length ∧ (slice mem 5 8 ≠ ascii "[Exact]#" → 16 ≤ mem.length))

/-- Behind the register offset: the mask and the value -/
def ValuesFit (i : ℕ) : Prop :=
  HexFits mem i ∧ ∀ v, hexAt mem i = some v → if p.exactValue then ExactFits mem 4 v.2 else HexFits mem v.2

def LineV0Fits : Prop := HexFits mem 0 ∧ ∀ v, hexAt mem 0 = some v → v.1 ≠ 0xffff → ValuesFit p mem v.2

/-- A row has a bracket, before its end or not. -/
def RowFits : Prop :=
  chr '1' ≤ byteAt mem 1 ∧ byteAt mem 1 ≤ chr '4' → StopsIn (· != chr ']') mem 0 ∧
    HexFits mem (behindToken mem 0 (chr ']')) ∧
    ∀ v, hexAt mem (behindToken mem 0 (chr ']')) = some v → ValuesFit p mem v.2

def LineV1Fits : Prop :=
  6 ≤ mem.length ∧ (slice mem 0 6 ≠ ascii "0xffff" → 7 ≤ mem.length ∧ (slice mem 0 7 ≠ ascii "#[END]#" →
    (byteAt mem 0 = chr '#' → slice mem 0 7 = ascii "#[2.4G]" → 8 < mem.length) ∧
      (byteAt mem 0 ≠ chr '#' → RowFits p mem)))

def PgLineFits : Prop :=
  ¬Skipped mem → if p.firstLine then HeaderFits mem else if p.phyRegPgVersion = 0 then LineV0Fits p mem
    else LineV1Fits p mem

end Lines

section Values
variable {α : Type} {mem : List UInt8} {i k : ℕ} {combineValue : UInt32}

theorem contained_getHexValue_andThen {f : Option (UInt32 × ℕ) → Logged ParaAccess α} :
    Contained ((getHexValueFromString mem i).andThen f) ↔ HexFits mem i ∧ Contained (f (hexAt mem i)) := by
  rw [getHexValueFromString, andThen_assoc, contained_scanWhile_andThen, HexFits, and_assoc, and_assoc]
  refine and_congr_right fun _ => ?_
  have hdigits : ∀ start, start = hexStart mem i →
      (Contained (((scanWhile isHexDigit mem start).andThen fun j => ret (if start = j then none
        else some ((slice mem start (j - start)).foldl
          (fun (v : UInt32) c => (v <<< 4) + (mapCharToHexDigit c).toUInt32) 0,j))).andThen f) ↔
          StopsIn isHexDigit mem (hexStart mem i) ∧ Contained (f (hexAt mem i))) := by
    rintro _ rfl
    rw [andThen_assoc, contained_scanWhile_andThen, ret_andThen]
    rfl
  by_cases hzero : byteAt mem (scanEnd isBlank mem i) = chr '0'
  · rw [if_pos hzero, imp_iff_right hzero, andThen_assoc, andThen_assoc, contained_readAt_andThen, ret_andThen]
    refine and_congr_right fun _ => hdigits _ ?_
    simp only [hexStart, HexPrefix, hzero, true_and]
  · rw [if_neg hzero, ret_andThen, and_iff_right fun h => absurd h hzero]
    refine hdigits _ ?_
    simp only [hexStart, HexPrefix, hzero, false_and, if_false]

theorem contained_getFraction_andThen {f : Option (UInt8 × UInt8 × ℕ) → Logged ParaAccess α} :
    Contained ((getFractionValueFromString mem i).andThen f) ↔ FractionFits mem i ∧
    Contained (f (fractionAt mem i)) := by
  rw [getFractionValueFromString, andThen_assoc, contained_scanWhile_andThen, andThen_assoc,
    contained_scanWhile_andThen, FractionFits, and_assoc, and_assoc]
  refine and_congr_right fun _ => and_congr_right fun _ => ?_
  rw [← integerEnd, fractionAt]
  dsimp only
  rw [← integerAt]
  by_cases hpoint : byteAt mem (integerEnd mem i) = chr '.'
  · rw [if_pos hpoint, if_pos hpoint, imp_iff_right hpoint, andThen_assoc, contained_readAt_andThen, ret_andThen]
  · rw [if_neg hpoint, if_neg hpoint, ret_andThen, and_iff_right fun h => absurd h hpoint]

theorem contained_exactValues_iff : Contained (exactValues mem k i combineValue) ↔ ExactFits mem k i := by
  induction k generalizing i combineValue with
  | zero => exact iff_of_true (completes_ret _) trivial
  | succ k ih =>
    rw [exactValues, contained_getFraction_andThen, ExactFits]
    refine and_congr_right fun _ => ?_
    cases hvalue : fractionAt mem i with
    | none => exact iff_of_true (completes_ret _) (by simp)
    | some v =>
      dsimp only
      rw [ih]
      simp

end Values

section Lines
variable {p : PgParser} {mem : List UInt8} {i : ℕ} {band txNum : ℕ} {rfPath : UInt8} {regOffset : UInt32}

theorem contained_pgValues_iff : Contained (pgValues p mem band rfPath txNum regOffset i) ↔ ValuesFit p mem i := by
  rw [pgValues, contained_getHexValue_andThen, ValuesFit]
  refine and_congr_right fun _ => ?_
  cases hmask : hexAt mem i with
  | none => exact iff_of_true (completes_ret _) (by simp)
  | some v =>
    obtain ⟨regMask,j⟩ := v
    dsimp only
    refine (contained_andThen_of_all ?_).trans ?_
    · intro value
      cases value <;> exact completes_ret _
    have hvalue : (∀ v : UInt32 × ℕ, some (regMask,j) = some v → if p.exactValue then ExactFits mem 4 v.2
        else HexFits mem v.2) ↔
        if p.exactValue then ExactFits mem 4 j else HexFits mem j := by simp
    rw [hvalue]
    by_cases hexact : p.exactValue = true
    · rw [if_pos hexact, if_pos hexact, contained_exactValues_iff]
    · rw [if_neg hexact, if_neg hexact, contained_getHexValue_andThen]
      exact and_iff_left (completes_ret _)

/-- A string of `n` characters that is compared up to `k` -/
theorem contained_eqN_andThen {α : Type} {str : List UInt8} {i n k : ℕ} (hn : str.length = n + 1)
    (hk : i + (n + 1) = k)
    {f : Bool → Logged ParaAccess α} : Contained ((eqNByte mem i str).andThen f) ↔
      k ≤ mem.length ∧ Contained (f (slice mem i (n + 1) = str)) := by
  rw [contained_eqNByte_andThen (List.ne_nil_of_length_pos (by omega)), hn, hk]

theorem contained_pgHeaderLine_iff : Contained (pgHeaderLine p mem) ↔ HeaderFits mem := by
  have h1 : (ascii "#[v1]").length = 5 := by decide
  have h0 : (ascii "#[v0]").length = 5 := by decide
  have hexact : (ascii "[Exact]#").length = 8 := by decide
  have hrelative : (ascii "[Relative]#").length = 11 := by decide
  -- what is done with a version
  have htype : ∀ version : UInt8, Contained ((eqNByte mem 5 (ascii "[Exact]#")).andThen fun exact =>
      if exact = true then ret (.inr { p with firstLine := false, phyRegPgVersion := version, exactValue := true })
      else
        (eqNByte mem 5 (ascii "[Relative]#")).andThen fun relative =>
        ret (α := PgResult ⊕ PgParser) (if relative = true then
            .inr { p with firstLine := false, phyRegPgVersion := version, exactValue := false }
          else .inl (false,p.stores))) ↔
      13 ≤ mem.length ∧ (slice mem 5 8 ≠ ascii "[Exact]#" → 16 ≤ mem.length) := by
    intro version
    rw [contained_eqN_andThen hexact rfl]
    refine and_congr_right fun _ => ?_
    by_cases hfound : slice mem 5 8 = ascii "[Exact]#"
    · rw [decide_eq_true hfound, if_pos rfl]
      exact iff_of_true (completes_ret _) fun h => absurd hfound h
    · rw [decide_eq_false hfound, if_neg Bool.noConfusion, contained_eqN_andThen hrelative rfl, imp_iff_right hfound]
      exact and_iff_left (completes_ret _)
  rw [pgHeaderLine, contained_eqN_andThen h1 rfl, HeaderFits]
  refine and_congr_right fun hlen => ?_
  by_cases hv1 : slice mem 0 5 = ascii "#[v1]"
  · rw [decide_eq_true hv1, if_pos rfl, ret_andThen, imp_iff_right (.inl hv1)]
    exact htype 1
  · rw [decide_eq_false hv1, if_neg Bool.noConfusion, andThen_assoc, contained_eqN_andThen h0 rfl,
      and_iff_right hlen, ret_andThen]
    by_cases hv0 : slice mem 0 5 = ascii "#[v0]"
    · rw [decide_eq_true hv0, if_pos rfl, imp_iff_right (.inr hv0)]
      exact htype 0
    · rw [decide_eq_false hv0, if_neg Bool.noConfusion]
      exact iff_of_true (completes_ret _) fun h => absurd h (not_or.mpr ⟨hv1,hv0⟩)

theorem contained_pgLineV0_iff : Contained (pgLineV0 p mem) ↔ LineV0Fits p mem := by
  rw [pgLineV0, contained_getHexValue_andThen, LineV0Fits]
  refine and_congr_right fun _ => ?_
  cases hoffset : hexAt mem 0 with
  | none => exact iff_of_true (completes_ret _) (by simp)
  | some v =>
    obtain ⟨regOffset,j⟩ := v
    dsimp only
    by_cases hends : regOffset = 0xffff
    · rw [if_pos hends]
      exact iff_of_true (completes_ret _) (by simp [hends])
    · rw [if_neg hends, contained_pgValues_iff]
      simp [hends]

theorem contained_pgRowLine_iff (hlen : 1 < mem.length) : Contained (pgRowLine p mem) ↔ RowFits p mem := by
  rw [pgRowLine, contained_readAt_andThen, and_iff_right hlen, RowFits]
  by_cases htxNum : chr '1' ≤ byteAt mem 1 ∧ byteAt mem 1 ≤ chr '4'
  · rw [if_pos htxNum, imp_iff_right htxNum, contained_scanWhile_andThen, contained_getHexValue_andThen,
      ← behindToken]
    refine and_congr_right fun _ => and_congr_right fun _ => ?_
    cases hoffset : hexAt mem (behindToken mem 0 (chr ']')) with
    | none => exact iff_of_true (completes_ret _) (by simp)
    | some v =>
      obtain ⟨regOffset,j⟩ := v
      dsimp only
      rw [contained_pgValues_iff]
      simp
  · rw [if_neg htxNum]
    exact iff_of_true (completes_ret _) fun h => absurd h htxNum

theorem contained_pgLabelLine_iff (hlen : 7 ≤ mem.length) :
    Contained (pgLabelLine p mem) ↔ (slice mem 0 7 = ascii "#[2.4G]" → 8 < mem.length) := by
  have h24G : (ascii "#[2.4G]").length = 7 := by decide
  have h5G : (ascii "#[5G]").length = 5 := by decide
  rw [pgLabelLine, contained_eqN_andThen h24G rfl, and_iff_right hlen]
  by_cases h24 : slice mem 0 7 = ascii "#[2.4G]"
  · rw [decide_eq_true h24, if_pos rfl, ret_andThen, imp_iff_right h24, contained_readAt_andThen]
    exact and_iff_left (completes_ret _)
  · have hshort : 5 ≤ mem.length := by omega
    have hindex : 6 < mem.length := by omega
    rw [decide_eq_false h24, if_neg Bool.noConfusion, andThen_assoc, contained_eqN_andThen h5G rfl,
      and_iff_right hshort, ret_andThen]
    refine iff_of_true ?_ fun h => absurd h h24
    split_ifs
    · exact contained_readAt_andThen.mpr ⟨hindex,completes_ret _⟩
    · exact completes_ret _

theorem contained_pgLineV1_iff : Contained (pgLineV1 p mem) ↔ LineV1Fits p mem := by
  have hffff : (ascii "0xffff").length = 6 := by decide
  have hend : (ascii "#[END]#").length = 7 := by decide
  rw [pgLineV1, contained_eqN_andThen hffff rfl, LineV1Fits]
  refine and_congr_right fun _ => ?_
  by_cases hends : slice mem 0 6 = ascii "0xffff"
  · rw [decide_eq_true hends, if_pos rfl]
    exact iff_of_true (completes_ret _) fun h => absurd hends h
  · rw [decide_eq_false hends, if_neg Bool.noConfusion, imp_iff_right hends, contained_eqN_andThen hend rfl]
    refine and_congr_right fun hlen => ?_
    by_cases htable : slice mem 0 7 = ascii "#[END]#"
    · rw [decide_eq_true htable, if_pos rfl]
      exact iff_of_true (completes_ret _) fun h => absurd htable h
    · have hfirst : 0 < mem.length := by omega
      have hsecond : 1 < mem.length := by omega
      rw [decide_eq_false htable, if_neg Bool.noConfusion, imp_iff_right htable, contained_readAt_andThen,
        and_iff_right hfirst]
      by_cases hhash : byteAt mem 0 = chr '#'
      · rw [if_pos hhash, imp_iff_right hhash, contained_pgLabelLine_iff hlen]
        exact (and_iff_left fun h => absurd hhash h).symm
      · rw [if_neg hhash, contained_pgRowLine_iff hsecond, imp_iff_right hhash]
        exact (and_iff_right fun h => absurd h hhash).symm

theorem contained_pgLine_iff (h : 0 ∈ mem) : Contained (pgLine p mem) ↔ PgLineFits p mem := by
  rw [pgLine, contained_skipsLine_andThen h, PgLineFits]
  by_cases hskip : Skipped mem
  · rw [decide_eq_true hskip, if_pos rfl]
    exact iff_of_true (completes_ret _) fun h => absurd hskip h
  · rw [decide_eq_false hskip, if_neg Bool.noConfusion, imp_iff_right hskip]
    split_ifs
    · exact contained_pgHeaderLine_iff
    · exact contained_pgLineV0_iff
    · exact contained_pgLineV1_iff

end Lines

end Rtl8188fu
