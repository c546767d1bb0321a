import Mathlib

/-! # One's complement sums of 16-bit words

The words of a byte string are summed up with the carry added at the low end. The sum in the other byte order
is the same up to a factor of 256, so that either order tells whether a checksum is valid.
-/
namespace OnesSum

/-- The words in network byte order; an odd byte at the end is the high one. -/
def beSum : List UInt8 → ℕ
  | [] => 0
  | [a] => 256 * a.toNat
  | a :: b :: l => 256 * a.toNat + b.toNat + beSum l

/-- The words as a little-endian host reads them -/
def leSum : List UInt8 → ℕ
  | [] => 0
  | [a] => a.toNat
  | a :: b :: l => a.toNat + 256 * b.toNat + leSum l

/-- What the bytes from `lo` on and before `hi` add to the sum, each in the half of a word that it is in -/
def leSumBetween (l : List UInt8) (lo hi : ℕ) : ℕ := leSum (List.replicate (lo % 2) 0 ++ (l.take hi).drop lo)

/-- The carries above 16 bits are added until there are none. -/
def fold (s : ℕ) : ℕ := if s < 65536 then s else fold (s % 65536 + s / 65536)
termination_by s
decreasing_by omega

/-- The words sum up to sixteen ones. -/
def Valid (l : List UInt8) : Prop := fold (beSum l) = 65535

variable {l m : List UInt8} {s t : ℕ}

theorem fold_lt (s : ℕ) : fold s < 65536 := by
  induction s using fold.induct with
  | case1 s h => rwa [fold, if_pos h]
  | case2 s h ih => rwa [fold, if_neg h]

theorem fold_modEq (s : ℕ) : fold s ≡ s [MOD 65535] := by
  induction s using fold.induct with
  | case1 s h => rw [fold, if_pos h]
  | case2 s h ih =>
    rw [fold, if_neg h]
    refine ih.trans ?_
    unfold Nat.ModEq
    omega

theorem fold_pos (h : 0 < s) : 0 < fold s := by
  induction s using fold.induct with
  | case1 s hs => rwa [fold, if_pos hs]
  | case2 s hs ih =>
    rw [fold, if_neg hs]
    exact ih (by omega)

/-- Of a sum that is not zero, sixteen ones are left exactly when it is a multiple of 65535. -/
theorem fold_eq_iff (h : 0 < s) : fold s = 65535 ↔ 65535 ∣ s := by
  have hpos := fold_pos h
  have hlt := fold_lt s
  have hmod := fold_modEq s
  unfold Nat.ModEq at hmod
  omega

theorem beSum_modEq (l : List UInt8) : beSum l ≡ 256 * leSum l [MOD 65535] := by
  induction l using beSum.induct with
  | case1 => rfl
  | case2 a => rfl
  | case3 a b l ih =>
    rw [beSum, leSum]
    unfold Nat.ModEq at ih ⊢
    omega

theorem beSum_pos_iff : 0 < beSum l ↔ 0 < leSum l := by
  induction l using beSum.induct with
  | case1 => rfl
  | case2 a =>
    rw [beSum, leSum]
    omega
  | case3 a b l ih =>
    rw [beSum, leSum]
    omega

/-- Whether the words sum up to ones can be seen in either byte order. -/
theorem valid_iff (h : 0 < leSum l) : Valid l ↔ 65535 ∣ leSum l := by
  have hmod := beSum_modEq l
  rw [Valid, fold_eq_iff (beSum_pos_iff.mpr h)]
  unfold Nat.ModEq at hmod
  omega

theorem leSum_append (h : l.length % 2 = 0) : leSum (l ++ m) = leSum l + leSum m := by
  induction l using leSum.induct with
  | case1 => rw [leSum, Nat.zero_add, List.nil_append]
  | case2 a => simp at h
  | case3 a b l ih =>
    rw [List.length_cons, List.length_cons] at h
    rw [List.cons_append, List.cons_append, leSum, leSum, ih (by omega)]
    omega

theorem leSum_word (h : l.length % 2 = 0) (a b : UInt8) :
    leSum (l ++ a :: b :: m) = leSum l + (a.toNat + 256 * b.toNat) + leSum m := by
  rw [leSum_append h, leSum]
  omega

theorem leSum_padding (lo : ℕ) : leSum (List.replicate (lo % 2) 0) = 0 := by
  rcases Nat.mod_two_eq_zero_or_one lo with hmod | hmod <;> rw [hmod] <;> rfl

theorem leSum_take_of_le {lo hi : ℕ} (h : lo ≤ hi) :
    leSum (l.take hi) = leSum (l.take lo) + leSumBetween l lo hi := by
  induction l using leSum.induct generalizing lo hi with
  | case1 => simp [leSumBetween, leSum, leSum_padding]
  | case2 a =>
    match lo, hi with
    | 0, hi => simp [leSumBetween, leSum]
    | 1, hi + 1 => simp [leSumBetween, leSum]
    | lo + 2, hi + 2 => simpa [leSumBetween, leSum] using leSum_padding (lo + 2)
  | case3 a b l ih =>
    match lo, hi with
    | 0, hi => simp [leSumBetween, leSum]
    | 1, 1 => simp [leSumBetween, leSum]
    | 1, hi + 2 => simp [leSumBetween, leSum, Nat.add_assoc]
    | lo + 2, hi + 2 =>
      have hrest : leSumBetween (a :: b :: l) (lo + 2) (hi + 2) = leSumBetween l lo hi := by simp [leSumBetween]
      have hsum := ih (show lo ≤ hi by omega)
      rw [hrest, List.take_succ_cons, List.take_succ_cons, List.take_succ_cons, List.take_succ_cons, leSum, leSum]
      omega

end OnesSum
