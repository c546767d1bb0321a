import Rtl8188fu.Library.Bytes

/-! # Key streams over ranges of a buffer

A range of a byte buffer is masked in place with a stream of key bytes. Masking in
pieces is masking at once, and masking twice restores the range exactly when the two
streams agree on it.
-/
namespace KeyStream
open Bytes

/-- The `n` bytes from `i` on xored with the first `n` bytes of the stream -/
def mask (ks : ℕ → UInt8) (m : List UInt8) (i n : ℕ) : List UInt8 :=
  m.mapIdx fun j b => if i ≤ j ∧ j < i + n then ks (j - i) ^^^ b else b

@[simp] theorem length_mask (ks : ℕ → UInt8) (m : List UInt8) (i n : ℕ) : (mask ks m i n).length = m.length :=
  List.length_mapIdx

theorem getElem?_mask (ks : ℕ → UInt8) (m : List UInt8) (i n j : ℕ) :
    (mask ks m i n)[j]? = if i ≤ j ∧ j < i + n then m[j]?.map (ks (j - i) ^^^ ·) else m[j]? := by
  rw [mask, List.getElem?_mapIdx]
  split_ifs with h
  · rfl
  · exact Option.map_id'

theorem mask_zero (ks : ℕ → UInt8) (m : List UInt8) (i : ℕ) : mask ks m i 0 = m := by
  apply List.ext_getElem?
  intro j
  rw [getElem?_mask, if_neg (by omega)]

theorem mask_congr {ks ks' : ℕ → UInt8} {n : ℕ} (h : ∀ j < n, ks j = ks' j) (m : List UInt8) (i : ℕ) :
    mask ks m i n = mask ks' m i n := by
  apply List.ext_getElem?
  intro j
  rw [getElem?_mask, getElem?_mask]
  split_ifs with hj
  · rw [h (j - i) (by omega)]
  · rfl

/-- Two adjacent ranges, each with its part of the stream -/
theorem mask_append (ks : ℕ → UInt8) (m : List UInt8) (i n k : ℕ) :
    mask (fun j => ks (n + j)) (mask ks m i n) (i + n) k = mask ks m i (n + k) := by
  apply List.ext_getElem?
  intro j
  simp only [getElem?_mask]
  by_cases hlow : i ≤ j ∧ j < i + n
  · rw [if_neg (by omega), if_pos hlow, if_pos (by omega)]
  · by_cases hhigh : i + n ≤ j ∧ j < i + n + k
    · rw [if_pos hhigh, if_neg hlow, if_pos (by omega), show n + (j - (i + n)) = j - i by omega]
    · rw [if_neg hhigh, if_neg hlow, if_neg (by omega)]

theorem slice_mask_below {ks : ℕ → UInt8} {m : List UInt8} {i n j k : ℕ} (h : j + k ≤ i) :
    slice (mask ks m i n) j k = slice m j k := by
  apply List.ext_getElem?
  intro l
  rw [getElem?_slice, getElem?_slice]
  split_ifs
  · rw [getElem?_mask, if_neg (by omega)]
  · rfl

theorem slice_mask_above {ks : ℕ → UInt8} {m : List UInt8} {i n j k : ℕ} (h : i + n ≤ j) :
    slice (mask ks m i n) j k = slice m j k := by
  apply List.ext_getElem?
  intro l
  rw [getElem?_slice, getElem?_slice]
  split_ifs
  · rw [getElem?_mask, if_neg (by omega)]
  · rfl

/-- A write outside the masked range may come before or after the mask. -/
theorem mask_patch_above {ks : ℕ → UInt8} {m bs : List UInt8} {i n j : ℕ} (h : i + n ≤ j) :
    mask ks (patch m j bs) i n = patch (mask ks m i n) j bs := by
  apply List.ext_getElem?
  intro l
  rw [getElem?_mask, getElem?_patch, getElem?_patch, getElem?_mask, length_mask]
  by_cases hl : i ≤ l ∧ l < i + n
  · rw [if_pos hl, if_neg (by omega), if_neg (by omega), if_pos hl]
  · rw [if_neg hl, if_neg hl]

/-- Overwriting a range with the xor of its bytes and the stream -/
theorem patch_eq_mask {ks : ℕ → UInt8} {m bs : List UInt8} {i n : ℕ} (hn : bs.length = n)
    (hm : i + n ≤ m.length) (h : ∀ j < n, bs.getD j 0 = ks j ^^^ m.getD (i + j) 0) :
    patch m i bs = mask ks m i n := by
  apply List.ext_getElem?
  intro j
  rw [getElem?_patch, getElem?_mask]
  by_cases hj : i ≤ j ∧ j < i + n
  · have hbs := h (j - i) (by omega)
    rw [if_pos (by omega), if_pos hj]
    rw [show i + (j - i) = j by omega, List.getD_eq_getElem _ _ (by omega),
      List.getD_eq_getElem _ _ (by omega)] at hbs
    rw [List.getElem?_eq_getElem (by omega), List.getElem?_eq_getElem (by omega), hbs]
    rfl
  · rw [if_neg (by omega), if_neg hj]

/-- What a masked range holds depends on what the range held. -/
theorem slice_mask (ks : ℕ → UInt8) (m : List UInt8) (i n : ℕ) :
    slice (mask ks m i n) i n = mask ks (slice m i n) 0 n := by
  apply List.ext_getElem?
  intro j
  simp only [getElem?_slice, getElem?_mask]
  by_cases hj : j < n
  · rw [if_pos hj, if_pos hj, if_pos (by omega), if_pos (by omega), Nat.add_sub_cancel_left, Nat.sub_zero]
  · rw [if_neg hj, if_neg hj, if_neg (by omega)]

theorem mask_mask_self (ks : ℕ → UInt8) (m : List UInt8) (i n : ℕ) : mask ks (mask ks m i n) i n = m := by
  apply List.ext_getElem?
  intro j
  simp only [getElem?_mask]
  split_ifs with hj
  · cases m[j]? with
    | none => rfl
    | some b => simp
  · rfl

/-- The second mask undoes the first exactly when the streams agree. -/
theorem mask_mask_eq_iff {ks ks' : ℕ → UInt8} {m : List UInt8} {n : ℕ} (hm : n ≤ m.length) :
    mask ks' (mask ks m 0 n) 0 n = m ↔ ∀ j < n, ks' j = ks j := by
  constructor
  · intro h j hj
    have hget := congrArg (·[j]?) h
    simp only [getElem?_mask] at hget
    rw [if_pos (by omega), if_pos (by omega), Nat.sub_zero,
      List.getElem?_eq_getElem (show j < m.length by omega)] at hget
    have hxor : ks' j ^^^ (ks j ^^^ m[j]) = m[j] := Option.some.inj hget
    have hcancel : ks' j ^^^ ks j = 0 := by
      have := congrArg (· ^^^ m[j]) hxor
      simpa [UInt8.xor_assoc] using this
    have := congrArg (· ^^^ ks j) hcancel
    simpa [UInt8.xor_assoc] using this
  · intro h
    rw [mask_congr h, mask_mask_self]

end KeyStream
