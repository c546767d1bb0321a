import Mathlib

/-! # Reading and overwriting ranges of a buffer

A buffer is a list of cells. `slice` reads a range and `patch` overwrites one in
place; neither changes what lies outside the range, and a patch never grows the
buffer. All facts follow from the two pointwise descriptions.
-/
namespace Bytes
variable {α : Type*}

/-- The `n` cells that start at `i`, cut at the end of the buffer. -/
def slice (m : List α) (i n : ℕ) : List α := (m.drop i).take n

/-- `m` with the cells from `i` on replaced by `bs`, cut at the end of the buffer. -/
def patch (m : List α) (i : ℕ) (bs : List α) : List α :=
  m.take i ++ bs.take (m.length - i) ++ m.drop (i + bs.length)

@[simp] theorem length_slice (m : List α) (i n : ℕ) : (slice m i n).length = min n (m.length - i) := by
  simp [slice]

theorem length_slice_of_le {m : List α} {i n : ℕ} (h : i + n ≤ m.length) : (slice m i n).length = n := by
  rw [length_slice]
  omega

@[simp] theorem length_patch (m : List α) (i : ℕ) (bs : List α) : (patch m i bs).length = m.length := by
  simp only [patch, List.length_append, List.length_take, List.length_drop]
  omega

theorem getElem?_slice (m : List α) (i n j : ℕ) :
    (slice m i n)[j]? = if j < n then m[i + j]? else none := by
  simp only [slice, List.getElem?_take, List.getElem?_drop]

theorem getElem?_patch (m : List α) (i : ℕ) (bs : List α) (j : ℕ) :
    (patch m i bs)[j]? = if i ≤ j ∧ j < i + bs.length ∧ j < m.length then bs[j - i]? else m[j]? := by
  simp only [patch, List.getElem?_append, List.length_take, List.length_append, List.getElem?_take,
    List.getElem?_drop]
  by_cases hm : j < m.length
  · by_cases hi : j < i
    · rw [if_pos (by omega), if_pos (by omega), if_pos hi, if_neg (by omega)]
    · by_cases hb : j < i + bs.length
      · rw [if_pos (by omega), if_neg (by omega), if_pos (by omega), if_pos (by omega)]
        congr 1
        omega
      · rw [if_neg (by omega), if_neg (by omega)]
        congr 1
        omega
  · rw [if_neg (by omega), if_neg (by omega), List.getElem?_eq_none (by omega),
      List.getElem?_eq_none (by omega)]

theorem slice_patch {m bs : List α} {i : ℕ} (h : i + bs.length ≤ m.length) :
    slice (patch m i bs) i bs.length = bs := by
  apply List.ext_getElem?
  intro j
  rw [getElem?_slice]
  split_ifs with hj
  · rw [getElem?_patch, if_pos (by omega), Nat.add_sub_cancel_left]
  · rw [List.getElem?_eq_none (by omega)]

theorem slice_patch_of_length {m bs : List α} {i n : ℕ} (hn : bs.length = n) (h : i + n ≤ m.length) :
    slice (patch m i bs) i n = bs := by
  subst hn
  exact slice_patch h

theorem slice_slice {m : List α} {i n j k : ℕ} (h : j + k ≤ n) :
    slice (slice m i n) j k = slice m (i + j) k := by
  apply List.ext_getElem?
  intro l
  simp only [getElem?_slice]
  by_cases hl : l < k
  · rw [if_pos hl, if_pos hl, if_pos (by omega), Nat.add_assoc]
  · rw [if_neg hl, if_neg hl]

theorem slice_patch_below {m bs : List α} {i j n : ℕ} (h : j + n ≤ i) :
    slice (patch m i bs) j n = slice m j n := by
  apply List.ext_getElem?
  intro k
  rw [getElem?_slice, getElem?_slice]
  split_ifs with hk
  · rw [getElem?_patch, if_neg (by omega)]
  · rfl

theorem slice_patch_above {m bs : List α} {i j n : ℕ} (h : i + bs.length ≤ j) :
    slice (patch m i bs) j n = slice m j n := by
  apply List.ext_getElem?
  intro k
  rw [getElem?_slice, getElem?_slice]
  split_ifs with hk
  · rw [getElem?_patch, if_neg (by omega)]
  · rfl

theorem slice_patch_prefix {m bs : List α} {i k : ℕ} (h : i + bs.length ≤ m.length)
    (hk : k ≤ bs.length) : slice (patch m i bs) i k = slice bs 0 k := by
  conv_rhs => rw [← slice_patch h, slice_slice (by omega)]
  rfl

theorem slice_append_slice (m : List α) (i a b : ℕ) :
    slice m i a ++ slice m (i + a) b = slice m i (a + b) := by
  simp only [slice]
  rw [List.take_add, List.drop_drop]

@[simp] theorem slice_zero (m : List α) (i : ℕ) : slice m i 0 = [] := by simp [slice]

theorem slice_append_left {a b : List α} {i n : ℕ} (h : i + n ≤ a.length) :
    slice (a ++ b) i n = slice a i n := by
  apply List.ext_getElem?
  intro j
  rw [getElem?_slice, getElem?_slice]
  split_ifs
  · rw [List.getElem?_append_left (by omega)]
  · rfl

theorem slice_append_right {a b : List α} {i n : ℕ} (h : a.length ≤ i) :
    slice (a ++ b) i n = slice b (i - a.length) n := by
  apply List.ext_getElem?
  intro j
  rw [getElem?_slice, getElem?_slice]
  split_ifs
  · rw [List.getElem?_append_right (by omega)]
    congr 1
    omega
  · rfl

/-- Overwriting the middle part by one of the same length -/
theorem patch_middle {a b c bs : List α} (h : bs.length = b.length) :
    patch (a ++ b ++ c) a.length bs = a ++ bs ++ c := by
  simp [patch, h]

theorem patch_append_of_le {l m bs : List α} {i : ℕ} (h : i + bs.length ≤ l.length) :
    patch (l ++ m) i bs = patch l i bs ++ m := by
  have htake : ∀ k : List α, bs.length ≤ k.length - i → bs.take (k.length - i) = bs :=
    fun _ hk => List.take_of_length_le hk
  rw [patch, patch, htake _ (by rw [List.length_append]; omega), htake _ (by omega),
    List.take_append_of_le_length (by omega), List.drop_append_of_le_length h]
  simp only [List.append_assoc]

theorem slice_middle {a b c : List α} {i n : ℕ} (hi : a.length = i) (hn : b.length = n) :
    slice (a ++ b ++ c) i n = b := by
  simp [slice, ← hi, ← hn]

theorem slice_full {m : List α} {n : ℕ} (h : m.length = n) : slice m 0 n = m := by
  simp [slice, ← h]

end Bytes
