import Mathlib

/-! # Serial numbers on a circle

Positions on a circle of circumference `m` are compared through the distance one
has to walk forward from a base. Every order statement below is a statement about
such offsets, so wrap-around never appears in a proof that uses them.
-/
namespace SerialOrder

/-- Forward distance from `base` to `x` on a circle of circumference `m`. -/
def offset (m base x : ℤ) : ℤ := (x - base) % m

/-- `b` is strictly ahead of `a` by at most half a turn. -/
def Ahead (m a b : ℤ) : Prop := 0 < offset m a b ∧ 2 * offset m a b ≤ m

variable {m : ℤ}

theorem offset_nonneg (hm : 0 < m) (base x : ℤ) : 0 ≤ offset m base x :=
  Int.emod_nonneg _ hm.ne'

theorem offset_lt (hm : 0 < m) (base x : ℤ) : offset m base x < m :=
  Int.emod_lt_of_pos _ hm

@[simp] theorem offset_self (m base : ℤ) : offset m base base = 0 := by simp [offset]

/-- Reducing the base modulo the circumference changes nothing. -/
@[simp] theorem offset_emod_base (m base x : ℤ) : offset m (base % m) x = offset m base x := by
  simp [offset, Int.sub_emod]

/-- Moving the base forward by no more than the offset shortens the walk by that much. -/
theorem offset_add_base (hm : 0 < m) {base x k : ℤ} (hk : 0 ≤ k) (hle : k ≤ offset m base x) :
    offset m (base + k) x = offset m base x - k := by
  have hlt := offset_lt hm base x
  have hcongr : (x - (base + k)) % m = ((x - base) % m - k) % m := by
    rw [Int.sub_emod ((x - base) % m) k m, Int.emod_emod_of_dvd _ dvd_rfl, ← Int.sub_emod]
    congr 1
    ring
  unfold offset at *
  rw [hcongr, Int.emod_eq_of_lt] <;> omega

/-- The distance between two points, seen from a base behind both. -/
theorem offset_of_le (hm : 0 < m) {base x y : ℤ} (hle : offset m base x ≤ offset m base y) :
    offset m x y = offset m base y - offset m base x := by
  have hx : offset m (base + offset m base x) y = offset m x y := by
    have hcongr : (base + offset m base x) % m = x % m := by
      rw [offset, Int.add_emod, Int.emod_emod_of_dvd _ dvd_rfl, ← Int.add_emod]
      congr 1
      ring
    rw [← offset_emod_base m (base + offset m base x), hcongr, offset_emod_base]
  rw [← hx, offset_add_base hm (offset_nonneg hm base x) hle]

theorem offset_inj (hm : 0 < m) {base x y : ℤ} (h : offset m base x = offset m base y)
    (hx : 0 ≤ x ∧ x < m) (hy : 0 ≤ y ∧ y < m) : x = y := by
  have hxy := offset_of_le hm h.le
  rw [h, sub_self] at hxy
  have hmod : y % m = x % m := Int.emod_eq_emod_iff_emod_sub_eq_zero.mpr hxy
  rwa [Int.emod_eq_of_lt hx.1 hx.2, Int.emod_eq_of_lt hy.1 hy.2, eq_comm] at hmod

/-- Walks add up as long as they do not complete the circle. -/
theorem offset_trans (hm : 0 < m) {a b c : ℤ} (h : offset m a b + offset m b c < m) :
    offset m a c = offset m a b + offset m b c := by
  have h0 := offset_nonneg hm a b
  have h1 := offset_nonneg hm b c
  have hcongr : (c - a) % m = ((b - a) % m + (c - b) % m) % m := by
    rw [← Int.add_emod]
    congr 1
    ring
  unfold offset at *
  rw [hcongr, Int.emod_eq_of_lt] <;> omega

end SerialOrder
