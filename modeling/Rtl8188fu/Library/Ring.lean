import Mathlib

/-! # Windows of a ring of cells

`n` cells from `head` on, with the cell `0` behind the last one. While `n` is less than the size of the ring, `head` and
the place behind the window tell how long the window is.
-/
namespace Ring
variable {α : Type*} {cells : ℕ → α} {size head n i j : ℕ} {a : α}

/-- What the window holds, the cell at `head` first -/
def held (cells : ℕ → α) (size head n : ℕ) : List α := (List.range n).map fun i => cells ((head + i) % size)

@[simp] theorem held_zero : held cells size head 0 = [] := rfl

@[simp] theorem length_held : (held cells size head n).length = n := by simp [held]

theorem place_inj (hi : i < size) (hj : j < size) (h : (head + i) % size = (head + j) % size) : i = j :=
  Nat.ModEq.eq_of_lt_of_lt (Nat.ModEq.add_left_cancel' head h) hi hj

theorem held_update (hn : n < size) :
    held (Function.update cells ((head + n) % size) a) size head n = held cells size head n := by
  apply List.map_congr_left
  intro i hi
  rw [List.mem_range] at hi
  apply Function.update_of_ne
  intro h
  have := place_inj (by omega) hn h
  omega

theorem held_push (hn : n < size) :
    held (Function.update cells ((head + n) % size) a) size head (n + 1) = held cells size head n ++ [a] := by
  have hsame := @held_update _ cells _ head _ a hn
  rw [held, List.range_succ, List.map_append, ← held, hsame, List.map_singleton, Function.update_self]

theorem held_succ : held cells size head (n + 1) = cells (head % size) :: held cells size ((head + 1) % size) n := by
  rw [held, List.range_succ_eq_map, List.map_cons, List.map_map, held]
  congr 1
  apply List.map_congr_left
  intro i _
  rw [Function.comp_apply, Nat.mod_add_mod, Nat.add_assoc, Nat.add_comm 1 i]

theorem place_eq_head_iff (hhead : head < size) (hn : n < size) : (head + n) % size = head ↔ n = 0 := by
  constructor
  · intro h
    exact place_inj hn (by omega) (by rw [h, Nat.add_zero, Nat.mod_eq_of_lt hhead])
  · rintro rfl
    rw [Nat.add_zero, Nat.mod_eq_of_lt hhead]

/-- The place behind a window is the one in front of `head` when a single cell is left. -/
theorem place_succ_eq_head_iff (hhead : head < size) (hn : n < size) : ((head + n) % size + 1) % size = head ↔
    n + 1 = size := by
  rw [Nat.mod_add_mod, Nat.add_assoc]
  constructor
  · intro h
    by_contra hne
    have := (place_eq_head_iff hhead (by omega)).mp h
    omega
  · intro h
    rw [h, Nat.add_mod_right, Nat.mod_eq_of_lt hhead]

end Ring
