import Mathlib

/-! # How often the last value of a list stands at its end -/
namespace Streak
variable {α : Type*} [DecidableEq α] {l : List α} {a b : α} {n : ℕ}

/-- How many times `a` stands at the end of `l` without a break -/
def streak (l : List α) (a : α) : ℕ := (l.rtakeWhile fun x => x = a).length

@[simp] theorem streak_concat_self (l : List α) (a : α) : streak (l ++ [a]) a = streak l a + 1 := by
  rw [streak, List.rtakeWhile_concat, if_pos (decide_eq_true rfl), List.length_append]
  rfl

theorem streak_concat_of_ne (h : b ≠ a) : streak (l ++ [b]) a = 0 := by
  rw [streak, List.rtakeWhile_concat, if_neg (by simpa using h)]
  rfl

/-- The last `n` values are all `a` exactly when the streak is that long. -/
theorem replicate_suffix_iff : List.replicate n a <:+ l ↔ n ≤ streak l a := by
  induction l using List.reverseRecOn generalizing n with
  | nil => rw [List.suffix_nil, List.replicate_eq_nil_iff, streak, List.rtakeWhile_nil, List.length_nil, Nat.le_zero]
  | append_singleton l b ih =>
    cases n with
    | zero => simp
    | succ n =>
      rw [List.replicate_succ', List.suffix_concat_iff]
      by_cases h : b = a
      · subst h
        rw [streak_concat_self, Nat.add_le_add_iff_right, ← ih]
        constructor
        · rintro (hnil | ⟨t,ht,hsuffix⟩)
          · simp at hnil
          · rwa [List.append_cancel_right ht]
        · intro hsuffix
          exact Or.inr ⟨_,rfl,hsuffix⟩
      · rw [streak_concat_of_ne h]
        constructor
        · rintro (hnil | ⟨t,ht,-⟩)
          · simp at hnil
          · exact absurd (List.singleton_inj.mp (List.append_inj' ht rfl).2).symm h
        · intro hle
          omega

end Streak
