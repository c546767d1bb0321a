import Mathlib

/-! # Looking up the members of one list while going forward through another

The search for a member begins where the last one was found, so members that stand in another order there
are missed.
-/
namespace InOrder
open scoped List
variable {α : Type*} [DecidableEq α]

/-- The members of the first list that are found in the second one, going forward -/
def found : List α → List α → List α
  | [], _ => []
  | x :: xs, ys => if x ∈ ys then x :: found xs (ys.dropWhile (· ≠ x)) else found xs ys

variable {x : α} {xs ys zs : List α}

theorem length_found (xs ys : List α) : (found xs ys).length ≤ xs.length := by
  induction xs generalizing ys with
  | nil => exact Nat.le_refl _
  | cons x xs ih =>
    unfold found
    split
    · exact Nat.succ_le_succ (ih _)
    · exact (ih _).trans (Nat.le_succ _)

/-- Members that are nowhere to be found do not matter. -/
theorem found_filter (h : ys <:+ zs) : found xs ys = found (xs.filter (· ∈ zs)) ys := by
  induction xs generalizing ys with
  | nil => rfl
  | cons x xs ih =>
    by_cases hx : x ∈ ys
    · have hz : x ∈ zs := h.subset hx
      have hdrop : ys.dropWhile (· ≠ x) <:+ zs := (List.dropWhile_suffix _).trans h
      simp only [found, hx, if_true, List.filter_cons, decide_eq_true hz, ih hdrop]
    · by_cases hz : x ∈ zs
      · simp only [found, hx, if_false, List.filter_cons, decide_eq_true hz, if_true, ih h]
      · simp only [found, hx, if_false, List.filter_cons, decide_eq_false hz, Bool.false_eq_true, ih h]

omit [DecidableEq α] in
theorem cons_sublist_first {pre post l : List α} (hpre : x ∉ pre) : x :: l <+ pre ++ x :: post ↔ l <+ post := by
  induction pre with
  | nil => exact List.cons_sublist_cons
  | cons p pre ih =>
    have hp : x ≠ p := fun h => hpre (h ▸ List.mem_cons_self)
    have hskip : x :: l <+ p :: (pre ++ x :: post) ↔ x :: l <+ pre ++ x :: post := by
      rw [List.cons_sublist_cons']
      exact or_iff_left fun h => hp h.1
    exact hskip.trans (ih fun h => hpre (List.mem_cons_of_mem _ h))

theorem destutter'_head (xs : List α) : ∃ l, xs.destutter' (· ≠ ·) x = x :: l := by
  induction xs with
  | nil => exact ⟨[],rfl⟩
  | cons y xs ih =>
    by_cases hxy : x ≠ y
    · exact ⟨_,List.destutter'_cons_pos xs hxy⟩
    · obtain ⟨l,hl⟩ := ih
      exact ⟨l,by rw [List.destutter'_cons_neg xs hxy, hl]⟩

/-- A repetition of the member just found takes no further place. -/
theorem destutter_first {pre post : List α} (hpre : x ∉ pre) :
    xs.destutter (· ≠ ·) <+ x :: post ↔ (x :: xs).destutter (· ≠ ·) <+ pre ++ x :: post := by
  cases xs with
  | nil =>
    have : [x].destutter (· ≠ ·) = [x] := rfl
    rw [this, cons_sublist_first hpre]
    exact iff_of_true (List.nil_sublist _) (List.nil_sublist _)
  | cons y xs =>
    obtain ⟨l,hl⟩ := @destutter'_head _ _ y xs
    by_cases hxy : x ≠ y
    · rw [List.destutter_cons_cons, if_pos hxy, List.destutter_cons', cons_sublist_first hpre, hl,
        List.cons_sublist_cons']
      exact or_iff_left fun h => hxy h.1.symm
    · obtain rfl : x = y := not_not.mp hxy
      rw [List.destutter_cons_cons, if_neg hxy, List.destutter_cons', hl, cons_sublist_first hpre,
        List.cons_sublist_cons]

theorem found_eq_self_iff : found xs ys = xs ↔ xs.destutter (· ≠ ·) <+ ys := by
  induction xs generalizing ys with
  | nil => exact iff_of_true rfl (List.nil_sublist _)
  | cons x xs ih =>
    by_cases hx : x ∈ ys
    · obtain ⟨pre,post,rfl,hpre⟩ := List.eq_append_cons_of_mem hx
      have hdrop : (pre ++ x :: post).dropWhile (· ≠ x) = x :: post := by
        rw [List.dropWhile_append_of_pos fun y hy => by simpa using ne_of_mem_of_not_mem hy hpre]
        exact List.dropWhile_cons_of_neg (by simp)
      rw [found, if_pos hx, hdrop, List.cons_inj_right, ih]
      exact destutter_first hpre
    · rw [found, if_neg hx]
      refine iff_of_false (fun h => ?_) fun h => hx ?_
      · have := congrArg List.length h
        have := length_found xs ys
        simp only [List.length_cons] at *
        omega
      · rw [List.destutter_cons'] at h
        exact h.subset (List.mem_destutter' xs _ x)

/-- All members that are there are found exactly when they stand in this order, repetitions in a row counting once. -/
theorem found_eq_filter_iff :
    found xs ys = xs.filter (· ∈ ys) ↔ (xs.filter (· ∈ ys)).destutter (· ≠ ·) <+ ys := by
  rw [found_filter List.suffix_rfl]
  exact found_eq_self_iff

end InOrder
