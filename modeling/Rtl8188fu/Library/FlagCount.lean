import Mathlib

/-! # Counters of flagged members

Each member has a flag of each kind, and each kind has a counter that goes up and down with
the flags. The counters are right when each is the number of listed members with the flag.
-/

structure FlagCount (κ ι : Type*) where
  flag : κ → ι → Bool
  num : κ → ℤ

namespace FlagCount
variable {κ ι : Type*}

def zero : FlagCount κ ι := ⟨fun _ _ => false,fun _ => 0⟩

/-- The counters are the numbers of listed members with the flags, and no other member has a flag. -/
structure Counts (l : List ι) (c : FlagCount κ ι) : Prop where
  count : ∀ k, c.num k = l.countP (c.flag k)
  clear : ∀ k, ∀ i ∉ l, c.flag k i = false

section Listed
variable {c : FlagCount κ ι} {l : List ι} {k : κ} {i : ι}

theorem Counts.zero (l : List ι) : Counts l (.zero : FlagCount κ ι) where
  count _ := by simp [FlagCount.zero]
  clear _ _ _ := rfl

theorem Counts.nonneg (h : Counts l c) (k : κ) : 0 ≤ c.num k := by
  rw [h.count k]
  exact Int.natCast_nonneg _

theorem Counts.pos_of_flag (h : Counts l c) (hk : c.flag k i = true) : 0 < c.num k := by
  have hi : i ∈ l := by
    by_contra hi
    rw [h.clear k i hi] at hk
    cases hk
  rw [h.count k]
  exact_mod_cast List.countP_pos_iff.mpr ⟨i,hi,hk⟩

theorem Counts.append (h : Counts l c) (hi : i ∉ l) : Counts (l ++ [i]) c := by
  refine ⟨fun k => ?_,fun k j hj => ?_⟩
  · rw [h.count k, List.countP_append]
    simp [h.clear k i hi]
  · exact h.clear k j fun hm => hj (List.mem_append_left _ hm)

end Listed

section Reset
variable [DecidableEq ι] {c : FlagCount κ ι} {l : List ι} {i : ι}

/-- Clear all flags of a member without counting. -/
def reset (c : FlagCount κ ι) (i : ι) : FlagCount κ ι :=
  { c with flag := fun k => Function.update (c.flag k) i false }

theorem reset_eq (h : ∀ k, c.flag k i = false) : c.reset i = c := by
  obtain ⟨flag,num⟩ := c
  simp only [reset, mk.injEq, and_true]
  funext k
  rw [← h k, Function.update_eq_self]

theorem Counts.erase (h : Counts l c) (hi : ∀ k, c.flag k i = false) : Counts (l.erase i) c := by
  refine ⟨fun k => ?_,fun k j hj => ?_⟩
  · rw [h.count k, List.countP_erase]
    simp [hi k]
  · by_cases hji : j = i
    · exact hji ▸ hi k
    · exact h.clear k j fun hm => hj ((List.mem_erase_of_ne hji).mpr hm)

theorem countP_update {p : ι → Bool} {v : Bool} (hl : l.Nodup) (hi : i ∈ l) (hv : p i ≠ v) :
    (l.countP (Function.update p i v) : ℤ) = if v then (l.countP p : ℤ) + 1 else (l.countP p : ℤ) - 1 := by
  induction l with
  | nil => cases hi
  | cons a l ih =>
    obtain ⟨ha,hl⟩ := List.nodup_cons.mp hl
    rw [List.countP_cons, List.countP_cons]
    by_cases hai : a = i
    · subst hai
      have hrest : l.countP (Function.update p a v) = l.countP p := by
        refine List.countP_congr fun x hx => ?_
        have hxa : x ≠ a := fun hxa => ha (hxa ▸ hx)
        rw [Function.update_of_ne hxa]
      rw [hrest, Function.update_self]
      cases v with
      | false => simp [Bool.eq_true_of_not_eq_false hv]
      | true => simp [Bool.eq_false_of_not_eq_true hv]
    · have hstep := ih hl ((List.mem_cons.mp hi).resolve_left fun h => hai h.symm)
      rw [Function.update_of_ne hai]
      push_cast
      rw [hstep]
      split <;> ring

end Reset

section Put
variable [DecidableEq κ] [DecidableEq ι] {c : FlagCount κ ι} {l : List ι} {k k' : κ} {i j : ι}

/-- Set or clear a flag, and count it when it changes. -/
def put (c : FlagCount κ ι) (k : κ) (i : ι) (v : Bool) : FlagCount κ ι :=
  if c.flag k i = v then c
  else
    { flag := Function.update c.flag k (Function.update (c.flag k) i v)
      num := Function.update c.num k (if v then c.num k + 1 else c.num k - 1) }

@[simp] theorem put_flag_self (v : Bool) : (c.put k i v).flag k i = v := by
  rw [put]
  split
  · assumption
  · simp

theorem put_flag_of_ne (v : Bool) (h : j ≠ i) : (c.put k i v).flag k' j = c.flag k' j := by
  rw [put]
  split
  · rfl
  · by_cases hk : k' = k
    · subst hk
      simp [h]
    · simp [hk]

theorem put_flag_of_ne_kind (v : Bool) (h : k' ≠ k) : (c.put k i v).flag k' = c.flag k' := by
  rw [put]
  split
  · rfl
  · simp [h]

theorem put_num_of_ne_kind (v : Bool) (h : k' ≠ k) : (c.put k i v).num k' = c.num k' := by
  rw [put]
  split
  · rfl
  · simp [h]

theorem put_num_self (v : Bool) :
    (c.put k i v).num k = if c.flag k i = v then c.num k else if v then c.num k + 1 else c.num k - 1 := by
  rw [put]
  split
  · rfl
  · simp

theorem Counts.put_mem (h : Counts l c) (hl : l.Nodup) (hi : i ∈ l) (v : Bool) : Counts l (c.put k i v) := by
  refine ⟨fun k' => ?_,fun k' j hj => ?_⟩
  · by_cases hk : k' = k
    · subst hk
      rw [put_num_self, h.count k']
      by_cases hv : c.flag k' i = v
      · rw [if_pos hv, FlagCount.put, if_pos hv]
      · rw [if_neg hv, FlagCount.put, if_neg hv]
        simp only [Function.update_self]
        exact (countP_update hl hi hv).symm
    · rw [put_num_of_ne_kind v hk, put_flag_of_ne_kind v hk, h.count k']
  · have hji : j ≠ i := fun hji => hj (hji ▸ hi)
    rw [put_flag_of_ne v hji]
    exact h.clear k' j hj

/-- A listed member gets a flag, or any member loses one. -/
theorem Counts.put (h : Counts l c) (hl : l.Nodup) {v : Bool} (hi : v = true → i ∈ l) : Counts l (c.put k i v) := by
  by_cases hmem : i ∈ l
  · exact h.put_mem hl hmem v
  · have hv : v = false := Bool.eq_false_of_not_eq_true fun hv => hmem (hi hv)
    rw [FlagCount.put, hv, if_pos (h.clear k i hmem)]
    exact h

end Put
end FlagCount
