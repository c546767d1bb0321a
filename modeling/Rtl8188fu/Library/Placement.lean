import Mathlib

/-! # Items in places

A family of lists indexed by places, with every item of a set in exactly one of the
lists and there once. Moving items between two places keeps this, and so does taking
one item from wherever it is to the end of one list.
-/
namespace Placement
variable {ι Q : Type*} {U : Set ι} {C D : Q → List ι}

/-- Every item of `U` is in a place, and nothing is in two places or twice in one. -/
structure Once (U : Set ι) (C : Q → List ι) : Prop where
  nodup : ∀ p, (C p).Nodup
  apart : ∀ {p q i}, i ∈ C p → i ∈ C q → p = q
  cover : ∀ i ∈ U, ∃ p, i ∈ C p

theorem Once.exchange (h : Once U C) {p q : Q} (hpq : p ≠ q) (hperm : (D p ++ D q).Perm (C p ++ C q))
    (hrest : ∀ r, r ≠ p → r ≠ q → D r = C r) : Once U D := by
  have hnodup : (D p ++ D q).Nodup := by
    refine hperm.nodup_iff.mpr (List.nodup_append.mpr ⟨h.nodup p,h.nodup q,?_⟩)
    rintro i hi _ hj rfl
    exact hpq (h.apart hi hj)
  obtain ⟨hDp,hDq,hdisj⟩ := List.nodup_append.mp hnodup
  have hmem : ∀ i, (i ∈ D p ∨ i ∈ D q) ↔ (i ∈ C p ∨ i ∈ C q) := by
    intro i
    rw [← List.mem_append, hperm.mem_iff, List.mem_append]
  -- a third place shares nothing with the two
  have hthird : ∀ r i, r ≠ p → r ≠ q → i ∈ D r → ¬ (i ∈ D p ∨ i ∈ D q) := by
    intro r i hrp hrq hi hpq'
    rw [hrest r hrp hrq] at hi
    rcases (hmem i).mp hpq' with hip | hiq
    · exact hrp (h.apart hi hip)
    · exact hrq (h.apart hi hiq)
  refine ⟨?_,?_,?_⟩
  · intro r
    rcases eq_or_ne r p with rfl | hrp
    · exact hDp
    · rcases eq_or_ne r q with rfl | hrq
      · exact hDq
      · rw [hrest r hrp hrq]
        exact h.nodup r
  · intro r s i hr hs
    rcases eq_or_ne r p with rfl | hrp <;> rcases eq_or_ne s r with rfl | hsr
    · rfl
    · rcases eq_or_ne s q with rfl | hsq
      · exact absurd rfl (hdisj i hr i hs)
      · exact absurd (Or.inl hr) (hthird s i hsr hsq hs)
    · rfl
    · rcases eq_or_ne r q with rfl | hrq
      · rcases eq_or_ne s p with rfl | hsp
        · exact absurd rfl (hdisj i hs i hr)
        · exact absurd (Or.inr hr) (hthird s i hsp hsr hs)
      · rcases eq_or_ne s p with rfl | hsp
        · exact absurd (Or.inl hs) (hthird r i hrp hrq hr)
        · rcases eq_or_ne s q with rfl | hsq
          · exact absurd (Or.inr hs) (hthird r i hrp hrq hr)
          · rw [hrest r hrp hrq] at hr
            rw [hrest s hsp hsq] at hs
            exact h.apart hr hs
  · intro i hi
    obtain ⟨r,hr⟩ := h.cover i hi
    by_cases hrpq : r = p ∨ r = q
    · have hC : i ∈ C p ∨ i ∈ C q := by
        rcases hrpq with rfl | rfl
        · exact Or.inl hr
        · exact Or.inr hr
      rcases (hmem i).mpr hC with hp | hq
      · exact ⟨p,hp⟩
      · exact ⟨q,hq⟩
    · obtain ⟨hrp,hrq⟩ := not_or.mp hrpq
      exact ⟨r,(hrest r hrp hrq).symm ▸ hr⟩

theorem Once.perm (h : Once U C) (hperm : ∀ p, (D p).Perm (C p)) : Once U D := by
  refine ⟨fun p => (hperm p).nodup_iff.mpr (h.nodup p),?_,?_⟩
  · intro p q i hp hq
    exact h.apart ((hperm p).mem_iff.mp hp) ((hperm q).mem_iff.mp hq)
  · intro i hi
    obtain ⟨p,hp⟩ := h.cover i hi
    exact ⟨p,(hperm p).mem_iff.mpr hp⟩

/-- The items of several places are gathered in one more place. -/
theorem Once.gather [DecidableEq Q] (h : Once U C) {q : Q} {ps : List Q} (hps : ps.Nodup) (hq : q ∉ ps) :
    Once U (fun r => if r ∈ ps then [] else if r = q then ps.flatMap C ++ C q else C r) := by
  induction ps generalizing C with
  | nil =>
    refine h.perm ?_
    intro r
    rcases eq_or_ne r q with rfl | hr
    · simp
    · simp [hr]
  | cons p ps ih =>
    obtain ⟨hp,hps⟩ := List.nodup_cons.mp hps
    obtain ⟨hqp,hq⟩ := List.ne_and_not_mem_of_not_mem_cons hq
    have hmove : Once U (fun r => if r = p then [] else if r = q then C p ++ C q else C r) := by
      refine h.exchange (Ne.symm hqp) ?_ ?_
      · simp [hqp]
      · intro r hrp hrq
        simp [hrp, hrq]
    refine (ih hmove hps hq).perm ?_
    have hflat : ps.flatMap (fun r => if r = p then [] else if r = q then C p ++ C q else C r) =
        ps.flatMap C := by
      refine List.flatMap_congr ?_
      intro r hr
      have hrp : r ≠ p := fun h => hp (h ▸ hr)
      have hrq : r ≠ q := fun h => hq (h ▸ hr)
      simp [hrp, hrq]
    intro r
    by_cases hr : r ∈ ps
    · simp [hr]
    · rcases eq_or_ne r p with rfl | hrp
      · simp [hr, hqp.symm]
      · rcases eq_or_ne r q with rfl | hrq
        · simp only [List.mem_cons, hrp, hr, or_self, ↓reduceIte, hflat, List.flatMap_cons]
          rw [← List.append_assoc]
          exact (List.perm_append_comm).append_right _
        · simp [hr, hrp, hrq]

/-- One item goes from wherever it is to the end of the list of `q`. -/
theorem Once.relocate [DecidableEq ι] (h : Once U C) (q : Q) (i : ι)
    (hq : D q = (C q).filter (· ≠ i) ++ [i]) (hrest : ∀ r, r ≠ q → D r = (C r).filter (· ≠ i)) :
    Once U D := by
  have hmem : ∀ r j, j ∈ D r ↔ (j ∈ C r ∧ j ≠ i) ∨ (r = q ∧ j = i) := by
    intro r j
    rcases eq_or_ne r q with rfl | hr
    · simp [hq]
    · simp [hrest r hr, hr]
  refine ⟨?_,?_,?_⟩
  · intro r
    rcases eq_or_ne r q with rfl | hr
    · rw [hq]
      refine List.nodup_append.mpr ⟨(h.nodup r).filter _,List.nodup_singleton i,?_⟩
      intro j hj k hk
      rw [List.mem_singleton.mp hk]
      simpa using (List.mem_filter.mp hj).2
    · rw [hrest r hr]
      exact (h.nodup r).filter _
  · intro r s j hr hs
    rcases (hmem r j).mp hr with ⟨hr,hj⟩ | ⟨rfl,rfl⟩ <;> rcases (hmem s j).mp hs with ⟨hs,hk⟩ | ⟨rfl,hk⟩
    · exact h.apart hr hs
    · exact absurd hk hj
    · exact absurd rfl hk
    · rfl
  · intro j hj
    obtain ⟨r,hr⟩ := h.cover j hj
    rcases eq_or_ne j i with rfl | hji
    · exact ⟨q,(hmem q j).mpr (Or.inr ⟨rfl,rfl⟩)⟩
    · exact ⟨r,(hmem r j).mpr (Or.inl ⟨hr,hji⟩)⟩

end Placement
