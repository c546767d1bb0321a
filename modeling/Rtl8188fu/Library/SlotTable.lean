import Mathlib

/-! # Tables of slots that are looked up by key

A slot is empty when it has the key `free`. Every other key stands in one slot at most, and
an entry is found under its key wherever it stands.
-/
namespace SlotTable
variable {ε κ : Type*} {key : ε → κ} {free : κ} {t : List ε} {k : κ} {e x : ε} {i : ℕ}

/-- The keys of the slots in use differ. -/
def Distinct (key : ε → κ) (free : κ) (t : List ε) : Prop :=
  ∀ (i j : ℕ) a b, t[i]? = some a → t[j]? = some b → key a = key b → key a ≠ free → i = j

theorem distinct_replicate (n : ℕ) (h : key e = free) : Distinct key free (List.replicate n e) := by
  intro i j a b ha _ _ hfree
  have := List.mem_of_getElem? ha
  rw [List.mem_replicate] at this
  exact absurd (this.2 ▸ h) hfree

/-- Overwriting a slot by an entry whose key stands in no other slot -/
theorem Distinct.set (hd : Distinct key free t)
    (hnew : ∀ j a, j ≠ i → t[j]? = some a → key a = key e → key e = free) :
    Distinct key free (t.set i e) := by
  intro j l a b ha hb hab hfree
  rw [List.getElem?_set] at ha hb
  split at ha
  · rename_i hij
    split at hb
    · rename_i hil
      rw [← hij, ← hil]
    · rename_i hil
      split at ha
      · cases ha
        exact absurd (hnew l b (Ne.symm hil) hb hab.symm) hfree
      · cases ha
  · rename_i hij
    split at hb
    · split at hb
      · cases hb
        exact absurd (hnew j a (Ne.symm hij) ha hab) (hab ▸ hfree)
      · cases hb
    · exact hd j l a b ha hb hab hfree

variable [DecidableEq κ]

def lookup (key : ε → κ) (t : List ε) (k : κ) : Option ε := t.find? (key · = k)

theorem lookup_none : lookup key t k = none ↔ ∀ x ∈ t, key x ≠ k := by
  simp [lookup]

theorem exists_of_lookup (h : lookup key t k = some x) : key x = k ∧ ∃ i : ℕ, t[i]? = some x := by
  refine ⟨by simpa using List.find?_some h,?_⟩
  exact List.mem_iff_getElem?.mp (List.mem_of_find?_eq_some h)

theorem Distinct.lookup_eq (hd : Distinct key free t) (hi : t[i]? = some x) (hfree : key x ≠ free) :
    lookup key t (key x) = some x := by
  cases h : lookup key t (key x) with
  | none => exact absurd rfl (lookup_none.mp h x (List.mem_of_getElem? hi))
  | some y =>
    obtain ⟨hkey,j,hj⟩ := exists_of_lookup h
    obtain rfl := hd i j x y hi hj hkey.symm hfree
    rw [← hj, hi]

/-- What is found after a slot was overwritten: the entry of the slot is no longer there, and
the others are found as before. -/
theorem Distinct.lookup_set (hd : Distinct key free t) (hx : t[i]? = some x) (hk : k ≠ free)
    (hnew : ∀ j a, j ≠ i → t[j]? = some a → key a = key e → key e = free) :
    lookup key (t.set i e) k = if key e = k then some e else if key x = k then none else lookup key t k := by
  have hlt : i < t.length := (List.getElem?_eq_some_iff.mp hx).1
  have hset : (t.set i e)[i]? = some e := by rw [List.getElem?_set, if_pos rfl, if_pos hlt]
  have hd' := hd.set hnew
  split
  · rename_i he
    rw [← he]
    exact hd'.lookup_eq hset (he ▸ hk)
  · rename_i he
    have hother : ∀ j y, (t.set i e)[j]? = some y → key y = k → j ≠ i ∧ t[j]? = some y := by
      intro j y hj hy
      have hji : i ≠ j := by
        rintro rfl
        rw [hset] at hj
        cases hj
        exact he hy
      rw [List.getElem?_set, if_neg hji] at hj
      exact ⟨Ne.symm hji,hj⟩
    split
    · rename_i hxk
      rw [lookup_none]
      intro y hy hyk
      obtain ⟨j,hj⟩ := List.mem_iff_getElem?.mp hy
      obtain ⟨hji,hj⟩ := hother j y hj hyk
      exact hji (hd j i y x hj hx (hyk.trans hxk.symm) (hyk ▸ hk))
    · rename_i hxk
      cases h : lookup key t k with
      | none =>
        rw [lookup_none] at h ⊢
        intro y hy hyk
        obtain ⟨j,hj⟩ := List.mem_iff_getElem?.mp hy
        exact h y (List.mem_of_getElem? (hother j y hj hyk).2) hyk
      | some y =>
        obtain ⟨hyk,j,hj⟩ := exists_of_lookup h
        have hij : i ≠ j := by
          rintro rfl
          rw [hx] at hj
          cases hj
          exact hxk hyk
        have hj' : (t.set i e)[j]? = some y := by rw [List.getElem?_set, if_neg hij, hj]
        rw [← hyk]
        exact hd'.lookup_eq hj' (hyk ▸ hk)

end SlotTable
