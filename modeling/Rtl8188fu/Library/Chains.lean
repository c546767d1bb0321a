import Mathlib

/-! # A hash table of chains

Each hash value has a chain of pointers. The key of a pointer is read from memory, so it is a
function of its own.
-/
namespace Chains
variable {κ π : Type*}

/-- The pointer is in some chain. -/
def Live (chains : ℕ → List π) (p : π) : Prop := ∃ i, p ∈ chains i

/-- Every pointer is in the chain of its key, and in no chain twice; no two have the same key. -/
structure Ok (hash : κ → ℕ) (key : π → κ) (chains : ℕ → List π) : Prop where
  placed : ∀ i, ∀ p ∈ chains i, hash (key p) = i
  nodup : ∀ i, (chains i).Nodup
  distinct : ∀ i, ∀ p ∈ chains i, ∀ q ∈ chains i, key p = key q → p = q

/-- The first pointer with a key in the chain of the key -/
def find [DecidableEq κ] (hash : κ → ℕ) (key : π → κ) (chains : ℕ → List π) (k : κ) : Option π :=
  (chains (hash k)).find? fun p => decide (key p = k)

/-- A pointer in front of the chain of its key -/
def push (hash : κ → ℕ) (key : π → κ) (chains : ℕ → List π) (p : π) : ℕ → List π :=
  Function.update chains (hash (key p)) (p :: chains (hash (key p)))

variable {hash : κ → ℕ} {key key' : π → κ} {chains chains' : ℕ → List π} {p q : π} {k : κ}

theorem Ok.empty (hash : κ → ℕ) (key : π → κ) : Ok hash key fun _ => [] :=
  ⟨fun _ _ h => absurd h List.not_mem_nil,fun _ => List.nodup_nil,fun _ _ h => absurd h List.not_mem_nil⟩

theorem Ok.mem (h : Ok hash key chains) (hp : Live chains p) : p ∈ chains (hash (key p)) := by
  obtain ⟨i,hi⟩ := hp
  rw [h.placed i p hi]
  exact hi

theorem Ok.unique (h : Ok hash key chains) (hp : Live chains p) (hq : Live chains q) (hk : key p = key q) : p = q := by
  apply h.distinct _ p (h.mem hp) q ?_ hk
  rw [hk]
  exact h.mem hq

theorem find_eq_some [DecidableEq κ] (h : Ok hash key chains) :
    find hash key chains k = some p ↔ Live chains p ∧ key p = k := by
  constructor
  · intro hf
    have hmem := List.mem_of_find?_eq_some hf
    have hkey := List.find?_some hf
    exact ⟨⟨_,hmem⟩,of_decide_eq_true hkey⟩
  · rintro ⟨hp,rfl⟩
    cases hf : find hash key chains (key p) with
    | none =>
      have hnone := List.find?_eq_none.mp hf p (h.mem hp)
      exact absurd (decide_eq_true rfl) hnone
    | some q =>
      have hmem := List.mem_of_find?_eq_some hf
      have hkey := List.find?_some hf
      rw [h.unique hp ⟨_,hmem⟩ (of_decide_eq_true hkey).symm]

theorem find_eq_none [DecidableEq κ] (h : Ok hash key chains) :
    find hash key chains k = none ↔ ∀ p, Live chains p → key p ≠ k := by
  constructor
  · intro hf p hp hk
    rw [(find_eq_some h).mpr ⟨hp,hk⟩] at hf
    cases hf
  · intro hall
    cases hf : find hash key chains k with
    | none => rfl
    | some q =>
      obtain ⟨hq,hk⟩ := (find_eq_some h).mp hf
      exact absurd hk (hall q hq)

theorem Ok.congr (h : Ok hash key chains) (hkey : ∀ p, Live chains p → key' p = key p) : Ok hash key' chains where
  placed i p hp := by
    rw [hkey p ⟨i,hp⟩]
    exact h.placed i p hp
  nodup := h.nodup
  distinct i p hp q hq hk := by
    rw [hkey p ⟨i,hp⟩, hkey q ⟨i,hq⟩] at hk
    exact h.distinct i p hp q hq hk

theorem Live.of_sublist (hsub : ∀ i, (chains' i).Sublist (chains i)) (hp : Live chains' p) : Live chains p :=
  hp.imp fun i hi => (hsub i).subset hi

theorem Ok.sublist (h : Ok hash key chains) (hsub : ∀ i, (chains' i).Sublist (chains i)) : Ok hash key chains' where
  placed i p hp := h.placed i p ((hsub i).subset hp)
  nodup i := (h.nodup i).sublist (hsub i)
  distinct i p hp q hq := h.distinct i p ((hsub i).subset hp) q ((hsub i).subset hq)

theorem live_push : Live (push hash key chains p) q ↔ q = p ∨ Live chains q := by
  constructor
  · rintro ⟨i,hi⟩
    rw [push] at hi
    by_cases h : i = hash (key p)
    · rw [h, Function.update_self, List.mem_cons] at hi
      exact hi.imp id fun hq => ⟨_,hq⟩
    · rw [Function.update_of_ne h] at hi
      exact Or.inr ⟨i,hi⟩
  · rintro (rfl | ⟨i,hi⟩)
    · refine ⟨hash (key q),?_⟩
      rw [push, Function.update_self]
      exact List.mem_cons_self
    · refine ⟨i,?_⟩
      rw [push]
      by_cases h : i = hash (key p)
      · rw [h, Function.update_self]
        rw [h] at hi
        exact List.mem_cons_of_mem _ hi
      · rw [Function.update_of_ne h]
        exact hi

theorem Ok.push (h : Ok hash key chains) (hp : ¬ Live chains p) (hnew : ∀ q, Live chains q → key q ≠ key p) :
    Ok hash key (push hash key chains p) where
  placed i q hq := by
    rw [Chains.push] at hq
    by_cases hi : i = hash (key p)
    · rw [hi, Function.update_self, List.mem_cons] at hq
      rcases hq with rfl | hq
      · exact hi.symm
      · exact (h.placed _ q hq).trans hi.symm
    · rw [Function.update_of_ne hi] at hq
      exact h.placed i q hq
  nodup i := by
    rw [Chains.push]
    by_cases hi : i = hash (key p)
    · rw [hi, Function.update_self]
      exact List.nodup_cons.mpr ⟨fun hmem => hp ⟨_,hmem⟩,h.nodup _⟩
    · rw [Function.update_of_ne hi]
      exact h.nodup i
  distinct i q hq r hr hk := by
    have hq' : q = p ∨ Live chains q := live_push.mp ⟨i,hq⟩
    have hr' : r = p ∨ Live chains r := live_push.mp ⟨i,hr⟩
    rcases hq' with rfl | hq' <;> rcases hr' with rfl | hr'
    · rfl
    · exact absurd hk.symm (hnew r hr')
    · exact absurd hk (hnew q hq')
    · exact h.unique hq' hr' hk

end Chains
