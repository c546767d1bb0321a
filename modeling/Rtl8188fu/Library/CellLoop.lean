import Mathlib

/-! # Loops over the cells of a table

A loop takes its steps one after another over a table. When each step has cells of its own,
reads and writes no others, and no two steps share one, the loop does to a cell what its own
step does to it in the table at the beginning.
-/
namespace CellLoop
variable {ι κ α : Type*}

/-- The steps keep to the cells that they own. -/
structure Local (own : ι → κ → Prop) (step : ι → (κ → α) → κ → α) : Prop where
  writes : ∀ i t k, ¬ own i k → step i t k = t k
  reads : ∀ i t u, (∀ k, own i k → t k = u k) → ∀ k, own i k → step i t k = step i u k

variable {own : ι → κ → Prop} {step : ι → (κ → α) → κ → α} {l : List ι} {t : κ → α}
  {i : ι} {k : κ}

def run (step : ι → (κ → α) → κ → α) (l : List ι) (t : κ → α) : κ → α :=
  l.foldl (fun t i => step i t) t

theorem run_of_not_own (hl : Local own step) (h : ∀ j ∈ l, ¬ own j k) : run step l t k = t k := by
  induction l generalizing t with
  | nil => rfl
  | cons j l ih =>
    rw [run, List.foldl_cons, ← run, ih (fun m hm => h m (List.mem_cons_of_mem _ hm))]
    exact hl.writes j t k (h j List.mem_cons_self)

/-- A cell gets what the step that owns it makes of it. -/
theorem run_of_own (hl : Local own step) (hdisj : l.Pairwise fun i j => ∀ k, own i k → ¬ own j k) (hi : i ∈ l)
    (hk : own i k) : run step l t k = step i t k := by
  induction l generalizing t with
  | nil => cases hi
  | cons j l ih =>
    obtain ⟨hhead,htail⟩ := List.pairwise_cons.mp hdisj
    rw [run, List.foldl_cons, ← run]
    rcases List.mem_cons.mp hi with rfl | hmem
    · exact run_of_not_own hl (fun m hm => hhead m hm k hk)
    · rw [ih htail hmem]
      apply hl.reads i _ _ _ k hk
      intro k' hk'
      exact hl.writes j t k' (fun h => hhead i hmem k' h hk')

/-- Steps that change one cell each, by a function of its content -/
def updateStep [DecidableEq κ] (f : κ → α → α) (i : κ) (t : κ → α) : κ → α :=
  Function.update t i (f i (t i))

theorem local_updateStep [DecidableEq κ] (f : κ → α → α) : Local (fun i k => k = i) (updateStep f) where
  writes i t k hk := Function.update_of_ne hk _ _
  reads i t u htu k hk := by
    subst hk
    rw [updateStep, updateStep, Function.update_self, Function.update_self, htu k rfl]

theorem run_updateStep [DecidableEq κ] {l' : List κ} (f : κ → α → α) (hnodup : l'.Nodup) (k : κ) :
    run (updateStep f) l' t k = if k ∈ l' then f k (t k) else t k := by
  split
  · rename_i hk
    have hdisj : l'.Pairwise fun i j => ∀ k, k = i → ¬ k = j :=
      hnodup.imp (fun hne k hi hj => hne (hi.symm.trans hj))
    rw [run_of_own (local_updateStep f) hdisj hk rfl, updateStep, Function.update_self]
  · rename_i hk
    exact run_of_not_own (local_updateStep f) (fun j hj h => hk (h ▸ hj))

end CellLoop
