import Mathlib

/-! # Runs of a system whose steps can fail

A step that does not return leaves the run without a state, and so does everything
behind it.
-/
namespace PartialRun
variable {σ ε : Type*}

/-- The state after the events of a list, from `s`, when every step returned. -/
def run (step : σ → ε → Option σ) (s : σ) (es : List ε) : Option σ := es.foldlM step s

@[simp] theorem run_nil (step : σ → ε → Option σ) (s : σ) : run step s [] = some s := rfl

theorem run_append_singleton (step : σ → ε → Option σ) (s : σ) (es : List ε) (e : ε) :
    run step s (es ++ [e]) = (run step s es).bind (step · e) := by
  simp [run, List.foldlM_append]

/-- When every step returns from a state of the invariant and keeps it, every history of the
run has a state, and the invariant holds there. -/
theorem prefix_induction {step : σ → ε → Option σ} {s : σ} {es : List ε} (P : σ → Prop) (init : P s)
    (keep : ∀ past e t, past ++ [e] <+: es → run step s past = some t → P t → ∃ u,
      step t e = some u ∧ P u) :
    ∀ past, past <+: es → ∃ t, run step s past = some t ∧ P t := by
  intro past
  induction past using List.reverseRecOn with
  | nil => exact fun _ => ⟨s,rfl,init⟩
  | append_singleton past e ih =>
    intro h
    obtain ⟨t,ht,hp⟩ := ih ((List.prefix_append past [e]).trans h)
    obtain ⟨u,hu,hq⟩ := keep past e t h ht hp
    refine ⟨u,?_,hq⟩
    rw [run_append_singleton, ht]
    exact hu

/-- Every history of a run has a good state exactly when every event, in the good state that it
meets, is one that the step takes to a good state. -/
theorem prefixes_iff {step : σ → ε → Option σ} {ok : σ → ε → Prop} {s : σ} (good : σ → Prop)
    (init : good s)
    (h : ∀ t e, good t → ((∃ u, step t e = some u ∧ good u) ↔ ok t e)) (es : List ε) :
    (∀ past, past <+: es → ∃ t, run step s past = some t ∧ good t) ↔
      ∀ past e, past ++ [e] <+: es → ∀ t, run step s past = some t → ok t e := by
  constructor
  · intro hall past e hpast t ht
    obtain ⟨t',ht',hgood⟩ := hall past ((List.prefix_append past [e]).trans hpast)
    obtain ⟨u,hu,hgood'⟩ := hall _ hpast
    rw [ht] at ht'
    cases ht'
    rw [run_append_singleton, ht] at hu
    exact (h t e hgood).mp ⟨u,hu,hgood'⟩
  · intro hok
    refine prefix_induction good init ?_
    intro past e t hpast ht hgood
    exact (h t e hgood).mpr (hok past e hpast t ht)

end PartialRun
