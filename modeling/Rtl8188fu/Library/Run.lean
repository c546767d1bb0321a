import Mathlib

/-! # Runs of a deterministic system over a list of events

An invariant may speak about the events seen so far, so that conservation laws
("what went in is what is held or came out") are ordinary invariants.
-/
namespace Run
variable {σ ε : Type*}

/-- The state after the events of a list, from `s`. -/
def run (step : σ → ε → σ) (s : σ) (es : List ε) : σ := es.foldl step s

@[simp] theorem run_nil (step : σ → ε → σ) (s : σ) : run step s [] = s := rfl

@[simp] theorem run_cons (step : σ → ε → σ) (s : σ) (e : ε) (es : List ε) :
    run step s (e :: es) = run step (step s e) es := rfl

theorem run_append (step : σ → ε → σ) (s : σ) (es fs : List ε) :
    run step s (es ++ fs) = run step (run step s es) fs := List.foldl_append

/-- An invariant of state and history, kept by every step whose event is admissible. -/
theorem run_induction {step : σ → ε → σ} {s : σ} (ok : ε → Prop) (P : List ε → σ → Prop)
    (init : P [] s) (keep : ∀ past t e, ok e → P past t → P (past ++ [e]) (step t e))
    (es : List ε) (hes : ∀ e ∈ es, ok e) : P es (run step s es) := by
  induction es using List.reverseRecOn with
  | nil => exact init
  | append_singleton past e ih =>
    have hpast : ∀ x ∈ past, ok x := fun x hx => hes x (List.mem_append_left _ hx)
    have he : ok e := hes e (by simp)
    rw [run_append]
    exact keep past _ e he (ih hpast)

/-- A property of every history of a run, when each step may rely on what holds just before it. -/
theorem prefix_induction {es : List ε} (P : List ε → Prop) (init : P [])
    (keep : ∀ past e, past ++ [e] <+: es → P past → P (past ++ [e])) :
    ∀ past, past <+: es → P past := by
  intro past
  induction past using List.reverseRecOn with
  | nil => exact fun _ => init
  | append_singleton past e ih =>
    intro h
    exact keep past e h (ih ((List.prefix_append past [e]).trans h))

/-- Each event of a run from `s` is admissible in the state that it meets. -/
def Safe (step : σ → ε → σ) (ok : σ → ε → Prop) : σ → List ε → Prop
  | _, [] => True
  | s, e :: es => ok s e ∧ Safe step ok (step s e) es

/-- What an admissible event keeps holds in every state of an admissible run. -/
theorem Safe.induction {step : σ → ε → σ} {ok : σ → ε → Prop} (P : σ → Prop)
    (keep : ∀ s e, ok s e → P s → P (step s e)) {s : σ} {es : List ε} (h : Safe step ok s es) (init : P s) :
    ∀ past, past <+: es → P (run step s past) := by
  induction es generalizing s with
  | nil =>
    intro past hpast
    rw [List.prefix_nil.mp hpast]
    exact init
  | cons e es ih =>
    intro past hpast
    cases past with
    | nil => exact init
    | cons x past =>
      obtain ⟨rfl,hrest⟩ := List.cons_prefix_cons.mp hpast
      exact ih h.2 (keep s x h.1 init) past hrest

theorem Safe.history {step : σ → ε → σ} {ok : σ → ε → Prop} (P : List ε → σ → Prop)
    (keep : ∀ past s e, ok s e → P past s → P (past ++ [e]) (step s e)) {past : List ε} {s : σ} {es : List ε}
    (h : Safe step ok s es) (init : P past s) : P (past ++ es) (run step s es) := by
  induction es generalizing s past with
  | nil => simpa using init
  | cons e es ih =>
    have hrest := ih h.2 (keep past s e h.1 init)
    rwa [List.append_assoc, List.singleton_append] at hrest

instance Safe.decidable (step : σ → ε → σ) (ok : σ → ε → Prop) [∀ s e, Decidable (ok s e)] :
    ∀ s es, Decidable (Safe step ok s es)
  | _, [] => isTrue trivial
  | s, e :: es => @instDecidableAnd _ _ _ (Safe.decidable step ok (step s e) es)

end Run
