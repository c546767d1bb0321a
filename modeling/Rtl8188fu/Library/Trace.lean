import Rtl8188fu.Library.Run

/-! # Logs of effects

A log is a list of effects, the newest last. What an effect needs of the effects before it is
checked as the effect is appended.
-/
namespace Trace
variable {α ε : Type*} {need : List α → α → Prop}

/-- Each effect of the log has what it needs in the effects before it. -/
def Holds (need : List α → α → Prop) (log : List α) : Prop := ∀ past x, past ++ [x] <+: log → need past x

theorem holds_nil : Holds need [] := by
  intro past x h
  simp at h

theorem holds_cons {x : α} {log : List α} :
    Holds need (x :: log) ↔ need [] x ∧ Holds (fun past => need (x :: past)) log := by
  constructor
  · intro h
    refine ⟨h [] x ⟨log,rfl⟩,?_⟩
    intro past y hy
    exact h (x :: past) y ((List.prefix_cons_inj x).mpr hy)
  · rintro ⟨hx,hlog⟩ past y hy
    cases past with
    | nil =>
      obtain ⟨rfl,-⟩ := List.cons_prefix_cons.mp hy
      exact hx
    | cons z past =>
      obtain ⟨rfl,hrest⟩ := List.cons_prefix_cons.mp (show z :: (past ++ [y]) <+: x :: log from hy)
      exact hlog past y hrest

theorem holds_append {log more : List α} :
    Holds need (log ++ more) ↔ Holds need log ∧ Holds (fun past => need (log ++ past)) more := by
  induction log generalizing need with
  | nil => exact ⟨fun h => ⟨holds_nil,h⟩,fun h => h.2⟩
  | cons x log ih =>
    rw [List.cons_append, holds_cons, ih, holds_cons, and_assoc]
    rfl

theorem holds_concat {log : List α} {x : α} : Holds need (log ++ [x]) ↔ Holds need log ∧ need log x := by
  rw [holds_append, holds_cons, List.append_nil]
  exact and_congr_right fun _ => and_iff_left holds_nil

/-- A need that holds whatever came before is a property of the new effects alone. -/
theorem holds_of_forall {log : List α} (h : ∀ past, ∀ x ∈ log, need past x) : Holds need log := by
  intro past x hx
  exact h past x (hx.subset (List.mem_append_right past (List.mem_singleton_self x)))

/-- A property `P` of every state of a run is the same as admissible events, when some invariant
that has `P` is kept by them and an event that is not breaks `P`. -/
theorem prefix_iff {es : List ε} {P I : List ε → Prop} {ok : List ε → ε → Prop} (init : I [])
    (here : ∀ past, I past → P past)
    (keep : ∀ past e, I past → ok past e → I (past ++ [e]))
    (only : ∀ past e, I past → P (past ++ [e]) → ok past e) :
    (∀ past, past <+: es → P past) ↔ ∀ past e, past ++ [e] <+: es → ok past e := by
  constructor
  · intro h
    have hI : ∀ past, past <+: es → I past :=
      Run.prefix_induction I init fun past e hpre hpast => keep past e hpast (only past e hpast (h _ hpre))
    intro past e hpre
    exact only past e (hI past ((List.prefix_append past [e]).trans hpre)) (h _ hpre)
  · intro h past hpre
    exact here past (Run.prefix_induction I init (fun past e hpre hpast => keep past e hpast (h past e hpre)) past hpre)

/-- What is right about each event of a run is the same as what makes it admissible, when some invariant that
admissible events keep makes the two the same. -/
theorem event_iff {es : List ε} {I : List ε → Prop} {right ok : List ε → ε → Prop} (init : I [])
    (keep : ∀ past e, I past → ok past e → I (past ++ [e]))
    (same : ∀ past e, I past → (right past e ↔ ok past e)) :
    (∀ past e, past ++ [e] <+: es → right past e) ↔ ∀ past e, past ++ [e] <+: es → ok past e := by
  constructor
  · intro h past e hpre
    have hI :=
      Run.prefix_induction I init fun past e hpre hpast => keep past e hpast ((same past e hpast).mp (h past e hpre))
    exact (same past e (hI past ((List.prefix_append past [e]).trans hpre))).mp (h past e hpre)
  · intro h past e hpre
    have hI := Run.prefix_induction I init fun past e hpre hpast => keep past e hpast (h past e hpre)
    exact (same past e (hI past ((List.prefix_append past [e]).trans hpre))).mpr (h past e hpre)

end Trace
