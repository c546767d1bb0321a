import Mathlib

/-! # Loops that visit one element after the other

A loop walks over a buffer with a state. At each element it reads some places, and then goes on with a new
state or leaves with a result. A visit that never comes back keeps the loop from coming back.
-/

/-- What comes after an element: the loop goes on with a state, or leaves with a result. -/
inductive AfterVisit (σ ρ : Type*)
  | goOn (s : σ)
  | leave (r : ρ)

structure VisitLoop (σ ρ : Type*) where
  limit : ℕ
  next : ℕ → ℕ
  moves : ∀ a, a < next a
  /-- the places that a visit reads; `none` when it never comes back -/
  reads : σ → ℕ → Option (List ℕ)
  after : σ → ℕ → AfterVisit σ ρ

namespace VisitLoop
variable {σ ρ : Type*}

/-- At most `n` elements from `a` on: all places that were read, and the result if the loop was left -/
def run (l : VisitLoop σ ρ) : ℕ → σ → ℕ → Option (List ℕ × Option ρ)
  | 0, _, _ => none
  | n + 1, s, a =>
    if a < l.limit then
      (l.reads s a).bind fun reads =>
        match l.after s a with
        | .leave r => some (reads,some r)
        | .goOn s => (l.run n s (l.next a)).map fun r => (reads ++ r.1,r.2)
    else some ([],none)

/-- The elements that are visited, with the state -/
inductive Visits (l : VisitLoop σ ρ) (s : σ) (a : ℕ) : σ → ℕ → Prop where
  | first (h : a < l.limit) : Visits l s a s a
  | next {s' s'' : σ} {b : ℕ} (h : Visits l s a s' b) (hs : l.after s' b = .goOn s'') (hlt : l.next b < l.limit) :
      Visits l s a s'' (l.next b)

/-- The places are all below the bound. -/
def Below (bound : ℕ) (reads : List ℕ) : Prop := ∀ o ∈ reads, o < bound

/-- The loop comes to an end and reads below the bound only. -/
def Contained (l : VisitLoop σ ρ) (bound : ℕ) (s : σ) (a : ℕ) : Prop :=
  ∃ n r, l.run n s a = some r ∧ Below bound r.1

/-- A visit that comes back and reads below the bound only -/
def Inside (l : VisitLoop σ ρ) (bound : ℕ) (s : σ) (a : ℕ) : Prop := ∃ reads, l.reads s a = some reads ∧
    Below bound reads

section Below
variable {bound a n : ℕ} {xs ys : List ℕ} {c : Prop} [Decidable c]

@[simp] theorem below_nil : Below bound [] := List.forall_mem_nil _

@[simp] theorem below_cons : Below bound (a :: xs) ↔ a < bound ∧ Below bound xs := List.forall_mem_cons

@[simp] theorem below_append : Below bound (xs ++ ys) ↔ Below bound xs ∧ Below bound ys := List.forall_mem_append

@[simp] theorem below_range' : Below bound (List.range' a n) ↔ 0 < n → a + n ≤ bound := by
  constructor
  · intro h hn
    have := h (a + (n - 1)) (by rw [List.mem_range'_1]; omega)
    omega
  · intro h o ho
    rw [List.mem_range'_1] at ho
    have := h (by omega)
    omega

@[simp] theorem below_ite : Below bound (if c then xs else []) ↔ c → Below bound xs := by
  split
  · rename_i h
    exact ⟨fun hb _ => hb,fun hb => hb h⟩
  · rename_i h
    exact iff_of_true below_nil fun hc => absurd hc h

end Below

variable {l : VisitLoop σ ρ} {bound a b : ℕ} {s s' s'' : σ}

theorem Visits.lt_limit (h : l.Visits s a s' b) : b < l.limit := by
  cases h with
  | first h => exact h
  | next _ _ h => exact h

theorem Visits.le (h : l.Visits s a s' b) : a ≤ b := by
  induction h with
  | first _ => exact Nat.le_refl _
  | next _ _ _ ih => exact ih.trans (l.moves _).le

theorem Visits.head (hs : l.after s a = .goOn s') (ha : a < l.limit) (h : l.Visits s' (l.next a) s'' b) :
    l.Visits s a s'' b := by
  induction h with
  | first h => exact .next (.first ha) hs h
  | next _ hs' hlt ih => exact .next ih hs' hlt

theorem Visits.cases_head (h : l.Visits s a s'' b) :
    (s = s'' ∧ a = b) ∨ ∃ s', l.after s a = .goOn s' ∧ l.Visits s' (l.next a) s'' b := by
  induction h with
  | first _ => exact .inl ⟨rfl,rfl⟩
  | next _ hs hlt ih =>
    rcases ih with ⟨rfl,rfl⟩ | ⟨s',hs',hvisits⟩
    · exact .inr ⟨_,hs,.first hlt⟩
    · exact .inr ⟨s',hs',hvisits.next hs hlt⟩

/-- A loop is contained exactly when each of its visits is. -/
theorem contained_iff (s : σ) (a : ℕ) : l.Contained bound s a ↔
    ∀ s' b, l.Visits s a s' b → l.Inside bound s' b := by
  constructor
  · rintro ⟨n,r,hr,hreads⟩
    induction n generalizing s a r with
    | zero => cases hr
    | succ n ih =>
      intro s'' b hb
      have ha := Nat.lt_of_le_of_lt hb.le hb.lt_limit
      rw [run, if_pos ha] at hr
      obtain ⟨reads,hv,hr⟩ := Option.bind_eq_some_iff.mp hr
      cases hs : l.after s a with
      | leave res =>
        rw [hs] at hr
        cases hr
        rcases hb.cases_head with ⟨rfl,rfl⟩ | ⟨_,hs',-⟩
        · exact ⟨_,hv,hreads⟩
        · rw [hs] at hs'
          cases hs'
      | goOn s' =>
        rw [hs] at hr
        obtain ⟨r',hr',rfl⟩ := Option.map_eq_some_iff.mp hr
        obtain ⟨hfirst,hrest⟩ := below_append.mp hreads
        rcases hb.cases_head with ⟨rfl,rfl⟩ | ⟨_,hs',hvisits⟩
        · exact ⟨_,hv,hfirst⟩
        · rw [hs] at hs'
          cases hs'
          exact ih s' (l.next a) r' hr' hrest s'' b hvisits
  · intro h
    induction hk : l.limit - a using Nat.strong_induction_on generalizing a s with
    | _ k ih =>
      by_cases ha : a < l.limit
      · obtain ⟨reads,hv,hreads⟩ := h s a (.first ha)
        cases hs : l.after s a with
        | leave r => exact ⟨1,(reads,some r),by rw [run, if_pos ha, hv, Option.bind_some, hs],hreads⟩
        | goOn s' =>
          have hmoves := l.moves a
          obtain ⟨n,r,hr,hrest⟩ := ih (l.limit - l.next a) (by omega) s' (l.next a)
            (fun s'' b hb => h s'' b (hb.head hs ha)) rfl
          refine ⟨n + 1,(reads ++ r.1,r.2),?_,below_append.mpr ⟨hreads,hrest⟩⟩
          rw [run, if_pos ha, hv, Option.bind_some, hs]
          simp only [hr, Option.map_some]
      · exact ⟨1,([],none),by rw [run, if_neg ha],below_nil⟩

end VisitLoop
