import Mathlib

/-! # Scanning records that lie behind one another

A scanner tells where the record at an address ends, or that there is none. It moves forward
below a limit, so that a scan comes to an end.
-/

structure Scanner where
  next : ℕ → Option ℕ
  limit : ℕ
  forward : ∀ {a b}, next a = some b → a < b ∧ a < limit

namespace Scanner
variable (s : Scanner)

/-- The records from an address on, each with its start and its end -/
def records (a : ℕ) : List (ℕ × ℕ) :=
  match _h : s.next a with
  | none => []
  | some b => (a,b) :: records b
termination_by s.limit - a
decreasing_by
  have := s.forward _h
  omega

/-- The address where the scan from an address stops -/
def stop (a : ℕ) : ℕ :=
  match _h : s.next a with
  | none => a
  | some b => stop b
termination_by s.limit - a
decreasing_by
  have := s.forward _h
  omega

variable {s} {a b : ℕ}

theorem records_of_none (h : s.next a = none) : s.records a = [] := by
  rw [records]
  split
  · rfl
  · rename_i hb
    rw [h] at hb
    cases hb

theorem records_of_some (h : s.next a = some b) : s.records a = (a,b) :: s.records b := by
  rw [records]
  split
  · rename_i hn
    rw [h] at hn
    cases hn
  · rename_i hb
    rw [h] at hb
    cases hb
    rfl

theorem stop_of_none (h : s.next a = none) : s.stop a = a := by
  rw [stop]
  split
  · rfl
  · rename_i hb
    rw [h] at hb
    cases hb

theorem stop_of_some (h : s.next a = some b) : s.stop a = s.stop b := by
  rw [stop]
  split
  · rename_i hn
    rw [h] at hn
    cases hn
  · rename_i hb
    rw [h] at hb
    cases hb
    rfl

theorem induction (s : Scanner) {P : ℕ → Prop} (stop : ∀ a, s.next a = none → P a)
    (step : ∀ a b, s.next a = some b → P b → P a) (a : ℕ) : P a := by
  induction h : s.limit - a using Nat.strong_induction_on generalizing a with
  | _ n ih =>
    cases hn : s.next a with
    | none => exact stop a hn
    | some b =>
      have := s.forward hn
      exact step a b hn (ih (s.limit - b) (by omega) b rfl)

theorem next_stop (a : ℕ) : s.next (s.stop a) = none := by
  induction a using s.induction with
  | stop a h => rwa [stop_of_none h]
  | step a b h ih => rwa [stop_of_some h]

theorem le_stop (a : ℕ) : a ≤ s.stop a := by
  induction a using s.induction with
  | stop a h => rw [stop_of_none h]
  | step a b h ih =>
    rw [stop_of_some h]
    exact (s.forward h).1.le.trans ih

/-- Every record is what the scanner finds at its start, between the two ends of the scan. -/
theorem mem_records {r : ℕ × ℕ} (h : r ∈ s.records a) : s.next r.1 = some r.2 ∧ a ≤ r.1 ∧
    r.2 ≤ s.stop a := by
  induction a using s.induction with
  | stop a hn =>
    rw [records_of_none hn] at h
    cases h
  | step a b hn ih =>
    rw [records_of_some hn, List.mem_cons] at h
    rw [stop_of_some hn]
    rcases h with rfl | h
    · exact ⟨hn,le_rfl,le_stop b⟩
    · obtain ⟨hr,hb,hstop⟩ := ih h
      exact ⟨hr,(s.forward hn).1.le.trans hb,hstop⟩

theorem stop_eq (s : Scanner) (a : ℕ) : s.stop a = ((s.records a).getLast?.map Prod.snd).getD a := by
  induction a using s.induction with
  | stop a h => rw [stop_of_none h, records_of_none h]; rfl
  | step a b h ih =>
    rw [stop_of_some h, records_of_some h, ih]
    cases hr : s.records b with
    | nil => rfl
    | cons r rs =>
      obtain ⟨x,hx⟩ := Option.isSome_iff_exists.mp (List.getLast?_isSome.mpr (List.cons_ne_nil r rs))
      rw [List.getLast?_cons_cons, hx]
      rfl

/-- A second scanner finds the same records exactly when it agrees on each of them and where
the scan stops. -/
theorem records_eq_iff {t : Scanner} :
    t.records a = s.records a ↔ (∀ r ∈ s.records a, t.next r.1 = some r.2) ∧ t.next (s.stop a) = none := by
  induction a using s.induction with
  | stop a h =>
    rw [records_of_none h, stop_of_none h]
    constructor
    · intro hr
      refine ⟨nofun,?_⟩
      cases hn : t.next a with
      | none => rfl
      | some b =>
        rw [records_of_some hn] at hr
        cases hr
    · exact fun hr => records_of_none hr.2
  | step a b h ih =>
    rw [records_of_some h, stop_of_some h]
    constructor
    · intro hr
      cases hn : t.next a with
      | none =>
        rw [records_of_none hn] at hr
        cases hr
      | some c =>
        rw [records_of_some hn, List.cons.injEq, Prod.mk.injEq] at hr
        obtain ⟨⟨-,rfl⟩,hrest⟩ := hr
        obtain ⟨hall,hstop⟩ := ih.mp hrest
        refine ⟨fun r hm => ?_,hstop⟩
        rcases List.mem_cons.mp hm with rfl | hm
        · exact hn
        · exact hall r hm
    · rintro ⟨hall,hstop⟩
      have hn := hall (a,b) List.mem_cons_self
      rw [records_of_some hn]
      congr 1
      exact ih.mpr ⟨fun r hm => hall r (List.mem_cons_of_mem _ hm),hstop⟩

/-- A second scanner that finds the records of the first, and one more behind them -/
theorem records_append {t : Scanner} {c : ℕ} (hall : ∀ r ∈ s.records a, t.next r.1 = some r.2)
    (hmore : t.next (s.stop a) = some c) :
    t.records a = s.records a ++ (s.stop a,c) :: t.records c := by
  induction a using s.induction with
  | stop a h =>
    rw [stop_of_none h] at hmore ⊢
    rw [records_of_none h, records_of_some hmore]
    rfl
  | step a b h ih =>
    rw [stop_of_some h] at hmore ⊢
    rw [records_of_some h] at hall ⊢
    rw [records_of_some (hall (a,b) List.mem_cons_self)]
    rw [ih (fun r hm => hall r (List.mem_cons_of_mem _ hm)) hmore]
    rfl

end Scanner
