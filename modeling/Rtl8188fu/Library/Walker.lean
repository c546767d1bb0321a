import Mathlib

/-! # Loops that walk over a buffer

In each turn a walker reads some places of the buffer and then stops, has found what it looks
for, or goes on at a later place. It may go on where it is, and then it never comes back.
-/

inductive Turn where
  | stop
  | hit
  | goOn (b : ℕ)
  deriving DecidableEq

structure Walker where
  turn : ℕ → Turn
  /-- the places that a turn reads -/
  reads : ℕ → List ℕ

namespace Walker

/-- At most `n` turns from `a` on: what is found, and all places that were read -/
def run (w : Walker) : ℕ → ℕ → Option (Option ℕ × List ℕ)
  | 0, _ => none
  | n + 1, a =>
    match w.turn a with
    | .stop => some (none,w.reads a)
    | .hit => some (some a,w.reads a)
    | .goOn b => (w.run n b).map fun r => (r.1,w.reads a ++ r.2)

/-- The places where a turn starts -/
inductive Reach (w : Walker) (a : ℕ) : ℕ → Prop where
  | start : Reach w a a
  | goOn {b c : ℕ} (h : Reach w a b) (ht : w.turn b = .goOn c) : Reach w a c

/-- The places that lie behind one another from `start` on, as long as each one is passed over -/
inductive Passed (next : ℕ → ℕ) (passes : ℕ → Prop) (start : ℕ) : ℕ → Prop where
  | first : Passed next passes start start
  | next {a : ℕ} (h : Passed next passes start a) (hp : passes a) : Passed next passes start (next a)

/-- The walk comes to an end, reads below the limit only, and what it finds is right. -/
def Contained (w : Walker) (limit : ℕ) (good : ℕ → Prop) (a : ℕ) : Prop :=
  ∃ n r, w.run n a = some r ∧ (∀ o ∈ r.2, o < limit) ∧ ∀ p, r.1 = some p → good p

/-- The walk comes to an end with this result. -/
def Finds (w : Walker) (a : ℕ) (res : Option ℕ) : Prop := ∃ n reads, w.run n a = some (res,reads)

variable {w : Walker} {a b c n p : ℕ} {r : Option ℕ × List ℕ}

theorem Reach.head (ht : w.turn a = .goOn b) (h : w.Reach b c) : w.Reach a c := by
  induction h with
  | start => exact .goOn .start ht
  | goOn _ ht ih => exact .goOn ih ht

theorem Reach.cases_head (h : w.Reach a c) : a = c ∨ ∃ b, w.turn a = .goOn b ∧ w.Reach b c := by
  induction h with
  | start => exact .inl rfl
  | goOn _ ht ih =>
    rcases ih with rfl | ⟨b,hb,hreach⟩
    · exact .inr ⟨_,ht,.start⟩
    · exact .inr ⟨b,hb,.goOn hreach ht⟩

/-- Where a walk comes to can be told from the turns that pass over a place. -/
theorem reach_iff_passed {next : ℕ → ℕ} {passes : ℕ → Prop}
    (h : ∀ b c, w.turn b = .goOn c ↔ passes b ∧ c = next b) : w.Reach a b ↔ Passed next passes a b := by
  constructor
  · intro hr
    induction hr with
    | start => exact .first
    | goOn _ ht ih =>
      obtain ⟨hp,rfl⟩ := (h _ _).mp ht
      exact .next ih hp
  · intro hb
    induction hb with
    | first => exact .start
    | next _ hp ih => exact .goOn ih ((h _ _).mpr ⟨hp,rfl⟩)

theorem run_stop (ht : w.turn a = .stop) (n : ℕ) : w.run (n + 1) a = some (none,w.reads a) := by
  rw [run, ht]

theorem run_hit (ht : w.turn a = .hit) (n : ℕ) : w.run (n + 1) a = some (some a,w.reads a) := by
  rw [run, ht]

theorem run_goOn (ht : w.turn a = .goOn b) (n : ℕ) :
    w.run (n + 1) a = (w.run n b).map fun r => (r.1,w.reads a ++ r.2) := by
  rw [run, ht]

theorem run_stuck (ht : w.turn a = .goOn a) (n : ℕ) : w.run n a = none := by
  induction n with
  | zero => rfl
  | succ n ih => rw [run_goOn ht, ih]; rfl

/-- What is found was reached, and its turn found it. -/
theorem hit_of_run (h : w.run n a = some r) (hp : r.1 = some p) : w.Reach a p ∧ w.turn p = .hit := by
  induction n generalizing a r with
  | zero => cases h
  | succ n ih =>
    cases ht : w.turn a with
    | stop =>
      rw [run_stop ht] at h
      cases h
      cases hp
    | hit =>
      rw [run_hit ht] at h
      cases h
      cases hp
      exact ⟨.start,ht⟩
    | goOn b =>
      rw [run_goOn ht, Option.map_eq_some_iff] at h
      obtain ⟨r',hr,rfl⟩ := h
      obtain ⟨hreach,hhit⟩ := ih hr hp
      exact ⟨hreach.head ht,hhit⟩

/-- What holds of all that turns read holds of all that a walk reads. -/
theorem reads_of_run {P : ℕ → Prop} (hP : ∀ b, ∀ o ∈ w.reads b, P o) (h : w.run n a = some r) :
    ∀ o ∈ r.2, P o := by
  induction n generalizing a r with
  | zero => cases h
  | succ n ih =>
    cases ht : w.turn a with
    | stop =>
      rw [run_stop ht] at h
      cases h
      exact hP a
    | hit =>
      rw [run_hit ht] at h
      cases h
      exact hP a
    | goOn b =>
      rw [run_goOn ht, Option.map_eq_some_iff] at h
      obtain ⟨r',hr,rfl⟩ := h
      intro o ho
      rcases List.mem_append.mp ho with ho | ho
      · exact hP a o ho
      · exact ih hr o ho

theorem run_mono (h : w.run n a = some r) {m : ℕ} (hm : n ≤ m) : w.run m a = some r := by
  induction n generalizing a r m with
  | zero => cases h
  | succ n ih =>
    obtain ⟨m,rfl⟩ : ∃ k, m = k + 1 := ⟨m - 1,by omega⟩
    cases ht : w.turn a with
    | stop => rwa [run_stop ht] at h ⊢
    | hit => rwa [run_hit ht] at h ⊢
    | goOn b =>
      rw [run_goOn ht, Option.map_eq_some_iff] at h
      obtain ⟨r',hr,rfl⟩ := h
      rw [run_goOn ht, ih hr (Nat.le_of_succ_le_succ hm)]
      rfl

/-- A walk that comes to a place where it stays never returns. -/
theorem Reach.run_stuck (h : w.Reach a b) (ht : w.turn b = .goOn b) (n : ℕ) : w.run n a = none := by
  induction n generalizing a with
  | zero => rfl
  | succ n ih =>
    rcases h.cases_head with rfl | ⟨c,hc,hreach⟩
    · exact Walker.run_stuck ht (n + 1)
    · rw [run_goOn hc, ih hreach]
      rfl

/-- A walk that never goes back runs out of turns only where it stays for ever. -/
theorem run_eq_none_iff {bound : ℕ} (hle : ∀ b c, w.turn b = .goOn c → b ≤ c ∧ b < bound) (hpos : 0 < n)
    (hn : bound < a + n) : w.run n a = none ↔ ∃ b, w.Reach a b ∧ w.turn b = .goOn b := by
  constructor
  · intro h
    induction n generalizing a with
    | zero => omega
    | succ n ih =>
      cases ht : w.turn a with
      | stop =>
        rw [run_stop ht] at h
        cases h
      | hit =>
        rw [run_hit ht] at h
        cases h
      | goOn b =>
        obtain ⟨hab,ha⟩ := hle a b ht
        by_cases heq : a = b
        · exact ⟨a,.start,by rw [ht, ← heq]⟩
        · rw [run_goOn ht, Option.map_eq_none_iff] at h
          obtain ⟨c,hc,hstuck⟩ := ih (by omega) (by omega) h
          exact ⟨c,hc.head ht,hstuck⟩
  · rintro ⟨b,hb,ht⟩
    exact hb.run_stuck ht n

theorem Finds.of_stop (ht : w.turn a = .stop) : w.Finds a none := ⟨1,_,run_stop ht 0⟩

theorem Finds.of_hit (ht : w.turn a = .hit) : w.Finds a (some a) := ⟨1,_,run_hit ht 0⟩

theorem Finds.of_goOn {res : Option ℕ} (ht : w.turn a = .goOn b) (h : w.Finds b res) : w.Finds a res := by
  obtain ⟨n,reads,hr⟩ := h
  exact ⟨n + 1,w.reads a ++ reads,by rw [run_goOn ht, hr]; rfl⟩

/-- What a turn of the walk finds is what the walk finds. -/
theorem Reach.finds {res : Option ℕ} (h : w.Reach a b) (hb : w.Finds b res) : w.Finds a res := by
  induction h with
  | start => exact hb
  | goOn _ ht ih => exact ih (.of_goOn ht hb)

theorem Finds.eq {res : Option ℕ} (h : w.Finds a res) (hr : w.run n a = some r) : r.1 = res := by
  obtain ⟨m,reads,hm⟩ := h
  have h1 := run_mono hr (Nat.le_max_left n m)
  have h2 := run_mono hm (Nat.le_max_right n m)
  rw [h1] at h2
  cases h2
  rfl

/-- A walk that never goes back needs no more turns than there are places. -/
theorem Finds.run {bound : ℕ} {res : Option ℕ} (h : w.Finds a res)
    (hle : ∀ b c, w.turn b = .goOn c → b ≤ c ∧ b < bound) (hpos : 0 < n) (hn : bound < a + n) :
    ∃ reads, w.run n a = some (res,reads) := by
  cases hrun : w.run n a with
  | none =>
    obtain ⟨b,hb,hstuck⟩ := (run_eq_none_iff hle hpos hn).mp hrun
    obtain ⟨m,reads,hm⟩ := h
    rw [hb.run_stuck hstuck m] at hm
    cases hm
  | some r => exact ⟨r.2,by rw [← h.eq hrun]⟩

/-- Enough turns find a place exactly when the walk comes to it and its turn finds it. -/
theorem run_found_iff {bound : ℕ} (hle : ∀ b c, w.turn b = .goOn c → b ≤ c ∧ b < bound) (hpos : 0 < n)
    (hn : bound < a + n) : (∃ reads, w.run n a = some (some p,reads)) ↔ w.Reach a p ∧ w.turn p = .hit := by
  constructor
  · rintro ⟨reads,hr⟩
    exact hit_of_run hr rfl
  · rintro ⟨hreach,hhit⟩
    have hfinds : w.Finds a (some p) := hreach.finds (.of_hit hhit)
    exact hfinds.run hle hpos hn

/-- A turn that is as it should be: its reads are below the limit, what it finds is right,
and it moves on. -/
structure Sound (w : Walker) (limit : ℕ) (good : ℕ → Prop) (b : ℕ) : Prop where
  reads_lt : ∀ o ∈ w.reads b, o < limit
  good : w.turn b = .hit → good b
  forward : ∀ c, w.turn b = .goOn c → b < c

theorem Sound.of_stop {limit : ℕ} {good : ℕ → Prop} (ht : w.turn a = .stop) (h : ∀ o ∈ w.reads a, o < limit) :
    w.Sound limit good a := by
  refine ⟨h,?_,?_⟩
  · intro hhit
    rw [ht] at hhit
    cases hhit
  · intro c hc
    rw [ht] at hc
    cases hc

theorem Sound.of_hit {limit : ℕ} {good : ℕ → Prop} (ht : w.turn a = .hit) (h : ∀ o ∈ w.reads a, o < limit)
    (hgood : good a) : w.Sound limit good a := by
  refine ⟨h,fun _ => hgood,?_⟩
  intro c hc
  rw [ht] at hc
  cases hc

theorem Sound.of_goOn {limit : ℕ} {good : ℕ → Prop} (ht : w.turn a = .goOn b) (h : ∀ o ∈ w.reads a, o < limit)
    (hlt : a < b) : w.Sound limit good a := by
  refine ⟨h,?_,?_⟩
  · intro hhit
    rw [ht] at hhit
    cases hhit
  · intro c hc
    rw [ht] at hc
    cases hc
    exact hlt

/-- A walk that never goes back is contained exactly when each of its turns is sound. -/
theorem contained_iff {limit bound : ℕ} {good : ℕ → Prop}
    (hle : ∀ b c, w.turn b = .goOn c → b ≤ c ∧ b < bound)
    (a : ℕ) : w.Contained limit good a ↔ ∀ b, w.Reach a b → w.Sound limit good b := by
  constructor
  · rintro ⟨n,r,hr,hreads,hgood⟩
    induction n generalizing a r with
    | zero => cases hr
    | succ n ih =>
      intro b hb
      cases ht : w.turn a with
      | stop =>
        rw [run_stop ht] at hr
        cases hr
        rcases hb.cases_head with rfl | ⟨c,hc,-⟩
        · exact .of_stop ht hreads
        · rw [ht] at hc
          cases hc
      | hit =>
        rw [run_hit ht] at hr
        cases hr
        rcases hb.cases_head with rfl | ⟨c,hc,-⟩
        · exact .of_hit ht hreads (hgood a rfl)
        · rw [ht] at hc
          cases hc
      | goOn d =>
        have hstuck : a ≠ d := by
          rintro rfl
          rw [run_stuck ht] at hr
          cases hr
        rw [run_goOn ht, Option.map_eq_some_iff] at hr
        obtain ⟨r',hr',rfl⟩ := hr
        rcases hb.cases_head with rfl | ⟨c,hc,hreach⟩
        · exact .of_goOn ht (fun o ho => hreads o (List.mem_append_left _ ho))
            (Nat.lt_of_le_of_ne (hle a d ht).1 hstuck)
        · rw [ht] at hc
          cases hc
          exact ih d r' hr' (fun o ho => hreads o (List.mem_append_right _ ho)) hgood b hreach
  · intro h
    induction hk : bound - a using Nat.strong_induction_on generalizing a with
    | _ k ih =>
      have ha := h a .start
      cases ht : w.turn a with
      | stop => exact ⟨1,_,run_stop ht 0,ha.reads_lt,nofun⟩
      | hit =>
        refine ⟨1,_,run_hit ht 0,ha.reads_lt,?_⟩
        rintro p ⟨⟩
        exact ha.good ht
      | goOn b =>
        have hlt := ha.forward b ht
        have hbound := (hle a b ht).2
        obtain ⟨n,r,hr,hreads,hgood⟩ := ih (bound - b) (by omega) b (fun c hc => h c (hc.head ht)) rfl
        refine ⟨n + 1,(r.1,w.reads a ++ r.2),by rw [run_goOn ht, hr]; rfl,?_,hgood⟩
        intro o ho
        rcases List.mem_append.mp ho with ho | ho
        · exact ha.reads_lt o ho
        · exact hreads o ho

theorem contained_iff_run {limit bound : ℕ} {good : ℕ → Prop}
    (hle : ∀ b c, w.turn b = .goOn c → b ≤ c ∧ b < bound)
    (hpos : 0 < n) (hn : bound < a + n) :
    w.Contained limit good a ↔ ∃ r, w.run n a = some r ∧ (∀ o ∈ r.2, o < limit) ∧
    ∀ p, r.1 = some p → good p := by
  constructor
  · rintro ⟨m,r,hr,h⟩
    cases hrun : w.run n a with
    | none =>
      obtain ⟨b,hb,hstuck⟩ := (run_eq_none_iff hle hpos hn).mp hrun
      rw [hb.run_stuck hstuck m] at hr
      cases hr
    | some r' =>
      have h1 := run_mono hr (Nat.le_max_left m n)
      have h2 := run_mono hrun (Nat.le_max_right m n)
      obtain rfl := Option.some.inj (h1.symm.trans h2)
      exact ⟨r,rfl,h⟩
  · rintro ⟨r,hr,h⟩
    exact ⟨n,r,hr,h⟩

end Walker
