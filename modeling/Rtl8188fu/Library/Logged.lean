import Mathlib

/-! # Programs that log what they do

A program logs its accesses until it has a result, or until it ends without one. A loop over linked items
stops as soon as its body says so.
-/

structure Logged (ε α : Type*) where
  log : List ε
  /-- `none` when the program has ended or never comes back -/
  result : Option α

namespace Logged
variable {ε ε' α β γ σ ι : Type*} {P : ε → Prop}

def ret (a : α) : Logged ε α := ⟨[],some a⟩
def stop : Logged ε α := ⟨[],none⟩
def emit (log : List ε) : Logged ε Unit := ⟨log,some ()⟩

def andThen (x : Logged ε α) (f : α → Logged ε β) : Logged ε β :=
  match x.result with
  | none => ⟨x.log,none⟩
  | some a => ⟨x.log ++ (f a).log,(f a).result⟩

theorem ret_andThen (a : α) (f : α → Logged ε β) : (ret a).andThen f = f a := rfl

theorem andThen_assoc (x : Logged ε α) (f : α → Logged ε β) (g : β → Logged ε γ) :
    (x.andThen f).andThen g = x.andThen fun a => (f a).andThen g := by
  obtain ⟨log,result⟩ := x
  cases result with
  | none => rfl
  | some a =>
    unfold andThen
    dsimp only
    cases (f a).result with
    | none => rfl
    | some b =>
      dsimp only
      rw [List.append_assoc]

/-- The log in other terms -/
def mapLog (g : ε → ε') (x : Logged ε α) : Logged ε' α := ⟨x.log.map g,x.result⟩

/-- `P` holds of all that is logged. -/
def All (P : ε → Prop) (x : Logged ε α) : Prop := ∀ e ∈ x.log, P e

@[simp] theorem all_ret (a : α) : All P (ret a) := List.forall_mem_nil _

@[simp] theorem all_stop : All P (stop : Logged ε α) := List.forall_mem_nil _

@[simp] theorem all_emit (log : List ε) : All P (emit log) ↔ ∀ e ∈ log, P e := Iff.rfl

@[simp] theorem result_ret (a : α) : (ret a : Logged ε α).result = some a := rfl

@[simp] theorem result_stop : (stop : Logged ε α).result = none := rfl

@[simp] theorem result_emit (log : List ε) : (emit log).result = some () := rfl

@[simp] theorem result_andThen (x : Logged ε α) (f : α → Logged ε β) :
    (x.andThen f).result = x.result.bind fun a => (f a).result := by
  unfold andThen
  cases x.result <;> rfl

theorem all_andThen {x : Logged ε α} {f : α → Logged ε β} :
    All P (x.andThen f) ↔ All P x ∧ ∀ a, x.result = some a → All P (f a) := by
  unfold andThen
  cases h : x.result with
  | none => simp [All]
  | some a => simp [All, or_imp, forall_and]

/-- The program comes to this result, and `P` holds of all that it logs. -/
structure Yields (P : ε → Prop) (x : Logged ε α) (a : α) : Prop where
  result : x.result = some a
  all : All P x

theorem yields_ret (a : α) : Yields P (ret a) a := ⟨rfl,all_ret a⟩

theorem yields_emit {log : List ε} (h : ∀ e ∈ log, P e) : Yields P (emit log) () := ⟨rfl,h⟩

theorem Yields.mono {Q : ε → Prop} {x : Logged ε α} {a : α} (h : Yields P x a) (hPQ : ∀ e, P e → Q e) :
    Yields Q x a :=
  ⟨h.result,fun e he => hPQ e (h.all e he)⟩

theorem Yields.andThen {x : Logged ε α} {f : α → Logged ε β} {a : α} {b : β} (h : Yields P x a)
    (hf : Yields P (f a) b) : Yields P (x.andThen f) b := by
  constructor
  · rw [result_andThen, h.result]
    exact hf.result
  · refine all_andThen.mpr ⟨h.all,?_⟩
    intro a' ha
    rw [h.result] at ha
    cases ha
    exact hf.all

/-- The program comes to a result, and `P` holds of all that it logs. -/
def Completes (P : ε → Prop) (x : Logged ε α) : Prop := ∃ a, Yields P x a

@[simp] theorem completes_ret (a : α) : Completes P (ret a) := ⟨a,yields_ret a⟩

@[simp] theorem completes_emit {log : List ε} : Completes P (emit log) ↔ ∀ e ∈ log, P e :=
  ⟨fun ⟨_,h⟩ => h.all,fun h => ⟨(),yields_emit h⟩⟩

theorem completes_andThen {x : Logged ε α} {f : α → Logged ε β} :
    Completes P (x.andThen f) ↔ Completes P x ∧ ∀ a, x.result = some a → Completes P (f a) := by
  constructor
  · rintro ⟨b,hres,hall⟩
    rw [result_andThen] at hres
    obtain ⟨a,ha,hb⟩ := Option.bind_eq_some_iff.mp hres
    obtain ⟨hx,hf⟩ := all_andThen.mp hall
    refine ⟨⟨a,ha,hx⟩,fun a' ha' => ?_⟩
    rw [ha] at ha'
    cases ha'
    exact ⟨b,hb,hf a ha⟩
  · rintro ⟨⟨a,ha⟩,hf⟩
    obtain ⟨b,hb⟩ := hf a ha.result
    exact ⟨b,ha.andThen hb⟩

theorem completes_emit_andThen {log : List ε} {f : Unit → Logged ε β} :
    Completes P ((emit log).andThen f) ↔ (∀ e ∈ log, P e) ∧ Completes P (f ()) := by
  rw [completes_andThen, completes_emit]
  exact and_congr_right fun _ => ⟨fun h => h () rfl,fun h _ _ => h⟩

theorem completes_andThen_const {x : Logged ε α} {f : α → Logged ε β} {q : Prop}
    (h : ∀ a, Completes P (f a) ↔ q) :
    Completes P (x.andThen f) ↔ Completes P x ∧ q := by
  rw [completes_andThen]
  refine and_congr_right ?_
  rintro ⟨a,ha⟩
  exact ⟨fun hf => (h a).mp (hf a ha.result),fun hq a' _ => (h a').mpr hq⟩

/-- The body runs on one item after the other. It goes on with a new state, or leaves the loop with `none`. -/
def loop (next : ι → Option ι) (body : σ → ι → Logged ε (Option σ)) :
    ℕ → σ → Option ι → Logged ε Unit
  | _, _, none => ret ()
  | 0, _, some _ => stop
  | fuel + 1, s, some i => (body s i).andThen fun
    | none => ret ()
    | some s => loop next body fuel s (next i)

/-- The items that the loop comes to, each with the state -/
inductive Comes (next : ι → Option ι) (goesOn : σ → ι → σ → Prop) (s : σ) (i : ι) :
    σ → ι → Prop where
  | first : Comes next goesOn s i s i
  | next {s' s'' : σ} {j k : ι} (h : Comes next goesOn s i s' j) (hgo : goesOn s' j s'') (hk : next j = some k) :
      Comes next goesOn s i s'' k

section Loop
variable {next : ι → Option ι} {body : σ → ι → Logged ε (Option σ)} {goesOn : σ → ι → σ → Prop}
  {s s' s'' : σ} {i j k : ι}

theorem Comes.head (hgo : goesOn s i s') (hj : next i = some j) (h : Comes next goesOn s' j s'' k) :
    Comes next goesOn s i s'' k := by
  induction h with
  | first => exact .next .first hgo hj
  | next _ hgo' hk ih => exact .next ih hgo' hk

theorem Comes.cases_head (h : Comes next goesOn s i s'' k) :
    (s = s'' ∧ i = k) ∨ ∃ s' j, goesOn s i s' ∧ next i = some j ∧ Comes next goesOn s' j s'' k := by
  induction h with
  | first => exact .inl ⟨rfl,rfl⟩
  | next _ hgo hk ih =>
    rcases ih with ⟨rfl,rfl⟩ | ⟨s',j,hgo',hj,hcomes⟩
    · exact .inr ⟨_,_,hgo,hk,.first⟩
    · exact .inr ⟨s',j,hgo',hj,hcomes.next hgo hk⟩

/-- Where the items come closer to an end, a loop logs what its body logs on the items that it comes to. -/
theorem all_loop_iff {rank : ι → ℕ} (hrank : ∀ i j, next i = some j → rank j < rank i)
    (hgo : ∀ s i s', (body s i).result = some (some s') ↔ goesOn s i s') {fuel : ℕ}
    (hfuel : rank i < fuel) (s : σ) :
    All P (loop next body fuel s (some i)) ↔ ∀ s' j, Comes next goesOn s i s' j → All P (body s' j) := by
  induction fuel generalizing s i with
  | zero => omega
  | succ fuel ih =>
    rw [loop, all_andThen]
    constructor
    · rintro ⟨hbody,hrest⟩ s'' k hk
      rcases hk.cases_head with ⟨rfl,rfl⟩ | ⟨s',j,hs',hj,hcomes⟩
      · exact hbody
      · have htail := hrest (some s') ((hgo s i s').mpr hs')
        have hlt := hrank i j hj
        simp only [hj] at htail
        exact (ih (by omega) s').mp htail s'' k hcomes
    · intro h
      refine ⟨h s i .first,fun a ha => ?_⟩
      cases a with
      | none => exact all_ret ()
      | some s' =>
        have hs' := (hgo s i s').mp ha
        cases hj : next i with
        | none => simp only [loop, all_ret]
        | some j =>
          have hlt := hrank i j hj
          exact (ih (by omega) s').mpr fun s'' k hcomes => h s'' k (hcomes.head hs' hj)

end Loop
end Logged
