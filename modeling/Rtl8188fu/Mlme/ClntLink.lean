import Rtl8188fu.Mlme.ClntJoin

/-! # The protocol of the station's join

A link goes from the wait for a beacon over authentication and association to being up. What one event can do to it
is said once; the bounds on what is sent and how often the timer runs out follow from that.
-/
namespace Rtl8188fu

inductive LinkPhase
  | idle
  | waiting
  | authenticating
  | associating
  | up
  deriving DecidableEq, Repr

structure Link where
  phase : LinkPhase
  reauth : ℕ
  reassoc : ℕ
  timed : Bool

/-- A join was begun and has no answer yet. -/
@[simp] def Link.pending (l : Link) : Bool := l.phase = .waiting || l.phase = .authenticating || l.phase = .associating

/-- What an event is to the link -/
inductive LinkCause
  | join
  /-- a join that is answered at once -/
  | refusal
  /-- a join that is neither begun nor answered -/
  | unheard
  | beacon
  | auth
  | assoc
  | timer
  | leave
  | other
  deriving DecidableEq

/-- What is sent and reported, as far as it is counted -/
structure Tally where
  authRequests : ℕ
  assocReqs : ℕ
  answers : ℕ

@[simp] def Tally.none : Tally := ⟨0,0,0⟩

/-- What one event does to the link, and what it sends and reports -/
inductive LinkStep (env : ClntEnv) : LinkCause → Link → Tally → Link → Prop
  | begins {l} : LinkStep env .join l .none { l with phase := .waiting, timed := true }
  | refused {l b ph} : (ph = .idle ∧ l.phase = .up ∨ ph = l.phase ∧ l.phase ≠ .up) →
      (l.phase ≠ .up → b = l.timed) →
      LinkStep env .refusal l ⟨0,0,env.event.toNat⟩ { l with phase := ph, timed := b }
  | unheard {l b ph} : (ph = .idle ∧ l.phase = .up ∨ ph = l.phase ∧ l.phase ≠ .up) →
      LinkStep env .unheard l .none { l with phase := ph, timed := b }
  | beacon {l} : l.phase = .waiting → LinkStep env .beacon l ⟨env.tx.toNat,0,0⟩ ⟨.authenticating,0,0,true⟩
  | auth {l} : l.phase = .authenticating →
      LinkStep env .auth l ⟨0,env.tx.toNat,0⟩ { l with phase := .associating, timed := true }
  | assoc {l} : l.phase = .associating →
      LinkStep env .assoc l ⟨0,0,env.event.toNat⟩ { l with phase := .up, timed := false }
  | rejected {l} : l.phase = .associating →
      LinkStep env .other l ⟨0,0,env.event.toNat⟩ { l with phase := .idle, timed := false }
  | authAgain {l} : l.phase = .authenticating → l.reauth < REAUTH_LIMIT →
      LinkStep env .timer l ⟨env.tx.toNat,0,0⟩ { l with reauth := l.reauth + 1, timed := true }
  | assocAgain {l} : l.phase = .associating → l.reassoc < REASSOC_LIMIT →
      LinkStep env .timer l ⟨0,env.tx.toNat,0⟩ { l with reassoc := l.reassoc + 1, timed := true }
  | givesUp {l r a} : l.pending = true → LinkStep env .timer l ⟨0,0,env.event.toNat⟩ ⟨.idle,r,a,false⟩
  | late {l} : l.pending = false → LinkStep env .timer l .none { l with timed := false }
  /-- the access point ends what is not up yet -/
  | cutOff {l} : l.pending = true → env.event = true → LinkStep env .other l ⟨0,0,1⟩ { l with phase := .idle }
  | dropped {l} : l.phase = .up → LinkStep env .other l .none { l with phase := .idle }
  | leaves {l} : LinkStep env .leave l .none { l with phase := .idle, timed := false }
  | stays {l b} : (l.timed = true → b = true) → LinkStep env .other l .none { l with timed := b }

/-- What the counters are bound to between two events -/
structure Link.Ok (l : Link) : Prop where
  reauth : l.phase = .authenticating → l.reauth ≤ REAUTH_LIMIT ∧ l.reassoc = 0
  reassoc : l.phase = .associating → l.reassoc ≤ REASSOC_LIMIT

/-- The authentication requests that a join has left -/
@[simp] def Link.authLeft (l : Link) : ℕ :=
  match l.phase with
  | .waiting => REAUTH_LIMIT + 1
  | .authenticating => REAUTH_LIMIT - l.reauth
  | _ => 0

@[simp] def Link.assocLeft (l : Link) : ℕ :=
  match l.phase with
  | .waiting => REASSOC_LIMIT + 1
  | .authenticating => REASSOC_LIMIT + 1
  | .associating => REASSOC_LIMIT - l.reassoc
  | _ => 0

/-- The times that the timer can run out before the join is answered -/
@[simp] def Link.timeLeft (l : Link) : ℕ :=
  match l.phase with
  | .waiting => REAUTH_LIMIT + REASSOC_LIMIT + 1
  | .authenticating => REAUTH_LIMIT - l.reauth + REASSOC_LIMIT + 1
  | .associating => REASSOC_LIMIT - l.reassoc + 1
  | _ => 0

@[simp] def LinkCause.joins : LinkCause → ℕ
  | .join | .refusal => 1
  | _ => 0

/-- What a step takes from the budgets of a join -/
structure Spent (c : LinkCause) (l : Link) (n : Tally) (l' : Link) : Prop where
  auth : n.authRequests + l'.authLeft ≤ l.authLeft + (REAUTH_LIMIT + 1) * c.joins
  assoc : n.assocReqs + l'.assocLeft ≤ l.assocLeft + (REASSOC_LIMIT + 1) * c.joins
  time : (if c = .timer ∧ l.pending = true then 1 else 0) + l'.timeLeft ≤
    l.timeLeft + (REAUTH_LIMIT + REASSOC_LIMIT + 1) * c.joins
  answer : n.answers + l'.pending.toNat ≤ l.pending.toNat + c.joins

section
variable {env : ClntEnv} {c : LinkCause} {l l' : Link} {n : Tally}

theorem phase_kept {ph p : LinkPhase} (h : p = .idle ∧ ph = .up ∨ p = ph ∧ ph ≠ .up) :
    p = ph ∨ p = .idle := by
  tauto

theorem LinkStep.ok (h : LinkStep env c l n l') (hl : l.Ok) : l'.Ok := by
  cases h with
  | refused hph _ =>
    rcases phase_kept hph with rfl | rfl
    · exact ⟨hl.reauth,hl.reassoc⟩
    · constructor <;> simp
  | unheard hph =>
    rcases phase_kept hph with rfl | rfl
    · exact ⟨hl.reauth,hl.reassoc⟩
    · constructor <;> simp
  | auth hp => exact ⟨by simp,fun _ => by simp [(hl.reauth hp).2]⟩
  | authAgain hp hlt => exact ⟨fun _ => ⟨hlt,(hl.reauth hp).2⟩,by simp [hp]⟩
  | assocAgain hp hlt => exact ⟨by simp [hp],fun _ => hlt⟩
  | late => exact ⟨hl.reauth,hl.reassoc⟩
  | stays => exact ⟨hl.reauth,hl.reassoc⟩
  | _ => constructor <;> simp

/-- A join command sends no request, and answers only what it refuses. -/
theorem LinkStep.quiet (h : LinkStep env c l n l') :
    (c = .join ∨ c = .unheard → n = .none) ∧ (c = .refusal → n = ⟨0,0,env.event.toNat⟩) := by
  cases h <;> simp

/-- While a join is pending the timer is set, unless a join in between is unheard. -/
theorem LinkStep.timed (h : LinkStep env c l n l') (hc : l.pending = true → c ≠ .unheard)
    (hl : l.pending = true → l.timed = true) : l'.pending = true → l'.timed = true := by
  intro hpend
  cases h with
  | refused hph htimer =>
    rcases phase_kept hph with rfl | rfl
    · by_cases hup : l.phase = .up
      · simp [hup] at hpend
      · exact (htimer hup).trans (hl hpend)
    · simp at hpend
  | unheard hph =>
    rcases phase_kept hph with rfl | rfl
    · exact absurd rfl (hc hpend)
    · simp at hpend
  | late hlate =>
    have hlate' := hpend.symm.trans hlate
    contradiction
  | stays hset => exact hset (hl hpend)
  | begins | beacon | auth | authAgain | assocAgain => rfl
  | assoc | rejected | givesUp | cutOff | dropped | leaves => simp at hpend

/-- A pending join is begun once and answered once, when it is not left, begun again or unheard and its answer is
queued. -/
theorem LinkStep.answered (h : LinkStep env c l n l') (hevent : env.event = true)
    (hc : l.pending = true → c ≠ .join ∧ c ≠ .leave) (hheard : c ≠ .unheard) :
    n.answers + l'.pending.toNat = l.pending.toNat + c.joins := by
  obtain ⟨ph,reauth,reassoc,timed⟩ := l
  cases h with
  | begins =>
    have hidle : (Link.pending ⟨ph,reauth,reassoc,timed⟩) = false :=
      Bool.eq_false_of_not_eq_true fun hpend => (hc hpend).1 rfl
    rw [hidle]
    rfl
  | refused hph =>
    rcases phase_kept hph with rfl | rfl
    · simp [hevent, Nat.add_comm]
    · cases ph <;> simp [hevent] at hph ⊢
  | unheard => exact absurd rfl hheard
  | leaves =>
    have hidle : (Link.pending ⟨ph,reauth,reassoc,timed⟩) = false :=
      Bool.eq_false_of_not_eq_true fun hpend => (hc hpend).2 rfl
    rw [hidle]
    rfl
  | givesUp hpend =>
    rw [hpend, hevent]
    rfl
  | cutOff hpend =>
    rw [hpend]
    rfl
  | beacon hp | auth hp | authAgain hp | assocAgain hp | dropped hp =>
    dsimp only at hp
    subst hp
    rfl
  | assoc hp | rejected hp =>
    dsimp only at hp
    subst hp
    rw [hevent]
    rfl
  | late hlate =>
    cases ph <;> simp at hlate ⊢
  | stays => exact (Nat.zero_add _)

theorem LinkStep.spent (h : LinkStep env c l n l') (hl : l.Ok) : Spent c l n l' := by
  have htx := Bool.toNat_le env.tx
  have hevent := Bool.toNat_le env.event
  obtain ⟨h1,h2⟩ := hl
  obtain ⟨ph,reauth,reassoc,timed⟩ := l
  dsimp only at h1 h2
  cases h with
  | begins => cases ph <;> constructor <;> simp
  | refused hph _ =>
    cases ph <;> rcases phase_kept hph with rfl | rfl <;> constructor <;> simp <;> omega
  | unheard hph =>
    cases ph <;> rcases phase_kept hph with rfl | rfl <;> constructor <;> simp
  | beacon hp =>
    subst hp
    constructor <;> simp
    omega
  | auth hp =>
    subst hp
    have hassoc := (h1 rfl).2
    constructor <;> simp <;> omega
  | assoc hp =>
    subst hp
    constructor <;> simp
    omega
  | rejected hp =>
    subst hp
    constructor <;> simp
    omega
  | authAgain hp hlt =>
    dsimp only at hp hlt
    subst hp
    constructor <;> simp <;> omega
  | assocAgain hp hlt =>
    dsimp only at hp hlt
    subst hp
    constructor <;> simp <;> omega
  | givesUp hp => cases ph <;> constructor <;> simp at hp ⊢ <;> omega
  | late hp => cases ph <;> constructor <;> simp at hp ⊢
  | cutOff hp => cases ph <;> constructor <;> simp at hp ⊢
  | dropped hp => cases ph <;> constructor <;> simp at hp ⊢
  | leaves => cases ph <;> constructor <;> simp
  | stays => cases ph <;> constructor <;> simp

end
end Rtl8188fu
