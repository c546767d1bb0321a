import Rtl8188fu.Mlme.ClntJoinRun

/-! # Runs of the station's join

What comes before a link is up, what one join can cost, that each join is answered once and that it ends.
-/
namespace Rtl8188fu
open Bytes Run

namespace ClntJoin

/-- A join was begun and is not answered. -/
def pending (s : ClntJoin) : Bool := s.state.linking && !s.state.assocSuccess

end ClntJoin

def ClntEvent.isJoin : ClntEvent → Bool
  | .join _ => true
  | _ => false

def ClntEvent.isTimer : ClntEvent → Bool
  | .linkTimer => true
  | _ => false

/-- The events of a run, each with the state that it meets -/
def clntTrace : ClntJoin → List (ClntEnv × ClntEvent) → List (ClntJoin × ClntEvent)
  | _, [] => []
  | s, e :: es => (s,e.2) :: clntTrace (clntStep s e) es

theorem clntTrace_append (s : ClntJoin) (es fs : List (ClntEnv × ClntEvent)) :
    clntTrace s (es ++ fs) = clntTrace s es ++ clntTrace (run clntStep s es) fs := by
  induction es generalizing s with
  | nil => rfl
  | cons e es ih => simp only [List.cons_append, clntTrace, ih, run_cons]

/-- The events that have brought a link to its phase -/
inductive Milestones : LinkPhase → List (ClntJoin × ClntEvent) → Prop
  | idle : Milestones .idle []
  | waiting (s : ClntJoin) (p : JoinParm) : p.Begun → Milestones .waiting [(s,.join p)]
  | authenticating {ms} (s : ClntJoin) (b : BeaconRead) : Milestones .waiting ms → b.scanning = false →
      b.addr3 = s.bssid → Milestones .authenticating (ms ++ [(s,.beacon b)])
  | associating {ms} (s : ClntJoin) (pframe : List UInt8) (pktLen : ℕ) : Milestones .authenticating ms →
      AuthDone s pframe → Milestones .associating (ms ++ [(s,.auth pframe pktLen)])
  | up {ms} (s : ClntJoin) (pframe : List UInt8) : Milestones .associating ms → AssocDone s pframe →
      Milestones .up (ms ++ [(s,.assocRsp pframe)])

section
variable {env : ClntEnv} {c : LinkCause} {l l' : Link} {n : Tally} {s : ClntJoin} {e : ClntEvent}
variable {ms : List (ClntJoin × ClntEvent)}

theorem milestones_kept {ph : LinkPhase} (h : ph = l.phase ∨ ph = .idle) (hms : Milestones l.phase ms) :
    ∃ ms', Milestones ph ms' ∧ ms'.Sublist (ms ++ [(s,e)]) := by
  rcases h with rfl | rfl
  · exact ⟨ms,hms,List.sublist_append_left _ _⟩
  · exact ⟨[],.idle,List.nil_sublist _⟩

theorem LinkStep.milestones (h : LinkStep env c l n l') (hmeans : Means s e c) (hms : Milestones l.phase ms) :
    ∃ ms', Milestones l'.phase ms' ∧ ms'.Sublist (ms ++ [(s,e)]) := by
  cases h with
  | begins =>
    cases hmeans with
    | join p hbegun => exact ⟨_,.waiting s p hbegun,List.sublist_append_right _ _⟩
  | beacon hp =>
    rw [hp] at hms
    cases hmeans with
    | beacon b hscan haddr => exact ⟨_,.authenticating s b hms hscan haddr,List.Sublist.refl _⟩
  | auth hp =>
    rw [hp] at hms
    cases hmeans with
    | auth pframe pktLen hdone => exact ⟨_,.associating s pframe pktLen hms hdone,List.Sublist.refl _⟩
  | assoc hp =>
    rw [hp] at hms
    cases hmeans with
    | assoc pframe hdone => exact ⟨_,.up s pframe hms hdone,List.Sublist.refl _⟩
  | refused hph | unheard hph => exact milestones_kept (phase_kept hph) hms
  | authAgain | assocAgain | late | stays => exact milestones_kept (Or.inl rfl) hms
  | rejected | givesUp | cutOff | dropped | leaves => exact milestones_kept (Or.inr rfl) hms

end

/-- A link is up only after a join that was begun, a beacon of the chosen network that was not heard while scanning, an
authentication frame and an association response that tell the station that it is accepted, in this order. -/
theorem up_after_milestones (mac : MacAddr) (es : List (ClntEnv × ClntEvent))
    (hup : (run clntStep (.init mac) es).state.assocSuccess = true) :
    ∃ ms, Milestones .up ms ∧ ms.Sublist (clntTrace (.init mac) es) := by
  have hrun : ∃ ph ms, (run clntStep (.init mac) es).state.In ph ∧ Milestones ph ms ∧
      ms.Sublist (clntTrace (.init mac) es) := by
    refine run_induction (s := ClntJoin.init mac) (fun _ => True) (fun past t =>
      t = run clntStep (.init mac) past ∧ ∃ ph ms, t.state.In ph ∧ Milestones ph ms ∧
        ms.Sublist (clntTrace (.init mac) past))
      ⟨rfl,.idle,[],.idle false,.idle,List.nil_sublist _⟩ ?_ es (fun _ _ => trivial) |>.2
    rintro past t ⟨env,e⟩ - ⟨ht,ph,ms,hph,hms,hsub⟩
    obtain ⟨c,hmeans,ph',more,hph',-,hstep⟩ := clntStep_follows hph env e
    obtain ⟨ms',hms',hsub'⟩ := hstep.milestones hmeans hms
    refine ⟨by rw [run_append, ← ht]; rfl,ph',ms',hph',hms',hsub'.trans ?_⟩
    rw [clntTrace_append, ← ht]
    exact hsub.append_right _
  obtain ⟨ph,ms,hph,hms,hsub⟩ := hrun
  obtain rfl := hph.up_iff.mp hup
  exact ⟨ms,hms,hsub⟩

/-- An open system join of the network `[2,0,0,0,0,9]` -/
theorem up_after_milestones_open :
    let es : List (ClntEnv × ClntEvent) := [(⟨true,true⟩,.join ⟨[2,0,0,0,0,9],100,true,100,true⟩),
      (⟨true,true⟩,.beacon ⟨[2,0,0,0,0,9],false,false,true⟩),
      (⟨true,true⟩,.auth ([0xb0,0,0,0,2,0,0,0,0,1] ++ [2,0,0,0,0,9,2,0,0,0,0,9] ++ [0,0,0,0,2,0,0,0]) 30),
      (⟨true,true⟩,.assocRsp ([0x10,0,0,0,2,0,0,0,0,1] ++ [2,0,0,0,0,9,2,0,0,0,0,9] ++ [0,0,1,0,0,0,1,0xc0]))]
    ∃ ms, Milestones .up ms ∧ ms.Sublist (clntTrace (.init [2,0,0,0,0,1]) es) :=
  up_after_milestones _ _ (by decide)

section
variable {s : ClntJoin} {ph : LinkPhase} {c : LinkCause} {e : ClntEvent}

theorem FwState.In.pending_eq {st : FwState} (h : st.In ph) : (st.linking && !st.assocSuccess) =
    (ph = .waiting || ph = .authenticating || ph = .associating) := by
  cases h <;> rfl

theorem pending_link (hp : s.state.In ph) : (s.link ph).pending = s.pending := hp.pending_eq.symm

theorem joins_le (h : Means s e c) : c.joins ≤ e.isJoin.toNat := by
  cases h <;> simp [ClntEvent.isJoin]

theorem countP_isJoin_append (past : List (ClntEnv × ClntEvent)) (env : ClntEnv) (e : ClntEvent) :
    (past ++ [(env,e)]).countP (fun x => x.2.isJoin) = past.countP (fun x => x.2.isJoin) + e.isJoin.toNat := by
  rw [List.countP_append, List.countP_singleton]
  cases e.isJoin <;> rfl

end

/-- What is kept between two events: a state in its phase, with counters that its phase allows -/
structure ClntJoin.InPhase (s : ClntJoin) (ph : LinkPhase) : Prop where
  state : s.state.In ph
  link : (s.link ph).Ok

theorem ClntJoin.inPhase_init (mac : MacAddr) : (ClntJoin.init mac).InPhase .idle := by
  refine ⟨.idle false,?_⟩
  constructor <;> simp [ClntJoin.link]

/-- What the events after a state have sent and reported, and what is left of its join -/
structure Budget (s : ClntJoin) (ph : LinkPhase) (t : ClntJoin) (ph' : LinkPhase) (more : List ClntOut) : Prop where
  auth : (tally more).authRequests + (t.link ph').authLeft ≤ (s.link ph).authLeft
  assoc : (tally more).assocReqs + (t.link ph').assocLeft ≤ (s.link ph).assocLeft
  answer : (tally more).answers + t.pending.toNat ≤ s.pending.toNat

theorem tally_append (o more : List ClntOut) : tally (o ++ more) =
    ⟨(tally o).authRequests + (tally more).authRequests,(tally o).assocReqs + (tally more).assocReqs,
      (tally o).answers + (tally more).answers⟩ := by
  simp only [tally, List.countP_append]

theorem budget_step {s : ClntJoin} {ph : LinkPhase} (hs : s.InPhase ph) (env : ClntEnv) {e : ClntEvent}
    (hjoin : e.isJoin = false) :
    ∃ ph' more, (clntStep s (env,e)).InPhase ph' ∧ (clntStep s (env,e)).out = s.out ++ more ∧
      Budget s ph (clntStep s (env,e)) ph' more := by
  obtain ⟨c,hmeans,ph',more,hph',hout,hstep⟩ := clntStep_follows hs.state env e
  obtain ⟨hauth,hassoc,-,hanswer⟩ := hstep.spent hs.link
  have hjoins := joins_le hmeans
  rw [hjoin, Bool.toNat_false, Nat.le_zero] at hjoins
  rw [hjoins] at hauth hassoc hanswer
  rw [pending_link hs.state, pending_link hph'] at hanswer
  exact ⟨ph',more,⟨hph',hstep.ok hs.link⟩,hout,hauth,hassoc,hanswer⟩

theorem budget_run {fs : List (ClntEnv × ClntEvent)} {s : ClntJoin} {ph : LinkPhase} (hs : s.InPhase ph)
    (hjoins : ∀ f ∈ fs, f.2.isJoin = false) :
    ∃ ph' more, (run clntStep s fs).InPhase ph' ∧ (run clntStep s fs).out = s.out ++ more ∧
      Budget s ph (run clntStep s fs) ph' more := by
  induction fs generalizing s ph with
  | nil => exact ⟨ph,[],hs,(List.append_nil _).symm,⟨by simp [tally],by simp [tally],by simp [tally]⟩⟩
  | cons f fs ih =>
    obtain ⟨env,e⟩ := f
    have hjoin : e.isJoin = false := hjoins _ List.mem_cons_self
    obtain ⟨ph1,o,hs1,hout1,h1⟩ := budget_step hs env hjoin
    obtain ⟨ph',more,hs',hout,h⟩ := ih hs1 fun g hg => hjoins g (List.mem_cons_of_mem _ hg)
    rw [run_cons]
    refine ⟨ph',o ++ more,hs',by rw [hout, hout1, List.append_assoc],?_,?_,?_⟩
    · have := h1.auth
      have := h.auth
      rw [tally_append]
      dsimp only
      omega
    · have := h1.assoc
      have := h.assoc
      rw [tally_append]
      dsimp only
      omega
    · have := h1.answer
      have := h.answer
      rw [tally_append]
      dsimp only
      omega

theorem authLeft_le (l : Link) : l.authLeft ≤ 5 := by
  obtain ⟨ph,reauth,reassoc,timed⟩ := l
  cases ph <;> simp [REAUTH_LIMIT]
  omega

theorem assocLeft_le (l : Link) : l.assocLeft ≤ 5 := by
  obtain ⟨ph,reauth,reassoc,timed⟩ := l
  cases ph <;> simp [REASSOC_LIMIT]
  omega

theorem reachable_inPhase (mac : MacAddr) (es : List (ClntEnv × ClntEvent)) :
    ∃ ph, (run clntStep (.init mac) es).InPhase ph := by
  refine run_induction (fun _ => True) (fun _ (t : ClntJoin) => ∃ ph, t.InPhase ph)
    ⟨.idle,ClntJoin.inPhase_init mac⟩ ?_ es fun _ _ => trivial
  rintro - t ⟨env,e⟩ - ⟨ph,ht⟩
  obtain ⟨c,-,ph',more,hph',-,hstep⟩ := clntStep_follows ht.state env e
  exact ⟨ph',hph',hstep.ok ht.link⟩

/-- A join command sends no request, and is answered at once or not at once. -/
theorem join_quiet {s : ClntJoin} {ph : LinkPhase} (hs : s.InPhase ph) (env : ClntEnv) (p : JoinParm) :
    ∃ more, (clntStep s (env,.join p)).out = s.out ++ more ∧ more.countP ClntOut.isAuthRequest = 0 ∧
      more.countP ClntOut.isAssocReq = 0 ∧ more.countP ClntOut.isAnswer ≤ 1 ∧
      (p.Begun → more.countP ClntOut.isAnswer = 0) := by
  obtain ⟨c,hmeans,ph',more,hph',hout,hstep⟩ := clntStep_follows hs.state env (.join p)
  obtain ⟨hquiet,hrefused⟩ := hstep.quiet
  refine ⟨more,hout,?_⟩
  by_cases hc : c = .refusal
  · have htally := hrefused hc
    simp only [tally, Tally.mk.injEq] at htally
    refine ⟨htally.1,htally.2.1,htally.2.2 ▸ Bool.toNat_le _,fun hbegun => ?_⟩
    subst hc
    cases hmeans with
    | refusal _ _ hnot => exact absurd hbegun hnot
  · have htally : tally more = .none := by
      apply hquiet
      cases hmeans with
      | join | unheard => simp
      | refusal => exact absurd rfl hc
      | other _ hnot _ => exact absurd rfl (hnot p)
    simp only [tally, Tally.none, Tally.mk.injEq] at htally
    exact ⟨htally.1,htally.2.1,htally.2.2.le.trans (Nat.zero_le _),fun _ => htally.2.2⟩

/-- Whatever frames come, from one join command to the next five authentication requests and five association requests
are sent at most, and a pending join is answered once at most, and not before it ends. A join command that is begun
sends and reports nothing itself. -/
theorem join_budget (mac : MacAddr) (es fs : List (ClntEnv × ClntEvent)) (hjoins : ∀ f ∈ fs, f.2.isJoin = false) :
    (∃ more, (run clntStep (.init mac) (es ++ fs)).out = (run clntStep (.init mac) es).out ++ more ∧
      more.countP ClntOut.isAuthRequest ≤ 5 ∧ more.countP ClntOut.isAssocReq ≤ 5 ∧
      more.countP ClntOut.isAnswer + (run clntStep (.init mac) (es ++ fs)).pending.toNat ≤
        (run clntStep (.init mac) es).pending.toNat) ∧
    ∀ env p, ∃ more, (run clntStep (.init mac) (es ++ [(env,.join p)])).out =
      (run clntStep (.init mac) es).out ++ more ∧
      more.countP ClntOut.isAuthRequest = 0 ∧ more.countP ClntOut.isAssocReq = 0 ∧
      more.countP ClntOut.isAnswer ≤ 1 ∧
      (p.Begun → more.countP ClntOut.isAnswer = 0) := by
  obtain ⟨ph,hs⟩ := reachable_inPhase mac es
  simp only [run_append]
  constructor
  · obtain ⟨ph',more,-,hout,hauth,hassoc,hanswer⟩ := budget_run hs hjoins
    exact ⟨more,hout,(Nat.le_add_right _ _).trans (hauth.trans (authLeft_le _)),
      (Nat.le_add_right _ _).trans (hassoc.trans (assocLeft_le _)),hanswer⟩
  · exact fun env p => join_quiet hs env p

/-- A beacon, and no answer to four repetitions of the authentication request -/
theorem join_budget_unanswered :
    let es : List (ClntEnv × ClntEvent) := [(⟨true,true⟩,.join ⟨[2,0,0,0,0,9],100,true,100,true⟩)]
    let fs : List (ClntEnv × ClntEvent) :=
      (⟨true,true⟩,.beacon ⟨[2,0,0,0,0,9],false,false,true⟩) :: List.replicate 5 (⟨true,true⟩,.linkTimer)
    ∃ more, (run clntStep (.init [2,0,0,0,0,1]) (es ++ fs)).out =
      (run clntStep (.init [2,0,0,0,0,1]) es).out ++ more ∧
      more.countP ClntOut.isAuthRequest = 5 ∧ more.countP ClntOut.isAnswer = 1 ∧
        more.countP ClntOut.isAssocReq ≤ 5 := by
  intro es fs
  obtain ⟨⟨more,hout,-,hassoc,-⟩,-⟩ := join_budget [2,0,0,0,0,1] es fs (by decide)
  have hmore : more = (run clntStep (.init [2,0,0,0,0,1]) (es ++ fs)).out := hout.symm
  exact ⟨more,hout,by rw [hmore]; decide,by rw [hmore]; decide,hassoc⟩

/-- Reports can be queued, joins are begun or refused and come alone, and none is broken off. -/
def Answerable (s : ClntJoin) (e : ClntEnv × ClntEvent) : Prop :=
  e.1.event = true ∧ (∀ p, e.2 = .join p → p.Heard) ∧
    (s.pending = true → e.2.isJoin = false ∧ e.2 ≠ .disconnect ∧ e.2 ≠ .staDel)

theorem answered_step {s : ClntJoin} {ph : LinkPhase} (hs : s.InPhase ph) {env : ClntEnv} {e : ClntEvent}
    (ha : Answerable s (env,e)) :
    ∃ ph', (clntStep s (env,e)).InPhase ph' ∧
      (tally (clntStep s (env,e)).out).answers + (clntStep s (env,e)).pending.toNat =
        (tally s.out).answers + s.pending.toNat + e.isJoin.toNat := by
  obtain ⟨hevent,hheard,halone⟩ := ha
  obtain ⟨c,hmeans,ph',more,hph',hout,hstep⟩ := clntStep_follows hs.state env e
  refine ⟨ph',⟨hph',hstep.ok hs.link⟩,?_⟩
  have hc : (s.link ph).pending = true → c ≠ .join ∧ c ≠ .leave := by
    rw [pending_link hs.state]
    intro hpend
    obtain ⟨hjoin,hdisc,hdel⟩ := halone hpend
    cases hmeans <;> simp_all [ClntEvent.isJoin]
  have hunheard : c ≠ .unheard := by
    rintro rfl
    cases hmeans with
    | unheard p hnot => exact hnot (hheard p rfl)
  have hjoins : c.joins = e.isJoin.toNat := by
    cases hmeans with
    | unheard => exact absurd rfl hunheard
    | other e hnot => cases e <;> simp_all [ClntEvent.isJoin]
    | _ => rfl
  have hanswer := hstep.answered hevent hc hunheard
  rw [pending_link hs.state, pending_link hph', hjoins] at hanswer
  have hmore : (tally (clntStep s (env,e)).out).answers = (tally s.out).answers + (tally more).answers := by
    rw [hout]
    exact List.countP_append
  omega

/-- Each join is answered exactly once, or is pending and not answered. -/
theorem join_answered_once (mac : MacAddr) (es : List (ClntEnv × ClntEvent))
    (h : Safe clntStep Answerable (.init mac) es) :
    (run clntStep (.init mac) es).out.countP ClntOut.isAnswer + (run clntStep (.init mac) es).pending.toNat =
      es.countP (fun e => e.2.isJoin) := by
  have hkeep : ∀ (past : List (ClntEnv × ClntEvent)) (s : ClntJoin) (e : ClntEnv × ClntEvent), Answerable s e →
      (∃ ph, s.InPhase ph ∧ (tally s.out).answers + s.pending.toNat = past.countP fun e => e.2.isJoin) →
      ∃ ph, (clntStep s e).InPhase ph ∧
        (tally (clntStep s e).out).answers + (clntStep s e).pending.toNat =
          (past ++ [e]).countP fun e => e.2.isJoin := by
    rintro past s ⟨env,e⟩ ha ⟨ph,hs,hcount⟩
    obtain ⟨ph',hs',hstep⟩ := answered_step hs ha
    refine ⟨ph',hs',?_⟩
    rw [countP_isJoin_append, hstep, hcount]
  have hinit : ∃ ph, (ClntJoin.init mac).InPhase ph ∧ (tally (ClntJoin.init mac).out).answers +
      (ClntJoin.init mac).pending.toNat = ([] : List (ClntEnv × ClntEvent)).countP fun e => e.2.isJoin :=
    ⟨.idle,ClntJoin.inPhase_init mac,rfl⟩
  obtain ⟨ph,-,hcount⟩ := h.history (fun past s => ∃ ph, s.InPhase ph ∧
    (tally s.out).answers + s.pending.toNat = past.countP fun e => e.2.isJoin) hkeep hinit
  exact hcount

/-- A join that is given up, and one that is refused -/
theorem join_answered_once_twice :
    let es : List (ClntEnv × ClntEvent) :=
      [(⟨true,true⟩,.join ⟨[2,0,0,0,0,9],100,true,100,true⟩),(⟨true,true⟩,.linkTimer),
      (⟨true,true⟩,.join ⟨[2,0,0,0,0,9],1,true,100,true⟩)]
    (run clntStep (.init [2,0,0,0,0,1]) es).out.countP ClntOut.isAnswer +
      (run clntStep (.init [2,0,0,0,0,1]) es).pending.toNat = es.countP (fun e => e.2.isJoin) := by
  intro es
  refine join_answered_once _ es ⟨⟨rfl,?_,?_⟩,⟨rfl,?_,?_⟩,⟨rfl,?_,?_⟩,trivial⟩
  · rintro p ⟨rfl⟩
    decide
  · intro hpend
    cases hpend
  · simp
  · simp [ClntEvent.isJoin]
  · rintro p ⟨rfl⟩
    decide
  · intro hpend
    cases hpend

/-- A join comes to nothing only when none is pending. -/
def HeardWhilePending (s : ClntJoin) (e : ClntEnv × ClntEvent) : Prop :=
  s.pending = true → ∀ p, e.2 = .join p → p.Heard

theorem timed_step {s : ClntJoin} {ph : LinkPhase} (hs : s.InPhase ph)
    (htimed : s.pending = true → s.linkTimer.isSome = true)
    {env : ClntEnv} {e : ClntEvent} (ha : HeardWhilePending s (env,e)) :
    ∃ ph', (clntStep s (env,e)).InPhase ph' ∧
      ((clntStep s (env,e)).pending = true → (clntStep s (env,e)).linkTimer.isSome = true) ∧
      (e.isJoin = false → (s.pending && e.isTimer).toNat + ((clntStep s (env,e)).link ph').timeLeft ≤
        (s.link ph).timeLeft) := by
  obtain ⟨c,hmeans,ph',more,hph',hout,hstep⟩ := clntStep_follows hs.state env e
  have hspent := (hstep.spent hs.link).time
  refine ⟨ph',⟨hph',hstep.ok hs.link⟩,?_,?_⟩
  · have hc : (s.link ph).pending = true → c ≠ .unheard := by
      rw [pending_link hs.state]
      rintro hpend rfl
      cases hmeans with
      | unheard p hnot => exact hnot (ha hpend p rfl)
    have h := hstep.timed hc (by rwa [pending_link hs.state])
    rwa [pending_link hph'] at h
  · intro hjoin
    have hc : c.joins = 0 := by
      have hle := joins_le hmeans
      rw [hjoin] at hle
      exact Nat.le_zero.mp hle
    rw [hc, pending_link hs.state] at hspent
    by_cases hpend : s.pending = true ∧ e.isTimer = true
    · obtain ⟨hpend,htimer⟩ := hpend
      have hcause : c = .timer := by
        have hset := htimed hpend
        cases e <;> simp [ClntEvent.isTimer] at htimer
        cases hmeans with
        | timer => rfl
        | other e hnot hunset => simp [hunset rfl] at hset
      rw [if_pos ⟨hcause,hpend⟩] at hspent
      rw [hpend, htimer]
      exact hspent
    · have hnone : (s.pending && e.isTimer) = false := by simpa using hpend
      rw [hnone, Bool.toNat_false]
      omega

theorem timeLeft_pos {l : Link} (h : l.pending = true) : 0 < l.timeLeft := by
  obtain ⟨ph,reauth,reassoc,timed⟩ := l
  cases ph <;> simp at h ⊢

theorem timeLeft_le (l : Link) : l.timeLeft ≤ REAUTH_LIMIT + REASSOC_LIMIT + 1 := by
  obtain ⟨ph,reauth,reassoc,timed⟩ := l
  cases ph <;> simp
  omega

/-- As long as a join is pending, each time that the timer runs out takes from the time that is left. -/
theorem time_run {fs : List (ClntEnv × ClntEvent)} {s : ClntJoin} {ph : LinkPhase} (hs : s.InPhase ph)
    (htimed : s.pending = true → s.linkTimer.isSome = true) (hjoins : ∀ f ∈ fs, f.2.isJoin = false)
    (hpend : ∀ past, past <+: fs → (run clntStep s past).pending = true) :
    ∃ ph', (run clntStep s fs).InPhase ph' ∧
      fs.countP (fun f => f.2.isTimer) + ((run clntStep s fs).link ph').timeLeft ≤ (s.link ph).timeLeft := by
  induction fs generalizing s ph with
  | nil => exact ⟨ph,hs,by simp⟩
  | cons f fs ih =>
    obtain ⟨env,e⟩ := f
    have hjoin := hjoins _ List.mem_cons_self
    have hheard : HeardWhilePending s (env,e) := by
      rintro - p rfl
      simp [ClntEvent.isJoin] at hjoin
    obtain ⟨ph1,hs1,htimed1,htime⟩ := timed_step hs htimed hheard
    have hspent := htime hjoin
    have hnow : s.pending = true := hpend [] List.nil_prefix
    rw [hnow, Bool.true_and] at hspent
    obtain ⟨ph',hs',hrest⟩ := ih hs1 htimed1 (fun g hg => hjoins g (List.mem_cons_of_mem _ hg))
      fun past hpast => hpend ((env,e) :: past) ((List.prefix_cons_inj _).mpr hpast)
    refine ⟨ph',hs',?_⟩
    have hcount :
        ((env,e) :: fs).countP (fun f => f.2.isTimer) = fs.countP (fun f => f.2.isTimer) + e.isTimer.toNat := by
      rw [List.countP_cons]
      cases e.isTimer <;> rfl
    rw [hcount, run_cons]
    omega

/-- A pending join has been answered or given up when the timer has run out nine times, whatever else has happened. -/
theorem join_ends (mac : MacAddr) (es fs : List (ClntEnv × ClntEvent))
    (hes : Safe clntStep HeardWhilePending (.init mac) es) (hjoins : ∀ f ∈ fs, f.2.isJoin = false)
    (htimer : 9 ≤ fs.countP fun f => f.2.isTimer) :
    ∃ past, past <+: fs ∧ (run clntStep (.init mac) (es ++ past)).pending = false := by
  have hkeep : ∀ (s : ClntJoin) (e : ClntEnv × ClntEvent), HeardWhilePending s e →
      (∃ ph, s.InPhase ph ∧ (s.pending = true → s.linkTimer.isSome = true)) →
      ∃ ph, (clntStep s e).InPhase ph ∧
        ((clntStep s e).pending = true → (clntStep s e).linkTimer.isSome = true) := by
    rintro s ⟨env,e⟩ ha ⟨ph,hs,htimed⟩
    obtain ⟨ph',hs',htimed',-⟩ := timed_step hs htimed ha
    exact ⟨ph',hs',htimed'⟩
  have hinit : ∃ ph, (ClntJoin.init mac).InPhase ph ∧
      ((ClntJoin.init mac).pending = true → (ClntJoin.init mac).linkTimer.isSome = true) :=
    ⟨.idle,ClntJoin.inPhase_init mac,by simp [ClntJoin.pending, ClntJoin.init, FwState.linking, FwState.null]⟩
  obtain ⟨ph,hs,htimed⟩ := hes.induction (fun s : ClntJoin =>
    ∃ ph, s.InPhase ph ∧ (s.pending = true → s.linkTimer.isSome = true)) hkeep hinit es (List.prefix_refl es)
  simp only [run_append]
  by_contra hnever
  push Not at hnever
  have hpend : ∀ past, past <+: fs → (run clntStep (run clntStep (.init mac) es) past).pending = true :=
    fun past hpast => by simpa using hnever past hpast
  obtain ⟨ph',hs',htime⟩ := time_run hs htimed hjoins hpend
  have hleft : 0 < ((run clntStep (run clntStep (.init mac) es) fs).link ph').timeLeft := by
    refine timeLeft_pos ?_
    rw [pending_link hs'.state]
    exact hpend fs (List.prefix_refl fs)
  have hmax := timeLeft_le ((run clntStep (.init mac) es).link ph)
  simp only [REAUTH_LIMIT, REASSOC_LIMIT] at hmax
  omega

/-- Nine times the timer, and no access point -/
theorem join_ends_silence :
    ∃ past, past <+: List.replicate 9 ((⟨true,true⟩,.linkTimer) : ClntEnv × ClntEvent) ∧
      (run clntStep (.init [2,0,0,0,0,1])
        ([(⟨true,true⟩,.join ⟨[2,0,0,0,0,9],100,true,100,true⟩)] ++ past)).pending = false := by
  refine join_ends _ _ _ ⟨?_,trivial⟩ ?_ ?_
  · rintro - p ⟨rfl⟩
    decide
  · intro f hf
    rw [List.eq_of_mem_replicate hf]
    rfl
  · decide

/-- A join of a network that is neither of the two kinds stops the timer of the join before. -/
example :
    let s := run clntStep (.init [2,0,0,0,0,1]) [(⟨true,true⟩,.join ⟨[2,0,0,0,0,9],100,true,100,true⟩),
      (⟨true,true⟩,.join ⟨[2,0,0,0,0,9],100,false,100,true⟩)]
    s.pending = true ∧ s.linkTimer = none := by decide

/-- The same frame, from another sender and for another network -/
structure Readdressed (f g : List UInt8) : Prop where
  hdr : f.take 10 = g.take 10
  rest : f.drop 22 = g.drop 22

theorem Readdressed.le16At {f g : List UInt8} (h : Readdressed f g) {i : ℕ} (hi : i + 2 ≤ 10 ∨ 22 ≤ i) :
    le16At f i = le16At g i := by
  rcases hi with hi | hi
  · exact le16At_congr h.hdr hi
  · have hbyte : ∀ j, 22 ≤ j → byteAt f j = byteAt g j := by
      intro j hj
      have hsame := congrArg (byteAt · (j - 22)) h.rest
      rwa [byteAt_drop, byteAt_drop, Nat.add_sub_cancel' hj] at hsame
    simp only [Rtl8188fu.le16At, hbyte i hi, hbyte (i + 1) (by omega)]

theorem Readdressed.drop {f g : List UInt8} (h : Readdressed f g) {i : ℕ} (hi : 22 ≤ i) : f.drop i = g.drop i := by
  have hsame := congrArg (List.drop (i - 22)) h.rest
  rwa [List.drop_drop, List.drop_drop, Nat.add_sub_cancel' hi] at hsame

/-- In a frame that is not for the distribution system the receiver is the first address. -/
theorem getDa_of_not_toDs {f : List UInt8} (h : getToDs f = false) : getDa f = getAddr1Ptr f := by
  have htods : getToFrDs f = (getFrDs f).toNat := by simp [getToFrDs, h]
  rw [getDa, htods]
  cases getFrDs f <;> rfl

theorem Readdressed.getDa {f g : List UInt8} (h : Readdressed f g) (hds : getToDs f = false) : getDa f = getDa g := by
  have hds' : getToDs g = false := by rwa [getToDs, h.le16At (Or.inl (by omega))] at hds
  have haddr : ∀ p : List UInt8, getAddr1Ptr p = slice (p.take 10) 4 ETH_ALEN := by
    intro p
    exact (slice_slice (m := p) (i := 0) (j := 4) (n := 10) (by decide)).symm
  rw [getDa_of_not_toDs hds, getDa_of_not_toDs hds', haddr f, haddr g, h.hdr]

theorem Readdressed.onAuthClient {f g : List UInt8} (h : Readdressed f g) (hds : getToDs f = false) (env : ClntEnv)
    (pktLen : ℕ) (s : ClntJoin) : onAuthClient env f pktLen s = onAuthClient env g pktLen s := by
  have hoffset : authOffset f = authOffset g := by
    rw [authOffset, authOffset, getPrivacy, getPrivacy, h.le16At (Or.inl (by omega))]
  have hfield : ∀ i, Rtl8188fu.le16At f (WLAN_HDR_A3_LEN + authOffset f + i) =
      Rtl8188fu.le16At g (WLAN_HDR_A3_LEN + authOffset g + i) := by
    intro i
    rw [← hoffset]
    refine h.le16At (Or.inr ?_)
    simp only [WLAN_HDR_A3_LEN]
    omega
  have hies := h.drop (i := WLAN_HDR_A3_LEN + _AUTH_IE_OFFSET_) (by decide)
  simp only [Rtl8188fu.onAuthClient, clientChallenge, h.getDa hds, hfield, hies]

theorem Readdressed.onClntAssocRsp {f g : List UInt8} (h : Readdressed f g) (hds : getToDs f = false) (env : ClntEnv)
    (s : ClntJoin) : onClntAssocRsp env f s = onClntAssocRsp env g s := by
  have hstatus := h.le16At (i := WLAN_HDR_A3_LEN + 2) (Or.inr (by decide))
  have haid := h.le16At (i := WLAN_HDR_A3_LEN + 4) (Or.inr (by decide))
  simp only [Rtl8188fu.onClntAssocRsp, h.getDa hds, hstatus, haid]

/-- The event itself, or with an authentication frame or association response that is readdressed -/
inductive ClntEvent.Like : ClntEvent → ClntEvent → Prop
  | auth {f g : List UInt8} (pktLen : ℕ) : Readdressed f g → getToDs f = false → Like (.auth f pktLen)
    (.auth g pktLen)
  | assocRsp {f g : List UInt8} : Readdressed f g → getToDs f = false → Like (.assocRsp f) (.assocRsp g)
  | same (e : ClntEvent) : Like e e

theorem ClntEvent.Like.step {e f : ClntEvent} (h : e.Like f) (s : ClntJoin) (env : ClntEnv) :
    clntStep s (env,e) = clntStep s (env,f) := by
  cases h with
  | auth pktLen hframe hds => exact hframe.onAuthClient hds env pktLen s
  | assocRsp hframe hds => exact hframe.onClntAssocRsp hds env s
  | same => rfl

/-- Nobody looks at who has sent the frames that carry a join on: a run whose authentication frames and association
responses come from other senders and name other networks is the same run. -/
theorem sender_unchecked (s : ClntJoin) {es fs : List (ClntEnv × ClntEvent)}
    (h : List.Forall₂ (fun e f => e.1 = f.1 ∧ e.2.Like f.2) es fs) : run clntStep s es = run clntStep s fs := by
  induction h generalizing s with
  | nil => rfl
  | @cons e f es fs hef _ ih =>
    have hstep : clntStep s e = clntStep s f := by
      calc clntStep s e = clntStep s (e.1,f.2) := hef.2.step s e.1
        _ = clntStep s f := by rw [hef.1]
    rw [run_cons, run_cons, hstep, ih]

/-- The frames of a stranger that take a station from the beacon on to a link -/
theorem sender_unchecked_stranger :
    let known : List (ClntEnv × ClntEvent) := [(⟨true,true⟩,.join ⟨[2,0,0,0,0,9],100,true,100,true⟩),
      (⟨true,true⟩,.beacon ⟨[2,0,0,0,0,9],false,false,true⟩)]
    let link (a : List UInt8) : List (ClntEnv × ClntEvent) :=
      [(⟨true,true⟩,.auth ([0xb0,0,0,0,2,0,0,0,0,1] ++ a ++ [0,0,0,0,2,0,0,0]) 30),
        (⟨true,true⟩,.assocRsp ([0x10,0,0,0,2,0,0,0,0,1] ++ a ++ [0,0,1,0,0,0,1,0xc0]))]
    (run clntStep (.init [2,0,0,0,0,1]) (known ++ link [6,6,6,6,6,6,6,6,6,6,6,6])).state.assocSuccess = true := by
  intro known link
  have hsame : run clntStep (.init [2,0,0,0,0,1]) (known ++ link [6,6,6,6,6,6,6,6,6,6,6,6]) =
      run clntStep (.init [2,0,0,0,0,1]) (known ++ link [2,0,0,0,0,9,2,0,0,0,0,9]) := by
    refine sender_unchecked _ (.cons ⟨rfl,.same _⟩
      (.cons ⟨rfl,.same _⟩ (.cons ⟨rfl,?_⟩ (.cons ⟨rfl,?_⟩ .nil))))
    · exact .auth _ ⟨by decide,by decide⟩ (by decide)
    · exact .assocRsp ⟨by decide,by decide⟩ (by decide)
  rw [hsame]
  decide

end Rtl8188fu
