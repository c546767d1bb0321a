import Rtl8188fu.Library.PartialRun
import Rtl8188fu.Ap.AuthProtocol

/-! # Runs of authentication and association

Shared key authentication cannot be bypassed, and a protected association stays, in every run
whose frames are in order.
-/
namespace Rtl8188fu
open Bytes

def authRun (w : Bool) (sec : SecurityPriv) (es : List AuthEvent) : Option AuthAp :=
  PartialRun.run (authStep w sec) .init es

/-- The frame comes from the station in the table at `a`. -/
def FrameOf (a : MacAddr) (f : RecvFrame) : Prop := a = getAddr2Ptr f.buf.ptr ∨ a = staKey (getAddr2Ptr f.buf.ptr)

/-- A frame of sequence 1 of the station was answered with the challenge text `c`. -/
def Challenged (w : Bool) (sec : SecurityPriv) (past : List AuthEvent) (a : MacAddr) (c : List UInt8) : Prop :=
  ∃ p f allowed room s r reply, p ++ [.auth f allowed room] <+: past ∧
    authRun w sec (p ++ [.auth f allowed room]) = some s ∧
    FrameOf a f ∧ readAuth sec f = some r ∧ r.seq = 1 ∧ s.sent.head? = some reply ∧ reply.ra = a ∧
      reply.challenge = some c

def WasAuthenticated (w : Bool) (sec : SecurityPriv) (past : List AuthEvent) (a : MacAddr) : Prop :=
  ∃ p s sta, p <+: past ∧ authRun w sec p = some s ∧ s.table a = some sta ∧ sta.authSuccess = true

/-- The frame is protected with a key that is set, its ICV is right, and it has a challenge text
of 128 bytes. -/
def ProperAnswer (sec : SecurityPriv) (f : RecvFrame) (r : AuthRead) : Prop :=
  getPrivacy f.buf.ptr = true ∧ sec.dot11DefKeylen r.frame.attrib.keyIndex ≠ 0 ∧ icvCompare r.frame = true ∧
    ∃ p, findChallenge r.frame = some (p,128) ∧
      WLAN_HDR_A3_LEN + 4 + _AUTH_IE_OFFSET_ + p + 2 + 128 + 4 ≤ f.buf.len

/-- What no authentication frame may change of a protected station -/
def SameState (sta sta' : AuthSta) : Prop :=
  sta'.authNull = sta.authNull ∧ sta'.authState = sta.authState ∧ sta'.authSuccess = sta.authSuccess ∧
    sta'.assocState = sta.assocState ∧ sta'.assocSuccess = sta.assocSuccess ∧
    sta'.inAuthList = sta.inAuthList ∧ sta'.inAsocList = sta.inAsocList

/-- The station at `a` has the bit behind the step, and had it not before. -/
def Enters (bit : AuthSta → Bool) (s s' : AuthAp) (a : MacAddr) : Prop :=
  (∀ sta, s.table a = some sta → bit sta = false) ∧ ∃ sta, s'.table a = some sta ∧ bit sta = true

/-- Authentication is not bypassed, and associated stations keep what they have. -/
structure AuthSafe (w : Bool) (sec : SecurityPriv) (es : List AuthEvent) : Prop where
  sharedKey : sec.dot11AuthAlgrthm = .shared → ∀ past e s s' a, past ++ [e] <+: es →
    authRun w sec past = some s →
    authStep w sec s e = some s' → Enters AuthSta.authSuccess s s' a →
    ∃ f allowed room r p, e = .auth f allowed room ∧ FrameOf a f ∧ readAuth sec f = some r ∧ r.seq = 3 ∧
      ProperAnswer sec f r ∧
      findChallenge r.frame = some (p,128) ∧ Challenged w sec past a (challengeBytes r.frame p)
  association : ∀ past e s s' a, past ++ [e] <+: es → authRun w sec past = some s →
    authStep w sec s e = some s' →
    Enters AuthSta.assocSuccess s s' a → WasAuthenticated w sec past a
  protectedSta : w = true → ∀ past f allowed room s s' a sta, past ++ [.auth f allowed room] <+: es →
    authRun w sec past = some s → authStep w sec s (.auth f allowed room) = some s' → s.table a = some sta →
    sta.bpairwiseKeyInstalled = true → sta.assocSuccess = true → ∃ sta', s'.table a = some sta' ∧
      SameState sta sta'

/-- The frame has the challenge text, which is always the same, where `OnAuth` looks for it. -/
def HasChallengeText (r : AuthRead) : Prop :=
  ∃ p len, findChallenge r.frame = some (p,len) ∧ challengeBytes r.frame p = List.replicate 128 78

/-- The condition on an event in the state that it meets: a frame with the challenge text is a
proper answer, and a frame that meets a protected and associated station has sequence 1 or is
refused before. -/
def AuthEventOk (w : Bool) (sec : SecurityPriv) (s : AuthAp) : AuthEvent → Prop
  | .auth f allowed _ => ∀ r, readAuth sec f = some r →
    (sec.dot11AuthAlgrthm = .shared → r.seq = 3 → HasChallengeText r → ProperAnswer sec f r) ∧
      (w = true → ∀ sta, s.table (staKey (getAddr2Ptr f.buf.ptr)) = some sta →
        sta.bpairwiseKeyInstalled = true →
        sta.assocSuccess = true → r.seq = 1 ∨ badAlgorithm sec r.algorithm = true ∨ allowed = false)
  | _ => True

/-- What an authentication frame leaves alone -/
def SameAssoc (sta sta' : AuthSta) : Prop :=
  sta'.assocState = sta.assocState ∧ sta'.assocSuccess = sta.assocSuccess ∧
    sta'.bpairwiseKeyInstalled = sta.bpairwiseKeyInstalled

theorem SameAssoc.trans {x y z : AuthSta} (h : SameAssoc x y) (h' : SameAssoc y z) : SameAssoc x z :=
  ⟨h'.1.trans h.1,h'.2.1.trans h.2.1,h'.2.2.trans h.2.2⟩

theorem sameAssoc_listed (w : Bool) (sta : AuthSta) : SameAssoc sta (listed w sta) := by
  rw [listed]
  split
  · exact ⟨rfl,rfl,rfl⟩
  · exact ⟨rfl,rfl,rfl⟩

theorem sameAssoc_unlisted (w : Bool) (sta : AuthSta) : SameAssoc sta (unlisted w sta) := by
  rw [unlisted]
  split
  · exact ⟨rfl,rfl,rfl⟩
  · exact ⟨rfl,rfl,rfl⟩

theorem unlisted_fields (w : Bool) (sta : AuthSta) : (unlisted w sta).authSeq = sta.authSeq ∧
    (unlisted w sta).chgTxt = sta.chgTxt ∧
    (unlisted w sta).authSuccess = sta.authSuccess := by
  rw [unlisted]
  split
  · exact ⟨rfl,rfl,rfl⟩
  · exact ⟨rfl,rfl,rfl⟩

theorem sameAssoc_settled (sta : AuthSta) (seq : ℕ) : SameAssoc sta (settled sta seq) := by
  rw [settled]
  split
  · exact ⟨rfl,rfl,rfl⟩
  · exact ⟨rfl,rfl,rfl⟩

section
variable {w : Bool} {sec : SecurityPriv} {sta sta' : AuthSta} {r : AuthRead}

theorem AuthAccepts.sameAssoc (h : AuthAccepts w sec sta r sta') : SameAssoc sta sta' := by
  apply (sameAssoc_listed w sta).trans
  cases h with
  | openSystem h0 h1 hmode =>
    rw [openSystemDone]
    split
    · exact ⟨rfl,rfl,rfl⟩
    · exact ⟨rfl,rfl,rfl⟩
  | request h0 h1 =>
    rw [challengeSent]
    dsimp only
    split
    · exact ⟨rfl,rfl,rfl⟩
    · exact ⟨rfl,rfl,rfl⟩
  | answer p len h2 h3 hfind hbytes =>
    rw [challengeAnswered]
    split
    · exact ⟨rfl,rfl,rfl⟩
    · exact ⟨rfl,rfl,rfl⟩

/-- A station that is not protected by its key or its association -/
theorem open_of {sta : AuthSta} (hkey : w = true → sta.bpairwiseKeyInstalled = false)
    (hassoc : sta.assocSuccess = false) :
    sta.open w = true := by
  cases w with
  | false => rfl
  | true => rw [AuthSta.open, hkey rfl, hassoc]; rfl

theorem settled_chgTxt (sta : AuthSta) (seq : ℕ) : (settled sta seq).chgTxt = sta.chgTxt := by
  rw [settled]
  split
  · rfl
  · rfl

theorem challengeSent_chgTxt (w : Bool) (algorithm : ℕ) (sta : AuthSta) :
    (challengeSent w algorithm sta).chgTxt = List.replicate 128 78 := by
  rw [challengeSent]
  dsimp only
  split
  · rfl
  · rfl

/-- The answer to a frame of sequence 1 in shared key authentication has the challenge text. -/
theorem challenge_issued {key : MacAddr} {algorithm : ℕ} (hopen : sta.open w = true) (halg : algorithm ≠ 0) :
    (issueAuth key { challengeSent w algorithm sta with authSeq := 1 + 1 } _STATS_SUCCESSFUL_).challenge =
      some (settled (challengeSent w algorithm sta) 1).chgTxt := by
  have hopen' : AuthSta.open w { sta with chgTxt := List.replicate 128 78 } = true := hopen
  rw [settled_chgTxt, issueAuth, challengeSent]
  dsimp only
  have hsuccess : (if _STATS_SUCCESSFUL_ ≠ _STATS_SUCCESSFUL_ then 0 else algorithm) ≠ 0 := by
    rw [if_neg (fun h => h rfl)]
    exact halg
  rw [if_pos hopen', if_pos ⟨rfl,rfl,hsuccess⟩]

end

theorem Challenged.mono {w : Bool} {sec : SecurityPriv} {past : List AuthEvent} {a : MacAddr} {c : List UInt8}
    (e : AuthEvent)
    (h : Challenged w sec past a c) : Challenged w sec (past ++ [e]) a c := by
  obtain ⟨p,f,allowed,room,s,r,reply,hpre,hrest⟩ := h
  exact ⟨p,f,allowed,room,s,r,reply,hpre.trans (List.prefix_append past [e]),hrest⟩

theorem WasAuthenticated.mono {w : Bool} {sec : SecurityPriv} {past : List AuthEvent} {a : MacAddr} (e : AuthEvent)
    (h : WasAuthenticated w sec past a) : WasAuthenticated w sec (past ++ [e]) a := by
  obtain ⟨p,s,sta,hpre,hrest⟩ := h
  exact ⟨p,s,sta,hpre.trans (List.prefix_append past [e]),hrest⟩

/-- What holds of a station in the table -/
structure AuthInv (w : Bool) (sec : SecurityPriv) (past : List AuthEvent) (a : MacAddr) (sta : AuthSta) : Prop where
  seq : sta.authSeq ≠ 0 → sta.authSuccess = false ∧ sta.assocSuccess = false
  challenged : sec.dot11AuthAlgrthm = .shared → sta.authSeq = 2 →
    (w = true → sta.bpairwiseKeyInstalled = false) →
    Challenged w sec past a sta.chgTxt
  text : sec.dot11AuthAlgrthm = .shared → sta.authSeq = 2 → sta.chgTxt = List.replicate 128 78
  authenticated : sta.assocState = true ∨ sta.assocSuccess = true → WasAuthenticated w sec past a
  found : sta.assocSuccess = true → staKey a = a

theorem staKey_staKey (a : MacAddr) : staKey (staKey a) = staKey a := by
  rw [staKey]
  split
  · rename_i h
    rw [staKey] at h ⊢
    split
    · rfl
    · rename_i hm
      rw [if_neg hm] at h
      exact absurd h hm
  · rfl

section
variable {w : Bool} {sec : SecurityPriv} {past : List AuthEvent} {s s' : AuthAp} {a : MacAddr} {sta : AuthSta}

theorem AuthInv.mono (e : AuthEvent) (h : AuthInv w sec past a sta) : AuthInv w sec (past ++ [e]) a sta :=
  ⟨h.seq,fun hs h2 hk => (h.challenged hs h2 hk).mono e,h.text,fun hst => (h.authenticated hst).mono e,h.found⟩

theorem authMode_shared (h : sec.dot11AuthAlgrthm = .shared) : authMode sec = .shared := by
  rw [authMode, h, if_neg (fun hc => AuthAlgrthm.noConfusion hc.1)]

theorem frameOf_of_meets {t : AuthTable} {f : RecvFrame} {key : MacAddr} (h : Meets w t f key sta) : FrameOf key f := by
  cases h with
  | known _ _ => exact Or.inr rfl
  | new _ => exact Or.inl rfl

/-- An association request leaves a table as it is, or changes a station in `WIFI_FW_AUTH_SUCCESS`
or `WIFI_FW_ASSOC_SUCCESS`. -/
theorem onAssocReqFrame_cases (w : Bool) (t : AuthTable) (f : RecvFrame) (accepted : Bool) :
    onAssocReqFrame w t f accepted = t ∨
      ∃ key old, staKey key = key ∧ t key = some old ∧ (old.authSuccess = true ∨ old.assocSuccess = true) ∧
        onAssocReqFrame w t f accepted = Function.update t key (some (assocSta w accepted old)) := by
  rw [onAssocReqFrame]
  dsimp only
  generalize (if getFrameSubType f.buf.ptr = WIFI_ASSOCREQ then _ASOCREQ_IE_OFFSET_ else _REASOCREQ_IE_OFFSET_) = off
  split
  · exact Or.inl rfl
  · split
    · exact Or.inl rfl
    · rename_i old hold
      split
      · exact Or.inl rfl
      · rename_i hflags
        refine Or.inr ⟨_,old,staKey_staKey _,hold,?_,rfl⟩
        cases h1 : old.authSuccess with
        | true => exact Or.inl rfl
        | false =>
          cases h2 : old.assocSuccess with
          | true => exact Or.inr rfl
          | false =>
            rw [h1, h2] at hflags
            exact absurd rfl hflags

theorem assocSta_fields (w accepted : Bool) (sta : AuthSta) :
    (assocSta w accepted sta).authSeq = sta.authSeq ∧ (assocSta w accepted sta).authSuccess = false := by
  obtain ⟨_,_,success,_,_,_,_,_,key,_,_⟩ := sta
  cases success <;> cases accepted <;> cases w <;> cases key <;> exact ⟨rfl,rfl⟩

/-- Where a station that stands in the table behind the step comes from -/
inductive Leaves (w : Bool) (sec : SecurityPriv) (s s' : AuthAp) (a : MacAddr) : AuthEvent → AuthSta → Prop
  | kept {e : AuthEvent} {sta : AuthSta} : s.table a = some sta → Leaves w sec s s' a e sta
  | auth (f : RecvFrame) (allowed room : Bool) (r : AuthRead) (met next : AuthSta) : readAuth sec f = some r →
      badAlgorithm sec r.algorithm = false → Meets w s.table f a met → AuthAccepts w sec met r next →
      s'.sent.head? = some (issueAuth a { next with authSeq := r.seq + 1 } _STATS_SUCCESSFUL_) →
      Leaves w sec s s' a (.auth f allowed room) (settled next r.seq)
  | assoc (f : RecvFrame) (accepted : Bool) (old : AuthSta) : staKey a = a → s.table a = some old →
      old.authSuccess = true ∨ old.assocSuccess = true → Leaves w sec s s' a (.assoc f accepted)
        (assocSta w accepted old)
  | keyInstalled (old : AuthSta) : s.table a = some old →
      Leaves w sec s s' a (.keyInstalled a) { old with bpairwiseKeyInstalled := true }

theorem authStep_leaves {e : AuthEvent} (hstep : authStep w sec s e = some s') (hsta : s'.table a = some sta) :
    Leaves w sec s s' a e sta := by
  cases e with
  | auth f allowed room =>
    obtain ⟨⟨t',reply⟩,hframe,rfl⟩ := Option.map_eq_some_iff.mp hstep
    obtain ⟨r,hr,hcase⟩ := onAuthFrame_cases hframe
    rcases hcase with rfl | ⟨hbad,-,key,met,hmeets,rfl | ⟨next,hacc,hset⟩⟩
    · exact .kept hsta
    · change Function.update s.table key none a = some sta at hsta
      by_cases ha : a = key
      · rw [ha, Function.update_self] at hsta
        cases hsta
      · rw [Function.update_of_ne ha] at hsta
        exact .kept hsta
    · rw [authAccepted_eq] at hset
      obtain ⟨rfl,rfl⟩ := Prod.mk.inj hset
      change Function.update s.table key (some (settled next r.seq)) a = some sta at hsta
      by_cases ha : a = key
      · subst ha
        rw [Function.update_self] at hsta
        cases hsta
        exact .auth f allowed room r met next hr hbad hmeets hacc rfl
      · rw [Function.update_of_ne ha] at hsta
        exact .kept hsta
  | assoc f accepted =>
    cases hstep
    change onAssocReqFrame w s.table f accepted a = some sta at hsta
    rcases onAssocReqFrame_cases w s.table f accepted with h | ⟨key,old,hkey,hold,hflags,h⟩
    · rw [h] at hsta
      exact .kept hsta
    · rw [h] at hsta
      by_cases ha : a = key
      · subst ha
        rw [Function.update_self] at hsta
        cases hsta
        exact .assoc f accepted old hkey hold hflags
      · rw [Function.update_of_ne ha] at hsta
        exact .kept hsta
  | keyInstalled b =>
    cases hstep
    change Function.update s.table b ((s.table b).map fun sta => { sta with bpairwiseKeyInstalled := true }) a =
      some sta at hsta
    by_cases ha : a = b
    · subst ha
      rw [Function.update_self] at hsta
      obtain ⟨old,hold,rfl⟩ := Option.map_eq_some_iff.mp hsta
      exact .keyInstalled old hold
    · rw [Function.update_of_ne ha] at hsta
      exact .kept hsta

theorem authInv_auth {f : RecvFrame} {allowed room : Bool} {r : AuthRead} {met next : AuthSta}
    (hinv : ∀ sta, s.table a = some sta → AuthInv w sec past a sta)
    (hrun : authRun w sec (past ++ [.auth f allowed room]) = some s') (hr : readAuth sec f = some r)
    (hbad : badAlgorithm sec r.algorithm = false) (hmeets : Meets w s.table f a met)
    (hacc : AuthAccepts w sec met r next)
    (hsent : s'.sent.head? = some (issueAuth a { next with authSeq := r.seq + 1 } _STATS_SUCCESSFUL_)) :
    AuthInv w sec (past ++ [.auth f allowed room]) a (settled next r.seq) := by
  have hsame : SameAssoc met (settled next r.seq) := hacc.sameAssoc.trans (sameAssoc_settled next r.seq)
  have hfirst : (settled next r.seq).authSeq = 2 → next.assocSuccess = false ∧ r.seq = 1 := by
    intro h2
    rw [settled] at h2
    split at h2
    · cases h2
    · rename_i hflags
      have h2 : r.seq + 1 = 2 := h2
      simp only [Bool.or_eq_true, not_or, Bool.not_eq_true] at hflags
      exact ⟨hflags.2,by omega⟩
  refine ⟨?_,?_,?_,?_,?_⟩
  · intro hseq
    rw [settled] at hseq ⊢
    split at hseq
    · exact absurd rfl hseq
    · rename_i hflags
      rw [if_neg hflags]
      simpa using hflags
  · intro hshared h2 hkey
    have hflags := hfirst h2
    have hnext : SameAssoc met next := hacc.sameAssoc
    cases hacc with
    | openSystem h0 h1 hmode => exact absurd (authMode_shared hshared) hmode
    | request h0 h1 =>
      have hlist := sameAssoc_listed w met
      have hopen : (listed w met).open w = true := by
        apply open_of
        · intro hw
          rw [hlist.2.2, ← hsame.2.2]
          exact hkey hw
        · rw [hlist.2.1, ← hnext.2.1]
          exact hflags.1
      have halg : r.algorithm ≠ 0 := by
        intro h
        rw [badAlgorithm, h, authMode_shared hshared] at hbad
        cases hbad
      have htxt := @challenge_issued w (listed w met) a r.algorithm hopen halg
      rw [h1] at hsent ⊢
      exact ⟨past,f,allowed,room,s',r,_,List.prefix_rfl,hrun,frameOf_of_meets hmeets,hr,h1,hsent,rfl,htxt⟩
    | answer p len h2 h3 hfind hbytes => omega
  · intro hshared h2
    have hflags := hfirst h2
    cases hacc with
    | openSystem h0 h1 hmode => exact absurd (authMode_shared hshared) hmode
    | request h0 h1 => rw [settled_chgTxt, challengeSent_chgTxt]
    | answer p len h2 h3 hfind hbytes => omega
  · intro hst
    rw [hsame.1, hsame.2.1] at hst
    cases hmeets with
    | known old hold =>
      have hold' := sameAssoc_unlisted w old
      rw [hold'.1, hold'.2.1] at hst
      exact ((hinv old hold).authenticated hst).mono _
    | new _ => rcases hst with h | h <;> cases h
  · intro hst
    rw [hsame.2.1] at hst
    cases hmeets with
    | known old hold => exact staKey_staKey _
    | new _ => cases hst

/-- What an accepted or refused association request leaves -/
theorem authInv_assoc {f : RecvFrame} {accepted : Bool} {old : AuthSta}
    (hinv : ∀ sta, s.table a = some sta → AuthInv w sec past a sta) (hrun : authRun w sec past = some s)
    (hkey : staKey a = a)
    (hold : s.table a = some old) (hflags : old.authSuccess = true ∨ old.assocSuccess = true) :
    AuthInv w sec (past ++ [.assoc f accepted]) a (assocSta w accepted old) := by
  obtain ⟨hseq,hsuccess⟩ := assocSta_fields w accepted old
  have hzero : old.authSeq = 0 := by
    by_contra hne
    obtain ⟨h1,h2⟩ := (hinv old hold).seq hne
    rw [h1, h2] at hflags
    rcases hflags with h | h
    · cases h
    · cases h
  have hwas : WasAuthenticated w sec past a := by
    rcases hflags with h | h
    · exact ⟨past,s,old,List.prefix_rfl,hrun,hold,h⟩
    · exact (hinv old hold).authenticated (Or.inr h)
  refine ⟨?_,?_,?_,fun _ => hwas.mono _,fun _ => hkey⟩
  · intro hne
    rw [hseq] at hne
    exact absurd hzero hne
  · intro _ h2
    rw [hseq, hzero] at h2
    cases h2
  · intro _ h2
    rw [hseq, hzero] at h2
    cases h2

theorem authInv_keyInstalled {old : AuthSta} (hinv : ∀ sta, s.table a = some sta → AuthInv w sec past a sta)
    (hold : s.table a = some old) :
    AuthInv w sec (past ++ [.keyInstalled a]) a { old with bpairwiseKeyInstalled := true } := by
  have h := (hinv old hold).mono (.keyInstalled a)
  refine ⟨h.seq,?_,h.text,h.authenticated,h.found⟩
  intro hs h2 hk
  cases w with
  | true => cases hk rfl
  | false => exact h.challenged hs h2 (fun hw => by cases hw)

/-- What holds of every station, in every state of every run -/
theorem authInv_run (past : List AuthEvent) : ∀ s, authRun w sec past = some s →
    ∀ a sta, s.table a = some sta → AuthInv w sec past a sta := by
  induction past using List.reverseRecOn with
  | nil =>
    intro s hs a sta hsta
    cases hs
    change Function.update (fun _ => none) bcAddr (some _) a = some sta at hsta
    by_cases ha : a = bcAddr
    · rw [ha, Function.update_self] at hsta
      cases hsta
      exact ⟨fun h => absurd rfl h,fun _ h => (by cases h),fun _ h => (by cases h),
        fun h => (by rcases h with h | h <;> cases h),fun h => (by cases h)⟩
    · rw [Function.update_of_ne ha] at hsta
      cases hsta
  | append_singleton past e ih =>
    intro s' hs'
    have hrun := hs'
    rw [authRun, PartialRun.run_append_singleton] at hs'
    obtain ⟨s,hs,hstep⟩ := Option.bind_eq_some_iff.mp hs'
    intro a sta hsta
    cases authStep_leaves hstep hsta with
    | kept hold => exact (ih s hs a sta hold).mono e
    | auth f allowed room r met next hr hbad hmeets hacc hsent =>
      exact authInv_auth (ih s hs a) hrun hr hbad hmeets hacc hsent
    | assoc f accepted old hkey hold hflags => exact authInv_assoc (ih s hs a) hs hkey hold hflags
    | keyInstalled old hold => exact authInv_keyInstalled (ih s hs a) hold

end

/-! ## The three properties -/

section
variable {w : Bool} {sec : SecurityPriv} {past : List AuthEvent} {s s' : AuthAp} {a : MacAddr}

theorem settled_authSuccess (sta : AuthSta) (seq : ℕ) : (settled sta seq).authSuccess = sta.authSuccess := by
  rw [settled]
  split
  · rfl
  · rfl

theorem listed_authSuccess (w : Bool) (sta : AuthSta) : (listed w sta).authSuccess = sta.authSuccess := by
  rw [listed]
  split
  · rfl
  · rfl

/-- Only the answer to a challenge authenticates a station, unless the system is open. -/
theorem AuthAccepts.authSuccess {sta sta' : AuthSta} {r : AuthRead} (h : AuthAccepts w sec sta r sta')
    (hmode : authMode sec = .shared) (hold : sta.authSuccess = false) (hbit : sta'.authSuccess = true) :
    ∃ p len, sta.authSeq = 2 ∧ r.seq = 3 ∧ findChallenge r.frame = some (p,len) ∧
      challengeBytes r.frame p = sta.chgTxt ∧ (listed w sta).open w = true := by
  have hlisted := listed_authSuccess w sta
  cases h with
  | openSystem _ _ hm => exact absurd hmode hm
  | request h0 h1 =>
    rw [challengeSent] at hbit
    dsimp only at hbit
    split at hbit
    · rw [← hlisted, hbit] at hold
      cases hold
    · rw [← hlisted, hbit] at hold
      cases hold
  | answer p len h2 h3 hfind hbytes =>
    rw [challengeAnswered] at hbit
    split at hbit
    · rename_i hopen
      exact ⟨p,len,h2,h3,hfind,hbytes,hopen⟩
    · rw [hlisted, hold] at hbit
      cases hbit

/-- Only an authentication frame puts a station into `WIFI_FW_AUTH_SUCCESS`; in shared key
authentication it is the answer to the challenge. -/
theorem enters_authSuccess {e : AuthEvent} (hshared : sec.dot11AuthAlgrthm = .shared)
    (hrun : authRun w sec past = some s)
    (hstep : authStep w sec s e = some s') (hent : Enters AuthSta.authSuccess s s' a) :
    ∃ f allowed room r p len, e = .auth f allowed room ∧ FrameOf a f ∧ readAuth sec f = some r ∧ r.seq = 3 ∧
      findChallenge r.frame = some (p,len) ∧ challengeBytes r.frame p = List.replicate 128 78 ∧
      Challenged w sec past a (challengeBytes r.frame p) := by
  obtain ⟨hold,sta,hsta,hbit⟩ := hent
  cases authStep_leaves hstep hsta with
  | kept hsame =>
    rw [hold sta hsame] at hbit
    cases hbit
  | auth f allowed room r met next hr hbad hmeets hacc hsent =>
    rw [settled_authSuccess] at hbit
    have hframe := frameOf_of_meets hmeets
    cases hmeets with
    | known old hk =>
      obtain ⟨hseq,htxt,hsucc⟩ := unlisted_fields w old
      obtain ⟨p,len,h2,h3,hfind,hbytes,hopen⟩ := hacc.authSuccess (authMode_shared hshared)
          (hsucc.trans (hold old hk)) hbit
      have hinv := authInv_run past s hrun _ old hk
      refine ⟨f,allowed,room,r,p,len,rfl,hframe,hr,h3,hfind,?_,?_⟩
      · rw [hbytes, htxt]
        exact hinv.text hshared (hseq.symm.trans h2)
      rw [hbytes, htxt]
      apply hinv.challenged hshared (hseq.symm.trans h2)
      intro hw
      subst hw
      rw [AuthSta.open, (sameAssoc_listed true _).2.2, (sameAssoc_unlisted true old).2.2] at hopen
      cases hkey : old.bpairwiseKeyInstalled with
      | false => rfl
      | true =>
        rw [hkey] at hopen
        cases hopen
    | new _ =>
      obtain ⟨p,len,h2,-⟩ := hacc.authSuccess (authMode_shared hshared) rfl hbit
      cases h2
  | assoc f accepted old hkey hk hflags =>
    rw [(assocSta_fields w accepted old).2] at hbit
    cases hbit
  | keyInstalled old hk =>
    have hbit : old.authSuccess = true := hbit
    rw [hold old hk] at hbit
    cases hbit

/-- Only the association of an authenticated station puts it into `WIFI_FW_ASSOC_SUCCESS`. -/
theorem enters_assocSuccess {e : AuthEvent} (hrun : authRun w sec past = some s) (hstep : authStep w sec s e = some s')
    (hent : Enters AuthSta.assocSuccess s s' a) : WasAuthenticated w sec past a := by
  obtain ⟨hold,sta,hsta,hbit⟩ := hent
  cases authStep_leaves hstep hsta with
  | kept hsame =>
    rw [hold sta hsame] at hbit
    cases hbit
  | auth f allowed room r met next hr hbad hmeets hacc hsent =>
    rw [(hacc.sameAssoc.trans (sameAssoc_settled next r.seq)).2.1] at hbit
    cases hmeets with
    | known old hk =>
      rw [(sameAssoc_unlisted w old).2.1, hold old hk] at hbit
      cases hbit
    | new _ => cases hbit
  | assoc f accepted old hkey hk hflags =>
    rcases hflags with hsucc | hassoc
    · exact ⟨past,s,old,List.prefix_rfl,hrun,hk,hsucc⟩
    · rw [hold old hk] at hassoc
      cases hassoc
  | keyInstalled old hk =>
    have hbit : old.assocSuccess = true := hbit
    rw [hold old hk] at hbit
    cases hbit

/-- A frame of sequence 1 that meets a station of sequence 0 is accepted. -/
theorem authCheckSta_first {t : AuthTable} {key sa : MacAddr} {sta : AuthSta} {r : AuthRead} (h0 : sta.authSeq = 0)
    (h1 : r.seq = 1) :
    ∃ sta', AuthAccepts w sec sta r sta' ∧ authCheckSta w sec t key sa sta r = authAccepted t key sta' r.seq := by
  obtain ⟨hseq,-⟩ := listed_fields w sta
  have hin : ¬(listed w sta).authSeq + 1 ≠ r.seq := by
    rw [hseq, h0, h1]
    exact not_not_intro rfl
  rw [authCheckSta, ← listed]
  rw [if_neg hin, if_pos h1, if_pos h1]
  by_cases halg : r.algorithm = 0 ∧
    (authMode sec = .openSystem ∨ authMode sec = .ieee8021X ∨ authMode sec = .auto)
  · rw [if_pos halg]
    refine ⟨_,.openSystem h0 h1 ?_,rfl⟩
    intro hm
    rw [hm] at halg
    rcases halg.2 with h | h | h
    · cases h
    · cases h
    · cases h
  · rw [if_neg halg]
    exact ⟨_,.request h0 h1,rfl⟩

theorem listed_closed {sta : AuthSta} (h : sta.open w = false) : listed w sta = sta := by
  rw [listed, h]
  rfl

theorem unlisted_closed {sta : AuthSta} (h : sta.open w = false) : unlisted w sta = sta := by
  rw [unlisted, h]
  rfl

/-- An accepted frame leaves the state of a protected station and its lists alone. -/
theorem AuthAccepts.sameState {sta sta' : AuthSta} {r : AuthRead} (h : AuthAccepts w sec sta r sta')
    (hclosed : sta.open w = false) (seq : ℕ) : SameState sta (settled sta' seq) := by
  have hsettled : ∀ x : AuthSta, SameState x (settled x seq) := by
    intro x
    rw [settled]
    split
    · exact ⟨rfl,rfl,rfl,rfl,rfl,rfl,rfl⟩
    · exact ⟨rfl,rfl,rfl,rfl,rfl,rfl,rfl⟩
  have hsame : SameState sta sta' := by
    have hlisted := listed_closed hclosed
    cases h with
    | openSystem h0 h1 hmode =>
      rw [hlisted, openSystemDone, hclosed]
      exact ⟨rfl,rfl,rfl,rfl,rfl,rfl,rfl⟩
    | request h0 h1 =>
      have hclosed' : AuthSta.open w { sta with chgTxt := List.replicate 128 78 } = false := hclosed
      rw [hlisted, challengeSent]
      dsimp only
      rw [hclosed']
      exact ⟨rfl,rfl,rfl,rfl,rfl,rfl,rfl⟩
    | answer p len h2 h3 hfind hbytes =>
      rw [hlisted, challengeAnswered, hclosed]
      exact ⟨rfl,rfl,rfl,rfl,rfl,rfl,rfl⟩
  obtain ⟨h1,h2,h3,h4,h5,h6,h7⟩ := hsame
  obtain ⟨g1,g2,g3,g4,g5,g6,g7⟩ := hsettled sta'
  exact ⟨g1.trans h1,g2.trans h2,g3.trans h3,g4.trans h4,g5.trans h5,g6.trans h6,g7.trans h7⟩

theorem SameState.refl (sta : AuthSta) : SameState sta sta := ⟨rfl,rfl,rfl,rfl,rfl,rfl,rfl⟩

/-- A frame that is in order leaves a protected and associated station alone. -/
theorem protected_kept {f : RecvFrame} {allowed room : Bool} {sta : AuthSta} (hw : w = true)
    (hrun : authRun w sec past = some s)
    (hok : AuthEventOk w sec s (.auth f allowed room)) (hstep : authStep w sec s (.auth f allowed room) = some s')
    (hsta : s.table a = some sta) (hkey : sta.bpairwiseKeyInstalled = true) (hassoc : sta.assocSuccess = true) :
    ∃ sta', s'.table a = some sta' ∧ SameState sta sta' := by
  obtain ⟨⟨t',reply⟩,hframe,rfl⟩ := Option.map_eq_some_iff.mp hstep
  have hinv := authInv_run past s hrun a sta hsta
  have hclosed : sta.open w = false := by
    rw [AuthSta.open, hw, hkey]
    rfl
  have hzero : sta.authSeq = 0 := by
    by_contra hne
    rw [(hinv.seq hne).2] at hassoc
    cases hassoc
  by_cases ha : staKey (getAddr2Ptr f.buf.ptr) = a
  · rw [onAuthFrame] at hframe
    obtain ⟨r,hr,hframe⟩ := Option.map_eq_some_iff.mp hframe
    have hsame : t' = s.table → ∃ sta', t' a = some sta' ∧ SameState sta sta' := by
      intro h
      rw [h]
      exact ⟨sta,hsta,.refl sta⟩
    split at hframe
    · exact hsame (congrArg Prod.fst hframe).symm
    · rename_i hbad
      split at hframe
      · exact hsame (congrArg Prod.fst hframe).symm
      · rename_i hallowed
        have h1 : r.seq = 1 := by
          rcases (hok r hr).2 hw sta (by rw [ha]; exact hsta) hkey hassoc with h | h | h
          · exact h
          · exact absurd h hbad
          · rw [h] at hallowed
            exact absurd rfl hallowed
        rw [ha, hsta] at hframe
        dsimp only at hframe
        rw [← unlisted, unlisted_closed hclosed] at hframe
        obtain ⟨next,hacc,hset⟩ := @authCheckSta_first w sec s.table a (getAddr2Ptr f.buf.ptr) sta r hzero h1
        rw [hset, authAccepted_eq] at hframe
        obtain ⟨rfl,-⟩ := Prod.mk.inj hframe
        refine ⟨settled next r.seq,?_,hacc.sameState hclosed r.seq⟩
        change Function.update s.table a _ a = _
        rw [Function.update_self]
  · have hother : ∀ key met, Meets w s.table f key met → a ≠ key := by
      intro key met hmeets hak
      cases hmeets with
      | known old hk => exact ha hak.symm
      | new hnone =>
        rw [← hak, hinv.found hassoc, hsta] at hnone
        cases hnone
    obtain ⟨r,hr,hcase⟩ := onAuthFrame_cases hframe
    refine ⟨sta,?_,.refl sta⟩
    rcases hcase with rfl | ⟨-,-,key,met,hmeets,rfl | ⟨next,hacc,hset⟩⟩
    · exact hsta
    · change Function.update s.table key none a = some sta
      rw [Function.update_of_ne (hother key met hmeets)]
      exact hsta
    · rw [authAccepted_eq] at hset
      obtain ⟨rfl,rfl⟩ := Prod.mk.inj hset
      change Function.update s.table key (some (settled next r.seq)) a = some sta
      rw [Function.update_of_ne (hother key met hmeets)]
      exact hsta

end

/-- A run whose frames are all in order is safe. -/
theorem auth_safe (w : Bool) (sec : SecurityPriv) (es : List AuthEvent)
    (hok : ∀ past e s, past ++ [e] <+: es → authRun w sec past = some s → AuthEventOk w sec s e) :
    AuthSafe w sec es := by
  refine ⟨?_,?_,?_⟩
  · intro hshared past e s s' a hpre hrun hstep hent
    obtain ⟨f,allowed,room,r,p,len,rfl,hframe,hr,h3,hfind,htext,hch⟩ := enters_authSuccess hshared hrun hstep hent
    have hproper := (hok past _ s hpre hrun r hr).1 hshared h3 ⟨p,len,hfind,htext⟩
    obtain ⟨-,-,-,p',hfind',-⟩ := id hproper
    have hp : p' = p := by
      rw [hfind] at hfind'
      cases hfind'
      rfl
    rw [hp] at hfind'
    exact ⟨f,allowed,room,r,p,rfl,hframe,hr,h3,hproper,hfind',hch⟩
  · exact fun past e s s' a _ hrun hstep hent => enters_assocSuccess hrun hstep hent
  · exact fun hw past f allowed room s s' a sta hpre hrun hstep hsta hkey hassoc =>
      protected_kept hw hrun (hok past _ s hpre hrun) hstep hsta hkey hassoc

/-! ## A run in order, and two that are not -/

/-- A management frame of one station, in memory of its own -/
def clientFrame (subtype : UInt8) (body : List UInt8) : RecvFrame :=
  let bytes := [subtype,0,0,0] ++ [2,0,0,0,0,1] ++ [2,0,0,0,0,7] ++ [2,0,0,0,0,1] ++ [0,0] ++ body
  { plainFrame 0 0 false with buf := .ofBytes bytes }

/-- Its authentication frame without elements -/
def clientAuth (algorithm seq : UInt8) : AuthEvent := .auth (clientFrame 0xb0 [algorithm,0,seq,0,0,0]) true true

/-- Its association with a key afterwards -/
def clientJoins : List AuthEvent :=
  [clientAuth 0 1,.assoc (clientFrame 0x00 [0,0,0,0]) true,.keyInstalled [2,0,0,0,0,7]]

theorem auth_safe_client : AuthSafe true openSecurity (clientJoins ++ [clientAuth 0 1]) := by
  apply auth_safe
  intro past e s hpre _
  have hmem : e ∈ clientJoins ++ [clientAuth 0 1] :=
    hpre.subset (List.mem_append_right past (List.mem_singleton.mpr rfl))
  have hfirst : AuthEventOk true openSecurity s (clientAuth 0 1) := by
    intro r hr
    cases hr
    exact ⟨fun h => (by cases h),fun _ _ _ _ _ => Or.inl (by decide)⟩
  rw [clientJoins] at hmem
  simp only [List.cons_append, List.nil_append, List.mem_cons, List.not_mem_nil, or_false] at hmem
  rcases hmem with rfl | rfl | rfl | rfl
  · exact hfirst
  · trivial
  · trivial
  · exact hfirst

/-- Shared key authentication with a WEP key -/
def sharedSecurity : SecurityPriv :=
  { openSecurity with
    dot11AuthAlgrthm := .shared
    dot11PrivacyAlgrthm := .wep40
    dot11DefKey := fun _ => [1,2,3,4,5]
    dot11DefKeylen := fun _ => 5 }

/-- A frame of sequence 3 without protection, and the text that every challenge has -/
def clientGuess : AuthEvent :=
  .auth (clientFrame 0xb0 ([1,0,3,0,0,0] ++ [0,0,0,0] ++ [16,128] ++ List.replicate 128 78)) true true

/-- The client is authenticated without the key, and a frame of sequence 2 tears down an
association that is protected. -/
theorem client_bypasses_and_is_torn_down :
    ¬ AuthSafe false sharedSecurity [clientAuth 1 1,clientGuess] ∧
    ¬ AuthSafe true openSecurity (clientJoins ++ [clientAuth 0 2]) := by
  constructor
  · intro h
    have hs :
        ((authRun false sharedSecurity [clientAuth 1 1]).map fun s => (s.table [2,0,0,0,0,7]).map AuthSta.authSuccess) =
        some (some false) := by decide +kernel
    have hs' : ((authRun false sharedSecurity [clientAuth 1 1,clientGuess]).map fun s =>
        (s.table [2,0,0,0,0,7]).map AuthSta.authSuccess) = some (some true) := by decide +kernel
    obtain ⟨s,hrun,hold⟩ := Option.map_eq_some_iff.mp hs
    obtain ⟨s',hrun',hnew⟩ := Option.map_eq_some_iff.mp hs'
    obtain ⟨sta',hsta',hbit⟩ := Option.map_eq_some_iff.mp hnew
    have hstep : authStep false sharedSecurity s clientGuess = some s' := by
      have := PartialRun.run_append_singleton (authStep false sharedSecurity) .init [clientAuth 1 1] clientGuess
      change authRun false sharedSecurity [clientAuth 1 1,clientGuess] =
        (authRun false sharedSecurity [clientAuth 1 1]).bind _ at this
      rw [hrun, hrun'] at this
      exact this.symm
    have hent : Enters AuthSta.authSuccess s s' [2,0,0,0,0,7] := by
      refine ⟨?_,sta',hsta',hbit⟩
      intro sta hsta
      rw [hsta] at hold
      exact Option.some.inj hold
    obtain ⟨f,allowed,room,r,p,he,-,-,-,hproper,-⟩ :=
      h.sharedKey rfl [clientAuth 1 1] clientGuess s s' _ List.prefix_rfl hrun hstep hent
    cases he
    exact absurd hproper.1 (by decide)
  · intro h
    have hs : ((authRun true openSecurity clientJoins).map fun s =>
        (s.table [2,0,0,0,0,7]).map fun sta => (sta.bpairwiseKeyInstalled,sta.assocSuccess)) =
          some (some (true,true)) := by
          decide +kernel
    have hs' :
        ((authRun true openSecurity (clientJoins ++ [clientAuth 0 2])).map fun s => (s.table [2,0,0,0,0,7]).isSome) =
        some false := by decide +kernel
    obtain ⟨s,hrun,hold⟩ := Option.map_eq_some_iff.mp hs
    obtain ⟨s',hrun',hnew⟩ := Option.map_eq_some_iff.mp hs'
    obtain ⟨sta,hsta,hbits⟩ := Option.map_eq_some_iff.mp hold
    obtain ⟨hkey,hassoc⟩ := Prod.mk.inj hbits
    have hstep : authStep true openSecurity s (clientAuth 0 2) = some s' := by
      rw [authRun, PartialRun.run_append_singleton] at hrun'
      change (authRun true openSecurity clientJoins).bind _ = _ at hrun'
      rw [hrun] at hrun'
      exact hrun'
    obtain ⟨sta',hsta',-⟩ :=
      h.protectedSta rfl clientJoins _ _ _ s s' _ sta List.prefix_rfl hrun hstep hsta hkey hassoc
    rw [hsta'] at hnew
    cases hnew

end Rtl8188fu
