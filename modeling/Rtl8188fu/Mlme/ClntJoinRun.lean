import Rtl8188fu.Library.Run
import Rtl8188fu.Mlme.ClntLink

/-! # The station's join refines its protocol

Every event does to the bits of the state, the counters and the timer what one step of the protocol does.
-/
namespace Rtl8188fu
open Bytes

/-- The bits of a state in a phase -/
inductive FwState.In : FwState → LinkPhase → Prop
  | idle (b : Bool) : In ⟨b,false,false,false,false,false⟩ .idle
  | waiting : In ⟨true,true,false,false,false,false⟩ .waiting
  | authenticating : In ⟨true,false,true,false,false,false⟩ .authenticating
  | associating : In ⟨true,false,false,true,true,false⟩ .associating
  | up : In ⟨true,false,false,true,false,true⟩ .up

theorem FwState.In.waiting_iff {st : FwState} {ph : LinkPhase} (h : st.In ph) : st.authNull = true ↔
    ph = .waiting := by
  cases h <;> simp

theorem FwState.In.authenticating_iff {st : FwState} {ph : LinkPhase} (h : st.In ph) :
    st.authState = true ↔ ph = .authenticating := by
  cases h <;> simp

theorem FwState.In.associating_iff {st : FwState} {ph : LinkPhase} (h : st.In ph) :
    st.assocState = true ↔ ph = .associating := by
  cases h <;> simp

theorem FwState.In.up_iff {st : FwState} {ph : LinkPhase} (h : st.In ph) : st.assocSuccess = true ↔ ph = .up := by
  cases h <;> simp

/-- What `WIFI_FW_LINKING_STATE` stands for, unless the link is up -/
theorem FwState.In.pending {st : FwState} {ph : LinkPhase} (h : st.In ph) (hup : ¬ st.assocSuccess = true)
    (hlink : st.linking = true) : ph = .waiting ∨ ph = .authenticating ∨ ph = .associating := by
  cases h <;> simp_all [FwState.linking]

/-- The states in which an association response is looked at -/
theorem FwState.In.awaits {st : FwState} {ph : LinkPhase} (h : st.In ph)
    (hstate : ¬ (!(st.authSuccess || st.assocState)) = true) (hup : ¬ st.assocSuccess = true) :
    ph = .associating := by
  cases h <;> simp_all

theorem FwState.In.authenticates {st : FwState} (h : st.In .waiting) :
    ({ st with authNull := false, authState := true } : FwState).In .authenticating := by
  cases h
  exact .authenticating

theorem FwState.In.associates {st : FwState} (h : st.In .authenticating) :
    ({ st with authNull := false, authState := false, authSuccess := true, assocState := true } : FwState).In
      .associating := by
  cases h
  exact .associating

theorem FwState.In.comesUp {st : FwState} (h : st.In .associating) :
    ({ st with assocState := false, assocSuccess := true } : FwState).In .up := by
  cases h
  exact .up

theorem FwState.In.station {st : FwState} {ph : LinkPhase} (h : st.In ph) :
    ({ st with station := true } : FwState).In ph := by
  cases h <;> constructor

def ClntOut.isAuthRequest : ClntOut → Bool
  | .auth _ _ seq _ => seq = 1
  | _ => false

def ClntOut.isAssocReq : ClntOut → Bool
  | .assocReq _ => true
  | _ => false

def ClntOut.isAnswer : ClntOut → Bool
  | .joinRes _ => true
  | _ => false

def tally (o : List ClntOut) : Tally :=
  ⟨o.countP ClntOut.isAuthRequest,o.countP ClntOut.isAssocReq,o.countP ClntOut.isAnswer⟩

def ClntJoin.link (s : ClntJoin) (ph : LinkPhase) : Link := ⟨ph,s.reauthCount,s.reassocCount,s.linkTimer.isSome⟩

/-- The state after an event is that of one step of the protocol. -/
def LinkFollows (env : ClntEnv) (c : LinkCause) (s : ClntJoin) (ph : LinkPhase) (s' : ClntJoin) : Prop :=
  ∃ ph' more, s'.state.In ph' ∧ s'.out = s.out ++ more ∧ LinkStep env c (s.link ph) (tally more) (s'.link ph')

section
variable {env : ClntEnv} {s s' : ClntJoin} {ph : LinkPhase}

/-- Nothing that the link consists of changes, but the timer may be set. -/
theorem LinkFollows.stay {o : List ClntOut} (hp : s.state.In ph) (hstate : s'.state = s.state)
    (hout : s'.out = s.out ++ o) (ho : tally o = .none) (hreauth : s'.reauthCount = s.reauthCount)
    (hreassoc : s'.reassocCount = s.reassocCount) (htimer : s.linkTimer.isSome = true → s'.linkTimer.isSome = true) :
    LinkFollows env .other s ph s' := by
  refine ⟨ph,o,hstate ▸ hp,hout,?_⟩
  rw [ho, ClntJoin.link, ClntJoin.link, hreauth, hreassoc]
  exact .stays htimer

theorem LinkFollows.refl (hp : s.state.In ph) : LinkFollows env .other s ph s :=
  LinkFollows.stay hp rfl (List.append_nil _).symm rfl rfl rfl id

theorem tally_auth (b : Bool) (ra : MacAddr) (shared : Bool) (c : Option (List UInt8)) :
    tally (if b then [.auth ra shared 1 c] else []) = ⟨b.toNat,0,0⟩ := by
  cases b <;> rfl

theorem tally_assocReq (b : Bool) (ra : MacAddr) : tally (if b then [.assocReq ra] else []) = ⟨0,b.toNat,0⟩ := by
  cases b <;> rfl

theorem tally_joinRes (b : Bool) (res : ℤ) : tally (if b then [.joinRes res] else []) = ⟨0,0,b.toNat⟩ := by
  cases b <;> rfl

theorem tally_deauth (b : Bool) (ra : MacAddr) (reason : ℕ) :
    tally (if b then [.deauth ra reason] else []) = .none := by
  cases b <;> rfl

theorem receiveDisconnect_follows (hp : s.state.In ph) (mac : MacAddr) (reason : ℕ) :
    LinkFollows env .other s ph (receiveDisconnect env mac reason s) := by
  unfold receiveDisconnect
  split_ifs with hmac hsta hup hevent hlink hevent
  · exact .refl hp
  · exact .refl hp
  · exact ⟨.idle,[.delSta mac reason],.idle false,rfl,.dropped (hp.up_iff.mp hup)⟩
  · exact .refl hp
  · have hpend : (s.link ph).pending = true := by
      rcases hp.pending hup hlink with rfl | rfl | rfl <;> rfl
    refine ⟨.idle,[.joinRes (-2)],.idle false,?_,.cutOff hpend hevent⟩
    simp [reportJoinRes, ClntJoin.emit, hevent]
  · exact .refl hp
  · exact .refl hp

theorem onBeacon_follows (env : ClntEnv) (hp : s.state.In ph) (b : BeaconRead) :
    (b.scanning = false ∧ b.addr3 = s.bssid ∧ LinkFollows env .beacon s ph (onBeacon env b s)) ∨
      LinkFollows env .other s ph (onBeacon env b s) := by
  unfold onBeacon
  split_ifs with hscan haddr hnull hlost
  · exact Or.inr (.refl hp)
  · exact Or.inr (.refl hp)
  · left
    refine ⟨Bool.eq_false_of_not_eq_true hscan,not_not.mp haddr,?_⟩
    obtain rfl := hp.waiting_iff.mp hnull
    refine ⟨.authenticating,_,hp.authenticates,rfl,?_⟩
    rw [tally_auth]
    exact .beacon rfl
  · exact Or.inr (receiveDisconnect_follows hp _ _)
  · exact Or.inr (.refl hp)

/-- The frame tells that the station is authenticated. -/
structure AuthDone (s : ClntJoin) (pframe : List UInt8) : Prop where
  da : getDa pframe = s.macAddr
  status : le16At pframe (WLAN_HDR_A3_LEN + authOffset pframe + 4) = 0
  seq : le16At pframe (WLAN_HDR_A3_LEN + authOffset pframe + 2) = if s.authAlgo = .shared then 4 else 2

theorem startClntAssoc_follows (hp : s.state.In ph) (hauth : s.state.authState = true) :
    LinkFollows env .auth s ph (startClntAssoc env s) := by
  obtain rfl := hp.authenticating_iff.mp hauth
  refine ⟨.associating,_,hp.associates,rfl,?_⟩
  rw [tally_assocReq]
  exact .auth rfl

theorem onAuthClient_follows (env : ClntEnv) (hp : s.state.In ph) (pframe : List UInt8) (pktLen : ℕ) :
    (AuthDone s pframe ∧ LinkFollows env .auth s ph (onAuthClient env pframe pktLen s)) ∨
      LinkFollows env .other s ph (onAuthClient env pframe pktLen s) := by
  unfold onAuthClient
  dsimp only
  split_ifs with hda hauth hstatus hseq halgo hseq4 halgo4
  · exact Or.inr (.refl hp)
  · exact Or.inr (.refl hp)
  · right
    unfold authClntRefused
    refine LinkFollows.stay (o := []) hp ?_ ?_ rfl ?_ ?_ fun _ => rfl
    all_goals split_ifs <;> simp
  · right
    split
    · exact .refl hp
    · refine LinkFollows.stay hp rfl rfl ?_ rfl rfl fun _ => rfl
      cases env.tx <;> rfl
  · left
    rw [Bool.not_eq_false] at hauth
    refine ⟨⟨not_not.mp hda,not_not.mp hstatus,?_⟩,startClntAssoc_follows hp hauth⟩
    rw [if_neg halgo]
    exact hseq
  · left
    rw [Bool.not_eq_false] at hauth
    refine ⟨⟨not_not.mp hda,not_not.mp hstatus,?_⟩,startClntAssoc_follows hp hauth⟩
    rw [if_pos halgo4]
    exact hseq4
  · exact Or.inr (.refl hp)
  · exact Or.inr (.refl hp)

/-- The frame tells that the station is associated. -/
structure AssocDone (s : ClntJoin) (pframe : List UInt8) : Prop where
  da : getDa pframe = s.macAddr
  status : le16At pframe (WLAN_HDR_A3_LEN + 2) = 0

theorem onClntAssocRsp_follows (env : ClntEnv) (hp : s.state.In ph) (pframe : List UInt8) :
    (AssocDone s pframe ∧ LinkFollows env .assoc s ph (onClntAssocRsp env pframe s)) ∨
      LinkFollows env .other s ph (onClntAssocRsp env pframe s) := by
  unfold onClntAssocRsp
  dsimp only
  split_ifs with hda hstate hup hstatus
  · exact Or.inr (.refl hp)
  · exact Or.inr (.refl hp)
  · exact Or.inr (.refl hp)
  · right
    obtain rfl := hp.awaits hstate hup
    refine ⟨.idle,_,.idle false,rfl,?_⟩
    rw [tally_joinRes]
    exact .rejected rfl
  · left
    obtain rfl := hp.awaits hstate hup
    refine ⟨⟨not_not.mp hda,Nat.eq_zero_of_not_pos hstatus⟩,.up,_,hp.comesUp,rfl,?_⟩
    rw [tally_joinRes]
    exact .assoc rfl

theorem linkTimerHdl_follows (hp : s.state.In ph) :
    LinkFollows env .timer s ph (linkTimerHdl env { s with linkTimer := none }) := by
  unfold linkTimerHdl
  dsimp only
  split_ifs with hnull hauth hlimit hassoc hlimit
  · obtain rfl := hp.waiting_iff.mp hnull
    refine ⟨.idle,_,.idle false,rfl,?_⟩
    rw [tally_joinRes]
    exact .givesUp rfl
  · obtain rfl := hp.authenticating_iff.mp hauth
    refine ⟨.idle,_,.idle false,rfl,?_⟩
    rw [tally_joinRes]
    exact .givesUp rfl
  · obtain rfl := hp.authenticating_iff.mp hauth
    refine ⟨.authenticating,_,hp,rfl,?_⟩
    rw [tally_auth]
    exact .authAgain rfl (not_lt.mp hlimit)
  · obtain rfl := hp.associating_iff.mp hassoc
    refine ⟨.idle,_,.idle false,rfl,?_⟩
    rw [tally_joinRes]
    exact .givesUp rfl
  · obtain rfl := hp.associating_iff.mp hassoc
    refine ⟨.associating,_,hp,rfl,?_⟩
    rw [tally_assocReq]
    exact .assocAgain rfl (not_lt.mp hlimit)
  · have hlate : (s.link ph).pending = false := by
      have h1 := hp.waiting_iff.not.mp hnull
      have h2 := hp.authenticating_iff.not.mp hauth
      have h3 := hp.associating_iff.not.mp hassoc
      simp [ClntJoin.link, h1, h2, h3]
    exact ⟨ph,[],hp,(List.append_nil _).symm,.late hlate⟩

theorem tally_quiet {o more : List ClntOut} (h : tally o = .none) : tally (o ++ more) = tally more := by
  simp only [tally, Tally.none, Tally.mk.injEq] at h
  simp [tally, h]

/-- The state that `join_cmd_hdl` looks for a network in: a link that is up is left. -/
theorem joinCmdHdl_left (env : ClntEnv) (hp : s.state.In ph) (p : JoinParm) :
    ∃ t ph' o, joinCmdHdl env p s =
        (if MAX_IE_SZ < p.ieLength then t
          else if p.ieLength < 2 then reportJoinRes env (-4) t
          else if p.channel = false then reportJoinRes env (-4) t
          else startClntJoin p { t with linkTimer := none }) ∧
      t.state.In ph' ∧ (ph' = .idle ∧ ph = .up ∨ ph' = ph ∧ ph ≠ .up) ∧ t.out = s.out ++ o ∧
        tally o = .none ∧
      t.reauthCount = s.reauthCount ∧ t.reassocCount = s.reassocCount ∧
        (ph ≠ .up → t.linkTimer = s.linkTimer) := by
  unfold joinCmdHdl
  dsimp only
  by_cases hup : s.state.assocSuccess = true
  · rw [if_pos hup]
    exact ⟨_,.idle,_,rfl,.idle false,Or.inl ⟨rfl,hp.up_iff.mp hup⟩,rfl,tally_deauth _ _ _,rfl,rfl,
      fun h => absurd (hp.up_iff.mp hup) h⟩
  · rw [if_neg hup]
    exact ⟨_,ph,[],rfl,hp,Or.inr ⟨rfl,hp.up_iff.not.mp hup⟩,(List.append_nil _).symm,rfl,rfl,rfl,fun _ => rfl⟩

/-- The join is begun or answered. -/
def JoinParm.Heard (p : JoinParm) : Prop :=
  p.ieLength ≤ MAX_IE_SZ ∧ (p.ieLength < 2 ∨ p.channel = false ∨ p.ess = true)

instance (p : JoinParm) : Decidable p.Heard := inferInstanceAs (Decidable (_ ∧ _))

/-- The join is begun: the elements have their lengths, and there are a channel and an infrastructure network. -/
structure JoinParm.Begun (p : JoinParm) : Prop where
  elems : 2 ≤ p.ieLength ∧ p.ieLength ≤ MAX_IE_SZ
  channel : p.channel = true
  ess : p.ess = true

instance (p : JoinParm) : Decidable p.Begun :=
  decidable_of_iff ((2 ≤ p.ieLength ∧ p.ieLength ≤ MAX_IE_SZ) ∧ p.channel = true ∧ p.ess = true)
    ⟨fun h => ⟨h.1,h.2.1,h.2.2⟩,fun h => ⟨h.elems,h.channel,h.ess⟩⟩

/-- What a join command is to the link -/
def JoinParm.cause (p : JoinParm) : LinkCause := if p.Begun then .join else if p.Heard then .refusal else .unheard

theorem joinCmdHdl_follows (env : ClntEnv) (hp : s.state.In ph) (p : JoinParm) :
    LinkFollows env p.cause s ph (joinCmdHdl env p s) := by
  obtain ⟨t,ph',o,hjoin,ht,hph,hout,ho,hreauth,hreassoc,htimer⟩ := joinCmdHdl_left env hp p
  have hrefused : LinkFollows env .refusal s ph (reportJoinRes env (-4) t) := by
    refine ⟨ph',o ++ if env.event then [.joinRes (-4)] else [],ht,?_,?_⟩
    · simp [reportJoinRes, ClntJoin.emit, hout]
    · rw [tally_quiet ho, tally_joinRes, ClntJoin.link, ClntJoin.link]
      simp only [reportJoinRes, ClntJoin.emit, hreauth, hreassoc]
      exact .refused hph fun hup => congrArg Option.isSome (htimer hup)
  have hunheard : ∀ timer, LinkFollows env .unheard s ph { t with linkTimer := timer } := by
    intro timer
    refine ⟨ph',o,ht,hout,?_⟩
    rw [ho, ClntJoin.link, ClntJoin.link]
    simp only [hreauth, hreassoc]
    exact .unheard hph
  rw [hjoin, JoinParm.cause]
  by_cases hbegun : p.Begun
  · rw [if_pos hbegun, if_neg (not_lt.mpr hbegun.elems.2), if_neg (not_lt.mpr hbegun.elems.1),
      if_neg (by rw [hbegun.channel]; exact nofun), startClntJoin, if_pos hbegun.ess]
    refine ⟨.waiting,o,.waiting,hout,?_⟩
    rw [ho, ClntJoin.link, ClntJoin.link]
    simp only [hreauth, hreassoc]
    exact .begins
  · rw [if_neg hbegun]
    split_ifs with hheard hlong hshort hchan hlong hshort hchan
    · exact absurd hheard.1 (not_le.mpr hlong)
    · exact hrefused
    · exact hrefused
    · have hess : p.ess = true := by simpa [hshort, hchan] using hheard.2
      exact absurd ⟨⟨not_lt.mp hshort,hheard.1⟩,by simpa using hchan,hess⟩ hbegun
    · exact hunheard t.linkTimer
    · exact absurd ⟨not_lt.mp hlong,Or.inl hshort⟩ hheard
    · exact absurd ⟨not_lt.mp hlong,Or.inr (Or.inl hchan)⟩ hheard
    · have hess : ¬ p.ess = true := fun hess => hheard ⟨not_lt.mp hlong,Or.inr (Or.inr hess)⟩
      unfold startClntJoin
      rw [if_neg hess]
      exact hunheard none

theorem disconnectHdl_follows (s : ClntJoin) (ph : LinkPhase) : LinkFollows env .leave s ph (disconnectHdl env s) := by
  unfold disconnectHdl
  dsimp only
  split_ifs
  · refine ⟨.idle,_,.idle false,rfl,?_⟩
    rw [tally_deauth]
    exact .leaves
  · exact ⟨.idle,[],.idle false,(List.append_nil _).symm,.leaves⟩

/-- What an event is to the link, in the state that it meets -/
inductive Means (s : ClntJoin) : ClntEvent → LinkCause → Prop
  | join (p : JoinParm) : p.Begun → Means s (.join p) .join
  | refusal (p : JoinParm) : p.Heard → ¬ p.Begun → Means s (.join p) .refusal
  | unheard (p : JoinParm) : ¬ p.Heard → Means s (.join p) .unheard
  | beacon (b : BeaconRead) : b.scanning = false → b.addr3 = s.bssid → Means s (.beacon b) .beacon
  | auth (pframe : List UInt8) (pktLen : ℕ) : AuthDone s pframe → Means s (.auth pframe pktLen) .auth
  | assoc (pframe : List UInt8) : AssocDone s pframe → Means s (.assocRsp pframe) .assoc
  | timer : s.linkTimer.isSome = true → Means s .linkTimer .timer
  | disconnect : Means s .disconnect .leave
  | staDel : Means s .staDel .leave
  | other (e : ClntEvent) : (∀ p, e ≠ .join p) → (e = .linkTimer → s.linkTimer.isSome = false) →
    Means s e .other

theorem clntStep_follows (hp : s.state.In ph) (env : ClntEnv) (e : ClntEvent) :
    ∃ c, Means s e c ∧ LinkFollows env c s ph (clntStep s (env,e)) := by
  cases e with
  | join p =>
    have h := joinCmdHdl_follows env hp p
    rw [JoinParm.cause] at h
    split_ifs at h with hbegun hheard
    · exact ⟨.join,.join p hbegun,h⟩
    · exact ⟨.refusal,.refusal p hheard hbegun,h⟩
    · exact ⟨.unheard,.unheard p hheard,h⟩
  | setAuth algo =>
    exact ⟨.other,.other _ (by simp) (by simp),
      LinkFollows.stay (o := []) hp rfl (List.append_nil _).symm rfl rfl rfl id⟩
  | setOpmode =>
    refine ⟨.other,.other _ (by simp) (by simp),ph,[],hp.station,(List.append_nil _).symm,?_⟩
    exact .stays id
  | beacon b =>
    rcases onBeacon_follows env hp b with ⟨hscan,haddr,h⟩ | h
    · exact ⟨.beacon,.beacon b hscan haddr,h⟩
    · exact ⟨.other,.other _ (by simp) (by simp),h⟩
  | auth pframe pktLen =>
    rcases onAuthClient_follows env hp pframe pktLen with ⟨hdone,h⟩ | h
    · exact ⟨.auth,.auth pframe pktLen hdone,h⟩
    · exact ⟨.other,.other _ (by simp) (by simp),h⟩
  | assocRsp pframe =>
    rcases onClntAssocRsp_follows env hp pframe with ⟨hdone,h⟩ | h
    · exact ⟨.assoc,.assoc pframe hdone,h⟩
    · exact ⟨.other,.other _ (by simp) (by simp),h⟩
  | deauth pframe =>
    refine ⟨.other,.other _ (by simp) (by simp),?_⟩
    simp only [clntStep, onClntDeAuth]
    split_ifs
    · exact .refl hp
    · exact .refl hp
    · exact receiveDisconnect_follows hp _ _
  | disassoc pframe =>
    refine ⟨.other,.other _ (by simp) (by simp),?_⟩
    simp only [clntStep, onClntDisassoc]
    split_ifs
    · exact .refl hp
    · exact receiveDisconnect_follows hp _ _
  | linkTimer =>
    simp only [clntStep]
    split_ifs with hset
    · exact ⟨.timer,.timer hset,linkTimerHdl_follows hp⟩
    · exact ⟨.other,.other _ (by simp) fun _ => Bool.eq_false_of_not_eq_true hset,.refl hp⟩
  | lost reason => exact ⟨.other,.other _ (by simp) (by simp),receiveDisconnect_follows hp _ _⟩
  | disconnect => exact ⟨.leave,.disconnect,disconnectHdl_follows s ph⟩
  | staDel => exact ⟨.leave,.staDel,.idle,[],.idle false,(List.append_nil _).symm,.leaves⟩

end
end Rtl8188fu
