import Rtl8188fu.P2p.GoNego

/-! # Agreement on one group owner

With different intents the two devices agree in every run. With equal intents the tie breaker decides:
it is zero in a request and one in a response, so a device is the owner if the last of the two that
reached it was a request. This goes well as long as each frame that is accepted belongs to the latest
negotiation of the device that accepts it, which the code does not check.
-/
namespace Rtl8188fu

/-! ## What the functions do -/

namespace WifidirectInfo
variable {w : WifidirectInfo} {status attrContent : ℕ} {commonCh : Bool}

/-- The role by intents and tie breaker bit -/
def electRole (w : WifidirectInfo) : P2pRole :=
  if w.peerIntent / 2 < w.intent then .GO
  else if w.intent < w.peerIntent / 2 then .CLIENT
  else if w.peerIntent % 2 = 1 then .CLIENT else .GO

/-- The device has finished the negotiation with the role of its intents. -/
structure Elected (w : WifidirectInfo) : Prop where
  state : w.p2pState = .GONEGO_OK
  preState : w.preP2pState = .GONEGO_OK
  role : w.role = w.electRole

theorem processReq_intent (w : WifidirectInfo) (attrContent : ℕ) (commonCh : Bool) :
    (w.processNegotationReq attrContent commonCh).1.intent = w.intent := by
  rw [processNegotationReq]
  cases commonCh <;> cases w.gotWpsInfo <;> simp

theorem processReq_peerIntent (w : WifidirectInfo) (attrContent : ℕ) (commonCh : Bool) :
    (w.processNegotationReq attrContent commonCh).1.peerIntent = attrContent := by
  rw [processNegotationReq]
  cases commonCh <;> cases w.gotWpsInfo <;> simp

theorem processReq_success (h : (w.processNegotationReq attrContent commonCh).2 = P2P_STATUS_SUCCESS) :
    ¬ (w.intent = attrContent / 2 ∧ w.intent = P2P_MAX_INTENT) := by
  rintro ⟨heq,hmax⟩
  rw [processNegotationReq] at h
  dsimp only at h
  rw [if_pos heq, if_pos hmax] at h
  cases commonCh <;> cases hw : w.gotWpsInfo <;> simp [hw] at h <;> revert h <;> decide

theorem processResp_fail (h : status ≠ P2P_STATUS_SUCCESS) :
    (w.processNegotationResp status attrContent commonCh).1.intent = w.intent ∧
    (w.processNegotationResp status attrContent commonCh).1.peerIntent = w.peerIntent ∧
    (w.processNegotationResp status attrContent commonCh).1.p2pState ≠ .GONEGO_OK ∧
    (w.processNegotationResp status attrContent commonCh).2 ≠ P2P_STATUS_SUCCESS := by
  rw [processNegotationResp, if_pos h]
  refine ⟨rfl,rfl,?_,h⟩
  dsimp only
  split
  · exact P2pState.noConfusion
  · exact P2pState.noConfusion

/-- A response with success gives the intent of the peer, and the role unless both insist or there is
no common channel. -/
theorem processResp_success (w : WifidirectInfo) (attrContent : ℕ) (commonCh : Bool) :
    (w.processNegotationResp P2P_STATUS_SUCCESS attrContent commonCh).1.intent = w.intent ∧
    (w.processNegotationResp P2P_STATUS_SUCCESS attrContent commonCh).1.peerIntent = attrContent ∧
    ((w.processNegotationResp P2P_STATUS_SUCCESS attrContent commonCh).1.p2pState = .GONEGO_OK ∨
      (w.processNegotationResp P2P_STATUS_SUCCESS attrContent commonCh).2 = P2P_STATUS_SUCCESS →
      (w.processNegotationResp P2P_STATUS_SUCCESS attrContent commonCh).1.Elected ∧
      ¬ (w.intent = attrContent / 2 ∧ w.intent = P2P_MAX_INTENT)) := by
  rw [processNegotationResp, if_neg (not_not.mpr rfl)]
  dsimp only
  by_cases heq : w.intent = attrContent / 2
  · by_cases hmax : w.intent = P2P_MAX_INTENT
    · rw [if_pos heq, if_pos hmax]
      cases commonCh with
      | true =>
        refine ⟨rfl,rfl,?_⟩
        rintro (h | h)
        · cases h
        · cases h
      | false =>
        refine ⟨rfl,rfl,?_⟩
        rintro (h | h)
        · cases h
        · cases h
    · rw [if_pos heq, if_neg hmax]
      cases commonCh with
      | true =>
        refine ⟨rfl,rfl,fun _ => ⟨⟨rfl,rfl,?_⟩,fun h => hmax h.2⟩⟩
        change (if attrContent % 2 = 1 then P2pRole.CLIENT else .GO) =
          if attrContent / 2 < w.intent then .GO
          else if w.intent < attrContent / 2 then .CLIENT else if attrContent % 2 = 1 then .CLIENT else .GO
        rw [if_neg heq.not_gt, if_neg heq.not_lt]
      | false =>
        refine ⟨rfl,rfl,?_⟩
        rintro (h | h)
        · cases h
        · cases h
  · rw [if_neg heq]
    cases commonCh with
    | true =>
      refine ⟨rfl,rfl,fun _ => ⟨⟨rfl,rfl,?_⟩,fun h => heq h.1⟩⟩
      change (if attrContent / 2 < w.intent then P2pRole.GO else .CLIENT) =
        if attrContent / 2 < w.intent then .GO
        else if w.intent < attrContent / 2 then .CLIENT else if attrContent % 2 = 1 then .CLIENT else .GO
      split
      · rfl
      · rename_i hge
        rw [if_pos (by omega)]
    | false =>
      refine ⟨rfl,rfl,?_⟩
      rintro (h | h)
      · cases h
      · cases h

theorem processConf_elected (w : WifidirectInfo) : (w.processNegotationConfirm P2P_STATUS_SUCCESS).Elected := by
  rw [processNegotationConfirm, if_pos rfl]
  exact ⟨rfl,rfl,rfl⟩

theorem processConf_intent (w : WifidirectInfo) (status : ℕ) :
    (w.processNegotationConfirm status).intent = w.intent ∧
    (w.processNegotationConfirm status).peerIntent = w.peerIntent := by
  rw [processNegotationConfirm]
  split
  · exact ⟨rfl,rfl⟩
  · exact ⟨rfl,rfl⟩

theorem beforeReq_intent (w : WifidirectInfo) : w.beforeReq.intent = w.intent := by
  rw [beforeReq]
  split <;> split <;> split <;> rfl

theorem connect_same (w : WifidirectInfo) : w.connect.intent = w.intent ∧ w.connect.peerIntent = w.peerIntent := by
  rw [connect]
  split
  · exact ⟨rfl,rfl⟩
  · exact ⟨rfl,rfl⟩

theorem restoreState_same (w : WifidirectInfo) :
    w.restoreState.intent = w.intent ∧ w.restoreState.peerIntent = w.peerIntent := by
  rw [restoreState]
  split
  · exact ⟨rfl,rfl⟩
  · exact ⟨rfl,rfl⟩

theorem Elected.restoreState (h : w.Elected) : w.restoreState.Elected := by
  rw [WifidirectInfo.restoreState, if_neg]
  · exact ⟨h.preState,h.preState,h.role⟩
  · rw [h.state]
    decide

end WifidirectInfo

/-! ## Every run -/

/-- Both devices insist on being the owner. -/
def BothMax (intent : Bool → ℕ) : Prop := ∀ d, intent d = P2P_MAX_INTENT

structure NegoDevice.Ok (intent : Bool → ℕ) (d : Bool) (x : NegoDevice) : Prop where
  same : x.info.intent = intent d
  heard : x.answeredOk = true → x.info.peerIntent / 2 = intent !d
  done : x.done = true → x.info.Elected ∧ x.info.peerIntent / 2 = intent !d ∧ ¬ BothMax intent
  confirmed : x.doneByConfirm = true → x.answeredOk = true

/-- What a frame of a device says about the run -/
def NegoState.FrameOk (intent : Bool → ℕ) (s : NegoState) (d : Bool) : NegoFrame → Prop
  | .req i n => i = intent d * 2 ∧ n ≤ (s.dev d).num
  | .resp status i n => i = intent d * 2 + 1 ∧ n ≤ (s.dev !d).num ∧
      (status = P2P_STATUS_SUCCESS → (s.dev d).answeredOk = true ∧ ¬ BothMax intent)
  | .conf status n => status = P2P_STATUS_SUCCESS →
      (s.dev !d).answeredOk = true ∧ ¬ BothMax intent ∧ ∃ i, (!d,.resp P2P_STATUS_SUCCESS i n) ∈ s.sent

structure NegoInv (intent : Bool → ℕ) (s : NegoState) : Prop where
  devs : ∀ d, (s.dev d).Ok intent d
  frames : ∀ d frame, (d,frame) ∈ s.sent → s.FrameOk intent d frame

variable {intent : Bool → ℕ} {s t : NegoState} {d : Bool} {x : NegoDevice}

theorem NegoState.FrameOk.mono {frame : NegoFrame} (h : s.FrameOk intent d frame)
    (hnum : ∀ c, (s.dev c).num ≤ (t.dev c).num)
    (hok : ∀ c, (s.dev c).answeredOk = true → (t.dev c).answeredOk = true)
    (hsent : ∀ p ∈ s.sent, p ∈ t.sent) :
    t.FrameOk intent d frame := by
  cases frame with
  | req i n => exact ⟨h.1,h.2.trans (hnum d)⟩
  | resp status i n =>
    obtain ⟨hi,hn,hsuccess⟩ := h
    exact ⟨hi,hn.trans (hnum _),fun hs => ⟨hok d (hsuccess hs).1,(hsuccess hs).2⟩⟩
  | conf status n =>
    intro hs
    obtain ⟨hans,hmax,i,hi⟩ := h hs
    exact ⟨hok _ hans,hmax,i,hsent _ hi⟩

/-- One device goes on, and sends frames. -/
def NegoState.put (s : NegoState) (d : Bool) (x : NegoDevice) (frames : List NegoFrame) : NegoState :=
  { dev := Function.update s.dev d x, sent := frames.map (d,·) ++ s.sent }

@[simp] theorem put_self (s : NegoState) (d : Bool) (x : NegoDevice) (frames : List NegoFrame) :
    (s.put d x frames).dev d = x :=
  Function.update_self ..

@[simp] theorem put_other (s : NegoState) (d : Bool) (x : NegoDevice) (frames : List NegoFrame) :
    (s.put d x frames).dev (!d) = s.dev !d := Function.update_of_ne (Bool.not_ne_self d) ..

theorem forall_put {P : Bool → NegoDevice → Prop} {frames : List NegoFrame} (hx : P d x)
    (hother : P (!d) (s.dev !d)) :
    ∀ c, P c ((s.put d x frames).dev c) := by
  intro c
  rcases Bool.eq_or_eq_not c d with rfl | rfl
  · rw [put_self]
    exact hx
  · rw [put_other]
    exact hother

theorem mem_put {frames : List NegoFrame} {p : Bool × NegoFrame} (h : p ∈ s.sent) : p ∈ (s.put d x frames).sent :=
  List.mem_append_right _ h

namespace NegoInv

theorem put (h : NegoInv intent s) {frames : List NegoFrame} (hx : x.Ok intent d) (hnum : (s.dev d).num ≤ x.num)
    (hans : (s.dev d).answeredOk = true → x.answeredOk = true)
    (hframes : ∀ frame ∈ frames, (s.put d x frames).FrameOk intent d frame) :
    NegoInv intent (s.put d x frames) := by
  constructor
  · exact forall_put hx (h.devs _)
  · intro c frame hmem
    rcases List.mem_append.mp hmem with hmem | hmem
    · obtain ⟨g,hg,heq⟩ := List.mem_map.mp hmem
      obtain ⟨rfl,rfl⟩ := Prod.mk.inj heq
      exact hframes g hg
    · refine (h.frames c frame hmem).mono ?_ ?_ fun p hp => mem_put hp
      · exact forall_put (P := fun c y => (s.dev c).num ≤ y.num) hnum le_rfl
      · exact forall_put (P := fun c y => (s.dev c).answeredOk = true → y.answeredOk = true) hans id

theorem deliver_req (h : NegoInv intent s) {i n : ℕ} (hsent : (!d,.req i n) ∈ s.sent) (commonCh : Bool)
    {r : WifidirectInfo × ℕ}
    (hr : (s.dev d).info.beforeReq.processNegotationReq i commonCh = r) :
    NegoInv intent (s.put d { s.dev d with
      info := r.1
      own := false
      answered := some n
      answeredOk := (s.dev d).answeredOk || decide (r.2 = P2P_STATUS_SUCCESS)
      done := false } [.resp r.2 r.1.responseIntent n]) := by
  obtain ⟨rfl,hn⟩ := h.frames _ _ hsent
  have hdev := h.devs d
  have hhalf : intent (!d) * 2 / 2 = intent !d := Nat.mul_div_cancel _ two_pos
  have hbefore : (s.dev d).info.beforeReq.intent = intent d := (WifidirectInfo.beforeReq_intent _).trans hdev.same
  have hint : r.1.intent = intent d := by
    rw [← hr]
    exact (WifidirectInfo.processReq_intent _ _ _).trans hbefore
  have hpeer : r.1.peerIntent = intent (!d) * 2 := by
    rw [← hr]
    exact WifidirectInfo.processReq_peerIntent _ _ _
  have hmax : r.2 = P2P_STATUS_SUCCESS → ¬ BothMax intent := by
    intro hs hmax
    rw [← hr] at hs
    refine WifidirectInfo.processReq_success hs ⟨?_,hbefore.trans (hmax d)⟩
    rw [hhalf, hbefore, hmax d, hmax]
  refine h.put ?_ le_rfl ?_ ?_
  · refine ⟨hint,?_,?_,?_⟩
    · intro _
      dsimp only
      rw [hpeer, hhalf]
    · intro hdone
      cases hdone
    · intro hconf
      dsimp only
      rw [hdev.confirmed hconf]
      rfl
  · intro hans
    dsimp only
    rw [hans]
    rfl
  · intro g hg
    rw [List.mem_singleton.mp hg]
    refine ⟨?_,?_,?_⟩
    · rw [WifidirectInfo.responseIntent, hpeer, Nat.mul_mod_left, if_neg Nat.zero_ne_one, hint]
    · rw [put_other]
      exact hn
    · intro hs
      rw [put_self]
      refine ⟨?_,hmax hs⟩
      dsimp only
      rw [decide_eq_true hs, Bool.or_true]

theorem deliver_resp (h : NegoInv intent s) {status i n : ℕ} (hsent : (!d,.resp status i n) ∈ s.sent)
    {w : WifidirectInfo}
    (hw : w = { (s.dev d).info with benable := false }) (commonCh : Bool) {r : WifidirectInfo × ℕ}
    (hr : w.processNegotationResp status i commonCh = r) :
    NegoInv intent (s.put d { s.dev d with info := r.1, done := decide (r.1.p2pState = .GONEGO_OK) }
      [.conf r.2 n]) := by
  obtain ⟨rfl,hn,hsuccess⟩ := h.frames _ _ hsent
  have hdev := h.devs d
  have hsame : w.intent = intent d := by
    rw [hw]
    exact hdev.same
  have hhalf : (intent (!d) * 2 + 1) / 2 = intent !d := by omega
  by_cases hs : status = P2P_STATUS_SUCCESS
  · subst hs
    obtain ⟨hint,hpeer,helect⟩ := WifidirectInfo.processResp_success w (intent (!d) * 2 + 1) commonCh
    obtain ⟨hans,hmax⟩ := hsuccess rfl
    rw [hr] at hint hpeer helect
    refine h.put ⟨hint.trans hsame,?_,?_,hdev.confirmed⟩ le_rfl id ?_
    · intro _
      dsimp only
      rw [hpeer, hhalf]
    · intro hdone
      refine ⟨(helect (Or.inl (of_decide_eq_true hdone))).1,?_,hmax⟩
      dsimp only
      rw [hpeer, hhalf]
    · intro g hg
      rw [List.mem_singleton.mp hg]
      intro _
      rw [put_other]
      exact ⟨hans,hmax,_,mem_put hsent⟩
  · obtain ⟨hint,hpeer,hstate,hres⟩ := @WifidirectInfo.processResp_fail w status (intent (!d) * 2 + 1) commonCh hs
    rw [hr] at hint hpeer hstate hres
    refine h.put ⟨hint.trans hsame,?_,?_,hdev.confirmed⟩ le_rfl id ?_
    · intro hans
      dsimp only
      rw [hpeer, hw]
      exact hdev.heard hans
    · intro hdone
      exact absurd (of_decide_eq_true hdone) hstate
    · intro g hg
      rw [List.mem_singleton.mp hg]
      exact fun hs => absurd hs hres

theorem deliver_conf (h : NegoInv intent s) {status n : ℕ} (hsent : (!d,.conf status n) ∈ s.sent)
    {w : WifidirectInfo}
    (hw : (s.dev d).info.processNegotationConfirm status = w) :
    NegoInv intent (s.put d { s.dev d with
      info := w
      done := decide (w.p2pState = .GONEGO_OK)
      doneByConfirm := (s.dev d).doneByConfirm || decide (w.p2pState = .GONEGO_OK) } []) := by
  have hdev := h.devs d
  have hframe := h.frames _ _ hsent
  by_cases hs : status = P2P_STATUS_SUCCESS
  · obtain ⟨hans,hmax,-⟩ := hframe hs
    rw [Bool.not_not] at hans
    have hpeer := hdev.heard hans
    subst hs
    have helect := WifidirectInfo.processConf_elected (s.dev d).info
    have hkeep := WifidirectInfo.processConf_intent (s.dev d).info P2P_STATUS_SUCCESS
    rw [hw] at helect hkeep
    refine h.put ⟨hkeep.1.trans hdev.same,?_,?_,fun _ => hans⟩ le_rfl id fun _ hg => absurd hg List.not_mem_nil
    · exact fun _ => (congrArg (· / 2) hkeep.2).trans hpeer
    · exact fun _ => ⟨helect,(congrArg (· / 2) hkeep.2).trans hpeer,hmax⟩
  · have hkeep := WifidirectInfo.processConf_intent (s.dev d).info status
    have hstate : w.p2pState = .GONEGO_FAIL := by
      rw [← hw, WifidirectInfo.processNegotationConfirm, if_neg hs]
    rw [hw] at hkeep
    have hnot : decide (w.p2pState = .GONEGO_OK) = false := by
      rw [hstate]
      rfl
    refine h.put ⟨hkeep.1.trans hdev.same,?_,?_,?_⟩ le_rfl id fun _ hg => absurd hg List.not_mem_nil
    · exact fun hans => (congrArg (· / 2) hkeep.2).trans (hdev.heard hans)
    · intro hdone
      dsimp only at hdone
      rw [hnot] at hdone
      cases hdone
    · intro hconf
      dsimp only at hconf
      rw [hnot, Bool.or_false] at hconf
      exact hdev.confirmed hconf

theorem deliver (h : NegoInv intent s) {frame : NegoFrame} (hsent : (!d,frame) ∈ s.sent) (commonCh : Bool) :
    NegoInv intent (s.put d ((s.dev d).deliver frame commonCh).1 ((s.dev d).deliver frame commonCh).2) := by
  have hkeep : NegoInv intent (s.put d (s.dev d) []) :=
    h.put (h.devs d) le_rfl id fun _ hg => absurd hg List.not_mem_nil
  generalize hr : (s.dev d).deliver frame commonCh = r
  rw [NegoDevice.deliver.eq_def] at hr
  split at hr
  · rw [← hr]
    exact hkeep
  · cases frame with
    | req i n =>
      rw [← hr]
      exact h.deliver_req hsent commonCh rfl
    | resp status i n =>
      dsimp only at hr
      split at hr
      · rw [← hr]
        exact h.deliver_resp hsent rfl commonCh rfl
      · rw [← hr]
        exact hkeep
    | conf status n =>
      rw [← hr]
      exact h.deliver_conf hsent rfl

theorem init (intent : Bool → ℕ) (h : ∀ d, intent d ≤ P2P_MAX_INTENT) : NegoInv intent (.init intent h) where
  devs d := by
    have hno : ∀ {P : Prop}, false = true → P := fun h => by cases h
    exact ⟨rfl,hno,hno,hno⟩
  frames _ _ hmem := absurd hmem List.not_mem_nil

theorem step (h : NegoInv intent s) (e : NegoEvent) : NegoInv intent (negoStep s e) := by
  have hnone : ∀ {d : Bool} {x : NegoDevice} (frame), frame ∈ ([] : List NegoFrame) →
      (s.put d x []).FrameOk intent d frame :=
    fun _ hg => absurd hg List.not_mem_nil
  have hno : ∀ {P : Prop}, false = true → P := fun h => by cases h
  have hkeep : ∀ d, NegoInv intent (s.put d (s.dev d) []) := fun d => h.put (h.devs d) le_rfl id hnone
  cases e with
  | connect d =>
    change NegoInv intent (s.put d (s.dev d).connect [])
    have hdev := h.devs d
    rw [NegoDevice.connect]
    split
    · exact hkeep d
    · have hsame := WifidirectInfo.connect_same (s.dev d).info
      refine h.put ⟨hsame.1.trans hdev.same,?_,hno,hdev.confirmed⟩ (Nat.le_succ _) id hnone
      exact fun hans => (congrArg (· / 2) hsame.2).trans (hdev.heard hans)
  | sendReq d =>
    have hdev := h.devs d
    rw [negoStep]
    dsimp only
    split
    · change NegoInv intent (s.put d { s.dev d with info := { (s.dev d).info with benable := false } }
        [.req (s.dev d).info.requestIntent (s.dev d).num])
      refine h.put ⟨hdev.same,hdev.heard,?_,hdev.confirmed⟩ le_rfl id ?_
      · intro hdone
        obtain ⟨helect,hrest⟩ := hdev.done hdone
        exact ⟨⟨helect.state,helect.preState,helect.role⟩,hrest⟩
      · intro g hg
        rw [List.mem_singleton.mp hg]
        refine ⟨?_,?_⟩
        · rw [WifidirectInfo.requestIntent, hdev.same]
        · rw [put_self]
    · exact h
  | deliver d frame commonCh =>
    rw [negoStep]
    split
    · rename_i hsent
      exact h.deliver hsent commonCh
    · exact h
  | restore d =>
    have hdev := h.devs d
    have hsame := WifidirectInfo.restoreState_same (s.dev d).info
    change NegoInv intent (s.put d _ [])
    refine h.put ⟨hsame.1.trans hdev.same,?_,?_,hdev.confirmed⟩ le_rfl id hnone
    · exact fun hans => (congrArg (· / 2) hsame.2).trans (hdev.heard hans)
    · intro hdone
      obtain ⟨helect,hpeer,hmax⟩ := hdev.done hdone
      exact ⟨helect.restoreState,(congrArg (· / 2) hsame.2).trans hpeer,hmax⟩
  | setWpsInfo d got =>
    have hdev := h.devs d
    change NegoInv intent (s.put d _ [])
    refine h.put ⟨hdev.same,hdev.heard,?_,hdev.confirmed⟩ le_rfl id hnone
    intro hdone
    obtain ⟨helect,hrest⟩ := hdev.done hdone
    exact ⟨⟨helect.state,helect.preState,helect.role⟩,hrest⟩
  | other d p2pState preP2pState role =>
    have hdev := h.devs d
    change NegoInv intent (s.put d _ [])
    exact h.put ⟨hdev.same,hdev.heard,hno,hdev.confirmed⟩ le_rfl id hnone

end NegoInv

/-! ## Equal intents -/

/-- The tie breaker bit of the peer, as stored -/
def NegoDevice.tie (x : NegoDevice) : ℕ := x.info.peerIntent % 2

/-- The request of the latest negotiation of the device has been answered by the other. -/
def NegoDevice.Answered (x : NegoDevice) (peer : Bool) (sent : List (Bool × NegoFrame)) : Prop :=
  ∃ status i, (peer,.resp status i x.num) ∈ sent

/-- The request that the device has answered last has been confirmed by the other. -/
def NegoDevice.Confirmed (x : NegoDevice) (peer : Bool) (sent : List (Bool × NegoFrame)) : Prop :=
  ∃ n, x.answered = some n ∧ (peer,.conf P2P_STATUS_SUCCESS n) ∈ sent

structure TieInv (s : NegoState) : Prop where
  own : ∀ d, (s.dev d).done = true → (s.dev d).tie = 1 → (s.dev d).own = true ∧ (s.dev d).Answered (!d) s.sent
  confirmed : ∀ d, (s.dev d).done = true → (s.dev d).tie = 0 → (s.dev d).Confirmed (!d) s.sent
  bothOwn : ¬ ∀ d, (s.dev d).own = true ∧ (s.dev d).Answered (!d) s.sent
  bothConfirmed : ¬ ∀ d, (s.dev d).tie = 0 ∧ (s.dev d).Confirmed (!d) s.sent

theorem mem_put_other {frames : List NegoFrame} {frame : NegoFrame} :
    (!d,frame) ∈ (s.put d x frames).sent ↔ (!d,frame) ∈ s.sent := by
  rw [NegoState.put, List.mem_append, or_iff_right]
  intro hmem
  obtain ⟨g,-,heq⟩ := List.mem_map.mp hmem
  exact Bool.not_ne_self d (Prod.mk.inj heq).1.symm

theorem mem_put_self {frames : List NegoFrame} {frame : NegoFrame} (h : (d,frame) ∈ (s.put d x frames).sent)
    (hnot : frame ∉ frames) : (d,frame) ∈ s.sent := by
  rcases List.mem_append.mp h with hmem | hmem
  · obtain ⟨g,hg,heq⟩ := List.mem_map.mp hmem
    obtain rfl : g = frame := (Prod.mk.inj heq).2
    exact absurd hg hnot
  · exact hmem

namespace TieInv

theorem put (h : TieInv s) {frames : List NegoFrame}
    (hown : x.done = true → x.tie = 1 → x.own = true ∧ x.Answered (!d) s.sent)
    (hconf : x.done = true → x.tie = 0 → x.Confirmed (!d) s.sent)
    (hbothOwn : x.own = true → x.Answered (!d) s.sent →
      ((s.dev d).own = true ∧ (s.dev d).Answered (!d) s.sent) ∧ ∀ status i n, .resp status i n ∉ frames)
    (hbothConf : x.tie = 0 → x.Confirmed (!d) s.sent →
      ((s.dev d).tie = 0 ∧ (s.dev d).Confirmed (!d) s.sent) ∧ ∀ n, .conf P2P_STATUS_SUCCESS n ∉ frames) :
    TieInv (s.put d x frames) where
  own := by
    apply forall_put (P := fun c y => y.done = true → y.tie = 1 → y.own = true ∧
      y.Answered (!c) (s.put d x frames).sent)
    · intro hdone htie
      obtain ⟨hx,status,i,hmem⟩ := hown hdone htie
      exact ⟨hx,status,i,mem_put hmem⟩
    · intro hdone htie
      obtain ⟨hx,status,i,hmem⟩ := h.own (!d) hdone htie
      exact ⟨hx,status,i,mem_put hmem⟩
  confirmed := by
    apply forall_put (P := fun c y => y.done = true → y.tie = 0 → y.Confirmed (!c) (s.put d x frames).sent)
    · intro hdone htie
      obtain ⟨n,hn,hmem⟩ := hconf hdone htie
      exact ⟨n,hn,mem_put hmem⟩
    · intro hdone htie
      obtain ⟨n,hn,hmem⟩ := h.confirmed (!d) hdone htie
      exact ⟨n,hn,mem_put hmem⟩
  bothOwn := by
    intro hall
    obtain ⟨hx,status,i,hmem⟩ := hall d
    rw [put_self] at hx hmem
    obtain ⟨hold,hnone⟩ := hbothOwn hx ⟨status,i,mem_put_other.mp hmem⟩
    obtain ⟨hx',status',i',hmem'⟩ := hall (!d)
    rw [put_other] at hx' hmem'
    rw [Bool.not_not] at hmem'
    apply h.bothOwn
    intro c
    rcases Bool.eq_or_eq_not c d with rfl | rfl
    · exact hold
    · refine ⟨hx',status',i',?_⟩
      rw [Bool.not_not]
      exact mem_put_self hmem' (hnone _ _ _)
  bothConfirmed := by
    intro hall
    obtain ⟨hx,n,hn,hmem⟩ := hall d
    rw [put_self] at hx hn
    obtain ⟨hold,hnone⟩ := hbothConf hx ⟨n,hn,mem_put_other.mp hmem⟩
    obtain ⟨hx',n',hn',hmem'⟩ := hall (!d)
    rw [put_other] at hx' hn'
    rw [Bool.not_not] at hmem'
    apply h.bothConfirmed
    intro c
    rcases Bool.eq_or_eq_not c d with rfl | rfl
    · exact hold
    · refine ⟨hx',n',hn',?_⟩
      rw [Bool.not_not]
      exact mem_put_self hmem' (hnone _)

/-- What changes neither the tie breaker bit nor the negotiations of the device -/
theorem put_same (h : TieInv s) {frames : List NegoFrame} (hdone : x.done = true → (s.dev d).done = true)
    (htie : x.tie = (s.dev d).tie) (hown : x.own = (s.dev d).own) (hnum : x.num = (s.dev d).num)
    (hans : x.answered = (s.dev d).answered) (hresp : ∀ status i n, .resp status i n ∉ frames)
    (hconf : ∀ n, .conf P2P_STATUS_SUCCESS n ∉ frames) : TieInv (s.put d x frames) := by
  have hA : x.Answered (!d) s.sent ↔ (s.dev d).Answered (!d) s.sent := by
    rw [NegoDevice.Answered, NegoDevice.Answered, hnum]
  have hC : x.Confirmed (!d) s.sent ↔ (s.dev d).Confirmed (!d) s.sent := by
    rw [NegoDevice.Confirmed, NegoDevice.Confirmed, hans]
  apply h.put
  · rw [htie, hown, hA]
    exact fun hx => h.own d (hdone hx)
  · rw [htie, hC]
    exact fun hx => h.confirmed d (hdone hx)
  · rw [hown, hA]
    exact fun hx hy => ⟨⟨hx,hy⟩,hresp⟩
  · rw [htie, hC]
    exact fun hx hy => ⟨⟨hx,hy⟩,hconf⟩

end TieInv

/-- With equal intents, not both the highest, each frame that is accepted belongs to the latest
negotiation of the device: a request that it has answered before only while it still is the last one
that it heard of; a response while it has not answered a request since it started; a confirm if it
belongs to the request that it answered and heard of last. -/
def NegoEventOk (s : NegoState) : NegoEvent → Prop
  | .deliver d frame _ =>
    (s.dev d).info.intent = (s.dev !d).info.intent → (s.dev d).info.intent ≠ P2P_MAX_INTENT →
    (!d,frame) ∈ s.sent → (s.dev d).info.Listens →
    match frame with
    | .req _ n => (∃ status i, (d,.resp status i n) ∈ s.sent) → (s.dev d).answered = some n ∧ (s.dev d).tie = 0
    | .resp status _ n => status = P2P_STATUS_SUCCESS → (s.dev d).info.p2pState = .GONEGO_ING →
      (s.dev d).own = true ∧ (s.dev d).num = n
    | .conf status n => status = P2P_STATUS_SUCCESS →
      (s.dev d).done = true ∨ (s.dev d).answered = some n ∧ (s.dev d).tie = 0
  | _ => True

namespace TieInv
variable (hN : NegoInv intent s)
include hN

theorem deliver_req (h : TieInv s) {i n : ℕ} (hsent : (!d,.req i n) ∈ s.sent)
    (hok : (∃ status i, (d,.resp status i n) ∈ s.sent) → (s.dev d).answered = some n ∧ (s.dev d).tie = 0)
    {x : NegoDevice} {result intent' : ℕ} (hown : x.own = false) (hans : x.answered = some n)
    (htie : x.info.peerIntent = i)
    (hdone : x.done = false) : TieInv (s.put d x [.resp result intent' n]) := by
  obtain ⟨rfl,-⟩ := hN.frames _ _ hsent
  have htie : x.tie = 0 := by
    rw [NegoDevice.tie, htie]
    exact Nat.mul_mod_left _ _
  apply h.put
  · intro hx
    rw [hdone] at hx
    cases hx
  · intro hx
    rw [hdone] at hx
    cases hx
  · intro hx
    rw [hown] at hx
    cases hx
  · intro _ hconf
    obtain ⟨m,hm,hmem⟩ := hconf
    obtain rfl : n = m := Option.some.inj (hans.symm.trans hm)
    -- a confirmed request has been answered before
    obtain ⟨-,-,i,hi⟩ := hN.frames _ _ hmem rfl
    rw [Bool.not_not] at hi
    obtain ⟨hans',htie'⟩ := hok ⟨_,_,hi⟩
    refine ⟨⟨htie',n,hans',hmem⟩,?_⟩
    intro k hk
    cases List.mem_singleton.mp hk

theorem deliver_resp (h : TieInv s) {i n : ℕ} (hsent : (!d,.resp P2P_STATUS_SUCCESS i n) ∈ s.sent)
    (hok : (s.dev d).own = true ∧ (s.dev d).num = n) {x : NegoDevice} {result : ℕ} (hown : x.own = (s.dev d).own)
    (hnum : x.num = (s.dev d).num) (htie : x.info.peerIntent = i) : TieInv (s.put d x [.conf result n]) := by
  obtain ⟨hi,-⟩ := hN.frames _ _ hsent
  have htie : x.tie = 1 := by
    rw [NegoDevice.tie, htie, hi]
    omega
  have hA : x.Answered (!d) s.sent ↔ (s.dev d).Answered (!d) s.sent := by
    rw [NegoDevice.Answered, NegoDevice.Answered, hnum]
  apply h.put
  · intro _ _
    refine ⟨hown.trans hok.1,P2P_STATUS_SUCCESS,i,?_⟩
    rw [hnum, hok.2]
    exact hsent
  · intro _ hx
    rw [htie] at hx
    cases hx
  · rw [hown, hA]
    intro hx hy
    refine ⟨⟨hx,hy⟩,?_⟩
    intro status i k hk
    cases List.mem_singleton.mp hk
  · intro hx
    rw [htie] at hx
    cases hx

theorem deliver (h : TieInv s) (heq : ∀ d, intent d = intent !d) (hmax : ∀ d, intent d ≠ P2P_MAX_INTENT)
    {frame : NegoFrame}
    (hsent : (!d,frame) ∈ s.sent) {commonCh : Bool} (hok : NegoEventOk s (.deliver d frame commonCh)) :
    TieInv (s.put d ((s.dev d).deliver frame commonCh).1 ((s.dev d).deliver frame commonCh).2) := by
  have hkeep : TieInv (s.put d (s.dev d) []) :=
    h.put_same id rfl rfl rfl rfl (fun _ _ _ => List.not_mem_nil) fun _ => List.not_mem_nil
  generalize hr : (s.dev d).deliver frame commonCh = r
  rw [NegoDevice.deliver.eq_def] at hr
  split at hr
  · rw [← hr]
    exact hkeep
  rename_i hlisten
  have hframe := hok (by rw [(hN.devs d).same, (hN.devs _).same, ← heq])
      (by rw [(hN.devs d).same]; exact hmax d) hsent
    (not_not.mp hlisten)
  cases frame with
  | req i n =>
    rw [← hr]
    exact h.deliver_req hN hsent hframe rfl rfl (WifidirectInfo.processReq_peerIntent _ _ _) rfl
  | resp status i n =>
    dsimp only at hr
    split at hr
    · rename_i hing
      rw [← hr]
      by_cases hs : status = P2P_STATUS_SUCCESS
      · subst hs
        exact h.deliver_resp hN hsent (hframe rfl hing) rfl rfl (WifidirectInfo.processResp_success _ _ _).2.1
      · obtain ⟨-,hpeer,hstate,hres⟩ := 
          @WifidirectInfo.processResp_fail { (s.dev d).info with benable := false } status i commonCh hs
        refine h.put_same ?_ ?_ rfl rfl rfl ?_ ?_
        · exact fun hdone => absurd (of_decide_eq_true hdone) hstate
        · exact congrArg (· % 2) hpeer
        · intro _ _ _ hk
          cases List.mem_singleton.mp hk
        · intro k hk
          exact hres (NegoFrame.conf.inj (List.mem_singleton.mp hk)).1.symm
    · rw [← hr]
      exact hkeep
  | conf status n =>
    rw [← hr]
    have hsame := (WifidirectInfo.processConf_intent (s.dev d).info status).2
    by_cases hs : status = P2P_STATUS_SUCCESS
    · subst hs
      rcases hframe rfl with hdone | ⟨hans,htie⟩
      · exact h.put_same (fun _ => hdone) (congrArg (· % 2) hsame) rfl rfl rfl (fun _ _ _ => List.not_mem_nil)
          fun _ => List.not_mem_nil
      · have hsametie := congrArg (· % 2) hsame
        refine h.put ?_ (fun _ _ => ⟨n,hans,hsent⟩) (fun hx hy => ⟨⟨hx,hy⟩,fun _ _ _ => List.not_mem_nil⟩)
          fun _ hy => ⟨⟨htie,hy⟩,fun _ => List.not_mem_nil⟩
        intro _ hx
        exact absurd ((hsametie.trans htie).symm.trans hx) Nat.zero_ne_one
    · refine h.put_same ?_ (congrArg (· % 2) hsame) rfl rfl rfl (fun _ _ _ => List.not_mem_nil) fun _ =>
        List.not_mem_nil
      intro hdone
      dsimp only at hdone
      rw [WifidirectInfo.processNegotationConfirm, if_neg hs] at hdone
      cases hdone

omit hN in
theorem init (intent : Bool → ℕ) (h : ∀ d, intent d ≤ P2P_MAX_INTENT) : TieInv (.init intent h) where
  own _ hdone := by cases hdone
  confirmed _ hdone := by cases hdone
  bothOwn hall := by cases (hall true).1
  bothConfirmed hall := by
    obtain ⟨-,n,hn,-⟩ := hall true
    cases hn

theorem step (h : TieInv s) (heq : ∀ d, intent d = intent !d) (hmax : ∀ d, intent d ≠ P2P_MAX_INTENT)
    {e : NegoEvent}
    (hok : NegoEventOk s e) : TieInv (negoStep s e) := by
  have hno : ∀ {P : Prop}, false = true → P := fun h => by cases h
  have hresp : ∀ status i n, NegoFrame.resp status i n ∉ [] := fun _ _ _ => List.not_mem_nil
  have hconf : ∀ n, NegoFrame.conf P2P_STATUS_SUCCESS n ∉ [] := fun _ => List.not_mem_nil
  cases e with
  | connect d =>
    change TieInv (s.put d (s.dev d).connect [])
    rw [NegoDevice.connect]
    split
    · exact h.put_same id rfl rfl rfl rfl hresp hconf
    · have htie := congrArg (· % 2) (WifidirectInfo.connect_same (s.dev d).info).2
      refine h.put hno hno ?_ fun hx hy => ⟨⟨htie.symm.trans hx,hy⟩,hconf⟩
      -- its new request has not been sent yet
      rintro - ⟨status,i,hmem⟩
      obtain ⟨-,hle,-⟩ := hN.frames _ _ hmem
      rw [Bool.not_not] at hle
      exact absurd hle (Nat.not_succ_le_self _)
  | sendReq d =>
    rw [negoStep]
    dsimp only
    split
    · change TieInv (s.put d { s.dev d with info := { (s.dev d).info with benable := false } }
        [.req (s.dev d).info.requestIntent (s.dev d).num])
      refine h.put_same id rfl rfl rfl rfl ?_ ?_
      · intro _ _ _ hk
        cases List.mem_singleton.mp hk
      · intro _ hk
        cases List.mem_singleton.mp hk
    · exact h
  | deliver d frame commonCh =>
    rw [negoStep]
    split
    · rename_i hsent
      exact h.deliver hN heq hmax hsent hok
    · exact h
  | restore d =>
    change TieInv (s.put d _ [])
    exact h.put_same id (congrArg (· % 2) (WifidirectInfo.restoreState_same _).2) rfl rfl rfl hresp hconf
  | setWpsInfo d got =>
    change TieInv (s.put d _ [])
    exact h.put_same id rfl rfl rfl rfl hresp hconf
  | other d p2pState preP2pState role =>
    change TieInv (s.put d _ [])
    exact h.put_same hno rfl rfl rfl rfl hresp hconf

end TieInv

/-! ## Agreement -/

/-- Where both devices have finished their latest negotiation, one is the owner and the other the
client; and a device that finished through a confirm has answered a request with success. -/
structure NegoOk (s : NegoState) : Prop where
  agree : (∀ d, (s.dev d).info.p2pState = .GONEGO_OK ∧ (s.dev d).done = true) →
    ∃ d, (s.dev d).info.role = .GO ∧ (s.dev !d).info.role = .CLIENT
  confirmed : ∀ d, (s.dev d).doneByConfirm = true → (s.dev d).answeredOk = true

theorem negoOk_of_ne (h : NegoInv intent s) (hne : ∃ d, intent d < intent !d) : NegoOk s := by
  refine ⟨?_,fun d => (h.devs d).confirmed⟩
  intro hdone
  obtain ⟨d,hlt⟩ := hne
  obtain ⟨helect,hpeer,-⟩ := (h.devs d).done (hdone d).2
  obtain ⟨helect',hpeer',-⟩ := (h.devs (!d)).done (hdone !d).2
  rw [Bool.not_not] at hpeer'
  refine ⟨!d,?_,?_⟩
  · rw [helect'.role, WifidirectInfo.electRole, hpeer', (h.devs _).same, if_pos hlt]
  · rw [Bool.not_not, helect.role, WifidirectInfo.electRole, hpeer, (h.devs _).same, if_neg hlt.not_gt, if_pos hlt]

theorem negoOk_of_max (h : NegoInv intent s) (hmax : BothMax intent) : NegoOk s := by
  refine ⟨?_,fun d => (h.devs d).confirmed⟩
  intro hdone
  exact absurd hmax ((h.devs true).done (hdone true).2).2.2

theorem negoOk_of_tie (h : NegoInv intent s) (ht : TieInv s) (heq : ∀ d, intent d = intent !d) : NegoOk s := by
  refine ⟨?_,fun d => (h.devs d).confirmed⟩
  intro hdone
  have hrole : ∀ d, (s.dev d).info.role = if (s.dev d).tie = 1 then .CLIENT else .GO := by
    intro d
    obtain ⟨helect,hpeer,-⟩ := (h.devs d).done (hdone d).2
    rw [helect.role, WifidirectInfo.electRole, hpeer, (h.devs d).same, heq d, if_neg (Nat.lt_irrefl _),
      if_neg (Nat.lt_irrefl _)]
    rfl
  have htie : ∀ d, (s.dev d).tie = 0 ∨ (s.dev d).tie = 1 := fun d => Nat.mod_two_eq_zero_or_one _
  have hown : ¬ ((s.dev true).tie = 1 ∧ (s.dev false).tie = 1) := by
    rintro ⟨h1,h2⟩
    apply ht.bothOwn
    intro d
    cases d with
    | true => exact ht.own true (hdone true).2 h1
    | false => exact ht.own false (hdone false).2 h2
  have hconf : ¬ ((s.dev true).tie = 0 ∧ (s.dev false).tie = 0) := by
    rintro ⟨h1,h2⟩
    apply ht.bothConfirmed
    intro d
    cases d with
    | true => exact ⟨h1,ht.confirmed true (hdone true).2 h1⟩
    | false => exact ⟨h2,ht.confirmed false (hdone false).2 h2⟩
  rcases htie true with h1 | h1 <;> rcases htie false with h2 | h2
  · exact absurd ⟨h1,h2⟩ hconf
  · refine ⟨true,?_,?_⟩
    · rw [hrole, h1]
      rfl
    · rw [Bool.not_true, hrole, h2]
      rfl
  · refine ⟨false,?_,?_⟩
    · rw [hrole, h2]
      rfl
    · rw [Bool.not_false, hrole, h1]
      rfl
  · exact absurd ⟨h1,h2⟩ hown

/-- In a run whose events meet the condition, the devices agree in every state. -/
theorem go_nego_ok (intent : Bool → ℕ) (h : ∀ d, intent d ≤ P2P_MAX_INTENT) (es : List NegoEvent)
    (hok : ∀ past e, past ++ [e] <+: es → NegoEventOk (negoRun intent h past) e) :
    ∀ past, past <+: es → NegoOk (negoRun intent h past) := by
  have hstep : ∀ past e, negoRun intent h (past ++ [e]) = negoStep (negoRun intent h past) e :=
    fun past e => Run.run_append _ _ _ _
  have hN : ∀ past, past <+: es → NegoInv intent (negoRun intent h past) := by
    apply Run.prefix_induction
    · exact NegoInv.init intent h
    · intro past e _ ih
      rw [hstep]
      exact ih.step e
  by_cases hne : ∃ d, intent d < intent !d
  · exact fun past hpast => negoOk_of_ne (hN past hpast) hne
  have heq : ∀ d, intent d = intent !d := by
    intro d
    by_contra hd
    rcases Nat.lt_or_gt_of_ne hd with hlt | hlt
    · exact hne ⟨d,hlt⟩
    · exact hne ⟨!d,by rw [Bool.not_not]; exact hlt⟩
  by_cases hmax : BothMax intent
  · exact fun past hpast => negoOk_of_max (hN past hpast) hmax
  have hmax : ∀ d, intent d ≠ P2P_MAX_INTENT := by
    intro d hd
    apply hmax
    intro c
    rcases Bool.eq_or_eq_not c d with rfl | rfl
    · exact hd
    · rw [← heq]
      exact hd
  have hT : ∀ past, past <+: es → TieInv (negoRun intent h past) := by
    apply Run.prefix_induction
    · exact TieInv.init intent h
    · intro past e hpre ih
      rw [hstep]
      exact ih.step (hN past ((List.prefix_append past [e]).trans hpre)) heq hmax (hok past e hpre)
  exact fun past hpast => negoOk_of_tie (hN past hpast) (hT past hpast) heq

/-! ## Two devices with intent 7 -/

theorem seven_le : ∀ d, (fun _ => 7 : Bool → ℕ) d ≤ P2P_MAX_INTENT := by decide

/-- One device starts, the other answers, and the first confirms. -/
def oneSide : List NegoEvent :=
  [.connect false,.sendReq false,.deliver true (.req 14 1) true,.deliver false (.resp 0 15 1) true,.deliver true
    (.conf 0 1) true]

theorem go_nego_ok_one_side : NegoOk (negoRun (fun _ => 7) seven_le oneSide) := by
  refine go_nego_ok _ seven_le oneSide ?_ _ List.prefix_rfl
  intro past e hpre
  rw [oneSide] at hpre
  rcases past with _ | ⟨a,_ | ⟨b,_ | ⟨c,_ | ⟨d,_ | ⟨f,past⟩⟩⟩⟩⟩
  · obtain rfl : e = .connect false := by simpa using hpre
    trivial
  · obtain ⟨rfl,rfl⟩ : a = .connect false ∧ e = .sendReq false := by simpa using hpre
    trivial
  · obtain ⟨rfl,rfl,rfl⟩ : a = .connect false ∧ b = .sendReq false ∧ e = .deliver true (.req 14 1) true := by
      simpa using hpre
    rintro - - - - ⟨status,i,hmem⟩
    have hsent : (negoRun (fun _ => 7) seven_le [.connect false,.sendReq false]).sent = [(false,.req 14 1)] := by decide
    rw [hsent] at hmem
    simp at hmem
  · obtain ⟨rfl,rfl,rfl,rfl⟩ : a = .connect false ∧ b = .sendReq false ∧ c = .deliver true (.req 14 1) true ∧
        e = .deliver false (.resp 0 15 1) true := by simpa using hpre
    exact fun _ _ _ _ _ _ => by decide
  · obtain ⟨rfl,rfl,rfl,rfl,rfl⟩ : a = .connect false ∧ b = .sendReq false ∧
        c = .deliver true (.req 14 1) true ∧
        d = .deliver false (.resp 0 15 1) true ∧ e = .deliver true (.conf 0 1) true := by simpa using hpre
    exact fun _ _ _ _ _ => Or.inr (by decide)
  · simp at hpre

/-- Both start at once: the requests cross, and so do the responses. -/
def bothSides : List NegoEvent :=
  [.connect false,.connect true,.sendReq false,.sendReq true,.deliver true (.req 14 1) true,.deliver false
    (.req 14 1) true, .deliver true (.resp 0 15 1) true,.deliver false (.resp 0 15 1) true]

/-- Both devices have finished, and both are the client. -/
theorem both_clients : ¬ NegoOk (negoRun (fun _ => 7) seven_le bothSides) := by
  intro h
  obtain ⟨d,hd,-⟩ := h.agree (by decide)
  revert hd
  cases d with
  | true => decide
  | false => decide

end Rtl8188fu
