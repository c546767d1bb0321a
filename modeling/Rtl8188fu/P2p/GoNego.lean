import Rtl8188fu.Library.Run

/-! # Group owner negotiation

Two devices that run the negotiation, and the frames that they have sent to each other. What was sent
may arrive at any time, in any order, several times or never. The frames do not say which negotiation
they belong to (the dialog token is the same in all of them); here they carry its number, which no
function of the driver looks at.
-/
namespace Rtl8188fu

def P2P_MAX_INTENT : ℕ := 15

def P2P_STATUS_SUCCESS : ℕ := 0
def P2P_STATUS_FAIL_INFO_UNAVAILABLE : ℕ := 1
def P2P_STATUS_FAIL_NO_COMMON_CH : ℕ := 7
def P2P_STATUS_FAIL_BOTH_GOINTENT_15 : ℕ := 9

inductive P2pRole
  | DISABLE
  | DEVICE
  | CLIENT
  | GO
deriving DecidableEq

inductive P2pState
  | NONE
  | IDLE
  | LISTEN
  | SCAN
  | FIND_PHASE_LISTEN
  | FIND_PHASE_SEARCH
  | TX_PROVISION_DIS_REQ
  | RX_PROVISION_DIS_RSP
  | RX_PROVISION_DIS_REQ
  | GONEGO_ING
  | GONEGO_OK
  | GONEGO_FAIL
  | RECV_INVITE_REQ_MATCH
  | PROVISIONING_ING
  | PROVISIONING_DONE
  | TX_INVITE_REQ
  | RX_INVITE_RESP_OK
  | RECV_INVITE_REQ_DISMATCH
  | RECV_INVITE_REQ_GO
  | RECV_INVITE_REQ_JOIN
  | RX_INVITE_RESP_FAIL
  | RX_INFOR_NOREADY
  | TX_INFOR_NOREADY
deriving DecidableEq

structure WifidirectInfo where
  p2pState : P2pState
  preP2pState : P2pState
  role : P2pRole
  intent : ℕ
  /-- intent and tie breaker bit of the peer -/
  peerIntent : ℕ
  /-- `nego_req_info.benable`: a request is to be sent -/
  benable : Bool
  /-- `ui_got_wps_info` is not `P2P_NO_WPSINFO` -/
  gotWpsInfo : Bool
  intent_le : intent ≤ P2P_MAX_INTENT

namespace WifidirectInfo

/-- `process_p2p_group_negotation_req`, with the intent attribute of the frame and whether there is a
common channel: the device, and the status for the response -/
def processNegotationReq (w : WifidirectInfo) (attrContent : ℕ) (commonCh : Bool) : WifidirectInfo × ℕ :=
  let w := { w with p2pState := .GONEGO_ING, peerIntent := attrContent }
  let (role,result) :=
    if w.intent = w.peerIntent / 2 then
      -- the tie breaker bit of the peer decides
      if w.intent = P2P_MAX_INTENT then (P2pRole.DEVICE,P2P_STATUS_FAIL_BOTH_GOINTENT_15)
      else if attrContent % 2 = 1 then (.CLIENT,P2P_STATUS_SUCCESS) else (.GO,P2P_STATUS_SUCCESS)
    else if w.peerIntent / 2 < w.intent then (.GO,P2P_STATUS_SUCCESS)
    else (.CLIENT,P2P_STATUS_SUCCESS)
  let w := { w with role := role }
  let (w,result) :=
    if commonCh then (w,result) else ({ w with p2pState := .GONEGO_FAIL },P2P_STATUS_FAIL_NO_COMMON_CH)
  if w.gotWpsInfo then (w,result) else ({ w with p2pState := .TX_INFOR_NOREADY },P2P_STATUS_FAIL_INFO_UNAVAILABLE)

/-- The intent attribute of `issue_p2p_GO_request` -/
def requestIntent (w : WifidirectInfo) : ℕ := w.intent * 2

/-- The intent attribute of `issue_p2p_GO_response`: the tie breaker bit is not that of the peer. -/
def responseIntent (w : WifidirectInfo) : ℕ := if w.peerIntent % 2 = 1 then w.intent * 2 else w.intent * 2 + 1

/-- `process_p2p_group_negotation_resp`: the device, and the status for the confirm -/
def processNegotationResp (w : WifidirectInfo) (status attrContent : ℕ) (commonCh : Bool) : WifidirectInfo × ℕ :=
  if status ≠ P2P_STATUS_SUCCESS then
    ({ w with
      p2pState := if status = P2P_STATUS_FAIL_INFO_UNAVAILABLE then .RX_INFOR_NOREADY else .GONEGO_FAIL
      role := .DEVICE },status)
  else
    let w := { w with peerIntent := attrContent }
    let (w,result) :=
      if w.intent = w.peerIntent / 2 then
        if w.intent = P2P_MAX_INTENT then
          ({ w with role := .DEVICE, p2pState := .GONEGO_FAIL },P2P_STATUS_FAIL_BOTH_GOINTENT_15)
        else
          ({ w with
            p2pState := .GONEGO_OK
            preP2pState := .GONEGO_OK
            role := if attrContent % 2 = 1 then .CLIENT else .GO },P2P_STATUS_SUCCESS)
      else
        ({ w with
          p2pState := .GONEGO_OK
          preP2pState := .GONEGO_OK
          role := if w.peerIntent / 2 < w.intent then .GO else .CLIENT },P2P_STATUS_SUCCESS)
    if commonCh then (w,result) else ({ w with p2pState := .GONEGO_FAIL },P2P_STATUS_FAIL_NO_COMMON_CH)

/-- `process_p2p_group_negotation_confirm`: in whatever state the device is -/
def processNegotationConfirm (w : WifidirectInfo) (status : ℕ) : WifidirectInfo :=
  if status = P2P_STATUS_SUCCESS then
    { w with
      p2pState := .GONEGO_OK
      preP2pState := .GONEGO_OK
      role :=
        if w.peerIntent / 2 < w.intent then .GO
        else if w.intent < w.peerIntent / 2 then .CLIENT
        else if w.peerIntent % 2 = 1 then .CLIENT else .GO }
  else { w with role := .DEVICE, p2pState := .GONEGO_FAIL }

/-- What `on_action_public_p2p` does before it processes a request -/
def beforeReq (w : WifidirectInfo) : WifidirectInfo :=
  let w := if w.p2pState = .RX_PROVISION_DIS_REQ then { w with p2pState := w.preP2pState } else w
  let w := if w.p2pState = .GONEGO_FAIL then { w with p2pState := w.preP2pState } else w
  if w.p2pState ≠ .GONEGO_ING then { w with preP2pState := w.p2pState } else w

/-- `rtw_p2p_connect` for a peer whose channel is known -/
def connect (w : WifidirectInfo) : WifidirectInfo :=
  let w := { w with benable := true }
  let w := if w.p2pState ≠ .GONEGO_OK then { w with p2pState := .LISTEN } else w
  { w with preP2pState := w.p2pState, p2pState := .GONEGO_ING }

/-- `restore_p2p_state_handler` -/
def restoreState (w : WifidirectInfo) : WifidirectInfo :=
  let w := if w.p2pState = .GONEGO_ING ∨ w.p2pState = .GONEGO_FAIL then { w with role := .DEVICE } else w
  { w with p2pState := w.preP2pState }

/-- The device takes P2P action frames. -/
def Listens (w : WifidirectInfo) : Prop := w.p2pState ≠ .NONE ∧ w.p2pState ≠ .IDLE

instance (w : WifidirectInfo) : Decidable w.Listens := by delta Listens; infer_instance

end WifidirectInfo

inductive NegoFrame
  | req (intent n : ℕ)
  | resp (status intent n : ℕ)
  | conf (status n : ℕ)
deriving DecidableEq

/-- A device and what it went through -/
structure NegoDevice where
  info : WifidirectInfo
  /-- how often it has started a negotiation -/
  num : ℕ
  /-- It has not answered a request since it started the last one. -/
  own : Bool
  /-- the request that it answered last -/
  answered : Option ℕ
  /-- It has answered a request with success. -/
  answeredOk : Bool
  /-- Its latest negotiation has led to the state `P2P_STATE_GONEGO_OK`. -/
  done : Bool
  /-- It has entered that state through a confirm. -/
  doneByConfirm : Bool

structure NegoState where
  dev : Bool → NegoDevice
  /-- the frames, each with its sender -/
  sent : List (Bool × NegoFrame)

inductive NegoEvent
  | connect (d : Bool)
  /-- A probe response of the peer arrives, and the request is sent. -/
  | sendReq (d : Bool)
  | deliver (d : Bool) (frame : NegoFrame) (commonCh : Bool)
  | restore (d : Bool)
  | setWpsInfo (d got : Bool)
  /-- other functions of P2P: discovery, invitation, switching it off and on -/
  | other (d : Bool) (p2pState preP2pState : P2pState) (role : P2pRole)

namespace NegoDevice

def connect (x : NegoDevice) : NegoDevice :=
  if x.info.p2pState = .NONE ∨ x.info.gotWpsInfo = false then x
  else { x with info := x.info.connect, num := x.num + 1, own := true, done := false }

/-- `on_action_public_p2p`: the device, and the frame that it sends -/
def deliver (x : NegoDevice) (frame : NegoFrame) (commonCh : Bool) : NegoDevice × List NegoFrame :=
  if ¬ x.info.Listens then (x,[])
  else match frame with
    | .req intent n =>
      let (w,result) := x.info.beforeReq.processNegotationReq intent commonCh
      ({ x with
        info := w
        own := false
        answered := some n
        answeredOk := x.answeredOk || decide (result = P2P_STATUS_SUCCESS)
        done := false },[.resp result w.responseIntent n])
    | .resp status intent n =>
      if x.info.p2pState = .GONEGO_ING then
        let w := { x.info with benable := false }
        let (w,result) := w.processNegotationResp status intent commonCh
        ({ x with info := w, done := decide (w.p2pState = .GONEGO_OK) },[.conf result n])
      else (x,[])
    | .conf status _ =>
      let w := x.info.processNegotationConfirm status
      ({ x with
        info := w
        done := decide (w.p2pState = .GONEGO_OK)
        doneByConfirm := x.doneByConfirm || decide (w.p2pState = .GONEGO_OK) },[])

end NegoDevice

def negoStep (s : NegoState) : NegoEvent → NegoState
  | .connect d => { s with dev := Function.update s.dev d (s.dev d).connect }
  | .sendReq d =>
    let x := s.dev d
    if x.info.p2pState = .GONEGO_ING ∧ x.info.benable = true then
      { dev := Function.update s.dev d { x with info := { x.info with benable := false } }
        sent := (d,.req x.info.requestIntent x.num) :: s.sent }
    else s
  | .deliver d frame commonCh =>
    if (!d,frame) ∈ s.sent then
      let (x,frames) := (s.dev d).deliver frame commonCh
      { dev := Function.update s.dev d x, sent := frames.map (d,·) ++ s.sent }
    else s
  | .restore d => { s with dev := Function.update s.dev d { s.dev d with info := (s.dev d).info.restoreState } }
  | .setWpsInfo d got =>
    { s with dev := Function.update s.dev d { s.dev d with info := { (s.dev d).info with gotWpsInfo := got } } }
  | .other d p2pState preP2pState role =>
    { s with dev := Function.update s.dev d { s.dev d with
      info := { (s.dev d).info with p2pState := p2pState, preP2pState := preP2pState, role := role }
      done := false } }

/-- A device that listens, with P2P on -/
def NegoDevice.init (intent : ℕ) (h : intent ≤ P2P_MAX_INTENT) : NegoDevice :=
  ⟨⟨.LISTEN,.LISTEN,.DEVICE,intent,0,false,true,h⟩,0,false,none,false,false,false⟩

def NegoState.init (intent : Bool → ℕ) (h : ∀ d, intent d ≤ P2P_MAX_INTENT) : NegoState :=
  ⟨fun d => .init (intent d) (h d),[]⟩

def negoRun (intent : Bool → ℕ) (h : ∀ d, intent d ≤ P2P_MAX_INTENT) (es : List NegoEvent) : NegoState :=
  Run.run negoStep (.init intent h) es

end Rtl8188fu
