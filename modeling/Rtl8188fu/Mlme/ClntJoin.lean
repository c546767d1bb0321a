import Rtl8188fu.Ieee80211.DelVendorIe
import Rtl8188fu.Mlme.ElemCopies

/-! # The station's join

`join_cmd_hdl`, `start_clnt_join`, `start_clnt_auth`, `start_clnt_assoc`, the handlers of the frames that carry the
join on, `link_timer_hdl` and what ends a link, for an interface that is never an access point and never in an ad
hoc network. What the elements of a frame tell about the network is left out.
-/
namespace Rtl8188fu
open Bytes

def REAUTH_TO : ℕ := 300
def REASSOC_TO : ℕ := 300
def REAUTH_LIMIT : ℕ := 4
def REASSOC_LIMIT : ℕ := 4
def WAIT_FOR_BCN_TO_MIN : ℕ := 6000
def WAIT_FOR_BCN_TO_MAX : ℕ := 20000
def WLAN_REASON_PREV_AUTH_NOT_VALID : ℕ := 2
def WLAN_REASON_DEAUTH_LEAVING : ℕ := 3
def WLAN_REASON_CLASS2_FRAME_FROM_NONAUTH_STA : ℕ := 6

/-- The bits of `mlmext_info.state`; the two low ones are `WIFI_FW_STATION_STATE` or `WIFI_FW_NULL_STATE`. -/
structure FwState where
  station : Bool
  authNull : Bool
  authState : Bool
  authSuccess : Bool
  assocState : Bool
  assocSuccess : Bool
  deriving DecidableEq, Repr

/-- `WIFI_FW_NULL_STATE` -/
def FwState.null : FwState := ⟨false,false,false,false,false,false⟩

/-- `WIFI_FW_LINKING_STATE` -/
def FwState.linking (s : FwState) : Bool := s.authNull || s.authState || s.authSuccess || s.assocState

/-- What is sent to the access point, and what is reported to the command thread -/
inductive ClntOut
  | auth (ra : MacAddr) (shared : Bool) (seq : ℕ) (chgTxt : Option (List UInt8))
  | assocReq (ra : MacAddr)
  | deauth (ra : MacAddr) (reason : ℕ)
  | joinRes (res : ℤ)
  | delSta (a : MacAddr) (reason : ℕ)
  deriving DecidableEq, Repr

structure ClntJoin where
  macAddr : MacAddr
  state : FwState
  authAlgo : AuthAlgrthm
  authSeq : ℕ
  reauthCount : ℕ
  reassocCount : ℕ
  /-- `chg_txt`; what is copied behind its end is left out. -/
  chgTxt : List UInt8
  /-- of `network` -/
  bssid : MacAddr
  aid : ℕ
  /-- `link_timer`, with its time when it is set -/
  linkTimer : Option ℕ
  out : List ClntOut
  deriving DecidableEq, Repr

/-- `init_mlme_ext_priv_value` -/
def ClntJoin.init (macAddr : MacAddr) : ClntJoin :=
  ⟨macAddr,.null,.openSystem,0,0,0,List.replicate 128 0,List.replicate 6 0,0,none,[]⟩

/-- What is taken from outside: a frame can be allocated and sent, and a report can be queued. -/
structure ClntEnv where
  tx : Bool
  event : Bool

def ClntJoin.emit (s : ClntJoin) (sent : Bool) (o : ClntOut) : ClntJoin :=
  { s with out := s.out ++ if sent then [o] else [] }

/-- `issue_auth` of a station -/
def issueClntAuth (env : ClntEnv) (s : ClntJoin) : ClntJoin :=
  let shared := decide (s.authAlgo = .shared)
  let chgTxt := if s.authSeq = 3 ∧ s.state.authState = true ∧ shared = true then some s.chgTxt else none
  s.emit env.tx (.auth s.bssid shared s.authSeq chgTxt)

def issueAssocreq (env : ClntEnv) (s : ClntJoin) : ClntJoin := s.emit env.tx (.assocReq s.bssid)

def reportJoinRes (env : ClntEnv) (res : ℤ) (s : ClntJoin) : ClntJoin := s.emit env.event (.joinRes res)

/-- The parameter of `join_cmd_hdl` -/
structure JoinParm where
  bssid : MacAddr
  ieLength : ℕ
  /-- `cap_ESS` -/
  ess : Bool
  bcnInterval : ℕ
  /-- `rtw_chk_start_clnt_join` finds a channel. -/
  channel : Bool

def decideWaitForBeaconTimeout (bcnInterval : ℕ) : ℕ :=
  if bcnInterval * 4 < WAIT_FOR_BCN_TO_MIN then WAIT_FOR_BCN_TO_MIN
  else if WAIT_FOR_BCN_TO_MAX < bcnInterval * 4 then WAIT_FOR_BCN_TO_MAX
  else bcnInterval * 4

/-- `start_clnt_join`, to an infrastructure network or one of no kind -/
def startClntJoin (p : JoinParm) (s : ClntJoin) : ClntJoin :=
  if p.ess then
    { s with
      linkTimer := some (decideWaitForBeaconTimeout p.bcnInterval)
      state := { FwState.null with station := true, authNull := true } }
  else s

def startClntAuth (env : ClntEnv) (s : ClntJoin) : ClntJoin :=
  let s := { s with
    state := { s.state with authNull := false, authState := true }
    authSeq := 1
    reauthCount := 0
    reassocCount := 0 }
  { issueClntAuth env s with linkTimer := some REAUTH_TO }

def startClntAssoc (env : ClntEnv) (s : ClntJoin) : ClntJoin :=
  let s := { s with
    state := { s.state with authNull := false, authState := false, authSuccess := true, assocState := true } }
  { issueAssocreq env s with linkTimer := some REASSOC_TO }

def receiveDisconnect (env : ClntEnv) (mac : MacAddr) (reason : ℕ) (s : ClntJoin) : ClntJoin :=
  if mac ≠ s.bssid then s
  else if s.state.station = false then s
  else if s.state.assocSuccess then
    if env.event then { s.emit true (.delSta mac reason) with state := .null } else s
  else if s.state.linking then
    if env.event then { reportJoinRes env (-2) s with state := .null } else s
  else s

/-- What `OnBeacon` finds out about a beacon -/
structure BeaconRead where
  addr3 : MacAddr
  /-- `SCAN_PROCESS` -/
  scanning : Bool
  /-- the sender is a known station -/
  known : Bool
  /-- `rtw_check_bcn_info` -/
  unchanged : Bool

def onBeacon (env : ClntEnv) (b : BeaconRead) (s : ClntJoin) : ClntJoin :=
  if b.scanning then s
  else if b.addr3 ≠ s.bssid then s
  else if s.state.authNull then startClntAuth env s
  else if s.state.station && s.state.assocSuccess && b.known && !b.unchanged then receiveDisconnect env s.bssid 0 s
  else s

/-- What `OnAuthClient` does for a frame with a status other than zero; status 13 changes the algorithm. -/
def authClntRefused (status : ℕ) (s : ClntJoin) : ClntJoin :=
  let s :=
    if status = 13 then { s with authAlgo := if s.authAlgo = .shared then .openSystem else .shared } else s
  { s with linkTimer := some 1 }

/-- `offset`, where the body of the frame begins behind the header -/
def authOffset (pframe : List UInt8) : ℕ := if getPrivacy pframe then 4 else 0

def onAuthClient (env : ClntEnv) (pframe : List UInt8) (pktLen : ℕ) (s : ClntJoin) : ClntJoin :=
  let seq := le16At pframe (WLAN_HDR_A3_LEN + authOffset pframe + 2)
  let status := le16At pframe (WLAN_HDR_A3_LEN + authOffset pframe + 4)
  if getDa pframe ≠ s.macAddr then s
  else if s.state.authState = false then s
  else if status ≠ 0 then authClntRefused status s
  else if seq = 2 then
    if s.authAlgo = .shared then
      match clientChallenge pframe pktLen with
      | none => s
      | some (p, len) =>
        let text := slice (pframe.drop (WLAN_HDR_A3_LEN + _AUTH_IE_OFFSET_)) (p + 2) len
        { issueClntAuth env { s with chgTxt := patch s.chgTxt 0 text, authSeq := 3 } with linkTimer := some REAUTH_TO }
    else startClntAssoc env s
  else if seq = 4 then
    if s.authAlgo = .shared then startClntAssoc env s else s
  else s

def onClntAssocRsp (env : ClntEnv) (pframe : List UInt8) (s : ClntJoin) : ClntJoin :=
  let status := le16At pframe (WLAN_HDR_A3_LEN + 2)
  let aid := le16At pframe (WLAN_HDR_A3_LEN + 4) % 0x4000
  if getDa pframe ≠ s.macAddr then s
  else if !(s.state.authSuccess || s.state.assocState) then s
  else if s.state.assocSuccess then s
  else if 0 < status then reportJoinRes env (-4) { s with linkTimer := none, state := .null }
  else
    reportJoinRes env aid
      { s with linkTimer := none, aid := aid, state := { s.state with assocState := false, assocSuccess := true } }

def onClntDeAuth (env : ClntEnv) (pframe : List UInt8) (s : ClntJoin) : ClntJoin :=
  let reason := le16At pframe WLAN_HDR_A3_LEN
  if getAddr3Ptr pframe ≠ s.bssid then s
  else if (s.state.authState || s.state.assocState) && (decide (reason = WLAN_REASON_CLASS2_FRAME_FROM_NONAUTH_STA) ||
      decide (reason = WLAN_REASON_PREV_AUTH_NOT_VALID)) then s
  else receiveDisconnect env (getAddr2Ptr pframe) reason s

def onClntDisassoc (env : ClntEnv) (pframe : List UInt8) (s : ClntJoin) : ClntJoin :=
  if getAddr3Ptr pframe ≠ s.bssid then s
  else receiveDisconnect env (getAddr2Ptr pframe) (le16At pframe WLAN_HDR_A3_LEN) s

def linkTimerHdl (env : ClntEnv) (s : ClntJoin) : ClntJoin :=
  if s.state.authNull then reportJoinRes env (-3) { s with state := .null }
  else if s.state.authState then
    let s := { s with reauthCount := s.reauthCount + 1 }
    if REAUTH_LIMIT < s.reauthCount then reportJoinRes env (-1) { s with state := .null }
    else { issueClntAuth env { s with authSeq := 1 } with linkTimer := some REAUTH_TO }
  else if s.state.assocState then
    let s := { s with reassocCount := s.reassocCount + 1 }
    if REASSOC_LIMIT < s.reassocCount then reportJoinRes env (-2) { s with state := .null }
    else { issueAssocreq env s with linkTimer := some REASSOC_TO }
  else s

def joinCmdHdl (env : ClntEnv) (p : JoinParm) (s : ClntJoin) : ClntJoin :=
  let s :=
    if s.state.assocSuccess then
      { s.emit (env.tx && s.state.station) (.deauth s.bssid WLAN_REASON_DEAUTH_LEAVING) with
        state := .null, linkTimer := none }
    else s
  let s := { s with bssid := p.bssid }
  if MAX_IE_SZ < p.ieLength then s
  else if p.ieLength < 2 then reportJoinRes env (-4) s
  else if p.channel = false then reportJoinRes env (-4) s
  else startClntJoin p { s with linkTimer := none }

def mlmeextDisconnect (s : ClntJoin) : ClntJoin := { s with state := .null, linkTimer := none }

def disconnectHdl (env : ClntEnv) (s : ClntJoin) : ClntJoin :=
  let s :=
    if s.state.assocSuccess && s.state.station then s.emit env.tx (.deauth s.bssid WLAN_REASON_DEAUTH_LEAVING) else s
  mlmeextDisconnect s

inductive ClntEvent
  | join (p : JoinParm)
  /-- `setauth_hdl`, for one of its modes -/
  | setAuth (algo : AuthAlgrthm)
  /-- `setopmode_hdl` to infrastructure mode -/
  | setOpmode
  | beacon (b : BeaconRead)
  | auth (pframe : List UInt8) (pktLen : ℕ)
  | assocRsp (pframe : List UInt8)
  | deauth (pframe : List UInt8)
  | disassoc (pframe : List UInt8)
  /-- the timer expires, when it is set -/
  | linkTimer
  /-- `receive_disconnect` from inside the driver, as the access point is silent or a better one was found -/
  | lost (reason : ℕ)
  /-- `disconnect_hdl` -/
  | disconnect
  /-- `mlmeext_sta_del_event_callback` -/
  | staDel

def clntStep (s : ClntJoin) : ClntEnv × ClntEvent → ClntJoin
  | (env, .join p) => joinCmdHdl env p s
  | (_, .setAuth algo) => { s with authAlgo := algo }
  | (_, .setOpmode) => { s with state := { s.state with station := true } }
  | (env, .beacon b) => onBeacon env b s
  | (env, .auth pframe pktLen) => onAuthClient env pframe pktLen s
  | (env, .assocRsp pframe) => onClntAssocRsp env pframe s
  | (env, .deauth pframe) => onClntDeAuth env pframe s
  | (env, .disassoc pframe) => onClntDisassoc env pframe s
  | (env, .linkTimer) => if s.linkTimer.isSome then linkTimerHdl env { s with linkTimer := none } else s
  | (env, .lost reason) => receiveDisconnect env s.bssid reason s
  | (env, .disconnect) => disconnectHdl env s
  | (_, .staDel) => mlmeextDisconnect s

end Rtl8188fu
