import Rtl8188fu.Cfg80211.Connect
import Rtl8188fu.Mlme.ElemCopies
import Rtl8188fu.P2p.AttrContent
import Rtl8188fu.P2p.ChannelList

/-! # Copies of P2P and WPS attributes into variables of fixed size

`collect_bss_info` for a probe request and the `process_p2p_*` functions, with each copy that they make and what
they read of the device info. A frame is given with the memory behind it; its length is an argument of its own.
A search that never returns ends the function that waits for it.
-/
namespace Rtl8188fu
open Bytes Logged

def WIFI_PROBEREQ : ℕ := 0x40
def _PUBLIC_ACTION_IE_OFFSET_ : ℕ := 8
def WLAN_SSID_MAXLEN : ℕ := 32

/-- The variables that the contents go to -/
inductive P2pVar
  | capAttr
  | wpsDevicepasswordId
  | uconfigMethod
  | attrContent
  | listenCh
  | operatingchInfo
  | p2pPeerInterfaceAddr
  | devAddr
  | groupid
  | chContent
  | channelListAttr
  | p2pAttr
  | noaAttr
deriving DecidableEq

def P2pVar.size : P2pVar → ℕ
  | .capAttr | .wpsDevicepasswordId | .uconfigMethod => 2
  | .attrContent => 1
  | .listenCh | .operatingchInfo => 5
  | .p2pPeerInterfaceAddr | .devAddr => 6
  | .groupid => 38
  | .chContent | .channelListAttr => 100
  | .p2pAttr | .noaAttr => MAX_P2P_IE_LEN

inductive P2pAccess
  | copy (dest : P2pVar) (n : ℕ)
  /-- the copy of `n` bytes behind the address of a group id into `groupid_info.ssid` -/
  | ssid (n : ℕ)
  /-- `n` bytes from `o` on of a device info of `size` bytes -/
  | devInfo (o n size : ℕ)
deriving DecidableEq

def P2pAccess.Inside : P2pAccess → Prop
  | .copy dest n => n ≤ dest.size
  | .ssid n => n ≤ WLAN_SSID_MAXLEN
  | .devInfo o n size => o + n ≤ size

instance : DecidablePred P2pAccess.Inside := fun a => by
  cases a <;> exact inferInstanceAs (Decidable (_ ≤ _))

/-- A getter with the variable as its buffer -/
def getInto (dest : P2pVar) : Option (Option (List UInt8)) → Logged P2pAccess (Option (List UInt8))
  | none => stop
  | some none => ret none
  | some (some c) => ⟨[.copy dest c.length],some (some c)⟩

def getP2p (e : VendorElem) (id : UInt8) (dest : P2pVar) : Logged P2pAccess (Option (List UInt8)) :=
  getInto dest (p2pContent e id)

/-- Where a P2P element is, and how long -/
abbrev P2pPlace := {e : ℕ × ℕ // 2 ≤ e.2}

def p2pPlaceFrom (ies : List UInt8) (iesLen off : ℕ) : Option P2pPlace :=
  (nextP2pIe ies iesLen off).pmap Subtype.mk fun _ he => (nextP2pIe_some he).2.two_le

def nextP2pPlace (ies : List UInt8) (iesLen : ℕ) (e : P2pPlace) : Option P2pPlace :=
  p2pPlaceFrom ies iesLen (e.1.1 + e.1.2)

def P2pPlace.elem (ies : List UInt8) (e : P2pPlace) : VendorElem := ⟨ies.drop e.1.1,e.1.2⟩

/-- `while (p2p_ie)`: one element after the other; `ies_len` is an `u32`. -/
def overP2pIes {σ : Type} (ies : List UInt8) (iesLen : ℕ)
    (body : σ → VendorElem → Logged P2pAccess (Option σ)) (s : σ) :
    Logged P2pAccess Unit :=
  loop (nextP2pPlace ies iesLen) (fun s e => body s (e.elem ies)) (iesLen + 1) s (p2pPlaceFrom ies iesLen 0)

/-- The elements that such a loop comes to -/
def ComesTo {σ : Type} (ies : List UInt8) (iesLen : ℕ) (goesOn : σ → VendorElem → σ → Prop) (s s' : σ)
    (e : VendorElem) :
    Prop :=
  ∃ first place, p2pPlaceFrom ies iesLen 0 = some first ∧
    Comes (nextP2pPlace ies iesLen) (fun s p s' => goesOn s (p.elem ies) s') s first s' place ∧ place.elem ies = e

/-- The only element that is looked at -/
def onFirstP2pIe (ies : List UInt8) (iesLen : ℕ) (body : VendorElem → Logged P2pAccess Unit) :
    Logged P2pAccess Unit :=
  match p2pPlaceFrom ies iesLen 0 with
  | none => ret ()
  | some e => body (e.elem ies)

def onFirstWpsIe (ies : List UInt8) (iesLen : ℕ) (body : VendorElem → Logged P2pAccess Unit) :
    Logged P2pAccess Unit :=
  match rtwGetWpsIe ies iesLen with
  | none => ret ()
  | some e => body ⟨ies.drop e.1,e.2⟩

/-! ## The functions -/

/-- The checks of `collect_bss_info` before it comes to the P2P element of a probe request -/
def collectBssInfoPasses (ies : List UInt8) (ielen : ℕ) : Bool :=
  match rtwGetIe ies SSID_IE ielen with
  | none => false
  | some (_, len) =>
    len ≤ 32 && ieLength ies SUPPORTEDRATES_IE ielen ≤ 16 &&
      ieLength ies EXT_SUPPORTEDRATES_IE ielen ≤ 16 - ieLength ies SUPPORTEDRATES_IE ielen

/-- `bssid->IEs`, cleared before the elements go there, with what is behind it -/
def bssidIes (frame beyond : List UInt8) (ielen : ℕ) : List UInt8 :=
  readBytes frame WLAN_HDR_A3_LEN ielen ++ List.replicate (MAX_IE_SZ - ielen) 0 ++ beyond

/-- A probe request of which `collect_bss_info` comes to the P2P element -/
def takesListenCh (frame beyond : List UInt8) (packetLen : ℕ) : Bool :=
  let ielen := uintSub packetLen WLAN_HDR_A3_LEN
  ielen ≤ MAX_IE_SZ && getFrameSubType frame = WIFI_PROBEREQ && collectBssInfoPasses
    (bssidIes frame beyond ielen) ielen

def collectBssInfoCopies (frame beyond : List UInt8) (packetLen : ℕ) : Logged P2pAccess Unit :=
  let ielen := uintSub packetLen WLAN_HDR_A3_LEN
  if takesListenCh frame beyond packetLen then
    onFirstP2pIe (bssidIes frame beyond ielen) ielen fun e =>
      (getP2p e P2P_ATTR_LISTEN_CH .listenCh).andThen fun _ => ret ()
  else ret ()

/-- What `process_assoc_req_p2p_ie` reads of the device info that it has copied into a buffer of its size -/
def devInfoReads (c : List UInt8) : List P2pAccess :=
  let num := (byteAt c 16).toNat
  let o := 17 + num * 8
  [P2pAccess.devInfo 0 6 c.length,.devInfo 6 2 c.length,.devInfo 8 8 c.length,.devInfo 16 1 c.length] ++
    (if num = 0 then [] else [P2pAccess.devInfo 17 (min 32 (num * 8)) c.length]) ++
    [P2pAccess.devInfo o 2 c.length] ++
    if be16At c o = WPS_ATTR_DEVICE_NAME then
      [P2pAccess.devInfo (o + 2) 2 c.length,.devInfo (o + 4) (min 32 (be16At c (o + 2))) c.length]
    else []

/-- The body of its loop; `alloc` tells for which sizes `rtw_zmalloc` gives a buffer. -/
def assocReqBody (alloc : ℕ → Bool) (_ : Unit) (e : VendorElem) : Logged P2pAccess (Option Unit) :=
  (getP2p e P2P_ATTR_CAPABILITY .capAttr).andThen fun _ =>
    match p2pContent e P2P_ATTR_DEVICE_INFO with
    | none => stop
    | some none => ret (some ())
    | some (some c) =>
      if alloc c.length then (emit (.devInfo 0 c.length c.length :: devInfoReads c)).andThen fun _ => ret (some ())
      else ret (some ())

def processAssocReqP2pIe (alloc : ℕ → Bool) (role : P2pRole) (frame : List UInt8) (len : ℕ) :
    Logged P2pAccess Unit :=
  if role ≠ .GO then ret ()
  else
    let off := assocReqIes frame
    overP2pIes (frame.drop off) (uintSub len off) (assocReqBody alloc) ()

/-- What `process_p2p_devdisc_req` compares the group id with -/
structure GroupId where
  deviceAddr : MacAddr
  ssid : List UInt8

/-- `groupid` is cleared before the content goes there. -/
def GroupId.matches (g : GroupId) (content : List UInt8) : Bool :=
  let groupid := content ++ List.replicate (38 - content.length) 0
  slice groupid 0 6 = g.deviceAddr && slice groupid 6 g.ssid.length = g.ssid

def devdiscBody (g : GroupId) (e : VendorElem) : Logged P2pAccess Unit :=
  (getP2p e P2P_ATTR_GROUP_ID .groupid).andThen fun groupid =>
    if groupid.any g.matches then (getP2p e P2P_ATTR_DEVICE_ID .devAddr).andThen fun _ => ret () else ret ()

def processP2pDevdiscReq (g : GroupId) (frame : List UInt8) (len : ℕ) : Logged P2pAccess Unit :=
  onFirstP2pIe (frame.drop (WLAN_HDR_A3_LEN + _PUBLIC_ACTION_IE_OFFSET_)) (uintSub len _PUBLIC_ACTION_IE_OFFSET_)
    (devdiscBody g)

def processP2pProvdiscReq (frame : List UInt8) (len : ℕ) : Logged P2pAccess Unit :=
  onFirstWpsIe (frame.drop (WLAN_HDR_A3_LEN + _PUBLIC_ACTION_IE_OFFSET_))
    (uintSub len _PUBLIC_ACTION_IE_OFFSET_) fun e =>
    (getInto .uconfigMethod (wpsContent e WPS_ATTR_CONF_METHOD)).andThen fun _ => ret ()

/-- What a negotiation uses and leaves as it is; `peerChList` is what `rtw_p2p_get_peer_ch_list` makes of a content,
whatever it reads behind it, and `none` when it never returns. -/
structure NegoEnv where
  intent : ℕ
  channelSet : List UInt8
  peerChList : List UInt8 → Option PeerChannels

structure NegoCh where
  role : P2pRole
  operatingChannel : UInt8

/-- The role that the intent and the tie breaker of the peer lead to -/
def negoRole (intent peerIntent : ℕ) : P2pRole :=
  if intent = peerIntent / 2 then
    if intent = P2P_MAX_INTENT then .DEVICE else if peerIntent % 2 = 1 then .CLIENT else .GO
  else if peerIntent / 2 < intent then .GO
  else .CLIENT

def takeIntent (env : NegoEnv) (s : NegoCh) : Option (List UInt8) → NegoCh
  | none => s
  | some c => { s with role := negoRole env.intent (byteAt c 0).toNat }

def rtwP2pIsChannelListOk (desiredCh : UInt8) (chList : List UInt8 × ℕ) : Bool :=
  desiredCh ∈ chList.1.take chList.2

/-- `ch_list_inclusioned` -/
def commonChannels (env : NegoEnv) (c : List UInt8) : Option (List UInt8 × ℕ) :=
  (env.peerChList c).map (rtwP2pChInclusion env.channelSet)

/-- The operating channel of the peer, or the first common one -/
def takeOperatingCh (s : NegoCh) (common : List UInt8 × ℕ) (op : Option (List UInt8)) : NegoCh :=
  let peerOperatingCh := op.elim 0 fun c => byteAt c 4
  { s with
    operatingChannel := if rtwP2pIsChannelListOk peerOperatingCh common then peerOperatingCh else byteAt common.1 0 }

inductive ChListCase
  /-- `rtw_p2p_get_peer_ch_list` never returns. -/
  | ends
  /-- There is no common channel. -/
  | leave
  | keep
  /-- The own channel of a group owner is not among the common ones. -/
  | ask (common : List UInt8 × ℕ)

def chListCase (env : NegoEnv) (s : NegoCh) : Option (List UInt8) → ChListCase
  | none => .keep
  | some c =>
    match commonChannels env c with
    | none => .ends
    | some common =>
      if common.2 = 0 then .leave
      else if s.role = .GO ∧ rtwP2pIsChannelListOk s.operatingChannel common = false then .ask common
      else .keep

/-- The channel list of a request or a response; `none` leaves the loop. -/
def chListStep (env : NegoEnv) (s : NegoCh) (content : Option (List UInt8))
    (getOp : Logged P2pAccess (Option (List UInt8))) :
    Logged P2pAccess (Option NegoCh) :=
  match chListCase env s content with
  | .ends => stop
  | .leave => ret none
  | .keep => ret (some s)
  | .ask common => getOp.andThen fun op => ret (some (takeOperatingCh s common op))

/-- The body of the loop of `process_p2p_group_negotation_req` -/
def negotationReqBody (env : NegoEnv) (s : NegoCh) (e : VendorElem) : Logged P2pAccess (Option NegoCh) :=
  (getP2p e P2P_ATTR_CAPABILITY .capAttr).andThen fun _ =>
  (getP2p e P2P_ATTR_GO_INTENT .attrContent).andThen fun intent =>
  (getP2p e P2P_ATTR_LISTEN_CH .listenCh).andThen fun _ =>
  (getP2p e P2P_ATTR_INTENTED_IF_ADDR .p2pPeerInterfaceAddr).andThen fun _ =>
  (getP2p e P2P_ATTR_CH_LIST .chContent).andThen fun chList =>
    chListStep env (takeIntent env s intent) chList (getP2p e P2P_ATTR_OPERATING_CH .operatingchInfo)

/-- `fresh` tells that no provision discovery has set the method yet. -/
def processP2pGroupNegotationReq (env : NegoEnv) (s : NegoCh) (fresh : Bool) (frame : List UInt8) (len : ℕ) :
    Logged P2pAccess Unit :=
  let ies := frame.drop _PUBLIC_ACTION_IE_OFFSET_
  let iesLen := uintSub len _PUBLIC_ACTION_IE_OFFSET_
  onFirstWpsIe ies iesLen fun e =>
    (if fresh then getInto .wpsDevicepasswordId (wpsContent e WPS_ATTR_DEVICE_PWID) else ret none).andThen fun _ =>
      overP2pIes ies iesLen (negotationReqBody env) s

/-- A status of one byte that is not `P2P_STATUS_SUCCESS` -/
def statusRefuses : Option (List UInt8) → Bool
  | some [status] => status ≠ 0
  | _ => false

def storeGroupId (e : VendorElem) : Logged P2pAccess Unit :=
  (getP2p e P2P_ATTR_GROUP_ID .groupid).andThen fun
    | none => ret ()
    | some c => emit [.ssid (uintSub c.length 6)]

/-- The body of the loop of `process_p2p_group_negotation_resp` -/
def negotationRespBody (env : NegoEnv) (s : NegoCh) (e : VendorElem) : Logged P2pAccess (Option NegoCh) :=
  (getP2p e P2P_ATTR_CAPABILITY .capAttr).andThen fun _ =>
  (getP2p e P2P_ATTR_STATUS .attrContent).andThen fun status =>
    if statusRefuses status then ret none
    else
      (getP2p e P2P_ATTR_INTENTED_IF_ADDR .p2pPeerInterfaceAddr).andThen fun _ =>
      (getP2p e P2P_ATTR_GO_INTENT .attrContent).andThen fun intent =>
      (getP2p e P2P_ATTR_OPERATING_CH .operatingchInfo).andThen fun _ =>
      (getP2p e P2P_ATTR_CH_LIST .channelListAttr).andThen fun chList =>
      (chListStep env (takeIntent env s intent) chList (getP2p e P2P_ATTR_OPERATING_CH .operatingchInfo)).andThen fun
        | none => ret none
        | some s => (storeGroupId e).andThen fun _ => ret (some s)

def processP2pGroupNegotationResp (env : NegoEnv) (s : NegoCh) (frame : List UInt8) (len : ℕ) :
    Logged P2pAccess Unit :=
  overP2pIes (frame.drop _PUBLIC_ACTION_IE_OFFSET_) (uintSub len _PUBLIC_ACTION_IE_OFFSET_) (negotationRespBody env) s

/-- The body of the loop of `process_p2p_group_negotation_confirm` -/
def negotationConfirmBody (_ : Unit) (e : VendorElem) : Logged P2pAccess (Option Unit) :=
  (getP2p e P2P_ATTR_STATUS .attrContent).andThen fun status =>
    if statusRefuses status then ret none
    else
      (storeGroupId e).andThen fun _ =>
      (getP2p e P2P_ATTR_OPERATING_CH .operatingchInfo).andThen fun _ => ret (some ())

def processP2pGroupNegotationConfirm (frame : List UInt8) (len : ℕ) : Logged P2pAccess Unit :=
  overP2pIes (frame.drop _PUBLIC_ACTION_IE_OFFSET_) (uintSub len _PUBLIC_ACTION_IE_OFFSET_) negotationConfirmBody ()

/-- The loop of `process_p2p_cross_connect_ie` and `process_p2p_ps_ie`, up to the first element with the attribute -/
def firstAttrBody (id : UInt8) (dest : P2pVar) (_ : Unit) (e : VendorElem) : Logged P2pAccess (Option Unit) :=
  (getP2p e id dest).andThen fun
    | none => ret (some ())
    | some _ => ret none

def firstAttr (id : UInt8) (dest : P2pVar) (iEs : List UInt8) (iELength : ℕ) : Logged P2pAccess Unit :=
  if iELength ≤ BEACON_IE_OFFSET then ret ()
  else overP2pIes (iEs.drop BEACON_IE_OFFSET) (iELength - BEACON_IE_OFFSET) (firstAttrBody id dest) ()

def processP2pCrossConnectIe := firstAttr P2P_ATTR_MANAGEABILITY .p2pAttr

def processP2pPsIeCopies (p2pState : P2pState) (iEs : List UInt8) (iELength : ℕ) : Logged P2pAccess Unit :=
  if p2pState = .NONE then ret () else firstAttr P2P_ATTR_NOA .noaAttr iEs iELength

/-! ## What an element must be like -/

/-- The attribute fits the variable, and what comes after it is right. -/
def Asked (e : VendorElem) (id : UInt8) (dest : P2pVar) (k : Option (List UInt8) → Prop) : Prop :=
  P2pAttrLens e id 0 dest.size ∧ ∀ c, p2pContent e id = some c → k c

/-- The fixed part of a device info, the secondary device types, and the header of the name; if it is one, the name -/
def DevInfoHolds (c : List UInt8) : Prop :=
  let o := 17 + (byteAt c 16).toNat * 8
  o + 2 ≤ c.length ∧ (be16At c o = WPS_ATTR_DEVICE_NAME → o + 4 + min 32 (be16At c (o + 2)) ≤ c.length)

def AssocReqElemFits (alloc : ℕ → Bool) (e : VendorElem) : Prop :=
  Asked e P2P_ATTR_CAPABILITY .capAttr fun _ =>
    ∀ c, p2pContent e P2P_ATTR_DEVICE_INFO = some (some c) → alloc c.length = true → DevInfoHolds c

def DevdiscElemFits (g : GroupId) (e : VendorElem) : Prop :=
  Asked e P2P_ATTR_GROUP_ID .groupid fun groupid =>
    groupid.any g.matches = true → P2pAttrLens e P2P_ATTR_DEVICE_ID 0 6

def ChListAsks (env : NegoEnv) (s : NegoCh) (content : Option (List UInt8)) : Prop :=
  ∃ common, chListCase env s content = .ask common

/-- The state behind the channel list, with the attribute of the operating channel -/
def chListAfter (env : NegoEnv) (s : NegoCh) (content : Option (List UInt8)) (op : Option (Option (List UInt8))) :
    Option (Option NegoCh) :=
  match chListCase env s content with
  | .ends => none
  | .leave => some none
  | .keep => some (some s)
  | .ask common => op.map fun op => some (takeOperatingCh s common op)

def ReqElemFits (env : NegoEnv) (s : NegoCh) (e : VendorElem) : Prop :=
  Asked e P2P_ATTR_CAPABILITY .capAttr fun _ =>
  Asked e P2P_ATTR_GO_INTENT .attrContent fun intent =>
  Asked e P2P_ATTR_LISTEN_CH .listenCh fun _ =>
  Asked e P2P_ATTR_INTENTED_IF_ADDR .p2pPeerInterfaceAddr fun _ =>
  Asked e P2P_ATTR_CH_LIST .chContent fun chList =>
    ChListAsks env (takeIntent env s intent) chList → P2pAttrLens e P2P_ATTR_OPERATING_CH 0 5

/-- The state behind an element of a request -/
def reqAfter (env : NegoEnv) (s : NegoCh) (e : VendorElem) : Option (Option NegoCh) := do
  let _ ← p2pContent e P2P_ATTR_CAPABILITY
  let intent ← p2pContent e P2P_ATTR_GO_INTENT
  let _ ← p2pContent e P2P_ATTR_LISTEN_CH
  let _ ← p2pContent e P2P_ATTR_INTENTED_IF_ADDR
  let chList ← p2pContent e P2P_ATTR_CH_LIST
  chListAfter env (takeIntent env s intent) chList (p2pContent e P2P_ATTR_OPERATING_CH)

/-- The SSID of a group id has 0 to 32 bytes. -/
def GroupIdFits (e : VendorElem) : Prop := P2pAttrLens e P2P_ATTR_GROUP_ID 6 38

def RespElemFits (env : NegoEnv) (s : NegoCh) (e : VendorElem) : Prop :=
  Asked e P2P_ATTR_CAPABILITY .capAttr fun _ =>
  Asked e P2P_ATTR_STATUS .attrContent fun status => statusRefuses status = false →
  Asked e P2P_ATTR_INTENTED_IF_ADDR .p2pPeerInterfaceAddr fun _ =>
  Asked e P2P_ATTR_GO_INTENT .attrContent fun intent =>
  Asked e P2P_ATTR_OPERATING_CH .operatingchInfo fun op =>
  Asked e P2P_ATTR_CH_LIST .channelListAttr fun chList =>
    ∀ s', chListAfter env (takeIntent env s intent) chList (some op) = some (some s') → GroupIdFits e

/-- The state behind an element of a response; one with a status that refuses is the last. -/
def respAfter (env : NegoEnv) (s : NegoCh) (e : VendorElem) : Option (Option NegoCh) := do
  let _ ← p2pContent e P2P_ATTR_CAPABILITY
  let status ← p2pContent e P2P_ATTR_STATUS
  if statusRefuses status then return none
  let _ ← p2pContent e P2P_ATTR_INTENTED_IF_ADDR
  let intent ← p2pContent e P2P_ATTR_GO_INTENT
  let op ← p2pContent e P2P_ATTR_OPERATING_CH
  let chList ← p2pContent e P2P_ATTR_CH_LIST
  match ← chListAfter env (takeIntent env s intent) chList (some op) with
  | none => return none
  | some s' => (p2pContent e P2P_ATTR_GROUP_ID).map fun _ => some s'

def ConfirmElemFits (e : VendorElem) : Prop :=
  Asked e P2P_ATTR_STATUS .attrContent fun status => statusRefuses status = false →
    GroupIdFits e ∧ ((p2pContent e P2P_ATTR_GROUP_ID).isSome → P2pAttrLens e P2P_ATTR_OPERATING_CH 0 5)

/-- The searches of the function return, and it goes on to the next element. -/
def ConfirmGoesOn (e : VendorElem) : Prop :=
  (∃ status, p2pContent e P2P_ATTR_STATUS = some status ∧ statusRefuses status = false) ∧
    (p2pContent e P2P_ATTR_GROUP_ID).isSome ∧ (p2pContent e P2P_ATTR_OPERATING_CH).isSome

def AssocReqGoesOn (e : VendorElem) : Prop :=
  (p2pContent e P2P_ATTR_CAPABILITY).isSome ∧ (p2pContent e P2P_ATTR_DEVICE_INFO).isSome

/-! ## What a frame must be like -/

def ProbeReqFits (frame beyond : List UInt8) (packetLen : ℕ) : Prop :=
  let ielen := uintSub packetLen WLAN_HDR_A3_LEN
  let ies := bssidIes frame beyond ielen
  takesListenCh frame beyond packetLen = true →
    ∀ p ∈ p2pPlaceFrom ies ielen 0, P2pAttrLens (p.elem ies) P2P_ATTR_LISTEN_CH 0 5

def AssocReqFits (alloc : ℕ → Bool) (frame : List UInt8) (len : ℕ) : Prop :=
  ∀ e, ComesTo (frame.drop (assocReqIes frame)) (uintSub len (assocReqIes frame))
    (fun _ e _ => AssocReqGoesOn e) () () e →
    AssocReqElemFits alloc e

def DevdiscReqFits (g : GroupId) (frame : List UInt8) (len : ℕ) : Prop :=
  let ies := frame.drop (WLAN_HDR_A3_LEN + _PUBLIC_ACTION_IE_OFFSET_)
  ∀ p ∈ p2pPlaceFrom ies (uintSub len _PUBLIC_ACTION_IE_OFFSET_) 0, DevdiscElemFits g (p.elem ies)

def ProvdiscReqFits (frame : List UInt8) (len : ℕ) : Prop :=
  let ies := frame.drop (WLAN_HDR_A3_LEN + _PUBLIC_ACTION_IE_OFFSET_)
  ∀ p ∈ rtwGetWpsIe ies (uintSub len _PUBLIC_ACTION_IE_OFFSET_),
    WpsAttrLens ⟨ies.drop p.1,p.2⟩ WPS_ATTR_CONF_METHOD 0 2

def NegotationReqFits (env : NegoEnv) (s : NegoCh) (fresh : Bool) (frame : List UInt8) (len : ℕ) : Prop :=
  let ies := frame.drop _PUBLIC_ACTION_IE_OFFSET_
  let iesLen := uintSub len _PUBLIC_ACTION_IE_OFFSET_
  ∀ p ∈ rtwGetWpsIe ies iesLen,
    (fresh = true → WpsAttrLens ⟨ies.drop p.1,p.2⟩ WPS_ATTR_DEVICE_PWID 0 2) ∧
    ((fresh = true → (wpsContent ⟨ies.drop p.1,p.2⟩ WPS_ATTR_DEVICE_PWID).isSome) →
      ∀ s' e, ComesTo ies iesLen (fun s e s' => reqAfter env s e = some (some s')) s s' e → ReqElemFits env s' e)

def NegotationRespFits (env : NegoEnv) (s : NegoCh) (frame : List UInt8) (len : ℕ) : Prop :=
  ∀ s' e, ComesTo (frame.drop _PUBLIC_ACTION_IE_OFFSET_) (uintSub len _PUBLIC_ACTION_IE_OFFSET_)
      (fun s e s' => respAfter env s e = some (some s')) s s' e → RespElemFits env s' e

def NegotationConfirmFits (frame : List UInt8) (len : ℕ) : Prop :=
  ∀ e, ComesTo (frame.drop _PUBLIC_ACTION_IE_OFFSET_) (uintSub len _PUBLIC_ACTION_IE_OFFSET_)
      (fun _ e _ => ConfirmGoesOn e) () () e → ConfirmElemFits e

def FirstAttrFits (id : UInt8) (dest : P2pVar) (iEs : List UInt8) (iELength : ℕ) : Prop :=
  BEACON_IE_OFFSET < iELength → ∀ e, ComesTo (iEs.drop BEACON_IE_OFFSET) (iELength - BEACON_IE_OFFSET)
      (fun _ e _ => p2pContent e id = some none) () () e → P2pAttrLens e id 0 dest.size

/-! ## The getters -/

section
variable {e : VendorElem} {id : UInt8} {dest : P2pVar} {σ α : Type}

theorem P2pVar.size_lt (dest : P2pVar) : dest.size + 4 < 65536 := by
  cases dest <;> decide

@[simp] theorem result_getInto (content : Option (Option (List UInt8))) : (getInto dest content).result = content := by
  rcases content with _ | _ | c <;> rfl

@[simp] theorem result_getP2p : (getP2p e id dest).result = p2pContent e id := result_getInto _

theorem all_getInto (content : Option (Option (List UInt8))) :
    All P2pAccess.Inside (getInto dest content) ↔ ∀ c, content = some (some c) → 0 ≤ c.length ∧
    c.length ≤ dest.size := by
  rcases content with _ | _ | c
  · exact iff_of_true all_stop nofun
  · exact iff_of_true (all_ret _) nofun
  · simp [getInto, All, P2pAccess.Inside]

@[simp] theorem all_getP2p : All P2pAccess.Inside (getP2p e id dest) ↔ P2pAttrLens e id 0 dest.size := by
  have hsize := dest.size_lt
  exact (all_getInto _).trans (p2pContent_between (by omega))

theorem all_getP2p_andThen {f : Option (List UInt8) → Logged P2pAccess α} :
    All P2pAccess.Inside ((getP2p e id dest).andThen f) ↔ Asked e id dest fun c => All P2pAccess.Inside (f c) := by
  rw [all_andThen, all_getP2p, result_getP2p]
  rfl

theorem Asked.congr {k k' : Option (List UInt8) → Prop} (h : ∀ c, p2pContent e id = some c → (k c ↔ k' c)) :
    Asked e id dest k ↔ Asked e id dest k' :=
  and_congr_right fun _ => forall₂_congr h

theorem all_storeGroupId : All P2pAccess.Inside (storeGroupId e) ↔ GroupIdFits e := by
  unfold storeGroupId GroupIdFits
  rw [all_getP2p_andThen, ← p2pContent_between (by decide), Asked, ← p2pContent_between (by decide)]
  constructor
  · rintro ⟨hcopy,hssid⟩ c hc
    have hle := hcopy c hc
    have hin := hssid (some c) hc
    simp only [all_emit, List.forall_mem_singleton, P2pAccess.Inside, uintSub, WLAN_SSID_MAXLEN] at hin
    simp only [P2pVar.size] at hle
    omega
  · intro h
    refine ⟨fun c hc => ⟨Nat.zero_le _,(h c hc).2⟩,fun c hc => ?_⟩
    cases c with
    | none => exact all_ret ()
    | some c =>
      have hbetween := h c hc
      simp only [all_emit, List.forall_mem_singleton, P2pAccess.Inside, uintSub, WLAN_SSID_MAXLEN]
      omega

@[simp] theorem result_storeGroupId : (storeGroupId e).result = (p2pContent e P2P_ATTR_GROUP_ID).map fun _ => () := by
  unfold storeGroupId
  rw [result_andThen, result_getP2p]
  rcases p2pContent e P2P_ATTR_GROUP_ID with _ | _ | c <;> rfl

/-! ## The loops -/

theorem p2pPlaceFrom_some {ies : List UInt8} {iesLen off : ℕ} {p : P2pPlace}
    (h : p2pPlaceFrom ies iesLen off = some p) :
    off ≤ p.1.1 ∧ p.1.1 < iesLen := by
  obtain ⟨e,he,hnext,rfl⟩ := Option.pmap_eq_some_iff.mp h
  obtain ⟨hoff,hie⟩ := nextP2pIe_some hnext
  have hlt := hie.place_lt
  exact ⟨hoff,by dsimp only; omega⟩

theorem all_overP2pIes_iff {ies : List UInt8} {iesLen : ℕ} {body : σ → VendorElem → Logged P2pAccess (Option σ)}
    {goesOn : σ → VendorElem → σ → Prop} (hgo : ∀ s e s', (body s e).result = some (some s') ↔
      goesOn s e s') (s : σ) :
    All P2pAccess.Inside (overP2pIes ies iesLen body s) ↔
      ∀ s' e, ComesTo ies iesLen goesOn s s' e → All P2pAccess.Inside (body s' e) := by
  have hrank : ∀ p q : P2pPlace, nextP2pPlace ies iesLen p = some q → iesLen - q.1.1 < iesLen - p.1.1 := by
    intro p q h
    obtain ⟨hle,hlt⟩ := p2pPlaceFrom_some h
    have htwo := p.2
    omega
  have hbody : ∀ s p s', (body s (P2pPlace.elem ies p)).result = some (some s') ↔ goesOn s (p.elem ies) s' :=
    fun s p s' => hgo s _ s'
  unfold overP2pIes ComesTo
  cases hfirst : p2pPlaceFrom ies iesLen 0 with
  | none =>
    refine iff_of_true (by simp [loop]) ?_
    rintro s' e ⟨first,place,⟨⟩,-⟩
  | some first =>
    rw [all_loop_iff hrank hbody (by omega)]
    constructor
    · rintro h s' e ⟨first',place,⟨⟩,hcomes,rfl⟩
      exact h s' place hcomes
    · intro h s' place hcomes
      exact h s' _ ⟨first,place,rfl,hcomes,rfl⟩

theorem all_onFirstP2pIe_iff {ies : List UInt8} {iesLen : ℕ} {body : VendorElem → Logged P2pAccess Unit} :
    All P2pAccess.Inside (onFirstP2pIe ies iesLen body) ↔
      ∀ p ∈ p2pPlaceFrom ies iesLen 0, All P2pAccess.Inside (body (p.elem ies)) := by
  unfold onFirstP2pIe
  cases p2pPlaceFrom ies iesLen 0 <;> simp

theorem all_onFirstWpsIe_iff {ies : List UInt8} {iesLen : ℕ} {body : VendorElem → Logged P2pAccess Unit} :
    All P2pAccess.Inside (onFirstWpsIe ies iesLen body) ↔
      ∀ p ∈ rtwGetWpsIe ies iesLen, All P2pAccess.Inside (body ⟨ies.drop p.1,p.2⟩) := by
  unfold onFirstWpsIe
  cases rtwGetWpsIe ies iesLen <;> simp

theorem all_getWps {id : ℕ} :
    All P2pAccess.Inside (getInto dest (wpsContent e id)) ↔ WpsAttrLens e id 0 dest.size :=
  (all_getInto _).trans (wpsContent_between dest.size_lt)

/-! ## The elements -/

theorem devInfoReads_inside_iff {c : List UInt8} : (∀ a ∈ devInfoReads c, a.Inside) ↔ DevInfoHolds c := by
  unfold devInfoReads DevInfoHolds
  set num := (byteAt c 16).toNat
  dsimp only
  constructor
  · intro h
    refine ⟨h (.devInfo (17 + num * 8) 2 c.length) (by simp),fun hname => ?_⟩
    exact h (.devInfo (17 + num * 8 + 4) (min 32 (be16At c (17 + num * 8 + 2))) c.length) (by simp [hname])
  · rintro ⟨hheader,hname⟩
    simp only [List.forall_mem_append, List.forall_mem_cons, List.not_mem_nil, false_imp_iff, implies_true, and_true,
      P2pAccess.Inside]
    refine ⟨⟨⟨by omega,?_⟩,hheader⟩,?_⟩
    · split
      · exact List.forall_mem_nil _
      · simp only [List.forall_mem_singleton]
        omega
    · split
      · rename_i hid
        have hlen := hname hid
        simp only [List.forall_mem_cons, List.not_mem_nil, false_imp_iff, implies_true, and_true]
        omega
      · exact List.forall_mem_nil _

theorem all_assocReqBody {alloc : ℕ → Bool} {s : Unit} :
    All P2pAccess.Inside (assocReqBody alloc s e) ↔ AssocReqElemFits alloc e := by
  unfold assocReqBody AssocReqElemFits
  rw [all_getP2p_andThen]
  refine Asked.congr fun _ _ => ?_
  rcases p2pContent e P2P_ATTR_DEVICE_INFO with _ | _ | c
  · simp
  · simp
  · by_cases halloc : alloc c.length = true
    · simp [halloc, all_andThen, ← devInfoReads_inside_iff, P2pAccess.Inside]
    · simp [halloc]

theorem assocReqBody_goesOn {alloc : ℕ → Bool} {s s' : Unit} :
    (assocReqBody alloc s e).result = some (some s') ↔ AssocReqGoesOn e := by
  unfold assocReqBody AssocReqGoesOn
  rw [result_andThen, result_getP2p]
  cases p2pContent e P2P_ATTR_CAPABILITY with
  | none => simp
  | some cap =>
    rcases p2pContent e P2P_ATTR_DEVICE_INFO with _ | _ | c
    · simp
    · simp
    · by_cases halloc : alloc c.length = true <;> simp [halloc]

theorem all_devdiscBody {g : GroupId} : All P2pAccess.Inside (devdiscBody g e) ↔ DevdiscElemFits g e := by
  unfold devdiscBody DevdiscElemFits
  rw [all_getP2p_andThen]
  refine Asked.congr fun groupid _ => ?_
  by_cases hmatch : groupid.any g.matches = true
  · simp [hmatch, all_andThen, P2pVar.size]
  · simp [hmatch]

theorem all_chListStep {env : NegoEnv} {s : NegoCh} {content : Option (List UInt8)}
    {getOp : Logged P2pAccess (Option (List UInt8))} :
    All P2pAccess.Inside (chListStep env s content getOp) ↔
    (ChListAsks env s content → All P2pAccess.Inside getOp) := by
  unfold chListStep ChListAsks
  cases chListCase env s content <;> simp [all_andThen]

theorem result_chListStep {env : NegoEnv} {s : NegoCh} {content : Option (List UInt8)}
    {getOp : Logged P2pAccess (Option (List UInt8))} :
    (chListStep env s content getOp).result = chListAfter env s content getOp.result := by
  unfold chListStep chListAfter
  cases chListCase env s content with
  | ends => rfl
  | leave => rfl
  | keep => rfl
  | ask common =>
    rw [result_andThen]
    cases getOp.result <;> rfl

theorem all_negotationReqBody {env : NegoEnv} {s : NegoCh} :
    All P2pAccess.Inside (negotationReqBody env s e) ↔ ReqElemFits env s e := by
  unfold negotationReqBody ReqElemFits
  simp only [all_getP2p_andThen, all_chListStep, all_getP2p, P2pVar.size]

theorem result_negotationReqBody {env : NegoEnv} {s : NegoCh} :
    (negotationReqBody env s e).result = reqAfter env s e := by
  unfold negotationReqBody reqAfter
  simp only [result_andThen, result_getP2p, result_chListStep]
  rfl

theorem all_negotationRespBody {env : NegoEnv} {s : NegoCh} :
    All P2pAccess.Inside (negotationRespBody env s e) ↔ RespElemFits env s e := by
  unfold negotationRespBody RespElemFits
  rw [all_getP2p_andThen]
  refine Asked.congr fun _ _ => ?_
  rw [all_getP2p_andThen]
  refine Asked.congr fun status _ => ?_
  by_cases hrefuses : statusRefuses status = true
  · simp [hrefuses]
  rw [if_neg hrefuses, all_getP2p_andThen, ← Bool.not_eq_true, imp_iff_right hrefuses]
  refine Asked.congr fun _ _ => ?_
  rw [all_getP2p_andThen]
  refine Asked.congr fun intent _ => ?_
  rw [all_getP2p_andThen]
  -- the second copy of the operating channel is as long as the first one
  refine and_congr_right fun hop => forall₂_congr fun op hcontent => ?_
  rw [all_getP2p_andThen]
  refine Asked.congr fun chList _ => ?_
  rw [all_andThen, all_chListStep, all_getP2p, result_chListStep, result_getP2p, hcontent, and_iff_right fun _ => hop]
  constructor
  · intro h s' hs'
    have hgroup := h (some s') hs'
    rw [all_andThen, all_storeGroupId] at hgroup
    exact hgroup.1
  · intro h a ha
    cases a with
    | none => exact all_ret _
    | some s' =>
      rw [all_andThen, all_storeGroupId]
      exact ⟨h s' ha,fun _ _ => all_ret _⟩

theorem result_negotationRespBody {env : NegoEnv} {s : NegoCh} :
    (negotationRespBody env s e).result = respAfter env s e := by
  unfold negotationRespBody respAfter
  rw [result_andThen, result_getP2p]
  refine congrArg (Option.bind _) (funext fun _ => ?_)
  rw [result_andThen, result_getP2p]
  refine congrArg (Option.bind _) (funext fun status => ?_)
  by_cases hrefuses : statusRefuses status = true
  · simp [hrefuses]
  rw [if_neg hrefuses, if_neg hrefuses, result_andThen, result_getP2p]
  refine congrArg (Option.bind _) (funext fun _ => ?_)
  rw [result_andThen, result_getP2p]
  refine congrArg (Option.bind _) (funext fun intent => ?_)
  rw [result_andThen, result_getP2p]
  cases hop : p2pContent e P2P_ATTR_OPERATING_CH with
  | none => rfl
  | some op =>
    dsimp only [Option.bind_some]
    rw [result_andThen, result_getP2p]
    refine congrArg (Option.bind _) (funext fun chList => ?_)
    rw [result_andThen, result_chListStep, result_getP2p, hop]
    refine congrArg (Option.bind _) (funext fun after => ?_)
    cases after with
    | none => rfl
    | some s' =>
      dsimp only
      rw [result_andThen, result_storeGroupId]
      cases p2pContent e P2P_ATTR_GROUP_ID <;> rfl

theorem all_negotationConfirmBody {s : Unit} : All P2pAccess.Inside (negotationConfirmBody s e) ↔
    ConfirmElemFits e := by
  unfold negotationConfirmBody ConfirmElemFits
  rw [all_getP2p_andThen]
  refine Asked.congr fun status _ => ?_
  by_cases hrefuses : statusRefuses status = true
  · simp [hrefuses]
  · simp [hrefuses, all_andThen, all_storeGroupId, Option.isSome_iff_exists, P2pVar.size]

theorem negotationConfirmBody_goesOn {s s' : Unit} :
    (negotationConfirmBody s e).result = some (some s') ↔ ConfirmGoesOn e := by
  unfold negotationConfirmBody ConfirmGoesOn
  rw [result_andThen, result_getP2p]
  cases p2pContent e P2P_ATTR_STATUS with
  | none => simp
  | some status =>
    by_cases hrefuses : statusRefuses status = true
    · simp [hrefuses]
    · simp only [Option.bind_some, hrefuses, Bool.false_eq_true, if_false, result_andThen, result_storeGroupId,
        result_getP2p, result_ret]
      cases p2pContent e P2P_ATTR_GROUP_ID <;> cases p2pContent e P2P_ATTR_OPERATING_CH <;> simp [hrefuses]

theorem all_firstAttr {id : UInt8} {dest : P2pVar} {iEs : List UInt8} {iELength : ℕ} :
    All P2pAccess.Inside (firstAttr id dest iEs iELength) ↔ FirstAttrFits id dest iEs iELength := by
  have hgo : ∀ (s : Unit) e (s' : Unit), (firstAttrBody id dest s e).result = some (some s') ↔
      p2pContent e id = some none := by
    intro s e s'
    unfold firstAttrBody
    rw [result_andThen, result_getP2p]
    rcases p2pContent e id with _ | _ | c <;> simp
  have hbody : ∀ (s : Unit) e, All P2pAccess.Inside (firstAttrBody id dest s e) ↔ P2pAttrLens e id 0 dest.size := by
    intro s e
    unfold firstAttrBody
    rw [all_andThen, all_getP2p]
    refine and_iff_left_of_imp fun _ c _ => ?_
    cases c <;> exact all_ret _
  unfold firstAttr FirstAttrFits
  split
  · rename_i hshort
    exact iff_of_true (all_ret _) fun h => absurd h (Nat.not_lt.mpr hshort)
  · rename_i hlong
    rw [all_overP2pIes_iff hgo, imp_iff_right (Nat.lt_of_not_le hlong)]
    simp only [hbody]
    exact ⟨fun h => h (),fun h _ => h⟩

end

/-- The contents are copied inside their variables, the SSID of a group id has a length that fits, and the device
info is read inside its buffer, exactly when each attribute that is asked for announces no more bytes than its
variable has, in every element that the function comes to. -/
theorem p2p_attr_copies_inside_iff (env : NegoEnv) (s : NegoCh) (g : GroupId) (role : P2pRole) (p2pState : P2pState)
    (alloc : ℕ → Bool) (fresh : Bool) (frame beyond : List UInt8) (len : ℕ) :
    (All P2pAccess.Inside (collectBssInfoCopies frame beyond len) ↔ ProbeReqFits frame beyond len) ∧
    (All P2pAccess.Inside (processAssocReqP2pIe alloc role frame len) ↔
      (role = .GO → AssocReqFits alloc frame len)) ∧
    (All P2pAccess.Inside (processP2pDevdiscReq g frame len) ↔ DevdiscReqFits g frame len) ∧
    (All P2pAccess.Inside (processP2pProvdiscReq frame len) ↔ ProvdiscReqFits frame len) ∧
    (All P2pAccess.Inside (processP2pGroupNegotationReq env s fresh frame len) ↔
      NegotationReqFits env s fresh frame len) ∧
    (All P2pAccess.Inside (processP2pGroupNegotationResp env s frame len) ↔ NegotationRespFits env s frame len) ∧
    (All P2pAccess.Inside (processP2pGroupNegotationConfirm frame len) ↔ NegotationConfirmFits frame len) ∧
    (All P2pAccess.Inside (processP2pCrossConnectIe frame len) ↔
      FirstAttrFits P2P_ATTR_MANAGEABILITY .p2pAttr frame len) ∧
    (All P2pAccess.Inside (processP2pPsIeCopies p2pState frame len) ↔
      (p2pState ≠ .NONE → FirstAttrFits P2P_ATTR_NOA .noaAttr frame len)) := by
  refine ⟨?_,?_,?_,?_,?_,?_,?_,all_firstAttr,?_⟩
  · unfold collectBssInfoCopies ProbeReqFits
    split
    · rename_i htakes
      rw [all_onFirstP2pIe_iff, imp_iff_right htakes]
      simp only [all_andThen, all_getP2p, all_ret, implies_true, and_true, P2pVar.size]
    · rename_i htakes
      exact iff_of_true (all_ret _) fun h => absurd h htakes
  · unfold processAssocReqP2pIe AssocReqFits
    split
    · rename_i hrole
      exact iff_of_true (all_ret _) fun h => absurd h hrole
    · rename_i hrole
      rw [all_overP2pIes_iff fun _ _ _ => assocReqBody_goesOn, imp_iff_right (not_not.mp hrole)]
      simp only [all_assocReqBody]
      exact ⟨fun h => h (),fun h _ => h⟩
  · unfold processP2pDevdiscReq DevdiscReqFits
    simp only [all_onFirstP2pIe_iff, all_devdiscBody]
  · unfold processP2pProvdiscReq ProvdiscReqFits
    simp only [all_onFirstWpsIe_iff, all_andThen, all_getWps, all_ret, implies_true, and_true, P2pVar.size]
  · have hgo : ∀ s e s', (negotationReqBody env s e).result = some (some s') ↔ reqAfter env s e = some (some s') :=
      fun s e s' => by rw [result_negotationReqBody]
    unfold processP2pGroupNegotationReq NegotationReqFits
    rw [all_onFirstWpsIe_iff]
    refine forall₂_congr fun w _ => ?_
    rw [all_andThen]
    simp only [all_overP2pIes_iff hgo, all_negotationReqBody]
    cases fresh with
    | true => simp [all_getWps, P2pVar.size, Option.isSome_iff_exists]
    | false => simp
  · unfold processP2pGroupNegotationResp NegotationRespFits
    rw [all_overP2pIes_iff fun _ _ _ => by rw [result_negotationRespBody]]
    simp only [all_negotationRespBody]
  · unfold processP2pGroupNegotationConfirm NegotationConfirmFits
    rw [all_overP2pIes_iff fun _ _ _ => negotationConfirmBody_goesOn]
    simp only [all_negotationConfirmBody]
    exact ⟨fun h => h (),fun h _ => h⟩
  · unfold processP2pPsIeCopies
    split
    · rename_i hnone
      exact iff_of_true (all_ret _) fun h => absurd hnone h
    · rename_i hnone
      exact all_firstAttr.trans (imp_iff_right hnone).symm

/-- A frame whose elements begin at `off`: a P2P element with one attribute -/
def p2pFrame (off : ℕ) (id : UInt8) (content : List UInt8) : List UInt8 :=
  List.replicate off 0 ++ 0xdd :: UInt8.ofNat (content.length + 7) :: P2P_OUI ++
    id :: UInt8.ofNat content.length :: 0 :: content

/-- A status of two bytes goes into a variable of one, the SSID of an empty group id has a length below zero, and
a device info of one byte is read behind its end. -/
theorem status_of_two_bytes_overflows :
    (¬∀ frame len, All P2pAccess.Inside (processP2pGroupNegotationConfirm frame len)) ∧
    P2pAccess.ssid (2 ^ 32 - 6) ∈ (processP2pGroupNegotationConfirm (p2pFrame 8 P2P_ATTR_GROUP_ID []) 17).log ∧
    ¬∀ alloc frame len, All P2pAccess.Inside (processAssocReqP2pIe alloc .GO frame len) := by
  refine ⟨fun h => ?_,by decide,fun h => ?_⟩
  · have hlog : P2pAccess.copy .attrContent 2 ∈
        (processP2pGroupNegotationConfirm (p2pFrame 8 P2P_ATTR_STATUS [0,0]) 19).log := by decide
    exact absurd (h _ _ _ hlog) (by decide)
  · have hlog : P2pAccess.devInfo 0 6 1 ∈
        (processAssocReqP2pIe (fun _ => true) .GO (p2pFrame 28 P2P_ATTR_DEVICE_INFO [0]) 38).log := by decide
    exact absurd (h _ _ _ _ hlog) (by decide)

end Rtl8188fu
