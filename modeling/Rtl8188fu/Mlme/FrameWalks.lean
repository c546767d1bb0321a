import Rtl8188fu.Ap.BcnTim
import Rtl8188fu.Ieee80211.ParseElems
import Rtl8188fu.Ieee80211.VendorAttr
import Rtl8188fu.Library.VisitLoop
import Rtl8188fu.Recv.Decryptor

/-! # The element loops over a beacon and an association response

`update_beacon_info`, `check_assoc_AP`, `OnAssocRsp` and `rtw_get_bcn_keys` with the places of the frame that
they and their handlers read. The offsets count from the start of the frame. The loop variable is an `unsigned
int` too, but a loop that makes it wrap has long left the frame.
-/
namespace Rtl8188fu
open Bytes VisitLoop

def _ASOCRSP_IE_OFFSET_ : ℕ := 6
def ERPINFO_IE : UInt8 := 42
def HT_CAPABILITY_IE : UInt8 := 45
def HT_EXTRA_INFO_IE : UInt8 := 61
def WLAN_WMM_LEN : ℕ := 24
def WFD_ATTR_DEVICE_INFO : UInt8 := 0
def WMM_PARA_OUI : List UInt8 := [0x00, 0x50, 0xf2, 0x02, 0x01, 0x01]

def CHANNEL_WIDTH_20 : ℕ := 0
def CHANNEL_WIDTH_40 : ℕ := 1
def CHANNEL_WIDTH_80 : ℕ := 2

/-- `pIE->Length` of the element at `a` -/
def ieLen (frame : List UInt8) (a : ℕ) : ℕ := (byteAt frame (a + 1)).toNat

/-- `pIE->data[i]` -/
def ieData (frame : List UInt8) (a i : ℕ) : ℕ := (byteAt frame (a + 2 + i)).toNat

/-- Where the elements end: what is left behind the first `start` bytes is an `uint`, and wraps. -/
def areaEnd (start pktLen : ℕ) : ℕ := start + (pktLen + 2 ^ 32 - start) % 2 ^ 32

/-- What the handlers look at and leave as it is -/
structure WalkEnv where
  qosOption : Bool
  htOption : Bool
  /-- 40 MHz are possible on the channel. -/
  cbw40Enable : Bool
  /-- `hal_chk_wl_func` of `WL_FUNC_MIRACAST` -/
  miracast : Bool
  apState : Bool

/-- `WMM_param_handler` -/
def wmmReads (env : WalkEnv) (a : ℕ) : List ℕ := if env.qosOption = true then List.range' (a + 8) 18 else []

/-- `ERP_IE_handler` -/
def erpReads (frame : List UInt8) (a : ℕ) : List ℕ :=
  (a + 1) :: if ieLen frame a ≤ 1 then List.range' (a + 2) (ieLen frame a) else []

/-- `HT_info_handler`; a `struct HT_info_element` has 22 bytes. -/
def htInfoReads (env : WalkEnv) (frame : List UInt8) (a : ℕ) : List ℕ :=
  if env.htOption = true then (a + 1) :: if ieLen frame a ≤ 22 then List.range' (a + 2) (ieLen frame a)
    else [] else []

/-- The bandwidth that `bwmode_update_check` finds in the element -/
def newBwmode (env : WalkEnv) (frame : List UInt8) (a : ℕ) : ℕ :=
  if (ieData frame a 1).testBit 2 ∧ env.cbw40Enable = true ∧ ieData frame a 1 % 4 ∈ [1,3] then CHANNEL_WIDTH_40
  else CHANNEL_WIDTH_20

/-- `bwmode_update_check` comes to the bandwidth. -/
def bwmodeChecked (env : WalkEnv) (frame : List UInt8) (bw a : ℕ) : Prop :=
  env.htOption = true ∧ bw < CHANNEL_WIDTH_80 ∧ ieLen frame a ≤ 22

instance (env : WalkEnv) (frame : List UInt8) (bw a : ℕ) : Decidable (bwmodeChecked env frame bw a) := by
  delta bwmodeChecked
  infer_instance

def bwmodeReads (env : WalkEnv) (frame : List UInt8) (bw a : ℕ) : List ℕ :=
  (if env.htOption = true ∧ bw < CHANNEL_WIDTH_80 then [a + 1] else []) ++
    if bwmodeChecked env frame bw a then
      (a + 3) :: if newBwmode env frame a < bw then htInfoReads env frame a else []
    else []

/-- The body of the loop of `update_beacon_info`; the state is `cur_bwmode`. -/
def updateBeaconReads (env : WalkEnv) (frame : List UInt8) (bw a : ℕ) : List ℕ :=
  a :: (if byteAt frame a = WLAN_EID_VENDOR_SPECIFIC then
      List.range' (a + 2) 6 ++
        if slice frame (a + 2) 6 = WMM_PARA_OUI then
          (a + 1) :: if ieLen frame a = WLAN_WMM_LEN then wmmReads env a else []
        else []
    else []) ++
    (if byteAt frame a = HT_EXTRA_INFO_IE then bwmodeReads env frame bw a else []) ++
    (if byteAt frame a = ERPINFO_IE then erpReads frame a else []) ++ [a + 1]

def bwmodeAfter (env : WalkEnv) (frame : List UInt8) (bw a : ℕ) : ℕ :=
  if byteAt frame a = HT_EXTRA_INFO_IE ∧ bwmodeChecked env frame bw a then min bw (newBwmode env frame a) else bw

def elemLoop {σ ρ : Type} (frame : List UInt8) (limit : ℕ) (reads : σ → ℕ → Option (List ℕ))
    (after : σ → ℕ → AfterVisit σ ρ) :
    VisitLoop σ ρ where
  limit := limit
  next a := a + (ieLen frame a + 2)
  moves a := by omega
  reads := reads
  after := after

def BEACON_ELEMS : ℕ := WLAN_HDR_A3_LEN + BEACON_IE_OFFSET

/-- The loop of `update_beacon_info` -/
def updateBeaconInfo (env : WalkEnv) (frame : List UInt8) (pktLen : ℕ) : VisitLoop ℕ Empty :=
  elemLoop frame (areaEnd BEACON_ELEMS pktLen) (fun bw a => some (updateBeaconReads env frame bw a)) fun bw a =>
    .goOn (bwmodeAfter env frame bw a)

/-- The vendors that `check_assoc_AP` knows -/
inductive HtIotPeer
  | unknown
  | realtek
  | realtek92se
  | broadcom
  | ralink
  | atheros
  | cisco
  | marvell
  | realtekSoftap
  | airgo
  | realtekJaguarBcut
  | realtekJaguarCcut
deriving DecidableEq

/-- The vendor of an OUI; `realtek` is looked at more closely. -/
def ouiPeer (oui : List UInt8) : Option HtIotPeer :=
  if oui = [0x00, 0x03, 0x7f] ∨ oui = [0x00, 0x13, 0x74] then some .atheros
  else if oui = [0x00, 0x10, 0x18] ∨ oui = [0x00, 0x0a, 0xf7] ∨ oui = [0x00, 0x05, 0xb5] then some .broadcom
  else if oui = [0x00, 0x50, 0x43] then some .marvell
  else if oui = [0x00, 0x0c, 0x43] then some .ralink
  else if oui = [0x00, 0x40, 0x96] then some .cisco
  else if oui = [0x00, 0xe0, 0x4c] then some .realtek
  else if oui = [0x00, 0x0a, 0xf5] then some .airgo
  else none

def realtekPeer (frame : List UInt8) (a : ℕ) : HtIotPeer :=
  if 5 ≤ ieLen frame a then
    let peer : HtIotPeer := if ieData frame a 4 = 1 ∧ (ieData frame a 5).testBit 5 then .realtek92se else .realtek
    let peer := if (ieData frame a 5).testBit 4 then .realtekSoftap else peer
    if ieData frame a 4 = 2 then
      let peer := if (ieData frame a 6).testBit 1 then .realtekJaguarBcut else peer
      if (ieData frame a 6).testBit 2 then .realtekJaguarCcut else peer
    else peer
  else .realtek

/-- The vendor of the element at `a`, when it is known -/
def elemPeer (frame : List UInt8) (a : ℕ) : Option HtIotPeer :=
  if byteAt frame a = WLAN_EID_VENDOR_SPECIFIC then ouiPeer (slice frame (a + 2) 3) else none

/-- The body of the loop of `check_assoc_AP` -/
def assocApReads (frame : List UInt8) (a : ℕ) : List ℕ :=
  a :: (if byteAt frame a = WLAN_EID_VENDOR_SPECIFIC then List.range' (a + 2) 3 else []) ++
    match elemPeer frame a with
    | none => [a + 1]
    | some .realtek =>
      (a + 1) :: if 5 ≤ ieLen frame a then [a + 6,a + 7] ++ if ieData frame a 4 = 2 then [a + 8] else [] else []
    | some _ => []

/-- The loop of `check_assoc_AP` as `OnBeacon` calls it, behind the header -/
def checkAssocAp (frame : List UInt8) (len : ℕ) : VisitLoop Unit HtIotPeer :=
  elemLoop frame (areaEnd WLAN_HDR_A3_LEN len) (fun _ a => some (assocApReads frame a)) fun _ a =>
    match elemPeer frame a with
    | none => .goOn ()
    | some .realtek => .leave (realtekPeer frame a)
    | some peer => .leave peer

/-- The transmit flags that `HT_caps_handler` looks at: `LDPC_HT_ENABLE_TX` and `STBC_HT_ENABLE_TX` -/
structure HtCapFlags where
  ldpcTx : Bool
  stbcTx : Bool

/-- `HT_caps_handler`; `HT_cap` has 26 bytes. -/
def htCapsReads (env : WalkEnv) (frame : List UInt8) (s : HtCapFlags) (a : ℕ) : List ℕ :=
  if env.htOption = true then
    (a + 1) :: List.range' (a + 2) (min (ieLen frame a) 26) ++
      (if env.apState = true ∧ s.stbcTx = true ∨ env.apState = false ∧ s.ldpcTx = true then [a + 2] else []) ++
      if env.apState = false ∧ s.stbcTx = true then [a + 3] else []
  else []

def htCapsAfter (env : WalkEnv) (frame : List UInt8) (s : HtCapFlags) (a : ℕ) : HtCapFlags :=
  if byteAt frame a = HT_CAPABILITY_IE ∧ env.htOption = true then
    if env.apState = true then { s with stbcTx := s.stbcTx && (ieData frame a 0).testBit 7 }
    else ⟨s.ldpcTx && (ieData frame a 0).testBit 0,s.stbcTx && ieData frame a 1 % 4 ≠ 0⟩
  else s

/-- `rtw_process_wfd_ie` as it is called, with `Length` for the length of the element; the port is read when the
content of the attribute has a length. -/
def wfdReads (env : WalkEnv) (frame : List UInt8) (a : ℕ) : Option (List ℕ) :=
  let wfdIe := frame.drop a
  if env.miracast = false then some []
  else
    (rtwGetWfdAttr (ieLen frame a + 1) false wfdIe (ieLen frame a) WFD_ATTR_DEVICE_INFO).map fun r =>
      ((r.1.elim [] fun p =>
        let attrLen := attrTotal 3 (be16At wfdIe (p + 1))
        if attrLen ≠ 0 ∧ attrLen ≠ 3 then [p + 5,p + 6] else []) ++ r.2).map (a + ·)

/-- What `OnAssocRsp` reads of a vendor element -/
def assocRspVendor (env : WalkEnv) (frame : List UInt8) (a : ℕ) : Option (List ℕ) :=
  if byteAt frame a = WLAN_EID_VENDOR_SPECIFIC then
    if slice frame (a + 2) 6 = WMM_PARA_OUI then some (List.range' (a + 2) 6 ++ wmmReads env a)
    else if slice frame (a + 2) 4 = WFD_OUI then
      (wfdReads env frame a).map fun reads => List.range' (a + 2) 6 ++ (a + 1) :: reads
    else some (List.range' (a + 2) 6)
  else some []

/-- The body of the loop of `OnAssocRsp` -/
def assocRspReads (env : WalkEnv) (frame : List UInt8) (s : HtCapFlags) (a : ℕ) : Option (List ℕ) :=
  (assocRspVendor env frame a).map fun reads =>
    a :: reads ++ (if byteAt frame a = HT_CAPABILITY_IE then htCapsReads env frame s a else []) ++
      (if byteAt frame a = HT_EXTRA_INFO_IE then htInfoReads env frame a else []) ++
      (if byteAt frame a = ERPINFO_IE then erpReads frame a else []) ++ [a + 1]

/-- The loop of `OnAssocRsp` -/
def onAssocRsp (env : WalkEnv) (frame : List UInt8) (pktLen : ℕ) : VisitLoop HtCapFlags Empty :=
  elemLoop frame pktLen (assocRspReads env frame) fun s a => .goOn (htCapsAfter env frame s a)

/-- What `OnAssocRsp` looks at before the loop: its address, whether it waits for the response, and the status -/
structure AssocRspState where
  macAddr : MacAddr
  waiting : Bool

def AssocRspState.accepts (s : AssocRspState) (frame : List UInt8) : Bool :=
  getDa frame = s.macAddr && s.waiting && le16At frame (WLAN_HDR_A3_LEN + 2) = 0

/-- The body of the loop of `rtw_ieee802_11_parse_elems`, with the elements ending at `fin` -/
def parseElemsReads (frame : List UInt8) (fin a : ℕ) : List ℕ :=
  [a,a + 1] ++
    if byteAt frame a = WLAN_EID_VENDOR_SPECIFIC ∧ a + 2 + ieLen frame a ≤ fin ∧ 4 ≤ ieLen frame a then
      List.range' (a + 2) 3 ++
        (if rtwGetBe24 (frame.drop (a + 2)) = OUI_MICROSOFT then
          (a + 5) :: if ieData frame a 3 = 2 ∧ 5 ≤ ieLen frame a then [a + 6] else []
        else []) ++
        if rtwGetBe24 (frame.drop (a + 2)) = OUI_BROADCOM then [a + 5] else []
    else []

/-- The element area that `rtw_get_bcn_keys` has parsed: a turn needs two bytes, and the parser gives up at an
element that is cut. -/
def bcnKeysElems (frame : List UInt8) (packetLen : ℕ) : VisitLoop Unit Unit :=
  let fin := areaEnd BEACON_ELEMS packetLen
  elemLoop frame (fin - 1) (fun _ a => some (parseElemsReads frame fin a)) fun _ a =>
    if a + 2 + ieLen frame a ≤ fin then .goOn () else .leave ()

/-- The walk comes to an end, reads nothing behind the frame, and finds no element in a shorter frame than
what stands before the elements. -/
def WalkInside {σ ρ : Type} (l : VisitLoop σ ρ) (len : ℕ) (s : σ) (start : ℕ) : Prop :=
  l.Contained len s start ∧ (len < start → l.limit ≤ start)

/-- `rtw_get_bcn_keys` reads the capability information before. -/
def BcnKeysInside (frame : List UInt8) (packetLen : ℕ) : Prop :=
  Below packetLen [WLAN_HDR_A3_LEN + 10,WLAN_HDR_A3_LEN + 11] ∧
    WalkInside (bcnKeysElems frame packetLen) packetLen () BEACON_ELEMS

/-! ## What an element needs inside the frame -/

/-- An element in `update_beacon_info` -/
structure BeaconElemInside (env : WalkEnv) (frame : List UInt8) (len bw a : ℕ) : Prop where
  header : a + 2 ≤ len
  oui : byteAt frame a = WLAN_EID_VENDOR_SPECIFIC → a + 8 ≤ len
  wmm : byteAt frame a = WLAN_EID_VENDOR_SPECIFIC → slice frame (a + 2) 6 = WMM_PARA_OUI →
    ieLen frame a = WLAN_WMM_LEN →
    env.qosOption = true → a + 26 ≤ len
  bwmode : byteAt frame a = HT_EXTRA_INFO_IE → bwmodeChecked env frame bw a → a + 4 ≤ len
  htInfo : byteAt frame a = HT_EXTRA_INFO_IE → bwmodeChecked env frame bw a → newBwmode env frame a < bw →
    a + 2 + ieLen frame a ≤ len
  erp : byteAt frame a = ERPINFO_IE → ieLen frame a ≤ 1 → a + 2 + ieLen frame a ≤ len

/-- An element in `check_assoc_AP`; the length byte of a vendor that is known is not looked at. -/
structure AssocApElemInside (frame : List UInt8) (len a : ℕ) : Prop where
  header : byteAt frame a ≠ WLAN_EID_VENDOR_SPECIFIC → a + 2 ≤ len
  oui : byteAt frame a = WLAN_EID_VENDOR_SPECIFIC → a + 5 ≤ len
  realtek : elemPeer frame a = some .realtek → 5 ≤ ieLen frame a → a + 8 ≤ len
  jaguar : elemPeer frame a = some .realtek → 5 ≤ ieLen frame a → ieData frame a 4 = 2 → a + 9 ≤ len

/-- The attributes of a WFD element up to the device information: each header is inside the first `room` bytes,
none has a length of 65533, and the port is inside. -/
def WfdInside (wfdIe : List UInt8) (ielen room : ℕ) : Prop :=
  6 < ielen → ∀ p, Walker.Passed (fun p => p + attrTotal 3 (be16At wfdIe (p + 1)))
      (fun p => (p + 3 ≤ ielen ∧ p + attrTotal 3 (be16At wfdIe (p + 1)) ≤ ielen) ∧
        byteAt wfdIe p ≠ WFD_ATTR_DEVICE_INFO) 6 p →
    p + 3 ≤ ielen → p + 3 ≤ room ∧ (p + attrTotal 3 (be16At wfdIe (p + 1)) ≤ ielen →
      if byteAt wfdIe p = WFD_ATTR_DEVICE_INFO then
        attrTotal 3 (be16At wfdIe (p + 1)) ≠ 0 → attrTotal 3 (be16At wfdIe (p + 1)) ≠ 3 → p + 7 ≤ room
      else attrTotal 3 (be16At wfdIe (p + 1)) ≠ 0)

/-- An element in `OnAssocRsp` -/
structure AssocRspElemInside (env : WalkEnv) (frame : List UInt8) (len : ℕ) (s : HtCapFlags) (a : ℕ) : Prop where
  header : a + 2 ≤ len
  oui : byteAt frame a = WLAN_EID_VENDOR_SPECIFIC → a + 8 ≤ len
  wmm : byteAt frame a = WLAN_EID_VENDOR_SPECIFIC → slice frame (a + 2) 6 = WMM_PARA_OUI → env.qosOption = true →
    a + 26 ≤ len
  wfd : byteAt frame a = WLAN_EID_VENDOR_SPECIFIC → slice frame (a + 2) 4 = WFD_OUI → env.miracast = true →
    WfdInside (frame.drop a) (ieLen frame a) (len - a)
  htCaps : byteAt frame a = HT_CAPABILITY_IE → env.htOption = true → a + 2 + min (ieLen frame a) 26 ≤ len
  ldpcStbc : byteAt frame a = HT_CAPABILITY_IE → env.htOption = true →
    env.apState = true ∧ s.stbcTx = true ∨ env.apState = false ∧ s.ldpcTx = true → a + 3 ≤ len
  stbc : byteAt frame a = HT_CAPABILITY_IE → env.htOption = true → env.apState = false → s.stbcTx = true →
    a + 4 ≤ len
  htInfo : byteAt frame a = HT_EXTRA_INFO_IE → env.htOption = true → ieLen frame a ≤ 22 →
    a + 2 + ieLen frame a ≤ len
  erp : byteAt frame a = ERPINFO_IE → ieLen frame a ≤ 1 → a + 2 + ieLen frame a ≤ len

section Handlers
variable {env : WalkEnv} {frame : List UInt8} {len bw a : ℕ} {s : HtCapFlags}

theorem wmmReads_below : Below len (wmmReads env a) ↔ env.qosOption = true → a + 26 ≤ len := by
  simp [wmmReads, Nat.add_assoc]

theorem erpReads_below (h : a + 2 ≤ len) :
    Below len (erpReads frame a) ↔ ieLen frame a ≤ 1 → a + 2 + ieLen frame a ≤ len := by
  simp only [erpReads, below_cons, below_ite, below_range']
  omega

theorem htInfoReads_below (h : a + 2 ≤ len) :
    Below len (htInfoReads env frame a) ↔
      env.htOption = true → ieLen frame a ≤ 22 → a + 2 + ieLen frame a ≤ len := by
  simp only [htInfoReads, below_ite, below_cons, below_range']
  refine forall_congr' fun _ => ?_
  omega

theorem bwmodeReads_below (h : a + 2 ≤ len) :
    Below len (bwmodeReads env frame bw a) ↔
      (bwmodeChecked env frame bw a → a + 4 ≤ len ∧
      (newBwmode env frame a < bw → a + 2 + ieLen frame a ≤ len)) := by
  simp only [bwmodeReads, below_append, below_ite, below_cons, below_nil, htInfoReads_below h]
  constructor
  · rintro ⟨-,hread⟩ hchecked
    obtain ⟨h3,hinfo⟩ := hread hchecked
    exact ⟨by omega,fun hlt => hinfo hlt hchecked.1 hchecked.2.2⟩
  · intro hread
    refine ⟨fun _ => ⟨by omega,trivial⟩,fun hchecked => ?_⟩
    obtain ⟨h4,hinfo⟩ := hread hchecked
    exact ⟨by omega,fun hlt _ _ => hinfo hlt⟩

theorem beaconElemInside_iff : Below len (updateBeaconReads env frame bw a) ↔
    BeaconElemInside env frame len bw a := by
  unfold updateBeaconReads
  simp only [below_append, below_cons, below_ite, below_range', below_nil, and_true]
  constructor
  · rintro ⟨⟨⟨⟨ha,hvendor⟩,hht⟩,herp⟩,hlen⟩
    have h2 : a + 2 ≤ len := hlen
    refine ⟨h2,fun hid => (hvendor hid).1 (by decide),fun hid houi hwmm => ?_,fun hid hchecked =>
      ?_,fun hid hchecked => ?_, fun hid => (erpReads_below h2).mp (herp hid)⟩
    · exact wmmReads_below.mp (((hvendor hid).2 houi).2 hwmm)
    · exact ((bwmodeReads_below h2).mp (hht hid) hchecked).1
    · exact ((bwmodeReads_below h2).mp (hht hid) hchecked).2
  · intro h
    have h2 := h.header
    refine ⟨⟨⟨⟨by omega,fun hid => ⟨fun _ => h.oui hid,fun houi => ⟨h2,fun hwmm => ?_⟩⟩⟩,fun hid =>
      ?_⟩,fun hid => ?_⟩,h2⟩
    · exact wmmReads_below.mpr (h.wmm hid houi hwmm)
    · exact (bwmodeReads_below h2).mpr fun hchecked => ⟨h.bwmode hid hchecked,h.htInfo hid hchecked⟩
    · exact (erpReads_below h2).mpr (h.erp hid)

theorem assocApReads_behind (peer : Option HtIotPeer) :
    Below len (match peer with
      | none => [a + 1]
      | some .realtek =>
        (a + 1) :: if 5 ≤ ieLen frame a then [a + 6,a + 7] ++ if ieData frame a 4 = 2 then [a + 8] else [] else []
      | some _ => []) ↔
      (peer = none → a + 2 ≤ len) ∧
      (peer = some .realtek → a + 2 ≤ len ∧
        (5 ≤ ieLen frame a → a + 8 ≤ len ∧ (ieData frame a 4 = 2 → a + 9 ≤ len))) := by
  cases peer with
  | none => simp [Nat.succ_le_iff]
  | some peer =>
    cases peer with
    | realtek =>
      simp only [below_cons, below_ite, below_append, below_nil, and_true, reduceCtorEq, false_implies, true_and,
        forall_const]
      refine and_congr Nat.succ_le_iff.symm (forall_congr' fun _ => and_congr ?_ Iff.rfl)
      omega
    | _ => simp

theorem assocApElemInside_iff : Below len (assocApReads frame a) ↔ AssocApElemInside frame len a := by
  unfold assocApReads
  simp only [below_append, below_cons, below_ite, below_range', assocApReads_behind]
  have hvendor : ∀ peer, elemPeer frame a = some peer → byteAt frame a = WLAN_EID_VENDOR_SPECIFIC := by
    intro peer hpeer
    by_contra hid
    rw [elemPeer, if_neg hid] at hpeer
    cases hpeer
  constructor
  · rintro ⟨⟨-,houi⟩,hnone,hrealtek⟩
    refine ⟨fun hid => hnone (if_neg hid),fun hid => houi hid (by decide),?_,?_⟩
    · exact fun hpeer h5 => ((hrealtek hpeer).2 h5).1
    · exact fun hpeer h5 => ((hrealtek hpeer).2 h5).2
  · intro h
    have h2 : a + 2 ≤ len := by
      by_cases hid : byteAt frame a = WLAN_EID_VENDOR_SPECIFIC
      · have := h.oui hid
        omega
      · exact h.header hid
    refine ⟨⟨by omega,fun hid _ => h.oui hid⟩,fun _ => h2,fun hpeer => ⟨h2,fun h5 => ?_⟩⟩
    exact ⟨h.realtek hpeer h5,h.jaguar hpeer h5⟩

theorem htCapsReads_below (h : a + 2 ≤ len) :
    Below len (htCapsReads env frame s a) ↔
      (env.htOption = true → a + 2 + min (ieLen frame a) 26 ≤ len ∧
        (env.apState = true ∧ s.stbcTx = true ∨ env.apState = false ∧ s.ldpcTx = true → a + 3 ≤ len) ∧
        (env.apState = false ∧ s.stbcTx = true → a + 4 ≤ len)) := by
  simp only [htCapsReads, below_ite, below_append, below_cons, below_range', below_nil, and_true]
  refine forall_congr' fun _ => ?_
  constructor
  · rintro ⟨⟨⟨-,hbody⟩,hfirst⟩,hsecond⟩
    exact ⟨by omega,hfirst,hsecond⟩
  · rintro ⟨hbody,hfirst,hsecond⟩
    exact ⟨⟨⟨by omega,fun _ => hbody⟩,hfirst⟩,hsecond⟩

/-- A turn of the search that copies nothing, inside the first `room` bytes -/
theorem attrWalker_room_iff {ie : List UInt8} {ielen room p : ℕ} {target : UInt8} {good : ℕ → Prop} :
    (attrWalker be16At false ie ielen target).Sound room good p ↔
      (p + 3 ≤ ielen → p + 3 ≤ room ∧ (p + attrTotal 3 (be16At ie (p + 1)) ≤ ielen →
        if byteAt ie p = target then good p else attrTotal 3 (be16At ie (p + 1)) ≠ 0)) := by
  by_cases hp : p + 3 ≤ ielen
  · have hreads : Below room ((attrWalker be16At false ie ielen target).reads p) ↔ p + 3 ≤ room := by
      simp [attrWalker, hp]
    by_cases hin : p + attrTotal 3 (be16At ie (p + 1)) ≤ ielen
    · by_cases ht : byteAt ie p = target
      · have hturn : (attrWalker be16At false ie ielen target).turn p = .hit :=
          (attrWalker_hit p).mpr ⟨⟨hp,hin⟩,ht⟩
        simp only [ht, if_true, hp, hin, forall_const]
        exact ⟨fun h => ⟨hreads.mp h.reads_lt,h.good hturn⟩,fun h => .of_hit hturn (hreads.mpr h.1) h.2⟩
      · have hturn := (@attrWalker_goOn be16At false ie ielen target p _).mpr ⟨⟨⟨hp,hin⟩,ht⟩,rfl⟩
        simp only [ht, if_false, hp, hin, forall_const]
        constructor
        · intro h
          have hfwd := h.forward _ hturn
          exact ⟨hreads.mp h.reads_lt,by omega⟩
        · exact fun h => .of_goOn hturn (hreads.mpr h.1) (by omega)
    · have hturn : (attrWalker be16At false ie ielen target).turn p = .stop := by
        simp only [attrWalker, if_pos hp, if_pos (Nat.lt_of_not_le hin)]
      simp only [hp, hin, false_implies, and_true, forall_const]
      exact ⟨fun h => hreads.mp h.reads_lt,fun h => .of_stop hturn (hreads.mpr h)⟩
  · have hturn : (attrWalker be16At false ie ielen target).turn p = .stop := by simp only [attrWalker, if_neg hp]
    refine iff_of_true (.of_stop hturn ?_) fun h => absurd h hp
    intro o ho
    simp [attrWalker, hp] at ho

theorem below_map_add {xs : List ℕ} (h : a ≤ len) : Below len (xs.map (a + ·)) ↔ Below (len - a) xs := by
  unfold Below
  rw [List.forall_mem_map]
  exact forall₂_congr fun o _ => by omega

theorem wfdInside_iff {wfdIe : List UInt8} {ielen room : ℕ} (h6 : 6 < ielen) :
    WfdInside wfdIe ielen room ↔
      ∃ r, (attrWalker be16At false wfdIe ielen WFD_ATTR_DEVICE_INFO).run (ielen + 1) 6 = some r ∧
        Below room r.2 ∧ ∀ p, r.1 = some p →
          attrTotal 3 (be16At wfdIe (p + 1)) ≠ 0 → attrTotal 3 (be16At wfdIe (p + 1)) ≠ 3 → p + 7 ≤ room := by
  have hle : ∀ b c, (attrWalker be16At false wfdIe ielen WFD_ATTR_DEVICE_INFO).turn b = .goOn c → b ≤ c ∧
      b < ielen := by
    intro b c hc
    have := (attrWalker_goOn b c).mp hc
    omega
  unfold Below
  rw [← Walker.contained_iff_run hle (by omega) (by omega), Walker.contained_iff hle]
  simp only [attrWalker_room_iff, Walker.reach_iff_passed attrWalker_goOn]
  exact ⟨fun h => h h6,fun h _ => h⟩

theorem wfdReads_inside (hid : byteAt frame a = WLAN_EID_VENDOR_SPECIFIC) (houi : slice frame (a + 2) 4 = WFD_OUI)
    (h8 : a + 8 ≤ len) :
    (∃ reads, wfdReads env frame a = some reads ∧ Below len reads) ↔
      (env.miracast = true → WfdInside (frame.drop a) (ieLen frame a) (len - a)) := by
  unfold wfdReads
  by_cases hmiracast : env.miracast = true
  · simp only [hmiracast, Bool.true_eq_false, if_false, forall_const]
    by_cases h6 : 6 < ieLen frame a
    · have hid' : byteAt (frame.drop a) 0 = 0xdd := (byteAt_drop frame a 0).trans hid
      have houi' : slice (frame.drop a) 2 4 = WFD_OUI := by rw [slice, List.drop_drop, ← slice, houi]
      rw [wfdInside_iff h6, rtwGetWfdAttr, getAttr, if_neg (by omega), vendorAttr, if_neg (by simp [hid']),
        if_neg (by simp [houi'])]
      simp only [Option.map_map, Option.map_eq_some_iff]
      constructor
      · rintro ⟨-,⟨⟨found,reads⟩,hrun,rfl⟩,hbelow⟩
        rw [Function.comp_apply, below_map_add (by omega), below_append, below_append] at hbelow
        refine ⟨_,hrun,hbelow.2.2,?_⟩
        rintro p rfl h0 h3
        have hport := hbelow.1
        simp only [Option.elim_some, h0, h3, ne_eq, not_false_eq_true, and_self, if_true, below_cons] at hport
        omega
      · rintro ⟨⟨found,reads⟩,hrun,hbelow,hport⟩
        refine ⟨_,⟨_,hrun,rfl⟩,?_⟩
        rw [Function.comp_apply, below_map_add (by omega), below_append, below_append]
        refine ⟨?_,by simp only [below_cons, below_range']; omega,hbelow⟩
        cases found with
        | none => exact below_nil
        | some p =>
          rw [Option.elim_some, below_ite]
          rintro ⟨h0,h3⟩
          have := hport p rfl h0 h3
          simp only [below_cons, below_nil, and_true]
          omega
    · rw [rtwGetWfdAttr, getAttr, if_pos (by omega)]
      exact iff_of_true ⟨_,rfl,below_nil⟩ fun h => absurd h h6
  · simp [hmiracast]

theorem assocRspVendor_inside (h : a + 2 ≤ len) :
    (∃ reads, assocRspVendor env frame a = some reads ∧ Below len reads) ↔
      (byteAt frame a = WLAN_EID_VENDOR_SPECIFIC → a + 8 ≤ len ∧
        (slice frame (a + 2) 6 = WMM_PARA_OUI → env.qosOption = true → a + 26 ≤ len) ∧
        (slice frame (a + 2) 4 = WFD_OUI → env.miracast = true → WfdInside (frame.drop a) (ieLen frame a)
        (len - a))) := by
  unfold assocRspVendor
  by_cases hid : byteAt frame a = WLAN_EID_VENDOR_SPECIFIC
  · have houis : Below len (List.range' (a + 2) 6) ↔ a + 8 ≤ len := by simp [Nat.add_assoc]
    simp only [hid, if_true, forall_const]
    by_cases hwmm : slice frame (a + 2) 6 = WMM_PARA_OUI
    · have hwfd : slice frame (a + 2) 4 ≠ WFD_OUI := by
        have : slice frame (a + 2) 4 = slice WMM_PARA_OUI 0 4 := by rw [← hwmm, slice_slice (by decide)]
        rw [this]
        decide
      simp [hwmm, hwfd, houis, wmmReads_below]
    · by_cases hwfd : slice frame (a + 2) 4 = WFD_OUI
      · simp only [hwmm, hwfd, if_true, if_false, forall_const, false_implies, true_and, Option.map_eq_some_iff]
        constructor
        · rintro ⟨-,⟨reads,hreads,rfl⟩,hbelow⟩
          rw [below_append, below_cons, houis] at hbelow
          exact ⟨hbelow.1,(wfdReads_inside hid hwfd hbelow.1).mp ⟨reads,hreads,hbelow.2.2⟩⟩
        · rintro ⟨h8,hinside⟩
          obtain ⟨reads,hreads,hbelow⟩ := (wfdReads_inside hid hwfd h8).mpr hinside
          refine ⟨_,⟨reads,hreads,rfl⟩,?_⟩
          rw [below_append, below_cons, houis]
          exact ⟨h8,h,hbelow⟩
      · simp [hwmm, hwfd, houis]
  · simp [hid]

theorem assocRspElemInside_iff :
    (∃ reads, assocRspReads env frame s a = some reads ∧ Below len reads) ↔
    AssocRspElemInside env frame len s a := by
  unfold assocRspReads
  simp only [Option.map_eq_some_iff]
  constructor
  · rintro ⟨-,⟨reads,hreads,rfl⟩,hbelow⟩
    simp only [below_append, below_cons, below_ite, below_nil, and_true] at hbelow
    obtain ⟨⟨⟨⟨⟨-,hvendor⟩,hcaps⟩,hinfo⟩,herp⟩,hlen⟩ := hbelow
    have h2 : a + 2 ≤ len := hlen
    have hv := (assocRspVendor_inside h2).mp ⟨reads,hreads,hvendor⟩
    have hc := fun hid => (htCapsReads_below h2).mp (hcaps hid)
    refine ⟨h2,fun hid => (hv hid).1,fun hid => (hv hid).2.1,fun hid => (hv hid).2.2,fun hid hht => (hc hid hht).1,
      fun hid hht => (hc hid hht).2.1,fun hid hht hap hstbc => (hc hid hht).2.2 ⟨hap,hstbc⟩,
      fun hid => (htInfoReads_below h2).mp (hinfo hid),fun hid => (erpReads_below h2).mp (herp hid)⟩
  · intro h
    have h2 := h.header
    obtain ⟨reads,hreads,hbelow⟩ := (assocRspVendor_inside h2).mpr fun hid => ⟨h.oui hid,h.wmm hid,h.wfd hid⟩
    refine ⟨_,⟨reads,hreads,rfl⟩,?_⟩
    simp only [below_append, below_cons, below_ite, below_nil, and_true]
    refine ⟨⟨⟨⟨⟨by omega,hbelow⟩,fun hid => ?_⟩,fun hid => ?_⟩,fun hid => ?_⟩,h2⟩
    · exact (htCapsReads_below h2).mpr fun hht =>
        ⟨h.htCaps hid hht,h.ldpcStbc hid hht,fun hstbc => h.stbc hid hht hstbc.1 hstbc.2⟩
    · exact (htInfoReads_below h2).mpr (h.htInfo hid)
    · exact (erpReads_below h2).mpr (h.erp hid)

end Handlers

section Walks
variable {σ ρ : Type} {frame : List UInt8} {len limit start : ℕ} {reads : σ → ℕ → Option (List ℕ)}
variable {after : σ → ℕ → AfterVisit σ ρ} {s : σ} {inside : σ → ℕ → Prop}

/-- A walk is inside exactly when each element that it comes to has inside what is needed of it. -/
theorem walkInside_iff (hvisit : ∀ s a, (∃ r, reads s a = some r ∧ Below len r) ↔ inside s a)
    (hheader : ∀ s a, inside s a → a < len) :
    WalkInside (elemLoop frame limit reads after) len s start ↔
      ∀ s' a, (elemLoop frame limit reads after).Visits s start s' a → inside s' a := by
  unfold WalkInside
  rw [contained_iff]
  constructor
  · exact fun h s' a hvisits => (hvisit s' a).mp (h.1 s' a hvisits)
  · intro h
    refine ⟨fun s' a hvisits => (hvisit s' a).mpr (h s' a hvisits),fun hshort => Nat.le_of_not_lt fun hlt => ?_⟩
    have := hheader s start (h s start (.first hlt))
    omega

end Walks

theorem areaEnd_le {start pktLen : ℕ} (h : start ≤ pktLen) : areaEnd start pktLen ≤ pktLen := by
  unfold areaEnd
  omega

/-- `rtw_get_bcn_keys` stays inside every frame that has the fixed fields, and no other. -/
theorem bcnKeysInside_iff {frame : List UInt8} {packetLen : ℕ} : BcnKeysInside frame packetLen ↔
    BEACON_ELEMS ≤ packetLen := by
  unfold BcnKeysInside WalkInside
  constructor
  · rintro ⟨hcap,-⟩
    simp only [below_cons] at hcap
    exact hcap.2.1
  · intro h
    have hfixed : Below packetLen [WLAN_HDR_A3_LEN + 10,WLAN_HDR_A3_LEN + 11] := by
      simp only [below_cons, below_nil, and_true]
      exact ⟨Nat.lt_of_lt_of_le (by decide) h,h⟩
    refine ⟨hfixed,(contained_iff _ _).mpr fun s a hvisits => ⟨_,rfl,?_⟩,fun hshort => absurd h
      (Nat.not_le.mpr hshort)⟩
    have hend := areaEnd_le h
    have ha : a < areaEnd BEACON_ELEMS packetLen - 1 := hvisits.lt_limit
    unfold parseElemsReads
    simp only [below_append, below_cons, below_ite, below_range', below_nil, and_true]
    refine ⟨by omega,?_⟩
    rintro ⟨-,hcut,h4⟩
    refine ⟨⟨by omega,fun _ => ⟨by omega,?_⟩⟩,fun _ => by omega⟩
    rintro ⟨-,h5⟩
    omega

/-- The loops stay inside the frame exactly when every element that they come to has inside what is read of it;
the element area of `rtw_get_bcn_keys` does when the frame has the fixed fields. -/
theorem element_walks_inside_iff (env : WalkEnv) (frame : List UInt8) (pktLen bw : ℕ) (caps : HtCapFlags)
    (client : AssocRspState) :
    (WalkInside (updateBeaconInfo env frame pktLen) pktLen bw BEACON_ELEMS ↔
      ∀ bw' a, (updateBeaconInfo env frame pktLen).Visits bw BEACON_ELEMS bw' a →
      BeaconElemInside env frame pktLen bw' a) ∧
    (WalkInside (checkAssocAp frame pktLen) pktLen () BEACON_ELEMS ↔
      ∀ a, (checkAssocAp frame pktLen).Visits () BEACON_ELEMS () a → AssocApElemInside frame pktLen a) ∧
    ((client.accepts frame = true →
        WalkInside (onAssocRsp env frame pktLen) pktLen caps (WLAN_HDR_A3_LEN + _ASOCRSP_IE_OFFSET_)) ↔
      (client.accepts frame = true →
        ∀ caps' a, (onAssocRsp env frame pktLen).Visits caps (WLAN_HDR_A3_LEN + _ASOCRSP_IE_OFFSET_) caps' a →
          AssocRspElemInside env frame pktLen caps' a)) ∧
    (BcnKeysInside frame pktLen ↔ BEACON_ELEMS ≤ pktLen) := by
  refine ⟨?_,?_,?_,bcnKeysInside_iff⟩
  · refine walkInside_iff (fun bw' a => ?_) fun bw' a h => h.header.trans_lt' (by omega)
    simpa using beaconElemInside_iff
  · have hvisit : ∀ (s : Unit) (a : ℕ), (∃ r, some (assocApReads frame a) = some r ∧ Below pktLen r) ↔
        AssocApElemInside frame pktLen a := fun s a => by simpa using assocApElemInside_iff
    refine (walkInside_iff hvisit fun _ a h => ?_).trans ⟨fun h a => h () a,fun h _ a => h a⟩
    by_cases hid : byteAt frame a = WLAN_EID_VENDOR_SPECIFIC
    · have := h.oui hid
      omega
    · have := h.header hid
      omega
  · refine forall_congr' fun _ => ?_
    exact walkInside_iff (fun s a => assocRspElemInside_iff) fun s a h => h.header.trans_lt' (by omega)

/-- A beacon with one byte behind the fixed fields: its length byte is looked for behind the frame. -/
theorem lone_byte_leaves_beacon :
    ¬∀ (env : WalkEnv) (frame : List UInt8) (pktLen bw : ℕ),
      WalkInside (updateBeaconInfo env frame pktLen) pktLen bw BEACON_ELEMS := by
  intro h
  have hvisit :
      ∀ bw a, (∃ r, some (updateBeaconReads ⟨false,false,false,false,false⟩ (List.replicate 37 0) bw a) =
        some r ∧
      Below 37 r) ↔ BeaconElemInside ⟨false,false,false,false,false⟩ (List.replicate 37 0) 37 bw a :=
    fun bw a => by simpa using beaconElemInside_iff
  have hwalk := h ⟨false,false,false,false,false⟩ (List.replicate 37 0) 37 0
  have hinside := (walkInside_iff hvisit fun bw a h => h.header.trans_lt' (by omega)).mp hwalk 0 BEACON_ELEMS
    (.first (by decide))
  exact absurd hinside.header (by decide)

end Rtl8188fu
