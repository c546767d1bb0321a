import Rtl8188fu.Recv.DataHdr

/-! # The checks of a received data frame

`validate_recv_data_frame` with the functions for the directions, built without TDLS. No check
looks at the length of the frame, so that a frame of a header alone passes.
-/
namespace Rtl8188fu
open Bytes

/-- What `validate_recv_data_frame` asks of the adapter -/
structure DataEnv where
  /-- `WIFI_ADHOC_STATE` or `WIFI_ADHOC_MASTER_STATE` -/
  adhocState : Bool
  stationState : Bool
  apState : Bool
  mpState : Bool
  fwLinked : Bool
  fwUnderLinking : Bool
  mybssid : MacAddr
  myhwaddr : MacAddr
  bRTWSmbCfg : Bool
  sec : SecurityPriv
  stapriv : StaPriv
  /-- `rxcache.tid_rxseq` of a station -/
  tidRxseq : MacAddr → ℕ → ℕ

inductive DataCheck
  | fail
  /-- `RTW_RX_HANDLED` -/
  | handled
  | passed (sta : MacAddr) (psta : StaInfo) (f : RecvFrame)

def NULL_MAC : MacAddr := List.replicate ETH_ALEN 0

/-- `rtw_get_stainfo` for a frame; without a station it is dropped. -/
def DataEnv.findSta (e : DataEnv) (addr : MacAddr) (f : RecvFrame) : DataCheck :=
  match rtwGetStainfo e.stapriv addr with
  | none => .fail
  | some psta => .passed (staKey addr) psta f

/-- The frame is not from this station, is for it or for a group, and is of its BSS. -/
def DataEnv.forMe (e : DataEnv) (a : RxPktAttrib) : Prop :=
  e.myhwaddr ≠ a.src ∧ (e.myhwaddr = a.dst ∨ isMcast a.dst = true) ∧
    a.bssid ≠ NULL_MAC ∧ e.mybssid ≠ NULL_MAC ∧ a.bssid = e.mybssid

instance (e : DataEnv) (a : RxPktAttrib) : Decidable (e.forMe a) := inferInstanceAs (Decidable (_ ∧ _))

/-- The addresses of a frame in `WIFI_MP_STATE` -/
def mpAddresses (f : RecvFrame) (bssid : MacAddr) : RecvFrame :=
  let ptr := f.buf.ptr
  { f with attrib := { f.attrib with
      dst := getAddr1Ptr ptr, src := getAddr2Ptr ptr, bssid := bssid
      ra := getAddr1Ptr ptr, ta := getAddr2Ptr ptr } }

/-- A frame without data is counted and goes no further. -/
def DataCheck.dropNoData (c : DataCheck) (ptr : List UInt8) : DataCheck :=
  match c with
  | .passed .. => if (getFrameSubType ptr).testBit 6 then .handled else c
  | _ => c

def sta2staDataFrame (e : DataEnv) (f : RecvFrame) : DataCheck :=
  let a := f.attrib
  let bmcast := isMcast a.dst
  let find := fun addr f => e.findSta (if bmcast then bcAddr else addr) f
  if e.adhocState then if e.forMe a then find a.src f else .fail
  else if e.stationState then if a.bssid = a.src then find a.bssid f else .fail
  else if e.apState then
    if bmcast then if isMcast a.bssid then find [] f else .fail
    else if a.bssid = a.dst then find a.src f else .fail
  else if e.mpState then find e.mybssid (mpAddresses f (getAddr3Ptr f.buf.ptr))
  else .fail

/-- The branch of the two functions below for `WIFI_MP_STATE` -/
def mpDataFrame (e : DataEnv) (f : RecvFrame) : DataCheck :=
  let bssid := if e.bRTWSmbCfg then getAddr3Ptr f.buf.ptr else e.mybssid
  e.findSta bssid (mpAddresses f bssid)

def ap2staDataFrame (e : DataEnv) (f : RecvFrame) : DataCheck :=
  let a := f.attrib
  if e.stationState ∧ (e.fwLinked ∨ e.fwUnderLinking) then
    if e.forMe a then
      (e.findSta (if isMcast a.dst then bcAddr else a.bssid) f).dropNoData f.buf.ptr
    else .fail
  else if e.mpState ∧ e.fwLinked then mpDataFrame e f
  else if e.apState then .handled
  else .fail

def sta2apDataFrame (e : DataEnv) (f : RecvFrame) : DataCheck :=
  let a := f.attrib
  if e.apState then
    if a.bssid ≠ e.mybssid then .fail
    else
      match rtwGetStainfo e.stapriv a.src with
      | none => .handled
      | some psta => (DataCheck.passed (staKey a.src) psta f).dropNoData f.buf.ptr
  else if e.mpState ∧ e.fwLinked then mpDataFrame e f
  else .handled

/-- `validate_recv_data_frame`: the frame with its attributes when it passes -/
def validateRecvDataFrame (e : DataEnv) (f : RecvFrame) : Option RecvFrame :=
  let f := parseDataHdr f
  let c :=
    match f.attrib.toFrDs with
    | 0 => sta2staDataFrame e f
    | 1 => ap2staDataFrame e f
    | 2 => sta2apDataFrame e f
    | _ => .fail
  match c with
  | .fail | .handled => none
  | .passed sta psta f =>
    let a := f.attrib
    -- recv_decache
    if 15 < a.priority ∨ e.tidRxseq sta a.priority = a.seqNum * 16 + a.fragNum then none
    else
      let encrypt := if a.privacy then getEncryAlgo e.sec psta (isMcast a.ra) else .noPrivacy
      let len := if a.privacy then setIceIvLen encrypt else (0,0)
      some { f with
        attrib := { a with encrypt := encrypt, ivLen := len.1, icvLen := len.2 }
        preorderCtrl := (sta,⟨a.priority % 16,Nat.mod_lt _ (by decide)⟩) }

end Rtl8188fu
