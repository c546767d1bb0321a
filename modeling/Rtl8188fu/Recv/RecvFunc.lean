import Rtl8188fu.Recv.Reorder
import Rtl8188fu.Recv.Defrag
import Rtl8188fu.Recv.Mgmt

/-! # From a received frame to the OS

`recv_func` and what it calls. `recv_func_posthandle` works on the queues of the
stations and answers a list of actions, in order; `rtw_free_recvframe` and the pool of
frame objects come in only when the actions are carried out. Decryption, the checks of
`validate_recv_data_frame` and the management dispatcher are arguments that may answer
anything.
-/
namespace Rtl8188fu
open Bytes

def NR_RECVFRAME : ℕ := 256

/-- What does not change during one call of `recv_func` -/
structure Adapter where
  sec : SecurityPriv
  stapriv : StaPriv
  /-- `RTW_CANNOT_RUN` -/
  cannotRun : Bool
  htOption : Bool
  monitorState : Bool
  stationState : Bool
  fwLinked : Bool
  mpMode : Bool
  rxBindicatePkt : Bool
  bRTWSmbCfg : Bool
  /-- built with `CONFIG_IEEE80211W` -/
  ieee80211w : Bool

/-- The parts of the receive path whose outcome is left open. They may rewrite a frame but
return the same frame object. -/
structure RxLeaves where
  fillRadiotapHdr : Adapter → RecvFrame → Bool
  decryptor : Adapter → RecvFrame → Status × RecvFrame
  validateRecvDataFrame : Adapter → RecvFrame → Status × RecvFrame
  bipVerify : Adapter → RecvFrame → Status
  /-- the stations that the management dispatcher frees -/
  mgtDispatcher : Adapter → RecvFrame → List MacAddr
  decryptor_id : ∀ ad f, (decryptor ad f).2.id = f.id
  validate_id : ∀ ad f, (validateRecvDataFrame ad f).2.id = f.id

structure StaRecvPriv where
  defragQ : List RecvFrame
  recvreorderCtrl : Fin 16 → RecvReorderCtrl

/-- The receive queues of all stations, the broadcast station under `bcAddr` -/
abbrev RxQueues := MacAddr → StaRecvPriv

def setDefragQ (q : RxQueues) (a : MacAddr) (d : List RecvFrame) : RxQueues :=
  Function.update q a { q a with defragQ := d }

def setReorderCtrl (q : RxQueues) (a : MacAddr) (tid : Fin 16) (c : RecvReorderCtrl) : RxQueues :=
  Function.update q a
    { q a with recvreorderCtrl := Function.update (q a).recvreorderCtrl tid c }

inductive RxAct
  | handOn (e : Effect)
  /-- `rtw_free_recvframe` -/
  | free (f : RecvFrame)
  /-- no action: the frame passes `portctrl`, and whether its sender was blocked then -/
  | passed (f : RecvFrame) (blocked : Bool)

/-- Whose defragmentation queue `recvframe_chk_defrag` uses -/
def defragOwner (ad : Adapter) (f : RecvFrame) : Option MacAddr :=
  match rtwGetStainfo ad.stapriv f.attrib.ta with
  | some _ => some (staKey f.attrib.ta)
  | none => if getFrameType f.buf.ptr ≠ WIFI_DATA_TYPE then some bcAddr else none

/-- `recvframe_chk_defrag` on the queues of the stations -/
def chkDefrag (ad : Adapter) (q : RxQueues) (f : RecvFrame) : RxQueues × Option RecvFrame × List RxAct :=
  let owner := defragOwner ad f
  let r := recvframeChkDefrag (recvframeChkmic (rxMicKey ad.sec ad.stapriv))
    (owner.map fun a => (q a).defragQ) f
  let q := match owner, r.queue with
    | some a, some d => setDefragQ q a d
    | _, _ => q
  (q, r.out, r.freed.map .free)

/-- Whether the sender's port is blocked, as `portctrl` looks at it -/
def portBlocked (ad : Adapter) (f : RecvFrame) : Bool :=
  ad.sec.dot11AuthAlgrthm = .ieee8021X &&
    (rtwGetStainfo ad.stapriv f.attrib.ta).any (·.ieee8021xBlocked)

/-- `portctrl`: whether the frame passes -/
def portctrl (ad : Adapter) (f : RecvFrame) : Bool :=
  !portBlocked ad f ||
    be16At f.buf.ptr (f.attrib.hdrlen + f.attrib.ivLen + LLC_HEADER_SIZE) = 0x888e

def processRecvIndicatepkts (ad : Adapter) (q : RxQueues) (f : RecvFrame) :
    Status × RxQueues × List Effect :=
  if ad.htOption then
    let a := f.preorderCtrl.1
    let tid := f.preorderCtrl.2
    let r := recvIndicatepktReorder ad.cannotRun ((q a).recvreorderCtrl tid) f
    let q := setReorderCtrl q a tid r.2.1
    if r.1 ≠ .success ∧ !ad.cannotRun then (.fail, q, r.2.2) else (.success, q, r.2.2)
  else
    match wlanhdrToEthhdr f with
    | none => (.fail, q, [])
    | some g => if !ad.cannotRun then (.success, q, [.indicate g]) else (.fail, q, [])

/-- `recv_func_posthandle` from the decrypted frame on; `orig` is `orig_prframe` -/
def posthandleDecrypted (ad : Adapter) (q : RxQueues) (orig f : RecvFrame) : RxQueues × List RxAct :=
  let d := chkDefrag ad q f
  match d.2.1 with
  | none => (d.1, d.2.2)
  | some g =>
    if !portctrl ad g then (d.1, d.2.2 ++ [.free g])
    else
      let p := processRecvIndicatepkts ad d.1 g
      let acts := d.2.2 ++ .passed g (portBlocked ad g) :: p.2.2.map .handOn
      if p.1 ≠ .success then (p.2.1, acts ++ [.free orig]) else (p.2.1, acts)

def recvFuncPosthandle (L : RxLeaves) (ad : Adapter) (q : RxQueues) (f : RecvFrame) :
    RxQueues × List RxAct :=
  let d := L.decryptor ad f
  if d.1 = .fail then (q, [.free f]) else posthandleDecrypted ad q f d.2

/-- The part of `rtw_free_stainfo` that concerns received frames: the reorder queues are
emptied frame by frame; `defrag_q` is not, and goes with the station. -/
def rtwFreeStainfo (q : RxQueues) (a : MacAddr) : RxQueues × List RxAct :=
  (Function.update q a
    { defragQ := []
      recvreorderCtrl := fun tid => { (q a).recvreorderCtrl tid with pending := [] } },
    ((List.finRange 16).flatMap fun tid => ((q a).recvreorderCtrl tid).pending).map .free)

def freeStainfos (q : RxQueues) : List MacAddr → RxQueues × List RxAct
  | [] => (q, [])
  | a :: as =>
    let r := rtwFreeStainfo q a
    let s := freeStainfos r.1 as
    (s.1, r.2 ++ s.2)

def validateRecvMgntFrame (L : RxLeaves) (ad : Adapter) (q : RxQueues) (f : RecvFrame) :
    RxQueues × List RxAct :=
  let d := chkDefrag ad q f
  match d.2.1 with
  | none => (d.1, d.2.2)
  | some g =>
    let r := freeStainfos d.1 (L.mgtDispatcher ad g)
    (r.1, d.2.2 ++ r.2)

/-- The attributes that `validate_recv_frame` reads from the frame control field -/
def parseFrameCtl (f : RecvFrame) : RecvFrame :=
  let ptr := f.buf.ptr
  { f with attrib := { f.attrib with
      toFrDs := getToFrDs ptr
      fragNum := getFragNum ptr
      seqNum := getSequence ptr
      mfrag := getMFrag ptr
      privacy := getPrivacy ptr
      order := getOrder ptr } }

/-- The call of `validate_80211w_mgmt`, when it is built in -/
def mgmt80211w (L : RxLeaves) (ad : Adapter) (f : RecvFrame) : Mgmt80211w :=
  if ad.ieee80211w then validate80211wMgmt (L.decryptor ad) (L.bipVerify ad) ad.sec ad.stapriv f
  else ⟨.success, f, false, false⟩

def validateRecvFrame (L : RxLeaves) (ad : Adapter) (q : RxQueues) (f : RecvFrame) :
    Status × RecvFrame × RxQueues × List RxAct :=
  let ptr := f.buf.ptr
  if (byteAt ptr 0).toNat % 4 ≠ 0 then (.fail, f, q, [])
  else
    let f := parseFrameCtl f
    if getFrameType ptr = WIFI_MGT_TYPE then
      let v := mgmt80211w L ad f
      let freed := if v.freed then [RxAct.free v.frame] else []
      if v.status = .fail then (.fail, v.frame, q, freed)
      else
        let r := validateRecvMgntFrame L ad q v.frame
        (.fail, v.frame, r.1, freed ++ r.2)
    else if getFrameType ptr = WIFI_CTRL_TYPE then (.fail, f, q, [])
    else if getFrameType ptr = WIFI_DATA_TYPE then
      let f := { f with attrib := { f.attrib with qos := (getFrameSubType ptr).testBit 7 } }
      let v := L.validateRecvDataFrame ad f
      (v.1, v.2, q, [])
    else (.fail, f, q, [])

/-- `MPwlanhdr_to_ethhdr`; `none` when the header is longer than the frame -/
def mpWlanhdrToEthhdr (bRTWSmbCfg : Bool) (f : RecvFrame) : Option RecvFrame :=
  let b := dropIcv f
  let bsnap := bsnaphdr b.ptr (f.attrib.hdrlen + f.attrib.ivLen)
  let rmv := rmvLen f.attrib bsnap
  match b.pull (rmv - ETH_HLEN + if bsnap then 2 else 0) with
  | none => none
  | some c =>
    let c := (c.write c.data f.attrib.dst).write (c.data + ETH_ALEN) f.attrib.src
    let c := c.write (c.data + 12) (be16Bytes f.attrib.seqNum)
    let c :=
      if bRTWSmbCfg && slice f.attrib.bssid 0 3 = [0x01, 0x00, 0x5e] then c.write c.data f.attrib.bssid
      else c
    some { f with buf := c, attrib := { f.attrib with ethType := be16At b.ptr rmv } }

/-- The attributes that `mp_recv_frame` reads from the header -/
def mpParse (f : RecvFrame) : RecvFrame :=
  let f := parseFrameCtl f
  { f with attrib := { f.attrib with
      dst := getDa f.buf.ptr
      src := getSa f.buf.ptr
      bssid := getHdrBssid f.buf.ptr } }

/-- `mp_recv_frame`. An indicated frame has already been given back when the common exit
frees it. -/
def mpRecvFrame (ad : Adapter) (f : RecvFrame) : List RxAct :=
  if ad.fwLinked && ad.rxBindicatePkt && getFrameType f.buf.ptr = WIFI_DATA_TYPE then
    match mpWlanhdrToEthhdr ad.bRTWSmbCfg (mpParse f) with
    | none => [.free f]
    | some g => if !ad.cannotRun then [.handOn (.indicate g), .free f] else [.free f]
  else [.free f]

/-- `recv_frame_monitor`; the frame has a packet, so `rtw_recv_monitor` succeeds. -/
def recvFrameMonitor (L : RxLeaves) (ad : Adapter) (f : RecvFrame) : List RxAct :=
  if L.fillRadiotapHdr ad f && !ad.cannotRun then [.handOn (.indicate f)] else [.free f]

def recvFuncPrehandle (L : RxLeaves) (ad : Adapter) (q : RxQueues) (f : RecvFrame) :
    Status × RecvFrame × RxQueues × List RxAct :=
  if ad.mpMode then (.fail, f, q, mpRecvFrame ad f)
  else
    let v := validateRecvFrame L ad q f
    if v.1 ≠ .success then (v.1, v.2.1, v.2.2.1, v.2.2.2 ++ [.free f]) else v

end Rtl8188fu
