import Rtl8188fu.Ieee80211.DelVendorIe
import Rtl8188fu.Library.Logged
import Rtl8188fu.Mlme.ElemCopies
import Rtl8188fu.Xmit.WlanHdr

/-! # The reserved pages

`rtw_hal_set_fw_rsvd_page` from where the command frame has been obtained, on the USB bus. Each frame is built in the
command buffer at `BufIndex`, with its descriptor in front of it, and takes whole pages. What is done to the buffer, and
what is copied of the elements of the network, is logged.
-/
namespace Rtl8188fu
open Bytes

def MAX_CMDBUF_SZ : ℕ := 5120
def PAGE_SIZE_128 : ℕ := 128
def BCNQ_PAGE_NUM_8188F : ℕ := 0x08
def TX_PAGE_BOUNDARY_8188F : ℕ := 0xff - BCNQ_PAGE_NUM_8188F + 1
def LAST_ENTRY_OF_TX_PKT_BUFFER_8188F : ℕ := 255

/-- `GetTxBufferRsvdPageNum8188F`, times the size of a page -/
def maxRsvdPageBufSize : ℕ := (LAST_ENTRY_OF_TX_PKT_BUFFER_8188F - TX_PAGE_BOUNDARY_8188F + 1) * PAGE_SIZE_128

def txDescOffset : ℕ := TXDESC_SIZE + PACKET_OFFSET_SZ

def pageNum (len size : ℕ) : ℕ := len / size + if len &&& (size - 1) ≠ 0 then 1 else 0

def WIFI_FW_ADHOC_STATE : ℕ := 0x01
def WIFI_FW_AP_STATE : ℕ := 0x03

def DSSET_IE : UInt8 := 3
def IBSS_PARA_IE : UInt8 := 6

def WIFI_PROBERSP : ℕ := 0x50
def WIFI_BEACON : ℕ := 0x80
def WIFI_PSPOLL : ℕ := 0xa4
def WIFI_DATA_NULL : ℕ := 0x48
def WIFI_QOS_DATA_NULL : ℕ := 0xc8

/-- `NDIS_802_11_NETWORK_INFRASTRUCTURE` -/
inductive NetworkMode
  | ibss
  | infrastructure
  | autoUnknown
  | apMode
  | monitor

/-- What is used of `WLAN_BSSID_EX` -/
structure RsvdNetwork where
  macAddress : MacAddr
  /-- the bytes of `Ssid` up to `SsidLength` -/
  ssid : List UInt8
  dsConfig : ℕ
  supportedRates : List UInt8
  ieLength : ℕ
  /-- the memory from `IEs` on -/
  ies : ℕ → UInt8
  ssidLe : ssid.length ≤ 32
  ratesLength : supportedRates.length = 16
  fixedLe : 12 ≤ ieLength
  ieLengthLe : ieLength ≤ MAX_IE_SZ

/-- A call, with what is left in the command buffer from before -/
structure RsvdCall where
  network : RsvdNetwork
  /-- `pmlmeinfo->state` -/
  state : ℕ
  aid : ℕ
  infrastructureMode : NetworkMode
  macAddr : MacAddr
  wowlanApMode : Bool
  /-- built with `CONFIG_BT_COEXIST` -/
  btCoexist : Bool
  /-- `_FW_LINKED` -/
  linked : Bool
  /-- `RTW_CANNOT_RUN` -/
  cannotRun : Bool
  cmdBuf : List UInt8
  cmdBufLength : cmdBuf.length = MAX_CMDBUF_SZ

/-- `write i n` is of `n` bytes from `i` on in the command buffer, `ie i` is a copy of `IEs[i]`. -/
inductive RsvdAccess
  | write (i n : ℕ)
  | ie (i : ℕ)

/-- The result is the buffer after what is done. -/
abbrev RsvdWrite := Logged RsvdAccess (List UInt8)

def rsvdPut (i : ℕ) (bytes mem : List UInt8) : RsvdWrite := ⟨[.write i bytes.length],some (patch mem i bytes)⟩

/-- Bytes that are edited in place -/
def rsvdEdit (i n : ℕ) (f : List UInt8 → List UInt8) (mem : List UInt8) : RsvdWrite :=
  rsvdPut i (f (slice mem i n)) mem

/-- `_rtw_memcpy(&buf[i], IEs + start, n)` -/
def rsvdCopyIes (net : RsvdNetwork) (i start n : ℕ) (mem : List UInt8) : RsvdWrite :=
  ⟨(List.range n).map (fun k => .ie (start + k)) ++ [.write i n],
    some (patch mem i ((List.range n).map fun k => net.ies (start + k)))⟩

/-- `rtw_set_ie`, one after the other: the buffer and `pktlen` -/
def rsvdSetIes (i : ℕ) : ℕ → List (UInt8 × List UInt8) → List UInt8 → Logged RsvdAccess (List UInt8 × ℕ)
  | pktlen, [], mem => .ret (mem,pktlen)
  | pktlen, e :: es, mem =>
    (rsvdPut (i + pktlen) (e.1 :: UInt8.ofNat e.2.length :: e.2) mem).andThen fun mem =>
      rsvdSetIes i (pktlen + (e.2.length + 2)) es mem

/-- `rtw_get_rateset_len` from a place on -/
def ratesetLenFrom (rates : List UInt8) : ℕ → ℕ → ℕ
  | 0, i => i
  | fuel + 1, i => if byteAt rates i = 0 ∨ 12 < i then i else ratesetLenFrom rates fuel (i + 1)

def rtwGetRatesetLen (rates : List UInt8) : ℕ := ratesetLenFrom rates 14 0

/-- `frame_ctl = 0` -/
def clearFrameCtl (hdr : List UInt8) : List UInt8 := patch hdr 0 [0,0]

def rsvdAddrs (a1 a2 a3 : MacAddr) (hdr : List UInt8) : List UInt8 := patch (patch (patch hdr 4 a1) 10 a2) 16 a3

section Frames
variable (c : RsvdCall)

def beaconHdr (hdr : List UInt8) : List UInt8 :=
  setFrameSubType (setSeqNum (rsvdAddrs (List.replicate 6 0xff) c.macAddr c.network.macAddress (clearFrameCtl hdr)) 0)
    WIFI_BEACON

def rsvdBeaconIes : List (UInt8 × List UInt8) :=
  let rates := c.network.supportedRates
  let rateLen := rtwGetRatesetLen rates
  [(SSID_IE,c.network.ssid),(SUPPORTEDRATES_IE,rates.take (if 8 < rateLen then 8 else rateLen)),
      (DSSET_IE,[UInt8.ofNat c.network.dsConfig])] ++
    ((if c.state &&& 0x03 = WIFI_FW_ADHOC_STATE then [(IBSS_PARA_IE,[0,0])] else []) ++
      (if 8 < rateLen then [(EXT_SUPPORTEDRATES_IE,slice rates 8 (rateLen - 8))] else []))

/-- `rtw_hal_construct_beacon`. The time stamp is left to the hardware. -/
def rtwHalConstructBeacon (i : ℕ) (mem : List UInt8) : Logged RsvdAccess (List UInt8 × ℕ) :=
  (rsvdEdit i 24 (beaconHdr c) mem).andThen fun mem =>
  (rsvdCopyIes c.network (i + 32) 8 2 mem).andThen fun mem =>
  (rsvdCopyIes c.network (i + 34) 10 2 mem).andThen fun mem =>
  (if c.state &&& 0x03 = WIFI_FW_AP_STATE then
    let pktlen := 36 + (c.network.ieLength - 12)
    (rsvdCopyIes c.network (i + 36) 12 pktlen mem).andThen fun mem => .ret (mem,pktlen)
  else rsvdSetIes i 36 (rsvdBeaconIes c) mem).andThen fun r =>
  .ret (r.1,if 512 < r.2 + TXDESC_SIZE then 0 else r.2)

def psPollHdr (hdr : List UInt8) : List UInt8 :=
  let hdr := setFrameSubType (setBits (clearFrameCtl hdr) 0 (bit 12)) WIFI_PSPOLL
  let hdr := patch hdr 2 (le16Bytes (c.aid ||| 0xc000))
  patch (patch hdr 4 c.network.macAddress) 10 c.macAddr

def rtwHalConstructPSPoll (i : ℕ) (mem : List UInt8) : Logged RsvdAccess (List UInt8 × ℕ) :=
  (rsvdEdit i 16 (psPollHdr c) mem).andThen fun mem => .ret (mem,16)

/-- The station address is the BSSID; the access category and the end of the service period are 0. -/
def nullDataHdr (qos : Bool) (hdr : List UInt8) : List UInt8 :=
  let bssid := c.network.macAddress
  let hdr := match c.infrastructureMode with
    | .infrastructure => rsvdAddrs bssid c.macAddr bssid (setToDs (clearFrameCtl hdr))
    | .apMode => rsvdAddrs bssid bssid c.macAddr (setFrDs (clearFrameCtl hdr))
    | .ibss | .autoUnknown | .monitor => rsvdAddrs bssid c.macAddr bssid (clearFrameCtl hdr)
  let hdr := setSeqNum hdr 0
  if qos then setBits (setBits (setFrameSubType hdr WIFI_QOS_DATA_NULL) 24 0) 24 0
    else setFrameSubType hdr WIFI_DATA_NULL

def rtwHalConstructNullFunctionData (qos : Bool) (i : ℕ) (mem : List UInt8) : Logged RsvdAccess (List UInt8 × ℕ) :=
  let pktlen := if qos then 26 else 24
  (rsvdEdit i pktlen (nullDataHdr c qos) mem).andThen fun mem => .ret (mem,pktlen)

def probeRspHdr (hdr : List UInt8) : List UInt8 :=
  setFrameSubType (setSeqNum (rsvdAddrs c.network.macAddress c.macAddr c.network.macAddress (clearFrameCtl hdr)) 0)
    WIFI_PROBERSP

def rtwHalConstructProbeRsp (i : ℕ) (mem : List UInt8) : Logged RsvdAccess (List UInt8 × ℕ) :=
  (rsvdEdit i 24 (probeRspHdr c) mem).andThen fun mem =>
  if MAX_IE_SZ < c.network.ieLength then .ret (mem,0)
  else (rsvdCopyIes c.network (i + 24) 0 c.network.ieLength mem).andThen fun mem => .ret (mem,24 + c.network.ieLength)

end Frames

def setBitsToLe4Byte (d : List UInt8) (i offset len v : ℕ) : List UInt8 :=
  let w := leNat (slice d i 4)
  patch d i (leBytes 4 (w - w / 2 ^ offset % 2 ^ len * 2 ^ offset + v % 2 ^ len * 2 ^ offset))

def rtl8188fCalTxdescChksum (d : List UInt8) : List UInt8 :=
  let d := patch d 28 [0,0]
  setBits d 28 ((List.range 16).foldl (fun sum k => sum ^^^ le16At d (2 * k)) 0)

/-- `rtl8188f_fill_fake_txdesc`, with `bDataFrame` false as it is in every call -/
def fakeTxdesc (bufferLen : ℕ) (isPsPoll isBTQosNull : Bool) : List UInt8 :=
  let d := List.replicate TXDESC_SIZE 0
  let d := setBitsToLe4Byte d 0 27 1 1
  let d := setBitsToLe4Byte d 0 26 1 1
  let d := setBitsToLe4Byte d 0 16 8 0x28
  let d := setBitsToLe4Byte d 0 0 16 bufferLen
  let d := setBitsToLe4Byte d 4 8 5 0x12
  let d := if isPsPoll then setBitsToLe4Byte d 12 15 1 1 else setBitsToLe4Byte (setBitsToLe4Byte d 32 15 1 1) 12 6 2 0
  let d := if isBTQosNull then setBitsToLe4Byte d 8 23 1 1 else d
  let d := setBitsToLe4Byte d 12 8 1 1
  let d := setBitsToLe4Byte d 0 31 1 1
  let d := setBitsToLe4Byte d 16 0 7 0
  rtl8188fCalTxdescChksum d

inductive RsvdKind
  | beacon
  | probeRsp
  | psPoll
  | btQosNull
  | nullData
  | qosNull
  deriving DecidableEq

/-- A frame with its descriptor as it was put into the buffer -/
structure RsvdFrame where
  kind : RsvdKind
  /-- where the descriptor begins -/
  start : ℕ
  bytes : List UInt8

def RsvdFrame.stop (f : RsvdFrame) : ℕ := f.start + f.bytes.length

/-- The local variables, and what has been put into the buffer -/
structure RsvdState where
  mem : List UInt8
  bufIndex : ℕ
  totalPageNum : ℕ
  /-- `TotalPacketLen`, as it is when the frame that was put last is the last one -/
  totalPacketLen : ℕ
  /-- `RSVDPAGE_LOC` -/
  loc : RsvdKind → ℕ
  placed : List RsvdFrame

/-- A frame is in the buffer, and its pages are counted. -/
def RsvdState.count (s : RsvdState) (mem : List UInt8) (kind : RsvdKind) (len pages : ℕ) : RsvdState where
  mem := mem
  bufIndex := (s.bufIndex + pages * PAGE_SIZE_128) % 2 ^ 16
  totalPageNum := (s.totalPageNum + pages) % 2 ^ 8
  totalPacketLen := s.bufIndex + len
  loc := s.loc
  placed := s.placed ++ [⟨kind,s.bufIndex - TXDESC_SIZE,slice mem (s.bufIndex - TXDESC_SIZE) (TXDESC_SIZE + len)⟩]

/-- The beacon has two pages at least, and the descriptor in front of it is filled when the image is sent. -/
def rsvdBeacon (c : RsvdCall) (s : RsvdState) : Logged RsvdAccess RsvdState :=
  (rtwHalConstructBeacon c s.bufIndex s.mem).andThen fun r =>
    let pages := pageNum (TXDESC_SIZE + r.2) PAGE_SIZE_128 % 2 ^ 8
    .ret (s.count r.1 .beacon r.2 (if pages = 1 then pages + 1 else pages))

/-- A frame and its descriptor, with the location that the firmware is told -/
def rsvdFrame (kind : RsvdKind) (construct : ℕ → List UInt8 → Logged RsvdAccess (List UInt8 × ℕ))
    (isPsPoll isBTQosNull : Bool)
    (s : RsvdState) : Logged RsvdAccess RsvdState :=
  (construct s.bufIndex s.mem).andThen fun r =>
  (rsvdPut (s.bufIndex - TXDESC_SIZE) (fakeTxdesc r.2 isPsPoll isBTQosNull) r.1).andThen fun mem =>
  .ret { s.count mem kind r.2 (pageNum (TXDESC_SIZE + r.2) PAGE_SIZE_128 % 2 ^ 8) with
    loc := Function.update s.loc kind s.totalPageNum }

/-- What has become of the command frame and what the firmware has been told -/
structure RsvdOutcome where
  /-- how often the command frame has been freed without having been sent -/
  freed : ℕ
  image : Option (List UInt8)
  /-- `u1H2CRsvdPageParm` -/
  parm : Option (List UInt8)
  placed : List RsvdFrame

/-- The frames whose locations the firmware is told, in the order of the parameters -/
def rsvdParmKinds : List RsvdKind := [.probeRsp,.psPoll,.nullData,.qosNull,.btQosNull]

def rsvdDownload (c : RsvdCall) (s : RsvdState) : RsvdOutcome :=
  let parm := if c.linked then some (rsvdParmKinds.map fun k => UInt8.ofNat (s.loc k)) else none
  if maxRsvdPageBufSize < s.totalPacketLen then ⟨1,none,none,s.placed⟩
  else if c.cannotRun then ⟨1,none,parm,s.placed⟩
  else ⟨0,some (s.mem.take s.totalPacketLen),parm,s.placed⟩

def rtwHalSetFwRsvdPage (c : RsvdCall) : Logged RsvdAccess RsvdOutcome :=
  (rsvdBeacon c ⟨c.cmdBuf,txDescOffset,0,0,fun _ => 0,[]⟩).andThen fun s =>
  (if c.wowlanApMode then rsvdFrame .probeRsp (rtwHalConstructProbeRsp c) false false s
  else
    (rsvdFrame .psPoll (rtwHalConstructPSPoll c) true false s).andThen fun s =>
    (if c.btCoexist then rsvdFrame .btQosNull (rtwHalConstructNullFunctionData c true) false true s
      else .ret s).andThen fun s =>
    (rsvdFrame .nullData (rtwHalConstructNullFunctionData c false) false false s).andThen fun s =>
    rsvdFrame .qosNull (rtwHalConstructNullFunctionData c true) false false s).andThen fun s =>
  .ret (rsvdDownload c s)

end Rtl8188fu
