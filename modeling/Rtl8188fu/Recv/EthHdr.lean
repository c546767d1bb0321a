import Rtl8188fu.Include.RtwRecv

/-! # From the WLAN header to an Ethernet header

The adapter is not in `WIFI_MP_STATE`: production-test frames never get here.
-/
namespace Rtl8188fu
open Bytes

/-- Whether the six bytes at `off` are an encapsulation that `wlanhdr_to_ethhdr` removes. -/
def bsnaphdr (ptr : List UInt8) (off : ℕ) : Bool :=
  (slice ptr off SNAP_SIZE = rtwRfc1042Header &&
    slice ptr (off + SNAP_SIZE) 2 ≠ SNAP_ETH_TYPE_IPX &&
    slice ptr (off + SNAP_SIZE) 2 ≠ SNAP_ETH_TYPE_APPLETALK_AARP) ||
  slice ptr off SNAP_SIZE = rtwBridgeTunnelHeader

def rmvLen (a : RxPktAttrib) (bsnap : Bool) : ℕ := a.hdrlen + a.ivLen + if bsnap then SNAP_SIZE else 0

/-- `recvframe_pull_tail` of the ICV, its result unused -/
def dropIcv (f : RecvFrame) : RxBuf :=
  if f.attrib.encrypt ≠ .noPrivacy then (f.buf.pullTail f.attrib.icvLen).getD f.buf else f.buf

def wlanhdrToEthhdr (f : RecvFrame) : Option RecvFrame :=
  let b := dropIcv f
  let bsnap := bsnaphdr b.ptr (f.attrib.hdrlen + f.attrib.ivLen)
  let rmv := rmvLen f.attrib bsnap
  -- u16 len, in host order until it is stored
  let len := (((b.len : ℤ) - rmv) % 65536).toNat
  let ethType := be16At b.ptr rmv
  match b.pull (rmv - ETH_HLEN + if bsnap then 2 else 0) with
  | none => none
  | some c =>
    let c := (c.write c.data f.attrib.dst).write (c.data + ETH_ALEN) f.attrib.src
    let c := if bsnap then c else c.write (c.data + 12) (be16Bytes len)
    some { f with buf := c, attrib := { f.attrib with ethType := ethType } }

theorem dropIcv_mem (f : RecvFrame) : (dropIcv f).mem = f.buf.mem ∧ (dropIcv f).data = f.buf.data := by
  unfold dropIcv
  split
  · cases h : f.buf.pullTail f.attrib.icvLen with
    | none => exact ⟨rfl,rfl⟩
    | some c =>
      obtain ⟨_,hm,hd,_⟩ := RxBuf.pullTail_eq_some h
      exact ⟨hm,hd⟩
  · exact ⟨rfl,rfl⟩

/-- The conversion changes the buffer and `eth_type` and nothing else of the frame. -/
theorem wlanhdrToEthhdr_frame {f g : RecvFrame} (h : wlanhdrToEthhdr f = some g) :
    g.id = f.id ∧ g.preorderCtrl = f.preorderCtrl ∧
      g.attrib = { f.attrib with ethType := g.attrib.ethType } := by
  unfold wlanhdrToEthhdr at h
  dsimp only at h
  split at h
  · cases h
  · cases h
    exact ⟨rfl,rfl,rfl⟩

end Rtl8188fu
