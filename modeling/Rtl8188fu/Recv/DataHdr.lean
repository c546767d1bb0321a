import Rtl8188fu.Recv.RecvFunc

/-! # The header of a received data frame

What `validate_recv_frame` and `validate_recv_data_frame` read from it, before the checks
against the stations, and where the parts of its payload lie in memory.
-/
namespace Rtl8188fu
open Bytes

/-- `attrib->ra` of a data frame -/
def dataRa (toFrDs : ℕ) (ptr : List UInt8) : MacAddr :=
  match toFrDs with
  | 0 | 1 => getDa ptr
  | 2 => getHdrBssid ptr
  | _ => getAddr1Ptr ptr

/-- `attrib->ta` of a data frame -/
def dataTa (toFrDs : ℕ) (ptr : List UInt8) : MacAddr :=
  match toFrDs with
  | 0 | 2 => getSa ptr
  | 1 => getHdrBssid ptr
  | _ => getAddr2Ptr ptr

/-- `attrib->hdrlen` of a data frame -/
def dataHdrlen (toFrDs : ℕ) (qos order : Bool) : ℕ :=
  (if qos then if toFrDs = 3 then WLAN_HDR_A4_QOS_LEN else WLAN_HDR_A3_QOS_LEN
    else if toFrDs = 3 then WLAN_HDR_A4_LEN else WLAN_HDR_A3_LEN) + if order then 4 else 0

/-- The attributes of a data frame that are read from its header -/
def parseDataHdr (f : RecvFrame) : RecvFrame :=
  let ptr := f.buf.ptr
  let f := parseFrameCtl f
  let qos := (getFrameSubType ptr).testBit 7
  { f with attrib := { f.attrib with
      dst := getDa ptr
      src := getSa ptr
      bssid := getHdrBssid ptr
      ra := dataRa f.attrib.toFrDs ptr
      ta := dataTa f.attrib.toFrDs ptr
      qos := qos
      priority := if qos then getPriority (ptr.drop 24) else 0
      amsdu := qos && getAMsdu (ptr.drop 24)
      hdrlen := dataHdrlen f.attrib.toFrDs qos f.attrib.order } }

section Payload
variable {b : RxBuf} {x y z : List UInt8} {i : ℕ}

/-- A part of the payload, where it lies in the memory of the frame -/
theorem RxBuf.slice_mem (h : b.payload = x ++ y ++ z) (hi : x.length = i) : slice b.mem (b.data + i) y.length = y := by
  have hlen := b.length_payload
  rw [h, List.length_append, List.length_append] at hlen
  rw [← slice_slice (n := b.len) (by omega)]
  change slice b.payload i y.length = y
  rw [h]
  exact slice_middle hi rfl

theorem RxBuf.slice_ptr (h : b.payload = x ++ y ++ z) (hi : x.length = i) : slice b.ptr i y.length = y := by
  have := RxBuf.slice_mem h hi
  rwa [slice, ← List.drop_drop] at this

theorem RxBuf.take_ptr (h : b.payload = x ++ y) {k : ℕ} (hk : k ≤ x.length) : b.ptr.take k = x.take k := by
  have hlong := b.length_payload
  rw [h, List.length_append] at hlong
  have hpre : b.payload.take k = x.take k := by
    rw [h, List.take_append_of_le_length hk]
  rw [← hpre, RxBuf.payload, slice, List.take_take, Nat.min_eq_left (by omega)]
  rfl

end Payload

theorem be16At_be16Bytes {e : ℕ} (he : e < 65536) : be16At (be16Bytes e) 0 = e := by
  change 256 * (UInt8.ofNat (e / 256)).toNat + (UInt8.ofNat e).toNat = e
  rw [UInt8.toNat_ofNat', UInt8.toNat_ofNat']
  omega

theorem be16Bytes_be16At (p : List UInt8) (i : ℕ) : be16Bytes (be16At p i) = [byteAt p i, byteAt p (i + 1)] := by
  have h0 := byteAt_lt p i
  have h1 := byteAt_lt p (i + 1)
  have hhigh : UInt8.ofNat (be16At p i / 256) = byteAt p i := by
    apply UInt8.toNat_inj.mp
    rw [UInt8.toNat_ofNat', be16At]
    omega
  have hlow : UInt8.ofNat (be16At p i) = byteAt p (i + 1) := by
    apply UInt8.toNat_inj.mp
    rw [UInt8.toNat_ofNat', be16At]
    omega
  rw [be16Bytes, hhigh, hlow]

/-- Without its ICV, the payload of a frame is what stands before the ICV. -/
theorem payload_dropIcv {f : RecvFrame} {x icv : List UInt8} (h : f.buf.payload = x ++ icv)
    (hicv : icv.length = if f.attrib.encrypt ≠ .noPrivacy then f.attrib.icvLen else 0) :
    (dropIcv f).payload = x := by
  have hlen := f.buf.length_payload
  rw [h, List.length_append, RxBuf.len] at hlen
  rw [dropIcv]
  by_cases henc : f.attrib.encrypt ≠ .noPrivacy
  · rw [if_pos henc] at hicv ⊢
    have htail := f.buf.data_le_tail
    obtain ⟨hm,hd,ht⟩ := @RxBuf.pullTail_getD f.buf f.attrib.icvLen (by omega)
    rw [RxBuf.payload, RxBuf.len, hm, hd, ht]
    have : f.buf.tail - f.attrib.icvLen - f.buf.data = x.length := by omega
    rw [this]
    have := RxBuf.slice_mem (b := f.buf) (x := []) (y := x) (z := icv) (by rw [h]; rfl) rfl
    simpa using this
  · rw [if_neg henc] at hicv ⊢
    rw [h, List.eq_nil_of_length_eq_zero hicv, List.append_nil]

end Rtl8188fu
