import Rtl8188fu.Include.RtwXmit

/-! # The WLAN header of a data frame

`rtw_make_wlanhdr`, built without TDLS. What it does to the aggregation state of the
station is left out. The `Set` macros work on the bytes of the header.
-/
namespace Rtl8188fu
open Bytes

/-- `htole16` followed by a two-byte store -/
def le16Bytes (v : ℕ) : List UInt8 := [UInt8.ofNat v, UInt8.ofNat (v / 256)]

/-- Bits are set in the little-endian field at `i`. -/
def setBits (p : List UInt8) (i m : ℕ) : List UInt8 := patch p i (le16Bytes (le16At p i ||| m))

def setFrameSubType (p : List UInt8) (type : ℕ) : List UInt8 :=
  patch p 0 (le16Bytes ((le16At p 0 &&& 0xff03) ||| type))

def setToDs (p : List UInt8) : List UInt8 := setBits p 0 (bit 8)
def setFrDs (p : List UInt8) : List UInt8 := setBits p 0 (bit 9)
def setMFrag (p : List UInt8) : List UInt8 := setBits p 0 (bit 10)
def clearMFrag (p : List UInt8) : List UInt8 := patch p 0 (le16Bytes (le16At p 0 &&& 0xfbff))
def setMData (p : List UInt8) : List UInt8 := setBits p 0 (bit 13)
def setPrivacy (p : List UInt8) : List UInt8 := setBits p 0 (bit 14)

def setSeqNum (p : List UInt8) (num : ℕ) : List UInt8 :=
  patch p 22 (le16Bytes ((le16At p 22 &&& 0x000f) ||| (0xfff0 &&& (num * 16))))

/-- What sending a data frame reads of the adapter -/
structure XmitAdapter where
  sec : SecurityPriv
  stapriv : StaPriv
  stationState : Bool
  apState : Bool
  /-- `WIFI_ADHOC_STATE` or `WIFI_ADHOC_MASTER_STATE` -/
  adhocState : Bool
  mpState : Bool
  bssid : MacAddr
  /-- `adapter_mac_addr` -/
  macAddr : MacAddr
  qosOption : Bool
  fragLen : ℕ

/-- The three addresses and the direction bits; `none` when the state allows no data frames -/
def wlanhdrAddrs (ad : XmitAdapter) (a : PktAttrib) (hdr : List UInt8) : Option (List UInt8 × Bool) :=
  let addrs := fun (p : List UInt8) (a1 a2 a3 : MacAddr) => patch (patch (patch p 4 a1) 10 a2) 16 a3
  if ad.stationState then some (addrs (setToDs hdr) ad.bssid a.ta a.dst, ad.qosOption)
  else if ad.apState then some (addrs (setFrDs hdr) a.dst ad.bssid a.src, a.qosEn)
  else if ad.adhocState then some (addrs hdr a.dst a.ta ad.bssid, a.qosEn)
  else none

def wlanhdrQos (a : PktAttrib) (hdr : List UInt8) : List UInt8 :=
  let i := a.hdrlen - 2
  let hdr := if a.priority ≠ 0 then setBits hdr i (a.priority % 16) else hdr
  let hdr := setBits hdr i (if a.eosp then 16 else 0)
  setBits hdr i (a.ackPolicy % 4 * 32)

/-- The next sequence number of the station for a priority -/
def nextSeq (psta : StaInfo) (priority : ℕ) : ℕ := (psta.txseqTid priority + 1) % 4096

/-- `rtw_make_wlanhdr`: the header and the station with its sequence number advanced; `none`
for `_FAIL` -/
def rtwMakeWlanhdr (ad : XmitAdapter) (a : PktAttrib) : Option (List UInt8 × Option StaInfo) :=
  let hdr := setFrameSubType (List.replicate WLANHDR_OFFSET 0) a.subtype
  if a.subtype &&& WIFI_DATA_TYPE = 0 then some (hdr, none)
  else
    match wlanhdrAddrs ad a hdr with
    | none => none
    | some (hdr, qos) =>
      let hdr := if a.mdata then setMData hdr else hdr
      let hdr := if a.encrypt ≠ .noPrivacy then setPrivacy hdr else hdr
      let hdr := if qos then wlanhdrQos a hdr else hdr
      if a.psta ≠ staKey a.ra then none
      else
        match rtwGetStainfo ad.stapriv a.ra with
        | none => none
        | some psta =>
          if !psta.fwLinked then none
          else
            let seq := nextSeq psta a.priority
            some (setSeqNum hdr seq,
              some { psta with txseqTid := Function.update psta.txseqTid a.priority seq })

@[simp] theorem length_le16Bytes (v : ℕ) : (le16Bytes v).length = 2 := rfl
@[simp] theorem length_setBits (p : List UInt8) (i m : ℕ) : (setBits p i m).length = p.length := length_patch _ _ _

theorem slice_eq_le16Bytes {y : List UInt8} {i : ℕ} (h : i + 2 ≤ y.length) :
    slice y i 2 = le16Bytes (le16At y i) := by
  have h0 := byteAt_drop y i 0
  have h1 := byteAt_drop y i 1
  have hlen : (y.drop i).length = y.length - i := List.length_drop
  rw [slice, le16At, ← h1, show byteAt y i = byteAt (y.drop i) 0 from h0.symm]
  rcases hy : y.drop i with _ | ⟨a,_ | ⟨b,l⟩⟩
  · rw [hy, List.length_nil] at hlen
    omega
  · rw [hy, List.length_singleton] at hlen
    omega
  · have ha := a.toNat_lt
    have hlow : UInt8.ofNat (a.toNat + 256 * b.toNat) = a := by
      rw [← UInt8.toNat_inj, UInt8.toNat_ofNat']
      omega
    have hhigh : (a.toNat + 256 * b.toNat) / 256 = b.toNat := by omega
    change [a,b] = [UInt8.ofNat (a.toNat + 256 * b.toNat),UInt8.ofNat ((a.toNat + 256 * b.toNat) / 256)]
    rw [hlow, hhigh, UInt8.ofNat_toNat]

@[simp] theorem length_wlanhdrQos (a : PktAttrib) (hdr : List UInt8) : (wlanhdrQos a hdr).length = hdr.length := by
  rw [wlanhdrQos]
  split <;> simp

theorem length_wlanhdrAddrs {ad : XmitAdapter} {a : PktAttrib} {hdr : List UInt8} {r : List UInt8 × Bool}
    (h : wlanhdrAddrs ad a hdr = some r) : r.1.length = hdr.length := by
  rw [wlanhdrAddrs] at h
  dsimp only at h
  split_ifs at h
  · cases h
    simp [setToDs]
  · cases h
    simp [setFrDs]
  · cases h
    simp

/-- The header has its 64 bytes, and only the sequence number of the station moves. -/
theorem rtwMakeWlanhdr_spec {ad : XmitAdapter} {a : PktAttrib} {hdr : List UInt8} {psta : Option StaInfo}
    (h : rtwMakeWlanhdr ad a = some (hdr,psta)) :
    hdr.length = WLANHDR_OFFSET ∧ ∀ s ∈ psta, ∃ t, rtwGetStainfo ad.stapriv a.ra = some t ∧
      s.dot11txpn = t.dot11txpn := by
  have hzero : (setFrameSubType (List.replicate WLANHDR_OFFSET 0) a.subtype).length = WLANHDR_OFFSET := by
    rw [setFrameSubType, length_patch, List.length_replicate]
  rw [rtwMakeWlanhdr] at h
  dsimp only at h
  split at h
  · cases h
    exact ⟨hzero,nofun⟩
  · split at h
    · cases h
    · rename_i r qos hr
      have hlen := (length_wlanhdrAddrs hr).trans hzero
      split at h
      · cases h
      · split at h
        · cases h
        · rename_i t ht
          split at h
          · cases h
          · cases h
            refine ⟨?_,?_⟩
            · rw [setSeqNum, length_patch]
              split_ifs <;> simpa [setMData, setPrivacy] using hlen
            · rintro s ⟨⟩
              exact ⟨t,ht,rfl⟩

end Rtl8188fu
