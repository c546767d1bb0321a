import Rtl8188fu.Recv.DataHdr
import Rtl8188fu.Xmit.Attrib
import Rtl8188fu.Xmit.Coalesce

/-! # What the header of a sent data frame says

The SNAP header and the WLAN header of a data frame as the receiver reads them.
-/
namespace Rtl8188fu
open Bytes

theorem length_rtwPutSnap (e : ℕ) : (rtwPutSnap e).length = 8 := by
  rw [rtwPutSnap]
  split <;> rfl

/-- `rtw_put_snap` writes six bytes and the type. -/
theorem rtwPutSnap_eq (e : ℕ) : ∃ s, s.length = SNAP_SIZE ∧ rtwPutSnap e = s ++ be16Bytes e := by
  rw [rtwPutSnap]
  split
  · exact ⟨rtwBridgeTunnelHeader,rfl,rfl⟩
  · exact ⟨rtwRfc1042Header,rfl,rfl⟩

/-- Every header of `rtw_put_snap` is one that `wlanhdr_to_ethhdr` removes. -/
theorem bsnaphdr_rtwPutSnap {e : ℕ} (he : e < 65536) {ptr : List UInt8} {off : ℕ}
    (h : slice ptr off 8 = rtwPutSnap e) :
    bsnaphdr ptr off = true ∧ slice ptr (off + SNAP_SIZE) 2 = be16Bytes e := by
  have hsnap : slice ptr off SNAP_SIZE = slice (rtwPutSnap e) 0 SNAP_SIZE := by
    rw [← h, slice_slice (by decide)]
    rfl
  have htype : slice ptr (off + SNAP_SIZE) 2 = slice (rtwPutSnap e) SNAP_SIZE 2 := by
    rw [← h, slice_slice (by decide)]
  have htail : slice (rtwPutSnap e) SNAP_SIZE 2 = be16Bytes e := by
    rw [rtwPutSnap]
    split <;> rfl
  rw [htail] at htype
  refine ⟨?_,htype⟩
  rw [bsnaphdr, hsnap, htype]
  by_cases hbridge : e = 0x8137 ∨ e = 0x80f3
  · have : slice (rtwPutSnap e) 0 SNAP_SIZE = rtwBridgeTunnelHeader := by
      rw [rtwPutSnap, if_pos hbridge]
      rfl
    simp [this]
  · have : slice (rtwPutSnap e) 0 SNAP_SIZE = rtwRfc1042Header := by
      rw [rtwPutSnap, if_neg hbridge]
      rfl
    have hne : ∀ v < 65536, be16Bytes e = be16Bytes v → e = v := by
      intro v hv heq
      rw [← be16At_be16Bytes he, heq, be16At_be16Bytes hv]
    have hipx : be16Bytes e ≠ SNAP_ETH_TYPE_IPX :=
      fun heq => hbridge (Or.inl (hne 0x8137 (by decide) heq))
    have haarp : be16Bytes e ≠ SNAP_ETH_TYPE_APPLETALK_AARP :=
      fun heq => hbridge (Or.inr (hne 0x80f3 (by decide) heq))
    simp [this, hipx, haarp]

theorem slice_addrs {m dst src : List UInt8} {d n : ℕ} (hdst : dst.length = ETH_ALEN) (hsrc : src.length = ETH_ALEN)
    (hm : d + (ETH_ALEN + ETH_ALEN) ≤ m.length) :
    slice (patch (patch m d dst) (d + ETH_ALEN) src) d (ETH_ALEN + ETH_ALEN + n) =
      dst ++ src ++ slice m (d + (ETH_ALEN + ETH_ALEN)) n := by
  have h1 : slice (patch (patch m d dst) (d + ETH_ALEN) src) d ETH_ALEN = dst := by
    rw [slice_patch_below (le_refl _), slice_patch_of_length hdst (by omega)]
  have h2 : slice (patch (patch m d dst) (d + ETH_ALEN) src) (d + ETH_ALEN) ETH_ALEN = src :=
    slice_patch_of_length hsrc (by rw [length_patch]; omega)
  have h3 : slice (patch (patch m d dst) (d + ETH_ALEN) src) (d + (ETH_ALEN + ETH_ALEN)) n =
      slice m (d + (ETH_ALEN + ETH_ALEN)) n := by
    rw [slice_patch_above (by omega), slice_patch_above (by omega)]
  rw [← slice_append_slice, ← slice_append_slice, h1, h2, h3]

/-- A frame with a header of `rtw_put_snap` becomes an Ethernet frame with its type field. -/
theorem wlanhdrToEthhdr_snap {f : RecvFrame} {hdr body : List UInt8} {e : ℕ} (he : e < 65536)
    (h : (dropIcv f).payload = hdr ++ rtwPutSnap e ++ body) (hhdr : hdr.length = f.attrib.hdrlen + f.attrib.ivLen)
    (hmin : 8 ≤ hdr.length) (hdst : f.attrib.dst.length = ETH_ALEN) (hsrc : f.attrib.src.length = ETH_ALEN) :
    ∃ g, wlanhdrToEthhdr f = some g ∧ g.attrib = { f.attrib with ethType := e } ∧
      g.buf.payload = f.attrib.dst ++ f.attrib.src ++ (be16Bytes e ++ body) := by
  obtain ⟨hsnap,htype⟩ := bsnaphdr_rtwPutSnap he
    (length_rtwPutSnap e ▸ RxBuf.slice_ptr h hhdr : slice (dropIcv f).ptr _ 8 = _)
  obtain ⟨s,hs,hput⟩ := rtwPutSnap_eq e
  have hbuf := (dropIcv f).length_payload
  rw [h] at hbuf
  simp only [List.length_append, length_rtwPutSnap, RxBuf.len] at hbuf
  have hrmv : rmvLen f.attrib true = hdr.length + SNAP_SIZE := by rw [rmvLen, hhdr]; rfl
  have heth : be16At (dropIcv f).ptr (hdr.length + SNAP_SIZE) = e := by
    rw [← be16At_be16Bytes he, ← htype, hhdr, be16At, be16At, byteAt_slice _ (by decide),
      byteAt_slice _ (by decide)]
    rfl
  have hpull : (dropIcv f).data + (hdr.length + SNAP_SIZE - ETH_HLEN + 2) ≤ (dropIcv f).tail := by
    rw [SNAP_SIZE, ETH_HLEN]
    omega
  -- what follows the two addresses is left as it was received
  have hrest : slice (dropIcv f).mem ((dropIcv f).data + (hdr.length + SNAP_SIZE)) (be16Bytes e ++ body).length =
      be16Bytes e ++ body := by
    apply RxBuf.slice_mem (x := hdr ++ s) (z := [])
    · rw [h, hput]
      simp
    · rw [List.length_append, hs]
  rw [wlanhdrToEthhdr]
  dsimp only
  rw [hsnap, hrmv, heth, RxBuf.pull, dif_pos (by simpa using hpull)]
  refine ⟨_,rfl,rfl,?_⟩
  have hend := (dropIcv f).tail_le_end
  have hsplit : (dropIcv f).tail - ((dropIcv f).data + (hdr.length + SNAP_SIZE - ETH_HLEN + 2)) =
      ETH_ALEN + ETH_ALEN + (be16Bytes e ++ body).length := by
    simp only [List.length_append, SNAP_SIZE, ETH_HLEN, ETH_ALEN, be16Bytes, List.length_cons, List.length_nil]
    omega
  have hat : (dropIcv f).data + (hdr.length + SNAP_SIZE - ETH_HLEN + 2) + (ETH_ALEN + ETH_ALEN) =
      (dropIcv f).data + (hdr.length + SNAP_SIZE) := by
    rw [SNAP_SIZE, ETH_HLEN, ETH_ALEN]
    omega
  have haddrs := slice_addrs (m := (dropIcv f).mem) (d := (dropIcv f).data + (hdr.length + SNAP_SIZE - ETH_HLEN + 2))
    (n := (be16Bytes e ++ body).length) hdst hsrc (by rw [hat, SNAP_SIZE]; omega)
  rw [hat, hrest, ← hsplit] at haddrs
  exact haddrs

theorem le16At_patch_le16Bytes {p : List UInt8} {i : ℕ} (hlen : i + 2 ≤ p.length) {v : ℕ} (hv : v < 65536) :
    le16At (patch p i (le16Bytes v)) i = v := by
  rw [le16At, byteAt_patch, byteAt_patch, if_pos ⟨le_refl _,by simp,by omega⟩,
    if_pos ⟨by omega,by simp,by omega⟩, Nat.sub_self, Nat.add_sub_cancel_left]
  change (UInt8.ofNat v).toNat + 256 * (UInt8.ofNat (v / 256)).toNat = v
  rw [UInt8.toNat_ofNat', UInt8.toNat_ofNat']
  omega

theorem le16At_setBits {p : List UInt8} {i m : ℕ} (hlen : i + 2 ≤ p.length) (hm : m < 65536) :
    le16At (setBits p i m) i = le16At p i ||| m := by
  have hp : le16At p i < 2 ^ 16 := le16At_lt p i
  exact le16At_patch_le16Bytes hlen (Nat.or_lt_two_pow hp hm)

/-- The fields of a header that the receiver looks at -/
structure HdrFields (h : List UInt8) (ctl : ℕ) (a1 a2 a3 : MacAddr) : Prop where
  ctl : le16At h 0 = ctl
  addr1 : slice h 4 ETH_ALEN = a1
  addr2 : slice h 10 ETH_ALEN = a2
  addr3 : slice h 16 ETH_ALEN = a3

section Fields
variable {h : List UInt8} {ctl : ℕ} {a1 a2 a3 : MacAddr} (hf : HdrFields h ctl a1 a2 a3)
include hf

theorem HdrFields.congr {g : List UInt8} (hg : g.take 22 = h.take 22) : HdrFields g ctl a1 a2 a3 :=
  ⟨(le16At_congr hg (by decide)).trans hf.ctl,(slice_congr hg (by decide)).trans hf.addr1,
    (slice_congr hg (by decide)).trans hf.addr2,(slice_congr hg (by decide)).trans hf.addr3⟩

theorem HdrFields.patch_above {i : ℕ} (hi : 22 ≤ i) (bs : List UInt8) : HdrFields (patch h i bs) ctl a1 a2 a3 :=
  hf.congr (slice_patch_below (j := 0) (by omega))

theorem HdrFields.take {k : ℕ} (hk : 22 ≤ k) : HdrFields (h.take k) ctl a1 a2 a3 :=
  hf.congr (by rw [List.take_take, Nat.min_eq_left hk])

theorem HdrFields.setCtl (hlen : 2 ≤ h.length) {v : ℕ} (hv : v < 65536) :
    HdrFields (patch h 0 (le16Bytes v)) v a1 a2 a3 := by
  refine ⟨le16At_patch_le16Bytes hlen hv,?_,?_,?_⟩
  · rw [slice_patch_above (by simp), hf.addr1]
  · rw [slice_patch_above (by simp), hf.addr2]
  · rw [slice_patch_above (by simp), hf.addr3]

theorem HdrFields.setBits (hlen : 2 ≤ h.length) {m : ℕ} (hm : m < 65536) :
    HdrFields (setBits h 0 m) (ctl ||| m) a1 a2 a3 := by
  rw [Rtl8188fu.setBits, hf.ctl]
  have hctl : ctl < 2 ^ 16 := hf.ctl ▸ le16At_lt h 0
  exact hf.setCtl hlen (Nat.or_lt_two_pow hctl hm)

theorem HdrFields.ite_setBits (hlen : 2 ≤ h.length) {m : ℕ} (hm : m < 65536) (c : Prop) [Decidable c] :
    HdrFields (if c then Rtl8188fu.setBits h 0 m else h) (if c then ctl ||| m else ctl) a1 a2 a3 := by
  split
  · exact hf.setBits hlen hm
  · exact hf

theorem HdrFields.setBits_above {i : ℕ} (hi : 22 ≤ i) (m : ℕ) :
    HdrFields (Rtl8188fu.setBits h i m) ctl a1 a2 a3 :=
  hf.patch_above hi _

theorem HdrFields.wlanhdrQos {a : PktAttrib} (ha : 24 ≤ a.hdrlen) : HdrFields (wlanhdrQos a h) ctl a1 a2 a3 := by
  have hi : 22 ≤ a.hdrlen - 2 := by omega
  rw [Rtl8188fu.wlanhdrQos]
  split
  · exact ((hf.setBits_above hi _).setBits_above hi _).setBits_above hi _
  · exact (hf.setBits_above hi _).setBits_above hi _

end Fields

/-- The direction bits and the three addresses of a frame -/
def sentAddrs (ad : XmitAdapter) (a : PktAttrib) : ℕ × MacAddr × MacAddr × MacAddr :=
  if ad.stationState then (bit 8, ad.bssid, a.ta, a.dst)
  else if ad.apState then (bit 9, a.dst, ad.bssid, a.src)
  else (0, a.dst, a.ta, ad.bssid)

/-- The frame control field of a data frame -/
def sentCtl (subtype ds : ℕ) (mdata : Bool) (encrypt : EncryAlgo) : ℕ :=
  let ctl := subtype ||| ds
  let ctl := if mdata then ctl ||| bit 13 else ctl
  if encrypt ≠ .noPrivacy then ctl ||| bit 14 else ctl

theorem wlanhdrAddrs_fields {ad : XmitAdapter} {a : PktAttrib} {hdr : List UInt8} {r : List UInt8 × Bool}
    (hlen : hdr.length = WLANHDR_OFFSET) (h1 : a.dst.length = ETH_ALEN) (h2 : a.src.length = ETH_ALEN)
    (h3 : a.ta.length = ETH_ALEN) (h4 : ad.bssid.length = ETH_ALEN) (h : wlanhdrAddrs ad a hdr = some r) :
    HdrFields r.1 (le16At hdr 0 ||| (sentAddrs ad a).1) (sentAddrs ad a).2.1 (sentAddrs ad a).2.2.1
      (sentAddrs ad a).2.2.2 := by
  have haddrs : ∀ (p : List UInt8) (a1 a2 a3 : MacAddr), p.length = WLANHDR_OFFSET → a1.length = ETH_ALEN →
      a2.length = ETH_ALEN → a3.length = ETH_ALEN →
      HdrFields (patch (patch (patch p 4 a1) 10 a2) 16 a3) (le16At p 0) a1 a2 a3 := by
    intro p a1 a2 a3 hp ha1 ha2 ha3
    rw [WLANHDR_OFFSET] at hp
    refine ⟨?_,?_,?_,?_⟩
    · simp [le16At, byteAt_patch]
    · rw [slice_patch_below (by decide), slice_patch_below (by decide), slice_patch_of_length ha1 (by rw [hp]; decide)]
    · rw [slice_patch_below (by decide), slice_patch_of_length ha2 (by rw [length_patch, hp]; decide)]
    · rw [slice_patch_of_length ha3 (by rw [length_patch, length_patch, hp]; decide)]
  have hset : ∀ m < 65536, le16At (setBits hdr 0 m) 0 = le16At hdr 0 ||| m := by
    exact fun m hm => le16At_setBits (by rw [hlen]; decide) hm
  rw [wlanhdrAddrs] at h
  dsimp only at h
  rw [sentAddrs]
  split_ifs at h ⊢
  · cases h
    rw [← hset (bit 8) (by decide)]
    exact haddrs _ _ _ _ ((length_setBits _ _ _).trans hlen) h4 h3 h1
  · cases h
    rw [← hset (bit 9) (by decide)]
    exact haddrs _ _ _ _ ((length_setBits _ _ _).trans hlen) h1 h4 h2
  · cases h
    rw [Nat.or_zero]
    exact haddrs _ _ _ _ hlen h1 h3 h4

/-- The header before anything but the subtype is in it -/
def blankHdr (subtype : ℕ) : List UInt8 := setFrameSubType (List.replicate WLANHDR_OFFSET 0) subtype

theorem length_blankHdr (subtype : ℕ) : (blankHdr subtype).length = WLANHDR_OFFSET := by
  rw [blankHdr, setFrameSubType, length_patch, List.length_replicate]

theorem IsDataSubtype.and_data {subtype : ℕ} (h : IsDataSubtype subtype) : subtype &&& WIFI_DATA_TYPE ≠ 0 := by
  rcases h with hs | hs <;> rw [hs] <;> decide

theorem IsDataSubtype.lt {subtype : ℕ} (h : IsDataSubtype subtype) : subtype < 65536 := by
  rcases h with hs | hs <;> rw [hs] <;> decide

theorem le16At_blankHdr {subtype : ℕ} (hsub : subtype < 65536) : le16At (blankHdr subtype) 0 = subtype := by
  rw [blankHdr, setFrameSubType, le16At_patch_le16Bytes (by decide) (by simpa [le16At, byteAt] using hsub)]
  simp [le16At, byteAt, WLANHDR_OFFSET]

/-- The two flags that are set behind the addresses -/
def wlanhdrFlags (a : PktAttrib) (hdr : List UInt8) : List UInt8 :=
  let hdr := if a.mdata then setMData hdr else hdr
  if a.encrypt ≠ .noPrivacy then setPrivacy hdr else hdr

@[simp] theorem length_wlanhdrFlags (a : PktAttrib) (hdr : List UInt8) : (wlanhdrFlags a hdr).length = hdr.length := by
  rw [wlanhdrFlags]
  split_ifs <;> simp [setMData, setPrivacy]

theorem rtwMakeWlanhdr_data {ad : XmitAdapter} {a : PktAttrib} {hdr : List UInt8} {psta : Option StaInfo}
    (hsub : a.subtype &&& WIFI_DATA_TYPE ≠ 0) (h : rtwMakeWlanhdr ad a = some (hdr,psta)) :
    ∃ r seq, wlanhdrAddrs ad a (blankHdr a.subtype) = some r ∧ r.1.length = WLANHDR_OFFSET ∧
      hdr = setSeqNum (if r.2 then wlanhdrQos a (wlanhdrFlags a r.1) else wlanhdrFlags a r.1) seq := by
  rw [rtwMakeWlanhdr, ← blankHdr] at h
  dsimp only at h
  rw [if_neg hsub] at h
  split at h
  · cases h
  · rename_i r qos hr
    split at h
    · cases h
    · split at h
      · cases h
      · split at h
        · cases h
        · cases h
          exact ⟨(r,qos),_,hr,(length_wlanhdrAddrs hr).trans (length_blankHdr _),rfl⟩

theorem rtwMakeWlanhdr_fields {ad : XmitAdapter} {a : PktAttrib} {hdr : List UInt8} {psta : Option StaInfo}
    (hsub : IsDataSubtype a.subtype) (hhdrlen : 24 ≤ a.hdrlen) (h1 : a.dst.length = ETH_ALEN)
    (h2 : a.src.length = ETH_ALEN) (h3 : a.ta.length = ETH_ALEN) (h4 : ad.bssid.length = ETH_ALEN)
    (h : rtwMakeWlanhdr ad a = some (hdr,psta)) :
    HdrFields hdr (sentCtl a.subtype (sentAddrs ad a).1 a.mdata a.encrypt) (sentAddrs ad a).2.1
      (sentAddrs ad a).2.2.1 (sentAddrs ad a).2.2.2 := by
  obtain ⟨r,seq,hr,hrlen,rfl⟩ := rtwMakeWlanhdr_data hsub.and_data h
  have hf := wlanhdrAddrs_fields (length_blankHdr _) h1 h2 h3 h4 hr
  rw [le16At_blankHdr hsub.lt] at hf
  refine HdrFields.patch_above ?_ (by decide) _
  have hmdata := hf.ite_setBits (by rw [hrlen]; decide) (show bit 13 < 65536 by decide) (a.mdata = true)
  have hpriv := hmdata.ite_setBits (by split <;> simp [hrlen, WLANHDR_OFFSET])
    (show bit 14 < 65536 by decide) (a.encrypt ≠ .noPrivacy)
  split
  · exact HdrFields.wlanhdrQos hpriv hhdrlen
  · exact hpriv

theorem getFragNum_patch {p bs : List UInt8} {i : ℕ} (h : 24 ≤ i ∨ i + bs.length ≤ 22) :
    getFragNum (patch p i bs) = getFragNum p := by
  rw [getFragNum, getFragNum, le16At, le16At, byteAt_patch, byteAt_patch, if_neg (by omega), if_neg (by omega)]

theorem getFragNum_setBits {p : List UInt8} {i m : ℕ} (h : 24 ≤ i ∨ i + 2 ≤ 22) :
    getFragNum (setBits p i m) = getFragNum p := getFragNum_patch h

theorem getFragNum_setSeqNum {p : List UInt8} (hlen : 24 ≤ p.length) (num : ℕ) :
    getFragNum (setSeqNum p num) = getFragNum p := by
  have hp := le16At_lt p 22
  have hlow : byteAt (setSeqNum p num) 22 = UInt8.ofNat ((le16At p 22 &&& 0x000f) ||| (0xfff0 &&& (num * 16))) := by
    rw [setSeqNum, byteAt_patch, if_pos ⟨le_refl _,by simp,by omega⟩]
    rfl
  have hmask : (le16At p 22 &&& 0x000f ||| 0xfff0 &&& num * 16) % 16 = le16At p 22 % 16 := by
    have h1 : le16At p 22 &&& 0x000f = le16At p 22 % 16 := Nat.and_two_pow_sub_one_eq_mod _ 4
    rw [show (16 : ℕ) = 2 ^ 4 from rfl, Nat.or_mod_two_pow, Nat.and_mod_two_pow, Nat.and_mod_two_pow]
    have h2 : num * 2 ^ 4 % 2 ^ 4 = 0 := Nat.mul_mod_left _ _
    rw [h2]
    simp only [Nat.and_zero, Nat.or_zero]
    exact Nat.and_two_pow_sub_one_of_lt_two_pow (Nat.mod_lt _ (by decide))
  rw [getFragNum, le16At, hlow, UInt8.toNat_ofNat', getFragNum]
  omega

theorem getFragNum_wlanhdrAddrs {ad : XmitAdapter} {a : PktAttrib} {hdr : List UInt8} {r : List UInt8 × Bool}
    (h1 : a.dst.length = ETH_ALEN) (h2 : a.src.length = ETH_ALEN) (h3 : a.ta.length = ETH_ALEN)
    (h4 : ad.bssid.length = ETH_ALEN) (h : wlanhdrAddrs ad a hdr = some r) :
    getFragNum r.1 = getFragNum hdr ∧ r.2 = qosHeader ad a := by
  have haddrs : ∀ (p : List UInt8) (a1 a2 a3 : MacAddr), a1.length = ETH_ALEN → a2.length = ETH_ALEN →
      a3.length = ETH_ALEN → getFragNum (patch (patch (patch p 4 a1) 10 a2) 16 a3) = getFragNum p := by
    intro p a1 a2 a3 ha1 ha2 ha3
    rw [getFragNum_patch (by rw [ha3]; decide), getFragNum_patch (by rw [ha2]; decide),
      getFragNum_patch (by rw [ha1]; decide)]
  rw [wlanhdrAddrs] at h
  dsimp only at h
  rw [qosHeader]
  split_ifs at h ⊢
  · cases h
    exact ⟨(haddrs _ _ _ _ h4 h3 h1).trans (getFragNum_setBits (by decide)),rfl⟩
  · cases h
    exact ⟨(haddrs _ _ _ _ h1 h4 h2).trans (getFragNum_setBits (by decide)),rfl⟩
  · cases h
    exact ⟨haddrs _ _ _ _ h1 h3 h4,rfl⟩

theorem getFragNum_wlanhdrQos {a : PktAttrib} (h : 26 ≤ a.hdrlen) (p : List UInt8) :
    getFragNum (wlanhdrQos a p) = getFragNum p := by
  have hbits : ∀ (q : List UInt8) m, getFragNum (setBits q (a.hdrlen - 2) m) = getFragNum q :=
    fun q m => getFragNum_setBits (Or.inl (by omega))
  rw [wlanhdrQos]
  split
  · rw [hbits, hbits, hbits]
  · rw [hbits, hbits]

theorem getFragNum_rtwMakeWlanhdr {ad : XmitAdapter} {a : PktAttrib} {hdr : List UInt8} {psta : Option StaInfo}
    (hqos : qosHeader ad a = true → 26 ≤ a.hdrlen) (h1 : a.dst.length = ETH_ALEN) (h2 : a.src.length = ETH_ALEN)
    (h3 : a.ta.length = ETH_ALEN) (h4 : ad.bssid.length = ETH_ALEN) (h : rtwMakeWlanhdr ad a = some (hdr,psta)) :
    getFragNum hdr = 0 := by
  have hblank : getFragNum (blankHdr a.subtype) = 0 := by
    rw [blankHdr, setFrameSubType, getFragNum_patch (by simp)]
    decide
  by_cases hsub : a.subtype &&& WIFI_DATA_TYPE = 0
  · rw [rtwMakeWlanhdr, ← blankHdr] at h
    dsimp only at h
    rw [if_pos hsub] at h
    cases h
    exact hblank
  · obtain ⟨r,seq,hr,hrlen,rfl⟩ := rtwMakeWlanhdr_data hsub h
    obtain ⟨hfrag,hq⟩ := getFragNum_wlanhdrAddrs h1 h2 h3 h4 hr
    have hflags : getFragNum (wlanhdrFlags a r.1) = getFragNum r.1 := by
      have hbits : ∀ p : List UInt8, getFragNum (setMData p) = getFragNum p ∧
          getFragNum (setPrivacy p) = getFragNum p :=
        fun p => ⟨getFragNum_setBits (by decide),getFragNum_setBits (by decide)⟩
      rw [wlanhdrFlags]
      split_ifs <;> simp only [hbits]
    rw [getFragNum_setSeqNum (by split_ifs <;> simp [hrlen, WLANHDR_OFFSET]), ← hblank, ← hfrag, ← hflags]
    split
    · rename_i hset
      exact getFragNum_wlanhdrQos (hqos (hq ▸ hset)) _
    · rfl

/-- The frame control field of the last fragment -/
def lastCtl (subtype ds : ℕ) (mdata : Bool) (encrypt : EncryAlgo) : ℕ :=
  (sentCtl subtype ds mdata encrypt ||| bit 10) &&& 0xfbff

theorem lastCtl_bits {subtype ds : ℕ} (mdata : Bool) (encrypt : EncryAlgo) (hsub : IsDataSubtype subtype)
    (hds : ds = bit 8 ∨ ds = bit 9 ∨ ds = 0) :
    (lastCtl subtype ds mdata encrypt).testBit 8 = decide (ds = bit 8) ∧
      (lastCtl subtype ds mdata encrypt).testBit 9 = decide (ds = bit 9) ∧
      (lastCtl subtype ds mdata encrypt).testBit 10 = false ∧
      (lastCtl subtype ds mdata encrypt).testBit 14 = decide (encrypt ≠ .noPrivacy) ∧
      (lastCtl subtype ds mdata encrypt).testBit 15 = false ∧
      (lastCtl subtype ds mdata encrypt &&& 0xfc).testBit 7 = decide (subtype = WIFI_QOS_DATA_TYPE) := by
  rw [lastCtl, sentCtl]
  by_cases henc : encrypt ≠ .noPrivacy
  · rw [if_pos henc, decide_eq_true henc]
    rcases hsub with rfl | rfl <;> rcases hds with rfl | rfl | rfl <;> cases mdata <;> decide
  · rw [if_neg henc, decide_eq_false henc]
    rcases hsub with rfl | rfl <;> rcases hds with rfl | rfl | rfl <;> cases mdata <;> decide

theorem HdrFields.lastFragment {hdr : List UInt8} {subtype ds : ℕ} {mdata : Bool} {encrypt : EncryAlgo}
    {a1 a2 a3 : MacAddr} (hf : HdrFields hdr (sentCtl subtype ds mdata encrypt) a1 a2 a3) {k : ℕ} (hk : 22 ≤ k)
    (hlen : k ≤ hdr.length) :
    HdrFields (clearMFrag (setMFrag (hdr.take k))) (lastCtl subtype ds mdata encrypt) a1 a2 a3 := by
  have hcut : (hdr.take k).length = k := by
    rw [List.length_take]
    omega
  have hset := (hf.take hk).setBits (by rw [hcut]; omega) (show bit 10 < 65536 by decide)
  rw [clearMFrag, setMFrag, hset.ctl]
  refine hset.setCtl (by rw [length_setBits, hcut]; omega) ?_
  exact Nat.lt_of_le_of_lt Nat.and_le_right (by decide)

theorem sentAddrs_ds (ad : XmitAdapter) (a : PktAttrib) :
    (sentAddrs ad a).1 = bit 8 ∨ (sentAddrs ad a).1 = bit 9 ∨ (sentAddrs ad a).1 = 0 := by
  rw [sentAddrs]
  split_ifs
  · exact Or.inl rfl
  · exact Or.inr (Or.inl rfl)
  · exact Or.inr (Or.inr rfl)

/-- The source address of a frame: the third address, or the transmitter -/
def sentSource (ad : XmitAdapter) (a : PktAttrib) : MacAddr :=
  if ad.stationState then a.ta else if ad.apState then a.src else a.ta

theorem getToFrDs_sent {ad : XmitAdapter} {a : PktAttrib} {p : List UInt8} (hsub : IsDataSubtype a.subtype)
    (hctl : le16At p 0 = lastCtl a.subtype (sentAddrs ad a).1 a.mdata a.encrypt) :
    getToFrDs p = if ad.stationState then 2 else if ad.apState then 1 else 0 := by
  obtain ⟨h8,h9,-⟩ := lastCtl_bits a.mdata a.encrypt hsub (sentAddrs_ds ad a)
  rw [← hctl] at h8 h9
  rw [getToFrDs, getToDs, getFrDs, h8, h9, sentAddrs]
  split_ifs <;> rfl

/-- The attributes that the header of a frame gives back -/
theorem parseDataHdr_sent {ad : XmitAdapter} {a : PktAttrib} {f : RecvFrame} (hsub : IsDataSubtype a.subtype)
    (hf : HdrFields f.buf.ptr (lastCtl a.subtype (sentAddrs ad a).1 a.mdata a.encrypt) (sentAddrs ad a).2.1
      (sentAddrs ad a).2.2.1 (sentAddrs ad a).2.2.2) :
    (parseDataHdr f).attrib.dst = a.dst ∧ (parseDataHdr f).attrib.src = sentSource ad a ∧
      (parseDataHdr f).attrib.hdrlen =
        if a.subtype = WIFI_QOS_DATA_TYPE then WLAN_HDR_A3_QOS_LEN else WLAN_HDR_A3_LEN := by
  obtain ⟨-,-,-,-,h15,h7⟩ := lastCtl_bits a.mdata a.encrypt hsub (sentAddrs_ds ad a)
  rw [← hf.ctl] at h15 h7
  have htofr := getToFrDs_sent hsub hf.ctl
  have hlen : (parseDataHdr f).attrib.hdrlen =
      dataHdrlen (getToFrDs f.buf.ptr) ((getFrameSubType f.buf.ptr).testBit 7) (getOrder f.buf.ptr) := rfl
  have hdst : (parseDataHdr f).attrib.dst = getDa f.buf.ptr := rfl
  have hsrc : (parseDataHdr f).attrib.src = getSa f.buf.ptr := rfl
  obtain ⟨-,ha1,ha2,ha3⟩ := hf
  rw [hdst, hsrc, hlen, getDa, getSa, getFrameSubType, h7, getOrder, h15, htofr, sentSource]
  rw [sentAddrs] at ha1 ha2 ha3
  refine ⟨?_,?_,?_⟩
  · split_ifs at ha1 ha2 ha3 ⊢
    · exact ha3
    · exact ha1
    · exact ha1
  · split_ifs at ha1 ha2 ha3 ⊢
    · exact ha2
    · exact ha3
    · exact ha2
  · rw [dataHdrlen]
    split_ifs <;> simp_all

/-- The receiver takes the first two addresses for those of receiver and transmitter. -/
theorem parseDataHdr_link {ad : XmitAdapter} {a : PktAttrib} {f : RecvFrame} (hsub : IsDataSubtype a.subtype)
    (hf : HdrFields f.buf.ptr (lastCtl a.subtype (sentAddrs ad a).1 a.mdata a.encrypt) (sentAddrs ad a).2.1
      (sentAddrs ad a).2.2.1 (sentAddrs ad a).2.2.2) :
    (parseDataHdr f).attrib.ra = (sentAddrs ad a).2.1 ∧ (parseDataHdr f).attrib.ta = (sentAddrs ad a).2.2.1 ∧
      (parseDataHdr f).attrib.mfrag = false ∧
      (parseDataHdr f).attrib.privacy = decide (a.encrypt ≠ .noPrivacy) := by
  obtain ⟨-,-,h10,h14,-,-⟩ := lastCtl_bits a.mdata a.encrypt hsub (sentAddrs_ds ad a)
  rw [← hf.ctl] at h10 h14
  have htofr := getToFrDs_sent hsub hf.ctl
  refine ⟨?_,?_,h10,h14⟩
  · change dataRa (getToFrDs f.buf.ptr) f.buf.ptr = _
    rw [← hf.addr1, htofr]
    unfold dataRa getDa getHdrBssid
    rw [htofr]
    split_ifs <;> rfl
  · change dataTa (getToFrDs f.buf.ptr) f.buf.ptr = _
    rw [← hf.addr2, htofr]
    unfold dataTa getSa getHdrBssid
    rw [htofr]
    split_ifs <;> rfl

theorem byteAt_setBits_below {p : List UInt8} {i j m : ℕ} (h : i + 2 ≤ j) :
    byteAt (setBits p i m) j = byteAt p j := by
  rw [setBits, byteAt_patch, if_neg (by rw [length_le16Bytes]; omega)]

/-- Nothing is in the place of the priority before the QoS control field is written. -/
theorem byteAt_wlanhdrFlags {ad : XmitAdapter} {a : PktAttrib} {r : List UInt8 × Bool}
    (h1 : a.dst.length = ETH_ALEN) (h2 : a.src.length = ETH_ALEN) (h3 : a.ta.length = ETH_ALEN)
    (h4 : ad.bssid.length = ETH_ALEN) (hr : wlanhdrAddrs ad a (blankHdr a.subtype) = some r) :
    byteAt (wlanhdrFlags a r.1) 24 = 0 := by
  have hblank : byteAt (blankHdr a.subtype) 24 = 0 := by
    rw [blankHdr, setFrameSubType, byteAt_patch, if_neg (by simp)]
    decide
  have haddrs : ∀ (p : List UInt8) (a1 a2 a3 : MacAddr), a1.length = ETH_ALEN → a2.length = ETH_ALEN →
      a3.length = ETH_ALEN → byteAt (patch (patch (patch p 4 a1) 10 a2) 16 a3) 24 = byteAt p 24 := by
    intro p a1 a2 a3 ha1 ha2 ha3
    simp [byteAt_patch, ha1, ha2, ha3, ETH_ALEN]
  have hflags : byteAt (wlanhdrFlags a r.1) 24 = byteAt r.1 24 := by
    have hbits : ∀ p : List UInt8, byteAt (setMData p) 24 = byteAt p 24 ∧ byteAt (setPrivacy p) 24 = byteAt p 24 :=
      fun p => ⟨byteAt_setBits_below (by decide),byteAt_setBits_below (by decide)⟩
    rw [wlanhdrFlags]
    split_ifs <;> simp only [hbits]
  rw [hflags, ← hblank]
  rw [wlanhdrAddrs] at hr
  dsimp only at hr
  split_ifs at hr
  · cases hr
    exact (haddrs _ _ _ _ h4 h3 h1).trans (byteAt_setBits_below (by decide))
  · cases hr
    exact (haddrs _ _ _ _ h1 h4 h2).trans (byteAt_setBits_below (by decide))
  · cases hr
    exact haddrs _ _ _ _ h1 h3 h4

theorem le16At_wlanhdrQos {a : PktAttrib} {p : List UInt8} (hlen : 26 ≤ p.length) (hhdrlen : a.hdrlen = 26)
    (hzero : byteAt p 24 = 0) : le16At (wlanhdrQos a p) 24 % 16 = a.priority % 16 := by
  have hle : a.hdrlen - 2 = 24 := by rw [hhdrlen]
  have hp0 : le16At p 24 % 16 = 0 := by
    rw [le16At, hzero]
    change (0 + 256 * _) % 16 = 0
    omega
  have hbit : ∀ (q : List UInt8) m, q.length = p.length → m < 65536 →
      le16At (setBits q 24 m) 24 % 16 = (le16At q 24 % 16) ||| (m % 16) := by
    intro q m hq hm
    rw [le16At_setBits (by omega) hm]
    exact Nat.or_mod_two_pow (n := 4)
  have heosp : (if a.eosp then 16 else 0) < 65536 ∧ (if a.eosp then 16 else 0) % 16 = 0 := by
    split <;> decide
  rw [wlanhdrQos, hle]
  rw [hbit _ _ (by split <;> simp) (by omega), hbit _ _ (by split <;> simp) heosp.1, heosp.2]
  have hack : a.ackPolicy % 4 * 32 % 16 = 0 := by omega
  rw [hack, Nat.or_zero, Nat.or_zero]
  split
  · rw [hbit _ _ rfl (by omega), hp0, Nat.zero_or, Nat.mod_mod]
  · rename_i hprio
    rw [hp0, not_not.mp hprio]

theorem rtwMakeWlanhdr_priority {ad : XmitAdapter} {a : PktAttrib} {hdr : List UInt8} {psta : Option StaInfo}
    (hsub : IsDataSubtype a.subtype) (hqos : qosHeader ad a = true) (hhdrlen : a.hdrlen = 26)
    (h1 : a.dst.length = ETH_ALEN) (h2 : a.src.length = ETH_ALEN) (h3 : a.ta.length = ETH_ALEN)
    (h4 : ad.bssid.length = ETH_ALEN) (h : rtwMakeWlanhdr ad a = some (hdr,psta)) :
    le16At hdr 24 % 16 = a.priority % 16 := by
  obtain ⟨r,seq,hr,hrlen,rfl⟩ := rtwMakeWlanhdr_data hsub.and_data h
  have hset : r.2 = true := (getFragNum_wlanhdrAddrs h1 h2 h3 h4 hr).2.trans hqos
  have hseq : ∀ p : List UInt8, le16At (setSeqNum p seq) 24 = le16At p 24 := by
    intro p
    rw [le16At, le16At, setSeqNum, byteAt_patch, byteAt_patch, if_neg (by simp), if_neg (by simp)]
  rw [hseq, if_pos hset]
  exact le16At_wlanhdrQos (by rw [length_wlanhdrFlags, hrlen]; decide) hhdrlen (byteAt_wlanhdrFlags h1 h2 h3 h4 hr)

end Rtl8188fu
