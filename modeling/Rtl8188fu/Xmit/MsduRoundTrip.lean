import Rtl8188fu.Xmit.WlanHdrFields

/-! # From an Ethernet frame to a data frame and back

A packet that fits one fragment is built into a data frame with the attributes of
`update_attrib`. Whatever becomes of it on the way, it is received with its payload
decrypted; its attributes are then those of its header.
-/
namespace Rtl8188fu
open Bytes

theorem rtwMakeWlanhdr_isSome {ad : XmitAdapter} {a : PktAttrib} (hsub : IsDataSubtype a.subtype)
    (hmode : ad.stationState = true ∨ ad.apState = true ∨ ad.adhocState = true) (hpsta : a.psta = staKey a.ra)
    (hsta : ∃ t ∈ rtwGetStainfo ad.stapriv a.ra, t.fwLinked = true) : ∃ r, rtwMakeWlanhdr ad a = some r := by
  have hsub0 : a.subtype &&& WIFI_DATA_TYPE ≠ 0 := by
    rcases hsub with hs | hs <;> rw [hs] <;> decide
  obtain ⟨t,ht,hlink⟩ := hsta
  have haddrs : ∀ hdr, ∃ r, wlanhdrAddrs ad a hdr = some r := by
    intro hdr
    rw [wlanhdrAddrs]
    dsimp only
    split_ifs with h1 h2 h3
    · exact ⟨_,rfl⟩
    · exact ⟨_,rfl⟩
    · exact ⟨_,rfl⟩
    · simp [h1, h2, h3] at hmode
  obtain ⟨r,hr⟩ := haddrs (setFrameSubType (List.replicate WLANHDR_OFFSET 0) a.subtype)
  rw [rtwMakeWlanhdr]
  dsimp only
  rw [if_neg hsub0, hr]
  dsimp only
  rw [if_neg (not_not_intro hpsta), ht]
  dsimp only
  rw [if_neg (by simp [hlink])]
  exact ⟨_,rfl⟩

/-- A fragment as it is received, decrypted, with its check value still behind the payload -/
structure ReceivedAs (a : PktAttrib) (t : TxFragment) (f : RecvFrame) : Prop where
  payload : ∃ icv : List UInt8, icv.length = a.icvLen ∧ f.buf.payload = t.hdr ++ t.iv ++ t.body ++ icv
  encrypt : f.attrib.encrypt = a.encrypt
  ivLen : f.attrib.ivLen = a.ivLen
  icvLen : f.attrib.icvLen = a.icvLen

/-- The received frame becomes the packet, with `src` for the source. -/
def BecomesPacket (src : MacAddr) (pkt : List UInt8) (f : RecvFrame) : Prop :=
  ∃ g, wlanhdrToEthhdr (parseDataHdr f) = some g ∧ g.attrib.ethType = be16At pkt 12 ∧
    g.buf.payload = slice pkt 0 ETH_ALEN ++ src ++ pkt.drop (ETH_ALEN + ETH_ALEN)

/-- The source that a packet arrives with: a frame of a station has no room for another one -/
def ethSource (ad : XmitAdapter) (pkt : List UInt8) : MacAddr :=
  if ad.apState then slice pkt ETH_ALEN ETH_ALEN else ad.macAddr

theorem be16Bytes_append_drop {pkt : List UInt8} (h : ETH_HLEN ≤ pkt.length) :
    be16Bytes (be16At pkt 12) ++ pkt.drop ETH_HLEN = pkt.drop (ETH_ALEN + ETH_ALEN) := by
  rw [ETH_HLEN] at h
  rw [be16Bytes_be16At, byteAt, byteAt, List.getD_eq_getElem _ _ (by omega), List.getD_eq_getElem _ _ (by omega)]
  change _ = pkt.drop 12
  rw [List.drop_eq_getElem_cons (by omega : 12 < pkt.length),
    List.drop_eq_getElem_cons (by omega : 12 + 1 < pkt.length)]
  rfl

theorem sentSource_eq {ad : XmitAdapter} {a : PktAttrib} {pkt : List UInt8} (hmode : OneMode ad)
    (ha : AttribOf ad pkt a) : sentSource ad a = ethSource ad pkt := by
  rw [OneMode] at hmode
  rw [sentSource, ethSource]
  cases hs : ad.stationState <;> cases hp : ad.apState <;> cases hi : ad.adhocState <;> simp [hs, hp, hi] at hmode
  · exact ha.taSta hp (Or.inr hi)
  · exact ha.src
  · exact ha.taSta hp (Or.inl hs)

theorem length_ta {ad : XmitAdapter} {a : PktAttrib} {pkt : List UInt8} (hmode : OneMode ad)
    (hmac : ad.macAddr.length = ETH_ALEN) (hbssid : ad.bssid.length = ETH_ALEN) (ha : AttribOf ad pkt a) :
    a.ta.length = ETH_ALEN := by
  rw [OneMode] at hmode
  cases hs : ad.stationState <;> cases hp : ad.apState <;> cases hi : ad.adhocState <;> simp [hs, hp, hi] at hmode
  · rw [ha.taSta hp (Or.inr hi), hmac]
  · rw [ha.taAp hp hs hi, hbssid]
  · rw [ha.taSta hp (Or.inl hs), hmac]

/-- What is received of a fragment with all of a packet becomes the packet. -/
theorem becomesPacket {ad : XmitAdapter} {a : PktAttrib} {pkt hdr : List UInt8} {t : TxFragment} {f : RecvFrame}
    (hmac : ad.macAddr.length = ETH_ALEN) (hmode : OneMode ad) (hpkt : ETH_HLEN ≤ pkt.length) (ha : AttribOf ad pkt a)
    (hhdr : HdrFields hdr (sentCtl a.subtype (sentAddrs ad a).1 a.mdata a.encrypt) (sentAddrs ad a).2.1
      (sentAddrs ad a).2.2.1 (sentAddrs ad a).2.2.2) (hlen : hdr.length = WLANHDR_OFFSET)
    (ht : t.hdr = clearMFrag (setMFrag (hdr.take a.hdrlen)) ∧ t.iv = a.iv.take a.ivLen ∧
      t.body = rtwPutSnap a.etherType ++ pkt.drop ETH_HLEN)
    (hf : ReceivedAs a t f) : BecomesPacket (ethSource ad pkt) pkt f := by
  have hhdrlen : 24 ≤ a.hdrlen ∧ a.hdrlen ≤ 26 := by
    rw [ha.hdrlen]
    split <;> exact ⟨by decide,by decide⟩
  obtain ⟨hthdr,htiv,htbody⟩ := ht
  have htake : (hdr.take a.hdrlen).length = a.hdrlen := by
    rw [List.length_take, hlen, WLANHDR_OFFSET]
    omega
  have hthlen : t.hdr.length = a.hdrlen := by
    rw [hthdr, clearMFrag, length_patch, setMFrag, length_setBits, htake]
  have hfields : HdrFields t.hdr (lastCtl a.subtype (sentAddrs ad a).1 a.mdata a.encrypt) (sentAddrs ad a).2.1
      (sentAddrs ad a).2.2.1 (sentAddrs ad a).2.2.2 := by
    rw [hthdr]
    exact hhdr.lastFragment (by omega) (by rw [hlen, WLANHDR_OFFSET]; omega)
  obtain ⟨icv,hicv,hpay⟩ := hf.payload
  have hptr : f.buf.ptr.take 22 = t.hdr.take 22 := by
    rw [List.append_assoc, List.append_assoc] at hpay
    exact RxBuf.take_ptr hpay (by omega)
  obtain ⟨hdst,hsrc,hparse⟩ := parseDataHdr_sent ha.subtype (hfields.congr hptr)
  have hwhole : (dropIcv (parseDataHdr f)).payload = t.hdr ++ t.iv ++ rtwPutSnap a.etherType ++ pkt.drop ETH_HLEN := by
    have hsame : (parseDataHdr f).buf.payload =
        t.hdr ++ t.iv ++ rtwPutSnap a.etherType ++ pkt.drop ETH_HLEN ++ icv := by
      change f.buf.payload = _
      rw [hpay, htbody]
      simp
    apply payload_dropIcv hsame
    change icv.length = if f.attrib.encrypt ≠ .noPrivacy then f.attrib.icvLen else 0
    rw [hf.encrypt, hf.icvLen, hicv]
    split
    · rfl
    · rename_i henc
      exact ha.icv (not_not.mp henc)
  have hoff : (t.hdr ++ t.iv).length = (parseDataHdr f).attrib.hdrlen + (parseDataHdr f).attrib.ivLen := by
    change _ = _ + f.attrib.ivLen
    rw [List.length_append, hparse, hthlen, ← ha.hdrlen, hf.ivLen, htiv, ha.iv]
  have haddr : ∀ i, i + ETH_ALEN ≤ 14 → (slice pkt i ETH_ALEN).length = ETH_ALEN := by
    intro i hi
    exact length_slice_of_le (Nat.le_trans hi hpkt)
  have hsource : (ethSource ad pkt).length = ETH_ALEN := by
    rw [ethSource]
    split
    · exact haddr _ (by decide)
    · exact hmac
  rw [ha.dst] at hdst
  rw [sentSource_eq hmode ha] at hsrc
  have htype : a.etherType < 65536 := ha.etherType ▸ be16At_lt pkt 12
  obtain ⟨g,hg,hattr,hbytes⟩ := wlanhdrToEthhdr_snap htype hwhole hoff
    (by rw [List.length_append, hthlen]; omega) (by rw [hdst]; exact haddr _ (by decide)) (by rw [hsrc]; exact hsource)
  refine ⟨g,hg,?_,?_⟩
  · rw [hattr, ha.etherType]
  · rw [hbytes, hdst, hsrc, ha.etherType, be16Bytes_append_drop hpkt]

theorem xmitframeCoalesce_fits {ad : XmitAdapter} {a : PktAttrib} {pkt : List UInt8} (hmode : OneMode ad)
    (hmac : ad.macAddr.length = ETH_ALEN) (hbssid : ad.bssid.length = ETH_ALEN) (hpkt : ETH_HLEN ≤ pkt.length)
    (ha : AttribOf ad pkt a) (hone : FitsOneFragment a ad.fragLen (pkt.drop ETH_HLEN))
    (hsta : ∃ t ∈ rtwGetStainfo ad.stapriv a.ra, t.fwLinked = true) (hw fuel : ℕ) :
    ∃ t sta, xmitframeCoalesce ad a hw (fuel + 1) pkt = some ([t],sta) ∧
      ∀ f, ReceivedAs a t f → BecomesPacket (ethSource ad pkt) pkt f := by
  have hsome : ad.stationState = true ∨ ad.apState = true ∨ ad.adhocState = true := by
    rw [OneMode] at hmode
    cases hs : ad.stationState <;> cases hp : ad.apState <;> cases hi : ad.adhocState <;> simp_all
  have haddr : ∀ i, i + ETH_ALEN ≤ 14 → (slice pkt i ETH_ALEN).length = ETH_ALEN := by
    intro i hi
    exact length_slice_of_le (Nat.le_trans hi hpkt)
  obtain ⟨⟨hdr,sta⟩,hhdr⟩ := rtwMakeWlanhdr_isSome ha.subtype hsome ha.psta hsta
  have hfields := rtwMakeWlanhdr_fields ha.subtype (by rw [ha.hdrlen]; split <;> decide)
    (by rw [ha.dst]; exact haddr _ (by decide)) (by rw [ha.src]; exact haddr _ (by decide))
    (length_ta hmode hmac hbssid ha) hbssid hhdr
  have hread : readPayload a ad.fragLen true (pkt.drop ETH_HLEN) = pkt.drop ETH_HLEN :=
    readPayload_fits hone (by rw [ha.pktlen, List.length_drop])
  have hco : xmitframeCoalesce ad a hw (fuel + 1) pkt =
      some ([{ start := hw
               hdr := clearMFrag (setMFrag (hdr.take a.hdrlen))
               iv := a.iv.take a.ivLen
               body := rtwPutSnap a.etherType ++ pkt.drop ETH_HLEN
               icv := a.icv.take (swIcvLen a) }],sta) := by
    rw [xmitframeCoalesce, hhdr]
    dsimp only
    rw [ha.pktHdrlen, coalesceLoop_fits hone, hread]
    rfl
  refine ⟨_,sta,hco,?_⟩
  intro f hf
  exact becomesPacket hmac hmode hpkt ha hfields (rtwMakeWlanhdr_spec hhdr).1 ⟨rfl,rfl,rfl⟩ hf

/-- A packet that fits one fragment goes out as one frame; received with the attributes of its
header it becomes the packet, with the source that its direction leaves room for. -/
theorem msdu_round_trip {ad : XmitAdapter} {acmMask : ℕ} {a₀ a : PktAttrib} {psta : StaInfo} {pkt : List UInt8}
    (hmode : OneMode ad) (hmac : ad.macAddr.length = ETH_ALEN) (hbssid : ad.bssid.length = ETH_ALEN)
    (hpkt : ETH_HLEN ≤ pkt.length) (hattr : updateAttrib ad acmMask a₀ pkt = some (a,psta))
    (hone : FitsOneFragment a ad.fragLen (pkt.drop ETH_HLEN)) (stapriv : StaPriv) (mdata eosp : Bool) (hw fuel : ℕ)
    (hsta : ∃ t ∈ rtwGetStainfo stapriv a.ra, t.fwLinked = true) :
    ∃ t sta, xmitframeCoalesce { ad with stapriv := stapriv }
        { a with mdata := mdata, eosp := eosp } hw (fuel + 1) pkt = some ([t],sta) ∧
      ∀ f, ReceivedAs a t f → BecomesPacket (ethSource ad pkt) pkt f := by
  have ha : AttribOf { ad with stapriv := stapriv } pkt { a with mdata := mdata, eosp := eosp } :=
    { updateAttrib_spec hattr with }
  obtain ⟨t,sta,hco,hrecv⟩ := @xmitframeCoalesce_fits { ad with stapriv := stapriv }
    { a with mdata := mdata, eosp := eosp } pkt hmode hmac hbssid hpkt ha hone hsta hw fuel
  refine ⟨t,sta,hco,?_⟩
  intro f hf
  exact hrecv f ⟨hf.payload,hf.encrypt,hf.ivLen,hf.icvLen⟩

/-- The attributes before `update_attrib` -/
def blankAttrib : PktAttrib where
  subtype := 0
  dst := []
  src := []
  ta := []
  ra := []
  psta := []
  etherType := 0
  hdrlen := 0
  pktHdrlen := 0
  pktlen := 0
  priority := 0
  qosEn := false
  eosp := false
  ackPolicy := 0
  mdata := false
  encrypt := .noPrivacy
  keyIdx := 0
  ivLen := 0
  icvLen := 0
  iv := List.replicate 18 0
  icv := List.replicate 16 0
  bswenc := false
  dot11tkiptxmickey := []
  dot118021xUncstKey := []

/-- A station that is linked to a WPA2 access point and uses QoS -/
def linkedStation : XmitAdapter where
  sec := wpaSecurity
  stapriv := fun a => if a = apAddr then some ccmpPeer else none
  stationState := true
  apState := false
  adhocState := false
  mpState := false
  bssid := apAddr
  macAddr := ownAddr
  qosOption := true
  fragLen := 2346

def aarpPacket (src : MacAddr) : List UInt8 :=
  [2, 0, 0, 0, 0, 7] ++ src ++ [0x80, 0xf3] ++ [0xaa, 0xaa, 3, 0, 0, 0, 8, 0]

theorem msdu_round_trip_aarp :
    ∃ a psta t sta, updateAttrib linkedStation 0 blankAttrib (aarpPacket ownAddr) = some (a,psta) ∧
      xmitframeCoalesce linkedStation a 40 1 (aarpPacket ownAddr) = some ([t],sta) ∧
      ∀ f, ReceivedAs a t f → BecomesPacket ownAddr (aarpPacket ownAddr) f := by
  have hsome : (updateAttrib linkedStation 0 blankAttrib (aarpPacket ownAddr)).isSome = true := by decide +kernel
  have hfits : ∀ r ∈ updateAttrib linkedStation 0 blankAttrib (aarpPacket ownAddr),
      FitsOneFragment r.1 2346 ((aarpPacket ownAddr).drop ETH_HLEN) ∧ r.1.ra = apAddr := by decide +kernel
  obtain ⟨⟨a,psta⟩,hattr⟩ := Option.isSome_iff_exists.mp hsome
  obtain ⟨hone,hra⟩ := hfits _ hattr
  dsimp only at hone hra
  have hsta : ∃ t ∈ rtwGetStainfo linkedStation.stapriv a.ra, t.fwLinked = true := by
    rw [hra]
    exact ⟨ccmpPeer,rfl,rfl⟩
  obtain ⟨t,sta,hco,hrecv⟩ := msdu_round_trip (by decide) (by decide) (by decide) (by decide) hattr hone
    linkedStation.stapriv a.mdata a.eosp 40 0 hsta
  exact ⟨a,psta,t,sta,hattr,hco,hrecv⟩

/-- A frame in memory that carries a fragment -/
def receivedFragment (a : PktAttrib) (t : TxFragment) : RecvFrame :=
  let bytes := t.hdr ++ t.iv ++ t.body ++ List.replicate a.icvLen 0
  let f := plainFrame 0 0 false
  { f with
    buf := .ofBytes bytes
    attrib := { f.attrib with encrypt := a.encrypt, ivLen := a.ivLen, icvLen := a.icvLen } }

theorem receivedAs_receivedFragment (a : PktAttrib) (t : TxFragment) : ReceivedAs a t (receivedFragment a t) := by
  refine ⟨⟨List.replicate a.icvLen 0,List.length_replicate,?_⟩,rfl,rfl,rfl⟩
  exact slice_full rfl

/-- A station does not send the source of a packet that it bridges: its own address arrives. -/
theorem bridged_source_replaced :
    ∃ a psta t sta f, updateAttrib linkedStation 0 blankAttrib (aarpPacket [2, 0, 0, 0, 0, 9]) = some (a,psta) ∧
      xmitframeCoalesce linkedStation a 40 1 (aarpPacket [2, 0, 0, 0, 0, 9]) = some ([t],sta) ∧ ReceivedAs a t f ∧
      ¬ BecomesPacket [2, 0, 0, 0, 0, 9] (aarpPacket [2, 0, 0, 0, 0, 9]) f := by
  have hsome : (updateAttrib linkedStation 0 blankAttrib (aarpPacket [2, 0, 0, 0, 0, 9])).isSome = true := by
    decide +kernel
  have hfits : ∀ r ∈ updateAttrib linkedStation 0 blankAttrib (aarpPacket [2, 0, 0, 0, 0, 9]),
      FitsOneFragment r.1 2346 ((aarpPacket [2, 0, 0, 0, 0, 9]).drop ETH_HLEN) ∧ r.1.ra = apAddr := by decide +kernel
  obtain ⟨⟨a,psta⟩,hattr⟩ := Option.isSome_iff_exists.mp hsome
  obtain ⟨hone,hra⟩ := hfits _ hattr
  dsimp only at hone hra
  have hsta : ∃ t ∈ rtwGetStainfo linkedStation.stapriv a.ra, t.fwLinked = true := by
    rw [hra]
    exact ⟨ccmpPeer,rfl,rfl⟩
  obtain ⟨t,sta,hco,hrecv⟩ := xmitframeCoalesce_fits (by decide) (by decide) (by decide) (by decide)
    (updateAttrib_spec hattr) hone hsta 40 0
  refine ⟨a,psta,t,sta,receivedFragment a t,hattr,hco,receivedAs_receivedFragment a t,?_⟩
  rintro ⟨g,hg,-,hbytes⟩
  obtain ⟨g',hg',-,hbytes'⟩ := hrecv _ (receivedAs_receivedFragment a t)
  rw [hg] at hg'
  cases hg'
  rw [hbytes] at hbytes'
  exact absurd hbytes' (by decide)

end Rtl8188fu
