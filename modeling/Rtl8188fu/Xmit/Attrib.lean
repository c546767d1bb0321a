import Rtl8188fu.Xmit.SecInfo
import Rtl8188fu.Xmit.WlanHdr

/-! # The attributes of a packet

`update_attrib`, built without TDLS. The power-save and session hints that it takes from the
IP header are left out. A packet is its bytes from the Ethernet header on.
-/
namespace Rtl8188fu
open Bytes

def qosAcm (acmMask priority : ℕ) : ℕ :=
  match priority with
  | 0 | 3 => if acmMask.testBit 1 then 1 else priority
  | 4 | 5 => if acmMask.testBit 2 then 0 else priority
  | 6 | 7 => if acmMask.testBit 3 then 5 else priority
  | _ => priority

/-- `set_qos`: the user priority is in the second byte of an IP header. -/
def setQos (pkt : List UInt8) (a : PktAttrib) : PktAttrib :=
  { a with
    priority := if a.etherType = 0x0800 then (byteAt pkt (ETH_HLEN + 1)).toNat / 32 else 0
    hdrlen := WLAN_HDR_A3_QOS_LEN
    subtype := WIFI_QOS_DATA_TYPE }

/-- The addresses that `update_attrib` takes from the packet and from the network -/
def attribAddrs (ad : XmitAdapter) (a : PktAttrib) (pkt : List UInt8) : PktAttrib :=
  let a := { a with
    etherType := be16At pkt 12
    dst := slice pkt 0 ETH_ALEN
    src := slice pkt ETH_ALEN ETH_ALEN }
  if ad.adhocState then { a with ra := a.dst, ta := ad.macAddr }
  else if ad.stationState then { a with ra := ad.bssid, ta := ad.macAddr }
  else if ad.apState then { a with ra := a.dst, ta := ad.bssid }
  else a

/-- The end of `update_attrib`: header and priority. `acmMask` is `acm_mask`. -/
def attribHdr (ad : XmitAdapter) (acmMask : ℕ) (a : PktAttrib) (pkt : List UInt8) : PktAttrib :=
  let a := { a with
    psta := staKey a.ra
    ackPolicy := 0
    pktHdrlen := ETH_HLEN
    hdrlen := WLAN_HDR_A3_LEN
    subtype := WIFI_DATA_TYPE
    priority := 0 }
  if ad.apState || ad.adhocState then if a.qosEn then setQos pkt a else a
  else if ad.qosOption then
    let a := setQos pkt a
    { a with priority := if acmMask ≠ 0 then qosAcm acmMask a.priority else a.priority }
  else a

/-- `update_attrib`: the attributes and the station with its packet number advanced, `none` for
`_FAIL`. `update_attrib_phy_info` has set `qos_en`. -/
def updateAttrib (ad : XmitAdapter) (acmMask : ℕ) (a : PktAttrib) (pkt : List UInt8) :
    Option (PktAttrib × StaInfo) :=
  let a := attribAddrs ad a pkt
  match rtwGetStainfo ad.stapriv a.ra with
  | none => none
  | some psta =>
    if !psta.fwLinked then none
    else
      (updateAttribSecInfo ad.sec ad.mpState psta { a with pktlen := pkt.length - ETH_HLEN }).map fun r =>
        (attribHdr ad acmMask r.1 pkt, r.2)

/-- A data frame, without or with a QoS control field -/
def IsDataSubtype (subtype : ℕ) : Prop := subtype = WIFI_DATA_TYPE ∨ subtype = WIFI_QOS_DATA_TYPE

/-- What the attributes of a packet have to do with it -/
structure AttribOf (ad : XmitAdapter) (pkt : List UInt8) (a : PktAttrib) : Prop where
  etherType : a.etherType = be16At pkt 12
  dst : a.dst = slice pkt 0 ETH_ALEN
  src : a.src = slice pkt ETH_ALEN ETH_ALEN
  pktlen : a.pktlen = pkt.length - ETH_HLEN
  pktHdrlen : a.pktHdrlen = ETH_HLEN
  psta : a.psta = staKey a.ra
  subtype : IsDataSubtype a.subtype
  hdrlen : a.hdrlen = if a.subtype = WIFI_QOS_DATA_TYPE then WLAN_HDR_A3_QOS_LEN else WLAN_HDR_A3_LEN
  iv : (a.iv.take a.ivLen).length = a.ivLen
  icv : a.encrypt = .noPrivacy → a.icvLen = 0
  taSta : ad.apState = false → ad.stationState = true ∨ ad.adhocState = true → a.ta = ad.macAddr
  taAp : ad.apState = true → ad.stationState = false → ad.adhocState = false → a.ta = ad.bssid
  raSta : ad.stationState = true → ad.adhocState = false → a.ra = ad.bssid
  raDst : ad.stationState = false → ad.apState = true ∨ ad.adhocState = true → a.ra = a.dst

/-- The adapter is a station, an access point or part of an IBSS, and one of these only. -/
def OneMode (ad : XmitAdapter) : Prop :=
  ad.stationState.toNat + ad.apState.toNat + ad.adhocState.toNat = 1

instance (ad : XmitAdapter) : Decidable (OneMode ad) := by
  delta OneMode
  infer_instance

/-- Whether the header has a QoS control field -/
def qosHeader (ad : XmitAdapter) (a : PktAttrib) : Bool := if ad.stationState then ad.qosOption else a.qosEn

theorem attribHdr_frame (ad : XmitAdapter) (acmMask : ℕ) (a : PktAttrib) (pkt : List UInt8) :
    attribHdr ad acmMask a pkt = { a with
        psta := staKey a.ra
        ackPolicy := 0
        pktHdrlen := ETH_HLEN
        hdrlen := (attribHdr ad acmMask a pkt).hdrlen
        subtype := (attribHdr ad acmMask a pkt).subtype
        priority := (attribHdr ad acmMask a pkt).priority } ∧
      IsDataSubtype (attribHdr ad acmMask a pkt).subtype ∧
      (attribHdr ad acmMask a pkt).hdrlen =
        if (attribHdr ad acmMask a pkt).subtype = WIFI_QOS_DATA_TYPE then WLAN_HDR_A3_QOS_LEN else WLAN_HDR_A3_LEN := by
  rw [attribHdr]
  split
  · split
    · exact ⟨rfl,Or.inr rfl,rfl⟩
    · exact ⟨rfl,Or.inl rfl,rfl⟩
  · split
    · exact ⟨rfl,Or.inr rfl,rfl⟩
    · exact ⟨rfl,Or.inl rfl,rfl⟩

theorem attribAddrs_spec (ad : XmitAdapter) (a : PktAttrib) (pkt : List UInt8) :
    ((attribAddrs ad a pkt).etherType = be16At pkt 12 ∧ (attribAddrs ad a pkt).dst = slice pkt 0 ETH_ALEN ∧
      (attribAddrs ad a pkt).src = slice pkt ETH_ALEN ETH_ALEN) ∧
    (ad.apState = false → ad.stationState = true ∨
      ad.adhocState = true → (attribAddrs ad a pkt).ta = ad.macAddr) ∧
    (ad.apState = true → ad.stationState = false → ad.adhocState = false →
      (attribAddrs ad a pkt).ta = ad.bssid) ∧
    (ad.stationState = true → ad.adhocState = false → (attribAddrs ad a pkt).ra = ad.bssid) ∧
    (ad.stationState = false → ad.apState = true ∨ ad.adhocState = true →
      (attribAddrs ad a pkt).ra = (attribAddrs ad a pkt).dst) := by
  rw [attribAddrs]
  dsimp only
  split
  · rename_i hadhoc
    exact ⟨⟨rfl,rfl,rfl⟩,fun _ _ => rfl,fun _ _ h => (by rw [hadhoc] at h; cases h),
      fun _ h => (by rw [hadhoc] at h; cases h),fun _ _ => rfl⟩
  · rename_i hadhoc
    split
    · rename_i hsta
      exact ⟨⟨rfl,rfl,rfl⟩,fun _ _ => rfl,fun _ h => (by rw [hsta] at h; cases h),fun _ _ => rfl,
        fun h => (by rw [hsta] at h; cases h)⟩
    · rename_i hsta
      split
      · rename_i hap
        exact ⟨⟨rfl,rfl,rfl⟩,fun h => (by rw [hap] at h; cases h),fun _ _ _ => rfl,fun h =>
          absurd h hsta,fun _ _ => rfl⟩
      · rename_i hap
        refine ⟨⟨rfl,rfl,rfl⟩,?_,fun h => absurd h hap,fun h => absurd h hsta,?_⟩
        · rintro - (h | h)
          · exact absurd h hsta
          · exact absurd h hadhoc
        · rintro - (h | h)
          · exact absurd h hap
          · exact absurd h hadhoc

theorem updateAttrib_spec {ad : XmitAdapter} {acmMask : ℕ} {a₀ a : PktAttrib} {pkt : List UInt8} {psta : StaInfo}
    (h : updateAttrib ad acmMask a₀ pkt = some (a,psta)) : AttribOf ad pkt a := by
  rw [updateAttrib] at h
  split at h
  · cases h
  · split at h
    · cases h
    · obtain ⟨r,hr,hra⟩ := Option.map_eq_some_iff.mp h
      obtain ⟨hsec,hiv,hicv⟩ := updateAttribSecInfo_frame hr
      obtain ⟨hhdr,hsub,hlen⟩ := attribHdr_frame ad acmMask r.1 pkt
      obtain ⟨⟨htype,hdst,hsrc⟩,hta,htaAp,hra1,hra2⟩ := attribAddrs_spec ad a₀ pkt
      cases hra
      have hkeep : ∀ {β : Type} (p : PktAttrib → β), p (attribHdr ad acmMask r.1 pkt) = p r.1 →
          p r.1 = p { attribAddrs ad a₀ pkt with pktlen := pkt.length - ETH_HLEN } →
          p (attribHdr ad acmMask r.1 pkt) = p { attribAddrs ad a₀ pkt with pktlen := pkt.length - ETH_HLEN } :=
        fun _ h1 h2 => h1.trans h2
      have hdst' := hkeep (·.dst) (by rw [hhdr]) (by rw [hsec])
      have hra' := hkeep (·.ra) (by rw [hhdr]) (by rw [hsec])
      have hta' := hkeep (·.ta) (by rw [hhdr]) (by rw [hsec])
      exact
        { etherType := (hkeep (·.etherType) (by rw [hhdr]) (by rw [hsec])).trans htype
          dst := hdst'.trans hdst
          src := (hkeep (·.src) (by rw [hhdr]) (by rw [hsec])).trans hsrc
          pktlen := hkeep (·.pktlen) (by rw [hhdr]) (by rw [hsec])
          pktHdrlen := by rw [hhdr]
          psta := by rw [hhdr]
          subtype := hsub
          hdrlen := hlen
          iv := by rw [hhdr]; exact hiv
          icv := by rw [hhdr]; exact hicv
          taSta := fun h1 h2 => hta'.trans (hta h1 h2)
          taAp := fun h1 h2 h3 => hta'.trans (htaAp h1 h2 h3)
          raSta := fun h1 h2 => hra'.trans (hra1 h1 h2)
          raDst := fun h1 h2 => (hra'.trans (hra2 h1 h2)).trans hdst'.symm }

theorem qosAcm_lt {acmMask priority : ℕ} (h : priority < 8) : qosAcm acmMask priority < 8 := by
  unfold qosAcm
  split <;> first | exact h | (split <;> omega)

/-- The subtype and the priority go with the QoS control field. -/
theorem attribHdr_qos {ad : XmitAdapter} (acmMask : ℕ) (a : PktAttrib) (pkt : List UInt8) (hmode : OneMode ad) :
    ((attribHdr ad acmMask a pkt).subtype = WIFI_QOS_DATA_TYPE ↔ qosHeader ad a = true) ∧
      (attribHdr ad acmMask a pkt).priority < 8 ∧
      (qosHeader ad a = false → (attribHdr ad acmMask a pkt).priority = 0) := by
  have hset : ∀ b : PktAttrib, (setQos pkt b).subtype = WIFI_QOS_DATA_TYPE ∧ (setQos pkt b).priority < 8 := by
    intro b
    refine ⟨rfl,?_⟩
    change (if b.etherType = 0x0800 then (byteAt pkt (ETH_HLEN + 1)).toNat / 32 else 0) < 8
    have := byteAt_lt pkt (ETH_HLEN + 1)
    split <;> omega
  have hflag : qosHeader ad a = if ad.apState || ad.adhocState then a.qosEn else ad.qosOption := by
    rw [OneMode] at hmode
    rw [qosHeader]
    cases hs : ad.stationState <;> cases hp : ad.apState <;> cases hi : ad.adhocState <;> simp_all
  rw [attribHdr, hflag]
  split
  · split
    · rename_i hq
      exact ⟨⟨fun _ => hq,fun _ => (hset _).1⟩,(hset _).2,fun h => absurd hq (by simpa using h)⟩
    · rename_i hq
      exact ⟨⟨nofun,fun h => absurd h hq⟩,show 0 < 8 by decide,fun _ => rfl⟩
  · split
    · rename_i hq
      refine ⟨⟨fun _ => hq,fun _ => rfl⟩,?_,fun h => absurd hq (by simpa using h)⟩
      dsimp only
      split
      · exact qosAcm_lt (hset _).2
      · exact (hset _).2
    · rename_i hq
      exact ⟨⟨nofun,fun h => absurd h hq⟩,show 0 < 8 by decide,fun _ => rfl⟩

/-- The QoS control field that the attributes lead to -/
structure AttribQos (ad : XmitAdapter) (a : PktAttrib) : Prop where
  subtype : a.subtype = WIFI_QOS_DATA_TYPE ↔ qosHeader ad a = true
  priority : a.priority < 8
  none : qosHeader ad a = false → a.priority = 0

theorem updateAttrib_result {ad : XmitAdapter} {acmMask : ℕ} {a₀ a : PktAttrib} {pkt : List UInt8} {psta : StaInfo}
    (h : updateAttrib ad acmMask a₀ pkt = some (a,psta)) :
    ∃ t b r, updateAttribSecInfo ad.sec ad.mpState t b = some r ∧ a = attribHdr ad acmMask r.1 pkt := by
  rw [updateAttrib] at h
  split at h
  · cases h
  · split at h
    · cases h
    · obtain ⟨r,hr,hra⟩ := Option.map_eq_some_iff.mp h
      cases hra
      exact ⟨_,_,r,hr,rfl⟩

theorem updateAttrib_qos {ad : XmitAdapter} {acmMask : ℕ} {a₀ a : PktAttrib} {pkt : List UInt8} {psta : StaInfo}
    (hmode : OneMode ad) (h : updateAttrib ad acmMask a₀ pkt = some (a,psta)) : AttribQos ad a := by
  obtain ⟨t,b,r,hr,rfl⟩ := updateAttrib_result h
  obtain ⟨hsub,hprio,hnone⟩ := attribHdr_qos acmMask r.1 pkt hmode
  have hsame : qosHeader ad (attribHdr ad acmMask r.1 pkt) = qosHeader ad r.1 := by
    rw [qosHeader, qosHeader, (attribHdr_frame ad acmMask r.1 pkt).1]
  exact ⟨hsame ▸ hsub,hprio,fun hq => hnone (hsame ▸ hq)⟩

theorem updateAttrib_tkip {ad : XmitAdapter} {acmMask : ℕ} {a₀ a : PktAttrib} {pkt : List UInt8} {psta : StaInfo}
    (h : updateAttrib ad acmMask a₀ pkt = some (a,psta)) (htkip : a.encrypt = .tkip) : TkipIv a := by
  obtain ⟨t,b,r,hr,rfl⟩ := updateAttrib_result h
  have hframe := (attribHdr_frame ad acmMask r.1 pkt).1
  have henc : r.1.encrypt = .tkip := by
    rw [hframe] at htkip
    exact htkip
  obtain ⟨h1,h2,h3,h4⟩ := updateAttribSecInfo_tkip hr henc
  rw [hframe]
  exact ⟨h1,h2,h3,h4⟩

end Rtl8188fu
