import Rtl8188fu.Xmit.TkipUndo

/-! # TKIP from packet to packet

A packet that is one fragment comes back from the receiver. For a packet of several
fragments the MIC is computed over more bytes than the packet has.
-/
namespace Rtl8188fu
open Bytes

section Several
variable {a : PktAttrib} {fragLen hw : ℕ} {hdr mem : List UInt8}

theorem rnd4_eq (n : ℕ) : (rnd4 n : ℤ) = rnd4Addr n := by
  rw [rnd4, rnd4Addr]
  split_ifs <;> omega

theorem rnd4Addr_le (x : ℤ) : x ≤ rnd4Addr x ∧ rnd4Addr x ≤ x + 3 := by
  rw [rnd4Addr]
  split <;> omega

/-- What is read of the packet when the fragment is not the last one -/
theorem length_readPayload {first : Bool} {pkt : List UInt8}
    (hend : ¬ (isMcast a.ra || (pkt.drop (readPayload a fragLen first pkt).length).isEmpty) = true) :
    ((readPayload a fragLen first pkt).length : ℤ) = mpduLen a fragLen first := by
  rw [Bool.or_eq_true, not_or, List.isEmpty_iff, List.drop_eq_nil_iff, Nat.not_le] at hend
  obtain ⟨hmc,hlong⟩ := hend
  rw [readPayload, if_neg hmc] at hlong ⊢
  split at hlong
  · omega
  · rw [List.length_take] at hlong
    rw [if_neg ‹_›, List.length_take]
    omega

theorem lastTxcmdsz_cons {f : TxFragment} {frags : List TxFragment} (h : frags ≠ []) :
    lastTxcmdsz a (f :: frags) = lastTxcmdsz a frags := by
  rw [lastTxcmdsz, lastTxcmdsz, List.getLast?_cons, List.getLast?_eq_some_getLast h]
  rfl

theorem length_micData_cons {v : FragmentParts} {vs : List FragmentParts} (hin : 0 ≤ v.payload.1)
    (hlen : 0 ≤ v.payload.2) (hmem : v.payload.1 + v.payload.2 ≤ mem.length) :
    ((micData mem (v :: vs)).length : ℤ) = v.payload.2 + (micData mem vs).length := by
  rw [micData, List.flatMap_cons, List.length_append, length_slice_of_le (by omega), ← micData]
  omega

/-- The MIC takes four bytes too many of each fragment but the last. The walk stays below the
places of the fragments, so all it reads lies in the buffer. -/
theorem length_micData (hicv : swIcvLen a = 4) (hicv4 : a.icvLen = 4) (hicvlen : 4 ≤ a.icv.length)
    (hiv : a.ivLen ≤ a.iv.length) (hhdr : hdr.length = a.hdrlen) (hhw : 8 ≤ hw) {fuel : ℕ} {first : Bool}
    {memStart : ℕ} {pkt : List UInt8} {frags : List TxFragment} {p : ℤ}
    (h : coalesceLoop a fragLen hw hdr fuel first memStart pkt = some frags) (hp : 0 ≤ p)
    (hle : rnd4Addr p ≤ memStart) (hroom : ∀ t ∈ frags, t.start + t.bytes.length ≤ mem.length) :
    (micData mem (addmicVisits a fragLen (lastTxcmdsz a frags) frags.length p)).length =
      (frags.flatMap (·.body)).length + 4 * (frags.length - 1) := by
  have hsnap : ∀ b : Bool, (if b then rtwPutSnap a.etherType else []).length = if b then 8 else 0 := by
    intro b
    split
    · exact length_rtwPutSnap _
    · rfl
  induction fuel generalizing first memStart pkt frags p with
  | zero => cases h
  | succ fuel ih =>
    have hge := (rnd4Addr_le p).1
    rw [coalesceLoop] at h
    dsimp only at h
    split at h
    · cases h
      have hlen := hroom _ (List.mem_singleton_self _)
      simp only [TxFragment.bytes, List.length_append, clearMFrag, length_patch, setMFrag, length_setBits, hhdr,
        List.length_take, Nat.min_eq_left hiv, hicv, Nat.min_eq_left hicvlen] at hlen
      simp only [lastTxcmdsz, addmicVisits, List.length_singleton, ↓reduceIte, List.getLast?_singleton,
        Option.map_some, Option.getD_some, List.flatMap_singleton, hicv, List.length_append]
      zify
      rw [length_micData_cons (by dsimp only [fragmentParts]; omega) (by dsimp only [fragmentParts]; omega)
        (by dsimp only [fragmentParts]; omega)]
      simp only [fragmentParts, micData, List.flatMap_nil, List.length_nil]
      omega
    · rename_i hend
      have hread := length_readPayload hend
      obtain ⟨rest,hrest,rfl⟩ := Option.map_eq_some_iff.mp h
      have hne := coalesceLoop_ne_nil hrest
      have hlen := hroom _ List.mem_cons_self
      simp only [TxFragment.bytes, List.length_append, setMFrag, length_setBits, hhdr,
        List.length_take, Nat.min_eq_left hiv, hicv, Nat.min_eq_left hicvlen] at hlen
      have hbody :
          ((if first then rtwPutSnap a.etherType else []).length + (readPayload a fragLen first pkt).length : ℤ) =
          fragLen - 4 - a.hdrlen - a.ivLen - 4 := by
        rw [hread, hsnap, mpduLen, hicv]
        split <;> push_cast <;> ring
      obtain ⟨n,hn⟩ : ∃ n, rest.length = n + 1 :=
        ⟨rest.length - 1,by have := List.length_pos_iff.mpr hne; omega⟩
      have hnext : rnd4Addr (rnd4Addr p + fragLen) ≤
          (rnd4 (memStart + a.hdrlen + a.ivLen + ((if first then rtwPutSnap a.etherType else []) ++
            readPayload a fragLen first pkt).length + swIcvLen a) + hw : ℕ) := by
        have h1 := (rnd4Addr_le (rnd4Addr p + fragLen)).2
        have h2 := (rnd4Addr_le (memStart + a.hdrlen + a.ivLen + ((if first then rtwPutSnap a.etherType else []) ++
            readPayload a fragLen first pkt).length + swIcvLen a)).1
        rw [Nat.cast_add, rnd4_eq]
        rw [List.length_append] at h2 ⊢
        push_cast at h2 ⊢
        omega
      have hrec := ih hrest (p := rnd4Addr p + fragLen) (by omega) hnext
        (fun t ht => hroom t (List.mem_cons_of_mem _ ht))
      rw [lastTxcmdsz_cons hne, List.length_cons, addmicVisits, if_neg (by omega)]
      rw [show rnd4Addr p + a.hdrlen + a.ivLen + ((fragLen : ℤ) - a.hdrlen - a.ivLen - swIcvLen a) + a.icvLen =
        rnd4Addr p + fragLen by rw [hicv, hicv4]; ring]
      zify
      rw [length_micData_cons (by dsimp only [fragmentParts]; omega) (by dsimp only [fragmentParts]; omega)
        (by dsimp only [fragmentParts]; omega), hrec]
      simp only [fragmentParts, List.flatMap_cons, List.length_append, hicv, hn]
      omega

end Several

/-- The priority that the header carries is the one that the MIC is computed with. -/
def PriorityAgrees (ad : XmitAdapter) (a : PktAttrib) : Prop :=
  qosHeader ad a = true → a.qosEn = false → a.priority = 0

section Link
variable {ad : XmitAdapter} {a : PktAttrib} {pkt hdr : List UInt8} {t : TxFragment} {f : RecvFrame}

/-- The receiver reads the addresses of the link from the header. -/
theorem sentAddrs_link (hmode : OneMode ad) (ha : AttribOf ad pkt a) :
    (sentAddrs ad a).2.1 = a.ra ∧ (sentAddrs ad a).2.2.1 = a.ta := by
  rw [OneMode] at hmode
  rw [sentAddrs]
  cases hs : ad.stationState <;> cases hp : ad.apState <;> cases hi : ad.adhocState <;> simp [hs, hp, hi] at hmode
  · exact ⟨(ha.raDst hs (Or.inr hi)).symm,rfl⟩
  · exact ⟨(ha.raDst hs (Or.inl hp)).symm,(ha.taAp hp hs hi).symm⟩
  · exact ⟨(ha.raSta hs hi).symm,rfl⟩

/-- What is known of a header that was made -/
structure SentHdr (ad : XmitAdapter) (a : PktAttrib) (hdr : List UInt8) : Prop where
  length : hdr.length = WLANHDR_OFFSET
  fields : HdrFields hdr (sentCtl a.subtype (sentAddrs ad a).1 a.mdata a.encrypt) (sentAddrs ad a).2.1
    (sentAddrs ad a).2.2.1 (sentAddrs ad a).2.2.2
  fragNum : getFragNum hdr = 0
  priority : qosHeader ad a = true → le16At hdr 24 % 16 = a.priority % 16

theorem AttribOf.hdrlen_qos (ha : AttribOf ad pkt a) (hq : AttribQos ad a) :
    a.hdrlen = if qosHeader ad a = true then 26 else 24 := by
  rw [ha.hdrlen]
  simp only [hq.subtype]
  rfl

theorem sentHdr {psta : Option StaInfo} (hmode : OneMode ad) (hmac : ad.macAddr.length = ETH_ALEN)
    (hbssid : ad.bssid.length = ETH_ALEN) (hpkt : ETH_HLEN ≤ pkt.length) (ha : AttribOf ad pkt a)
    (hq : AttribQos ad a)
    (h : rtwMakeWlanhdr ad a = some (hdr,psta)) : SentHdr ad a hdr := by
  have hdst : a.dst.length = ETH_ALEN := by
    rw [ha.dst]
    exact length_slice_of_le (Nat.le_trans (by decide) hpkt)
  have hsrc : a.src.length = ETH_ALEN := by
    rw [ha.src]
    exact length_slice_of_le (Nat.le_trans (by decide) hpkt)
  have hta := length_ta hmode hmac hbssid ha
  have hlen := ha.hdrlen_qos hq
  constructor
  · exact (rtwMakeWlanhdr_spec h).1
  · exact rtwMakeWlanhdr_fields ha.subtype (by rw [hlen]; split <;> decide) hdst hsrc hta hbssid h
  · exact getFragNum_rtwMakeWlanhdr (fun hqos => by rw [hlen, if_pos hqos]) hdst hsrc hta hbssid h
  · intro hqos
    exact rtwMakeWlanhdr_priority ha.subtype hqos (by rw [hlen, if_pos hqos]) hdst hsrc hta hbssid h

/-- How a frame with the header of a fragment is parsed -/
theorem parsedLink (hmode : OneMode ad) (ha : AttribOf ad pkt a) (hq : AttribQos ad a) (hh : SentHdr ad a hdr)
    {rest : List UInt8} (hf : f.buf.payload = clearMFrag (setMFrag (hdr.take a.hdrlen)) ++ rest) :
    ParsedLink a (parseDataHdr f) ∧ (parseDataHdr f).attrib.privacy = decide (a.encrypt ≠ .noPrivacy) ∧
      (parseDataHdr f).attrib.priority = if qosHeader ad a = true then a.priority else 0 := by
  have hlen := ha.hdrlen_qos hq
  have hlong := hh.length
  rw [WLANHDR_OFFSET] at hlong
  have h24 : 24 ≤ a.hdrlen ∧ a.hdrlen ≤ 26 := by
    rw [hlen]
    split <;> decide
  have hcut : (hdr.take a.hdrlen).length = a.hdrlen := by
    rw [List.length_take]
    omega
  have hset : (setMFrag (hdr.take a.hdrlen)).length = a.hdrlen := (length_setBits _ _ _).trans hcut
  have hcl : (clearMFrag (setMFrag (hdr.take a.hdrlen))).length = a.hdrlen := (length_patch _ _ _).trans hset
  have htake : f.buf.ptr.take a.hdrlen = clearMFrag (setMFrag (hdr.take a.hdrlen)) := by
    rw [RxBuf.take_ptr hf (Nat.le_of_eq hcl.symm), List.take_of_length_le (Nat.le_of_eq hcl)]
  have hbyte : ∀ i < a.hdrlen, byteAt f.buf.ptr i = byteAt (clearMFrag (setMFrag (hdr.take a.hdrlen))) i := by
    intro i hi
    rw [← htake]
    exact byteAt_congr (by rw [List.take_take, Nat.min_self]) hi
  -- both flags are in the first two bytes
  have hkeep : ∀ i, 2 ≤ i → i < a.hdrlen → byteAt f.buf.ptr i = byteAt hdr i := by
    intro i hi hlt
    rw [hbyte i hlt, clearMFrag, byteAt_patch, if_neg (by rw [length_le16Bytes]; omega), setMFrag,
      byteAt_setBits_below (by omega)]
    exact byteAt_congr (by rw [List.take_take, Nat.min_self]) hlt
  have hfields := (hh.fields.lastFragment (k := a.hdrlen) (by omega) (by omega)).congr (g := f.buf.ptr) (by
    rw [← htake, List.take_take, Nat.min_eq_left (by omega)])
  obtain ⟨-,-,hhdrlen⟩ := parseDataHdr_sent ha.subtype hfields
  obtain ⟨hra,hta,hmfrag,hpriv⟩ := parseDataHdr_link ha.subtype hfields
  obtain ⟨hlra,hlta⟩ := sentAddrs_link hmode ha
  have hfrag : (parseDataHdr f).attrib.fragNum = 0 := by
    change le16At f.buf.ptr 22 % 16 = 0
    rw [le16At, hkeep 22 (by decide) (by omega), hkeep 23 (by decide) (by omega)]
    exact hh.fragNum
  have hprio : (parseDataHdr f).attrib.priority = if qosHeader ad a = true then a.priority else 0 := by
    obtain ⟨-,-,-,-,-,h7⟩ := lastCtl_bits a.mdata a.encrypt ha.subtype (sentAddrs_ds ad a)
    rw [← hfields.ctl] at h7
    change (if (getFrameSubType f.buf.ptr).testBit 7 then getPriority (f.buf.ptr.drop 24) else 0) = _
    rw [getFrameSubType, h7]
    simp only [hq.subtype, decide_eq_true_eq]
    split
    · rename_i hqos
      rw [if_pos hqos] at hlen
      have h8 := hq.priority
      have hle := hh.priority hqos
      rw [getPriority, le16At, byteAt_drop, byteAt_drop, hkeep 24 (by decide) (by omega),
        hkeep 25 (by decide) (by omega)]
      rw [le16At] at hle
      omega
    · rfl
  exact ⟨⟨hhdrlen.trans ha.hdrlen.symm,hra.trans hlra,hta.trans hlta,hmfrag,hfrag⟩,hpriv,hprio⟩

/-- The only fragment of a packet -/
def wholeFragment (a : PktAttrib) (hw : ℕ) (hdr pkt : List UInt8) : TxFragment where
  start := hw
  hdr := clearMFrag (setMFrag (hdr.take a.hdrlen))
  iv := a.iv.take a.ivLen
  body := rtwPutSnap a.etherType ++ pkt.drop a.pktHdrlen
  icv := a.icv.take (swIcvLen a)

variable {tx rx : SecurityPriv} {stapriv : StaPriv} {mem sent : List UInt8} {pktOffset : ℕ}

theorem onlyFragment (htkip : a.encrypt = .tkip) (hsw : a.bswenc = true) (hicv : a.icv.length = 16) (hiv : TkipIv a)
    (ha : AttribOf ad pkt a) (hh : SentHdr ad a hdr)
    (hbuf : InBuffer mem [wholeFragment a (hwHdrOffset pktOffset) hdr pkt])
    (hroom : hwHdrOffset pktOffset + (wholeFragment a (hwHdrOffset pktOffset) hdr pkt).bytes.length + 8 ≤
      mem.length) :
    OnlyFragment a (hwHdrOffset pktOffset) mem (wholeFragment a (hwHdrOffset pktOffset) hdr pkt) := by
  have hmin : 24 ≤ a.hdrlen ∧ a.hdrlen ≤ 26 := by
    rw [ha.hdrlen]
    split <;> exact ⟨by decide,by decide⟩
  have hlong := hh.length
  rw [WLANHDR_OFFSET] at hlong
  constructor
  · exact htkip
  · exact hsw
  · exact hwHdrOffset_mod pktOffset
  · rfl
  · rw [wholeFragment, clearMFrag, length_patch, setMFrag, length_setBits, List.length_take]
    omega
  · exact hmin.1
  · rw [wholeFragment, List.length_take, hiv.ivLen, hiv.iv]
    rfl
  · exact hiv.ivLen
  · rw [wholeFragment, List.length_take, swIcvLen, if_pos hsw, hiv.icvLen, hicv]
    rfl
  · exact hiv.icvLen
  · exact hbuf
  · exact hroom

/-- The receiver computes the MIC with the priority of the header. -/
theorem priorityAgrees_iff (hq : AttribQos ad a) :
    PriorityAgrees ad a ↔ UInt8.ofNat (if qosHeader ad a = true then a.priority else 0) = micPriority a := by
  have h8 := hq.priority
  have hinj : UInt8.ofNat a.priority = 0 ↔ a.priority = 0 := by
    rw [← UInt8.toNat_inj, UInt8.toNat_ofNat']
    change a.priority % 2 ^ 8 = 0 ↔ _
    omega
  rw [PriorityAgrees, micPriority]
  cases hqos : qosHeader ad a with
  | true => cases a.qosEn <;> simp [hinj]
  | false => simp [hq.none hqos]

/-- A frame in memory that comes from the air -/
def arrivedFrame (bytes : List UInt8) : RecvFrame :=
  let f := plainFrame 0 0 false
  { f with
    buf := .ofBytes bytes
    attrib := { f.attrib with encrypt := .tkip, ivLen := 8, icvLen := 4 } }

theorem tkipArrival_arrivedFrame (bytes : List UInt8) : TkipArrival bytes (arrivedFrame bytes) :=
  ⟨slice_full rfl,rfl,rfl,rfl,rfl⟩

/-- The only fragment reaches the MIC check decrypted; with the priority of the sender it
passes, and the packet is left. -/
theorem receive_wholeFragment {fragLen : ℕ} (hmode : OneMode ad) (ha : AttribOf ad pkt a) (hq : AttribQos ad a)
    (hh : SentHdr ad a hdr) (htkip : a.encrypt = .tkip) (hiv : TkipIv a) (hsize : pkt.length < 2 ^ 32)
    (hpkt : ETH_HLEN ≤ pkt.length) {t : TxFragment} (ht : wholeFragment a (hwHdrOffset pktOffset) hdr pkt = t)
    (hone : OnlyFragment a (hwHdrOffset pktOffset) mem t)
    (hsent : tkipProtect tx a fragLen (hwHdrOffset pktOffset) [t] mem = some sent) (hkeys : KeysShared tx a rx stapriv)
    {bytes : List UInt8} (hbytes : sentFragments sent [t] = [bytes]) (hf : TkipArrival bytes f) :
    ∃ g, receiveFragments rx stapriv [] [f] = [g] ∧ g.attrib.privacy = true ∧
      rxMicInput g = micInput (t.hdr ++ t.iv) t.body (UInt8.ofNat (if qosHeader ad a = true then a.priority else 0)) ∧
      (PriorityAgrees ad a → (recvframeChkmic (rxMicKey rx stapriv) g).1 = .success ∧
        (dropIcv (recvframeChkmic (rxMicKey rx stapriv) g).2).payload.drop (payloadOffset g) = t.body) := by
  rw [hone.sent hsent] at hbytes
  cases hbytes
  obtain ⟨mic,hmicdef⟩ :
      ∃ m, (micInput (t.hdr ++ t.iv) t.body (micPriority a)).mic (txMicKey tx a) = m := ⟨_,rfl⟩
  have hmic : mic.length = 8 := hmicdef ▸ length_mic _ _
  rw [hmicdef] at hf
  have hthdr : t.hdr = clearMFrag (setMFrag (hdr.take a.hdrlen)) := by rw [← ht]; rfl
  have htiv : t.iv = a.iv := by
    rw [← ht]
    exact List.take_of_length_le (Nat.le_of_eq (hiv.iv.trans hiv.ivLen.symm))
  have hbody : t.body.length < 2 ^ 32 := by
    rw [← ht, wholeFragment, List.length_append, length_rtwPutSnap, List.length_drop, ha.pktHdrlen]
    rw [ETH_HLEN] at hpkt ⊢
    omega
  have hpay := hf.payload
  rw [List.append_assoc, hthdr] at hpay
  obtain ⟨hlink,hpriv,hprio⟩ := parsedLink hmode ha hq hh hpay
  have hidx : (byteAt t.iv 3).toNat / 64 = if isMcast a.ra then a.keyIdx % 4 else 0 := by
    rw [htiv]
    exact hiv.keyIdx
  obtain ⟨g,hg,hgpay,hgattr⟩ := receiveFragment_whole hkeys hf hlink hone.hdr hone.iv hidx
  have hghdr : t.hdr.length = g.attrib.hdrlen := by
    rw [hgattr, hone.hdr]
    exact hlink.hdrlen.symm
  have hgiv : t.iv.length = g.attrib.ivLen := by
    rw [hgattr, hone.iv]
    exact hf.ivLen.symm
  have hgicv : (crcBytes (t.body ++ mic)).length = g.attrib.icvLen := by
    rw [hgattr, length_crcBytes]
    exact hf.icvLen.symm
  have hgprio : g.attrib.priority = if qosHeader ad a = true then a.priority else 0 := by
    rw [hgattr]
    exact hprio
  have hgtake : g.buf.ptr.take 30 = (t.hdr ++ t.iv).take 30 := by
    have hmin := hone.hdrMin
    exact RxBuf.take_ptr hgpay (by rw [List.length_append, hone.hdr, hone.iv]; omega)
  have hin := (rxMicInput_of_payload hgpay hghdr hgiv hmic hgicv hbody).1
  rw [hgprio, micInput_congr hgtake] at hin
  refine ⟨g,hg,?_,hin,?_⟩
  · rw [hgattr]
    rw [htkip] at hpriv
    exact hpriv
  · intro hagree
    have hkey : rxMicKey rx stapriv g = some (some (txMicKey tx a)) := by
      apply hkeys.rxMicKey
      · rw [hgattr]
        exact hlink.ra
      · rw [hgattr]
        exact hlink.ta
      · intro hmc
        rw [hgattr]
        simpa [hmc] using hidx
    have hgmic : (micInput g.buf.ptr t.body (UInt8.ofNat g.attrib.priority)).mic (txMicKey tx a) = mic := by
      rw [hgprio, (priorityAgrees_iff hq).mp hagree, micInput_congr hgtake, hmicdef]
    rw [← hgmic] at hgpay hgicv
    have hgtkip : g.attrib.encrypt = .tkip := by
      rw [hgattr]
      exact hf.encrypt
    exact recvframeChkmic_accepts hgtkip hkey hgpay hghdr hgiv hgicv (by rw [length_crcBytes]; decide) hbody

/-- A packet that is one fragment is recovered, if the header has the priority of the MIC. -/
theorem tkip_recovered_one {fragLen : ℕ} (hmode : OneMode ad) (ha : AttribOf ad pkt a) (hq : AttribQos ad a)
    (hh : SentHdr ad a hdr) (htkip : a.encrypt = .tkip) (hiv : TkipIv a) (hsize : pkt.length < 2 ^ 32)
    (hpkt : ETH_HLEN ≤ pkt.length) {t : TxFragment} (ht : wholeFragment a (hwHdrOffset pktOffset) hdr pkt = t)
    (hone : OnlyFragment a (hwHdrOffset pktOffset) mem t)
    (hsent : tkipProtect tx a fragLen (hwHdrOffset pktOffset) [t] mem = some sent)
    (hkeys : KeysShared tx a rx stapriv) :
    TkipRecovered rx stapriv a fragLen (hwHdrOffset pktOffset) [t] mem sent pkt ↔ PriorityAgrees ad a := by
  have htx := @OnlyFragment.txMicInput a fragLen _ mem t hone
  have hbody : t.body = rtwPutSnap a.etherType ++ pkt.drop a.pktHdrlen := by rw [← ht]; rfl
  have hout := hone.sent hsent
  obtain ⟨bytes,hbytes⟩ : ∃ b, sentFragments sent [t] = [b] := ⟨_,hout⟩
  have hrecv := @receive_wholeFragment ad a pkt hdr
  constructor
  · intro hrec
    obtain ⟨g,hg,-,hin,-⟩ := hrec.received [arrivedFrame bytes]
      (hbytes ▸ List.Forall₂.cons (tkipArrival_arrivedFrame bytes) List.Forall₂.nil)
    obtain ⟨g',hg',-,hin',-⟩ := hrecv hmode ha hq hh htkip hiv hsize hpkt ht hone hsent hkeys hbytes
      (tkipArrival_arrivedFrame bytes)
    rw [hg] at hg'
    cases hg'
    rw [hin, htx] at hin'
    exact (priorityAgrees_iff hq).mpr (congrArg MicInput.priority hin').symm
  · intro hagree
    constructor
    · rw [htx, ← hbody]
      rfl
    · intro fs hfs
      rw [hbytes] at hfs
      obtain ⟨f,fs,hf,hnil,rfl⟩ := List.forall₂_cons_left_iff.mp hfs
      cases hnil
      obtain ⟨g,hg,hpriv,hin,hchk⟩ := hrecv hmode ha hq hh htkip hiv hsize hpkt ht hone hsent hkeys hbytes hf
      refine ⟨g,hg,hpriv,?_,(hchk hagree).1,hbody ▸ (hchk hagree).2⟩
      rw [hin, htx, (priorityAgrees_iff hq).mp hagree]

theorem tkip_recovered_frags (hmode : OneMode ad) (hmac : ad.macAddr.length = ETH_ALEN)
    (hbssid : ad.bssid.length = ETH_ALEN) (hpkt : ETH_HLEN ≤ pkt.length) (hsize : pkt.length < 2 ^ 32)
    (ha : AttribOf ad pkt a) (hq : AttribQos ad a) (hiv : TkipIv a) (htkip : a.encrypt = .tkip) (hsw : a.bswenc = true)
    (hicv : a.icv.length = 16) {fuel : ℕ} (hoff : pktOffset ≤ 1) {frags : List TxFragment} {sta : Option StaInfo}
    (hco : xmitframeCoalesce ad a (hwHdrOffset pktOffset) fuel pkt = some (frags,sta)) (hbuf : InBuffer mem frags)
    (hroom : ∀ t ∈ frags, t.start + t.bytes.length + 8 ≤ mem.length)
    (hsent : tkipProtect tx a ad.fragLen (hwHdrOffset pktOffset) frags mem = some sent)
    (hkeys : KeysShared tx a rx stapriv) :
    TkipRecovered rx stapriv a ad.fragLen (hwHdrOffset pktOffset) frags mem sent pkt ↔
      FitsOneFragment a ad.fragLen (pkt.drop ETH_HLEN) ∧ PriorityAgrees ad a := by
  rw [xmitframeCoalesce] at hco
  split at hco
  · cases hco
  · rename_i hdr psta hhdr
    obtain ⟨frags,hloop,hr⟩ := Option.map_eq_some_iff.mp hco
    cases hr
    have hh := sentHdr hmode hmac hbssid hpkt ha hq hhdr
    have hpktlen : a.pktlen = (pkt.drop a.pktHdrlen).length := by
      rw [List.length_drop, ha.pktlen, ha.pktHdrlen]
    rw [← ha.pktHdrlen]
    by_cases hfits : FitsOneFragment a ad.fragLen (pkt.drop a.pktHdrlen)
    · obtain ⟨fuel,rfl⟩ : ∃ n, fuel = n + 1 := by
        cases fuel with
        | zero => cases hloop
        | succ n => exact ⟨n,rfl⟩
      rw [coalesceLoop_fits hfits, readPayload_fits hfits hpktlen] at hloop
      obtain ⟨t,ht⟩ : ∃ t, wholeFragment a (hwHdrOffset pktOffset) hdr pkt = t := ⟨_,rfl⟩
      have hfrags : frags = [t] := by
        rw [← ht]
        exact (Option.some.inj hloop).symm
      rw [hfrags] at hbuf hroom hsent ⊢
      have hroom' := hroom t (List.mem_singleton_self t)
      have honly : OnlyFragment a (hwHdrOffset pktOffset) mem t := by
        rw [← ht] at hbuf hroom' ⊢
        exact onlyFragment htkip hsw hicv hiv ha hh hbuf hroom'
      have hiff := tkip_recovered_one hmode ha hq hh htkip hiv hsize hpkt ht honly hsent hkeys
      exact hiff.trans ⟨fun h => ⟨hfits,h⟩,fun h => h.2⟩
    · refine ⟨fun hrec => ?_,fun h => absurd h.1 hfits⟩
      -- the MIC of a packet of several fragments is over more than the packet
      have htwo := coalesceLoop_many hloop hfits
      have hmc : ¬ isMcast a.ra = true := fun hmc => hfits (Or.inl hmc)
      have hhw : 8 ≤ hwHdrOffset pktOffset := by
        rw [hwHdrOffset, TXDESC_SIZE, PACKET_OFFSET_SZ]
        omega
      have hcut : (hdr.take a.hdrlen).length = a.hdrlen := by
        have hlen := ha.hdrlen_qos hq
        have h26 : a.hdrlen ≤ 26 := by
          rw [hlen]
          split <;> decide
        rw [List.length_take, hh.length, WLANHDR_OFFSET]
        omega
      have hlong := length_micData (p := hwHdrOffset pktOffset) (by rw [swIcvLen, if_pos hsw, hiv.icvLen]) hiv.icvLen
        (by rw [hicv]; decide) (Nat.le_of_eq (hiv.ivLen.trans hiv.iv.symm)) hcut hhw hloop (Int.natCast_nonneg _)
        (Int.le_of_eq (rnd4Addr_of_mod (hwHdrOffset_mod pktOffset)))
        (fun t ht => Nat.le_trans (Nat.le_add_right _ 8) (hroom t ht))
      have hmaced := congrArg List.length hrec.maced
      have hall := congrArg List.length (coalesceLoop_payload hloop (fun h => absurd h hmc))
      rw [if_pos rfl] at hall
      change (micData mem (addmicVisits a ad.fragLen (lastTxcmdsz a frags) frags.length
        (hwHdrOffset pktOffset))).length = _
        at hmaced
      omega

end Link

/-- TKIP protects a packet and gives it back exactly when the packet is one fragment and its
header carries the priority that the MIC is computed with. -/
theorem tkip_recovered_iff {ad : XmitAdapter} {acmMask : ℕ} {a₀ a : PktAttrib} {psta : StaInfo} {pkt : List UInt8}
    (hmode : OneMode ad) (hmac : ad.macAddr.length = ETH_ALEN) (hbssid : ad.bssid.length = ETH_ALEN)
    (hpkt : ETH_HLEN ≤ pkt.length) (hsize : pkt.length < 2 ^ 32)
    (hattr : updateAttrib ad acmMask a₀ pkt = some (a,psta)) (htkip : a.encrypt = .tkip) (hsw : a.bswenc = true)
    (hicv : a.icv.length = 16) {stapriv : StaPriv} {mdata eosp : Bool} {pktOffset fuel : ℕ} (hoff : pktOffset ≤ 1)
    {frags : List TxFragment} {sta : Option StaInfo} {mem sent : List UInt8}
    (hco : xmitframeCoalesce { ad with stapriv := stapriv } { a with mdata := mdata, eosp := eosp }
      (hwHdrOffset pktOffset) fuel pkt = some (frags,sta))
    (hbuf : InBuffer mem frags) (hroom : ∀ t ∈ frags, t.start + t.bytes.length + 8 ≤ mem.length)
    (hsent : tkipProtect ad.sec { a with mdata := mdata, eosp := eosp } ad.fragLen (hwHdrOffset pktOffset) frags mem =
      some sent)
    {rx : SecurityPriv} {rxsta : StaPriv} (hkeys : KeysShared ad.sec a rx rxsta) :
    TkipRecovered rx rxsta { a with mdata := mdata, eosp := eosp } ad.fragLen
      (hwHdrOffset pktOffset) frags mem sent pkt ↔
      FitsOneFragment a ad.fragLen (pkt.drop ETH_HLEN) ∧ PriorityAgrees ad a := by
  exact @tkip_recovered_frags { ad with stapriv := stapriv }
    { a with mdata := mdata, eosp := eosp } pkt ad.sec rx rxsta mem
    sent pktOffset hmode hmac hbssid hpkt hsize { updateAttrib_spec hattr with } { updateAttrib_qos hmode hattr with }
    { updateAttrib_tkip hattr htkip with } htkip hsw hicv fuel hoff frags sta hco hbuf hroom hsent { hkeys with }

/-- The access point of a TKIP network -/
def tkipPeer : StaInfo :=
  { ccmpPeer with
    dot118021XPrivacy := .tkip
    dot11tkiprxmickey := List.replicate 16 3
    dot11tkiptxmickey := List.replicate 16 4 }

/-- A station that is linked to it -/
def tkipStation (fragLen : ℕ) : XmitAdapter :=
  { linkedStation with
    sec := { wpaSecurity with dot118021XGrpPrivacy := .tkip, busetkipkey := true }
    stapriv := fun a => if a = apAddr then some tkipPeer else none
    fragLen := fragLen }

/-- What the access point knows of the station -/
def tkipReceiver : StaPriv :=
  fun a => if a = ownAddr then some { tkipPeer with dot11tkiprxmickey := List.replicate 16 4 } else none

def tkipStationAttrib (pkt : List UInt8) : PktAttrib :=
  ((updateAttrib (tkipStation 2346) 0 blankAttrib pkt).map (·.1)).getD blankAttrib

/-- A buffer with the fragments in their places -/
def writtenBuffer (frags : List TxFragment) : List UInt8 :=
  frags.foldl (fun mem t => patch mem t.start t.bytes) (List.replicate 600 0)

theorem keysShared_tkipStation (pkt : List UInt8)
    (h : (tkipStationAttrib pkt).ra = apAddr ∧ (tkipStationAttrib pkt).ta = ownAddr ∧
      (tkipStationAttrib pkt).dot118021xUncstKey = tkipPeer.dot118021xUncstKey ∧
      (tkipStationAttrib pkt).dot11tkiptxmickey = tkipPeer.dot11tkiptxmickey) :
    KeysShared (tkipStation 2346).sec (tkipStationAttrib pkt) openSecurity tkipReceiver := by
  obtain ⟨hra,hta,hkey,hmic⟩ := h
  refine ⟨⟨{ tkipPeer with dot11tkiprxmickey := List.replicate 16 4 },by rw [hta]; rfl,
    fun _ => ⟨hkey.symm,hmic.symm⟩⟩,fun hmc => ?_⟩
  rw [hra] at hmc
  exact absurd hmc (by decide)

theorem tkip_recovered_aarp :
    ∃ frags sta mem sent,
      xmitframeCoalesce (tkipStation 2346) (tkipStationAttrib (aarpPacket ownAddr)) (hwHdrOffset 1) 1
        (aarpPacket ownAddr) = some (frags,sta) ∧
      TkipRecovered openSecurity tkipReceiver (tkipStationAttrib (aarpPacket ownAddr)) 2346
        (hwHdrOffset 1) frags mem sent (aarpPacket ownAddr) := by
  have hattr : (updateAttrib (tkipStation 2346) 0 blankAttrib (aarpPacket ownAddr)).isSome = true := by decide +kernel
  have hsome : (xmitframeCoalesce (tkipStation 2346) (tkipStationAttrib (aarpPacket ownAddr)) (hwHdrOffset 1) 1
      (aarpPacket ownAddr)).isSome = true := by decide +kernel
  have hbuf : ∀ r ∈ xmitframeCoalesce (tkipStation 2346) (tkipStationAttrib (aarpPacket ownAddr)) (hwHdrOffset 1) 1
      (aarpPacket ownAddr), (∀ t ∈ r.1, slice (writtenBuffer r.1) t.start t.bytes.length = t.bytes) ∧
        (∀ t ∈ r.1, t.start + t.bytes.length + 8 ≤ (writtenBuffer r.1).length) ∧
        (tkipProtect (tkipStation 2346).sec (tkipStationAttrib (aarpPacket ownAddr)) 2346 (hwHdrOffset 1) r.1
          (writtenBuffer r.1)).isSome = true := by
    decide +kernel
  obtain ⟨⟨a,psta⟩,ha⟩ := Option.isSome_iff_exists.mp hattr
  have heq : tkipStationAttrib (aarpPacket ownAddr) = a := by rw [tkipStationAttrib, ha]; rfl
  have hkeys := keysShared_tkipStation (aarpPacket ownAddr) (by decide +kernel)
  obtain ⟨⟨frags,sta⟩,hco⟩ := Option.isSome_iff_exists.mp hsome
  obtain ⟨hin,hroom,hsent⟩ := hbuf _ hco
  obtain ⟨sent,hsent⟩ := Option.isSome_iff_exists.mp hsent
  have hlen : (tkipStationAttrib (aarpPacket ownAddr)).encrypt = .tkip ∧
      (tkipStationAttrib (aarpPacket ownAddr)).bswenc = true ∧
        (tkipStationAttrib (aarpPacket ownAddr)).icv.length = 16 ∧
      FitsOneFragment (tkipStationAttrib (aarpPacket ownAddr)) 2346 ((aarpPacket ownAddr).drop ETH_HLEN) ∧
      (tkipStationAttrib (aarpPacket ownAddr)).priority = 0 := by
    decide +kernel
  obtain ⟨htkip,hsw,hicv,hfits,hprio⟩ := hlen
  rw [heq] at hco hsent hkeys htkip hsw hicv hfits hprio ⊢
  refine ⟨frags,sta,writtenBuffer frags,sent,hco,?_⟩
  exact (@tkip_recovered_iff (tkipStation 2346) 0 blankAttrib a psta (aarpPacket ownAddr) (by decide) (by decide)
    (by decide) (by decide) (by decide) ha htkip hsw hicv (tkipStation 2346).stapriv a.mdata a.eosp 1 1
      (by decide) frags
    sta (writtenBuffer frags) sent hco hin hroom hsent openSecurity tkipReceiver hkeys).mpr ⟨hfits,fun _ _ => hprio⟩

/-- The MIC of a packet of 300 bytes in two fragments is not over the packet. -/
theorem two_fragments_not_recovered :
    ∃ frags sta mem sent,
      xmitframeCoalesce (tkipStation 256) (tkipStationAttrib (List.replicate 314 0)) (hwHdrOffset 1) 2
        (List.replicate 314 0) = some (frags,sta) ∧ InBuffer mem frags ∧
      tkipProtect (tkipStation 256).sec (tkipStationAttrib (List.replicate 314 0)) 256 (hwHdrOffset 1) frags mem =
        some sent ∧
      KeysShared (tkipStation 256).sec (tkipStationAttrib (List.replicate 314 0)) openSecurity tkipReceiver ∧
      ¬ TkipRecovered openSecurity tkipReceiver (tkipStationAttrib (List.replicate 314 0)) 256
        (hwHdrOffset 1) frags mem sent (List.replicate 314 0) := by
  have hsome : (xmitframeCoalesce (tkipStation 256) (tkipStationAttrib (List.replicate 314 0)) (hwHdrOffset 1) 2
      (List.replicate 314 0)).isSome = true := by decide +kernel
  have hbuf : ∀ r ∈ xmitframeCoalesce (tkipStation 256) (tkipStationAttrib (List.replicate 314 0)) (hwHdrOffset 1) 2
      (List.replicate 314 0), (∀ t ∈ r.1, slice (writtenBuffer r.1) t.start t.bytes.length = t.bytes) ∧
        (tkipProtect (tkipStation 256).sec (tkipStationAttrib (List.replicate 314 0)) 256 (hwHdrOffset 1) r.1
          (writtenBuffer r.1)).isSome = true ∧
        (micData (writtenBuffer r.1) (addmicVisits (tkipStationAttrib (List.replicate 314 0)) (256 : ℕ)
          (lastTxcmdsz (tkipStationAttrib (List.replicate 314 0)) r.1) r.1.length (hwHdrOffset 1))).length = 312 := by
    decide +kernel
  have hkeys := keysShared_tkipStation (List.replicate 314 0) (by decide +kernel)
  obtain ⟨⟨frags,sta⟩,hco⟩ := Option.isSome_iff_exists.mp hsome
  obtain ⟨hin,hsent,hlong⟩ := hbuf _ hco
  obtain ⟨sent,hsent⟩ := Option.isSome_iff_exists.mp hsent
  refine ⟨frags,sta,writtenBuffer frags,sent,hco,hin,hsent,hkeys,?_⟩
  intro hrec
  have hmaced := congrArg List.length hrec.maced
  rw [List.length_append, length_rtwPutSnap, List.length_drop, List.length_replicate] at hmaced
  have hhdr : (tkipStationAttrib (List.replicate 314 0)).pktHdrlen = ETH_HLEN := by decide +kernel
  rw [hhdr] at hmaced
  exact absurd (hlong.symm.trans hmaced) (by decide)

end Rtl8188fu
