import Rtl8188fu.Security.Ccmp
import Rtl8188fu.Xmit.MsduRoundTrip

/-! # Walking over the fragments of a packet

The MIC and the ciphers go over the fragments once more and find each by its place, not by a
pointer that the first pass left. Places are offsets from `buf_addr`, which is four-byte
aligned; a length that is computed too small is negative.
-/
namespace Rtl8188fu
open Bytes

def rnd4Addr (x : ℤ) : ℤ := (x / 4 + if x % 4 = 0 then 0 else 1) * 4

/-- The parts of a fragment, each with its place and its length -/
structure FragmentParts where
  hdr : ℤ × ℤ
  iv : ℤ × ℤ
  payload : ℤ × ℤ
  deriving DecidableEq

/-- One part behind the other from `p` on -/
def fragmentParts (p hdrlen ivLen length : ℤ) : FragmentParts :=
  ⟨(p, hdrlen), (p + hdrlen, ivLen), (p + hdrlen + ivLen, length)⟩

/-- The fragments that the loop of `xmitframe_addmic` goes over, `n` of them from `payload` on -/
def addmicVisits (a : PktAttrib) (fragLen lastTxcmdsz : ℤ) : ℕ → ℤ → List FragmentParts
  | 0, _ => []
  | n + 1, payload =>
    let p := rnd4Addr payload
    let length := (if n = 0 then lastTxcmdsz else fragLen) - a.hdrlen - a.ivLen - swIcvLen a
    fragmentParts p a.hdrlen a.ivLen length ::
      addmicVisits a fragLen lastTxcmdsz n (p + a.hdrlen + a.ivLen + length + a.icvLen)

/-- What a cipher takes for the parts of the fragment at `pframe`; `aes_cipher` finds the header
length and the IV by itself. -/
def cipherParts (a : PktAttrib) (mem : List UInt8) (pframe length : ℤ) : FragmentParts :=
  match a.encrypt with
  | .aes => fragmentParts pframe (ccmpHdrlen (mem.drop pframe.toNat) a.hdrlen) 8 length
  | _ => fragmentParts pframe a.hdrlen a.ivLen length

/-- The loop of `rtw_wep_encrypt`, `rtw_tkip_encrypt` and `rtw_aes_encrypt` over the buffer `mem` -/
def encryptVisits (a : PktAttrib) (mem : List UInt8) (fragLen lastTxcmdsz : ℤ) : ℕ → ℤ → List FragmentParts
  | 0, _ => []
  | n + 1, pframe =>
    let length := (if n = 0 then lastTxcmdsz else fragLen) - a.hdrlen - a.ivLen - a.icvLen
    cipherParts a mem pframe length :: encryptVisits a mem fragLen lastTxcmdsz n (rnd4Addr (pframe + fragLen))

/-- What is appended to the payload before encryption -/
def micLen (a : PktAttrib) : ℕ := if a.encrypt = .tkip then 8 else 0

/-- The parts of the fragments as they were written, with `extra` bytes behind the last payload -/
def fragmentLayout (extra : ℕ) : List TxFragment → List FragmentParts
  | [] => []
  | [f] => [fragmentParts f.start f.hdr.length f.iv.length (f.body.length + extra)]
  | f :: fs => fragmentParts f.start f.hdr.length f.iv.length f.body.length :: fragmentLayout extra fs

/-- `xmitframe_swencrypt` has a cipher for the packet. -/
def SwEncrypted (a : PktAttrib) : Prop :=
  a.bswenc = true ∧ (a.encrypt = .wep40 ∨ a.encrypt = .wep104 ∨ a.encrypt = .tkip ∨ a.encrypt = .aes)

/-- All walkers agree with what was written, and the fragments are those of the packet. -/
structure FragmentsAgree (a : PktAttrib) (fragLen hw : ℕ) (mem pkt : List UInt8) (frags : List TxFragment) :
    Prop where
  addmic : a.encrypt = .tkip →
    addmicVisits a fragLen (lastTxcmdsz a frags) frags.length hw = fragmentLayout 0 frags
  encrypt : SwEncrypted a →
    encryptVisits a mem fragLen (lastTxcmdsz a frags + micLen a) frags.length hw = fragmentLayout (micLen a) frags
  payload : frags.flatMap (·.body) = rtwPutSnap a.etherType ++ pkt.drop a.pktHdrlen
  header : ∀ k (f : TxFragment), frags[k]? = some f →
    getFragNum f.hdr = k ∧ (getMFrag f.hdr = true ↔ k + 1 < frags.length)

/-- The lengths in the attributes are those of the data that they are about. -/
structure LengthsFit (ad : XmitAdapter) (a : PktAttrib) (pkt : List UInt8) : Prop where
  hdrlen : 24 ≤ a.hdrlen ∧ a.hdrlen ≤ WLANHDR_OFFSET
  qos : qosHeader ad a = true → 26 ≤ a.hdrlen
  iv : a.ivLen ≤ a.iv.length
  /-- the IV of CCMP has eight bytes, and its cipher knows a QoS header by 26 bytes -/
  ccmp : a.encrypt = .aes → a.ivLen = 8 ∧ (a.subtype = WIFI_DATA_TYPE ∨ a.hdrlen = WLAN_HDR_A3_QOS_LEN)
  pktlen : a.pktlen = pkt.length - a.pktHdrlen
  dst : a.dst.length = ETH_ALEN
  src : a.src.length = ETH_ALEN
  ta : a.ta.length = ETH_ALEN
  bssid : ad.bssid.length = ETH_ALEN

/-- The bytes of the fragments lie in the buffer where they were written. -/
def InBuffer (mem : List UInt8) (frags : List TxFragment) : Prop :=
  ∀ f ∈ frags, slice mem f.start f.bytes.length = f.bytes

theorem coalesceLoop_ne_nil {a : PktAttrib} {fragLen hw : ℕ} {hdr : List UInt8} {fuel : ℕ} {first : Bool}
    {memStart : ℕ} {pkt : List UInt8} {frags : List TxFragment}
    (h : coalesceLoop a fragLen hw hdr fuel first memStart pkt = some frags) : frags ≠ [] := by
  cases fuel with
  | zero => cases h
  | succ fuel =>
    rw [coalesceLoop] at h
    dsimp only at h
    split at h
    · cases h
      exact List.cons_ne_nil _ _
    · obtain ⟨rest,-,rfl⟩ := Option.map_eq_some_iff.mp h
      exact List.cons_ne_nil _ _

theorem readPayload_prefix (a : PktAttrib) (fragLen : ℕ) (first : Bool) (pkt : List UInt8) :
    readPayload a fragLen first pkt ++ pkt.drop (readPayload a fragLen first pkt).length = pkt := by
  have htake : ∀ n, pkt.take n ++ pkt.drop (pkt.take n).length = pkt := by
    intro n
    rw [List.length_take]
    rcases Nat.le_total n pkt.length with hn | hn
    · rw [Nat.min_eq_left hn, List.take_append_drop]
    · rw [Nat.min_eq_right hn, List.take_of_length_le hn, List.drop_length, List.append_nil]
  rw [readPayload]
  split_ifs
  · exact htake _
  · rw [List.drop_length, List.append_nil]
  · exact htake _

/-- The payloads of the fragments, one behind the other, are the packet. -/
theorem coalesceLoop_payload {a : PktAttrib} {fragLen hw : ℕ} {hdr : List UInt8} {fuel : ℕ} {first : Bool}
    {memStart : ℕ} {pkt : List UInt8} {frags : List TxFragment}
    (h : coalesceLoop a fragLen hw hdr fuel first memStart pkt = some frags)
    (hmc : isMcast a.ra = true → pkt.length ≤ a.pktlen) :
    frags.flatMap (·.body) = (if first then rtwPutSnap a.etherType else []) ++ pkt := by
  induction fuel generalizing first memStart pkt frags with
  | zero => cases h
  | succ fuel ih =>
    have hpre := readPayload_prefix a fragLen first pkt
    rw [coalesceLoop] at h
    dsimp only at h
    split at h
    · rename_i hend
      cases h
      have hall : readPayload a fragLen first pkt = pkt := by
        rcases Bool.or_eq_true_iff.mp hend with hm | hnil
        · rw [readPayload, if_pos hm, List.take_of_length_le (hmc hm)]
        · rw [List.isEmpty_iff.mp hnil, List.append_nil] at hpre
          exact hpre
      simp [hall]
    · rename_i hend
      obtain ⟨rest,hrest,rfl⟩ := Option.map_eq_some_iff.mp h
      have hmore := ih hrest (fun hm => absurd (by simp [hm]) hend)
      simp [hmore, hpre]

theorem coalesceLoop_fragNum {a : PktAttrib} {fragLen hw : ℕ} {hdr : List UInt8} {fuel : ℕ} {first : Bool}
    {memStart : ℕ} {pkt : List UInt8} {frags : List TxFragment}
    (h : coalesceLoop a fragLen hw hdr fuel first memStart pkt = some frags) :
    ∀ f ∈ frags, getFragNum f.hdr = getFragNum hdr := by
  have hset : getFragNum (setMFrag hdr) = getFragNum hdr := getFragNum_setBits (by decide)
  have hclear : getFragNum (clearMFrag (setMFrag hdr)) = getFragNum hdr := (getFragNum_patch (by simp)).trans hset
  induction fuel generalizing first memStart pkt frags with
  | zero => cases h
  | succ fuel ih =>
    rw [coalesceLoop] at h
    dsimp only at h
    split at h
    · cases h
      intro f hf
      rw [List.mem_singleton.mp hf]
      exact hclear
    · obtain ⟨rest,hrest,rfl⟩ := Option.map_eq_some_iff.mp h
      intro f hf
      rcases List.mem_cons.mp hf with rfl | hf
      · exact hset
      · exact ih hrest f hf

/-- A packet that does not fit is more than one fragment. -/
theorem coalesceLoop_many {a : PktAttrib} {fragLen hw : ℕ} {hdr : List UInt8} {fuel memStart : ℕ}
    {pkt : List UInt8} {frags : List TxFragment}
    (h : coalesceLoop a fragLen hw hdr fuel true memStart pkt = some frags) (hmany : ¬ FitsOneFragment a fragLen pkt) :
    2 ≤ frags.length := by
  cases fuel with
  | zero => cases h
  | succ fuel =>
    rw [coalesceLoop] at h
    dsimp only at h
    rw [if_neg (fun hend => hmany ((fitsOneFragment_iff a fragLen pkt).mpr hend))] at h
    obtain ⟨rest,hrest,rfl⟩ := Option.map_eq_some_iff.mp h
    have := List.length_pos_iff.mpr (coalesceLoop_ne_nil hrest)
    rw [List.length_cons]
    omega

theorem rnd4Addr_of_mod {x : ℤ} (h : x % 4 = 0) : rnd4Addr x = x := by
  rw [rnd4Addr, if_pos h]
  omega

theorem hwHdrOffset_mod (pktOffset : ℕ) : (hwHdrOffset pktOffset : ℤ) % 4 = 0 := by
  rw [hwHdrOffset, TXDESC_SIZE, PACKET_OFFSET_SZ]
  omega

theorem getMFrag_clearMFrag {p : List UInt8} (hlen : 2 ≤ p.length) : getMFrag (clearMFrag p) = false := by
  have hlt : le16At p 0 &&& 0xfbff < 65536 := Nat.lt_of_le_of_lt Nat.and_le_right (by decide)
  rw [getMFrag, clearMFrag, le16At_patch_le16Bytes hlen hlt, Nat.testBit_and]
  simp [show (0xfbff : ℕ).testBit 10 = false by decide]

/-- A frame without a QoS control field is taken for one. -/
theorem qcExists_data {p : List UInt8} {ds : ℕ} {mdata : Bool} {encrypt : EncryAlgo}
    (hctl : le16At p 0 = lastCtl WIFI_DATA_TYPE ds mdata encrypt) (hds : ds = bit 8 ∨ ds = bit 9 ∨ ds = 0) :
    qcExists p = false := by
  rw [qcExists, getFrameType, getFrameSubType, hctl, lastCtl, sentCtl]
  by_cases henc : encrypt ≠ .noPrivacy
  · rw [if_pos henc]
    rcases hds with rfl | rfl | rfl <;> cases mdata <;> decide
  · rw [if_neg henc]
    rcases hds with rfl | rfl | rfl <;> cases mdata <;> decide

section One
variable {ad : XmitAdapter} {a : PktAttrib} {pkt hdr : List UInt8} {psta : Option StaInfo} {f : TxFragment}
  {pktOffset : ℕ} {mem : List UInt8} (hl : LengthsFit ad a pkt) (hhdr : rtwMakeWlanhdr ad a = some (hdr,psta))
  (hfhdr : f.hdr = clearMFrag (setMFrag (hdr.take a.hdrlen)))
include hl hhdr hfhdr

theorem length_fragmentHdr : f.hdr.length = a.hdrlen := by
  have hlen := hl.hdrlen.2
  rw [hfhdr, clearMFrag, length_patch, setMFrag, length_setBits, List.length_take, (rtwMakeWlanhdr_spec hhdr).1]
  omega

/-- `aes_cipher` finds the header of the only fragment as it is. -/
theorem ccmpHdrlen_fragment (haes : a.encrypt = .aes) (hmem : InBuffer mem [f]) :
    ccmpHdrlen (mem.drop f.start) a.hdrlen = a.hdrlen := by
  have hlen := length_fragmentHdr hl hhdr hfhdr
  have hmin := hl.hdrlen.1
  rcases (hl.ccmp haes).2 with hsub | hqos
  · have htake : (mem.drop f.start).take 2 = f.hdr.take 2 := by
      have hbytes := hmem f (List.mem_singleton_self f)
      have hlong : 24 ≤ f.bytes.length := by
        simp only [TxFragment.bytes, List.length_append]
        omega
      have hcut := congrArg (List.take 2) hbytes
      rw [slice, List.take_take, Nat.min_eq_left (by omega)] at hcut
      rw [hcut, TxFragment.bytes, List.append_assoc, List.append_assoc, List.take_append_of_le_length (by omega)]
    have hfields := (rtwMakeWlanhdr_fields (Or.inl hsub) hmin hl.dst hl.src hl.ta hl.bssid hhdr).lastFragment
      (show 22 ≤ a.hdrlen by omega) ((rtwMakeWlanhdr_spec hhdr).1 ▸ hl.hdrlen.2)
    have hctl : le16At f.hdr 0 = lastCtl a.subtype (sentAddrs ad a).1 a.mdata a.encrypt := hfhdr ▸ hfields.ctl
    rw [hsub] at hctl
    have hqc := qcExists_data ((le16At_congr htake (by decide)).trans hctl) (sentAddrs_ds ad a)
    rw [ccmpHdrlen, hqc]
    rfl
  · rw [ccmpHdrlen, hqos]
    simp

/-- The only fragment of a packet is found where it is by all who look for it. -/
theorem fragmentsAgree_one {fragLen : ℕ} (hstart : f.start = hwHdrOffset pktOffset) (hiv : f.iv = a.iv.take a.ivLen)
    (hbody : f.body = rtwPutSnap a.etherType ++ pkt.drop a.pktHdrlen) (hmem : InBuffer mem [f])
    (hfrag : getFragNum f.hdr = 0) : FragmentsAgree a fragLen (hwHdrOffset pktOffset) mem pkt [f] := by
  have hlen := length_fragmentHdr hl hhdr hfhdr
  have hivlen : f.iv.length = a.ivLen := by
    rw [hiv, List.length_take, Nat.min_eq_left hl.iv]
  have hstart' : (f.start : ℤ) = hwHdrOffset pktOffset := by rw [hstart]
  have hlast : (lastTxcmdsz a [f] : ℤ) = a.hdrlen + a.ivLen + swIcvLen a + f.body.length := by
    simp [lastTxcmdsz]
  constructor
  · intro htkip
    simp only [addmicVisits, fragmentLayout, List.length_singleton, ↓reduceIte,
      rnd4Addr_of_mod (hwHdrOffset_mod pktOffset), hlast, hlen, hivlen, hstart']
    congr 3
    push_cast
    ring
  · intro hsw
    have hicv : swIcvLen a = a.icvLen := by rw [swIcvLen, if_pos hsw.1]
    have hparts : ∀ n, cipherParts a mem (hwHdrOffset pktOffset) n =
        fragmentParts (hwHdrOffset pktOffset) a.hdrlen a.ivLen n := by
      intro n
      rw [cipherParts]
      split
      · rename_i haes
        rw [← hstart', Int.toNat_natCast, ccmpHdrlen_fragment hl hhdr hfhdr haes hmem, (hl.ccmp haes).1]
        rfl
      · rfl
    simp only [encryptVisits, fragmentLayout, List.length_singleton, ↓reduceIte, hparts, hlast, hlen, hivlen,
      hstart', hicv]
    congr 3
    ring
  · simpa using hbody
  · intro k g hg
    obtain ⟨rfl,rfl⟩ : k = 0 ∧ g = f := by
      rcases k with _ | k
      · exact ⟨rfl,by simpa using hg.symm⟩
      · simp at hg
    refine ⟨hfrag,?_⟩
    have hcut : (hdr.take a.hdrlen).length = a.hdrlen := by
      have h64 := hl.hdrlen.2
      rw [List.length_take, (rtwMakeWlanhdr_spec hhdr).1]
      omega
    have hmin := hl.hdrlen.1
    rw [hfhdr, getMFrag_clearMFrag (by rw [setMFrag, length_setBits, hcut]; omega)]
    simp

end One

/-- The walkers agree, and the headers are right, exactly when the packet is one fragment. -/
theorem fragments_agree_iff {ad : XmitAdapter} {a : PktAttrib} {pktOffset fuel : ℕ} {mem pkt : List UInt8}
    {frags : List TxFragment} {sta : Option StaInfo} (hl : LengthsFit ad a pkt)
    (h : xmitframeCoalesce ad a (hwHdrOffset pktOffset) fuel pkt = some (frags,sta)) (hmem : InBuffer mem frags) :
    FragmentsAgree a ad.fragLen (hwHdrOffset pktOffset) mem pkt frags ↔
      FitsOneFragment a ad.fragLen (pkt.drop a.pktHdrlen) := by
  rw [xmitframeCoalesce] at h
  split at h
  · cases h
  · rename_i hdr psta hhdr
    obtain ⟨frags,hloop,hr⟩ := Option.map_eq_some_iff.mp h
    cases hr
    have hcut : getFragNum (hdr.take a.hdrlen) = 0 := by
      have htake : (hdr.take a.hdrlen).take 24 = hdr.take 24 := by
        rw [List.take_take, Nat.min_eq_left hl.hdrlen.1]
      rw [getFragNum, le16At_congr htake (by decide)]
      exact getFragNum_rtwMakeWlanhdr hl.qos hl.dst hl.src hl.ta hl.bssid hhdr
    have hfrag := coalesceLoop_fragNum hloop
    rw [hcut] at hfrag
    constructor
    · intro hagree
      by_contra hmany
      -- the second fragment has the number of the first
      have htwo := coalesceLoop_many hloop hmany
      have hsecond := hagree.header 1 frags[1] (List.getElem?_eq_getElem _)
      rw [hfrag _ (List.getElem_mem _)] at hsecond
      exact absurd hsecond.1 (by decide)
    · intro hone
      obtain ⟨fuel,rfl⟩ : ∃ n, fuel = n + 1 := by
        cases fuel with
        | zero => cases hloop
        | succ n => exact ⟨n,rfl⟩
      rw [coalesceLoop_fits hone, readPayload_fits hone (by rw [hl.pktlen, List.length_drop])] at hloop
      cases hloop
      exact fragmentsAgree_one hl hhdr rfl rfl rfl rfl hmem (hfrag _ (List.mem_singleton_self _))

/-- The attributes of a packet of the linked station -/
def stationAttrib (pkt : List UInt8) : PktAttrib :=
  ((updateAttrib linkedStation 0 blankAttrib pkt).map (·.1)).getD blankAttrib

theorem fragments_agree_aarp :
    ∃ frags sta mem, xmitframeCoalesce linkedStation (stationAttrib (aarpPacket ownAddr)) (hwHdrOffset 1) 1
        (aarpPacket ownAddr) = some (frags,sta) ∧
      FragmentsAgree (stationAttrib (aarpPacket ownAddr)) 2346 (hwHdrOffset 1) mem (aarpPacket ownAddr) frags := by
  have hsome : (xmitframeCoalesce linkedStation (stationAttrib (aarpPacket ownAddr)) (hwHdrOffset 1) 1
      (aarpPacket ownAddr)).isSome = true := by decide +kernel
  have hbuf : ∀ r ∈ xmitframeCoalesce linkedStation (stationAttrib (aarpPacket ownAddr)) (hwHdrOffset 1) 1
      (aarpPacket ownAddr), ∀ f ∈ r.1,
        slice (List.replicate 48 0 ++ r.1.flatMap TxFragment.bytes) f.start f.bytes.length = f.bytes := by
    decide +kernel
  obtain ⟨⟨frags,sta⟩,hco⟩ := Option.isSome_iff_exists.mp hsome
  have hl : LengthsFit linkedStation (stationAttrib (aarpPacket ownAddr)) (aarpPacket ownAddr) := by
    constructor <;> decide +kernel
  exact ⟨frags,sta,_,hco,(fragments_agree_iff hl hco (hbuf _ hco)).mpr (by decide +kernel)⟩

/-- The second fragment of a packet of 300 bytes goes out with fragment number zero. -/
theorem second_fragment_numbered_zero :
    ∃ frags sta, xmitframeCoalesce { linkedStation with fragLen := 256 } (stationAttrib (List.replicate 314 0))
        (hwHdrOffset 0) 2 (List.replicate 314 0) = some (frags,sta) ∧
      ∀ mem, ¬ FragmentsAgree (stationAttrib (List.replicate 314 0)) 256 (hwHdrOffset 0) mem
        (List.replicate 314 0) frags := by
  have hsome : (xmitframeCoalesce { linkedStation with fragLen := 256 } (stationAttrib (List.replicate 314 0))
      (hwHdrOffset 0) 2 (List.replicate 314 0)).isSome = true := by decide +kernel
  have hnum : ∀ r ∈ xmitframeCoalesce { linkedStation with fragLen := 256 } (stationAttrib (List.replicate 314 0))
      (hwHdrOffset 0) 2 (List.replicate 314 0), ∃ f, r.1[1]? = some f ∧ getFragNum f.hdr = 0 := by
    intro r hr
    have hmap : (xmitframeCoalesce { linkedStation with fragLen := 256 } (stationAttrib (List.replicate 314 0))
        (hwHdrOffset 0) 2 (List.replicate 314 0)).map (fun r => r.1[1]?.map fun f => getFragNum f.hdr) =
          some (some 0) := by decide +kernel
    rw [hr] at hmap
    simpa using hmap
  obtain ⟨⟨frags,sta⟩,hco⟩ := Option.isSome_iff_exists.mp hsome
  refine ⟨frags,sta,hco,?_⟩
  intro mem hagree
  obtain ⟨f,hf,hzero⟩ := hnum _ hco
  have hone := (hagree.header 1 f hf).1
  rw [hzero] at hone
  exact absurd hone (by decide)

end Rtl8188fu
