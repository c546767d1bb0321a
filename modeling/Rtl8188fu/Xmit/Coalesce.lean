import Rtl8188fu.Xmit.WlanHdr

/-! # Fragments of a transmitted packet

`rtw_xmitframe_coalesce` up to the MIC and the encryption, and what the functions after it
take the fragments to be. `buf_addr` is four-byte aligned, as the allocator leaves it, so
rounding addresses is rounding offsets from it.
-/
namespace Rtl8188fu
open Bytes

/-- `hw_hdr_offset`, built with `CONFIG_USB_TX_AGGREGATION`; an `u8` -/
def hwHdrOffset (pktOffset : ℕ) : ℕ := (TXDESC_SIZE + pktOffset * PACKET_OFFSET_SZ) % 256

def rtwPutSnap (hProto : ℕ) : List UInt8 :=
  (if hProto = 0x8137 ∨ hProto = 0x80f3 then rtwBridgeTunnelHeader else rtwRfc1042Header) ++ be16Bytes hProto

/-- What the loop writes for one fragment, one part behind the other from `start` on -/
structure TxFragment where
  /-- `mem_start`, from `buf_addr` -/
  start : ℕ
  hdr : List UInt8
  iv : List UInt8
  /-- the LLC header, in the first fragment, and the part of the packet -/
  body : List UInt8
  icv : List UInt8
  deriving DecidableEq

def TxFragment.bytes (f : TxFragment) : List UInt8 := f.hdr ++ f.iv ++ f.body ++ f.icv

/-- The ICV that is left room for -/
def swIcvLen (a : PktAttrib) : ℕ := if a.bswenc then a.icvLen else 0

/-- `mpdu_len` when the payload is read: a negative number is read as a very large one. -/
def mpduLen (a : PktAttrib) (fragLen : ℕ) (first : Bool) : ℤ :=
  (fragLen : ℤ) - 4 - a.hdrlen - a.ivLen - (if first then 8 else 0) - swIcvLen a

/-- `_rtw_pktfile_read` of the payload of one fragment -/
def readPayload (a : PktAttrib) (fragLen : ℕ) (first : Bool) (pkt : List UInt8) : List UInt8 :=
  if isMcast a.ra then pkt.take a.pktlen
  else if mpduLen a fragLen first < 0 then pkt
  else pkt.take (mpduLen a fragLen first).toNat

/-- The loop of `rtw_xmitframe_coalesce` with what is left of the packet. It does not end
when a fragment has no room for payload; `none` when it has not ended after `fuel` turns. -/
def coalesceLoop (a : PktAttrib) (fragLen hw : ℕ) (hdr : List UInt8) :
    ℕ → Bool → ℕ → List UInt8 → Option (List TxFragment)
  | 0, _, _, _ => none
  | fuel + 1, first, memStart, pkt =>
    let payload := readPayload a fragLen first pkt
    let rest := pkt.drop payload.length
    let f : TxFragment :=
      { start := memStart
        hdr := setMFrag hdr
        iv := a.iv.take a.ivLen
        body := (if first then rtwPutSnap a.etherType else []) ++ payload
        icv := a.icv.take (swIcvLen a) }
    if isMcast a.ra || rest.isEmpty then some [{ f with hdr := clearMFrag f.hdr }]
    else
      let pframe := memStart + a.hdrlen + a.ivLen + f.body.length + swIcvLen a
      (coalesceLoop a fragLen hw hdr fuel false (rnd4 pframe + hw) rest).map (f :: ·)

def lastTxcmdsz (a : PktAttrib) (frags : List TxFragment) : ℕ :=
  a.hdrlen + a.ivLen + swIcvLen a + ((frags.getLast?.map fun f => f.body.length).getD 0)

/-- The first part of `rtw_xmitframe_coalesce` on a packet with its Ethernet header, `none` when
there is no header or no end; the header is the first `hdrlen` bytes of what was made. -/
def xmitframeCoalesce (ad : XmitAdapter) (a : PktAttrib) (hw fuel : ℕ) (pkt : List UInt8) :
    Option (List TxFragment × Option StaInfo) :=
  match rtwMakeWlanhdr ad a with
  | none => none
  | some (hdr, psta) =>
    (coalesceLoop a ad.fragLen hw (hdr.take a.hdrlen) fuel true hw (pkt.drop a.pktHdrlen)).map (·, psta)

/-- Whether the packet goes into one fragment: group addressed packets are not fragmented,
and a negative room is taken for a very large one. -/
def FitsOneFragment (a : PktAttrib) (fragLen : ℕ) (pkt : List UInt8) : Prop :=
  isMcast a.ra = true ∨ mpduLen a fragLen true < 0 ∨ (pkt.length : ℤ) ≤ mpduLen a fragLen true

instance (a : PktAttrib) (fragLen : ℕ) (pkt : List UInt8) : Decidable (FitsOneFragment a fragLen pkt) := by
  delta FitsOneFragment
  infer_instance

/-- The loop ends in its first turn exactly for these packets. -/
theorem fitsOneFragment_iff (a : PktAttrib) (fragLen : ℕ) (pkt : List UInt8) :
    FitsOneFragment a fragLen pkt ↔
      (isMcast a.ra || (pkt.drop (readPayload a fragLen true pkt).length).isEmpty) = true := by
  rw [FitsOneFragment, readPayload]
  cases isMcast a.ra with
  | true => simp
  | false =>
    by_cases hneg : mpduLen a fragLen true < 0
    · simp [hneg]
    · simp only [Bool.false_eq_true, hneg, ↓reduceIte, false_or, Bool.false_or, List.length_take,
        List.isEmpty_iff, List.drop_eq_nil_iff]
      omega

theorem coalesceLoop_iv {a : PktAttrib} {fragLen hw : ℕ} {hdr : List UInt8} {fuel : ℕ} {first : Bool}
    {memStart : ℕ} {pkt : List UInt8} {frags : List TxFragment}
    (h : coalesceLoop a fragLen hw hdr fuel first memStart pkt = some frags) :
    ∀ f ∈ frags, f.iv = a.iv.take a.ivLen := by
  induction fuel generalizing first memStart pkt frags with
  | zero => cases h
  | succ fuel ih =>
    rw [coalesceLoop] at h
    dsimp only at h
    split at h
    · cases h
      intro f hf
      rw [List.mem_singleton.mp hf]
    · obtain ⟨rest,hrest,rfl⟩ := Option.map_eq_some_iff.mp h
      intro f hf
      rcases List.mem_cons.mp hf with rfl | hf
      · rfl
      · exact ih hrest f hf

theorem coalesceLoop_fits {a : PktAttrib} {fragLen hw : ℕ} {hdr : List UInt8} {memStart : ℕ} {pkt : List UInt8}
    (hone : FitsOneFragment a fragLen pkt) (fuel : ℕ) :
    coalesceLoop a fragLen hw hdr (fuel + 1) true memStart pkt =
      some [{ start := memStart
              hdr := clearMFrag (setMFrag hdr)
              iv := a.iv.take a.ivLen
              body := rtwPutSnap a.etherType ++ readPayload a fragLen true pkt
              icv := a.icv.take (swIcvLen a) }] := by
  rw [coalesceLoop]
  dsimp only
  rw [if_pos ((fitsOneFragment_iff a fragLen pkt).mp hone)]
  rfl

theorem coalesceLoop_one {a : PktAttrib} {fragLen hw : ℕ} {hdr : List UInt8} {fuel memStart : ℕ}
    {pkt : List UInt8} {frags : List TxFragment}
    (h : coalesceLoop a fragLen hw hdr fuel true memStart pkt = some frags) (hone : FitsOneFragment a fragLen pkt) :
    frags.length = 1 := by
  cases fuel with
  | zero => cases h
  | succ fuel =>
    rw [coalesceLoop_fits hone] at h
    cases h
    rfl

theorem readPayload_fits {a : PktAttrib} {fragLen : ℕ} {pkt : List UInt8} (hone : FitsOneFragment a fragLen pkt)
    (hlen : a.pktlen = pkt.length) : readPayload a fragLen true pkt = pkt := by
  rw [readPayload]
  split
  · rw [hlen, List.take_length]
  · rename_i hmc
    split
    · rfl
    · rename_i hneg
      rcases hone with h | h | h
      · exact absurd h hmc
      · exact absurd h hneg
      · rw [List.take_of_length_le]
        omega

/-- Every fragment has the IV of the packet; a packet that fits is one fragment; the station
keeps its packet number. -/
theorem xmitframeCoalesce_spec {ad : XmitAdapter} {a : PktAttrib} {hw fuel : ℕ} {pkt : List UInt8}
    {frags : List TxFragment} {sta : Option StaInfo}
    (h : xmitframeCoalesce ad a hw fuel pkt = some (frags,sta)) :
    (∀ f ∈ frags, f.iv = a.iv.take a.ivLen) ∧
      (FitsOneFragment a ad.fragLen (pkt.drop a.pktHdrlen) → frags.length = 1) ∧
      ∀ t ∈ sta, ∃ t', rtwGetStainfo ad.stapriv a.ra = some t' ∧ t.dot11txpn = t'.dot11txpn := by
  rw [xmitframeCoalesce] at h
  split at h
  · cases h
  · rename_i hdr psta hhdr
    obtain ⟨frags,hloop,hr⟩ := Option.map_eq_some_iff.mp h
    cases hr
    exact ⟨coalesceLoop_iv hloop,coalesceLoop_one hloop,(rtwMakeWlanhdr_spec hhdr).2⟩

end Rtl8188fu
