import Rtl8188fu.Library.KeyStream
import Rtl8188fu.Security.AesInjective
import Rtl8188fu.Security.Ccmp

/-! # CCMP decryption against CCMP encryption

Both directions mask the payload with a key stream that depends on the header and the
packet number only, and AES is injective, so the frame comes back when both read the same
packet number. The MIC that is compared is a function of a few blocks built from the
header, and of the payload.
-/
namespace Rtl8188fu
open Bytes KeyStream

theorem take_mask {ks : ℕ → UInt8} {p : List UInt8} {i n k : ℕ} (h : k ≤ i) :
    (mask ks p i n).take k = p.take k :=
  slice_mask_below (j := 0) (by omega)

theorem take_patch {p bs : List UInt8} {i k : ℕ} (h : k ≤ i) : (patch p i bs).take k = p.take k :=
  slice_patch_below (j := 0) (by omega)

section Header
variable {p q : List UInt8} (h : p.take 32 = q.take 32)
include h

theorem getFrameType_congr : getFrameType p = getFrameType q := by
  rw [getFrameType, getFrameType, le16At, le16At, byteAt_congr h (by decide), byteAt_congr h (by decide)]

theorem qcExists_congr : qcExists p = qcExists q := by
  have hsub : getFrameSubType p = getFrameSubType q := by
    rw [getFrameSubType, getFrameSubType, le16At, le16At, byteAt_congr h (by decide), byteAt_congr h (by decide)]
  rw [qcExists, qcExists, getFrameType_congr h, hsub]

theorem ccmpHdrlen_congr (hdrlen : ℕ) : ccmpHdrlen p hdrlen = ccmpHdrlen q hdrlen := by
  rw [ccmpHdrlen, ccmpHdrlen, qcExists_congr h]

theorem nonceFlags_congr (qc a4 : Bool) : nonceFlags qc a4 p = nonceFlags qc a4 q := by
  have htid : byteAt p (if a4 then 30 else 24) = byteAt q (if a4 then 30 else 24) := by
    apply byteAt_congr h
    split <;> decide
  rw [nonceFlags, nonceFlags, getFrameType_congr h, htid]

theorem constructMicIv_congr (qc a4 : Bool) (plen : ℕ) (pn : List UInt8) :
    constructMicIv qc a4 p plen pn = constructMicIv qc a4 q plen pn := by
  rw [constructMicIv, constructMicIv, nonceFlags_congr h, getAddr2Ptr, getAddr2Ptr, slice_congr h (by decide)]

theorem constructCtrPreload_congr (qc a4 : Bool) (pn : List UInt8) :
    constructCtrPreload a4 qc p pn = constructCtrPreload a4 qc q pn := by
  funext c
  rw [constructCtrPreload, constructCtrPreload, nonceFlags_congr h, getAddr2Ptr, getAddr2Ptr,
    slice_congr h (by decide)]

theorem constructMicHeader1_congr (hdrlen : ℕ) : constructMicHeader1 hdrlen p = constructMicHeader1 hdrlen q := by
  simp only [constructMicHeader1, getFrameType_congr h, getAddr1Ptr, getAddr2Ptr]
  rw [byteAt_congr h (i := 0) (by decide), byteAt_congr h (i := 1) (by decide),
    slice_congr h (i := 4) (by decide), slice_congr h (i := 10) (by decide)]

theorem constructMicHeader2_congr (a4 qc : Bool) : constructMicHeader2 p a4 qc = constructMicHeader2 q a4 qc := by
  simp only [constructMicHeader2, getAddr3Ptr, getAddr4Ptr]
  rw [byteAt_congr h (i := 24) (by decide), byteAt_congr h (i := 30) (by decide),
    slice_congr h (i := 16) (by decide), slice_congr h (i := 24) (by decide)]

end Header

theorem pnVector_congr {p q : List UInt8} {k i : ℕ} (h : p.take k = q.take k) (hi : i + 8 ≤ k) :
    pnVector p i = pnVector q i := by
  simp only [pnVector, byteAt_congr h (show i < k by omega), byteAt_congr h (show i + 1 < k by omega),
    byteAt_congr h (show i + 4 < k by omega), byteAt_congr h (show i + 5 < k by omega),
    byteAt_congr h (show i + 6 < k by omega), byteAt_congr h (show i + 7 < k by omega)]

theorem byteAt_paddedBuffer {p : List UInt8} {i n j : ℕ} (hj : j < 16) :
    byteAt (paddedBuffer p i n) j = if j < n then byteAt p (i + j) else 0 := by
  simp [byteAt, paddedBuffer, List.getD_eq_getElem?_getD, hj]

@[simp] theorem length_xor128 (a b : List UInt8) : (xor128 a b).length = 16 := by simp [xor128]

/-- The stream of counter blocks from counter `c` on -/
def ctrStream (key : List UInt8) (preload : ℕ → List UInt8) (c : ℕ) (j : ℕ) : UInt8 :=
  byteAt (aes128k128d key (preload (c + j / 16))) (j % 16)

section Counter
variable {key : List UInt8} {preload : List UInt8 → ℕ → List UInt8}

theorem ctrShort_eq_mask {c i n : ℕ} {p : List UInt8} (hn : n ≤ 16) (hp : i + n ≤ p.length) :
    ctrShort key preload c i n p = mask (ctrStream key (preload p) c) p i n := by
  apply patch_eq_mask
  · simp [hn]
  · exact hp
  · intro j hj
    have htake : ((xor128 (aes128k128d key (preload p c)) (paddedBuffer p i n)).take n).getD j 0 =
        byteAt (xor128 (aes128k128d key (preload p c)) (paddedBuffer p i n)) j := by
      simp [byteAt, List.getD_eq_getElem?_getD, hj]
    rw [htake, byteAt_xor128 _ _ (by omega), byteAt_paddedBuffer (by omega), if_pos hj, ctrStream,
      Nat.div_eq_of_lt (by omega), Nat.mod_eq_of_lt (by omega)]
    rfl

variable (hpre : ∀ p q : List UInt8, p.take 32 = q.take 32 → preload p = preload q)
include hpre

/-- Induction on the number of blocks; the header below the payload stays as it is, so the
counter blocks are those of the first frame. -/
theorem ctrBlocks_eq_mask {n c i : ℕ} {p : List UInt8} (hi : 32 ≤ i) (hp : i + 16 * n ≤ p.length) :
    ctrBlocks key preload n c i p = mask (ctrStream key (preload p) c) p i (16 * n) := by
  induction n generalizing c i p with
  | zero => exact (mask_zero _ p i).symm
  | succ n ih =>
    have hblock : patch p i (xor128 (aes128k128d key (preload p c)) (p.drop i)) =
        mask (ctrStream key (preload p) c) p i 16 := by
      apply patch_eq_mask (length_xor128 _ _) (by omega)
      intro j hj
      rw [ctrStream, Nat.div_eq_of_lt hj, Nat.mod_eq_of_lt hj]
      exact (byteAt_xor128 _ _ hj).trans (congrArg _ (byteAt_drop p i j))
    have hstream : ctrStream key (preload p) (c + 1) = fun j => ctrStream key (preload p) c (16 + j) := by
      funext j
      rw [ctrStream, ctrStream, show (16 + j) / 16 = 1 + j / 16 by omega, show (16 + j) % 16 = j % 16 by omega,
        Nat.add_assoc]
    rw [ctrBlocks, hblock, ih (by omega) (by rw [length_mask]; omega), hpre _ p (take_mask hi), hstream,
      mask_append, show 16 + 16 * n = 16 * (n + 1) by omega]

theorem ctrPayload_eq_mask {i plen : ℕ} {p : List UInt8} (hi : 32 ≤ i) (hp : i + plen ≤ p.length) :
    ctrPayload key preload i plen p = mask (ctrStream key (preload p) 1) p i plen := by
  have hdiv := Nat.div_add_mod plen 16
  have hblocks : ctrBlocks key preload (plen / 16) 1 i p =
      mask (ctrStream key (preload p) 1) p i (16 * (plen / 16)) := ctrBlocks_eq_mask hpre hi (by omega)
  rw [ctrPayload, hblocks]
  split
  · rw [ctrShort_eq_mask (by omega) (by rw [length_mask]; omega), hpre _ p (take_mask hi)]
    have hstream : ctrStream key (preload p) (plen / 16 + 1) =
        fun j => ctrStream key (preload p) 1 (16 * (plen / 16) + j) := by
      funext j
      rw [ctrStream, ctrStream, show (16 * (plen / 16) + j) / 16 = plen / 16 + j / 16 by omega,
        show (16 * (plen / 16) + j) % 16 = j % 16 by omega,
        show 1 + (plen / 16 + j / 16) = plen / 16 + 1 + j / 16 by omega]
    rw [hstream, mask_append, hdiv]
  · rw [show 16 * (plen / 16) = plen by omega]

end Counter

/-- The bytes that are MACed after the header blocks, and nothing else of the frame, decide
the MIC. -/
theorem micBlocks_congr {key p q : List UInt8} {n : ℕ} {i j : ℕ}
    (h : ∀ k < 16 * n, byteAt p (i + k) = byteAt q (j + k)) (aesOut : List UInt8) :
    micBlocks key p n i aesOut = micBlocks key q n j aesOut := by
  induction n generalizing i j aesOut with
  | zero => rfl
  | succ n ih =>
    have hxor : xor128 aesOut (p.drop i) = xor128 aesOut (q.drop j) := by
      apply List.map_congr_left
      intro k hk
      have := List.mem_range.mp hk
      rw [byteAt_drop, byteAt_drop, h k (by omega)]
    rw [micBlocks, micBlocks, hxor]
    apply ih
    intro k hk
    have := h (16 + k) (by omega)
    rwa [← Nat.add_assoc, ← Nat.add_assoc] at this

theorem calculateMic_slice (key micIv h1 h2 p : List UInt8) (i plen : ℕ) :
    calculateMic key micIv h1 h2 p i plen = calculateMic key micIv h1 h2 (slice p i plen) 0 plen := by
  have hbyte : ∀ k < plen, byteAt p (i + k) = byteAt (slice p i plen) (0 + k) := by
    intro k hk
    rw [byteAt, byteAt, List.getD_eq_getElem?_getD, List.getD_eq_getElem?_getD, getElem?_slice,
      if_pos (by omega), Nat.zero_add]
  have hpad : paddedBuffer p (i + 16 * (plen / 16)) (plen % 16) =
      paddedBuffer (slice p i plen) (0 + 16 * (plen / 16)) (plen % 16) := by
    apply List.map_congr_left
    intro k hk
    split
    · rw [Nat.add_assoc, Nat.add_assoc]
      exact hbyte _ (by omega)
    · rfl
  rw [calculateMic, calculateMic, micBlocks_congr (fun k hk => hbyte k (by omega)), hpad]

/-- What the MIC of a frame is computed from: the nonce block, the two blocks of masked
header fields, the counter block that encrypts it, and the payload -/
structure MicFields where
  micIv : List UInt8
  micHeader1 : List UInt8
  micHeader2 : List UInt8
  ctrPreload : List UInt8
  payload : List UInt8

def MicFields.mic (key : List UInt8) (m : MicFields) : List UInt8 :=
  mask (byteAt (aes128k128d key m.ctrPreload))
    (calculateMic key m.micIv m.micHeader1 m.micHeader2 m.payload 0 m.payload.length) 0 8

/-- The fields of a frame and its payload -/
def micFields (mpdu : List UInt8) (hdrlen : ℕ) (payload : List UInt8) : MicFields :=
  let qc := qcExists mpdu
  let a4 := a4Exists hdrlen
  let pn := pnVector mpdu (ccmpHdrlen mpdu hdrlen)
  { micIv := constructMicIv qc a4 mpdu payload.length pn
    micHeader1 := constructMicHeader1 (ccmpHdrlen mpdu hdrlen) mpdu
    micHeader2 := constructMicHeader2 mpdu a4 qc
    ctrPreload := constructCtrPreload a4 qc mpdu pn 0
    payload := payload }

theorem micFields_congr {p q : List UInt8} {hdrlen : ℕ} (hh : 24 ≤ hdrlen) (payload : List UInt8)
    (h : p.take (ccmpHdrlen q hdrlen + 8) = q.take (ccmpHdrlen q hdrlen + 8)) :
    micFields p hdrlen payload = micFields q hdrlen payload := by
  have hle : hdrlen ≤ ccmpHdrlen q hdrlen := by
    rw [ccmpHdrlen]
    split <;> omega
  have h32 : p.take 32 = q.take 32 := by
    have := congrArg (List.take 32) h
    rwa [List.take_take, List.take_take, Nat.min_eq_left (by omega)] at this
  simp only [micFields, qcExists_congr h32, ccmpHdrlen_congr h32, pnVector_congr h (Nat.le_refl _),
    constructMicIv_congr h32, constructMicHeader1_congr h32, constructMicHeader2_congr h32,
    constructCtrPreload_congr h32]

@[simp] theorem length_aes128k128d (key data : List UInt8) : (aes128k128d key data).length = 16 :=
  length_xor128 _ _

theorem length_micBlocks {key p out : List UInt8} (h : out.length = 16) (n i : ℕ) :
    (micBlocks key p n i out).length = 16 := by
  induction n generalizing i out with
  | zero => exact h
  | succ n ih => exact ih (length_aes128k128d _ _) _

theorem length_calculateMic (key micIv h1 h2 p : List UInt8) (i plen : ℕ) :
    (calculateMic key micIv h1 h2 p i plen).length = 8 := by
  rw [calculateMic, List.length_take]
  split
  · rw [length_aes128k128d]
    rfl
  · rw [length_micBlocks (length_aes128k128d _ _)]
    rfl

/-- The key stream of the payload with the packet number that is read at `pnAt` -/
def payloadStream (key mpdu : List UInt8) (hdrlen pnAt : ℕ) : ℕ → UInt8 :=
  ctrStream key (constructCtrPreload (a4Exists hdrlen) (qcExists mpdu) mpdu (pnVector mpdu pnAt)) 1

/-- Sealing masks the payload and puts the encrypted MIC behind it. -/
theorem aesSeal_eq {key p : List UInt8} {qc a4 : Bool} {h plen : ℕ} (hh : 24 ≤ h)
    (hp : h + plen + 16 ≤ p.length) :
    aesSeal key qc a4 h p plen =
      mask (ctrStream key (constructCtrPreload a4 qc p (pnVector p h)) 0)
        (patch (mask (ctrStream key (constructCtrPreload a4 qc p (pnVector p h)) 1) p (h + 8) plen) (h + 8 + plen)
          (calculateMic key (constructMicIv qc a4 p plen (pnVector p h)) (constructMicHeader1 h p)
            (constructMicHeader2 p a4 qc) p (h + 8) plen)) (h + 8 + plen) 8 := by
  have hpre : ∀ q r : List UInt8, q.take 32 = r.take 32 →
      constructCtrPreload a4 qc q (pnVector p h) = constructCtrPreload a4 qc r (pnVector p h) :=
    fun _ _ h => constructCtrPreload_congr h _ _ _
  rw [aesSeal, ctrPayload_eq_mask hpre (by omega) (by rw [length_patch]; omega),
    ctrShort_eq_mask (by decide) (by rw [length_mask, length_patch]; omega), hpre _ p (take_patch (by omega)),
    mask_patch_above (Nat.le_refl _), hpre _ p ((take_patch (by omega)).trans (take_mask (by omega)))]

theorem le_ccmpHdrlen (p : List UInt8) {k hdrlen : ℕ} (hh : k ≤ hdrlen) : k ≤ ccmpHdrlen p hdrlen := by
  rw [ccmpHdrlen]
  split <;> omega

section Seal
variable {key p : List UInt8} {hdrlen plen h : ℕ} (hh : 24 ≤ hdrlen) (hadj : ccmpHdrlen p hdrlen = h)
  (hp : h + plen + 16 ≤ p.length)
include hh hadj hp

theorem aesSeal_take :
    (aesSeal key (qcExists p) (a4Exists hdrlen) h p plen).take (h + 8) = p.take (h + 8) := by
  have h24 := le_ccmpHdrlen p hh
  rw [aesSeal_eq (by omega) hp, take_mask (by omega), take_patch (by omega), take_mask (Nat.le_refl _)]

theorem aesSeal_payload :
    slice (aesSeal key (qcExists p) (a4Exists hdrlen) h p plen) (h + 8) plen =
      mask (payloadStream key p hdrlen h) (slice p (h + 8) plen) 0 plen := by
  have h24 := le_ccmpHdrlen p hh
  rw [aesSeal_eq (by omega) hp, slice_mask_below (Nat.le_refl _), slice_patch_below (Nat.le_refl _), slice_mask,
    payloadStream]

/-- The MIC behind the payload is that of the fields of the frame. -/
theorem aesSeal_mic :
    slice (aesSeal key (qcExists p) (a4Exists hdrlen) h p plen) (h + 8 + plen) 8 =
      (micFields p hdrlen (slice p (h + 8) plen)).mic key := by
  have h24 := le_ccmpHdrlen p hh
  have hlen : (slice p (h + 8) plen).length = plen := length_slice_of_le (by omega)
  rw [aesSeal_eq (by omega) hp, slice_mask,
    slice_patch_of_length (length_calculateMic _ _ _ _ _ _ _) (by rw [length_mask]; omega),
    MicFields.mic, calculateMic_slice]
  simp only [micFields, hlen, hadj]
  apply mask_congr
  intro j hj
  rw [ctrStream, Nat.div_eq_of_lt (by omega), Nat.mod_eq_of_lt (by omega)]

end Seal

/-- `aes_decipher` on a frame that fits the buffers: the payload is masked, and the answer
is the comparison of the received MIC with the one of the fields of the frame. -/
theorem aesDecipher_eq {key g : List UInt8} {hdrlen plen h : ℕ} (hh : 24 ≤ hdrlen)
    (hadj : ccmpHdrlen g hdrlen = h) (hg : h + plen + 16 ≤ g.length) (hmax : h + plen + 16 ≤ MAX_MSG_SIZE) :
    aesDecipher key hdrlen g (plen + 8) =
      some (if slice g (h + 8 + plen) 8 = (micFields g hdrlen
          (mask (payloadStream key g hdrlen hdrlen) (slice g (h + 8) plen) 0 plen)).mic key then .success else .fail,
        mask (payloadStream key g hdrlen hdrlen) g (h + 8) plen) := by
  have h24 := le_ccmpHdrlen g hh
  have hpre : ∀ q r : List UInt8, q.take 32 = r.take 32 →
      constructCtrPreload (a4Exists hdrlen) (qcExists g) q (pnVector g hdrlen) =
        constructCtrPreload (a4Exists hdrlen) (qcExists g) r (pnVector g hdrlen) :=
    fun _ _ h => constructCtrPreload_congr h _ _ _
  rw [aesDecipher]
  dsimp only
  rw [hadj, if_neg (by omega), Nat.add_sub_cancel, ctrPayload_eq_mask hpre (by omega) (by omega)]
  generalize hout : mask (payloadStream key g hdrlen hdrlen) g (h + 8) plen = out
  have hout' : mask (ctrStream key (constructCtrPreload (a4Exists hdrlen) (qcExists g) g (pnVector g hdrlen)) 1) g
      (h + 8) plen = out := hout
  rw [hout']
  have hlen : out.length = g.length := by rw [← hout, length_mask]
  have htake : ∀ k ≤ h + 8, out.take k = g.take k := by
    intro k hk
    rw [← hout, take_mask hk]
  -- the copy in `message` has the header of the frame and the decrypted payload
  have hcopy : ∀ k ≤ h + 8, (out.take (h + (plen + 8) + 8)).take k = g.take k := by
    intro k hk
    rw [List.take_take, Nat.min_eq_left (by omega), htake k hk]
  have hqc : qcExists (out.take (h + (plen + 8) + 8)) = qcExists g := qcExists_congr (hcopy 32 (by omega))
  have hpay : slice (out.take (h + (plen + 8) + 8)) (h + 8) plen =
      mask (payloadStream key g hdrlen hdrlen) (slice g (h + 8) plen) 0 plen := by
    rw [slice_congr (List.take_take.trans (by rw [Nat.min_self])) (by omega), ← hout, slice_mask]
  have hmic : slice (aesSeal key (qcExists (out.take (h + (plen + 8) + 8))) (a4Exists hdrlen) h
      (out.take (h + (plen + 8) + 8)) plen) (h + 8 + plen) 8 = _ :=
    aesSeal_mic hh ((ccmpHdrlen_congr (hcopy 32 (by omega)) hdrlen).trans hadj)
      (by rw [List.length_take]; omega)
  rw [hqc, hpay, micFields_congr hh _ (by rw [hadj]; exact hcopy _ (Nat.le_refl _))] at hmic
  rw [show h + 8 + (plen + 8) - 8 = h + 8 + plen by omega, hmic, ← hout, slice_mask_above (Nat.le_refl _)]

/-- What is asked of decryption for one key, frame and length: it undoes encryption, and
its answer on any other frame is the comparison of the MIC found there with the one
computed from the fields and the decrypted payload of that frame. -/
structure CcmpUndoes (key : List UInt8) (hdrlen : ℕ) (frame : List UInt8) (plen : ℕ) : Prop where
  roundTrip : ∃ out, aesDecipher key hdrlen (aesCipher key hdrlen frame plen) (plen + 8) = some (.success,out) ∧
    out.take (ccmpHdrlen frame hdrlen + 8 + plen) = frame.take (ccmpHdrlen frame hdrlen + 8 + plen)
  micChecked : ∀ g : List UInt8, g.length = frame.length →
    ∃ status out, aesDecipher key hdrlen g (plen + 8) = some (status,out) ∧
      (status = .success ↔ slice g (ccmpHdrlen g hdrlen + 8 + plen) 8 =
        (micFields g hdrlen (slice out (ccmpHdrlen g hdrlen + 8) plen)).mic key)

/-- The longest header that `hdrlen` is adjusted to -/
def ccmpHdrlenMax (hdrlen : ℕ) : ℕ := if hdrlen = WLAN_HDR_A3_QOS_LEN then hdrlen else hdrlen + 2

theorem ccmpHdrlen_le_max (p : List UInt8) (hdrlen : ℕ) : ccmpHdrlen p hdrlen ≤ ccmpHdrlenMax hdrlen := by
  rw [ccmpHdrlen, ccmpHdrlenMax]
  split_ifs <;> simp_all

/-- The frames of which both directions read the same packet number, with room for the
MIC in the message buffer -/
structure CcmpAgrees (hdrlen : ℕ) (frame : List UInt8) (plen : ℕ) : Prop where
  fits : ccmpHdrlenMax hdrlen + plen + 16 ≤ MAX_MSG_SIZE
  samePn : plen = 0 ∨ pnVector frame hdrlen = pnVector frame (ccmpHdrlen frame hdrlen)

theorem take_eq_iff_slice {p q : List UInt8} {k n : ℕ} (h : p.take k = q.take k) :
    p.take (k + n) = q.take (k + n) ↔ slice p k n = slice q k n := by
  have hsplit : ∀ m : List UInt8, m.take (k + n) = m.take k ++ slice m k n :=
    fun m => List.take_add
  rw [hsplit p, hsplit q, h]
  exact List.append_cancel_left_eq _ _ _ |>.to_iff

theorem qcExists_qosData (p : List UInt8) : qcExists (0x88 :: p) = true := by
  have hbits : ∀ n : Fin 256, (0x88 + 256 * (n : ℕ)) &&& 0x0c = 0x08 ∧
      (0x88 + 256 * (n : ℕ)) &&& 0xfc = 0x88 := by
    decide +kernel
  obtain ⟨htype,hsub⟩ := hbits ⟨(byteAt p 0).toNat,(byteAt p 0).toNat_lt⟩
  have hft : getFrameType (0x88 :: p) = 0x08 := htype
  have hst : getFrameSubType (0x88 :: p) = 0x88 := hsub
  rw [qcExists, hft, hst]
  rfl

theorem length_constructCtrPreload {a4 qc : Bool} {p pn : List UInt8} {c : ℕ} (hp : 16 ≤ p.length) :
    (constructCtrPreload a4 qc p pn c).length = 16 := by
  have haddr : (getAddr2Ptr p).length = 6 := length_slice_of_le hp
  simp [constructCtrPreload, haddr]

theorem constructCtrPreload_pn {a4 qc : Bool} {p : List UInt8} {i j c : ℕ}
    (h : constructCtrPreload a4 qc p (pnVector p i) c = constructCtrPreload a4 qc p (pnVector p j) c) :
    pnVector p i = pnVector p j := by
  obtain ⟨h5,h4,h3,h2,h1,h0,-⟩ : byteAt p (i + 7) = byteAt p (j + 7) ∧ byteAt p (i + 6) = byteAt p (j + 6) ∧
      byteAt p (i + 5) = byteAt p (j + 5) ∧ byteAt p (i + 4) = byteAt p (j + 4) ∧
      byteAt p (i + 1) = byteAt p (j + 1) ∧ byteAt p i = byteAt p j ∧ True := by
    have hpn := List.append_cancel_left (List.append_cancel_right h |>.trans rfl)
    simpa [pnVector, List.range_succ, byteAt] using hpn
  rw [pnVector, pnVector, h0, h1, h2, h3, h4, h5]

/-- A frame that is altered into a QoS data frame has the longest header, and still has to
fit the message buffer. -/
theorem fits_of_micChecked {key frame : List UInt8} {hdrlen plen : ℕ} (hframe : 0 < frame.length)
    (hmic : ∀ g : List UInt8, g.length = frame.length → ∃ r, aesDecipher key hdrlen g (plen + 8) = some r) :
    ccmpHdrlenMax hdrlen + plen + 16 ≤ MAX_MSG_SIZE := by
  obtain ⟨r,hr⟩ := hmic (0x88 :: frame.drop 1) (by rw [List.length_cons, List.length_drop]; omega)
  have hqc := qcExists_qosData (frame.drop 1)
  have hadj : ccmpHdrlen (0x88 :: frame.drop 1) hdrlen = ccmpHdrlenMax hdrlen := by
    rw [ccmpHdrlen, ccmpHdrlenMax, hqc]
    split_ifs <;> simp_all
  by_contra hbig
  rw [aesDecipher] at hr
  dsimp only at hr
  rw [hadj, if_pos (by omega)] at hr
  cases hr

/-- Two key streams that agree on a block are streams of the same packet number. -/
theorem pnVector_of_stream {key frame : List UInt8} {hdrlen i j : ℕ} (hframe : 16 ≤ frame.length)
    (h : ∀ k < 16, payloadStream key frame hdrlen i k = payloadStream key frame hdrlen j k) :
    pnVector frame i = pnVector frame j := by
  have hlen : ∀ pn, (constructCtrPreload (a4Exists hdrlen) (qcExists frame) frame pn 1).length = 16 :=
    fun pn => length_constructCtrPreload hframe
  apply constructCtrPreload_pn
  apply aes128k128d_injective (hlen _) (hlen _)
  apply eq_of_byteAt (length_aes128k128d key _) (length_aes128k128d key _)
  intro k hk
  have := h k hk
  rwa [payloadStream, payloadStream, ctrStream, ctrStream, Nat.div_eq_of_lt hk, Nat.mod_eq_of_lt hk] at this

section Undo
variable {key frame : List UInt8} {hdrlen plen : ℕ} (hh : 24 ≤ hdrlen)
  (hroom : ccmpHdrlenMax hdrlen + plen + 16 ≤ frame.length)
include hh hroom

/-- The round trip holds exactly when the key streams of the two readings of the packet
number agree. -/
theorem roundTrip_iff (hmax : ccmpHdrlenMax hdrlen + plen + 16 ≤ MAX_MSG_SIZE) :
    (∃ out, aesDecipher key hdrlen (aesCipher key hdrlen frame plen) (plen + 8) = some (.success,out) ∧
      out.take (ccmpHdrlen frame hdrlen + 8 + plen) = frame.take (ccmpHdrlen frame hdrlen + 8 + plen)) ↔
        ∀ j < plen, payloadStream key frame hdrlen hdrlen j =
          payloadStream key frame hdrlen (ccmpHdrlen frame hdrlen) j := by
  have hle := ccmpHdrlen_le_max frame hdrlen
  obtain ⟨h,hadj⟩ : ∃ h, ccmpHdrlen frame hdrlen = h := ⟨_,rfl⟩
  have h24 : hdrlen ≤ h := hadj ▸ le_ccmpHdrlen frame (Nat.le_refl _)
  rw [hadj] at hle ⊢
  obtain ⟨c,hc⟩ : ∃ c, aesCipher key hdrlen frame plen = c := ⟨_,rfl⟩
  have hseal : c = aesSeal key (qcExists frame) (a4Exists hdrlen) h frame plen := by
    rw [← hc, aesCipher, hadj]
  have hhead : c.take (h + 8) = frame.take (h + 8) := hseal ▸ aesSeal_take hh hadj (by omega)
  have hlen : c.length = frame.length := by
    rw [hseal, aesSeal_eq (by omega) (by omega), length_mask, length_patch, length_mask]
  have h32 : c.take 32 = frame.take 32 := by
    have := congrArg (List.take 32) hhead
    rwa [List.take_take, List.take_take, Nat.min_eq_left (by omega)] at this
  have hcadj : ccmpHdrlen c hdrlen = h := (ccmpHdrlen_congr h32 hdrlen).trans hadj
  have hstream : payloadStream key c hdrlen hdrlen = payloadStream key frame hdrlen hdrlen := by
    rw [payloadStream, payloadStream, constructCtrPreload_congr h32, qcExists_congr h32,
      pnVector_congr hhead (by omega)]
  have hpay : slice c (h + 8) plen = mask (payloadStream key frame hdrlen h) (slice frame (h + 8) plen) 0 plen :=
    hseal ▸ aesSeal_payload hh hadj (by omega)
  have hplen : (slice frame (h + 8) plen).length = plen := length_slice_of_le (by omega)
  have hback : slice (mask (payloadStream key c hdrlen hdrlen) c (h + 8) plen) (h + 8) plen =
      slice frame (h + 8) plen ↔
        ∀ j < plen, payloadStream key frame hdrlen hdrlen j = payloadStream key frame hdrlen h j := by
    rw [slice_mask, hstream, hpay]
    exact mask_mask_eq_iff hplen.ge
  have htake : (mask (payloadStream key c hdrlen hdrlen) c (h + 8) plen).take (h + 8) = frame.take (h + 8) :=
    (take_mask (Nat.le_refl _)).trans hhead
  rw [hc, aesDecipher_eq hh hcadj (by omega) (by omega)]
  constructor
  · rintro ⟨out,hout,hsame⟩
    obtain ⟨-,rfl⟩ := Prod.mk.inj (Option.some.inj hout)
    exact hback.mp ((take_eq_iff_slice htake).mp hsame)
  · intro hks
    refine ⟨mask (payloadStream key c hdrlen hdrlen) c (h + 8) plen,?_,(take_eq_iff_slice htake).mpr
      (hback.mpr hks)⟩
    have hmic : slice c (h + 8 + plen) 8 = (micFields frame hdrlen (slice frame (h + 8) plen)).mic key :=
      hseal ▸ aesSeal_mic hh hadj (by omega)
    have hplain := hback.mpr hks
    rw [slice_mask] at hplain
    rw [if_pos]
    rw [hmic, hplain, micFields_congr hh _ (show c.take (ccmpHdrlen frame hdrlen + 8) = _ by rw [hadj]; exact hhead)]

theorem micChecked_of_fits (hmax : ccmpHdrlenMax hdrlen + plen + 16 ≤ MAX_MSG_SIZE) {g : List UInt8}
    (hg : g.length = frame.length) : ∃ status out, aesDecipher key hdrlen g (plen + 8) = some (status,out) ∧
      (status = .success ↔ slice g (ccmpHdrlen g hdrlen + 8 + plen) 8 =
        (micFields g hdrlen (slice out (ccmpHdrlen g hdrlen + 8) plen)).mic key) := by
  have hle := ccmpHdrlen_le_max g hdrlen
  refine ⟨_,_,aesDecipher_eq hh rfl (by omega) (by omega),?_⟩
  rw [slice_mask]
  split
  · rename_i heq
    exact ⟨fun _ => heq,fun _ => rfl⟩
  · rename_i hne
    exact ⟨nofun,fun heq => absurd heq hne⟩

end Undo

/-- Decryption undoes encryption for the frames of which both directions read the same
packet number, and for no others with a full block of payload. -/
theorem ccmp_decrypt_undoes_encrypt (key frame : List UInt8) (hdrlen plen : ℕ) (hh : 24 ≤ hdrlen)
    (hroom : ccmpHdrlenMax hdrlen + plen + 16 ≤ frame.length) :
    (CcmpAgrees hdrlen frame plen → CcmpUndoes key hdrlen frame plen) ∧
      (plen = 0 ∨ 16 ≤ plen → CcmpUndoes key hdrlen frame plen → CcmpAgrees hdrlen frame plen) := by
  constructor
  · rintro ⟨hmax,hpn⟩
    refine ⟨(roundTrip_iff hh hroom hmax).mpr ?_,fun g hg => micChecked_of_fits hh hroom hmax hg⟩
    intro j hj
    rw [payloadStream, payloadStream, hpn.resolve_left (by omega)]
  · rintro hplen ⟨hround,hmic⟩
    have hframe : 16 ≤ frame.length := by
      have := le_ccmpHdrlen frame hh
      have := ccmpHdrlen_le_max frame hdrlen
      omega
    have hmax : ccmpHdrlenMax hdrlen + plen + 16 ≤ MAX_MSG_SIZE := by
      apply fits_of_micChecked (show 0 < frame.length by omega)
      intro g hg
      obtain ⟨status,out,hout,-⟩ := hmic g hg
      exact ⟨_,hout⟩
    refine ⟨hmax,hplen.imp_right fun hblock => ?_⟩
    apply pnVector_of_stream hframe
    intro k hk
    exact (roundTrip_iff hh hroom hmax).mp hround k (by omega)

/-- A protected data frame with the given first byte, between two distribution systems -/
def ccmpFrame (fc0 : UInt8) : List UInt8 := fc0 :: 0x43 :: (List.range 70).map UInt8.ofNat

theorem ccmp_decrypt_undoes_encrypt_a4 : CcmpUndoes (List.replicate 16 1) 30 (ccmpFrame 0x08) 20 := by
  have hadj : ccmpHdrlen (ccmpFrame 0x08) 30 = 30 := by decide
  apply (ccmp_decrypt_undoes_encrypt _ _ 30 20 (by decide) (by decide)).1
  exact ⟨by decide,.inr (by rw [hadj])⟩

/-- With address 4 and a QoS control field the packet number is read two bytes apart, and
the payload does not come back. -/
theorem ccmp_a4_qos_not_undone : ¬ CcmpUndoes (List.replicate 16 1) 32 (ccmpFrame 0x88) 1 := by
  rintro ⟨⟨out,hout,hsame⟩,-⟩
  have hadj : ccmpHdrlen (ccmpFrame 0x88) 32 + 8 + 1 = 43 := by decide
  have hbyte : byteAt out 42 = byteAt (ccmpFrame 0x88) 42 := byteAt_congr (hadj ▸ hsame) (by decide)
  have hne : (aesDecipher (List.replicate 16 1) 32 (aesCipher (List.replicate 16 1) 32 (ccmpFrame 0x88) 1)
      (1 + 8)).map (fun r => byteAt r.2 42) ≠ some (byteAt (ccmpFrame 0x88) 42) := by
    decide +kernel
  rw [hout] at hne
  exact hne (congrArg some hbyte)

end Rtl8188fu
