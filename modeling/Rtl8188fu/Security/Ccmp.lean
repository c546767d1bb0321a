import Rtl8188fu.Security.Aes

/-! # Software CCMP

`aes_cipher` and `aes_decipher` on the bytes from the frame header on, built with
`CONFIG_IEEE80211W` and without `CONSISTENT_PN_ORDER`. The lengths are in bytes; the
frame is longer than what is written, so that the MIC finds room behind the payload.
-/
namespace Rtl8188fu
open Bytes

def MAX_MSG_SIZE : ℕ := 2048

/-- Whether `mpdu` is a data frame with a QoS control field. The combined values that
are compared before never occur: the subtype is already shifted down. -/
def qcExists (mpdu : List UInt8) : Bool :=
  let frtype := getFrameType mpdu
  let frsubtype := getFrameSubType mpdu / 16
  if frtype ||| frsubtype = WIFI_DATA_CFACK || frtype ||| frsubtype = WIFI_DATA_CFPOLL ||
      frtype ||| frsubtype = WIFI_DATA_CFACKPOLL then true
  else frtype = WIFI_DATA && (frsubtype = 0x08 || frsubtype = 0x09 || frsubtype = 0x0a || frsubtype = 0x0b)

def a4Exists (hdrlen : ℕ) : Bool := !(hdrlen = WLAN_HDR_A3_LEN || hdrlen = WLAN_HDR_A3_QOS_LEN)

/-- `hdrlen` after the adjustment for the QoS control field -/
def ccmpHdrlen (mpdu : List UInt8) (hdrlen : ℕ) : ℕ :=
  if qcExists mpdu && hdrlen ≠ WLAN_HDR_A3_QOS_LEN then hdrlen + 2 else hdrlen

/-- `pn_vector`, from the extended IV at `i` -/
def pnVector (pframe : List UInt8) (i : ℕ) : List UInt8 :=
  [byteAt pframe i, byteAt pframe (i + 1), byteAt pframe (i + 4), byteAt pframe (i + 5),
    byteAt pframe (i + 6), byteAt pframe (i + 7)]

/-- The byte for the priority in the nonce, with the bit for management frames -/
def nonceFlags (qcExists a4Exists : Bool) (mpdu : List UInt8) : UInt8 :=
  let tid := if qcExists then byteAt mpdu (if a4Exists then 30 else 24) &&& 0x0f else 0
  if getFrameType mpdu = WIFI_MGT_TYPE then tid ||| 0x10 else tid

def constructMicIv (qcExists a4Exists : Bool) (mpdu : List UInt8) (payloadLength : ℕ) (pn : List UInt8) :
    List UInt8 :=
  [0x59, nonceFlags qcExists a4Exists mpdu] ++ getAddr2Ptr mpdu ++
    (List.range 6).map (fun i => byteAt pn (5 - i)) ++
    [UInt8.ofNat (payloadLength / 256), UInt8.ofNat (payloadLength % 256)]

def constructMicHeader1 (headerLength : ℕ) (mpdu : List UInt8) : List UInt8 :=
  [UInt8.ofNat ((headerLength - 2) / 256), UInt8.ofNat ((headerLength - 2) % 256),
    if getFrameType mpdu = WIFI_MGT_TYPE then byteAt mpdu 0 else byteAt mpdu 0 &&& 0xcf,
    byteAt mpdu 1 &&& 0xc7] ++ getAddr1Ptr mpdu ++ getAddr2Ptr mpdu

def constructMicHeader2 (mpdu : List UInt8) (a4Exists qcExists : Bool) : List UInt8 :=
  getAddr3Ptr mpdu ++ [0, 0] ++
    match qcExists, a4Exists with
    | false, false => List.replicate 8 0
    | false, true => getAddr4Ptr mpdu ++ [0, 0]
    | true, false => (byteAt mpdu 24 &&& 0x0f) :: List.replicate 7 0
    | true, true => getAddr4Ptr mpdu ++ [byteAt mpdu 30 &&& 0x0f, 0]

def constructCtrPreload (a4Exists qcExists : Bool) (mpdu pn : List UInt8) (c : ℕ) : List UInt8 :=
  [0x01, nonceFlags qcExists a4Exists mpdu] ++ getAddr2Ptr mpdu ++
    (List.range 6).map (fun i => byteAt pn (5 - i)) ++ [UInt8.ofNat (c / 256), UInt8.ofNat (c % 256)]

/-- `padded_buffer`: `n` bytes from `i` on, padded with zeros to a block -/
def paddedBuffer (p : List UInt8) (i n : ℕ) : List UInt8 :=
  (List.range 16).map fun j => if j < n then byteAt p (i + j) else 0

/-- The full blocks of the MIC calculation: `n` blocks from `i` on, chained to `aesOut` -/
def micBlocks (key p : List UInt8) : ℕ → ℕ → List UInt8 → List UInt8
  | 0, _, aesOut => aesOut
  | n + 1, i, aesOut => micBlocks key p n (i + 16) (aes128k128d key (xor128 aesOut (p.drop i)))

/-- The MIC of `plen` bytes of payload at `i`, after the three blocks of the header -/
def calculateMic (key micIv micHeader1 micHeader2 p : List UInt8) (i plen : ℕ) : List UInt8 :=
  let aesOut := aes128k128d key micIv
  let aesOut := aes128k128d key (xor128 aesOut micHeader1)
  let aesOut := aes128k128d key (xor128 aesOut micHeader2)
  let aesOut := micBlocks key p (plen / 16) i aesOut
  let aesOut :=
    if 0 < plen % 16 then
      aes128k128d key (xor128 aesOut (paddedBuffer p (i + 16 * (plen / 16)) (plen % 16)))
    else aesOut
  aesOut.take 8

/-- The full blocks of the payload: `n` blocks from `i` on, the first with counter `c` -/
def ctrBlocks (key : List UInt8) (ctrPreload : List UInt8 → ℕ → List UInt8) :
    ℕ → ℕ → ℕ → List UInt8 → List UInt8
  | 0, _, _, p => p
  | n + 1, c, i, p =>
    ctrBlocks key ctrPreload n (c + 1) (i + 16)
      (patch p i (xor128 (aes128k128d key (ctrPreload p c)) (p.drop i)))

/-- A short block of `n` bytes at `i`, with counter `c` -/
def ctrShort (key : List UInt8) (ctrPreload : List UInt8 → ℕ → List UInt8) (c i n : ℕ) (p : List UInt8) :
    List UInt8 :=
  patch p i ((xor128 (aes128k128d key (ctrPreload p c)) (paddedBuffer p i n)).take n)

/-- The payload of `plen` bytes at `i`, encrypted or decrypted in place -/
def ctrPayload (key : List UInt8) (ctrPreload : List UInt8 → ℕ → List UInt8) (i plen : ℕ) (p : List UInt8) :
    List UInt8 :=
  let p := ctrBlocks key ctrPreload (plen / 16) 1 i p
  if 0 < plen % 16 then ctrShort key ctrPreload (plen / 16 + 1) (i + 16 * (plen / 16)) (plen % 16) p else p

/-- The body of `aes_cipher` behind the choice of the header length, which `aes_decipher`
repeats on its copy of the frame -/
def aesSeal (key : List UInt8) (qc a4 : Bool) (hdrlen : ℕ) (pframe : List UInt8) (plen : ℕ) : List UInt8 :=
  let pn := pnVector pframe hdrlen
  let preload := fun mpdu c => constructCtrPreload a4 qc mpdu pn c
  let mic := calculateMic key (constructMicIv qc a4 pframe plen pn) (constructMicHeader1 hdrlen pframe)
    (constructMicHeader2 pframe a4 qc) pframe (hdrlen + 8) plen
  let p := patch pframe (hdrlen + 8 + plen) mic
  let p := ctrPayload key preload (hdrlen + 8) plen p
  ctrShort key preload 0 (hdrlen + 8 + plen) 8 p

def aesCipher (key : List UInt8) (hdrlen : ℕ) (pframe : List UInt8) (plen : ℕ) : List UInt8 :=
  aesSeal key (qcExists pframe) (a4Exists hdrlen) (ccmpHdrlen pframe hdrlen) pframe plen

/-- `aes_decipher`: the answer and the frame, decrypted in place. `none` when it reaches
outside the frame or the static buffer `message`: `plen - 8` is unsigned, and a frame that
does not fit is not copied but still processed there. -/
def aesDecipher (key : List UInt8) (hdrlen : ℕ) (pframe : List UInt8) (plen : ℕ) :
    Option (Status × List UInt8) :=
  let qc := qcExists pframe
  let a4 := a4Exists hdrlen
  -- the packet number is read before the header length is adjusted
  let pn := pnVector pframe hdrlen
  let hdrlen := ccmpHdrlen pframe hdrlen
  if plen < 8 ∨ pframe.length < hdrlen + plen + 8 ∨ MAX_MSG_SIZE < hdrlen + plen + 8 then none
  else
    let pframe := ctrPayload key (fun mpdu c => constructCtrPreload a4 qc mpdu pn c) (hdrlen + 8) (plen - 8) pframe
    let message := aesSeal key qc a4 hdrlen (pframe.take (hdrlen + plen + 8)) (plen - 8)
    let mic := slice message (hdrlen + 8 + plen - 8) 8
    some (if slice pframe (hdrlen + 8 + plen - 8) 8 = mic then .success else .fail, pframe)

end Rtl8188fu
