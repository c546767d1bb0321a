import Rtl8188fu.Security.CcmpUndo
import Rtl8188fu.Security.Tkip

/-! # Software decryption

`decryptor` and the three functions that it calls, built without WAPI and concurrent
mode. The keys that they select and the integrity values that they compare are given
names of their own. `none` stands for a call that leaves the memory of the frame: a
negative payload length is taken for a very large one.
-/
namespace Rtl8188fu
open Bytes KeyStream

/-- `encrypt` is `_WEP40_` or `_WEP104_`. -/
def IsWep (a : EncryAlgo) : Prop := a = .wep40 ∨ a = .wep104

instance (a : EncryAlgo) : Decidable (IsWep a) := by
  delta IsWep
  infer_instance

/-- Where the payload begins, from `rx_data` -/
def payloadOffset (f : RecvFrame) : ℕ := f.attrib.hdrlen + f.attrib.ivLen

/-- The payload with its integrity value -/
def payloadLength (f : RecvFrame) : ℕ := f.buf.len - payloadOffset f

/-- `arcfour_encrypt` of the payload in place -/
def rc4Decrypt (key : List UInt8) (f : RecvFrame) : RecvFrame :=
  { f with
    buf := f.buf.write (f.buf.data + payloadOffset f)
      (arcfourEncrypt (arcfourInit key key.length) (slice f.buf.ptr (payloadOffset f) (payloadLength f))) }

/-- The comparison of the last four bytes with the check value of what is before them. Of a
payload shorter than that the check value is that of no byte. -/
def icvCompare (f : RecvFrame) : Bool :=
  slice f.buf.ptr (f.buf.len - 4) 4 = crcBytes (slice f.buf.ptr (payloadOffset f) (payloadLength f - 4))

def wepKey (sec : SecurityPriv) (f : RecvFrame) : List UInt8 :=
  slice f.buf.ptr f.attrib.hdrlen 3 ++
    (sec.dot11DefKey f.attrib.keyIndex).take (sec.dot11DefKeylen f.attrib.keyIndex)

/-- `rtw_wep_decrypt`, which does not tell the caller that the ICV differs -/
def rtwWepDecrypt (sec : SecurityPriv) (f : RecvFrame) : Option RecvFrame :=
  if IsWep f.attrib.encrypt then
    if f.buf.len < payloadOffset f then none else some (rc4Decrypt (wepKey sec f) f)
  else some f

/-- `prwskey` of `rtw_tkip_decrypt` and, with the check of the key index, of
`rtw_aes_decrypt`; `none` when they fail before they decrypt -/
def prwskey (sec : SecurityPriv) (stapriv : StaPriv) (checkIndex : Bool) (f : RecvFrame) : Option Keytype :=
  match rtwGetStainfo stapriv f.attrib.ta with
  | none => none
  | some stainfo =>
    if isMcast f.attrib.ra then
      if !sec.binstallGrpkey then none
      else if checkIndex ∧ sec.dot118021XGrpKeyid ≠ f.attrib.keyIndex then none
      else some (sec.dot118021XGrpKey f.attrib.keyIndex)
    else some stainfo.dot118021xUncstKey

def rtwTkipDecrypt (sec : SecurityPriv) (stapriv : StaPriv) (f : RecvFrame) : Option (Status × RecvFrame) :=
  if f.attrib.encrypt = .tkip then
    match prwskey sec stapriv false f with
    | none => some (.fail, f)
    | some key =>
      if f.buf.len < payloadOffset f then none
      else
        let f := rc4Decrypt (tkipRc4Key key f.attrib.ta (f.buf.ptr.drop f.attrib.hdrlen)) f
        some (if icvCompare f then .success else .fail, f)
  else some (.success, f)

def rtwAesDecrypt (sec : SecurityPriv) (stapriv : StaPriv) (f : RecvFrame) : Option (Status × RecvFrame) :=
  if f.attrib.encrypt = .aes then
    match prwskey sec stapriv true f with
    | none => some (.fail, f)
    | some key =>
      if f.buf.len < payloadOffset f then none
      else
        match aesDecipher key f.attrib.hdrlen f.buf.ptr (payloadLength f) with
        | none => none
        | some (res, pframe) => some (res, { f with buf := f.buf.write f.buf.data pframe })
  else some (.success, f)

/-- `key_index`, from the IV -/
def setKeyIndex (sec : SecurityPriv) (f : RecvFrame) : RecvFrame :=
  if f.attrib.encrypt = .noPrivacy then f
  else
    let keyIndex := (byteAt f.buf.ptr (f.attrib.hdrlen + 3)).toNat / 64
    let keyIndex :=
      if WEP_KEYS < keyIndex then
        if IsWep f.attrib.encrypt then sec.dot11PrivacyKeyIndex
        else sec.dot118021XGrpKeyid
      else keyIndex
    { f with attrib := { f.attrib with keyIndex := keyIndex } }

/-- The switch over the ciphers in `decryptor` -/
def softwareDecrypt (sec : SecurityPriv) (stapriv : StaPriv) (f : RecvFrame) : Option (Status × RecvFrame) :=
  match f.attrib.encrypt with
  | .wep40 | .wep104 => (rtwWepDecrypt sec f).map (Status.success, ·)
  | .tkip => rtwTkipDecrypt sec stapriv f
  | .aes => rtwAesDecrypt sec stapriv f
  | _ => some (.success, f)

/-- What `decryptor` leaves behind: `.fail` when the frame was freed and `NULL` is returned -/
structure Decrypted where
  res : Status
  frame : RecvFrame
  hwDecrypted : Bool

def decryptor (sec : SecurityPriv) (stapriv : StaPriv) (f : RecvFrame) : Option Decrypted :=
  let software := f.attrib.encrypt ≠ .noPrivacy ∧ (f.attrib.bdecrypted = false ∨ sec.swDecrypt = true)
  let f := setKeyIndex sec f
  let hwDecrypted :=
    if software then false
    else if f.attrib.bdecrypted ∧ f.attrib.encrypt ≠ .noPrivacy ∧
      (sec.busetkipkey ∨ f.attrib.encrypt ≠ .tkip) then true
    else sec.hwDecrypted
  (if software then softwareDecrypt sec stapriv f else some (.success, f)).map fun r =>
    ⟨r.1, if r.1 = .fail then r.2 else { r.2 with attrib := { r.2.attrib with bdecrypted := true } }, hwDecrypted⟩

end Rtl8188fu
