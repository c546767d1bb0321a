import Rtl8188fu.Ieee80211.GetIe
import Rtl8188fu.Include.RtwXmit
import Rtl8188fu.Security.Omac

/-! # The management MIC

`rtw_BIP_verify` of a group addressed management frame. The frame body is copied behind
the additional data, and the element is searched from the start of the body on.
-/
namespace Rtl8188fu
open Bytes

def MME_IE : UInt8 := 76
def BIP_AAD_SIZE : ℕ := 20

/-- The frame body with the MME -/
def bipBody (f : RecvFrame) : List UInt8 := slice f.buf.ptr WLAN_HDR_A3_LEN (f.attrib.pktLen - WLAN_HDR_A3_LEN)

/-- Where the MME is in the body, and its length -/
def mmeOf (f : RecvFrame) : Option (ℕ × ℕ) := rtwGetIe (bipBody f) MME_IE (f.attrib.pktLen - WLAN_HDR_A3_LEN)

/-- `temp_ipn` of an MME at `p` -/
def mmeIpn (f : RecvFrame) (p : ℕ) : ℕ := pn48Val (slice (bipBody f) (p + 4) 6)

/-- The frame control field without the retry, power management and more data bits, and
the three addresses -/
def bipAad (pframe : List UInt8) : List UInt8 :=
  [byteAt pframe 0, byteAt pframe 1 &&& 0xc7] ++ slice pframe 4 18

/-- `BIP_AAD`: the additional data and the body, in which the last eight bytes of an MME at
`p` with length `len` are zero -/
def bipMessage (f : RecvFrame) (p len : ℕ) : List UInt8 :=
  let buf := List.replicate BIP_AAD_SIZE 0 ++ bipBody f
  patch (patch buf (BIP_AAD_SIZE + p + 2 + len - 8) (List.replicate 8 0)) 0 (bipAad f.buf.ptr)

/-- The MIC that the installed key gives -/
def bipMic (sec : SecurityPriv) (f : RecvFrame) (p len : ℕ) : List UInt8 :=
  (omac1Aes128 (sec.dot11wBIPKey sec.dot11wBIPKeyid) (bipMessage f p len)).take 8

/-- `rtw_BIP_verify` with `mgnt_80211w_IPN_rx` before and after it; `none` for a frame shorter
than its header, of which a very large body is copied -/
def rtwBipVerify (sec : SecurityPriv) (ipnRx : ℕ) (f : RecvFrame) : Option (Status × ℕ) :=
  if f.attrib.pktLen < WLAN_HDR_A3_LEN then none
  else
    match mmeOf f with
    | none => some (.handled, ipnRx)
    | some (p, len) =>
      let tempIpn := mmeIpn f p
      if tempIpn < ipnRx then some (.fail, ipnRx)
      else if le16At (bipBody f) (p + 2) ≠ sec.dot11wBIPKeyid then some (.fail, ipnRx)
      -- the MIC field should be the last eight bytes of the packet
      else if bipMic sec f p len = slice f.buf.ptr (f.attrib.pktLen - 8) 8 then some (.success, tempIpn)
      else some (.fail, ipnRx)

/-- An MME at `p` with length `len` has the installed key id, and the last eight bytes of the
frame are its MIC. -/
def BipRight (sec : SecurityPriv) (f : RecvFrame) (p len : ℕ) : Prop :=
  le16At (bipBody f) (p + 2) = sec.dot11wBIPKeyid ∧ bipMic sec f p len = slice f.buf.ptr (f.attrib.pktLen - 8) 8

/-- A frame that is accepted has a right MME, whose packet number is not lower than the last
one and becomes it; otherwise the last one stays. -/
theorem rtwBipVerify_cases {sec : SecurityPriv} {ipnRx : ℕ} {f : RecvFrame} {r : Status × ℕ}
    (h : rtwBipVerify sec ipnRx f = some r) :
    (r.1 ≠ .success ∧ r.2 = ipnRx) ∨
      ∃ p len, mmeOf f = some (p,len) ∧ BipRight sec f p len ∧ ipnRx ≤ mmeIpn f p ∧
      r = (.success,mmeIpn f p) := by
  rw [rtwBipVerify] at h
  split at h
  · cases h
  · split at h
    · cases h
      exact Or.inl ⟨nofun,rfl⟩
    · rename_i p len hmme
      dsimp only at h
      split at h
      · cases h
        exact Or.inl ⟨nofun,rfl⟩
      · rename_i hipn
        split at h
        · cases h
          exact Or.inl ⟨nofun,rfl⟩
        · rename_i hkey
          split at h
          · rename_i hmic
            cases h
            exact Or.inr ⟨p,len,hmme,⟨not_not.mp hkey,hmic⟩,not_lt.mp hipn,rfl⟩
          · cases h
            exact Or.inl ⟨nofun,rfl⟩

end Rtl8188fu
