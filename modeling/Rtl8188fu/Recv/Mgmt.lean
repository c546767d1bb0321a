import Rtl8188fu.Include.RtwSecurity

/-! # Protected management frames

`validate_80211w_mgmt`, with the software decryption and the check of the management
MIC element as arguments. The result records what the caller sees and whether the
decryptor has already given the frame back to the free queue.
-/
namespace Rtl8188fu
open Bytes

def RTW_WLAN_CATEGORY_PUBLIC : UInt8 := 4
def RTW_WLAN_CATEGORY_HT : UInt8 := 7
def RTW_WLAN_CATEGORY_UNPROTECTED_WNM : UInt8 := 11
def RTW_WLAN_CATEGORY_SELF_PROTECTED : UInt8 := 15
def RTW_WLAN_CATEGORY_P2P : UInt8 := 0x7f

structure Mgmt80211w where
  status : Status
  frame : RecvFrame
  freed : Bool
  /-- `issue_action_SA_Query` was called -/
  saQuery : Bool

def isDeauthOrDisassoc (f : RecvFrame) : Bool :=
  getFrameSubType f.buf.ptr = WIFI_DEAUTH || getFrameSubType f.buf.ptr = WIFI_DISASSOC

/-- `frame` with the attributes that the decryption of a unicast management frame needs -/
def mgmtSecurityAttrib (f : RecvFrame) : RecvFrame :=
  { f with attrib := { f.attrib with
      bdecrypted := false
      encrypt := .aes
      hdrlen := 24
      ivLen := (setIceIvLen .aes).1
      icvLen := (setIceIvLen .aes).2
      ra := getAddr1Ptr f.buf.ptr
      ta := getAddr2Ptr f.buf.ptr } }

/-- The body is moved over the IV, and IV and ICV leave `pkt_len`. -/
def removeMgmtIv (f : RecvFrame) : RecvFrame :=
  let dataLen := f.attrib.pktLen - f.attrib.hdrlen - f.attrib.ivLen - f.attrib.icvLen
  let mgmtData := slice f.buf.ptr (f.attrib.hdrlen + f.attrib.ivLen) dataLen
  { f with
    buf := f.buf.write (f.buf.data + f.attrib.hdrlen) mgmtData
    attrib := { f.attrib with pktLen := f.attrib.pktLen - f.attrib.ivLen - f.attrib.icvLen } }

def validate80211wMgmt (decryptor : RecvFrame → Status × RecvFrame) (bipVerify : RecvFrame → Status)
    (sec : SecurityPriv) (stapriv : StaPriv) (f : RecvFrame) : Mgmt80211w :=
  let ptr := f.buf.ptr
  if sec.binstallBIPkey then
    if f.attrib.privacy && !isMcast (getAddr1Ptr ptr) &&
        (isDeauthOrDisassoc f || getFrameSubType ptr = WIFI_ACTION) then
      let f := mgmtSecurityAttrib f
      -- data_len is unsigned: no memory for the body of a frame that is too short
      if f.attrib.pktLen < f.attrib.hdrlen + f.attrib.ivLen + f.attrib.icvLen then ⟨.fail, f, false, false⟩
      else
        let d := decryptor f
        if d.1 = .fail then ⟨.fail, removeMgmtIv d.2, true, false⟩
        else ⟨.success, removeMgmtIv d.2, false, false⟩
    else if isMcast (getAddr1Ptr ptr) && isDeauthOrDisassoc f then
      ⟨if bipVerify f = .success then .success else .fail, f, false, false⟩
    else
      let psta := rtwGetStainfo stapriv (getAddr2Ptr ptr)
      if getFrameSubType ptr = WIFI_ACTION && psta.any (·.bpairwiseKeyInstalled) then
        let category := byteAt ptr WLAN_HDR_A3_LEN
        -- the five categories that are not robust
        if category ≠ RTW_WLAN_CATEGORY_PUBLIC ∧ category ≠ RTW_WLAN_CATEGORY_HT ∧
            category ≠ RTW_WLAN_CATEGORY_UNPROTECTED_WNM ∧
            category ≠ RTW_WLAN_CATEGORY_SELF_PROTECTED ∧ category ≠ RTW_WLAN_CATEGORY_P2P then
          ⟨.fail, f, false, false⟩
        else ⟨.success, f, false, false⟩
      else if isDeauthOrDisassoc f then
        let reason := le16At ptr WLAN_HDR_A3_LEN
        ⟨.fail, f, false, reason = 6 || reason = 7⟩
      else ⟨.success, f, false, false⟩
  else ⟨.success, f, false, false⟩

end Rtl8188fu
