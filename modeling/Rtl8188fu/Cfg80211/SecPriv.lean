import Rtl8188fu.Include.RtwSecurity

/-! # The security state of a station

The fields of `struct security_priv` that cfg80211 calls set up, and `rtw_reset_securitypriv`.
-/
namespace Rtl8188fu

def EINVAL : ℤ := 22

/-- `NDIS_802_11_AUTHENTICATION_MODE` -/
inductive NdisAuthMode where
  | openMode | shared | autoSwitch | wpa | wpaPsk | wpaNone | wapi | wpa2Psk
  deriving DecidableEq

/-- `NDIS_802_11_WEP_STATUS`; `Ndis802_11WEPDisabled` is `Ndis802_11EncryptionDisabled`. -/
inductive NdisEncryptStatus where
  | encryption1Enabled | disabled | encryption2Enabled | encryption3Enabled
  deriving DecidableEq

def NUM_PMKID_CACHE : ℕ := 16

/-- `RT_PMKID_LIST` -/
structure RtPmkid where
  bUsed : Bool
  bssid : MacAddr
  pmkid : List UInt8
  deriving DecidableEq

def RtPmkid.zero : RtPmkid := ⟨false,List.replicate ETH_ALEN 0,List.replicate 16 0⟩

structure SecPriv where
  dot11AuthAlgrthm : AuthAlgrthm
  dot11PrivacyAlgrthm : EncryAlgo
  dot11PrivacyKeyIndex : ℕ
  dot11DefKey : ℕ → Keytype
  dot11DefKeylen : ℕ → ℕ
  dot118021XGrpPrivacy : EncryAlgo
  dot118021XGrpKeyid : ℕ
  ndisauthtype : NdisAuthMode
  ndisencryptstatus : NdisEncryptStatus
  wpa3Sae : Bool
  /-- `supplicant_ie`, and the `wps_ie_len` bytes of `wps_ie` -/
  supplicantIe : List UInt8
  wpsIe : List UInt8
  btkipCountermeasure : Bool
  btkipCountermeasureTime : ℕ
  pmkidList : List RtPmkid
  pmkidIndex : ℕ

/-- `struct security_priv` of zeros -/
def SecPriv.zero : SecPriv where
  dot11AuthAlgrthm := .openSystem
  dot11PrivacyAlgrthm := .noPrivacy
  dot11PrivacyKeyIndex := 0
  dot11DefKey := fun _ => List.replicate 16 0
  dot11DefKeylen := fun _ => 0
  dot118021XGrpPrivacy := .noPrivacy
  dot118021XGrpKeyid := 0
  ndisauthtype := .openMode
  ndisencryptstatus := .encryption1Enabled
  wpa3Sae := false
  supplicantIe := List.replicate 256 0
  wpsIe := []
  btkipCountermeasure := false
  btkipCountermeasureTime := 0
  pmkidList := List.replicate NUM_PMKID_CACHE .zero
  pmkidIndex := 0

/-- `rtw_reset_securitypriv`: after 802.1X everything is cleared but the PMKIDs and the
countermeasure; otherwise only the fields that are named. -/
def rtwResetSecuritypriv (s : SecPriv) : SecPriv :=
  if s.dot11AuthAlgrthm = .ieee8021X then
    { SecPriv.zero with
      pmkidList := s.pmkidList
      pmkidIndex := s.pmkidIndex
      btkipCountermeasure := s.btkipCountermeasure
      btkipCountermeasureTime := s.btkipCountermeasureTime
      ndisauthtype := .openMode
      ndisencryptstatus := .disabled }
  else
    { s with
      dot11AuthAlgrthm := .openSystem
      dot11PrivacyAlgrthm := .noPrivacy
      dot11PrivacyKeyIndex := 0
      dot118021XGrpPrivacy := .noPrivacy
      dot118021XGrpKeyid := 1
      ndisauthtype := .openMode
      ndisencryptstatus := .disabled }

@[simp] theorem rtwResetSecuritypriv_pmkidList (s : SecPriv) :
    (rtwResetSecuritypriv s).pmkidList = s.pmkidList := by
  rw [rtwResetSecuritypriv]
  split <;> rfl

@[simp] theorem rtwResetSecuritypriv_pmkidIndex (s : SecPriv) :
    (rtwResetSecuritypriv s).pmkidIndex = s.pmkidIndex := by
  rw [rtwResetSecuritypriv]
  split <;> rfl

end Rtl8188fu
