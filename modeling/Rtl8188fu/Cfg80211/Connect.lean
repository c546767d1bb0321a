import Rtl8188fu.Cfg80211.SecPriv
import Rtl8188fu.Ieee80211.DelVendorIe
import Rtl8188fu.Ieee80211.SecIe
import Rtl8188fu.Security.SetKey

/-! # Setting up a connection

`cfg80211_rtw_connect` of a station with the setters that it calls, and the key installations and
disconnects between two calls. The copies of the P2P and WFD elements, the receive filter and the commands
to the firmware are left out.
-/
namespace Rtl8188fu
open Bytes

def EPERM : ℤ := 1
def E2BIG : ℤ := 7
def ENOMEM : ℤ := 12
def EBUSY : ℤ := 16
def EOPNOTSUPP : ℤ := 95
def ENOTSUPP : ℤ := 524

def MAX_WPS_IE_LEN : ℕ := 512
def RSN_HEADER_LEN : ℕ := 4
def IW_ESSID_MAX_SIZE : ℕ := 32
def WPA2_IE_ID : UInt8 := 0x30

def WPA_CIPHER_NONE : ℕ := 1
def WPA_CIPHER_WEP40 : ℕ := 2
def WPA_CIPHER_WEP104 : ℕ := 4
def WPA_CIPHER_TKIP : ℕ := 8
def WPA_CIPHER_CCMP : ℕ := 16

def IW_AUTH_CIPHER_NONE : ℕ := 1
def WLAN_CIPHER_SUITE_WEP40 : ℕ := 0x000fac01
def WLAN_CIPHER_SUITE_TKIP : ℕ := 0x000fac02
def WLAN_CIPHER_SUITE_CCMP : ℕ := 0x000fac04
def WLAN_CIPHER_SUITE_WEP104 : ℕ := 0x000fac05

def WLAN_AKM_SUITE_8021X : ℕ := 0x000fac01
def WLAN_AKM_SUITE_PSK : ℕ := 0x000fac02
def WLAN_AKM_SUITE_SAE : ℕ := 0x000fac08

inductive Nl80211AuthType
  | openSystem
  | sharedKey
  | ft
  | networkEap
  | sae
  | automatic
deriving DecidableEq

/-- `struct cfg80211_connect_params`; the lists of suites are cut at their lengths. -/
structure ConnectParams where
  bssid : Option MacAddr
  ssid : List UInt8
  authType : Nl80211AuthType
  ie : List UInt8
  wpaVersions : ℕ
  cipherGroup : ℕ
  ciphersPairwise : List ℕ
  akmSuites : List ℕ
  key : List UInt8
  keyIdx : ℕ

/-- What a connection is set up in. `psDenyJoin` is `PS_DENY_JOIN` of `ps_deny`. -/
structure ConnState extends SecPriv where
  bWepDefaultKeyIdxSet : Bool
  underWps : Bool
  fwLinked : Bool
  psDenyJoin : Bool

/-- What else the call meets: the checks before it, whether memory is there, whether `rtw_set_key` gets its
command into the queue, and how `rtw_set_802_11_connect` ends -/
structure ConnectEnv where
  block : Bool
  pwrWakeup : Bool
  apState : Bool
  underLinking : Bool
  bufAlloc : Bool
  pwepAlloc : Bool
  setKeyCmd : Bool
  connectOk : Bool
  -- a network of the scanned queue is joined
  candidate : Bool

/-- `schedule_work` of the external authentication, or `rtw_set_802_11_connect`, for this network -/
inductive JoinCall
  | saeExtAuth (ssid : List UInt8) (bssid : Option MacAddr)
  | set80211Connect (ssid : List UInt8) (bssid : Option MacAddr)
deriving DecidableEq

structure ConnectRes where
  ret : ℤ
  state : ConnState
  join : Option JoinCall

/-- The group cipher and the set of pairwise ciphers of an element, as `WPA_CIPHER_*` bits -/
structure Ciphers where
  group : ℕ
  pairwise : ℕ
deriving DecidableEq

/-- `rtw_get_wpa_cipher_suite` and `rtw_get_wpa2_cipher_suite` -/
def cipherSuite (oui s : List UInt8) : ℕ :=
  if slice s 0 4 = oui ++ [0] then WPA_CIPHER_NONE
  else if slice s 0 4 = oui ++ [1] then WPA_CIPHER_WEP40
  else if slice s 0 4 = oui ++ [2] then WPA_CIPHER_TKIP
  else if slice s 0 4 = oui ++ [4] then WPA_CIPHER_CCMP
  else if slice s 0 4 = oui ++ [5] then WPA_CIPHER_WEP104
  else 0

def rtwGetWpaCipherSuite := cipherSuite [0x00,0x50,0xf2]
def rtwGetWpa2CipherSuite := cipherSuite [0x00,0x0f,0xac]

/-- The suites of an element, from the group suite on with `left` bytes. A refused element may have written
its ciphers all the same. -/
def parseSuites (suite : List UInt8 → ℕ) (pos : List UInt8) (left : ℕ) (c : Ciphers) : Bool × Ciphers :=
  if 0 < left ∧ left < 4 then (false,c)
  else
    let c := if 4 ≤ left then { c with group := suite pos } else c
    let pos := if 4 ≤ left then pos.drop 4 else pos
    let left := left - 4
    if 2 ≤ left then
      let count := le16At pos 0
      if count = 0 ∨ left - 2 < count * 4 then (false,c)
      else (true,{ c with
        pairwise := (List.range count).foldl (fun m i => m ||| suite (pos.drop (2 + 4 * i))) c.pairwise })
    else (left ≠ 1,c)

def rtwParseWpaIe (wpaIe : List UInt8) (wpaIeLen : ℕ) (c : Ciphers) : Bool × Ciphers :=
  if byteAt wpaIe 0 ≠ WPA_IE_ID ∨ (byteAt wpaIe 1).toNat ≠ (wpaIeLen - 2) % 256 ∨
    slice wpaIe 2 4 ≠ wpaOuiType then (false,c)
  else parseSuites rtwGetWpaCipherSuite (wpaIe.drop 8) (wpaIeLen - 8) c

def rtwParseWpa2Ie (rsnIe : List UInt8) (rsnIeLen : ℕ) (c : Ciphers) : Bool × Ciphers :=
  if byteAt rsnIe 0 ≠ WPA2_IE_ID ∨ (byteAt rsnIe 1).toNat ≠ (rsnIeLen - 2) % 256 then (false,c)
  else parseSuites rtwGetWpa2CipherSuite (rsnIe.drop 4) (rsnIeLen - 4) c

def rtwGetWpsIe (inIe : List UInt8) (inLen : ℕ) : Option (ℕ × ℕ) :=
  getVendorIeLoop WPS_OUI inIe inLen (inLen + 1) 0

/-- `ndisauthtype > Ndis802_11AuthModeWPA` -/
def NdisAuthMode.beyondWpa : NdisAuthMode → Bool
  | .openMode | .shared | .autoSwitch | .wpa => false
  | .wpaPsk | .wpaNone | .wapi | .wpa2Psk => true

def rtwCfg80211SetWpaVersion (s : ConnState) (wpaVersion : ℕ) : ConnState :=
  { s with ndisauthtype :=
      if wpaVersion = 0 then .openMode else if wpaVersion &&& 3 ≠ 0 then .wpaPsk else s.ndisauthtype }

def rtwCfg80211SetAuthType (s : ConnState) (smeAuthType : Nl80211AuthType) : ConnState :=
  match smeAuthType with
  | .automatic => { s with dot11AuthAlgrthm := .auto }
  | .openSystem | .sae =>
    { s with dot11AuthAlgrthm := if s.ndisauthtype.beyondWpa then .ieee8021X else .openSystem }
  | .sharedKey => { s with dot11AuthAlgrthm := .shared, ndisencryptstatus := .encryption1Enabled }
  | .ft | .networkEap => { s with dot11AuthAlgrthm := .openSystem }

def wpaCipherPrivacy (cipher : ℕ) : Option (EncryAlgo × NdisEncryptStatus) :=
  if cipher = WPA_CIPHER_NONE then some (.noPrivacy,.disabled)
  else if cipher = WPA_CIPHER_WEP40 then some (.wep40,.encryption1Enabled)
  else if cipher = WPA_CIPHER_TKIP then some (.tkip,.encryption2Enabled)
  else if cipher = WPA_CIPHER_CCMP then some (.aes,.encryption3Enabled)
  else if cipher = WPA_CIPHER_WEP104 then some (.wep104,.encryption1Enabled)
  else none

/-- What the parser makes of an element that was found, unless its body is empty -/
def parseFound (buf : List UInt8) (found : Option (ℕ × ℕ))
    (parse : List UInt8 → ℕ → Ciphers → Bool × Ciphers)
    (c : Ciphers) : Bool × Ciphers :=
  match found with
  | some (p, len) => if 0 < len then parse (buf.drop p) (len + 2) c else (false,c)
  | none => (false,c)

def wpaCiphers (buf : List UInt8) (ielen : ℕ) : Bool × Ciphers :=
  parseFound buf (rtwGetWpaIe buf ielen) rtwParseWpaIe ⟨0,0⟩

def wpa2Ciphers (buf : List UInt8) (ielen : ℕ) : Bool × Ciphers :=
  parseFound buf (rtwGetIe buf WPA2_IE_ID ielen) rtwParseWpa2Ie (wpaCiphers buf ielen).2

/-- The state after an element that the parser took -/
def ConnState.takeSecIe (s : ConnState) (buf : List UInt8) (found : Option (ℕ × ℕ)) (mode : NdisAuthMode) :
    ConnState :=
  { s with
    dot11AuthAlgrthm := .ieee8021X
    ndisauthtype := mode
    supplicantIe := patch s.supplicantIe 0 (slice buf (found.getD (0,0)).1 ((found.getD (0,0)).2 + 2)) }

/-- What a cipher of the elements sets; a set of several pairwise ciphers is none of the cases. -/
def foundPrivacy (cipher : ℕ) : Option (EncryAlgo × NdisEncryptStatus) :=
  wpaCipherPrivacy (if cipher = 0 then WPA_CIPHER_NONE else cipher)

def ConnState.setGroupCipher (s : ConnState) (cipher : ℕ) : ConnState :=
  { s with
    dot118021XGrpPrivacy := ((foundPrivacy cipher).map Prod.fst).getD s.dot118021XGrpPrivacy
    ndisencryptstatus := ((foundPrivacy cipher).map Prod.snd).getD s.ndisencryptstatus }

def ConnState.setPairwiseCipher (s : ConnState) (cipher : ℕ) : ConnState :=
  { s with
    dot11PrivacyAlgrthm := ((foundPrivacy cipher).map Prod.fst).getD s.dot11PrivacyAlgrthm
    ndisencryptstatus := ((foundPrivacy cipher).map Prod.snd).getD s.ndisencryptstatus }

def ConnState.setWpsIe (s : ConnState) (buf : List UInt8) (ielen : ℕ) : ConnState :=
  let wps := (rtwGetWpsIe buf ielen).filter fun e => 0 < e.2
  { s with
    wpsIe := (wps.map fun e => slice buf e.1 (min e.2 MAX_WPS_IE_LEN)).getD s.wpsIe
    underWps := wps.isSome }

/-- `rtw_cfg80211_set_wpa_ie`; `beyond` is the memory behind the copy of the elements. -/
def rtwCfg80211SetWpaIe (s : ConnState) (pie beyond : List UInt8) (env : ConnectEnv) : ℤ × ConnState :=
  let ielen := pie.length
  if ielen = 0 then (0,{ s with underWps := false })
  else if MAX_WPA_IE_LEN + MAX_WPS_IE_LEN + MAX_P2P_IE_LEN < ielen then (-EINVAL,{ s with underWps := false })
  else if env.bufAlloc = false then (-ENOMEM,{ s with underWps := false })
  else if ielen < RSN_HEADER_LEN then (-1,{ s with underWps := false })
  else
    let buf := pie ++ beyond
    let s := if (wpaCiphers buf ielen).1 then s.takeSecIe buf (rtwGetWpaIe buf ielen) .wpaPsk else s
    let s := if (wpa2Ciphers buf ielen).1 then s.takeSecIe buf (rtwGetIe buf WPA2_IE_ID ielen) .wpa2Psk else s
    let c := (wpa2Ciphers buf ielen).2
    (0,((s.setGroupCipher c.group).setPairwiseCipher c.pairwise).setWpsIe buf ielen)

/-- The privacy of a `WLAN_CIPHER_SUITE_*` -/
def suitePrivacy (cipher : ℕ) : Option (EncryAlgo × NdisEncryptStatus) :=
  if cipher = IW_AUTH_CIPHER_NONE then some (.noPrivacy,.disabled)
  else if cipher = WLAN_CIPHER_SUITE_WEP40 then some (.wep40,.encryption1Enabled)
  else if cipher = WLAN_CIPHER_SUITE_WEP104 then some (.wep104,.encryption1Enabled)
  else if cipher = WLAN_CIPHER_SUITE_TKIP then some (.tkip,.encryption2Enabled)
  else if cipher = WLAN_CIPHER_SUITE_CCMP then some (.aes,.encryption3Enabled)
  else none

def ConnState.setProfileCipher (s : ConnState) (ucast : Bool) (p : EncryAlgo) : ConnState :=
  if ucast then { s with dot11PrivacyAlgrthm := p } else { s with dot118021XGrpPrivacy := p }

def rtwCfg80211SetCipher (s : ConnState) (cipher : ℕ) (ucast : Bool) : ℤ × ConnState :=
  if cipher = 0 then (0,{ s.setProfileCipher ucast .noPrivacy with ndisencryptstatus := .disabled })
  else
    match suitePrivacy cipher with
    | some (p, e) =>
      let s := s.setProfileCipher ucast p
      (0,if ucast then { s with ndisencryptstatus := e } else s)
    | none => (-ENOTSUPP,s)

def rtwCfg80211SetKeyMgt (s : ConnState) (keyMgt : ℕ) : ConnState :=
  if keyMgt = WLAN_AKM_SUITE_8021X then { s with dot11AuthAlgrthm := .ieee8021X }
  else if keyMgt = WLAN_AKM_SUITE_PSK then { s with dot11AuthAlgrthm := .ieee8021X }
  else if keyMgt = WLAN_AKM_SUITE_SAE then { s with dot11AuthAlgrthm := .ieee8021X, wpa3Sae := true }
  else s

def rtwSet80211AuthenticationMode (s : ConnState) (authmode : NdisAuthMode) : ConnState :=
  let s := { s with ndisauthtype := authmode }
  if s.ndisauthtype.beyondWpa then { s with dot11AuthAlgrthm := .ieee8021X } else s

/-- The algorithms that `rtw_set_key` has a key length for -/
def EncryAlgo.hasKeylen : EncryAlgo → Bool
  | .wep40 | .wep104 | .tkip | .aes => true
  | .noPrivacy | .tkipWtmic | .sms4 => false

/-- `rtw_set_key`: whether it takes the algorithm, and gets its command into the queue -/
def rtwSetKey (s : ConnState) (env : ConnectEnv) : Bool :=
  (if s.dot11AuthAlgrthm = .ieee8021X then s.dot118021XGrpPrivacy else s.dot11PrivacyAlgrthm).hasKeylen && env.setKeyCmd

/-- `rtw_set_802_11_add_wep` for a key of 5 or 13 bytes -/
def rtwSet80211AddWep (s : ConnState) (env : ConnectEnv) (keyid keyLength : ℕ) (keyMaterial : List UInt8) :
    Bool × ConnState :=
  if 4 ≤ keyid then (false,s)
  else
    let s := { s with
      dot11PrivacyAlgrthm := if keyLength = 5 then .wep40 else .wep104
      dot11DefKey := Function.update s.dot11DefKey keyid (patch (s.dot11DefKey keyid) 0 (slice keyMaterial 0 keyLength))
      dot11DefKeylen := Function.update s.dot11DefKeylen keyid keyLength
      dot11PrivacyKeyIndex := keyid }
    (rtwSetKey s env,s)

/-- The part of `cfg80211_rtw_connect` for the WEP key of the request -/
def connectWepKey (s : ConnState) (sme : ConnectParams) (env : ConnectEnv) : ℤ × ConnState :=
  if sme.key = [] then (0,s)
  else if WEP_KEYS < sme.keyIdx then (-EINVAL,s)
  else if env.pwepAlloc = false then (-ENOMEM,s)
  else
    let wepKeyLen := if sme.key.length ≤ 5 then 5 else 13
    let s := if wepKeyLen = 13 then { s with dot11PrivacyAlgrthm := .wep104, dot118021XGrpPrivacy := .wep104 } else s
    let r := rtwSet80211AddWep s env sme.keyIdx wepKeyLen sme.key
    (if r.1 then 0 else -EOPNOTSUPP,r.2)

/-- `rtw_set_802_11_connect`: a network that is joined while another is linked is disconnected from first,
and `rtw_indicate_disconnect` clears `WIFI_UNDER_WPS`. The reset of the security state is only queued. -/
def rtwSet80211Connect (s : ConnState) (env : ConnectEnv) : Bool × ConnState :=
  (env.connectOk,if env.candidate ∧ s.fwLinked then { s with underWps := false, fwLinked := false } else s)

/-- `exit:` of `cfg80211_rtw_connect` -/
def connectExit (ret : ℤ) (s : ConnState) (join : Option JoinCall) : ConnectRes :=
  ⟨ret,{ s with psDenyJoin := false },join⟩

/-- `cfg80211_rtw_connect` from the key management on -/
def connectJoin (s : ConnState) (sme : ConnectParams) (env : ConnectEnv) : ConnectRes :=
  let s := match sme.akmSuites with
    | keyMgt :: _ => rtwCfg80211SetKeyMgt s keyMgt
    | [] => s
  let s := rtwSet80211AuthenticationMode s s.ndisauthtype
  if s.wpa3Sae then ⟨0,s,some (.saeExtAuth sme.ssid sme.bssid)⟩
  else
    let r := rtwSet80211Connect s env
    connectExit (if r.1 then 0 else -1) r.2 (some (.set80211Connect sme.ssid sme.bssid))

/-- `cfg80211_rtw_connect` from the group cipher on: an unsupported one does not go to `exit`. -/
def connectGroup (s : ConnState) (sme : ConnectParams) (env : ConnectEnv) : ConnectRes :=
  let r := rtwCfg80211SetCipher s sme.cipherGroup false
  if r.1 < 0 then ⟨r.1,r.2,none⟩ else connectJoin r.2 sme env

/-- The next part of `cfg80211_rtw_connect`, or `exit` when one failed -/
def connectNext (r : ℤ × ConnState) (next : ConnState → ConnectRes) : ConnectRes :=
  if r.1 < 0 then connectExit r.1 r.2 none else next r.2

/-- The pairwise cipher of the request -/
def connectPairwise (s : ConnState) (sme : ConnectParams) : ℤ × ConnState :=
  match sme.ciphersPairwise with
  | cipher :: _ => rtwCfg80211SetCipher s cipher true
  | [] => (0,s)

/-- The values of an open network, the versions and the type of authentication of the request -/
def connectOpen (s : ConnState) (sme : ConnectParams) : ConnState :=
  let s := { s with
    ndisencryptstatus := .disabled
    dot11PrivacyAlgrthm := .noPrivacy
    dot118021XGrpPrivacy := .noPrivacy
    dot11AuthAlgrthm := .openSystem
    ndisauthtype := .openMode }
  rtwCfg80211SetAuthType (rtwCfg80211SetWpaVersion s sme.wpaVersions) sme.authType

def cfg80211RtwConnect (s : ConnState) (sme : ConnectParams) (beyond : List UInt8) (env : ConnectEnv) : ConnectRes :=
  if env.block then connectExit (-EBUSY) s none
  else
    let s := { s with psDenyJoin := true }
    if env.pwrWakeup = false then connectExit (-EPERM) s none
    else if env.apState then connectExit (-EPERM) s none
    else if sme.ssid = [] then connectExit (-EINVAL) s none
    else if IW_ESSID_MAX_SIZE < sme.ssid.length then connectExit (-E2BIG) s none
    else if env.underLinking then connectExit (-EBUSY) s none
    else
      connectNext (rtwCfg80211SetWpaIe (connectOpen s sme) sme.ie beyond env) fun s =>
        connectNext (connectPairwise s sme) fun s =>
          connectNext (connectWepKey s sme env) fun s => connectGroup s sme env

/-- What `rtw_cfg80211_set_encryption` changes here; `psta` when the station of the BSS is known -/
def ConnState.addKey (s : ConnState) (p : IeeeParam) (psta : Bool) : ConnState :=
  if p.staAddr ≠ bcAddr ∨ WEP_KEYS ≤ p.idx then s
  else if p.alg = .wep then
    if p.key = [] then s
    else
      let wepKeyLen := if s.bWepDefaultKeyIdxSet then p.key.length else if p.key.length ≤ 5 then 5 else 13
      let privacy : EncryAlgo := if wepKeyLen = 13 then .wep104 else .wep40
      let s := if s.bWepDefaultKeyIdxSet then s
        else { s with
          ndisencryptstatus := .encryption1Enabled
          dot11PrivacyAlgrthm := privacy
          dot118021XGrpPrivacy := privacy
          dot11PrivacyKeyIndex := p.idx }
      { s with
        dot11DefKey := Function.update s.dot11DefKey p.idx (patch (s.dot11DefKey p.idx) 0 (slice p.key 0 wepKeyLen))
        dot11DefKeylen := Function.update s.dot11DefKeylen p.idx wepKeyLen }
  else if s.dot11AuthAlgrthm = .ieee8021X ∧ psta ∧ p.setTx = false ∧ (p.alg = .tkip ∨ p.alg = .ccmp) then
    { s with dot118021XGrpKeyid := p.idx }
  else s

def cfg80211RtwSetDefaultKey (s : ConnState) (keyIndex : ℕ) : ConnState :=
  if keyIndex < WEP_KEYS ∧ (s.dot11PrivacyAlgrthm = .wep40 ∨ s.dot11PrivacyAlgrthm = .wep104) then
    let privacy : EncryAlgo := if s.dot11DefKeylen keyIndex = 13 then .wep104 else .wep40
    { s with
      ndisencryptstatus := .encryption1Enabled
      dot11PrivacyKeyIndex := keyIndex
      dot11PrivacyAlgrthm := privacy
      dot118021XGrpPrivacy := privacy
      bWepDefaultKeyIdxSet := true }
  else s

/-- `rtw_reset_securitypriv` with the flag of the default key, which only the 802.1X branch clears -/
def ConnState.resetSecuritypriv (s : ConnState) : ConnState :=
  { s with
    toSecPriv := rtwResetSecuritypriv s.toSecPriv
    bWepDefaultKeyIdxSet := s.bWepDefaultKeyIdxSet && !(s.dot11AuthAlgrthm = .ieee8021X) }

/-- What comes before a connect call. A disconnect only queues the reset. -/
inductive ConnectEvent
  | connect (sme : ConnectParams) (beyond : List UInt8) (env : ConnectEnv)
  | addKey (p : IeeeParam) (psta : Bool)
  | setDefaultKey (keyIndex : ℕ)
  | disconnect
  | resetSecuritypriv
  | joined

def connectStep (s : ConnState) : ConnectEvent → ConnState
  | .connect sme beyond env => (cfg80211RtwConnect s sme beyond env).state
  | .addKey p psta => s.addKey p psta
  | .setDefaultKey keyIndex => cfg80211RtwSetDefaultKey s keyIndex
  | .disconnect => { s with underWps := false, fwLinked := false }
  | .resetSecuritypriv => s.resetSecuritypriv
  | .joined => { s with fwLinked := true }

def ConnState.init : ConnState where
  toSecPriv := .zero
  bWepDefaultKeyIdxSet := false
  underWps := false
  fwLinked := false
  psDenyJoin := false

end Rtl8188fu
