import Rtl8188fu.Cfg80211.Connect
import Rtl8188fu.Library.Run

/-! # What a connection set-up depends on

Two histories and one request: each setter keeps two states alike in the fields that a connection uses. Apart
from them the call reads `wpa3_sae`, which only the 802.1X branch of the reset clears, and whether the
station is still linked.
-/
namespace Rtl8188fu
open Bytes

/-- The two states are set up alike. -/
structure SameSetup (s t : ConnState) : Prop where
  ndisauthtype : s.ndisauthtype = t.ndisauthtype
  ndisencryptstatus : s.ndisencryptstatus = t.ndisencryptstatus
  dot11AuthAlgrthm : s.dot11AuthAlgrthm = t.dot11AuthAlgrthm
  dot11PrivacyAlgrthm : s.dot11PrivacyAlgrthm = t.dot11PrivacyAlgrthm
  dot118021XGrpPrivacy : s.dot118021XGrpPrivacy = t.dot118021XGrpPrivacy

/-- The setters leave the rest alone. -/
structure Untouched (s t : ConnState) : Prop where
  wpa3Sae : t.wpa3Sae = s.wpa3Sae
  fwLinked : t.fwLinked = s.fwLinked
  psDenyJoin : t.psDenyJoin = s.psDenyJoin

/-- `rtw_cfg80211_set_cipher` knows the cipher. -/
def SupportedCipher (cipher : ℕ) : Prop := cipher = 0 ∨ (suitePrivacy cipher).isSome = true

/-- The request asks for 802.1X, by its versions or by a security element. -/
def Requests8021X (sme : ConnectParams) (beyond : List UInt8) : Prop :=
  (sme.wpaVersions &&& 3 ≠ 0 ∧ (sme.authType = .openSystem ∨ sme.authType = .sae)) ∨
    sme.ie ≠ [] ∧ ((wpaCiphers (sme.ie ++ beyond) sme.ie.length).1 = true ∨
      (wpa2Ciphers (sme.ie ++ beyond) sme.ie.length).1 = true)

/-- The elements of the request give a group cipher for `rtw_set_key`. -/
def RequestsGroup (sme : ConnectParams) (beyond : List UInt8) : Prop :=
  sme.ie ≠ [] ∧ (wpa2Ciphers (sme.ie ++ beyond) sme.ie.length).2.group ∈
    [WPA_CIPHER_WEP40,WPA_CIPHER_TKIP,WPA_CIPHER_CCMP,WPA_CIPHER_WEP104]

def RequestsWps (sme : ConnectParams) (beyond : List UInt8) : Prop :=
  sme.ie ≠ [] ∧ ∃ p len, rtwGetWpsIe (sme.ie ++ beyond) sme.ie.length = some (p,len) ∧ 0 < len

/-- The elements of the request get through `rtw_cfg80211_set_wpa_ie`. -/
def IesTaken (sme : ConnectParams) (env : ConnectEnv) : Prop :=
  sme.ie = [] ∨ env.bufAlloc = true ∧ RSN_HEADER_LEN ≤ sme.ie.length ∧
    sme.ie.length ≤ MAX_WPA_IE_LEN + MAX_WPS_IE_LEN + MAX_P2P_IE_LEN

/-- The WEP key of the request is installed. -/
structure KeyTaken (sme : ConnectParams) (beyond : List UInt8) (env : ConnectEnv) : Prop where
  keyIdx : sme.keyIdx < WEP_KEYS
  pwepAlloc : env.pwepAlloc = true
  setKeyCmd : env.setKeyCmd = true
  algorithm : 5 < sme.key.length ∨ ¬Requests8021X sme beyond ∨ RequestsGroup sme beyond

/-- The call gets as far as the group cipher of the request. -/
structure GroupReached (sme : ConnectParams) (beyond : List UInt8) (env : ConnectEnv) : Prop where
  block : env.block = false
  pwrWakeup : env.pwrWakeup = true
  apState : env.apState = false
  ssid : sme.ssid ≠ []
  ssidLen : sme.ssid.length ≤ IW_ESSID_MAX_SIZE
  underLinking : env.underLinking = false
  ies : IesTaken sme env
  pairwise : ∀ cipher ∈ sme.ciphersPairwise.head?, SupportedCipher cipher
  key : sme.key = [] ∨ KeyTaken sme beyond env

/-- The call goes on with SAE: it is asked to, or `wpa3_sae` is still set. -/
def IsSae (s : ConnState) (sme : ConnectParams) : Prop :=
  s.wpa3Sae = true ∨ WLAN_AKM_SUITE_SAE ∈ sme.akmSuites.head?

section Setters
variable {s t u : ConnState} {sme : ConnectParams} {beyond buf : List UInt8} {env env' : ConnectEnv}

theorem Untouched.trans (h : Untouched s t) (h' : Untouched t u) : Untouched s u :=
  ⟨h'.wpa3Sae.trans h.wpa3Sae,h'.fwLinked.trans h.fwLinked,h'.psDenyJoin.trans h.psDenyJoin⟩

theorem connectOpen_untouched (s : ConnState) (sme : ConnectParams) : Untouched s (connectOpen s sme) := by
  dsimp only [connectOpen]
  cases sme.authType <;> exact ⟨rfl,rfl,rfl⟩

/-- Nothing of the state before is left in the five fields. -/
theorem connectOpen_same (s t : ConnState) (sme : ConnectParams) :
    SameSetup (connectOpen s sme) (connectOpen t sme) := by
  dsimp only [connectOpen]
  cases sme.authType <;> exact ⟨rfl,rfl,rfl,rfl,rfl⟩

theorem connectOpen_group (s : ConnState) (sme : ConnectParams) :
    (connectOpen s sme).dot118021XGrpPrivacy = .noPrivacy := by
  dsimp only [connectOpen]
  cases sme.authType <;> rfl

theorem setAuthType_auth (s : ConnState) (a : Nl80211AuthType) :
    (rtwCfg80211SetAuthType s a).dot11AuthAlgrthm = .ieee8021X ↔
    s.ndisauthtype.beyondWpa = true ∧ (a = .openSystem ∨ a = .sae) := by
  cases a <;> simp [rtwCfg80211SetAuthType]

theorem connectOpen_auth (s : ConnState) (sme : ConnectParams) : (connectOpen s sme).dot11AuthAlgrthm = .ieee8021X ↔
    sme.wpaVersions &&& 3 ≠ 0 ∧ (sme.authType = .openSystem ∨ sme.authType = .sae) := by
  rw [connectOpen, setAuthType_auth]
  refine and_congr_left' ?_
  dsimp only [rtwCfg80211SetWpaVersion]
  by_cases hzero : sme.wpaVersions = 0
  · rw [if_pos hzero, hzero]
    decide
  · rw [if_neg hzero]
    by_cases hver : sme.wpaVersions &&& 3 ≠ 0
    · rw [if_pos hver]
      exact iff_of_true rfl hver
    · rw [if_neg hver]
      exact iff_of_false nofun hver

def ConnState.takeSecIes (s : ConnState) (buf : List UInt8) (ielen : ℕ) : ConnState :=
  let s := if (wpaCiphers buf ielen).1 then s.takeSecIe buf (rtwGetWpaIe buf ielen) .wpaPsk else s
  if (wpa2Ciphers buf ielen).1 then s.takeSecIe buf (rtwGetIe buf WPA2_IE_ID ielen) .wpa2Psk else s

theorem takeSecIes_untouched (s : ConnState) (buf : List UInt8) (n : ℕ) : Untouched s (s.takeSecIes buf n) := by
  dsimp only [ConnState.takeSecIes]
  split_ifs <;> exact ⟨rfl,rfl,rfl⟩

theorem takeSecIes_same (h : SameSetup s t) (n : ℕ) : SameSetup (s.takeSecIes buf n) (t.takeSecIes buf n) := by
  dsimp only [ConnState.takeSecIes]
  split_ifs
  · exact ⟨rfl,h.ndisencryptstatus,rfl,h.dot11PrivacyAlgrthm,h.dot118021XGrpPrivacy⟩
  · exact ⟨rfl,h.ndisencryptstatus,rfl,h.dot11PrivacyAlgrthm,h.dot118021XGrpPrivacy⟩
  · exact ⟨rfl,h.ndisencryptstatus,rfl,h.dot11PrivacyAlgrthm,h.dot118021XGrpPrivacy⟩
  · exact h

theorem takeSecIes_auth (n : ℕ) : (s.takeSecIes buf n).dot11AuthAlgrthm = .ieee8021X ↔
    s.dot11AuthAlgrthm = .ieee8021X ∨ (wpaCiphers buf n).1 = true ∨ (wpa2Ciphers buf n).1 = true := by
  dsimp only [ConnState.takeSecIes]
  by_cases h2 : (wpa2Ciphers buf n).1 = true
  · rw [if_pos h2]
    exact iff_of_true rfl (.inr (.inr h2))
  · rw [if_neg h2]
    by_cases h1 : (wpaCiphers buf n).1 = true
    · rw [if_pos h1]
      exact iff_of_true rfl (.inr (.inl h1))
    · rw [if_neg h1]
      simp [h1, h2]

def ConnState.takeIes (s : ConnState) (sme : ConnectParams) (beyond : List UInt8) : ConnState :=
  if sme.ie = [] then { s with underWps := false }
  else
    let buf := sme.ie ++ beyond
    let c := (wpa2Ciphers buf sme.ie.length).2
    (((s.takeSecIes buf sme.ie.length).setGroupCipher c.group).setPairwiseCipher c.pairwise).setWpsIe buf sme.ie.length

theorem setWpaIe_of_taken (h : IesTaken sme env) (s : ConnState) :
    rtwCfg80211SetWpaIe s sme.ie beyond env = (0,s.takeIes sme beyond) := by
  dsimp only [rtwCfg80211SetWpaIe]
  by_cases hnil : sme.ie = []
  · rw [if_pos (List.length_eq_zero_iff.mpr hnil), ConnState.takeIes, if_pos hnil]
  · obtain ⟨halloc,hmin,hmax⟩ := h.resolve_left hnil
    rw [if_neg (mt List.length_eq_zero_iff.mp hnil), if_neg (Nat.not_lt.mpr hmax), if_neg (by simp [halloc]),
      if_neg (Nat.not_lt.mpr hmin), ConnState.takeIes, if_neg hnil]
    rfl

theorem setWpaIe_of_not_taken (h : ¬IesTaken sme env) (s : ConnState) :
    (rtwCfg80211SetWpaIe s sme.ie beyond env).1 < 0 := by
  dsimp only [rtwCfg80211SetWpaIe]
  rw [if_neg fun hlen => h (.inl (List.length_eq_zero_iff.mp hlen))]
  by_cases hmax : MAX_WPA_IE_LEN + MAX_WPS_IE_LEN + MAX_P2P_IE_LEN < sme.ie.length
  · rw [if_pos hmax]
    exact show (-EINVAL : ℤ) < 0 by decide
  · rw [if_neg hmax]
    by_cases halloc : env.bufAlloc = false
    · rw [if_pos halloc]
      exact show (-ENOMEM : ℤ) < 0 by decide
    · rw [if_neg halloc, if_pos]
      · exact show (-1 : ℤ) < 0 by decide
      · by_contra hmin
        exact h (.inr ⟨Bool.eq_true_of_not_eq_false halloc,Nat.le_of_not_lt hmin,Nat.le_of_not_lt hmax⟩)

theorem takeIes_untouched (s : ConnState) (sme : ConnectParams) (beyond : List UInt8) :
    Untouched s (s.takeIes sme beyond) := by
  rw [ConnState.takeIes]
  split
  · exact ⟨rfl,rfl,rfl⟩
  · exact (takeSecIes_untouched s (sme.ie ++ beyond) sme.ie.length).trans ⟨rfl,rfl,rfl⟩

theorem takeIes_same (h : SameSetup s t) : SameSetup (s.takeIes sme beyond) (t.takeIes sme beyond) := by
  rw [ConnState.takeIes, ConnState.takeIes]
  split
  · exact ⟨h.ndisauthtype,h.ndisencryptstatus,h.dot11AuthAlgrthm,h.dot11PrivacyAlgrthm,h.dot118021XGrpPrivacy⟩
  · have hsec := @takeSecIes_same s t (sme.ie ++ beyond) h sme.ie.length
    refine ⟨hsec.ndisauthtype,?_,hsec.dot11AuthAlgrthm,?_,?_⟩
    · simp only [ConnState.setWpsIe, ConnState.setPairwiseCipher, ConnState.setGroupCipher, hsec.ndisencryptstatus]
    · simp only [ConnState.setWpsIe, ConnState.setPairwiseCipher, ConnState.setGroupCipher, hsec.dot11PrivacyAlgrthm]
    · simp only [ConnState.setWpsIe, ConnState.setPairwiseCipher, ConnState.setGroupCipher, hsec.dot118021XGrpPrivacy]

theorem takeIes_underWps (s : ConnState) (sme : ConnectParams) (beyond : List UInt8) :
    (s.takeIes sme beyond).underWps = true ↔ RequestsWps sme beyond := by
  rw [ConnState.takeIes, RequestsWps]
  by_cases hnil : sme.ie = []
  · rw [if_pos hnil]
    exact iff_of_false nofun fun h => h.1 hnil
  · rw [if_neg hnil, and_iff_right hnil]
    simp only [ConnState.setWpsIe, Option.isSome_filter, Option.any_eq_true, decide_eq_true_eq, Prod.exists]

theorem takeIes_auth (s : ConnState) (sme : ConnectParams) (beyond : List UInt8) :
    ((connectOpen s sme).takeIes sme beyond).dot11AuthAlgrthm = .ieee8021X ↔ Requests8021X sme beyond := by
  rw [Requests8021X, ← connectOpen_auth s]
  by_cases hnil : sme.ie = []
  · rw [ConnState.takeIes, if_pos hnil, or_iff_left fun h => h.1 hnil]
  · rw [and_iff_right hnil, ← takeSecIes_auth, ConnState.takeIes, if_neg hnil]
    rfl

theorem foundPrivacy_hasKeylen (c : ℕ) : (((foundPrivacy c).map Prod.fst).getD .noPrivacy).hasKeylen = true ↔
    c ∈ [WPA_CIPHER_WEP40,WPA_CIPHER_TKIP,WPA_CIPHER_CCMP,WPA_CIPHER_WEP104] := by
  by_cases hzero : c = 0
  · subst hzero
    decide
  · rw [foundPrivacy, if_neg hzero, wpaCipherPrivacy]
    split_ifs with h1 h2 h3 h4 h5
    · subst h1
      decide
    · exact iff_of_true rfl (by simp [h2])
    · exact iff_of_true rfl (by simp [h3])
    · exact iff_of_true rfl (by simp [h4])
    · exact iff_of_true rfl (by simp [h5])
    · exact iff_of_false nofun (by simp [h2, h3, h4, h5])

theorem takeIes_group (s : ConnState) (sme : ConnectParams) (beyond : List UInt8) :
    ((connectOpen s sme).takeIes sme beyond).dot118021XGrpPrivacy.hasKeylen = true ↔ RequestsGroup sme beyond := by
  rw [RequestsGroup]
  by_cases hnil : sme.ie = []
  · rw [ConnState.takeIes, if_pos hnil]
    dsimp only
    rw [connectOpen_group]
    exact iff_of_false nofun fun h => h.1 hnil
  · have hopen :
        ((connectOpen s sme).takeSecIes (sme.ie ++ beyond) sme.ie.length).dot118021XGrpPrivacy = .noPrivacy := by
      dsimp only [ConnState.takeSecIes]
      split_ifs <;> exact connectOpen_group s sme
    rw [and_iff_right hnil, ← foundPrivacy_hasKeylen, ← hopen, ConnState.takeIes, if_neg hnil]
    rfl

/-- A supported cipher sets the same values in every state. -/
theorem setCipher_of_supported {c : ℕ} (h : SupportedCipher c) (ucast : Bool) :
    ∃ p e, ∀ s, rtwCfg80211SetCipher s c ucast =
      (0,{ s.setProfileCipher ucast p with ndisencryptstatus := Option.getD e s.ndisencryptstatus }) := by
  by_cases hzero : c = 0
  · refine ⟨.noPrivacy,some .disabled,fun s => ?_⟩
    rw [rtwCfg80211SetCipher, if_pos hzero]
    rfl
  · obtain ⟨⟨p,e⟩,hpe⟩ := Option.isSome_iff_exists.mp (h.resolve_left hzero)
    refine ⟨p,if ucast then some e else none,fun s => ?_⟩
    rw [rtwCfg80211SetCipher, if_neg hzero, hpe]
    cases ucast <;> rfl

theorem setCipher_of_not_supported {c : ℕ} (h : ¬SupportedCipher c) (s : ConnState) (ucast : Bool) :
    rtwCfg80211SetCipher s c ucast = (-ENOTSUPP,s) := by
  have hnone : suitePrivacy c = none := Option.not_isSome_iff_eq_none.mp fun hs => h (.inr hs)
  rw [rtwCfg80211SetCipher, if_neg fun hzero => h (.inl hzero), hnone]

/-- The state after the pairwise cipher of the request, if it has one -/
def ConnState.takePairwise (s : ConnState) (p : Option EncryAlgo) (e : Option NdisEncryptStatus) : ConnState :=
  { s with
    dot11PrivacyAlgrthm := p.getD s.dot11PrivacyAlgrthm
    ndisencryptstatus := e.getD s.ndisencryptstatus }

theorem pairwise_of_supported (h : ∀ cipher ∈ sme.ciphersPairwise.head?, SupportedCipher cipher) :
    ∃ p e, ∀ s, connectPairwise s sme = (0,s.takePairwise p e) := by
  cases hsuites : sme.ciphersPairwise with
  | nil =>
    refine ⟨none,none,fun s => ?_⟩
    simp only [connectPairwise, hsuites]
    rfl
  | cons cipher rest =>
    rw [hsuites] at h
    obtain ⟨p,e,heq⟩ := setCipher_of_supported (h cipher rfl) true
    refine ⟨some p,e,fun s => ?_⟩
    simp only [connectPairwise, hsuites]
    exact heq s

theorem pairwise_of_not_supported (h : ¬∀ cipher ∈ sme.ciphersPairwise.head?, SupportedCipher cipher)
    (s : ConnState) :
    (connectPairwise s sme).1 < 0 := by
  cases hsuites : sme.ciphersPairwise with
  | nil => exact absurd (fun c hc => by rw [hsuites] at hc; cases hc) h
  | cons cipher rest =>
    have hnot : ¬SupportedCipher cipher := by
      intro hs
      apply h
      rintro c hc
      rw [hsuites] at hc
      cases hc
      exact hs
    simp only [connectPairwise, hsuites, setCipher_of_not_supported hnot]
    decide

def ConnState.takeWepKey (s : ConnState) (sme : ConnectParams) : ConnState :=
  let wepKeyLen := if sme.key.length ≤ 5 then 5 else 13
  { s with
    dot11PrivacyAlgrthm := if wepKeyLen = 5 then .wep40 else .wep104
    dot118021XGrpPrivacy := if wepKeyLen = 13 then .wep104 else s.dot118021XGrpPrivacy
    dot11DefKey := Function.update s.dot11DefKey sme.keyIdx
      (patch (s.dot11DefKey sme.keyIdx) 0 (slice sme.key 0 wepKeyLen))
    dot11DefKeylen := Function.update s.dot11DefKeylen sme.keyIdx wepKeyLen
    dot11PrivacyKeyIndex := sme.keyIdx }

theorem wepKey_eq (hkey : sme.key ≠ []) (hidx : sme.keyIdx < WEP_KEYS) (halloc : env.pwepAlloc = true)
    (s : ConnState) :
    connectWepKey s sme env =
      (if rtwSetKey (s.takeWepKey sme) env then 0 else -EOPNOTSUPP,s.takeWepKey sme) := by
  rw [connectWepKey, if_neg hkey, if_neg (Nat.not_lt.mpr hidx.le), if_neg (by simp [halloc])]
  dsimp only [rtwSet80211AddWep]
  rw [if_neg (show ¬4 ≤ sme.keyIdx from Nat.not_le.mpr hidx)]
  by_cases hlen : sme.key.length ≤ 5 <;> simp [ConnState.takeWepKey, hlen]

theorem takeWepKey_setKey (hauth : s.dot11AuthAlgrthm = .ieee8021X ↔ Requests8021X sme beyond)
    (hgroup : s.dot118021XGrpPrivacy.hasKeylen = true ↔ RequestsGroup sme beyond) :
    rtwSetKey (s.takeWepKey sme) env = true ↔
      env.setKeyCmd = true ∧ (5 < sme.key.length ∨ ¬Requests8021X sme beyond ∨ RequestsGroup sme beyond) := by
  rw [rtwSetKey, Bool.and_eq_true, and_comm]
  refine and_congr_right' ?_
  rw [← hauth, ← hgroup]
  by_cases hlen : sme.key.length ≤ 5
  · by_cases h8021x : s.dot11AuthAlgrthm = .ieee8021X <;>
      simp [ConnState.takeWepKey, hlen, h8021x, EncryAlgo.hasKeylen]
  · by_cases h8021x : s.dot11AuthAlgrthm = .ieee8021X <;>
      simp [ConnState.takeWepKey, hlen, h8021x, EncryAlgo.hasKeylen, Nat.lt_of_not_le hlen]

theorem wepKey_of_not_taken (hkey : sme.key ≠ []) (h : ¬KeyTaken sme beyond env)
    (hauth : s.dot11AuthAlgrthm = .ieee8021X ↔ Requests8021X sme beyond)
    (hgroup : s.dot118021XGrpPrivacy.hasKeylen = true ↔ RequestsGroup sme beyond) :
    (connectWepKey s sme env).1 < 0 := by
  by_cases hidx : sme.keyIdx < WEP_KEYS
  · by_cases halloc : env.pwepAlloc = true
    · rw [wepKey_eq hkey hidx halloc, if_neg]
      · exact show (-EOPNOTSUPP : ℤ) < 0 by decide
      · intro hset
        obtain ⟨hcmd,halg⟩ := (takeWepKey_setKey hauth hgroup).mp hset
        exact h ⟨hidx,halloc,hcmd,halg⟩
    · rw [connectWepKey, if_neg hkey]
      split
      · exact show (-EINVAL : ℤ) < 0 by decide
      · rw [if_pos (Bool.eq_false_of_not_eq_true halloc)]
        exact show (-ENOMEM : ℤ) < 0 by decide
  · rw [connectWepKey, if_neg hkey]
    split
    · exact show (-EINVAL : ℤ) < 0 by decide
    split
    · exact show (-ENOMEM : ℤ) < 0 by decide
    · dsimp only [rtwSet80211AddWep]
      rw [if_pos (show 4 ≤ sme.keyIdx from Nat.le_of_not_lt hidx)]
      exact show (-EOPNOTSUPP : ℤ) < 0 by decide

/-- The state of a call that gets as far as the group cipher -/
def ConnState.beforeGroup (s : ConnState) (sme : ConnectParams) (beyond : List UInt8) : ConnState :=
  let s := (connectPairwise ((connectOpen s sme).takeIes sme beyond) sme).2
  if sme.key = [] then s else s.takeWepKey sme

theorem beforeGroup_untouched (h : ∀ cipher ∈ sme.ciphersPairwise.head?, SupportedCipher cipher) (s : ConnState)
    (beyond : List UInt8) : Untouched s (s.beforeGroup sme beyond) := by
  obtain ⟨p,e,hpair⟩ := pairwise_of_supported h
  have hies := (connectOpen_untouched s sme).trans (takeIes_untouched (connectOpen s sme) sme beyond)
  dsimp only [ConnState.beforeGroup]
  rw [hpair]
  split <;> exact ⟨hies.wpa3Sae,hies.fwLinked,hies.psDenyJoin⟩

theorem beforeGroup_same (h : ∀ cipher ∈ sme.ciphersPairwise.head?, SupportedCipher cipher) (s t : ConnState)
    (beyond : List UInt8) : SameSetup (s.beforeGroup sme beyond) (t.beforeGroup sme beyond) := by
  obtain ⟨p,e,hpair⟩ := pairwise_of_supported h
  have hies := @takeIes_same _ _ sme beyond (connectOpen_same s t sme)
  dsimp only [ConnState.beforeGroup]
  rw [hpair, hpair]
  have hsame : SameSetup (((connectOpen s sme).takeIes sme beyond).takePairwise p e)
      (((connectOpen t sme).takeIes sme beyond).takePairwise p e) :=
    ⟨hies.ndisauthtype,congrArg (Option.getD e) hies.ndisencryptstatus,hies.dot11AuthAlgrthm,
      congrArg (Option.getD p) hies.dot11PrivacyAlgrthm,hies.dot118021XGrpPrivacy⟩
  split
  · exact hsame
  · refine ⟨hsame.ndisauthtype,hsame.ndisencryptstatus,hsame.dot11AuthAlgrthm,rfl,?_⟩
    simp only [ConnState.takeWepKey, hsame.dot118021XGrpPrivacy]

theorem beforeGroup_underWps (h : ∀ cipher ∈ sme.ciphersPairwise.head?, SupportedCipher cipher) (s : ConnState)
    (beyond : List UInt8) : (s.beforeGroup sme beyond).underWps = true ↔ RequestsWps sme beyond := by
  obtain ⟨p,e,hpair⟩ := pairwise_of_supported h
  rw [← takeIes_underWps (connectOpen s sme)]
  dsimp only [ConnState.beforeGroup]
  rw [hpair]
  split <;> rfl

theorem connectNext_of_ok {r : ℤ × ConnState} {v : ConnState} {next : ConnState → ConnectRes} (h : r = (0,v)) :
    connectNext r next = next v := by
  rw [h]
  rfl

theorem connect_of_reached (h : GroupReached sme beyond env) (s : ConnState) :
    cfg80211RtwConnect s sme beyond env =
      connectGroup (({ s with psDenyJoin := true } : ConnState).beforeGroup sme beyond) sme env := by
  obtain ⟨p,e,hpair⟩ := pairwise_of_supported h.pairwise
  rw [cfg80211RtwConnect, if_neg (by simp [h.block])]
  dsimp only
  rw [if_neg (by simp [h.pwrWakeup]), if_neg (by simp [h.apState]), if_neg h.ssid, if_neg (Nat.not_lt.mpr h.ssidLen),
    if_neg (by simp [h.underLinking]), connectNext_of_ok (setWpaIe_of_taken h.ies _), connectNext_of_ok (hpair _)]
  dsimp only [ConnState.beforeGroup]
  rw [hpair]
  by_cases hnil : sme.key = []
  · rw [if_pos hnil, connectNext_of_ok]
    rw [connectWepKey, if_pos hnil]
  · have hkey := h.key.resolve_left hnil
    rw [if_neg hnil, connectNext_of_ok]
    rw [wepKey_eq hnil hkey.keyIdx hkey.pwepAlloc, if_pos]
    exact (takeWepKey_setKey (takeIes_auth _ sme beyond) (takeIes_group _ sme beyond)).mpr
      ⟨hkey.setKeyCmd,hkey.algorithm⟩

/-- A call that does not get so far goes to `exit` with an error. -/
theorem connect_of_not_reached (h : ¬GroupReached sme beyond env) (s : ConnState) :
    ∃ ret < 0, ∃ u, cfg80211RtwConnect s sme beyond env = connectExit ret u none := by
  rw [cfg80211RtwConnect]
  by_cases hblock : env.block = true
  · exact ⟨-EBUSY,by decide,_,if_pos hblock⟩
  rw [if_neg hblock]
  by_cases hpwr : env.pwrWakeup = false
  · exact ⟨-EPERM,by decide,_,if_pos hpwr⟩
  dsimp only
  rw [if_neg hpwr]
  by_cases hap : env.apState = true
  · exact ⟨-EPERM,by decide,_,if_pos hap⟩
  rw [if_neg hap]
  by_cases hssid : sme.ssid = []
  · exact ⟨-EINVAL,by decide,_,if_pos hssid⟩
  rw [if_neg hssid]
  by_cases hlen : IW_ESSID_MAX_SIZE < sme.ssid.length
  · exact ⟨-E2BIG,by decide,_,if_pos hlen⟩
  rw [if_neg hlen]
  by_cases hlinking : env.underLinking = true
  · exact ⟨-EBUSY,by decide,_,if_pos hlinking⟩
  rw [if_neg hlinking]
  by_cases hies : IesTaken sme env
  · rw [connectNext_of_ok (setWpaIe_of_taken hies _)]
    by_cases hpairwise : ∀ cipher ∈ sme.ciphersPairwise.head?, SupportedCipher cipher
    · obtain ⟨p,e,hpair⟩ := pairwise_of_supported hpairwise
      rw [connectNext_of_ok (hpair _)]
      have hkey : ¬(sme.key = [] ∨ KeyTaken sme beyond env) := fun hkey => h
        ⟨Bool.eq_false_of_not_eq_true hblock,Bool.eq_true_of_not_eq_false hpwr,Bool.eq_false_of_not_eq_true hap,hssid,
          Nat.le_of_not_lt hlen,Bool.eq_false_of_not_eq_true hlinking,hies,hpairwise,hkey⟩
      obtain ⟨hne,hnot⟩ := not_or.mp hkey
      have hneg := @wepKey_of_not_taken
        (((connectOpen ({ s with psDenyJoin := true } : ConnState) sme).takeIes sme beyond).takePairwise p e)
        sme beyond env hne hnot (takeIes_auth _ sme beyond) (takeIes_group _ sme beyond)
      exact ⟨_,hneg,_,if_pos hneg⟩
    · have hneg := pairwise_of_not_supported hpairwise
        ((connectOpen ({ s with psDenyJoin := true } : ConnState) sme).takeIes sme beyond)
      exact ⟨_,hneg,_,if_pos hneg⟩
  · have hneg :=
      @setWpaIe_of_not_taken sme beyond env hies (connectOpen ({ s with psDenyJoin := true } : ConnState) sme)
    exact ⟨_,hneg,_,if_pos hneg⟩

/-- The state after the key management of the request -/
def ConnState.takeKeyMgt (s : ConnState) (sme : ConnectParams) : ConnState :=
  let s := match sme.akmSuites with
    | keyMgt :: _ => rtwCfg80211SetKeyMgt s keyMgt
    | [] => s
  rtwSet80211AuthenticationMode s s.ndisauthtype

theorem setKeyMgt_eq (s : ConnState) (keyMgt : ℕ) : rtwCfg80211SetKeyMgt s keyMgt = { s with
    dot11AuthAlgrthm :=
      if keyMgt ∈ [WLAN_AKM_SUITE_8021X,WLAN_AKM_SUITE_PSK,WLAN_AKM_SUITE_SAE] then .ieee8021X else s.dot11AuthAlgrthm
    wpa3Sae := s.wpa3Sae || keyMgt = WLAN_AKM_SUITE_SAE } := by
  rw [rtwCfg80211SetKeyMgt]
  by_cases h1 : keyMgt = WLAN_AKM_SUITE_8021X
  · simp [h1, WLAN_AKM_SUITE_8021X, WLAN_AKM_SUITE_SAE]
  by_cases h2 : keyMgt = WLAN_AKM_SUITE_PSK
  · simp [h2, WLAN_AKM_SUITE_8021X, WLAN_AKM_SUITE_PSK, WLAN_AKM_SUITE_SAE]
  by_cases h3 : keyMgt = WLAN_AKM_SUITE_SAE
  · simp [h3, WLAN_AKM_SUITE_8021X, WLAN_AKM_SUITE_PSK, WLAN_AKM_SUITE_SAE]
  · simp [h1, h2, h3]

theorem takeKeyMgt_same (h : SameSetup s t) (sme : ConnectParams) :
    SameSetup (s.takeKeyMgt sme) (t.takeKeyMgt sme) := by
  have hset : ∀ {u v : ConnState}, SameSetup u v →
      SameSetup (rtwSet80211AuthenticationMode u u.ndisauthtype) (rtwSet80211AuthenticationMode v v.ndisauthtype) := by
    intro u v huv
    dsimp only [rtwSet80211AuthenticationMode]
    rw [huv.ndisauthtype]
    split
    · exact ⟨rfl,huv.ndisencryptstatus,rfl,huv.dot11PrivacyAlgrthm,huv.dot118021XGrpPrivacy⟩
    · exact ⟨rfl,huv.ndisencryptstatus,huv.dot11AuthAlgrthm,huv.dot11PrivacyAlgrthm,huv.dot118021XGrpPrivacy⟩
  apply hset
  cases sme.akmSuites with
  | nil => exact h
  | cons keyMgt rest =>
    dsimp only
    rw [setKeyMgt_eq, setKeyMgt_eq]
    exact ⟨h.ndisauthtype,h.ndisencryptstatus,by rw [h.dot11AuthAlgrthm],
      h.dot11PrivacyAlgrthm,h.dot118021XGrpPrivacy⟩

/-- What the key management leaves, and when it goes on with SAE -/
theorem takeKeyMgt_rest (s : ConnState) (sme : ConnectParams) :
    ((s.takeKeyMgt sme).wpa3Sae = true ↔ IsSae s sme) ∧ (s.takeKeyMgt sme).fwLinked = s.fwLinked ∧
      (s.takeKeyMgt sme).psDenyJoin = s.psDenyJoin ∧ (s.takeKeyMgt sme).underWps = s.underWps := by
  have hset :
      ∀ u : ConnState, ∃ a, rtwSet80211AuthenticationMode u u.ndisauthtype = { u with dot11AuthAlgrthm := a } := by
    intro u
    dsimp only [rtwSet80211AuthenticationMode]
    split <;> exact ⟨_,rfl⟩
  rw [ConnState.takeKeyMgt, IsSae]
  cases sme.akmSuites with
  | nil =>
    obtain ⟨a,ha⟩ := hset s
    dsimp only
    rw [ha]
    exact ⟨by simp,rfl,rfl,rfl⟩
  | cons keyMgt rest =>
    obtain ⟨a,ha⟩ := hset (rtwCfg80211SetKeyMgt s keyMgt)
    dsimp only
    rw [ha, setKeyMgt_eq]
    refine ⟨?_,rfl,rfl,rfl⟩
    rw [Bool.or_eq_true, decide_eq_true_eq, List.head?_cons, Option.mem_some_iff]

/-- The state of a call that gets past the key management -/
def ConnState.setUp (s : ConnState) (sme : ConnectParams) (beyond : List UInt8) : ConnState :=
  (rtwCfg80211SetCipher (({ s with psDenyJoin := true } : ConnState).beforeGroup sme beyond) sme.cipherGroup
    false).2.takeKeyMgt sme

theorem setUp_same (hpairwise : ∀ cipher ∈ sme.ciphersPairwise.head?, SupportedCipher cipher)
    (hgroup : SupportedCipher sme.cipherGroup) (s t : ConnState) (beyond : List UInt8) :
    SameSetup (s.setUp sme beyond) (t.setUp sme beyond) := by
  obtain ⟨p,e,hset⟩ := setCipher_of_supported hgroup false
  have h := beforeGroup_same hpairwise ({ s with psDenyJoin := true } : ConnState) { t with psDenyJoin := true } beyond
  apply takeKeyMgt_same
  rw [hset, hset]
  exact ⟨h.ndisauthtype,congrArg (Option.getD e) h.ndisencryptstatus,h.dot11AuthAlgrthm,h.dot11PrivacyAlgrthm,rfl⟩

/-- What the set-up leaves, and when it goes on with SAE -/
theorem setUp_rest (hpairwise : ∀ cipher ∈ sme.ciphersPairwise.head?, SupportedCipher cipher)
    (hgroup : SupportedCipher sme.cipherGroup) (s : ConnState) (beyond : List UInt8) :
    ((s.setUp sme beyond).wpa3Sae = true ↔ IsSae s sme) ∧ (s.setUp sme beyond).fwLinked = s.fwLinked ∧
      (s.setUp sme beyond).psDenyJoin = true ∧ ((s.setUp sme beyond).underWps = true ↔ RequestsWps sme beyond) := by
  obtain ⟨p,e,hset⟩ := setCipher_of_supported hgroup false
  have h := beforeGroup_untouched hpairwise ({ s with psDenyJoin := true } : ConnState) beyond
  have hwps := beforeGroup_underWps hpairwise ({ s with psDenyJoin := true } : ConnState) beyond
  obtain ⟨hsae,hlinked,hdeny,hunder⟩ := takeKeyMgt_rest
    (rtwCfg80211SetCipher (({ s with psDenyJoin := true } : ConnState).beforeGroup sme beyond) sme.cipherGroup
      false).2 sme
  rw [hset] at hsae hlinked hdeny hunder
  rw [ConnState.setUp, hset]
  refine ⟨hsae.trans (or_congr_left ?_),hlinked.trans h.fwLinked,hdeny.trans h.psDenyJoin,?_⟩
  · exact iff_of_eq (congrArg (· = true) h.wpa3Sae)
  · rw [hunder]
    exact hwps

end Setters

section Calls
variable {s : ConnState} {sme : ConnectParams} {beyond : List UInt8} {env : ConnectEnv}

/-- `rtw_set_802_11_connect` disconnects from a network first. -/
def Relinks (s : ConnState) (env : ConnectEnv) : Prop := env.candidate = true ∧ s.fwLinked = true

/-- A call that gets to `rtw_set_802_11_connect` -/
structure JoinResult (s : ConnState) (sme : ConnectParams) (beyond : List UInt8) (env : ConnectEnv) (r : ConnectRes) :
    Prop where
  ret : r.ret = if env.connectOk then 0 else -1
  join : r.join = some (.set80211Connect sme.ssid sme.bssid)
  psDenyJoin : r.state.psDenyJoin = false
  underWps : r.state.underWps = true ↔ RequestsWps sme beyond ∧ ¬Relinks s env
  same : SameSetup r.state (s.setUp sme beyond)

theorem connect_group (h : GroupReached sme beyond env) (hgroup : SupportedCipher sme.cipherGroup) (s : ConnState) :
    cfg80211RtwConnect s sme beyond env =
      if (s.setUp sme beyond).wpa3Sae then ⟨0,s.setUp sme beyond,some (.saeExtAuth sme.ssid sme.bssid)⟩
      else connectExit (if env.connectOk then 0 else -1) (rtwSet80211Connect (s.setUp sme beyond) env).2
        (some (.set80211Connect sme.ssid sme.bssid)) := by
  obtain ⟨p,e,hset⟩ := setCipher_of_supported hgroup false
  rw [connect_of_reached h, connectGroup, ConnState.setUp, hset]
  rfl

theorem connect_unsupported (h : GroupReached sme beyond env) (hgroup : ¬SupportedCipher sme.cipherGroup)
    (s : ConnState) :
    (cfg80211RtwConnect s sme beyond env).ret < 0 ∧
    (cfg80211RtwConnect s sme beyond env).state.psDenyJoin = true := by
  rw [connect_of_reached h, connectGroup, setCipher_of_not_supported hgroup]
  exact ⟨show (-ENOTSUPP : ℤ) < 0 by decide,(beforeGroup_untouched h.pairwise _ beyond).psDenyJoin⟩

theorem connect_sae (h : GroupReached sme beyond env) (hgroup : SupportedCipher sme.cipherGroup) (hsae : IsSae s sme) :
    (cfg80211RtwConnect s sme beyond env).state.psDenyJoin = true := by
  obtain ⟨hwpa3,-,hdeny,-⟩ := setUp_rest h.pairwise hgroup s beyond
  rw [connect_group h hgroup, if_pos (hwpa3.mpr hsae)]
  exact hdeny

theorem connect_join (h : GroupReached sme beyond env) (hgroup : SupportedCipher sme.cipherGroup)
    (hsae : ¬IsSae s sme) :
    JoinResult s sme beyond env (cfg80211RtwConnect s sme beyond env) := by
  obtain ⟨hwpa3,hlinked,-,hwps⟩ := setUp_rest h.pairwise hgroup s beyond
  rw [connect_group h hgroup, if_neg (mt hwpa3.mp hsae), rtwSet80211Connect]
  by_cases hrelinks : env.candidate ∧ (s.setUp sme beyond).fwLinked
  · rw [if_pos hrelinks]
    refine ⟨rfl,rfl,rfl,iff_of_false nofun fun hw => hw.2 ?_,⟨rfl,rfl,rfl,rfl,rfl⟩⟩
    exact ⟨hrelinks.1,hlinked.symm.trans hrelinks.2⟩
  · rw [if_neg hrelinks]
    refine ⟨rfl,rfl,rfl,?_,⟨rfl,rfl,rfl,rfl,rfl⟩⟩
    refine hwps.trans (and_iff_left ?_).symm
    rintro ⟨hcandidate,hl⟩
    exact hrelinks ⟨hcandidate,hlinked.trans hl⟩

/-- The request and `wpa3_sae` send the call through `exit`. -/
def GoesToExit (s : ConnState) (sme : ConnectParams) (beyond : List UInt8) (env : ConnectEnv) : Prop :=
  GroupReached sme beyond env → SupportedCipher sme.cipherGroup ∧ ¬IsSae s sme

theorem connect_clears_iff (s : ConnState) (sme : ConnectParams) (beyond : List UInt8) (env : ConnectEnv) :
    (cfg80211RtwConnect s sme beyond env).state.psDenyJoin = false ↔ GoesToExit s sme beyond env := by
  by_cases h : GroupReached sme beyond env
  · constructor
    · intro hclear _
      by_cases hgroup : SupportedCipher sme.cipherGroup
      · refine ⟨hgroup,fun hsae => ?_⟩
        rw [connect_sae h hgroup hsae] at hclear
        cases hclear
      · rw [(connect_unsupported h hgroup s).2] at hclear
        cases hclear
    · intro hexit
      obtain ⟨hgroup,hsae⟩ := hexit h
      exact (connect_join h hgroup hsae).psDenyJoin
  · obtain ⟨ret,-,u,heq⟩ := connect_of_not_reached h s
    rw [heq]
    exact iff_of_true rfl fun hreached => absurd hreached h

/-- A call that clears the bit and succeeds has joined. -/
theorem connect_succeeds_iff (hexit : GoesToExit s sme beyond env) :
    (cfg80211RtwConnect s sme beyond env).ret = 0 ↔ GroupReached sme beyond env ∧ env.connectOk = true := by
  by_cases h : GroupReached sme beyond env
  · obtain ⟨hgroup,hsae⟩ := hexit h
    rw [(connect_join h hgroup hsae).ret, and_iff_right h]
    cases env.connectOk <;> decide
  · obtain ⟨ret,hneg,u,heq⟩ := connect_of_not_reached h s
    rw [heq]
    exact iff_of_false (Int.ne_of_lt hneg) fun hs => h hs.1

/-- Two successful calls leave the same connection and take the same decision; both clear the bit. -/
structure ConnectsAlike (r r' : ConnectRes) : Prop where
  same : r.ret = 0 → r'.ret = 0 →
    SameSetup r.state r'.state ∧ r.state.underWps = r'.state.underWps ∧ r.join = r'.join
  clears : r.state.psDenyJoin = false ∧ r'.state.psDenyJoin = false

/-- For every two histories and every request: the calls connect alike exactly when both go through `exit`,
and, if the request has a WPS element, neither or both disconnect from a network first. -/
theorem connect_depends_on_request_iff (past past' : List ConnectEvent) (sme : ConnectParams) (beyond : List UInt8)
    (env env' : ConnectEnv) :
    ConnectsAlike (cfg80211RtwConnect (Run.run connectStep .init past) sme beyond env)
        (cfg80211RtwConnect (Run.run connectStep .init past') sme beyond env') ↔
      GoesToExit (Run.run connectStep .init past) sme beyond env ∧
        GoesToExit (Run.run connectStep .init past') sme beyond env' ∧
          (RequestsWps sme beyond → GroupReached sme beyond env → GroupReached sme beyond env' →
            env.connectOk = true → env'.connectOk = true →
              (Relinks (Run.run connectStep .init past) env ↔ Relinks (Run.run connectStep .init past') env')) := by
  generalize Run.run connectStep .init past = s
  generalize Run.run connectStep .init past' = t
  constructor
  · rintro ⟨hsame,hclear,hclear'⟩
    have hexit := (connect_clears_iff s sme beyond env).mp hclear
    have hexit' := (connect_clears_iff t sme beyond env').mp hclear'
    refine ⟨hexit,hexit',fun hwps h h' hok hok' => ?_⟩
    have hjoin := connect_join h (hexit h).1 (hexit h).2
    have hjoin' := connect_join h' (hexit' h').1 (hexit' h').2
    obtain ⟨-,hunder,-⟩ := hsame ((connect_succeeds_iff hexit).mpr ⟨h,hok⟩)
        ((connect_succeeds_iff hexit').mpr ⟨h',hok'⟩)
    have hiff := hjoin.underWps.symm.trans ((iff_of_eq (congrArg (· = true) hunder)).trans hjoin'.underWps)
    rw [and_iff_right hwps, and_iff_right hwps] at hiff
    exact not_iff_not.mp hiff
  · rintro ⟨hexit,hexit',hrelinks⟩
    refine ⟨fun hret hret' => ?_,(connect_clears_iff s sme beyond env).mpr hexit,
      (connect_clears_iff t sme beyond env').mpr hexit'⟩
    obtain ⟨h,hok⟩ := (connect_succeeds_iff hexit).mp hret
    obtain ⟨h',hok'⟩ := (connect_succeeds_iff hexit').mp hret'
    have hjoin := connect_join h (hexit h).1 (hexit h).2
    have hjoin' := connect_join h' (hexit' h').1 (hexit' h').2
    refine ⟨?_,?_,hjoin.join.trans hjoin'.join.symm⟩
    · have hset := setUp_same h.pairwise (hexit h).1 s t beyond
      have hl := hjoin.same
      have hr := hjoin'.same
      exact ⟨hl.1.trans (hset.1.trans hr.1.symm),hl.2.trans (hset.2.trans hr.2.symm),hl.3.trans
        (hset.3.trans hr.3.symm), hl.4.trans (hset.4.trans hr.4.symm),hl.5.trans (hset.5.trans hr.5.symm)⟩
    · rw [Bool.eq_iff_iff, hjoin.underWps, hjoin'.underWps]
      refine and_congr_right fun hwps => not_congr (hrelinks hwps h h' hok hok')

/-- A request that names its network only -/
def ConnectParams.named (ssid : List UInt8) : ConnectParams where
  bssid := none
  ssid := ssid
  authType := .openSystem
  ie := []
  wpaVersions := 0
  cipherGroup := 0
  ciphersPairwise := []
  akmSuites := []
  key := []
  keyIdx := 0

/-- Nothing fails, and no network is found yet. -/
def ConnectEnv.fine : ConnectEnv where
  block := false
  pwrWakeup := true
  apState := false
  underLinking := false
  bufAlloc := true
  pwepAlloc := true
  setKeyCmd := true
  connectOk := true
  candidate := false

/-- SAE, and then the same network with a PSK -/
def saeRequest : ConnectParams :=
  { ConnectParams.named [0x61] with
    authType := .sae
    wpaVersions := 2
    cipherGroup := WLAN_CIPHER_SUITE_CCMP
    ciphersPairwise := [WLAN_CIPHER_SUITE_CCMP]
    akmSuites := [WLAN_AKM_SUITE_SAE] }

def pskRequest : ConnectParams :=
  { saeRequest with authType := .openSystem, akmSuites := [WLAN_AKM_SUITE_PSK] }

/-- The request with a PSK schedules external authentication after one with SAE, and leaves the bit set. -/
theorem psk_after_sae_not_alike : ¬∀ (past past' : List ConnectEvent) (sme : ConnectParams) (beyond : List UInt8)
    (env env' : ConnectEnv), env.apState = false → env.underLinking = false → env'.apState = false →
      env'.underLinking = false →
      ConnectsAlike (cfg80211RtwConnect (Run.run connectStep .init past) sme beyond env)
        (cfg80211RtwConnect (Run.run connectStep .init past') sme beyond env') := by
  intro h
  have hclears := (h [] [.connect saeRequest [] .fine] pskRequest [] .fine .fine rfl rfl rfl rfl).clears.2
  exact absurd hclears (by decide)

end Calls

end Rtl8188fu
