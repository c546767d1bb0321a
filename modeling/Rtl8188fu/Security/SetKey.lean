import Rtl8188fu.Include.RtwSecurity

/-! # Key installation

What `rtw_cfg80211_ap_set_encryption` and `rtw_cfg80211_set_encryption` change in the
security state and in the stations. The parameters have passed the length checks, and
the commands to the hardware are left out.
-/
namespace Rtl8188fu
open Bytes

inductive CryptAlg
  | none
  | wep
  | tkip
  | ccmp
  | bip
  deriving DecidableEq, Repr

structure IeeeParam where
  staAddr : MacAddr
  alg : CryptAlg
  idx : ℕ
  setTx : Bool
  key : List UInt8

/-- The security state of an adapter and its stations -/
structure KeyState where
  sec : SecurityPriv
  stapriv : StaPriv

def KeyState.updateSta (s : KeyState) (a : MacAddr) (f : StaInfo → StaInfo) : KeyState :=
  { s with stapriv := Function.update s.stapriv a ((s.stapriv a).map f) }

/-- A key is copied over the first sixteen bytes of the old one. -/
def copyKey (old key : List UInt8) : Keytype := patch old 0 (key.take 16)

/-- The privacy algorithm that a key stands for -/
def cryptPrivacy (p : IeeeParam) : EncryAlgo :=
  match p.alg with
  | .wep => if p.key.length = 13 then .wep104 else .wep40
  | .tkip => .tkip
  | .ccmp => .aes
  | .none | .bip => .noPrivacy

def setWepDefaultKey (sec : SecurityPriv) (apMode : Bool) (p : IeeeParam) : SecurityPriv :=
  let keyLen := if p.key.length ≤ 5 then 5 else 13
  let alg : EncryAlgo := if keyLen = 13 then .wep104 else .wep40
  let sec := if sec.bWepDefaultKeyIdxSet then sec
    else { sec with
      dot11AuthAlgrthm := if apMode then .auto else sec.dot11AuthAlgrthm
      dot11PrivacyAlgrthm := alg
      dot118021XGrpPrivacy := alg
      dot11PrivacyKeyIndex := p.idx
      encryption23Enabled := false }
  { sec with
    dot11DefKey := Function.update sec.dot11DefKey p.idx (patch (sec.dot11DefKey p.idx) 0 (p.key.take keyLen))
    dot11DefKeylen := Function.update sec.dot11DefKeylen p.idx keyLen }

/-- The IGTK -/
def setBipKey (sec : SecurityPriv) (p : IeeeParam) : SecurityPriv :=
  { sec with
    dot11wBIPKey := Function.update sec.dot11wBIPKey p.idx (copyKey (sec.dot11wBIPKey p.idx) p.key)
    dot11wBIPKeyid := p.idx
    binstallBIPkey := true }

/-- A group key and its two MIC keys -/
def setGroupKey (sec : SecurityPriv) (p : IeeeParam) (mickeys : Bool) : SecurityPriv :=
  { sec with
    dot118021XGrpKey := Function.update sec.dot118021XGrpKey p.idx (copyKey (sec.dot118021XGrpKey p.idx) p.key)
    dot118021XGrptxmickey :=
      if mickeys ∧ 24 ≤ p.key.length then
        Function.update sec.dot118021XGrptxmickey p.idx
          (patch (sec.dot118021XGrptxmickey p.idx) 0 (slice p.key 16 8))
      else sec.dot118021XGrptxmickey
    dot118021XGrprxmickey :=
      if mickeys ∧ 32 ≤ p.key.length then
        Function.update sec.dot118021XGrprxmickey p.idx
          (patch (sec.dot118021XGrprxmickey p.idx) 0 (slice p.key 24 8))
      else sec.dot118021XGrprxmickey }

def apSetGroupKey (s : KeyState) (p : IeeeParam) : KeyState :=
  let sec := match p.alg with
    | .wep | .ccmp => setGroupKey s.sec p false
    | .tkip => { setGroupKey s.sec p true with busetkipkey := true }
    | .none | .bip => s.sec
  let s := { s with sec := { sec with
    dot118021XGrpPrivacy := cryptPrivacy p
    dot118021XGrpKeyid := p.idx
    binstallGrpkey := true
    dot11PrivacyAlgrthm := cryptPrivacy p } }
  s.updateSta bcAddr fun sta => { sta with ieee8021xBlocked := false, dot118021XPrivacy := cryptPrivacy p }

/-- The keys of a station; for TKIP also the MIC keys -/
def setPairwiseKey (sta : StaInfo) (p : IeeeParam) : StaInfo :=
  { sta with
    dot118021xUncstKey := copyKey sta.dot118021xUncstKey p.key
    dot11tkiptxmickey := if p.alg = .tkip then patch sta.dot11tkiptxmickey 0 (slice p.key 16 8)
      else sta.dot11tkiptxmickey
    dot11tkiprxmickey := if p.alg = .tkip then patch sta.dot11tkiprxmickey 0 (slice p.key 24 8)
      else sta.dot11tkiprxmickey
    bpairwiseKeyInstalled := true }

def rtwCfg80211ApSetEncryption (s : KeyState) (p : IeeeParam) : KeyState :=
  if p.staAddr = bcAddr then
    match p.alg with
    | .none => s
    | .wep => { s with sec := setWepDefaultKey s.sec true p }
    | .bip => if p.setTx then s else { s with sec := setBipKey s.sec p }
    | _ => if p.setTx then s else apSetGroupKey s p
  else if (rtwGetStainfo s.stapriv p.staAddr).isNone then s
  else if s.sec.dot11AuthAlgrthm = .ieee8021X then
    if p.setTx then
      let s := s.updateSta (staKey p.staAddr) fun sta =>
        { setPairwiseKey sta p with dot118021XPrivacy := cryptPrivacy p, ieee8021xBlocked := false }
      if p.alg = .tkip then { s with sec := { s.sec with busetkipkey := true } } else s
    else apSetGroupKey s p
  else s

/-- A key, unless it is cleared, opens the port; under WPA the station gets its algorithm. -/
def unblockStation (sec : SecurityPriv) (p : IeeeParam) (sta : StaInfo) : StaInfo :=
  { sta with
    ieee8021xBlocked := if p.alg = .none then sta.ieee8021xBlocked else false
    dot118021XPrivacy := if sec.encryption23Enabled then sec.dot11PrivacyAlgrthm else sta.dot118021XPrivacy }

/-- `rtw_cfg80211_set_encryption` in station mode -/
def rtwCfg80211SetEncryption (s : KeyState) (bssid : MacAddr) (p : IeeeParam) : KeyState :=
  if p.staAddr ≠ bcAddr then s
  else if p.alg = .wep then { s with sec := setWepDefaultKey s.sec false p }
  else if s.sec.dot11AuthAlgrthm = .ieee8021X then
    let unblock := unblockStation s.sec p
    let t :=
      if (rtwGetStainfo s.stapriv bssid).isNone then s
      else
        let t := s.updateSta (staKey bssid) unblock
        if p.setTx then
          let t := t.updateSta (staKey bssid) fun sta => setPairwiseKey sta p
          if p.alg = .tkip then { t with sec := { t.sec with busetkipkey := false } } else t
        else if p.alg = .tkip ∨ p.alg = .ccmp then
          { t with sec := { setGroupKey t.sec p true with
              binstallGrpkey := true
              dot118021XGrpKeyid := p.idx } }
        else if p.alg = .bip then { t with sec := setBipKey t.sec p }
        else t
    t.updateSta bcAddr unblock
  else s

/-- The packet number counters of all stations -/
def KeyState.txpn (s : KeyState) (a : MacAddr) : Option ℕ := (s.stapriv a).map (·.dot11txpn)

@[simp] theorem KeyState.txpn_sec (s : KeyState) (sec : SecurityPriv) :
    KeyState.txpn { s with sec := sec } = s.txpn := rfl

@[simp] theorem KeyState.updateSta_txpn (s : KeyState) {f : StaInfo → StaInfo} (a : MacAddr)
    (hf : ∀ sta, (f sta).dot11txpn = sta.dot11txpn) : (s.updateSta a f).txpn = s.txpn := by
  funext b
  change ((Function.update s.stapriv a ((s.stapriv a).map f)) b).map (·.dot11txpn) = (s.stapriv b).map (·.dot11txpn)
  rcases eq_or_ne b a with rfl | hb
  · rw [Function.update_self, Option.map_map]
    congr 1
    funext sta
    exact hf sta
  · rw [Function.update_of_ne hb]

@[simp] theorem setPairwiseKey_txpn (sta : StaInfo) (p : IeeeParam) :
    (setPairwiseKey sta p).dot11txpn = sta.dot11txpn := rfl

@[simp] theorem unblockStation_txpn (sec : SecurityPriv) (p : IeeeParam) (sta : StaInfo) :
    (unblockStation sec p sta).dot11txpn = sta.dot11txpn := rfl

@[simp] theorem apSetGroupKey_txpn (s : KeyState) (p : IeeeParam) : (apSetGroupKey s p).txpn = s.txpn :=
  KeyState.updateSta_txpn _ bcAddr fun _ => rfl

/-- Installing a key leaves every packet number counter as it is. -/
theorem rtwCfg80211ApSetEncryption_txpn (s : KeyState) (p : IeeeParam) :
    (rtwCfg80211ApSetEncryption s p).txpn = s.txpn := by
  rw [rtwCfg80211ApSetEncryption]
  split
  · split
    · rfl
    · rfl
    · split <;> rfl
    · split <;> simp
  · split_ifs <;> simp

theorem rtwCfg80211SetEncryption_txpn (s : KeyState) (bssid : MacAddr) (p : IeeeParam) :
    (rtwCfg80211SetEncryption s bssid p).txpn = s.txpn := by
  have hopen := KeyState.updateSta_txpn s (staKey bssid) (unblockStation_txpn s.sec p)
  have hpair := KeyState.updateSta_txpn (s.updateSta (staKey bssid) (unblockStation s.sec p)) (staKey bssid)
    (fun sta => setPairwiseKey_txpn sta p)
  rw [rtwCfg80211SetEncryption]
  split
  · rfl
  · split
    · rfl
    · split
      · refine (KeyState.updateSta_txpn _ bcAddr (unblockStation_txpn s.sec p)).trans ?_
        split_ifs
        · rfl
        · exact hpair.trans hopen
        · exact hpair.trans hopen
        · exact hopen
        · exact hopen
        · exact hopen
      · rfl

end Rtl8188fu
