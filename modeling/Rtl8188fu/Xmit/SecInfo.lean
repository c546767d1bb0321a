import Rtl8188fu.Include.RtwXmit

/-! # The security attributes of a data frame

`update_attrib_sec_info`, built without WAPI, TDLS and concurrent mode. The packet number
of the station is advanced here, once for each packet.
-/
namespace Rtl8188fu
open Bytes

/-- The key index and algorithm that `update_attrib_sec_info` selects when the port is open -/
def selectCipher (sec : SecurityPriv) (psta : StaInfo) (a : PktAttrib) : PktAttrib :=
  let bmcast := isMcast a.ra
  let encrypt := getEncryAlgo sec psta bmcast
  let keyIdx := match sec.dot11AuthAlgrthm with
    | .openSystem | .shared | .auto => sec.dot11PrivacyKeyIndex
    | .ieee8021X => if bmcast then sec.dot118021XGrpKeyid else 0
    | .wapi => 0
  -- EAPOL packets of the WPS handshake are not encrypted with WEP
  let encrypt := if (encrypt = .wep40 || encrypt = .wep104) && a.etherType = 0x888e then .noPrivacy else encrypt
  { a with encrypt := encrypt, keyIdx := keyIdx }

/-- `bswenc`, set at the end: group frames are encrypted in software as well while the
hardware cannot tell the group key from a pairwise key. -/
def setBswenc (sec : SecurityPriv) (a : PktAttrib) : PktAttrib :=
  { a with bswenc := a.encrypt ≠ .noPrivacy &&
      (sec.swEncrypt || !sec.hwDecrypted || (isMcast a.ra && sec.disBmcSearch)) }

/-- The IV of the packet; `none` when there is no key yet -/
def updateIv (sec : SecurityPriv) (psta : StaInfo) (a : PktAttrib) : Option (PktAttrib × StaInfo) :=
  let keyidx := if isMcast a.ra then a.keyIdx else 0
  match a.encrypt with
  | .wep40 | .wep104 =>
    let r := wepIv psta.dot11txpn a.keyIdx
    some ({ a with ivLen := 4, icvLen := 4, iv := r.1 }, { psta with dot11txpn := r.2 })
  | .tkip =>
    if !sec.busetkipkey then none
    else
      let r := tkipIv psta.dot11txpn keyidx
      some ({ a with ivLen := 8, icvLen := 4, iv := r.1, dot11tkiptxmickey := psta.dot11tkiptxmickey },
        { psta with dot11txpn := r.2 })
  | .aes =>
    let r := aesIv psta.dot11txpn keyidx
    some ({ a with ivLen := 8, icvLen := 8, iv := r.1 }, { psta with dot11txpn := r.2 })
  | _ => some ({ a with ivLen := 0, icvLen := 0 }, psta)

/-- `update_attrib_sec_info`; `none` for `_FAIL` -/
def updateAttribSecInfo (sec : SecurityPriv) (mpState : Bool) (psta : StaInfo) (a : PktAttrib) :
    Option (PktAttrib × StaInfo) :=
  let a := { a with
    dot118021xUncstKey := List.replicate 16 0
    dot11tkiptxmickey := List.replicate 16 0 }
  if psta.ieee8021xBlocked then
    if a.etherType ≠ 0x888e ∧ !mpState then none
    else some (setBswenc sec { a with encrypt := .noPrivacy, ivLen := 0, icvLen := 0 }, psta)
  else
    match updateIv sec psta (selectCipher sec psta a) with
    | none => none
    | some r =>
      let a := if r.1.encrypt ≠ .noPrivacy then
        { r.1 with dot118021xUncstKey := psta.dot118021xUncstKey } else r.1
      some (setBswenc sec a, r.2)

/-- The packet number that the IV of a TKIP or CCMP frame carries -/
def ivPn (encrypt : EncryAlgo) (iv : List UInt8) : Option ℕ :=
  match encrypt with
  | .tkip => some (getTkipPn iv)
  | .aes => some (getAesPn iv)
  | _ => none

/-- The station's counter before and after a frame, and the frame's packet number: a frame
with a TKIP or CCMP IV carries the counter, which then moves on or starts again at zero. -/
def PnStep (c c' : ℕ) (pn : Option ℕ) : Prop :=
  c' = c ∧ pn = none ∨ (∀ p ∈ pn, p = c % 2 ^ 48) ∧ (c' % 2 ^ 48 = 0 ∨ c' % 2 ^ 48 = c % 2 ^ 48 + 1)

theorem updateIv_pn {sec : SecurityPriv} {psta psta' : StaInfo} {a a' : PktAttrib}
    (h : updateIv sec psta a = some (a',psta')) :
    (a'.encrypt = .noPrivacy → psta' = psta) ∧
      PnStep psta.dot11txpn psta'.dot11txpn (ivPn a'.encrypt (a'.iv.take a'.ivLen)) := by
  have hnone : ∀ iv, (∀ p ∈ ivPn .noPrivacy iv, p = psta.dot11txpn % 2 ^ 48) := fun _ _ hp => by cases hp
  rw [updateIv] at h
  cases henc : a.encrypt with
  | wep40 =>
    rw [henc] at h
    cases h
    exact ⟨nofun,Or.inr ⟨hnone [],wepIv_mod _ a.keyIdx⟩⟩
  | wep104 =>
    rw [henc] at h
    cases h
    exact ⟨nofun,Or.inr ⟨hnone [],wepIv_mod _ a.keyIdx⟩⟩
  | tkip =>
    rw [henc] at h
    dsimp only at h
    split at h
    · cases h
    · cases h
      refine ⟨nofun,Or.inr ⟨?_,nextTxpn_mod _⟩⟩
      rintro p ⟨⟩
      exact getTkipPn_tkipIv _ _
  | aes =>
    rw [henc] at h
    cases h
    refine ⟨nofun,Or.inr ⟨?_,nextTxpn_mod _⟩⟩
    rintro p ⟨⟩
    exact getAesPn_aesIv _ _
  | noPrivacy =>
    rw [henc] at h
    cases h
    exact ⟨fun _ => rfl,Or.inl ⟨rfl,rfl⟩⟩
  | tkipWtmic =>
    rw [henc] at h
    cases h
    exact ⟨fun _ => rfl,Or.inl ⟨rfl,rfl⟩⟩
  | sms4 =>
    rw [henc] at h
    cases h
    exact ⟨fun _ => rfl,Or.inl ⟨rfl,rfl⟩⟩

/-- The IV, its lengths and the Michael key are set, and nothing else. -/
theorem updateIv_frame {sec : SecurityPriv} {psta : StaInfo} {a : PktAttrib} {r : PktAttrib × StaInfo}
    (h : updateIv sec psta a = some r) :
    r.1 =
      { a with ivLen := r.1.ivLen, icvLen := r.1.icvLen, iv := r.1.iv, dot11tkiptxmickey := r.1.dot11tkiptxmickey } ∧
      (r.1.iv.take r.1.ivLen).length = r.1.ivLen ∧ (a.encrypt = .noPrivacy → r.1.icvLen = 0) := by
  rw [updateIv] at h
  dsimp only at h
  split at h
  · rename_i henc
    cases h
    exact ⟨rfl,rfl,by simp [henc]⟩
  · rename_i henc
    cases h
    exact ⟨rfl,rfl,by simp [henc]⟩
  · rename_i henc
    split at h
    · cases h
    · cases h
      exact ⟨rfl,rfl,by simp [henc]⟩
  · rename_i henc
    cases h
    exact ⟨rfl,rfl,by simp [henc]⟩
  · cases h
    exact ⟨rfl,rfl,fun _ => rfl⟩

/-- The fields that `update_attrib_sec_info` may change -/
theorem updateAttribSecInfo_frame {sec : SecurityPriv} {mpState : Bool} {psta : StaInfo} {a : PktAttrib}
    {r : PktAttrib × StaInfo} (h : updateAttribSecInfo sec mpState psta a = some r) :
    r.1 = { a with
        encrypt := r.1.encrypt
        keyIdx := r.1.keyIdx
        ivLen := r.1.ivLen
        icvLen := r.1.icvLen
        iv := r.1.iv
        bswenc := r.1.bswenc
        dot11tkiptxmickey := r.1.dot11tkiptxmickey
        dot118021xUncstKey := r.1.dot118021xUncstKey } ∧
      (r.1.iv.take r.1.ivLen).length = r.1.ivLen ∧ (r.1.encrypt = .noPrivacy → r.1.icvLen = 0) := by
  rw [updateAttribSecInfo] at h
  dsimp only at h
  split at h
  · split at h
    · cases h
    · cases h
      exact ⟨rfl,by simp [setBswenc],fun _ => rfl⟩
  · split at h
    · cases h
    · rename_i r hr
      obtain ⟨hframe,hiv,hicv⟩ := updateIv_frame hr
      have henc : r.1.encrypt = (selectCipher sec psta { a with
          dot118021xUncstKey := List.replicate 16 0
          dot11tkiptxmickey := List.replicate 16 0 }).encrypt := by rw [hframe]
      cases h
      split
      · refine ⟨?_,hiv,fun hnone => hicv (henc ▸ hnone)⟩
        rw [hframe]
        rfl
      · refine ⟨?_,hiv,fun hnone => hicv (henc ▸ hnone)⟩
        rw [hframe]
        rfl

theorem updateAttribSecInfo_pn {sec : SecurityPriv} {mpState : Bool} {psta psta' : StaInfo} {a a' : PktAttrib}
    (h : updateAttribSecInfo sec mpState psta a = some (a',psta')) :
    a'.ra = a.ra ∧ (a'.encrypt = .noPrivacy → psta' = psta) ∧
      PnStep psta.dot11txpn psta'.dot11txpn (ivPn a'.encrypt (a'.iv.take a'.ivLen)) := by
  rw [updateAttribSecInfo] at h
  dsimp only at h
  split at h
  · split at h
    · cases h
    · cases h
      exact ⟨rfl,fun _ => rfl,Or.inl ⟨rfl,rfl⟩⟩
  · split at h
    · cases h
    · rename_i r hr
      have hpn := updateIv_pn (show updateIv _ _ _ = some (r.1,r.2) from hr)
      have hra : r.1.ra = a.ra := by rw [(updateIv_frame hr).1]; rfl
      cases h
      split
      · exact ⟨hra,hpn⟩
      · exact ⟨hra,hpn⟩

theorem keyIdByte_div (keyidx : ℕ) : (0x20 ||| keyIdByte keyidx).toNat / 64 = keyidx % 4 := by
  have hlt := Nat.mod_lt keyidx (show 0 < 4 by decide)
  rw [keyIdByte]
  interval_cases keyidx % 4 <;> decide

/-- The lengths of TKIP, and the key index in the IV -/
structure TkipIv (a : PktAttrib) : Prop where
  ivLen : a.ivLen = 8
  icvLen : a.icvLen = 4
  iv : a.iv.length = 8
  keyIdx : (byteAt a.iv 3).toNat / 64 = if isMcast a.ra then a.keyIdx % 4 else 0

theorem updateIv_tkip {sec : SecurityPriv} {psta : StaInfo} {a : PktAttrib} {r : PktAttrib × StaInfo}
    (h : updateIv sec psta a = some r) (htkip : a.encrypt = .tkip) : TkipIv r.1 := by
  rw [updateIv, htkip] at h
  dsimp only at h
  split at h
  · cases h
  · cases h
    refine ⟨rfl,rfl,rfl,?_⟩
    change (0x20 ||| keyIdByte _).toNat / 64 = _
    rw [keyIdByte_div]
    split <;> rfl

theorem updateAttribSecInfo_tkip {sec : SecurityPriv} {mpState : Bool} {psta : StaInfo} {a : PktAttrib}
    {r : PktAttrib × StaInfo} (h : updateAttribSecInfo sec mpState psta a = some r) (htkip : r.1.encrypt = .tkip) :
    TkipIv r.1 := by
  rw [updateAttribSecInfo] at h
  dsimp only at h
  split at h
  · split at h
    · cases h
    · cases h
      cases htkip
  · split at h
    · cases h
    · rename_i r hr
      have henc := congrArg PktAttrib.encrypt (updateIv_frame hr).1
      cases h
      split at htkip
      · rw [if_pos (by assumption)]
        obtain ⟨h1,h2,h3,h4⟩ := updateIv_tkip hr (henc.symm.trans htkip)
        exact ⟨h1,h2,h3,h4⟩
      · rw [if_neg (by assumption)]
        obtain ⟨h1,h2,h3,h4⟩ := updateIv_tkip hr (henc.symm.trans htkip)
        exact ⟨h1,h2,h3,h4⟩

end Rtl8188fu
