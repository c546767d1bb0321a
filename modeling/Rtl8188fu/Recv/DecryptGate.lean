import Rtl8188fu.Recv.Decryptor

/-! # Decryption as an integrity gate

What a frame that `decryptor` lets through in software should have: an integrity value
that belongs to its decrypted payload, and a key that was installed. The frames that get
through without are listed one kind after the other; cipher, installed keys and lengths
tell which frames are of none of these kinds.
-/
namespace Rtl8188fu
open Bytes KeyStream

/-- The frame is decrypted in software, with one of the four ciphers. -/
structure SoftwareDecrypt (sec : SecurityPriv) (f : RecvFrame) : Prop where
  cipher : IsWep f.attrib.encrypt ∨ f.attrib.encrypt = .tkip ∨ f.attrib.encrypt = .aes
  branch : f.attrib.bdecrypted = false ∨ sec.swDecrypt = true

/-- A group key was put into the slot: the last one that was installed, or one before. -/
def GroupKeySet (sec : SecurityPriv) (idx : ℕ) : Prop :=
  sec.binstallGrpkey = true ∧ (sec.dot118021XGrpKeyid = idx ∨ ∃ b ∈ sec.dot118021XGrpKey idx, b ≠ 0)

/-- The key that the frame asks for was installed, for WEP and group keys in the slot that
the frame names, otherwise for its sender. -/
def KeyAvailable (sec : SecurityPriv) (stapriv : StaPriv) (f : RecvFrame) : Prop :=
  if IsWep f.attrib.encrypt then sec.dot11DefKeylen f.attrib.keyIndex ≠ 0
  else ∃ psta ∈ rtwGetStainfo stapriv f.attrib.ta,
    if isMcast f.attrib.ra = true then GroupKeySet sec f.attrib.keyIndex else psta.bpairwiseKeyInstalled = true

/-- The last four bytes of a decrypted payload are its check value. -/
def IcvIntact (f : RecvFrame) : Prop := payloadOffset f + 4 ≤ f.buf.len ∧ icvCompare f = true

/-- The MIC of `n` bytes of payload at `off`, decrypted -/
def micOf (key : Keytype) (f : RecvFrame) (off n : ℕ) : List UInt8 :=
  let p := f.buf.ptr
  (micFields p f.attrib.hdrlen
    (mask (payloadStream key p f.attrib.hdrlen f.attrib.hdrlen) (slice p off n) 0 n)).mic key

/-- The last eight bytes of the frame are the MIC of its decrypted payload. -/
def MicIntact (key : Keytype) (f : RecvFrame) : Prop :=
  payloadOffset f + 8 ≤ f.buf.len ∧
    slice f.buf.ptr (f.buf.len - 8) 8 = micOf key f (payloadOffset f) (payloadLength f - 8)

/-- The header length that `aes_decipher` works with -/
def micHdrlen (f : RecvFrame) : ℕ := ccmpHdrlen f.buf.ptr f.attrib.hdrlen

/-- `aes_decipher` stays inside its buffers, and the MIC at its header length is right. -/
def MicCompare (key : Keytype) (f : RecvFrame) : Prop :=
  let h := micHdrlen f
  let n := payloadLength f - 8
  (8 ≤ payloadLength f ∧ h + payloadLength f + 8 ≤ f.buf.ptr.length ∧
    h + payloadLength f + 8 ≤ MAX_MSG_SIZE) ∧
    slice f.buf.ptr (h + 8 + n) 8 = micOf key f (h + 8) n

/-- The frame as TKIP decrypts it under a temporal key -/
def tkipDecrypted (key : Keytype) (f : RecvFrame) : RecvFrame :=
  rc4Decrypt (tkipRc4Key key f.attrib.ta (f.buf.ptr.drop f.attrib.hdrlen)) f

/-- The integrity value in the frame is the one of its payload, decrypted with the selected key. -/
def IntegrityOk (sec : SecurityPriv) (stapriv : StaPriv) (f : RecvFrame) : Prop :=
  (IsWep f.attrib.encrypt → IcvIntact (rc4Decrypt (wepKey sec f) f)) ∧
    (f.attrib.encrypt = .tkip → ∃ key ∈ prwskey sec stapriv false f, IcvIntact (tkipDecrypted key f)) ∧
    (f.attrib.encrypt = .aes → ∃ key ∈ prwskey sec stapriv true f, MicIntact key f)

/-- The frames that get through without a right integrity value or without a key. None of
them is shorter than its header and IV: with such a frame the driver leaves its memory. -/
inductive Ungated (sec : SecurityPriv) (stapriv : StaPriv) (f : RecvFrame) : Prop
  /-- WEP: the ICV is wrong. -/
  | wepIcv (hwep : IsWep f.attrib.encrypt) (hlen : payloadOffset f ≤ f.buf.len)
      (hicv : ¬ IcvIntact (rc4Decrypt (wepKey sec f) f))
  /-- WEP: the frame names a slot without a key. -/
  | wepSlot (hwep : IsWep f.attrib.encrypt) (hlen : payloadOffset f ≤ f.buf.len)
      (hnone : sec.dot11DefKeylen f.attrib.keyIndex = 0)
  /-- TKIP: the ICV is right under the content of a slot without a key. -/
  | tkipSlot {key : Keytype} (htkip : f.attrib.encrypt = .tkip) (hlen : payloadOffset f ≤ f.buf.len)
      (hkey : key ∈ prwskey sec stapriv false f) (hicv : icvCompare (tkipDecrypted key f) = true)
      (hnone : ¬ KeyAvailable sec stapriv f)
  /-- TKIP: there is no room for an ICV, and the bytes compared in its place are zero. -/
  | tkipShort {key : Keytype} (htkip : f.attrib.encrypt = .tkip) (hlen : payloadOffset f ≤ f.buf.len)
      (hkey : key ∈ prwskey sec stapriv false f) (hicv : icvCompare (tkipDecrypted key f) = true)
      (hshort : f.buf.len < payloadOffset f + 4)
  /-- CCMP: the MIC is right under the content of a slot without a key. -/
  | ccmpSlot {key : Keytype} (haes : f.attrib.encrypt = .aes) (hkey : key ∈ prwskey sec stapriv true f)
      (hmic : MicCompare key f) (hnone : ¬ KeyAvailable sec stapriv f)
  /-- CCMP: a QoS frame with a longer header, whose MIC is right two bytes behind its place only -/
  | ccmpHdr {key : Keytype} (haes : f.attrib.encrypt = .aes) (hkey : key ∈ prwskey sec stapriv true f)
      (hhdr : micHdrlen f ≠ f.attrib.hdrlen) (hmic : MicCompare key f) (hwrong : ¬ MicIntact key f)

/-- What is asked of `decryptor`: a frame that it does not free is intact and had a key. -/
def Gated (sec : SecurityPriv) (stapriv : StaPriv) (f : RecvFrame) : Prop :=
  ∀ d ∈ decryptor sec stapriv f, d.res ≠ .fail →
    IntegrityOk sec stapriv (setKeyIndex sec f) ∧ KeyAvailable sec stapriv (setKeyIndex sec f)

@[simp] theorem setKeyIndex_encrypt (sec : SecurityPriv) (f : RecvFrame) :
    (setKeyIndex sec f).attrib.encrypt = f.attrib.encrypt := by
  rw [setKeyIndex]
  split <;> rfl

@[simp] theorem setKeyIndex_hdrlen (sec : SecurityPriv) (f : RecvFrame) :
    (setKeyIndex sec f).attrib.hdrlen = f.attrib.hdrlen := by
  rw [setKeyIndex]
  split <;> rfl

@[simp] theorem setKeyIndex_ivLen (sec : SecurityPriv) (f : RecvFrame) :
    (setKeyIndex sec f).attrib.ivLen = f.attrib.ivLen := by
  rw [setKeyIndex]
  split <;> rfl

/-- When a frame gets through, by its cipher -/
def Accepts (sec : SecurityPriv) (stapriv : StaPriv) (f : RecvFrame) : Prop :=
  (IsWep f.attrib.encrypt → payloadOffset f ≤ f.buf.len) ∧
    (f.attrib.encrypt = .tkip → payloadOffset f ≤ f.buf.len ∧
      ∃ key ∈ prwskey sec stapriv false f, icvCompare (tkipDecrypted key f) = true) ∧
    (f.attrib.encrypt = .aes → ∃ key ∈ prwskey sec stapriv true f, MicCompare key f)

theorem IsWep.ne {a : EncryAlgo} (h : IsWep a) : a ≠ .tkip ∧ a ≠ .aes := by
  rcases h with rfl | rfl <;> exact ⟨nofun,nofun⟩

section Cipher
variable {sec : SecurityPriv} {stapriv : StaPriv} {f : RecvFrame}

theorem accepts_wep (h : IsWep f.attrib.encrypt) : Accepts sec stapriv f ↔ payloadOffset f ≤ f.buf.len := by
  simp [Accepts, h, h.ne.1, h.ne.2]

theorem accepts_tkip (h : f.attrib.encrypt = .tkip) :
    Accepts sec stapriv f ↔ payloadOffset f ≤ f.buf.len ∧
      ∃ key ∈ prwskey sec stapriv false f, icvCompare (tkipDecrypted key f) = true := by
  simp [Accepts, h, IsWep]

theorem accepts_aes (h : f.attrib.encrypt = .aes) :
    Accepts sec stapriv f ↔ ∃ key ∈ prwskey sec stapriv true f, MicCompare key f := by
  simp [Accepts, h, IsWep]

theorem integrityOk_wep (h : IsWep f.attrib.encrypt) :
    IntegrityOk sec stapriv f ↔ IcvIntact (rc4Decrypt (wepKey sec f) f) := by
  simp [IntegrityOk, h, h.ne.1, h.ne.2]

theorem integrityOk_tkip (h : f.attrib.encrypt = .tkip) :
    IntegrityOk sec stapriv f ↔ ∃ key ∈ prwskey sec stapriv false f, IcvIntact (tkipDecrypted key f) := by
  simp [IntegrityOk, h, IsWep]

theorem integrityOk_aes (h : f.attrib.encrypt = .aes) :
    IntegrityOk sec stapriv f ↔ ∃ key ∈ prwskey sec stapriv true f, MicIntact key f := by
  simp [IntegrityOk, h, IsWep]

end Cipher

theorem rtwTkipDecrypt_accepts {sec : SecurityPriv} {stapriv : StaPriv} {f : RecvFrame}
    (htkip : f.attrib.encrypt = .tkip) :
    (∃ r ∈ rtwTkipDecrypt sec stapriv f, r.1 ≠ .fail) ↔ payloadOffset f ≤ f.buf.len ∧
      ∃ key ∈ prwskey sec stapriv false f, icvCompare (tkipDecrypted key f) = true := by
  rw [rtwTkipDecrypt, if_pos htkip]
  cases hkey : prwskey sec stapriv false f with
  | none => simp
  | some key =>
    dsimp only
    by_cases hlen : f.buf.len < payloadOffset f
    · simp [hlen]
    · simp only [hlen, ↓reduceIte, Option.mem_def, Option.some.injEq, exists_eq_left', tkipDecrypted, not_lt.mp hlen,
        true_and]
      split <;> simp_all

theorem rtwAesDecrypt_accepts {sec : SecurityPriv} {stapriv : StaPriv} {f : RecvFrame}
    (haes : f.attrib.encrypt = .aes) (hh : 24 ≤ f.attrib.hdrlen) :
    (∃ r ∈ rtwAesDecrypt sec stapriv f, r.1 ≠ .fail) ↔
    ∃ key ∈ prwskey sec stapriv true f, MicCompare key f := by
  rw [rtwAesDecrypt, if_pos haes]
  cases hkey : prwskey sec stapriv true f with
  | none => simp
  | some key =>
    simp only [Option.mem_def, Option.some.injEq, exists_eq_left']
    by_cases hfits : 8 ≤ payloadLength f ∧ micHdrlen f + payloadLength f + 8 ≤ f.buf.ptr.length ∧
        micHdrlen f + payloadLength f + 8 ≤ MAX_MSG_SIZE
    · obtain ⟨n,hn⟩ := Nat.exists_eq_add_of_le' hfits.1
      have hlen : ¬ f.buf.len < payloadOffset f := by
        rw [payloadLength] at hn
        omega
      have heq : aesDecipher key f.attrib.hdrlen f.buf.ptr (n + 8) = _ :=
        aesDecipher_eq (h := micHdrlen f) hh rfl (by omega) (by omega)
      have hmic : MicCompare key f ↔ slice f.buf.ptr (micHdrlen f + 8 + n) 8 = micOf key f (micHdrlen f + 8) n := by
        rw [MicCompare]
        rw [and_iff_right hfits, hn, Nat.add_sub_cancel]
      rw [if_neg hlen, hn, heq, hmic, micOf]
      simp only [Option.some.injEq, exists_eq_left']
      split <;> simp_all
    · have hnone : aesDecipher key f.attrib.hdrlen f.buf.ptr (payloadLength f) = none := by
        rw [aesDecipher]
        dsimp only
        rw [if_pos]
        rw [micHdrlen] at hfits
        omega
      rw [hnone, MicCompare]
      split <;> simp [hfits]

theorem softwareDecrypt_accepts {sec : SecurityPriv} {stapriv : StaPriv} {f : RecvFrame}
    (hcipher : IsWep f.attrib.encrypt ∨ f.attrib.encrypt = .tkip ∨ f.attrib.encrypt = .aes)
    (hh : 24 ≤ f.attrib.hdrlen) :
    (∃ r ∈ softwareDecrypt sec stapriv f, r.1 ≠ .fail) ↔ Accepts sec stapriv f := by
  rcases hcipher with hwep | htkip | haes
  · have hmap : (∃ r ∈ (rtwWepDecrypt sec f).map (Status.success, ·), r.1 ≠ .fail) ↔
        payloadOffset f ≤ f.buf.len := by
      rw [rtwWepDecrypt, if_pos hwep]
      split <;> simp_all
    rw [accepts_wep hwep, ← hmap, softwareDecrypt]
    rcases hwep with hwep | hwep <;> rw [hwep]
  · rw [accepts_tkip htkip, ← rtwTkipDecrypt_accepts htkip, softwareDecrypt, htkip]
  · rw [accepts_aes haes, ← rtwAesDecrypt_accepts haes hh, softwareDecrypt, haes]

/-- A frame gets through exactly when it is accepted. -/
theorem decryptor_accepts {sec : SecurityPriv} {stapriv : StaPriv} {f : RecvFrame}
    (hsw : SoftwareDecrypt sec f) (hh : 24 ≤ f.attrib.hdrlen) :
    (∃ d ∈ decryptor sec stapriv f, d.res ≠ .fail) ↔ Accepts sec stapriv (setKeyIndex sec f) := by
  have hne : f.attrib.encrypt ≠ .noPrivacy := by
    intro hno
    rcases hsw.cipher with (hwep | hwep) | htkip | haes <;> simp_all
  rw [← softwareDecrypt_accepts (by simpa using hsw.cipher) (by simpa using hh), decryptor]
  simp only [hne, hsw.branch, ne_eq, not_false_eq_true, and_self, ↓reduceIte, Option.mem_def, Option.map_eq_some_iff]
  constructor
  · rintro ⟨d,⟨r,hr,rfl⟩,hd⟩
    exact ⟨r,hr,hd⟩
  · rintro ⟨r,hr,hd⟩
    exact ⟨_,⟨r,hr,rfl⟩,hd⟩

/-- With the header length that the frame has, `aes_decipher` looks for the MIC at its end. -/
theorem MicCompare.intact {key : Keytype} {f : RecvFrame} (hiv : f.attrib.ivLen = 8)
    (hhdr : micHdrlen f = f.attrib.hdrlen) (h : MicCompare key f) : MicIntact key f := by
  obtain ⟨⟨hlen,-,-⟩,hmic⟩ := h
  have hoff : payloadOffset f = f.attrib.hdrlen + 8 := by rw [payloadOffset, hiv]
  rw [payloadLength, hoff] at hlen
  refine ⟨by omega,?_⟩
  rw [hhdr, ← hoff] at hmic
  rw [← hmic]
  congr 1
  rw [payloadLength, hoff]
  omega

/-- Software decryption is a gate for every frame except those of the listed kinds. -/
theorem gated_iff_not_ungated (sec : SecurityPriv) (stapriv : StaPriv) (f : RecvFrame)
    (hsw : SoftwareDecrypt sec f) (hh : 24 ≤ f.attrib.hdrlen)
    (hiv : f.attrib.ivLen = (setIceIvLen f.attrib.encrypt).1) :
    Gated sec stapriv f ↔ ¬ Ungated sec stapriv (setKeyIndex sec f) := by
  have hgate : Gated sec stapriv f ↔ (Accepts sec stapriv (setKeyIndex sec f) →
      IntegrityOk sec stapriv (setKeyIndex sec f) ∧ KeyAvailable sec stapriv (setKeyIndex sec f)) := by
    rw [← decryptor_accepts hsw hh]
    exact ⟨fun h ⟨d,hd,hres⟩ => h d hd hres,fun h d hd hres => h ⟨d,hd,hres⟩⟩
  rw [hgate]
  have hcipher : IsWep (setKeyIndex sec f).attrib.encrypt ∨ (setKeyIndex sec f).attrib.encrypt = .tkip ∨
      (setKeyIndex sec f).attrib.encrypt = .aes := by simpa using hsw.cipher
  have hiv' : (setKeyIndex sec f).attrib.encrypt = .aes → (setKeyIndex sec f).attrib.ivLen = 8 := by
    intro haes
    rw [setKeyIndex_encrypt] at haes
    rw [setKeyIndex_ivLen, hiv, haes]
    rfl
  generalize setKeyIndex sec f = g at hcipher hiv' ⊢
  constructor
  · intro h hun
    cases hun with
    | wepIcv hwep hlen hicv =>
      exact hicv ((integrityOk_wep hwep).mp (h ((accepts_wep hwep).mpr hlen)).1)
    | wepSlot hwep hlen hnone =>
      have hkey := (h ((accepts_wep hwep).mpr hlen)).2
      rw [KeyAvailable, if_pos hwep] at hkey
      exact hkey hnone
    | tkipSlot htkip hlen hkey hicv hnone =>
      exact hnone (h ((accepts_tkip htkip).mpr ⟨hlen,_,hkey,hicv⟩)).2
    | tkipShort htkip hlen hkey hicv hshort =>
      obtain ⟨key,-,hroom,-⟩ := (integrityOk_tkip htkip).mp (h ((accepts_tkip htkip).mpr ⟨hlen,_,hkey,hicv⟩)).1
      exact absurd hshort (not_lt.mpr hroom)
    | ccmpSlot haes hkey hmic hnone =>
      exact hnone (h ((accepts_aes haes).mpr ⟨_,hkey,hmic⟩)).2
    | ccmpHdr haes hkey hhdr hmic hwrong =>
      obtain ⟨key,hkey',hok⟩ := (integrityOk_aes haes).mp (h ((accepts_aes haes).mpr ⟨_,hkey,hmic⟩)).1
      cases hkey.symm.trans hkey'
      exact hwrong hok
  · intro hun hacc
    rcases hcipher with hwep | htkip | haes
    · have hlen := (accepts_wep hwep).mp hacc
      constructor
      · rw [integrityOk_wep hwep]
        by_contra hicv
        exact hun (.wepIcv hwep hlen hicv)
      · rw [KeyAvailable, if_pos hwep]
        exact fun hnone => hun (.wepSlot hwep hlen hnone)
    · obtain ⟨hlen,key,hkey,hicv⟩ := (accepts_tkip htkip).mp hacc
      constructor
      · refine (integrityOk_tkip htkip).mpr ⟨key,hkey,?_,hicv⟩
        by_contra hshort
        exact hun (.tkipShort htkip hlen hkey hicv (not_le.mp hshort))
      · by_contra hnone
        exact hun (.tkipSlot htkip hlen hkey hicv hnone)
    · obtain ⟨key,hkey,hmic⟩ := (accepts_aes haes).mp hacc
      constructor
      · refine (integrityOk_aes haes).mpr ⟨key,hkey,?_⟩
        by_cases hhdr : micHdrlen g = g.attrib.hdrlen
        · exact hmic.intact (hiv' haes) hhdr
        · by_contra hwrong
          exact hun (.ccmpHdr haes hkey hhdr hmic hwrong)
      · by_contra hnone
        exact hun (.ccmpSlot haes hkey hmic hnone)

/-- The key that is selected for a frame of a known sender was installed. A group frame is
refused without a group key, and with CCMP for any slot but the last one installed. -/
def SelectedKeySet (sec : SecurityPriv) (stapriv : StaPriv) (f : RecvFrame) : Prop :=
  ∀ psta ∈ rtwGetStainfo stapriv f.attrib.ta,
    if isMcast f.attrib.ra = true then
      f.attrib.encrypt = .tkip → sec.binstallGrpkey = true → GroupKeySet sec f.attrib.keyIndex
    else psta.bpairwiseKeyInstalled = true

/-- The frames for which the comparison that is made is the one that is asked for -/
inductive Checked (sec : SecurityPriv) (stapriv : StaPriv) (f : RecvFrame) : Prop
  | short (hlen : f.buf.len < payloadOffset f)
  | tkip (htkip : f.attrib.encrypt = .tkip) (hkey : SelectedKeySet sec stapriv f)
      (hroom : payloadOffset f + 4 ≤ f.buf.len)
  | ccmp (haes : f.attrib.encrypt = .aes) (hkey : SelectedKeySet sec stapriv f)
      (hhdr : micHdrlen f = f.attrib.hdrlen)

theorem prwskey_sender {sec : SecurityPriv} {stapriv : StaPriv} {checkIndex : Bool} {f : RecvFrame} {key : Keytype}
    (h : key ∈ prwskey sec stapriv checkIndex f) : ∃ psta ∈ rtwGetStainfo stapriv f.attrib.ta,
      isMcast f.attrib.ra = true → sec.binstallGrpkey = true ∧
        (checkIndex = true → sec.dot118021XGrpKeyid = f.attrib.keyIndex) := by
  rw [prwskey] at h
  cases hsta : rtwGetStainfo stapriv f.attrib.ta with
  | none => simp [hsta] at h
  | some psta =>
    refine ⟨psta,rfl,fun hmcast => ?_⟩
    rw [hsta] at h
    dsimp only at h
    rw [if_pos hmcast] at h
    split_ifs at h <;> simp_all

theorem SelectedKeySet.keyAvailable {sec : SecurityPriv} {stapriv : StaPriv} {f : RecvFrame} {key : Keytype}
    {checkIndex : Bool} (hset : SelectedKeySet sec stapriv f) (hwep : ¬ IsWep f.attrib.encrypt)
    (hcheck : f.attrib.encrypt ≠ .tkip → checkIndex = true) (hkey : key ∈ prwskey sec stapriv checkIndex f) :
    KeyAvailable sec stapriv f := by
  obtain ⟨psta,hsta,hgroup⟩ := prwskey_sender hkey
  have hslot := hset psta hsta
  rw [KeyAvailable, if_neg hwep]
  refine ⟨psta,hsta,?_⟩
  by_cases hmcast : isMcast f.attrib.ra = true
  · obtain ⟨hinstalled,hindex⟩ := hgroup hmcast
    rw [if_pos hmcast] at hslot ⊢
    by_cases htkip : f.attrib.encrypt = .tkip
    · exact hslot htkip hinstalled
    · exact ⟨hinstalled,.inl (hindex (hcheck htkip))⟩
  · rwa [if_neg hmcast] at hslot ⊢

theorem Checked.not_ungated {sec : SecurityPriv} {stapriv : StaPriv} {f : RecvFrame}
    (h : Checked sec stapriv f) : ¬ Ungated sec stapriv f := by
  intro hun
  cases h with
  | short hlen => cases hun with
    | wepIcv _ hle _ | wepSlot _ hle _ | tkipSlot _ hle _ _ _ | tkipShort _ hle _ _ _ => omega
    | ccmpSlot _ _ hmic _ | ccmpHdr _ _ _ hmic _ =>
      have := hmic.1.1
      rw [payloadLength] at this
      omega
  | tkip htkip hkey hroom => cases hun with
    | wepIcv hwep _ _ | wepSlot hwep _ _ => exact hwep.ne.1 htkip
    | tkipSlot _ _ hsel _ hnone =>
      exact hnone (hkey.keyAvailable (fun hwep => hwep.ne.1 htkip) (fun hne => absurd htkip hne) hsel)
    | tkipShort _ _ _ _ hshort => omega
    | ccmpSlot haes _ _ _ | ccmpHdr haes _ _ _ _ => cases htkip.symm.trans haes
  | ccmp haes hkey hhdr => cases hun with
    | wepIcv hwep _ _ | wepSlot hwep _ _ => exact hwep.ne.2 haes
    | tkipSlot htkip _ _ _ _ | tkipShort htkip _ _ _ _ => cases htkip.symm.trans haes
    | ccmpSlot _ hsel _ hnone =>
      exact hnone (hkey.keyAvailable (fun hwep => hwep.ne.2 haes) (fun _ => rfl) hsel)
    | ccmpHdr _ _ hne _ _ => exact hne hhdr

theorem software_decrypt_gate (sec : SecurityPriv) (stapriv : StaPriv) (f : RecvFrame)
    (hsw : SoftwareDecrypt sec f) (hh : 24 ≤ f.attrib.hdrlen)
    (hiv : f.attrib.ivLen = (setIceIvLen f.attrib.encrypt).1)
    (hchecked : Checked sec stapriv (setKeyIndex sec f)) : Gated sec stapriv f :=
  (gated_iff_not_ungated sec stapriv f hsw hh hiv).mpr hchecked.not_ungated

/-- A protected data frame with an IV of zeros -/
def protectedFrame (encrypt : EncryAlgo) (ivLen : ℕ) : RecvFrame :=
  { plainFrame 0 0 false with
    buf := ⟨0x08 :: 0x42 :: List.replicate 62 0, 0, 56, by decide, by decide⟩
    attrib := { (plainFrame 0 0 false).attrib with encrypt := encrypt, ivLen := ivLen, icvLen := ivLen } }

theorem software_decrypt_gate_ccmp :
    Gated wpaSecurity (fun _ => some ccmpPeer) (protectedFrame .aes 8) := by
  apply software_decrypt_gate _ _ _ ⟨Or.inr (Or.inr rfl),Or.inl rfl⟩ (by decide) rfl
  refine .ccmp rfl ?_ (by decide)
  rintro psta ⟨⟩
  rfl

/-- A WEP frame of zeros is let through, though its ICV is not that of the payload. -/
theorem wep_icv_not_checked :
    ¬ Gated { openSecurity with
        dot11PrivacyAlgrthm := .wep40
        dot11DefKey := fun _ => List.replicate 16 1
        dot11DefKeylen := fun _ => 5 } (fun _ => none) (protectedFrame .wep40 4) := by
  intro h
  have hicv := (h _ rfl nofun).1.1 (Or.inl rfl)
  exact absurd hicv.2 (by decide +kernel)

end Rtl8188fu
