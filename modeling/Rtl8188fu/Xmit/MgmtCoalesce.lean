import Rtl8188fu.Security.Bip
import Rtl8188fu.Security.CcmpUndo
import Rtl8188fu.Xmit.WlanHdr

/-! # The management MIC of a sent frame

The group addressed branch of `rtw_mgmt_xmitframe_coalesce`, on the deauthentication and
disassociation frames of the driver, and `rtw_BIP_verify` at the other side.
-/
namespace Rtl8188fu
open Bytes

/-- The frame that `issue_deauth` and `issue_disassoc` build -/
def issueDeauth (subtype : ℕ) (da macAddr bssid : MacAddr) (mgntSeq : ℕ) (reason : UInt16) : List UInt8 :=
  let hdr := patch (patch (patch (List.replicate WLAN_HDR_A3_LEN 0) 4 da) 10 macAddr) 16 bssid
  setFrameSubType (setSeqNum hdr mgntSeq) subtype ++ le16Bytes reason.toNat

/-- `rtw_set_ie` behind what is already there -/
def rtwSetIe (pbuf : List UInt8) (index : UInt8) (source : List UInt8) : List UInt8 :=
  pbuf ++ index :: UInt8.ofNat source.length :: source

/-- `MME` with a MIC of zeros -/
def mmeBytes (sec : SecurityPriv) (ipn : ℕ) : List UInt8 :=
  [UInt8.ofNat sec.dot11wBIPKeyid, 0, tsc ipn 0, tsc ipn 1, tsc ipn 2, tsc ipn 3, tsc ipn 4, tsc ipn 5] ++
    List.replicate 8 0

/-- `rtw_mgmt_xmitframe_coalesce` of a group addressed frame: the frame and the next
`mgnt_80211w_IPN`; `none` for `_FAIL` -/
def rtwMgmtXmitframeCoalesce (sec : SecurityPriv) (ipn : ℕ) (pframe : List UInt8) : Option (List UInt8 × ℕ) :=
  if !sec.binstallBIPkey then some (pframe, ipn)
  else if getFrameSubType pframe ≠ WIFI_DEAUTH ∧ getFrameSubType pframe ≠ WIFI_DISASSOC then none
  else
    let p := rtwSetIe pframe MME_IE (mmeBytes sec ipn)
    let mic := (omac1Aes128 (sec.dot11wBIPKey sec.dot11wBIPKeyid) (bipAad p ++ p.drop WLAN_HDR_A3_LEN)).take 8
    some (patch p (p.length - 8) mic, (ipn + 1) % 2 ^ 64)

/-- The received frame consists of these bytes. -/
structure Carries (f : RecvFrame) (bytes : List UInt8) : Prop where
  pktLen : f.attrib.pktLen = bytes.length
  bytes : f.buf.ptr.take bytes.length = bytes

/-- One bit is the other way round. -/
def flipBit (bytes : List UInt8) (i j : ℕ) : List UInt8 :=
  bytes.set i (byteAt bytes i ^^^ (1 <<< UInt8.ofNat j))

/-- The bits that the management MIC is to protect: the frame control field without its
three masked bits, the addresses, and the body up to the MIC -/
def BipCovered (len i j : ℕ) : Prop :=
  j < 8 ∧ (i = 0 ∨ i = 1 ∧ ¬ (3 ≤ j ∧ j ≤ 5) ∨ 4 ≤ i ∧ i < 22 ∨ WLAN_HDR_A3_LEN ≤ i ∧
    i + 8 < len)

/-- What is asked of both sides: the frame is accepted and its packet number becomes the
last one, and a frame with a covered bit changed is not checked against the same input. -/
structure BipAgree (sec : SecurityPriv) (ipn ipnRx : ℕ) (frame : List UInt8) : Prop where
  accepted : ∀ f, Carries f frame → rtwBipVerify sec ipnRx f = some (.success,ipn % 2 ^ 48)
  covered : ∀ i j, BipCovered frame.length i j → ∀ f g, Carries f frame → Carries g (flipBit frame i j) →
    ∀ r ∈ mmeOf f, ∀ s ∈ mmeOf g, bipMessage g s.1 s.2 ≠ bipMessage f r.1 r.2

theorem flip_ne (x : UInt8) {j : ℕ} (hj : j < 8) : x ^^^ (1 <<< UInt8.ofNat j) ≠ x := by
  intro h
  have hzero : (1 : UInt8) <<< UInt8.ofNat j = 0 := by
    have := congrArg (x ^^^ ·) h
    simpa [← UInt8.xor_assoc] using this
  interval_cases j <;> exact absurd hzero (by decide)

theorem length_bipAad {p : List UInt8} (h : 22 ≤ p.length) : (bipAad p).length = 20 := by
  rw [bipAad, List.length_append, length_slice_of_le (by omega)]
  rfl

section Message
variable {f : RecvFrame} (hlen : 22 ≤ f.buf.ptr.length) (p len : ℕ)
include hlen

theorem byteAt_bipMessage_aad {i : ℕ} (hi : i < 20) :
    byteAt (bipMessage f p len) i = byteAt (bipAad f.buf.ptr) i := by
  have haad := length_bipAad hlen
  simp only [bipMessage, byteAt_patch, length_patch, List.length_append, List.length_replicate, BIP_AAD_SIZE]
  rw [if_pos (by omega), Nat.sub_zero]

/-- In the body eight bytes are taken as zero, and nothing else is changed. -/
theorem byteAt_bipMessage_body {k : ℕ} (hk : k < (bipBody f).length) :
    byteAt (bipMessage f p len) (20 + k) =
      if p + len ≤ k + 6 ∧ k < p + len + 2 then 0 else byteAt (bipBody f) k := by
  have haad := length_bipAad hlen
  have hzero : ∀ j, byteAt (List.replicate 8 0) j = 0 := by
    intro j
    simp only [byteAt, List.getD_eq_getElem?_getD, List.getElem?_replicate]
    split <;> rfl
  simp only [bipMessage, byteAt_patch, length_patch, List.length_append, List.length_replicate, BIP_AAD_SIZE,
    byteAt_append]
  rw [if_neg (by omega)]
  by_cases hwin : p + len ≤ k + 6 ∧ k < p + len + 2
  · rw [if_pos (by omega), if_pos hwin]
    exact hzero _
  · rw [if_neg (by omega), if_neg (by omega), if_neg hwin, Nat.add_sub_cancel_left]

end Message

/-- With an element of length zero in front, the search finds the MME behind it. -/
theorem rtwGetIe_second {body : List UInt8} {limit : ℕ} (h0 : byteAt body 0 ≠ MME_IE) (h1 : byteAt body 1 = 0)
    (h2 : byteAt body 2 = MME_IE) (hlimit : 2 < limit) :
    rtwGetIe body MME_IE limit = some (2,(byteAt body 3).toNat) := by
  obtain ⟨n,rfl⟩ : ∃ n, limit = n + 1 + 1 := ⟨limit - 2,by omega⟩
  rw [rtwGetIe, if_neg (by omega), rtwGetIeLoop, if_neg h0, h1]
  dsimp only
  rw [if_neg (by simp; omega), rtwGetIeLoop]
  exact if_pos h2

theorem length_omac1Aes128 (key data : List UInt8) : (omac1Aes128 key data).length = 16 := by
  rw [omac1Aes128]
  split <;> rfl

section Sent
variable {sec : SecurityPriv} {ipn : ℕ} {hdr : List UInt8} {reason : UInt16} (hhdr : hdr.length = WLAN_HDR_A3_LEN)
include hhdr

/-- The body of a sent frame up to the MIC -/
def sentBody (sec : SecurityPriv) (ipn : ℕ) (reason : UInt16) : List UInt8 :=
  le16Bytes reason.toNat ++ [MME_IE, 16, UInt8.ofNat sec.dot11wBIPKeyid, 0, tsc ipn 0, tsc ipn 1, tsc ipn 2, tsc ipn 3,
    tsc ipn 4, tsc ipn 5]

def sentMic (sec : SecurityPriv) (ipn : ℕ) (hdr : List UInt8) (reason : UInt16) : List UInt8 :=
  (omac1Aes128 (sec.dot11wBIPKey sec.dot11wBIPKeyid)
    (bipAad hdr ++ (sentBody sec ipn reason ++ List.replicate 8 0))).take 8

omit hhdr in
theorem length_sentMic (sec : SecurityPriv) (ipn : ℕ) (hdr : List UInt8) (reason : UInt16) :
    (sentMic sec ipn hdr reason).length = 8 := by
  rw [sentMic, List.length_take, length_omac1Aes128]
  rfl

theorem bipAad_append (b : List UInt8) : bipAad (hdr ++ b) = bipAad hdr := by
  rw [WLAN_HDR_A3_LEN] at hhdr
  simp only [bipAad, byteAt_append, hhdr]
  rw [slice_append_left (by omega)]
  rfl

theorem rtwMgmtXmitframeCoalesce_eq (hinst : sec.binstallBIPkey = true)
    (htype : getFrameSubType hdr = WIFI_DEAUTH ∨ getFrameSubType hdr = WIFI_DISASSOC) :
    rtwMgmtXmitframeCoalesce sec ipn (hdr ++ le16Bytes reason.toNat) =
      some (hdr ++ (sentBody sec ipn reason ++ sentMic sec ipn hdr reason),(ipn + 1) % 2 ^ 64) := by
  have hset : rtwSetIe (hdr ++ le16Bytes reason.toNat) MME_IE (mmeBytes sec ipn) =
      hdr ++ (sentBody sec ipn reason ++ List.replicate 8 0) := by
    simp [rtwSetIe, mmeBytes, sentBody, le16Bytes]
  have hdrop : (hdr ++ (sentBody sec ipn reason ++ List.replicate 8 0)).drop WLAN_HDR_A3_LEN =
      sentBody sec ipn reason ++ List.replicate 8 0 := by
    rw [← hhdr, List.drop_left]
  have hat : (hdr ++ (sentBody sec ipn reason ++ List.replicate 8 0)).length - 8 =
      (hdr ++ sentBody sec ipn reason).length := by
    simp only [List.length_append, List.length_replicate]
    omega
  have hmic := length_sentMic sec ipn hdr reason
  have hpatch : patch (hdr ++ (sentBody sec ipn reason ++ List.replicate 8 0)) (hdr ++ sentBody sec ipn reason).length
      (sentMic sec ipn hdr reason) = hdr ++ (sentBody sec ipn reason ++ sentMic sec ipn hdr reason) := by
    have := @patch_middle _ (hdr ++ sentBody sec ipn reason) (List.replicate 8 0) [] (sentMic sec ipn hdr reason) (by
      rw [hmic, List.length_replicate])
    simpa using this
  have hsub : ¬ (getFrameSubType (hdr ++ le16Bytes reason.toNat) ≠ WIFI_DEAUTH ∧
      getFrameSubType (hdr ++ le16Bytes reason.toNat) ≠ WIFI_DISASSOC) := by
    have : getFrameSubType (hdr ++ le16Bytes reason.toNat) = getFrameSubType hdr := by
      simp only [getFrameSubType, le16At, byteAt_append, hhdr, WLAN_HDR_A3_LEN]
      rfl
    rw [this]
    tauto
  rw [rtwMgmtXmitframeCoalesce, if_neg (by simp [hinst]), if_neg hsub]
  dsimp only
  rw [hset, hdrop, hat, bipAad_append hhdr]
  exact congrArg (fun l => some (l,(ipn + 1) % 2 ^ 64)) hpatch

end Sent

section Received
variable {f : RecvFrame} {bytes : List UInt8} (h : Carries f bytes)
include h

theorem Carries.length : bytes.length ≤ f.buf.ptr.length := by
  have := congrArg List.length h.bytes
  rw [List.length_take] at this
  omega

theorem Carries.slice {i n : ℕ} (hi : i + n ≤ bytes.length) : slice f.buf.ptr i n = slice bytes i n :=
  slice_congr (k := bytes.length) (by rw [h.bytes, List.take_length]) hi

theorem Carries.byteAt {i : ℕ} (hi : i < bytes.length) : byteAt f.buf.ptr i = Rtl8188fu.byteAt bytes i :=
  byteAt_congr (k := bytes.length) (by rw [h.bytes, List.take_length]) hi

theorem Carries.bipBody (hlen : WLAN_HDR_A3_LEN ≤ bytes.length) : bipBody f = bytes.drop WLAN_HDR_A3_LEN := by
  rw [Rtl8188fu.bipBody, h.pktLen, h.slice (by omega), Bytes.slice, List.take_of_length_le]
  rw [List.length_drop]

theorem Carries.bipAad (hlen : 22 ≤ bytes.length) : bipAad f.buf.ptr = Rtl8188fu.bipAad bytes := by
  rw [Rtl8188fu.bipAad, Rtl8188fu.bipAad, h.byteAt (by omega), h.byteAt (by omega), h.slice (by omega)]

end Received

section Accepted
variable {sec : SecurityPriv} {ipn : ℕ} {hdr : List UInt8} {reason : UInt16} (hhdr : hdr.length = WLAN_HDR_A3_LEN)
  {f : RecvFrame} (h : Carries f (hdr ++ (sentBody sec ipn reason ++ sentMic sec ipn hdr reason)))
include hhdr h

variable (sec ipn reason) in
omit h in
theorem length_sent : (hdr ++ (sentBody sec ipn reason ++ sentMic sec ipn hdr reason)).length = 44 := by
  have hmic := length_sentMic sec ipn hdr reason
  rw [List.length_append, List.length_append, hhdr, hmic]
  rfl

theorem bipBody_sent : bipBody f = sentBody sec ipn reason ++ sentMic sec ipn hdr reason := by
  rw [h.bipBody (by rw [length_sent _ _ _ hhdr]; decide), ← hhdr, List.drop_left]

theorem mmeOf_sent (hlow : reason.toNat < 256) (hne : reason.toNat ≠ 76) : mmeOf f = some (2,16) := by
  have hbody := bipBody_sent hhdr h
  have hlimit : f.attrib.pktLen - WLAN_HDR_A3_LEN = 20 := by rw [h.pktLen, length_sent _ _ _ hhdr]; rfl
  rw [mmeOf, hlimit, hbody]
  apply rtwGetIe_second
  · intro heq
    have := congrArg UInt8.toNat heq
    change (UInt8.ofNat reason.toNat).toNat = 76 at this
    rw [UInt8.toNat_ofNat'] at this
    omega
  · change UInt8.ofNat (reason.toNat / 256) = 0
    rw [Nat.div_eq_of_lt hlow]
    rfl
  · rfl
  · decide

theorem bipMessage_sent : bipMessage f 2 16 = bipAad hdr ++ (sentBody sec ipn reason ++ List.replicate 8 0) := by
  have hlen : (hdr ++ (sentBody sec ipn reason ++ sentMic sec ipn hdr reason)).length = 44 := length_sent _ _ _ hhdr
  have haad : bipAad f.buf.ptr = bipAad hdr := by
    rw [h.bipAad (by omega), bipAad_append hhdr]
  have h20 : (bipAad hdr).length = 20 := length_bipAad (by rw [hhdr]; decide)
  have hmic := length_sentMic sec ipn hdr reason
  have hzero : patch (List.replicate BIP_AAD_SIZE 0 ++ (sentBody sec ipn reason ++ sentMic sec ipn hdr reason)) 32
      (List.replicate 8 0) = List.replicate BIP_AAD_SIZE 0 ++ (sentBody sec ipn reason ++ List.replicate 8 0) := by
    change patch _ (List.replicate BIP_AAD_SIZE 0 ++ sentBody sec ipn reason).length _ = _
    have := @patch_middle _ (List.replicate BIP_AAD_SIZE 0 ++ sentBody sec ipn reason) (sentMic sec ipn hdr reason) []
      (List.replicate 8 0) (by rw [hmic, List.length_replicate])
    simpa using this
  have hfront := @patch_middle _ [] (List.replicate BIP_AAD_SIZE 0)
    (sentBody sec ipn reason ++ List.replicate 8 0) (bipAad hdr) (by rw [h20, List.length_replicate]; rfl)
  rw [bipMessage, bipBody_sent hhdr h, haad]
  exact (congrArg (patch · 0 (bipAad hdr)) hzero).trans hfront

/-- The frame is accepted, for a reason code that the search steps over. -/
theorem rtwBipVerify_sent {ipnRx : ℕ} (hkey : sec.dot11wBIPKeyid < 256) (hipn : ipnRx < ipn % 2 ^ 48)
    (hlow : reason.toNat < 256) (hne : reason.toNat ≠ 76) :
    rtwBipVerify sec ipnRx f = some (.success,ipn % 2 ^ 48) := by
  have hlen : (hdr ++ (sentBody sec ipn reason ++ sentMic sec ipn hdr reason)).length = 44 := length_sent _ _ _ hhdr
  have hmme := mmeOf_sent hhdr h hlow hne
  have hbody := bipBody_sent hhdr h
  have hnum : mmeIpn f 2 = ipn % 2 ^ 48 := by
    rw [mmeIpn, hbody]
    exact pn48Val_tsc ipn
  have hid : le16At (bipBody f) (2 + 2) = sec.dot11wBIPKeyid := by
    rw [hbody]
    change (UInt8.ofNat sec.dot11wBIPKeyid).toNat + 256 * 0 = _
    rw [UInt8.toNat_ofNat']
    omega
  have hmic : bipMic sec f 2 16 = Bytes.slice f.buf.ptr (f.attrib.pktLen - 8) 8 := by
    have hwhole : hdr ++ (sentBody sec ipn reason ++ sentMic sec ipn hdr reason) =
        (hdr ++ sentBody sec ipn reason) ++ sentMic sec ipn hdr reason ++ [] := by simp
    have h36 : (hdr ++ sentBody sec ipn reason).length = 36 := by
      rw [List.length_append, hhdr]
      rfl
    rw [bipMic, bipMessage_sent hhdr h, h.pktLen, hlen, h.slice (by rw [hlen]), hwhole,
      slice_middle h36 (length_sentMic _ _ _ _)]
    rfl
  rw [rtwBipVerify, if_neg (by rw [h.pktLen, hlen]; decide), hmme]
  dsimp only
  rw [if_neg (by omega), if_neg (by rw [hid]; simp), if_pos hmic, hnum]

end Accepted

theorem rtwGetIeLoop_le {body : List UInt8} {index : UInt8} {limit fuel i p len : ℕ}
    (h : rtwGetIeLoop body index limit fuel i = some (p,len)) : i ≤ p := by
  induction fuel generalizing i with
  | zero => cases h
  | succ fuel ih =>
    rw [rtwGetIeLoop] at h
    split at h
    · cases h
      exact Nat.le_refl _
    · dsimp only at h
      split at h
      · cases h
      · have := ih h
        omega

theorem byteAt_bipAad (p : List UInt8) {i : ℕ} (hi : i < 20) :
    byteAt (bipAad p) i = if i = 0 then byteAt p 0 else if i = 1 then byteAt p 1 &&& 0xc7 else byteAt p (i + 2) := by
  rw [bipAad, byteAt_append]
  split_ifs with h2 h0 h1 h0 h1
  · rw [h0]
    rfl
  · rw [h1]
    rfl
  · simp only [List.length_cons, List.length_nil] at h2
    omega
  · simp only [List.length_cons, List.length_nil] at h2
    omega
  · simp only [List.length_cons, List.length_nil] at h2
    omega
  · simp only [List.length_cons, List.length_nil] at h2 ⊢
    rw [byteAt_slice _ (by omega)]
    congr 1
    omega

theorem masked_flip_ne (x : UInt8) {j : ℕ} (hj : j < 8) (hmask : ¬ (3 ≤ j ∧ j ≤ 5)) :
    (x ^^^ (1 <<< UInt8.ofNat j)) &&& 0xc7 ≠ x &&& 0xc7 := by
  intro h
  have hbit := congrArg (fun v : UInt8 => v.toNat.testBit j) h
  simp only [UInt8.toNat_and, UInt8.toNat_xor, Nat.testBit_and, Nat.testBit_xor] at hbit
  have hone : ((1 : UInt8) <<< UInt8.ofNat j).toNat.testBit j = true := by interval_cases j <;> decide
  have hkeep : (0xc7 : UInt8).toNat.testBit j = true := by interval_cases j <;> first | decide | omega
  rw [hone, hkeep] at hbit
  revert hbit
  cases x.toNat.testBit j <;> exact nofun

/-- A covered bit of the header is part of the additional data. -/
theorem bipAad_flip {bytes : List UInt8} {i j : ℕ} (hj : j < 8) (hlen : WLAN_HDR_A3_LEN ≤ bytes.length)
    (hi : i = 0 ∨ i = 1 ∧ ¬ (3 ≤ j ∧ j ≤ 5) ∨ 4 ≤ i ∧ i < 22) :
    bipAad (flipBit bytes i j) ≠ bipAad bytes := by
  rw [WLAN_HDR_A3_LEN] at hlen
  intro heq
  have hat : ∀ k < 20, byteAt (bipAad (flipBit bytes i j)) k = byteAt (bipAad bytes) k := fun k _ => by rw [heq]
  rcases hi with rfl | ⟨rfl,hmask⟩ | ⟨hlow,hhigh⟩
  · have := hat 0 (by omega)
    rw [byteAt_bipAad _ (by omega), byteAt_bipAad _ (by omega), if_pos rfl, if_pos rfl, flipBit, byteAt_set,
      if_pos ⟨rfl,by omega⟩] at this
    exact flip_ne _ hj this
  · have := hat 1 (by omega)
    rw [byteAt_bipAad _ (by omega), byteAt_bipAad _ (by omega), if_neg (by omega), if_pos rfl, if_neg (by omega),
      if_pos rfl, flipBit, byteAt_set, if_pos ⟨rfl,by omega⟩] at this
    exact masked_flip_ne _ hj hmask this
  · have := hat (i - 2) (by omega)
    rw [byteAt_bipAad _ (by omega), byteAt_bipAad _ (by omega), if_neg (by omega), if_neg (by omega),
      if_neg (by omega), if_neg (by omega), Nat.sub_add_cancel (by omega), flipBit, byteAt_set,
      if_pos ⟨rfl,by omega⟩] at this
    exact flip_ne _ hj this

/-- A changed bit in the body before the MIC: either it is seen in the message, or the
element that is found elsewhere blanks a byte that was not zero. -/
theorem bipMessage_flip_body {f g : RecvFrame} (hf : 22 ≤ f.buf.ptr.length) (hg : 22 ≤ g.buf.ptr.length) {k j : ℕ}
    (hk : k < 12) (hj : j < 8) (hflen : (bipBody f).length = 20) (hglen : (bipBody g).length = 20)
    (hlimit : g.attrib.pktLen - WLAN_HDR_A3_LEN = 20)
    (h0 : byteAt (bipBody f) 0 ≠ MME_IE) (h1 : byteAt (bipBody f) 1 = 0) (h2 : byteAt (bipBody f) 2 = MME_IE)
    (h3 : byteAt (bipBody f) 3 = 16)
    (hat : byteAt (bipBody g) k = byteAt (bipBody f) k ^^^ (1 <<< UInt8.ofNat j))
    (hother : ∀ l, l ≠ k → byteAt (bipBody g) l = byteAt (bipBody f) l) {p len : ℕ}
    (hmme : mmeOf g = some (p,len)) :
    bipMessage g p len ≠ bipMessage f 2 16 := by
  intro heq
  have hseen : ∀ l < 12, (if p + len ≤ l + 6 ∧ l < p + len + 2 then 0 else byteAt (bipBody g) l) =
      byteAt (bipBody f) l := by
    intro l hl
    have := congrArg (byteAt · (20 + l)) heq
    rw [byteAt_bipMessage_body hg p len (by omega), byteAt_bipMessage_body hf 2 16 (by omega),
      if_neg (by omega : ¬ (2 + 16 ≤ l + 6 ∧ l < 2 + 16 + 2))] at this
    exact this
  have hne := flip_ne (byteAt (bipBody f) k) hj
  rw [← hat] at hne
  -- the changed byte must be blanked, and so was zero before
  have hblank : (p + len ≤ k + 6 ∧ k < p + len + 2) ∧ byteAt (bipBody f) k = 0 := by
    have := hseen k hk
    split at this
    · rename_i hwin
      exact ⟨hwin,this.symm⟩
    · exact absurd this hne
  have hid : ¬ (p + len ≤ 2 + 6 ∧ 2 < p + len + 2) := by
    intro hwin
    have := hseen 2 (by omega)
    rw [if_pos hwin, h2] at this
    cases this
  obtain ⟨hwin,hzero⟩ := hblank
  rw [mmeOf, hlimit] at hmme
  by_cases hk1 : k = 1
  · -- the search leaves the reason code with another length, and finds an element further on
    subst hk1
    have hp : 1 ≤ p := by
      rw [rtwGetIe, if_neg (by omega), rtwGetIeLoop, if_neg ((hother 0 (by omega)).trans_ne h0)] at hmme
      dsimp only at hmme
      split at hmme
      · cases hmme
      · have := rtwGetIeLoop_le hmme
        omega
    omega
  · have hg1 : byteAt (bipBody g) 1 = 0 := (hother 1 (Ne.symm hk1)).trans h1
    by_cases hk2 : k = 2
    · subst hk2
      rw [h2] at hzero
      cases hzero
    · have hg2 : byteAt (bipBody g) 2 = MME_IE := (hother 2 (Ne.symm hk2)).trans h2
      by_cases hg0 : byteAt (bipBody g) 0 = MME_IE
      · -- only a bit of the reason code itself can make it the element
        have hk0 : k = 0 := by
          by_contra hk0
          exact h0 ((hother 0 (Ne.symm hk0)).symm.trans hg0)
        subst hk0
        rw [hg0, hzero] at hat
        interval_cases j <;> exact absurd hat (by decide)
      · rw [rtwGetIe_second hg0 hg1 hg2 (by omega)] at hmme
        cases hmme
        by_cases hk3 : k = 3
        · subst hk3
          rw [h3] at hzero
          cases hzero
        · rw [hother 3 (Ne.symm hk3), h3] at hwin
          have h16 : (16 : UInt8).toNat = 16 := rfl
          omega

/-- A frame whose reason code has the number of the MME as its low byte: the element is taken
from the reason code, and its key id from the header of the MME. -/
theorem rtwBipVerify_reason_mme {sec : SecurityPriv} {ipn ipnRx : ℕ} {hdr : List UInt8} {reason : UInt16}
    (hhdr : hdr.length = WLAN_HDR_A3_LEN) {f : RecvFrame}
    (h : Carries f (hdr ++ (sentBody sec ipn reason ++ sentMic sec ipn hdr reason)))
    (hkey : sec.dot11wBIPKeyid < 256) (hlow : reason.toNat % 256 = 76) :
    rtwBipVerify sec ipnRx f = some (.fail,ipnRx) := by
  have hlen := length_sent sec ipn reason hhdr
  have hbody := bipBody_sent hhdr h
  have hlimit : f.attrib.pktLen - WLAN_HDR_A3_LEN = 20 := by rw [h.pktLen, hlen]; rfl
  have h0 : byteAt (bipBody f) 0 = MME_IE := by
    rw [hbody]
    change UInt8.ofNat reason.toNat = 76
    apply UInt8.toNat_inj.mp
    rw [UInt8.toNat_ofNat', hlow]
    rfl
  have hmme : mmeOf f = some (0,(byteAt (bipBody f) 1).toNat) := by
    rw [mmeOf, hlimit, rtwGetIe, if_neg (by omega), rtwGetIeLoop, if_pos h0]
  have hid : le16At (bipBody f) (0 + 2) = 4172 := by
    rw [hbody]
    rfl
  rw [rtwBipVerify, if_neg (by rw [h.pktLen, hlen]; decide), hmme]
  dsimp only
  split
  · rfl
  · rw [if_pos (by omega)]

/-- A frame whose reason code has a high byte that leads the search past the end -/
theorem rtwBipVerify_reason_long {sec : SecurityPriv} {ipn ipnRx : ℕ} {hdr : List UInt8} {reason : UInt16}
    (hhdr : hdr.length = WLAN_HDR_A3_LEN) {f : RecvFrame}
    (h : Carries f (hdr ++ (sentBody sec ipn reason ++ sentMic sec ipn hdr reason)))
    (hlow : reason.toNat % 256 ≠ 76) (hhigh : 18 * 256 ≤ reason.toNat) :
    rtwBipVerify sec ipnRx f = some (.handled,ipnRx) := by
  have hlen := length_sent sec ipn reason hhdr
  have hbody := bipBody_sent hhdr h
  have hlimit : f.attrib.pktLen - WLAN_HDR_A3_LEN = 20 := by rw [h.pktLen, hlen]; rfl
  have h0 : byteAt (bipBody f) 0 ≠ MME_IE := by
    rw [hbody]
    change UInt8.ofNat reason.toNat ≠ 76
    intro heq
    have := congrArg UInt8.toNat heq
    rw [UInt8.toNat_ofNat'] at this
    exact hlow this
  have h1 : 18 ≤ (byteAt (bipBody f) (0 + 1)).toNat := by
    rw [hbody]
    change 18 ≤ (UInt8.ofNat (reason.toNat / 256)).toNat
    rw [UInt8.toNat_ofNat']
    have := reason.toNat_lt
    omega
  have hmme : mmeOf f = none := by
    rw [mmeOf, hlimit, rtwGetIe, if_neg (by omega), rtwGetIeLoop, if_neg h0]
    exact if_pos (by omega)
  rw [rtwBipVerify, if_neg (by rw [h.pktLen, hlen]; decide), hmme]

section Flipped
variable {bytes : List UInt8} {i j : ℕ}

@[simp] theorem length_flipBit : (flipBit bytes i j).length = bytes.length := List.length_set

theorem byteAt_flipBit (hi : i < bytes.length) (l : ℕ) :
    byteAt (flipBit bytes i j) l =
      if i = l then byteAt bytes i ^^^ (1 <<< UInt8.ofNat j) else byteAt bytes l := by
  rw [flipBit, byteAt_set]
  simp only [hi, and_true]

end Flipped

/-- A sent frame is not checked against the same input when a covered bit is changed. -/
theorem bipMessage_flip {sec : SecurityPriv} {ipn : ℕ} {hdr : List UInt8} {reason : UInt16}
    (hhdr : hdr.length = WLAN_HDR_A3_LEN) (hlow : reason.toNat < 256) (hne : reason.toNat ≠ 76) {i j : ℕ}
    (hcov : BipCovered 44 i j) {f g : RecvFrame}
    (hf : Carries f (hdr ++ (sentBody sec ipn reason ++ sentMic sec ipn hdr reason)))
    (hg : Carries g (flipBit (hdr ++ (sentBody sec ipn reason ++ sentMic sec ipn hdr reason)) i j))
    {p len : ℕ} (hmme : mmeOf g = some (p,len)) : bipMessage g p len ≠ bipMessage f 2 16 := by
  have hlen := length_sent sec ipn reason hhdr
  have hbody := bipBody_sent hhdr hf
  generalize hsent : hdr ++ (sentBody sec ipn reason ++ sentMic sec ipn hdr reason) = bytes at hf hg hlen
  have hglen : (flipBit bytes i j).length = 44 := length_flipBit.trans hlen
  have hfptr := hf.length
  have hgptr := hg.length
  obtain ⟨hj,hi⟩ := hcov
  rw [WLAN_HDR_A3_LEN] at hi
  by_cases hbig : 24 ≤ i
  · have hgbody := hg.bipBody (by rw [hglen]; decide)
    have hfbody := hf.bipBody (by rw [hlen]; decide)
    have hat : ∀ l, byteAt (bipBody g) l =
        if i - 24 = l then byteAt (bipBody f) (i - 24) ^^^ (1 <<< UInt8.ofNat j) else byteAt (bipBody f) l := by
      have hdrop : ∀ (m : List UInt8) l, byteAt (m.drop WLAN_HDR_A3_LEN) l = byteAt m (24 + l) := by
        intro m l
        simp only [byteAt, List.getD_eq_getElem?_getD, List.getElem?_drop, WLAN_HDR_A3_LEN]
      intro l
      rw [hgbody, hfbody, hdrop, hdrop, hdrop, byteAt_flipBit (by omega), Nat.add_sub_cancel' hbig]
      exact if_congr (by omega) rfl rfl
    refine bipMessage_flip_body (by omega) (by omega) (k := i - 24) (by omega) hj ?_ ?_ ?_ ?_ ?_ ?_ ?_ ?_ ?_ hmme
    · rw [hfbody, List.length_drop, hlen]
      rfl
    · rw [hgbody, List.length_drop, hglen]
      rfl
    · rw [hg.pktLen, hglen]
      rfl
    · rw [hbody]
      change UInt8.ofNat reason.toNat ≠ 76
      intro heq
      have := congrArg UInt8.toNat heq
      rw [UInt8.toNat_ofNat', Nat.mod_eq_of_lt hlow] at this
      exact hne this
    · rw [hbody]
      change UInt8.ofNat (reason.toNat / 256) = 0
      rw [Nat.div_eq_of_lt hlow]
      rfl
    · rw [hbody]
      rfl
    · rw [hbody]
      rfl
    · rw [hat, if_pos rfl]
    · intro l hl
      rw [hat, if_neg (Ne.symm hl)]
  · intro heq
    refine bipAad_flip (i := i) hj (hlen ▸ by decide : WLAN_HDR_A3_LEN ≤ bytes.length) (by omega) ?_
    apply List.ext_getElem?
    intro k
    have haad : ∀ b : List UInt8, b.length = 44 → (bipAad b).length = 20 := fun b hb => length_bipAad (by omega)
    by_cases hk : k < 20
    · have hbyte : byteAt (bipMessage g p len) k = byteAt (bipMessage f 2 16) k := by rw [heq]
      rw [byteAt_bipMessage_aad (by omega) _ _ hk, byteAt_bipMessage_aad (by omega) _ _ hk, hg.bipAad (by omega),
        hf.bipAad (by omega)] at hbyte
      rw [List.getElem?_eq_getElem (by rw [haad _ hglen]; exact hk),
        List.getElem?_eq_getElem (by rw [haad _ hlen]; exact hk)]
      simp only [byteAt, List.getD_eq_getElem?_getD] at hbyte
      rw [List.getElem?_eq_getElem (by rw [haad _ hglen]; exact hk),
        List.getElem?_eq_getElem (by rw [haad _ hlen]; exact hk)] at hbyte
      simpa using hbyte
    · rw [List.getElem?_eq_none (by rw [haad _ hglen]; omega), List.getElem?_eq_none (by rw [haad _ hlen]; omega)]

/-- The header of `issueDeauth` keeps its frame type. -/
theorem issueDeauth_eq {subtype : ℕ} (da macAddr bssid : MacAddr) (seq : ℕ) (reason : UInt16)
    (hsub : subtype = WIFI_DEAUTH ∨ subtype = WIFI_DISASSOC) :
    ∃ hdr, hdr.length = WLAN_HDR_A3_LEN ∧
      (getFrameSubType hdr = WIFI_DEAUTH ∨ getFrameSubType hdr = WIFI_DISASSOC) ∧
      issueDeauth subtype da macAddr bssid seq reason = hdr ++ le16Bytes reason.toNat := by
  let p := setSeqNum (patch (patch (patch (List.replicate WLAN_HDR_A3_LEN 0) 4 da) 10 macAddr) 16 bssid) seq
  have hlen : p.length = 24 := by simp [p, setSeqNum, WLAN_HDR_A3_LEN]
  have hbyte : ∀ i < 2, byteAt p i = 0 := by
    intro i hi
    simp only [p, setSeqNum, byteAt_patch]
    rw [if_neg (by omega), if_neg (by omega), if_neg (by omega), if_neg (by omega)]
    interval_cases i <;> rfl
  have hfield : le16At (setFrameSubType p subtype) 0 = subtype := by
    simp only [setFrameSubType, le16At, byteAt_patch, hlen, length_le16Bytes, hbyte 0 (by omega), hbyte 1 (by omega)]
    rcases hsub with rfl | rfl <;> decide
  refine ⟨setFrameSubType p subtype,by rw [setFrameSubType, length_patch, hlen]; rfl,?_,rfl⟩
  rw [getFrameSubType, hfield]
  rcases hsub with rfl | rfl
  · exact Or.inl rfl
  · exact Or.inr rfl

/-- A broadcast deauthentication or disassociation frame is sent with a MIC that the other
side accepts, when the search for elements can step over the reason code; with a reason
code that is taken for the element or leads past it, the frame is never accepted. -/
theorem bip_encode_verify (sec : SecurityPriv) (subtype : ℕ) (da macAddr bssid : MacAddr) (seq ipn ipnRx : ℕ)
    (reason : UInt16) (hsub : subtype = WIFI_DEAUTH ∨ subtype = WIFI_DISASSOC) (hinst : sec.binstallBIPkey = true)
    (hkey : sec.dot11wBIPKeyid < 256) (hipn : ipnRx < ipn % 2 ^ 48) :
    ∃ frame, rtwMgmtXmitframeCoalesce sec ipn (issueDeauth subtype da macAddr bssid seq reason) =
        some (frame,(ipn + 1) % 2 ^ 64) ∧
      (reason.toNat < 256 ∧ reason.toNat ≠ 76 → BipAgree sec ipn ipnRx frame) ∧
      (reason.toNat % 256 = 76 ∨ 18 * 256 ≤ reason.toNat →
        ∀ f, Carries f frame → ∀ n, rtwBipVerify sec ipnRx f ≠ some (.success,n)) := by
  obtain ⟨hdr,hhdr,htype,heq⟩ := issueDeauth_eq da macAddr bssid seq reason hsub
  refine ⟨hdr ++ (sentBody sec ipn reason ++ sentMic sec ipn hdr reason),?_,?_,?_⟩
  · rw [heq]
    exact rtwMgmtXmitframeCoalesce_eq hhdr hinst htype
  · rintro ⟨hlow,hne⟩
    refine ⟨fun f hf => rtwBipVerify_sent hhdr hf hkey hipn hlow hne,?_⟩
    rintro i j hcov f g hf hg ⟨p,len⟩ hr ⟨q,l⟩ hs
    rw [length_sent _ _ _ hhdr] at hcov
    rw [mmeOf_sent hhdr hf hlow hne] at hr
    cases hr
    exact bipMessage_flip hhdr hlow hne hcov hf hg hs
  · intro hbad f hf n hn
    by_cases hmme : reason.toNat % 256 = 76
    · cases (rtwBipVerify_reason_mme hhdr hf hkey hmme).symm.trans hn
    · cases (rtwBipVerify_reason_long hhdr hf hmme (hbad.resolve_left hmme)).symm.trans hn

/-- A network with the group management key 4 -/
def igtkSecurity : SecurityPriv :=
  { wpaSecurity with
    dot11wBIPKeyid := 4
    dot11wBIPKey := fun _ => List.replicate 16 5
    binstallBIPkey := true }

/-- A broadcast deauthentication from the access point with packet number 1 -/
def sentDeauth (reason : UInt16) : List UInt8 :=
  ((rtwMgmtXmitframeCoalesce igtkSecurity 1 (issueDeauth WIFI_DEAUTH bcAddr apAddr apAddr 9 reason)).getD ([],0)).1

/-- A received frame of the given bytes -/
def frameOfBytes (bytes : List UInt8) : RecvFrame :=
  { plainFrame 0 0 false with
    buf := .ofBytes bytes
    attrib := { (plainFrame 0 0 false).attrib with pktLen := bytes.length } }

theorem bip_encode_verify_reason_7 :
    BipAgree igtkSecurity 1 0 (sentDeauth 7) ∧ Carries (frameOfBytes (sentDeauth 7)) (sentDeauth 7) := by
  obtain ⟨frame,hsent,hgood,-⟩ :=
    bip_encode_verify igtkSecurity WIFI_DEAUTH bcAddr apAddr apAddr 9 1 0 7 (Or.inl rfl) rfl
    (by decide) (by decide)
  have hframe : sentDeauth 7 = frame := by rw [sentDeauth, hsent]; rfl
  rw [hframe]
  refine ⟨hgood (by decide),rfl,?_⟩
  exact List.take_of_length_le (le_refl _)

/-- With the reason code of an expired station the element is not found. -/
theorem bip_deauth_not_accepted :
    rtwBipVerify igtkSecurity 0 (frameOfBytes (sentDeauth 65535)) = some (.handled,0) ∧
      rtwBipVerify igtkSecurity 0 (frameOfBytes (sentDeauth 7)) = some (.success,1) := by
  decide +kernel

end Rtl8188fu
