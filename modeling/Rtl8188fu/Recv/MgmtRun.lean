import Rtl8188fu.Library.Run
import Rtl8188fu.Recv.DecryptGate
import Rtl8188fu.Recv.Mgmt
import Rtl8188fu.Security.Bip

/-! # Received management frames in sequence

`validate_80211w_mgmt` with its software decryption and its check of the management MIC,
on frames that arrive in any order while the group management key is installed.
-/
namespace Rtl8188fu
open Bytes

/-- A management frame, with the keys and stations of the moment -/
structure MgmtRx where
  sec : SecurityPriv
  stapriv : StaPriv
  frame : RecvFrame

structure MgmtState where
  /-- `mgnt_80211w_IPN_rx` -/
  ipnRx : ℕ
  /-- the frames that went on to the dispatcher -/
  passed : List MgmtRx

/-- A group addressed deauthentication or disassociation -/
def MgmtRx.bipFrame (e : MgmtRx) : Bool := isMcast (getAddr1Ptr e.frame.buf.ptr) && isDeauthOrDisassoc e.frame

/-- The answer of `decryptor`; a call that does not return lets nothing through -/
def decryptorAnswer (sec : SecurityPriv) (stapriv : StaPriv) (f : RecvFrame) : Status × RecvFrame :=
  match decryptor sec stapriv f with
  | none => (.fail, f)
  | some d => (d.res, d.frame)

def MgmtRx.validate (e : MgmtRx) (ipnRx : ℕ) : Mgmt80211w :=
  validate80211wMgmt (decryptorAnswer e.sec e.stapriv)
    (fun f => ((rtwBipVerify e.sec ipnRx f).map (·.1)).getD .fail) e.sec e.stapriv e.frame

def MgmtState.step (s : MgmtState) (e : MgmtRx) : MgmtState where
  ipnRx :=
    if e.sec.binstallBIPkey && e.bipFrame then ((rtwBipVerify e.sec s.ipnRx e.frame).map (·.2)).getD s.ipnRx
    else s.ipnRx
  passed := if (e.validate s.ipnRx).status = .success then s.passed ++ [e] else s.passed

/-- The packet number of the management MIC element -/
def MgmtRx.ipn (e : MgmtRx) : ℕ :=
  match mmeOf e.frame with
  | none => 0
  | some (p, _) => mmeIpn e.frame p

theorem MgmtRx.ipn_of_mme {e : MgmtRx} {p len : ℕ} (h : mmeOf e.frame = some (p,len)) :
    e.ipn = mmeIpn e.frame p := by
  unfold MgmtRx.ipn
  split
  · rename_i hnone
    cases hnone.symm.trans h
  · rename_i hsome
    cases hsome.symm.trans h
    rfl

/-- The element has its sixteen bytes and ends with the frame. -/
def MmeLast (f : RecvFrame) (p len : ℕ) : Prop := len = 16 ∧ WLAN_HDR_A3_LEN + p + 18 = f.attrib.pktLen

/-- The frame carries an MME with the installed key id and the MIC of the frame. -/
def MgmtRx.BipAuthentic (e : MgmtRx) : Prop :=
  ∃ p len, mmeOf e.frame = some (p,len) ∧ MmeLast e.frame p len ∧ BipRight e.sec e.frame p len

/-- None of the five categories of action frames that are not robust -/
def robustCategory (category : UInt8) : Prop :=
  category ≠ RTW_WLAN_CATEGORY_PUBLIC ∧ category ≠ RTW_WLAN_CATEGORY_HT ∧
    category ≠ RTW_WLAN_CATEGORY_UNPROTECTED_WNM ∧ category ≠ RTW_WLAN_CATEGORY_SELF_PROTECTED ∧
    category ≠ RTW_WLAN_CATEGORY_P2P

/-- A robust frame to one station; the category of a protected frame cannot be seen. -/
def MgmtRx.RobustUnicast (e : MgmtRx) : Prop :=
  isMcast (getAddr1Ptr e.frame.buf.ptr) = false ∧ (isDeauthOrDisassoc e.frame = true ∨
    getFrameSubType e.frame.buf.ptr = WIFI_ACTION ∧
      (e.frame.attrib.privacy = true ∨ robustCategory (byteAt e.frame.buf.ptr WLAN_HDR_A3_LEN)))

/-- The frame was protected, and its CCMP MIC is right under the key that was selected. -/
def MgmtRx.CcmpOk (e : MgmtRx) : Prop :=
  let g := setKeyIndex e.sec (mgmtSecurityAttrib e.frame)
  e.frame.attrib.privacy = true ∧ ∃ key ∈ prwskey e.sec e.stapriv true g, MicIntact key g

/-- The packet numbers of the group addressed frames that passed, in order -/
def MgmtState.ipns (s : MgmtState) : List ℕ := (s.passed.filter (·.bipFrame)).map (·.ipn)

/-- What is asked of the frames that passed -/
structure MgmtAuthentic (s : MgmtState) : Prop where
  bip : ∀ e ∈ s.passed, e.bipFrame = true → e.BipAuthentic
  increasing : s.ipns.Pairwise (· < ·)
  ccmp : ∀ e ∈ s.passed, e.RobustUnicast → e.CcmpOk

/-- The frames that pass although they should not -/
inductive MgmtUnsafe (s : MgmtState) (e : MgmtRx) : Prop
  /-- a right MIC with the packet number of the frame that passed last, as when it is replayed -/
  | replay {p len : ℕ} (hbip : e.bipFrame = true) (hmme : mmeOf e.frame = some (p,len))
      (hright : BipRight e.sec e.frame p len) (hbefore : s.ipns ≠ []) (hipn : mmeIpn e.frame p = s.ipnRx)
  /-- an MME that does not end with the frame, whose last eight bytes are the MIC -/
  | misplaced {p len : ℕ} (hbip : e.bipFrame = true) (hmme : mmeOf e.frame = some (p,len))
      (hright : BipRight e.sec e.frame p len) (hlast : ¬ MmeLast e.frame p len)
  /-- an unprotected robust action frame from a station without a pairwise key -/
  | unprotected (hone : isMcast (getAddr1Ptr e.frame.buf.ptr) = false)
      (haction : getFrameSubType e.frame.buf.ptr = WIFI_ACTION) (hopen : e.frame.attrib.privacy = false)
      (hrobust : robustCategory (byteAt e.frame.buf.ptr WLAN_HDR_A3_LEN))
      (hnokey : (rtwGetStainfo e.stapriv (getAddr2Ptr e.frame.buf.ptr)).any (·.bpairwiseKeyInstalled) = false)

/-- A group addressed frame passes exactly when its management MIC does. -/
theorem MgmtRx.validate_bip {e : MgmtRx} {ipnRx : ℕ} (hkey : e.sec.binstallBIPkey = true) (hbip : e.bipFrame = true) :
    (e.validate ipnRx).status = .success ↔ ((rtwBipVerify e.sec ipnRx e.frame).map (·.1)).getD .fail = .success := by
  rw [MgmtRx.bipFrame, Bool.and_eq_true] at hbip
  rw [MgmtRx.validate, validate80211wMgmt]
  simp only [hkey, hbip.1, hbip.2, ↓reduceIte, Bool.not_true, Bool.and_false, Bool.false_and, Bool.false_eq_true,
    Bool.and_self]
  split <;> simp_all

section Validate
variable {decrypt : RecvFrame → Status × RecvFrame} {bipVerify : RecvFrame → Status} {sec : SecurityPriv}
  {stapriv : StaPriv} {f : RecvFrame} (hkey : sec.binstallBIPkey = true)
  (h : (validate80211wMgmt decrypt bipVerify sec stapriv f).status = .success)
include hkey h

/-- A protected frame to one station passes by its decryption only. -/
theorem validate80211wMgmt_protected (hp : f.attrib.privacy = true) (hm : isMcast (getAddr1Ptr f.buf.ptr) = false)
    (hd : isDeauthOrDisassoc f = true ∨ getFrameSubType f.buf.ptr = WIFI_ACTION) :
    (decrypt (mgmtSecurityAttrib f)).1 ≠ .fail := by
  have hkind : (isDeauthOrDisassoc f || decide (getFrameSubType f.buf.ptr = WIFI_ACTION)) = true := by
    simpa using hd
  intro hfail
  rw [validate80211wMgmt] at h
  simp only [hkey, hm, hp, hkind, hfail, ↓reduceIte, Bool.not_false, Bool.and_self] at h
  split at h <;> cases h

/-- An unprotected frame to one station passes when it is an action frame, and a robust one
only when its sender has no pairwise key. -/
theorem validate80211wMgmt_open (hp : f.attrib.privacy = false) (hm : isMcast (getAddr1Ptr f.buf.ptr) = false) :
    isDeauthOrDisassoc f = false ∧ (getFrameSubType f.buf.ptr = WIFI_ACTION →
      robustCategory (byteAt f.buf.ptr WLAN_HDR_A3_LEN) →
        (rtwGetStainfo stapriv (getAddr2Ptr f.buf.ptr)).any (·.bpairwiseKeyInstalled) = false) := by
  rw [validate80211wMgmt] at h
  simp only [hkey, hm, hp, ↓reduceIte, Bool.false_and, Bool.false_eq_true] at h
  split at h
  · rename_i haction
    simp only [Bool.and_eq_true, decide_eq_true_eq] at haction
    split at h
    · cases h
    · rename_i hcat
      refine ⟨?_,fun _ hrobust => absurd hrobust hcat⟩
      simp [isDeauthOrDisassoc, haction.1, WIFI_ACTION, WIFI_DEAUTH, WIFI_DISASSOC]
  · rename_i haction
    split at h
    · cases h
    · rename_i hdeauth
      refine ⟨by simpa using hdeauth,?_⟩
      intro hact _
      simpa [hact] using haction

end Validate

@[simp] theorem setKeyIndex_buf (sec : SecurityPriv) (f : RecvFrame) : (setKeyIndex sec f).buf = f.buf := by
  rw [setKeyIndex]
  split <;> rfl

/-- The header of a management frame is as long as it seems. -/
theorem ccmpHdrlen_mgmt {p : List UInt8} (hdrlen : ℕ) (h : getFrameType p = WIFI_MGT_TYPE) :
    ccmpHdrlen p hdrlen = hdrlen := by
  have hsub : getFrameSubType p / 16 ≤ 15 := by
    have : getFrameSubType p ≤ 0xfc := Nat.and_le_right
    omega
  have hqc : qcExists p = false := by
    rw [qcExists, h, WIFI_MGT_TYPE]
    simp only [Nat.zero_or, WIFI_DATA, WIFI_DATA_CFACK, WIFI_DATA_CFPOLL, WIFI_DATA_CFACKPOLL]
    have h1 : getFrameSubType p / 16 ≠ 0x18 := by omega
    have h2 : getFrameSubType p / 16 ≠ 0x28 := by omega
    have h3 : getFrameSubType p / 16 ≠ 0x38 := by omega
    simp [h1, h2, h3]
  simp [ccmpHdrlen, hqc]

theorem getFrameType_of_subType {p : List UInt8} {m : ℕ} (h : getFrameSubType p = m) :
    getFrameType p = m &&& 0x0c := by
  rw [← h, getFrameSubType, getFrameType, Nat.and_assoc]
  rfl

/-- Decryption of a management frame that does not fail has found a right MIC. -/
theorem decryptorAnswer_mgmt {e : MgmtRx} (hp : e.frame.attrib.privacy = true)
    (htype : getFrameType e.frame.buf.ptr = WIFI_MGT_TYPE)
    (h : (decryptorAnswer e.sec e.stapriv (mgmtSecurityAttrib e.frame)).1 ≠ .fail) : e.CcmpOk := by
  refine ⟨hp,?_⟩
  have hacc : Accepts e.sec e.stapriv (setKeyIndex e.sec (mgmtSecurityAttrib e.frame)) := by
    apply (decryptor_accepts ⟨Or.inr (Or.inr rfl),Or.inl rfl⟩ (Nat.le_refl 24)).mp
    rw [decryptorAnswer] at h
    split at h
    · exact absurd rfl h
    · rename_i d hd
      exact ⟨d,hd,h⟩
  obtain ⟨key,hkey,hmic⟩ := (accepts_aes (by rw [setKeyIndex_encrypt]; rfl)).mp hacc
  refine ⟨key,hkey,hmic.intact (by rw [setKeyIndex_ivLen]; rfl) ?_⟩
  rw [micHdrlen, setKeyIndex_buf]
  exact ccmpHdrlen_mgmt _ htype

/-- What one frame does: a group addressed one passes with a right MIC and becomes the last
one, every other leaves the last packet number alone. -/
theorem MgmtState.step_bip {s : MgmtState} {e : MgmtRx} (hkey : e.sec.binstallBIPkey = true)
    (hbip : e.bipFrame = true) :
    ((s.step e).passed = s.passed ∧ (s.step e).ipnRx = s.ipnRx) ∨
      ∃ p len, mmeOf e.frame = some (p,len) ∧ BipRight e.sec e.frame p len ∧ s.ipnRx ≤ mmeIpn e.frame p ∧
        (s.step e).passed = s.passed ++ [e] ∧ (s.step e).ipnRx = mmeIpn e.frame p := by
  have hipn : (s.step e).ipnRx = ((rtwBipVerify e.sec s.ipnRx e.frame).map (·.2)).getD s.ipnRx := by
    simp [MgmtState.step, hkey, hbip]
  have hpassed : (s.step e).passed =
      if ((rtwBipVerify e.sec s.ipnRx e.frame).map (·.1)).getD .fail = .success then s.passed ++ [e]
        else s.passed := by
    rw [MgmtState.step]
    simp only [MgmtRx.validate_bip hkey hbip]
  rw [hipn, hpassed]
  cases hr : rtwBipVerify e.sec s.ipnRx e.frame with
  | none => exact Or.inl ⟨rfl,rfl⟩
  | some r =>
    rcases rtwBipVerify_cases hr with ⟨hfail,hsame⟩ | ⟨p,len,hmme,hright,hle,rfl⟩
    · exact Or.inl ⟨if_neg hfail,hsame⟩
    · exact Or.inr ⟨p,len,hmme,hright,hle,rfl,rfl⟩

theorem MgmtState.step_other {s : MgmtState} {e : MgmtRx} (hbip : e.bipFrame = false) :
    (s.step e).ipnRx = s.ipnRx := by
  simp [MgmtState.step, hbip]

theorem MgmtState.mem_step {s : MgmtState} {e d : MgmtRx} (h : d ∈ (s.step e).passed) :
    d ∈ s.passed ∨ d = e ∧ (e.validate s.ipnRx).status = .success := by
  rw [MgmtState.step] at h
  dsimp only at h
  split at h
  · rename_i hok
    rcases List.mem_append.mp h with hd | hd
    · exact Or.inl hd
    · exact Or.inr ⟨List.mem_singleton.mp hd,hok⟩
  · exact Or.inl h

/-- A robust frame to one station that passes was protected and decrypted. -/
theorem MgmtRx.ccmpOk_of_passed {s : MgmtState} {e : MgmtRx} (hkey : e.sec.binstallBIPkey = true)
    (hsafe : ¬ MgmtUnsafe s e) (hrobust : e.RobustUnicast) (hok : (e.validate s.ipnRx).status = .success) :
    e.CcmpOk := by
  obtain ⟨hone,hkind⟩ := hrobust
  have hmgmt : isDeauthOrDisassoc e.frame = true ∨ getFrameSubType e.frame.buf.ptr = WIFI_ACTION :=
    hkind.imp_right And.left
  have htype : getFrameType e.frame.buf.ptr = WIFI_MGT_TYPE := by
    rcases hmgmt with hd | ha
    · simp only [isDeauthOrDisassoc, Bool.or_eq_true, decide_eq_true_eq] at hd
      rcases hd with hd | hd <;> exact getFrameType_of_subType hd
    · exact getFrameType_of_subType ha
  cases hp : e.frame.attrib.privacy with
  | true => exact decryptorAnswer_mgmt hp htype (validate80211wMgmt_protected hkey hok hp hone hmgmt)
  | false =>
    obtain ⟨hnodeauth,hnokey⟩ := validate80211wMgmt_open hkey hok hp hone
    rcases hkind with hd | ⟨ha,hp' | hr⟩
    · rw [hnodeauth] at hd
      cases hd
    · rw [hp] at hp'
      cases hp'
    · exact absurd (MgmtUnsafe.unprotected hone ha hp hr (hnokey ha hr)) hsafe

/-- What holds in a run without unsafe frames: every packet number that passed is at most the last one. -/
structure MgmtInv (s : MgmtState) : Prop extends MgmtAuthentic s where
  last : ∀ p ∈ s.ipns, p ≤ s.ipnRx

theorem MgmtState.ipns_step_other {s : MgmtState} {e : MgmtRx} (hbip : e.bipFrame = false) :
    (s.step e).ipns = s.ipns := by
  rw [MgmtState.ipns, MgmtState.step]
  dsimp only
  split
  · simp [MgmtState.ipns, List.filter_append, hbip]
  · rfl

theorem MgmtInv.step {s : MgmtState} {e : MgmtRx} (h : MgmtInv s) (hkey : e.sec.binstallBIPkey = true)
    (hsafe : ¬ MgmtUnsafe s e) : MgmtInv (s.step e) := by
  have hccmp : ∀ d ∈ (s.step e).passed, d.RobustUnicast → d.CcmpOk := by
    intro d hd hrobust
    rcases MgmtState.mem_step hd with hd | ⟨rfl,hok⟩
    · exact h.ccmp d hd hrobust
    · exact MgmtRx.ccmpOk_of_passed hkey hsafe hrobust hok
  cases hbip : e.bipFrame with
  | false =>
    have hipns := MgmtState.ipns_step_other (s := s) hbip
    refine ⟨⟨?_,?_,hccmp⟩,?_⟩
    · intro d hd hdbip
      rcases MgmtState.mem_step hd with hd | ⟨rfl,-⟩
      · exact h.bip d hd hdbip
      · rw [hbip] at hdbip
        cases hdbip
    · rw [hipns]
      exact h.increasing
    · rw [hipns, MgmtState.step_other hbip]
      exact h.last
  | true =>
    rcases MgmtState.step_bip (s := s) hkey hbip with ⟨hpassed,hipn⟩ | ⟨p,len,hmme,hright,hle,hpassed,hipn⟩
    · have hipns : (s.step e).ipns = s.ipns := by rw [MgmtState.ipns, hpassed, MgmtState.ipns]
      refine ⟨⟨?_,?_,hccmp⟩,?_⟩
      · rw [hpassed]
        exact h.bip
      · rw [hipns]
        exact h.increasing
      · rw [hipns, hipn]
        exact h.last
    · have hnum := MgmtRx.ipn_of_mme hmme
      have hipns : (s.step e).ipns = s.ipns ++ [mmeIpn e.frame p] := by
        rw [MgmtState.ipns, hpassed, List.filter_append, List.map_append]
        simp [hbip, hnum, MgmtState.ipns]
      have habove : ∀ q ∈ s.ipns, q < mmeIpn e.frame p := by
        intro q hq
        refine lt_of_le_of_ne ((h.last q hq).trans hle) ?_
        intro heq
        refine hsafe (.replay hbip hmme hright (List.ne_nil_of_mem hq) ?_)
        have := h.last q hq
        omega
      refine ⟨⟨?_,?_,hccmp⟩,?_⟩
      · intro d hd hdbip
        rw [hpassed] at hd
        rcases List.mem_append.mp hd with hd | hd
        · exact h.bip d hd hdbip
        · obtain rfl := List.mem_singleton.mp hd
          have hlast : MmeLast d.frame p len := by
            by_contra hlast
            exact hsafe (.misplaced hbip hmme hright hlast)
          exact ⟨p,len,hmme,hlast,hright⟩
      · rw [hipns]
        refine List.pairwise_append.mpr ⟨h.increasing,List.pairwise_singleton _ _,?_⟩
        intro q hq r hr
        rw [List.mem_singleton.mp hr]
        exact habove q hq
      · rw [hipns, hipn]
        intro q hq
        rcases List.mem_append.mp hq with hq | hq
        · exact (habove q hq).le
        · exact (List.mem_singleton.mp hq).le

theorem MgmtInv.init (ipnRx : ℕ) : MgmtInv ⟨ipnRx,[]⟩ where
  bip _ he := absurd he List.not_mem_nil
  increasing := List.Pairwise.nil
  ccmp _ he := absurd he List.not_mem_nil
  last _ hp := absurd hp List.not_mem_nil

/-- In a sequence of management frames without unsafe ones, the group addressed frames that
pass are authentic with increasing packet numbers, and the robust frames to one station
were protected and decrypted. -/
theorem protected_mgmt_frames (ipnRx : ℕ) (es : List MgmtRx) (hkey : ∀ e ∈ es, e.sec.binstallBIPkey = true)
    (hsafe : ∀ past e, past ++ [e] <+: es → ¬ MgmtUnsafe (Run.run MgmtState.step ⟨ipnRx,[]⟩ past) e) :
    ∀ past, past <+: es → MgmtAuthentic (Run.run MgmtState.step ⟨ipnRx,[]⟩ past) := by
  have hrun : ∀ past, past <+: es → MgmtInv (Run.run MgmtState.step ⟨ipnRx,[]⟩ past) := by
    apply Run.prefix_induction
    · exact MgmtInv.init ipnRx
    · intro past e he ih
      rw [Run.run_append]
      exact ih.step (hkey e (he.subset (by simp))) (hsafe past e he)
  exact fun past hpast => (hrun past hpast).toMgmtAuthentic

/-- A station with the group management key 4 -/
def bipSecurity : SecurityPriv :=
  { wpaSecurity with
    dot11wBIPKeyid := 4
    dot11wBIPKey := fun _ => List.replicate 16 5
    binstallBIPkey := true }

/-- A broadcast deauthentication with reason 7 from the access point, and its MME -/
def deauthFrame (ipn : UInt8) (mic : List UInt8) : RecvFrame :=
  { plainFrame 0 0 false with
    buf :=
      { mem := patch ([0xc0, 0, 0, 0] ++ bcAddr ++ apAddr ++ apAddr ++ [0, 0, 7, 0, 76, 16, 4, 0, ipn, 0, 0, 0, 0, 0] ++
          List.replicate 8 0) 36 mic
        data := 0
        tail := 44
        data_le_tail := by decide
        tail_le_end := by rw [length_patch]; rfl }
    attrib := { (plainFrame 0 0 false).attrib with pktLen := 44 } }

/-- The frame with the MIC of the installed key -/
def bipDeauth (ipn : UInt8) : MgmtRx where
  sec := bipSecurity
  stapriv := fun b => if b = apAddr then some ccmpPeer else none
  frame := deauthFrame ipn (bipMic bipSecurity (deauthFrame ipn []) 2 16)

theorem protected_mgmt_frames_two_deauths :
    MgmtAuthentic (Run.run MgmtState.step ⟨0,[]⟩ [bipDeauth 1,bipDeauth 2]) ∧
      (Run.run MgmtState.step ⟨0,[]⟩ [bipDeauth 1,bipDeauth 2]).ipns = [1,2] := by
  refine ⟨?_,by decide +kernel⟩
  apply protected_mgmt_frames 0 [bipDeauth 1,bipDeauth 2] ?_ ?_ _ (List.prefix_refl _)
  · simp only [List.forall_mem_cons, List.not_mem_nil, false_implies, implies_true, and_true]
    exact ⟨rfl,rfl⟩
  · intro past e hpre
    rcases past with _ | ⟨a,_ | ⟨b,past⟩⟩
    · obtain rfl : e = bipDeauth 1 := by simpa using hpre
      rintro (⟨-,-,-,hbefore,-⟩ | ⟨-,hmme,-,hlast⟩ | ⟨hone,-,-,-,-⟩)
      · exact hbefore rfl
      · have h : mmeOf (bipDeauth 1).frame = some (2,16) := by decide +kernel
        cases h.symm.trans hmme
        exact hlast ⟨rfl,rfl⟩
      · exact absurd hone (by decide +kernel)
    · obtain ⟨rfl,rfl⟩ : a = bipDeauth 1 ∧ e = bipDeauth 2 := by simpa using hpre
      have h : mmeOf (bipDeauth 2).frame = some (2,16) := by decide +kernel
      rintro (⟨-,hmme,-,-,hipn⟩ | ⟨-,hmme,-,hlast⟩ | ⟨hone,-,-,-,-⟩)
      · cases h.symm.trans hmme
        exact absurd hipn (by decide +kernel)
      · cases h.symm.trans hmme
        exact hlast ⟨rfl,rfl⟩
      · exact absurd hone (by decide +kernel)
    · simp at hpre

/-- The same deauthentication passes twice. -/
theorem bip_frame_replayed :
    (Run.run MgmtState.step ⟨0,[]⟩ [bipDeauth 1,bipDeauth 1]).ipns = [1,1] ∧
      ¬ MgmtAuthentic (Run.run MgmtState.step ⟨0,[]⟩ [bipDeauth 1,bipDeauth 1]) := by
  have h : (Run.run MgmtState.step ⟨0,[]⟩ [bipDeauth 1,bipDeauth 1]).ipns = [1,1] := by decide +kernel
  refine ⟨h,fun hauth => ?_⟩
  have hinc := hauth.increasing
  rw [h] at hinc
  exact absurd hinc (by decide)

end Rtl8188fu
