import Rtl8188fu.Ieee80211.DelVendorIe
import Rtl8188fu.P2p.GoNego

/-! # The power save schedule of a P2P group

`process_p2p_ps_ie` reads the notice of absence of the group owner, `p2p_ps_wk_hdl` and
`rtl8188f_set_p2p_ps_offload_cmd` hand the schedule to the firmware. `none` is a call that does not
come back, or one that writes outside its buffer or the arrays.
-/
namespace Rtl8188fu
open Bytes

def P2P_MAX_NOA_NUM : ℕ := 2
def P2P_ATTR_NOA : UInt8 := 0x0c

def REG_DUAL_TSF_RST : ℕ := 0x0553
def REG_P2P_CTWIN : ℕ := 0x0572
def REG_NOA_DESC_SEL : ℕ := 0x05cf
def REG_NOA_DESC_DURATION : ℕ := 0x05e0
def REG_NOA_DESC_INTERVAL : ℕ := 0x05e4
def REG_NOA_DESC_START : ℕ := 0x05e8
def REG_NOA_DESC_COUNT : ℕ := 0x05ec

inductive P2pPsMode
  | NONE
  | CTWINDOW
  | NOA
  | MIX
deriving DecidableEq

inductive P2pPsState
  | DISABLE
  | ENABLE
  | SCAN
  | SCAN_DONE
  | ALLSTASLEEP
deriving DecidableEq

/-- `struct P2P_PS_Offload_t`, one byte -/
structure P2pPsOffload where
  offloadEn : Bool
  role : Bool
  ctwindowEn : Bool
  noa0En : Bool
  noa1En : Bool
  allStaSleep : Bool
  discovery : Bool
deriving DecidableEq

def P2pPsOffload.zero : P2pPsOffload := ⟨false,false,false,false,false,false,false⟩

structure NoaDesc where
  count : ℕ
  duration : ℕ
  interval : ℕ
  startTime : ℕ
deriving DecidableEq

/-- An array of `P2P_MAX_NOA_NUM` entries -/
abbrev NoaArray := Fin P2P_MAX_NOA_NUM → ℕ

def NoaArray.get (a : NoaArray) (i : ℕ) : ℕ := if h : i < P2P_MAX_NOA_NUM then a ⟨i,h⟩ else 0
def NoaArray.set (a : NoaArray) (i v : ℕ) : NoaArray := fun j => if j = i then v else a j

/-- What the power save of a group uses of `wifidirect_info`, `pwrctrl_priv` and the HAL data -/
structure P2pPs where
  p2pState : P2pState
  role : P2pRole
  p2pPsMode : P2pPsMode
  p2pPsState : P2pPsState
  noaIndex : ℕ
  ctwindow : ℕ
  oppPs : ℕ
  noaNum : ℕ
  noaCount : NoaArray
  noaDuration : NoaArray
  noaInterval : NoaArray
  noaStartTime : NoaArray
  bFwCurrentInPSMode : Bool
  smartPs : ℕ
  pwrMode : ℕ
  p2pPsOffload : P2pPsOffload

/-- What goes to the device. The command of the offload byte is not in the H2C box. -/
inductive HalWrite
  | write (addr val : ℕ)
  | fwPwrMode (mode : ℕ)
  | fwP2pPsOffload (cmd : P2pPsState) (byte : P2pPsOffload)
deriving DecidableEq

def le32At (p : List UInt8) (i : ℕ) : ℕ := le16At p i + 65536 * le16At p (i + 2)

/-- The 13 bytes of a descriptor -/
def NoaDesc.read (noaAttr : List UInt8) (i : ℕ) : NoaDesc :=
  ⟨(byteAt noaAttr i).toNat,le32At noaAttr (i + 1),le32At noaAttr (i + 5),le32At noaAttr (i + 9)⟩

/-- Entry `i` of the four arrays -/
def P2pPs.noa (s : P2pPs) (i : ℕ) : NoaDesc :=
  ⟨s.noaCount.get i,s.noaDuration.get i,s.noaInterval.get i,s.noaStartTime.get i⟩

def P2pPs.setNoa (s : P2pPs) (i : ℕ) (d : NoaDesc) : P2pPs :=
  { s with
    noaCount := s.noaCount.set i d.count
    noaDuration := s.noaDuration.set i d.duration
    noaInterval := s.noaInterval.set i d.interval
    noaStartTime := s.noaStartTime.set i d.startTime }

def readBytes (p : List UInt8) (i n : ℕ) : List UInt8 := (List.range n).map fun k => byteAt p (i + k)

/-- `rtw_get_p2p_attr_content` with a buffer of `bufSize` bytes. The search has the turns that it
can make without standing still. -/
def rtwGetP2pAttrContent (p2pIe : List UInt8) (p2pIelen : ℕ) (targetAttrId : UInt8) (bufSize : ℕ) :
    Option (Option (List UInt8)) :=
  match rtwGetP2pAttr (p2pIelen + 1) false p2pIe p2pIelen targetAttrId with
  | none => none
  | some (none, _) => some none
  | some (some attrPtr, _) =>
    let attrLen := attrTotal 3 (le16At p2pIe (attrPtr + 1))
    if attrLen = 0 then some none
    -- `attr_len - 3` is an `uint`
    else if attrLen < 3 ∨ bufSize < attrLen - 3 then none
    else some (some (readBytes p2pIe (attrPtr + 3) (attrLen - 3)))

/-- The P2P element that is found from `off` on, with its length -/
def nextP2pIe (ies : List UInt8) (iesLen off : ℕ) : Option (ℕ × ℕ) :=
  if off ≤ iesLen then (rtwGetP2pIe (ies.drop off) (iesLen - off)).map fun r => (off + r.1,r.2) else none

/-- The loop of `process_p2p_ps_ie` over the P2P elements: the content of the first notice -/
def noaSearch (ies : List UInt8) (iesLen : ℕ) : ℕ → Option (ℕ × ℕ) → Option (Option (List UInt8))
  | _, none => some none
  | 0, some _ => none
  | fuel + 1, some (p2pIe, p2pIelen) =>
    match rtwGetP2pAttrContent (ies.drop p2pIe) p2pIelen P2P_ATTR_NOA MAX_P2P_IE_LEN with
    | none => none
    | some (some noaAttr) => some (some noaAttr)
    | some none => noaSearch ies iesLen fuel (nextP2pIe ies iesLen (p2pIe + p2pIelen))

/-- The loop over the descriptors with room for `left` more in the arrays -/
def noaLoop (noaAttr : List UInt8) (attrContentlen : ℕ) : ℕ → ℕ → ℕ → P2pPs → Option (P2pPs × ℕ)
  | 0, noaOffset, noaNum, s => if noaOffset < attrContentlen then none else some (s,noaNum)
  | left + 1, noaOffset, noaNum, s =>
    if noaOffset < attrContentlen then
      noaLoop noaAttr attrContentlen left ((noaOffset + 13) % 256) (noaNum + 1)
        (s.setNoa noaNum (NoaDesc.read noaAttr noaOffset))
    else some (s,noaNum)

/-- What `process_p2p_ps_ie` does with a notice that it takes over; with the command for the queue -/
def takeOver (s : P2pPs) (noaAttr : List UInt8) (attrContentlen : ℕ) : Option (P2pPs × Option P2pPsState) :=
  let s := { s with
    noaIndex := (byteAt noaAttr 0).toNat
    oppPs := (byteAt noaAttr 1).toNat / 128
    ctwindow := (byteAt noaAttr 1).toNat % 128 }
  match if 2 < attrContentlen then noaLoop noaAttr attrContentlen P2P_MAX_NOA_NUM 2 0 s else some (s,0) with
  | none => none
  | some (s, noaNum) =>
    let s := { s with noaNum := noaNum }
    if s.oppPs = 1 then
      some ({ s with p2pPsMode := .CTWINDOW },if s.bFwCurrentInPSMode then some .ENABLE else none)
    else if 0 < s.noaNum then some ({ s with p2pPsMode := .NOA },some .ENABLE)
    else some (s,if s.p2pPsMode ≠ .NONE then some .DISABLE else none)

def beaconNotice (iEs : List UInt8) (iELength : ℕ) : Option (Option (List UInt8)) :=
  let ies := iEs.drop 12
  let iesLen := iELength - 12
  noaSearch ies iesLen (iesLen + 1) (nextP2pIe ies iesLen 0)

def processP2pPsIe (s : P2pPs) (iEs : List UInt8) (iELength : ℕ) : Option (P2pPs × Option P2pPsState) :=
  if s.p2pState = .NONE ∨ iELength ≤ 12 then some (s,none)
  else
    match beaconNotice iEs iELength with
    | none => none
    | some (some content) =>
      -- the rest of the buffer is zero
      let noaAttr := content ++ List.replicate (MAX_P2P_IE_LEN - content.length) 0
      if s.p2pPsMode = .NONE ∨ (byteAt noaAttr 0).toNat ≠ s.noaIndex then takeOver s noaAttr content.length
      else some (s,none)
    | some none =>
      let findP2p := (nextP2pIe (iEs.drop 12) (iELength - 12) 0).isSome
      some (s,if findP2p ∧ s.p2pPsMode ≠ .NONE then some .DISABLE else none)

/-- Whether the p2p circuit is started -/
def P2pPs.started (s : P2pPs) : Prop := s.oppPs = 1 ∨ 0 < s.noaNum

instance (s : P2pPs) : Decidable s.started := inferInstanceAs (Decidable (_ ∨ _))

/-- The offload byte after the `P2P_PS_ENABLE` branch: no branch takes the enable bits away. -/
def P2pPs.enabledOffload (s : P2pPs) : P2pPsOffload :=
  let o := s.p2pPsOffload
  { offloadEn := o.offloadEn || s.started
    role := if s.started then s.role = .GO else o.role
    ctwindowEn := o.ctwindowEn || 0 < s.ctwindow
    noa0En := o.noa0En || 0 < s.noaNum
    noa1En := o.noa1En || 1 < s.noaNum
    allStaSleep := o.allStaSleep && !(s.started ∧ s.role = .GO)
    discovery := o.discovery && !s.started }

/-- The registers that the `P2P_PS_ENABLE` branch writes -/
def P2pPs.enableWrites (s : P2pPs) : List HalWrite :=
  (if 0 < s.ctwindow then [HalWrite.write REG_P2P_CTWIN s.ctwindow] else []) ++
    (List.range s.noaNum).flatMap (fun i =>
      [HalWrite.write REG_NOA_DESC_SEL (i * 16),.write REG_NOA_DESC_DURATION (s.noa i).duration,
        .write REG_NOA_DESC_INTERVAL (s.noa i).interval,.write REG_NOA_DESC_START (s.noa i).startTime,
        .write REG_NOA_DESC_COUNT (s.noa i).count]) ++
    if s.started then [HalWrite.write REG_DUAL_TSF_RST (bit 4)] else []

def rtl8188fSetP2pPsOffloadCmd (s : P2pPs) (cmd : P2pPsState) : P2pPs × List HalWrite :=
  match cmd with
  | .DISABLE => ({ s with p2pPsOffload := .zero },[.fwP2pPsOffload cmd .zero])
  | .ENABLE =>
    ({ s with p2pPsOffload := s.enabledOffload },s.enableWrites ++ [.fwP2pPsOffload cmd s.enabledOffload])
  | .SCAN =>
    let o := { s.p2pPsOffload with discovery := true }
    ({ s with p2pPsOffload := o },[.fwP2pPsOffload cmd o])
  | .SCAN_DONE =>
    let o := { s.p2pPsOffload with discovery := false }
    ({ s with p2pPsOffload := o, p2pPsState := .ENABLE },[.fwP2pPsOffload cmd o])
  | .ALLSTASLEEP => (s,[.fwP2pPsOffload cmd s.p2pPsOffload])

def p2pPsWkHdl (s : P2pPs) (cmd : P2pPsState) : P2pPs × List HalWrite :=
  match cmd with
  | .DISABLE =>
    let r := rtl8188fSetP2pPsOffloadCmd { s with p2pPsState := .DISABLE } .DISABLE
    let t : P2pPs := { r.1 with noaIndex := 0, ctwindow := 0, oppPs := 0, noaNum := 0, p2pPsMode := .NONE }
    if s.bFwCurrentInPSMode ∧ s.smartPs = 0 then ({ t with smartPs := 2 },r.2 ++ [.fwPwrMode s.pwrMode])
    else (t,r.2)
  | .ENABLE =>
    if s.p2pPsMode = .NONE then (s,[])
    else if 0 < s.ctwindow ∧ s.smartPs ≠ 0 then
      let r := rtl8188fSetP2pPsOffloadCmd { s with p2pPsState := .ENABLE, smartPs := 0 } .ENABLE
      (r.1,.fwPwrMode s.pwrMode :: r.2)
    else rtl8188fSetP2pPsOffloadCmd { s with p2pPsState := .ENABLE } .ENABLE
  | .SCAN | .SCAN_DONE | .ALLSTASLEEP =>
    if s.p2pPsMode = .NONE then (s,[]) else rtl8188fSetP2pPsOffloadCmd { s with p2pPsState := cmd } cmd

/-- `p2p_ps_wk_cmd` with `enqueue`, and the command thread with what was queued; `queued` when the
command gets into the queue -/
def p2pPsWkCmd (s : P2pPs) (cmd : Option P2pPsState) (queued : Bool) : P2pPs × List HalWrite :=
  match cmd with
  | none => (s,[])
  | some cmd => if s.p2pState = .NONE ∨ queued = false then (s,[]) else p2pPsWkHdl s cmd

section Search
variable {ies : List UInt8} {iesLen off n : ℕ} {p2pIe : List UInt8} {p2pIelen : ℕ} {e f : ℕ × ℕ}
  {attrId : UInt8}

theorem getVendorIeLoop_some {oui inIe : List UInt8} {inLen fuel cnt : ℕ}
    (h : getVendorIeLoop oui inIe inLen fuel cnt = some e) :
    e.1 + 5 < inLen ∧ byteAt inIe e.1 = 0xdd ∧ slice inIe (e.1 + 2) 4 = oui ∧ 2 ≤ e.2 ∧ e.2 < 258 := by
  induction fuel generalizing cnt with
  | zero => cases h
  | succ fuel ih =>
    rw [getVendorIeLoop] at h
    split at h
    · split at h
      · cases h
      · split at h
        · rename_i hlen _ hvendor
          cases h
          have hbyte := byteAt_lt inIe (cnt + 1)
          exact ⟨hlen,hvendor.1,hvendor.2,Nat.le_add_left _ _,by omega⟩
        · exact ih h
    · cases h

/-- A P2P element that the loop stands at -/
structure IsP2pIe (ies : List UInt8) (iesLen : ℕ) (e : ℕ × ℕ) : Prop where
  place_lt : e.1 + 5 < iesLen
  vendor : byteAt (ies.drop e.1) 0 = 0xdd
  oui : slice (ies.drop e.1) 2 4 = P2P_OUI
  two_le : 2 ≤ e.2
  lt : e.2 < 258

theorem nextP2pIe_some (h : nextP2pIe ies iesLen off = some e) : off ≤ e.1 ∧ IsP2pIe ies iesLen e := by
  rw [nextP2pIe] at h
  split at h
  · rename_i hoff
    obtain ⟨r,hr,rfl⟩ := Option.map_eq_some_iff.mp h
    rw [rtwGetP2pIe, getVendorIe] at hr
    split at hr
    · cases hr
    · obtain ⟨hplace,hid,houi,h2,hlt⟩ := getVendorIeLoop_some hr
      refine ⟨Nat.le_add_right _ _,by dsimp only; omega,?_,?_,h2,hlt⟩
      · rwa [byteAt_drop, Nat.add_zero, ← byteAt_drop]
      · rw [slice, List.drop_drop] at houi ⊢
        rwa [Nat.add_assoc]
  · cases h

/-- The place of the attribute that a turn of the loop over a P2P element looks at -/
def AttrAt (p2pIe : List UInt8) (p2pIelen a : ℕ) : Prop :=
  Walker.Passed (fun a => a + attrTotal 3 (le16At p2pIe (a + 1)))
    (fun a => (a + 3 ≤ p2pIelen ∧ a + attrTotal 3 (le16At p2pIe (a + 1)) ≤ p2pIelen) ∧
      byteAt p2pIe a ≠ P2P_ATTR_NOA) 6 a ∧
    a + 3 ≤ p2pIelen ∧ a + attrTotal 3 (le16At p2pIe (a + 1)) ≤ p2pIelen

/-- No attribute before the notice announces 65533 bytes, and the notice neither 65534 nor 65535. -/
def NoticeReads (p2pIe : List UInt8) (p2pIelen : ℕ) : Prop :=
  6 < p2pIelen → ∀ a, AttrAt p2pIe p2pIelen a →
    if byteAt p2pIe a = P2P_ATTR_NOA then le16At p2pIe (a + 1) < 65534 else le16At p2pIe (a + 1) ≠ 65533

abbrev noaWalker (p2pIe : List UInt8) (p2pIelen : ℕ) : Walker := attrWalker le16At false p2pIe p2pIelen P2P_ATTR_NOA

theorem attrAt_iff_reach {a : ℕ} : AttrAt p2pIe p2pIelen a ↔
    (noaWalker p2pIe p2pIelen).Reach 6 a ∧ a + 3 ≤ p2pIelen ∧
    a + attrTotal 3 (le16At p2pIe (a + 1)) ≤ p2pIelen := by
  rw [AttrAt, Walker.reach_iff_passed attrWalker_goOn]

theorem rtwGetP2pAttr_eq_run (h6 : 6 < p2pIelen) (h0 : byteAt p2pIe 0 = 0xdd) (houi : slice p2pIe 2 4 = P2P_OUI)
    (fuel : ℕ) : rtwGetP2pAttr fuel false p2pIe p2pIelen P2P_ATTR_NOA =
      ((noaWalker p2pIe p2pIelen).run fuel 6).map fun r => (r.1,0 :: List.range' 2 4 ++ r.2) := by
  rw [rtwGetP2pAttr, getAttr, if_neg (Nat.not_le.mpr h6), vendorAttr, if_neg (not_not_intro h0),
    if_neg (not_not_intro houi)]

/-- Whether the notice of an element can be read without leaving the buffer, and without a walk
that never ends -/
theorem noa_content_eq_none_iff (h0 : byteAt p2pIe 0 = 0xdd) (houi : slice p2pIe 2 4 = P2P_OUI)
    (hlen : p2pIelen < 258) :
    rtwGetP2pAttrContent p2pIe p2pIelen P2P_ATTR_NOA MAX_P2P_IE_LEN = none ↔ ¬NoticeReads p2pIe p2pIelen := by
  by_cases h6 : 6 < p2pIelen
  · have hstuck := @Walker.run_eq_none_iff (noaWalker p2pIe p2pIelen) 6 (p2pIelen + 1) p2pIelen
      (fun b c hc => by have := (attrWalker_goOn b c).mp hc; omega) (Nat.succ_pos _) (by omega)
    rw [rtwGetP2pAttrContent, rtwGetP2pAttr_eq_run h6 h0 houi]
    cases hrun : (noaWalker p2pIe p2pIelen).run (p2pIelen + 1) 6 with
    | none =>
      refine iff_of_true rfl ?_
      obtain ⟨b,hb,hgo⟩ := hstuck.mp hrun
      obtain ⟨⟨⟨h3,hin⟩,hid⟩,hnext⟩ := (attrWalker_goOn b b).mp hgo
      intro hreads
      have hne := hreads h6 b (attrAt_iff_reach.mpr ⟨hb,h3,hin⟩)
      rw [if_neg hid] at hne
      have := (attrTotal_eq_zero_iff (show 0 < 3 by decide) (by decide) (le16At_lt p2pIe (b + 1))).mp (by omega)
      omega
    | some r =>
      have hreach : ∀ a, AttrAt p2pIe p2pIelen a → byteAt p2pIe a = P2P_ATTR_NOA → r.1 = some a := by
        intro a ha hid
        obtain ⟨ha,h3,hin⟩ := attrAt_iff_reach.mp ha
        exact (ha.finds (.of_hit ((attrWalker_hit a).mpr ⟨⟨h3,hin⟩,hid⟩))).eq hrun
      have hmoves : ∀ a, AttrAt p2pIe p2pIelen a → byteAt p2pIe a ≠ P2P_ATTR_NOA →
          le16At p2pIe (a + 1) ≠ 65533 := by
        intro a ha hid hstays
        obtain ⟨ha,h3,hin⟩ := attrAt_iff_reach.mp ha
        have hgo : (noaWalker p2pIe p2pIelen).turn a = .goOn _ :=
          (attrWalker_goOn a _).mpr ⟨⟨⟨h3,hin⟩,hid⟩,rfl⟩
        rw [hstays] at hgo
        rw [hstuck.mpr ⟨a,ha,hgo⟩] at hrun
        cases hrun
      obtain ⟨found,reads⟩ := r
      cases found with
      | none =>
        have hother : ∀ a, AttrAt p2pIe p2pIelen a → byteAt p2pIe a ≠ P2P_ATTR_NOA := by
          intro a ha hid
          cases hreach a ha hid
        refine iff_of_false (Option.some_ne_none _) (not_not_intro fun _ a ha => ?_)
        rw [if_neg (hother a ha)]
        exact hmoves a ha (hother a ha)
      | some p =>
        obtain ⟨hp,hhit⟩ := Walker.hit_of_run hrun rfl
        obtain ⟨⟨h3,hin⟩,hid⟩ := (attrWalker_hit p).mp hhit
        have hpAt := attrAt_iff_reach.mpr ⟨hp,h3,hin⟩
        have hlen16 := le16At_lt p2pIe (p + 1)
        have hreads : NoticeReads p2pIe p2pIelen ↔ le16At p2pIe (p + 1) < 65534 := by
          constructor
          · intro h
            have := h h6 p hpAt
            rwa [if_pos hid] at this
          · intro h _ a ha
            split
            · rename_i hida
              cases hreach a ha hida
              exact h
            · rename_i hida
              exact hmoves a ha hida
        rw [hreads]
        dsimp only [Option.map_some]
        have htotal : attrTotal 3 (le16At p2pIe (p + 1)) < 3 ↔ 65533 ≤ le16At p2pIe (p + 1) := by
          rw [attrTotal]
          omega
        have hzero := attrTotal_eq_zero_iff (show 0 < 3 by decide) (by decide) hlen16
        have hbuf : ¬MAX_P2P_IE_LEN < attrTotal 3 (le16At p2pIe (p + 1)) - 3 := by
          rw [MAX_P2P_IE_LEN]
          omega
        split
        · refine iff_of_false (Option.some_ne_none _) ?_
          omega
        · split
          · refine iff_of_true rfl ?_
            omega
          · refine iff_of_false (Option.some_ne_none _) ?_
            omega
  · have hnone : rtwGetP2pAttrContent p2pIe p2pIelen P2P_ATTR_NOA MAX_P2P_IE_LEN = some none := by
      rw [rtwGetP2pAttrContent, rtwGetP2pAttr, getAttr, if_pos (Nat.le_of_not_lt h6)]
    rw [hnone]
    exact iff_of_false (Option.some_ne_none _) (not_not_intro fun h => absurd h h6)

/-- The P2P elements whose attributes are looked at: each one behind the last one, as long as no
notice is found -/
inductive Tried (ies : List UInt8) (iesLen : ℕ) (e : ℕ × ℕ) : ℕ × ℕ → Prop where
  | here : Tried ies iesLen e e
  | behind {f g : ℕ × ℕ} (h : Tried ies iesLen e f)
      (habsent : rtwGetP2pAttrContent (ies.drop f.1) f.2 P2P_ATTR_NOA MAX_P2P_IE_LEN = some none)
      (hnext : nextP2pIe ies iesLen (f.1 + f.2) = some g) : Tried ies iesLen e g

theorem Tried.head {g : ℕ × ℕ}
    (habsent : rtwGetP2pAttrContent (ies.drop e.1) e.2 P2P_ATTR_NOA MAX_P2P_IE_LEN = some none)
    (hnext : nextP2pIe ies iesLen (e.1 + e.2) = some f) (h : Tried ies iesLen f g) : Tried ies iesLen e g := by
  induction h with
  | here => exact .behind .here habsent hnext
  | behind _ ha hn ih => exact .behind ih ha hn

theorem Tried.cases_head (h : Tried ies iesLen e f) : e = f ∨ ∃ g,
    rtwGetP2pAttrContent (ies.drop e.1) e.2 P2P_ATTR_NOA MAX_P2P_IE_LEN = some none ∧
      nextP2pIe ies iesLen (e.1 + e.2) = some g ∧ Tried ies iesLen g f := by
  induction h with
  | here => exact .inl rfl
  | behind _ ha hn ih =>
    rcases ih with rfl | ⟨g,hg,hng,htried⟩
    · exact .inr ⟨_,ha,hn,.here⟩
    · exact .inr ⟨g,hg,hng,.behind htried ha hn⟩

/-- The loop over the elements fails in one of those that it tries. -/
theorem noaSearch_eq_none_iff {fuel : ℕ} (hfuel : iesLen < e.1 + fuel) (he : IsP2pIe ies iesLen e) :
    noaSearch ies iesLen fuel (some e) = none ↔ ∃ f, Tried ies iesLen e f ∧ ¬NoticeReads (ies.drop f.1) f.2 := by
  induction fuel generalizing e with
  | zero => exact absurd he.place_lt (by omega)
  | succ fuel ih =>
    have hcontent := noa_content_eq_none_iff he.vendor he.oui he.lt
    obtain ⟨place,len⟩ := e
    rw [noaSearch]
    cases hget : rtwGetP2pAttrContent (ies.drop place) len P2P_ATTR_NOA MAX_P2P_IE_LEN with
    | none => exact iff_of_true rfl ⟨(place,len),.here,hcontent.mp hget⟩
    | some found =>
      have hgood : NoticeReads (ies.drop place) len := by
        by_contra h
        rw [hcontent.mpr h] at hget
        cases hget
      cases found with
      | some noaAttr =>
        refine iff_of_false nofun ?_
        rintro ⟨f,hf,hbad⟩
        rcases hf.cases_head with rfl | ⟨g,hg,-⟩
        · exact hbad hgood
        · rw [hget] at hg
          cases hg
      | none =>
        cases hnext : nextP2pIe ies iesLen (place + len) with
        | none =>
          rw [noaSearch]
          refine iff_of_false nofun ?_
          rintro ⟨f,hf,hbad⟩
          rcases hf.cases_head with rfl | ⟨g,-,hg,-⟩
          · exact hbad hgood
          · rw [hnext] at hg
            cases hg
        | some g =>
          obtain ⟨hle,hg⟩ := nextP2pIe_some hnext
          have h2 := he.two_le
          dsimp only at h2 hfuel ⊢
          rw [ih (by omega) hg]
          constructor
          · rintro ⟨f,hf,hbad⟩
            exact ⟨f,hf.head hget hnext,hbad⟩
          · rintro ⟨f,hf,hbad⟩
            rcases hf.cases_head with rfl | ⟨g',-,hg',htried⟩
            · exact absurd hgood hbad
            · rw [hnext] at hg'
              cases hg'
              exact ⟨f,htried,hbad⟩

/-- Every P2P element of the beacon that is tried can be read. -/
def BeaconReads (iEs : List UInt8) (iELength : ℕ) : Prop :=
  ∀ e f, nextP2pIe (iEs.drop 12) (iELength - 12) 0 = some e → Tried (iEs.drop 12) (iELength - 12) e f →
    NoticeReads ((iEs.drop 12).drop f.1) f.2

theorem beaconNotice_eq_none_iff {iEs : List UInt8} {iELength : ℕ} :
    beaconNotice iEs iELength = none ↔ ¬BeaconReads iEs iELength := by
  rw [beaconNotice, BeaconReads]
  cases hfirst : nextP2pIe (iEs.drop 12) (iELength - 12) 0 with
  | none => simp [noaSearch]
  | some e =>
    rw [noaSearch_eq_none_iff (by omega) (nextP2pIe_some hfirst).2]
    constructor
    · rintro ⟨f,hf,hbad⟩ h
      exact hbad (h e f rfl hf)
    · intro h
      by_contra hno
      refine h ?_
      rintro _ f ⟨⟩ hf
      by_contra hbad
      exact hno ⟨f,hf,hbad⟩

end Search

section Loop
variable {noaAttr : List UInt8} {len left num : ℕ} {s t : P2pPs} {cmd : Option P2pPsState}

theorem NoaArray.get_set (a : NoaArray) {i : ℕ} (hi : i < P2P_MAX_NOA_NUM) (v j : ℕ) :
    (a.set i v).get j = if j = i then v else a.get j := by
  rw [NoaArray.get, NoaArray.get]
  split
  · rfl
  · rename_i hj
    rw [if_neg]
    rintro rfl
    exact hj hi

theorem noa_setNoa {i : ℕ} (hi : i < P2P_MAX_NOA_NUM) (d : NoaDesc) (j : ℕ) :
    (s.setNoa i d).noa j = if j = i then d else s.noa j := by
  simp only [P2pPs.noa, P2pPs.setNoa, NoaArray.get_set _ hi]
  split <;> rfl

/-- The arrays of `t` hold the descriptors that begin in the first `len` bytes, and nothing else
is changed. -/
structure Stored (s : P2pPs) (noaAttr : List UInt8) (len : ℕ) (t : P2pPs) (n : ℕ) : Prop where
  count : n = (len + 10) / 13
  noa : ∀ i < n, t.noa i = NoaDesc.read noaAttr (2 + 13 * i)
  rest : ∃ c d v st, t = { s with noaCount := c, noaDuration := d, noaInterval := v, noaStartTime := st }

/-- What the loop over the descriptors may give: it leaves the arrays exactly when a third one begins. -/
def LoopResult (s : P2pPs) (noaAttr : List UInt8) (len : ℕ) : Option (P2pPs × ℕ) → Prop
  | none => 28 < len
  | some (t, n) => len ≤ 28 ∧ Stored s noaAttr len t n

theorem LoopResult.setNoa {d : NoaDesc} {r : Option (P2pPs × ℕ)} (h : LoopResult (s.setNoa num d) noaAttr len r) :
    LoopResult s noaAttr len r := by
  match r, h with
  | none, h => exact h
  | some (t,n), ⟨hle,hcount,hnoa,c,d,v,st,hrest⟩ => exact ⟨hle,hcount,hnoa,c,d,v,st,hrest⟩

theorem noaLoop_result (hroom : num + left = 2) (hlen : 13 * num < len + 11)
    (hnoa : ∀ i < num, s.noa i = NoaDesc.read noaAttr (2 + 13 * i)) :
    LoopResult s noaAttr len (noaLoop noaAttr len left (2 + 13 * num) num s) := by
  induction left generalizing num s with
  | zero =>
    obtain rfl : num = 2 := hroom
    rw [noaLoop]
    by_cases hmore : 28 < len
    · rw [if_pos hmore]
      exact hmore
    · rw [if_neg hmore]
      exact ⟨by omega,by omega,hnoa,_,_,_,_,rfl⟩
  | succ left ih =>
    have hnum : num < 2 := by omega
    rw [noaLoop]
    by_cases hmore : 2 + 13 * num < len
    · rw [if_pos hmore, show (2 + 13 * num + 13) % 256 = 2 + 13 * (num + 1) by omega]
      apply LoopResult.setNoa
      apply ih (by omega) (by omega)
      intro i hi
      rw [noa_setNoa hnum]
      split
      · rename_i heq
        rw [heq]
      · exact hnoa i (by omega)
    · rw [if_neg hmore]
      exact ⟨by omega,by omega,hnoa,_,_,_,_,rfl⟩

/-- What `takeOver` makes of the state, and the command that it asks for -/
structure Took (s : P2pPs) (noaAttr : List UInt8) (len : ℕ) (t : P2pPs) (cmd : Option P2pPsState) : Prop where
  noaNum : t.noaNum = (len + 10) / 13
  noa : ∀ i < t.noaNum, t.noa i = NoaDesc.read noaAttr (2 + 13 * i)
  oppPs : t.oppPs = (byteAt noaAttr 1).toNat / 128
  ctwindow : t.ctwindow = (byteAt noaAttr 1).toNat % 128
  p2pState : t.p2pState = s.p2pState
  offload : t.p2pPsOffload = s.p2pPsOffload
  mode : t.p2pPsMode = if t.oppPs = 1 then .CTWINDOW else if 0 < t.noaNum then .NOA else s.p2pPsMode
  cmd_eq : cmd = if t.oppPs = 1 then if s.bFwCurrentInPSMode then some .ENABLE else none
    else if 0 < t.noaNum then some .ENABLE else if s.p2pPsMode ≠ .NONE then some .DISABLE else none

/-- What `takeOver` may give -/
def TakeResult (s : P2pPs) (noaAttr : List UInt8) (len : ℕ) : Option (P2pPs × Option P2pPsState) → Prop
  | none => 28 < len
  | some (t, cmd) => len ≤ 28 ∧ Took s noaAttr len t cmd

theorem takeOver_result : TakeResult s noaAttr len (takeOver s noaAttr len) := by
  let s' : P2pPs := { s with
    noaIndex := (byteAt noaAttr 0).toNat
    oppPs := (byteAt noaAttr 1).toNat / 128
    ctwindow := (byteAt noaAttr 1).toNat % 128 }
  have hloop : LoopResult s' noaAttr len
      (if 2 < len then noaLoop noaAttr len P2P_MAX_NOA_NUM 2 0 s' else some (s',0)) := by
    split
    · exact noaLoop_result (Nat.zero_add _) (Nat.zero_lt_succ _) nofun
    · rename_i hshort
      exact ⟨by omega,by omega,nofun,_,_,_,_,rfl⟩
  rw [takeOver]
  change TakeResult s noaAttr len (match if 2 < len then noaLoop noaAttr len P2P_MAX_NOA_NUM 2 0 s'
    else some (s',0) with
    | none => none
    | some (s, noaNum) => _)
  generalize (if 2 < len then noaLoop noaAttr len P2P_MAX_NOA_NUM 2 0 s' else some (s',0)) = r at hloop
  match r, hloop with
  | none, h => exact h
  | some (t,n), ⟨hle,hcount,hnoa,c,d,v,st,hrest⟩ =>
    subst hrest
    dsimp only
    by_cases hopp : (byteAt noaAttr 1).toNat / 128 = 1
    · rw [if_pos hopp]
      exact ⟨hle,hcount,hnoa,rfl,rfl,rfl,rfl,(if_pos hopp).symm,(if_pos hopp).symm⟩
    · rw [if_neg hopp]
      by_cases hn : 0 < n
      · rw [if_pos hn]
        exact ⟨hle,hcount,hnoa,rfl,rfl,rfl,rfl,((if_neg hopp).trans (if_pos hn)).symm,((if_neg hopp).trans
          (if_pos hn)).symm⟩
      · rw [if_neg hn]
        exact ⟨hle,hcount,hnoa,rfl,rfl,rfl,rfl,((if_neg hopp).trans (if_neg hn)).symm,((if_neg hopp).trans
          (if_neg hn)).symm⟩

def noaDescs (noaAttr : List UInt8) : List NoaDesc :=
  (List.range ((noaAttr.length - 2) / 13)).map fun k => NoaDesc.read noaAttr (2 + 13 * k)

/-- The first `noa_num` entries of the arrays -/
def P2pPs.noas (s : P2pPs) : List NoaDesc := (List.range s.noaNum).map s.noa

/-- The schedule is the one of the notice. -/
structure Encodes (noaAttr : List UInt8) (s : P2pPs) : Prop where
  oppPs : s.oppPs = (byteAt noaAttr 1).toNat / 128
  ctwindow : s.ctwindow = (byteAt noaAttr 1).toNat % 128
  noas : s.noas = noaDescs noaAttr

/-- The notice has no rest that is less than a descriptor. -/
def WholeDescs (noaAttr : List UInt8) : Prop :=
  noaAttr.length ≤ 2 ∨ noaAttr.length = 15 ∨ noaAttr.length = 28

theorem NoaDesc.read_congr {p q : List UInt8} (h : ∀ i, byteAt p i = byteAt q i) (i : ℕ) :
    NoaDesc.read p i = NoaDesc.read q i := by
  simp only [NoaDesc.read, le32At, le16At, h]

theorem byteAt_append_zeros (p : List UInt8) (n i : ℕ) : byteAt (p ++ List.replicate n 0) i = byteAt p i := by
  rw [byteAt_append]
  split
  · rfl
  · rename_i hi
    rw [byteAt, byteAt, List.getD_eq_default _ _ (Nat.le_of_not_lt hi),
      List.getD_eq_getElem?_getD, List.getElem?_replicate]
    split <;> rfl

theorem Took.encodes_iff {n : ℕ} (h : Took s (noaAttr ++ List.replicate n 0) noaAttr.length t cmd)
    (hlen : noaAttr.length ≤ 28) : Encodes noaAttr t ↔ WholeDescs noaAttr := by
  have hbytes := byteAt_append_zeros noaAttr n
  constructor
  · intro henc
    have hcount := congrArg List.length henc.noas
    rw [P2pPs.noas, noaDescs, List.length_map, List.length_map, List.length_range, List.length_range,
      h.noaNum] at hcount
    rw [WholeDescs]
    omega
  · intro hwhole
    have hcount : (noaAttr.length - 2) / 13 = t.noaNum := by
      rw [WholeDescs] at hwhole
      rw [h.noaNum]
      omega
    refine ⟨h.oppPs.trans (by rw [hbytes]),h.ctwindow.trans (by rw [hbytes]),?_⟩
    rw [P2pPs.noas, noaDescs, hcount]
    apply List.map_congr_left
    intro i hi
    rw [h.noa i (List.mem_range.mp hi)]
    exact NoaDesc.read_congr hbytes _

end Loop

end Rtl8188fu
