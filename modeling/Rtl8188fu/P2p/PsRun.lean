import Rtl8188fu.Library.PartialRun
import Rtl8188fu.P2p.PsSchedule

/-! # Runs of beacons

The schedule of a P2P group over any sequence of beacons, with the command of each beacon run
before the next one. Between them the other code may change the power save state of the station.
-/
namespace Rtl8188fu

inductive PsEvent
  | beacon (iEs : List UInt8) (iELength : ℕ) (queued : Bool)
  | power (bFwCurrentInPSMode : Bool) (smartPs pwrMode : ℕ)

/-- The driver, the notice it took over last, and what the last event sent to the device -/
structure PsRun where
  drv : P2pPs
  lastNoa : List UInt8
  sent : List HalWrite

/-- The notice of a beacon that is taken over -/
def newNotice (s : P2pPs) (iEs : List UInt8) (iELength : ℕ) : Option (List UInt8) :=
  ((beaconNotice iEs iELength).getD none).filter fun noaAttr =>
    s.p2pPsMode = .NONE ∨ (byteAt noaAttr 0).toNat ≠ s.noaIndex

def PsRun.step (r : PsRun) : PsEvent → Option PsRun
  | .beacon iEs iELength queued =>
    (processP2pPsIe r.drv iEs iELength).map fun p =>
      let w := p2pPsWkCmd p.1 p.2 queued
      let seen := if r.drv.p2pState = .NONE ∨ iELength ≤ 12 then none else newNotice r.drv iEs iELength
      { drv := w.1, lastNoa := seen.getD r.lastNoa, sent := w.2 }
  | .power fw sp mode =>
    some { r with drv := { r.drv with bFwCurrentInPSMode := fw, smartPs := sp, pwrMode := mode }, sent := [] }

/-- The enable bits of the offload byte are those that the schedule needs. -/
structure Announces (s : P2pPs) (o : P2pPsOffload) : Prop where
  ctwindowEn : o.ctwindowEn = true ↔ 0 < s.ctwindow
  noa0En : o.noa0En = true ↔ 0 < s.noaNum
  noa1En : o.noa1En = true ↔ 1 < s.noaNum

structure PsGood (r : PsRun) : Prop where
  noaNum_le : r.drv.noaNum ≤ P2P_MAX_NOA_NUM
  follows : r.drv.p2pPsMode ≠ .NONE → Encodes r.lastNoa r.drv
  announces : ∀ o, .fwP2pPsOffload .ENABLE o ∈ r.sent → Announces r.drv o

/-- The offload byte has no enable bit that the notice does not need. -/
structure Covered (o : P2pPsOffload) (noaAttr : List UInt8) : Prop where
  ctwindowEn : o.ctwindowEn = true → (byteAt noaAttr 1).toNat % 128 ≠ 0
  noa0En : o.noa0En = true → 1 ≤ (noaDescs noaAttr).length
  noa1En : o.noa1En = true → 2 ≤ (noaDescs noaAttr).length

/-- The notice makes the driver enable the schedule at once. -/
def EnablesAtOnce (s : P2pPs) (noaAttr : List UInt8) (queued : Bool) : Prop :=
  queued = true ∧
    if (byteAt noaAttr 1).toNat / 128 = 1 then s.bFwCurrentInPSMode = true else noaDescs noaAttr ≠ []

/-- A beacon that the driver treats as it should: its elements can be read, a notice that is taken
over has whole descriptors, two at the most, and what the offload byte has already is needed. -/
def PsEvent.Fits (r : PsRun) : PsEvent → Prop
  | .beacon iEs iELength queued =>
    r.drv.p2pState = .NONE ∨ iELength ≤ 12 ∨
      BeaconReads iEs iELength ∧ ∀ noaAttr, newNotice r.drv iEs iELength = some noaAttr →
        WholeDescs noaAttr ∧ (EnablesAtOnce r.drv noaAttr queued → Covered r.drv.p2pPsOffload noaAttr)
  | .power .. => True

section Step
variable {s t : P2pPs} {cmd : Option P2pPsState} {last noaAttr : List UInt8} {queued : Bool}

/-- A schedule that is not enabled at once leaves nothing for the firmware to be told wrongly. -/
theorem PsGood.of_silent (hnum : s.noaNum ≤ P2P_MAX_NOA_NUM) (hfollows : s.p2pPsMode ≠ .NONE → Encodes last s) :
    PsGood ⟨s,last,[]⟩ := ⟨hnum,hfollows,nofun⟩

theorem p2pPsWkHdl_disable (s : P2pPs) :
    (p2pPsWkHdl s .DISABLE).1.p2pPsMode = .NONE ∧ (p2pPsWkHdl s .DISABLE).1.noaNum = 0 ∧
      ∀ o, .fwP2pPsOffload .ENABLE o ∉ (p2pPsWkHdl s .DISABLE).2 := by
  dsimp only [p2pPsWkHdl, rtl8188fSetP2pPsOffloadCmd]
  by_cases h : s.bFwCurrentInPSMode ∧ s.smartPs = 0
  · rw [if_pos h]
    exact ⟨rfl,rfl,by simp⟩
  · rw [if_neg h]
    exact ⟨rfl,rfl,by simp⟩

/-- The `P2P_PS_ENABLE` branch writes registers and nothing else. -/
theorem P2pPs.isWrite_of_mem {w : HalWrite} (h : w ∈ s.enableWrites) : ∃ addr val, w = .write addr val := by
  simp only [P2pPs.enableWrites, List.mem_append, List.mem_flatMap] at h
  rcases h with (h | ⟨i,-,h⟩) | h
  · split at h
    · exact ⟨_,_,List.mem_singleton.mp h⟩
    · cases h
  · simp only [List.mem_cons, List.not_mem_nil, or_false] at h
    rcases h with rfl | rfl | rfl | rfl | rfl <;> exact ⟨_,_,rfl⟩
  · split at h
    · exact ⟨_,_,List.mem_singleton.mp h⟩
    · cases h

theorem not_mem_enableWrites (s : P2pPs) (c : P2pPsState) (o : P2pPsOffload) :
    .fwP2pPsOffload c o ∉ s.enableWrites := by
  intro h
  obtain ⟨addr,val,hw⟩ := s.isWrite_of_mem h
  cases hw

/-- What an enable command does to a schedule that is in force -/
theorem p2pPsWkHdl_enable (h : s.p2pPsMode ≠ .NONE) :
    (∃ smartPs, (p2pPsWkHdl s .ENABLE).1 =
      { s with p2pPsState := .ENABLE, smartPs := smartPs, p2pPsOffload := s.enabledOffload }) ∧
    ∀ o, .fwP2pPsOffload .ENABLE o ∈ (p2pPsWkHdl s .ENABLE).2 ↔ o = s.enabledOffload := by
  dsimp only [p2pPsWkHdl, rtl8188fSetP2pPsOffloadCmd]
  rw [if_neg h]
  by_cases hctw : 0 < s.ctwindow ∧ s.smartPs ≠ 0
  · rw [if_pos hctw]
    refine ⟨⟨_,rfl⟩,fun o => ?_⟩
    rw [List.mem_cons, List.mem_append, or_iff_right nofun, or_iff_right (not_mem_enableWrites _ _ _),
      List.mem_singleton]
    exact ⟨fun h => by cases h; rfl,fun h => by rw [h]; rfl⟩
  · rw [if_neg hctw]
    refine ⟨⟨_,rfl⟩,fun o => ?_⟩
    rw [List.mem_append, or_iff_right (not_mem_enableWrites _ _ _), List.mem_singleton]
    exact ⟨fun h => by cases h; rfl,fun h => by rw [h]; rfl⟩

theorem announces_iff (h : Encodes noaAttr s) :
    Announces s s.enabledOffload ↔ Covered s.p2pPsOffload noaAttr := by
  have hnum : (noaDescs noaAttr).length = s.noaNum := by
    rw [← h.noas, P2pPs.noas, List.length_map, List.length_range]
  have hor : ∀ (b : Bool) (P : Prop) [Decidable P], ((b || decide P) = true ↔ P) ↔ (b = true → P) := by
    intro b P _
    cases b <;> simp
  constructor
  · rintro ⟨hc,h0,h1⟩
    refine ⟨?_,?_,?_⟩
    · rw [← h.ctwindow]
      exact fun hb => Nat.pos_iff_ne_zero.mp ((hor _ _).mp hc hb)
    · rw [hnum]
      exact (hor _ _).mp h0
    · rw [hnum]
      exact (hor _ _).mp h1
  · rintro ⟨hc,h0,h1⟩
    rw [← h.ctwindow] at hc
    rw [hnum] at h0 h1
    exact ⟨(hor _ _).mpr fun hb => Nat.pos_iff_ne_zero.mpr (hc hb),(hor _ _).mpr h0,(hor _ _).mpr h1⟩

section Took
variable {n : ℕ} (h : Took s (noaAttr ++ List.replicate n 0) noaAttr.length t cmd) (hlen : noaAttr.length ≤ 28)
include h

theorem Took.whole_of_noaNum (hnum : t.noaNum = 0) : WholeDescs noaAttr := by
  rw [h.noaNum] at hnum
  exact .inl (by omega)

theorem Took.mode_ne_none (hnum : t.oppPs = 1 ∨ 0 < t.noaNum) : t.p2pPsMode ≠ .NONE := by
  rw [h.mode]
  split
  · exact nofun
  · rename_i hopp
    rw [if_pos (hnum.resolve_left hopp)]
    exact nofun

/-- The command of a notice, and when it is the enabling one -/
theorem Took.cmd_cases :
    (cmd = some .ENABLE ∧ t.p2pPsMode ≠ .NONE) ∨ (cmd = some .DISABLE ∧ t.noaNum = 0) ∨ cmd = none := by
  rw [h.cmd_eq]
  by_cases hopp : t.oppPs = 1
  · rw [if_pos hopp]
    split
    · exact .inl ⟨rfl,h.mode_ne_none (.inl hopp)⟩
    · exact .inr (.inr rfl)
  · rw [if_neg hopp]
    by_cases hnum : 0 < t.noaNum
    · rw [if_pos hnum]
      exact .inl ⟨rfl,h.mode_ne_none (.inr hnum)⟩
    · rw [if_neg hnum]
      split
      · exact .inr (.inl ⟨rfl,Nat.eq_zero_of_not_pos hnum⟩)
      · exact .inr (.inr rfl)

include hlen

theorem Took.enablesAtOnce_iff (hwhole : WholeDescs noaAttr) :
    EnablesAtOnce s noaAttr queued ↔ queued = true ∧ cmd = some .ENABLE := by
  have henc := (h.encodes_iff hlen).mpr hwhole
  rw [EnablesAtOnce, ← henc.oppPs, ← henc.noas, P2pPs.noas, ne_eq, List.map_eq_nil_iff, List.range_eq_nil, h.cmd_eq]
  by_cases hopp : t.oppPs = 1
  · simp [hopp]
  · by_cases hnum : 0 < t.noaNum
    · simp [hopp, hnum, Nat.pos_iff_ne_zero.mp hnum]
    · simp [hopp, Nat.eq_zero_of_not_pos hnum]

/-- After a notice was taken over and its command was run, all is well exactly when the notice has
whole descriptors, and needs what is enabled already when it is enabled at once. -/
theorem Took.good_iff (hon : s.p2pState ≠ .NONE) :
    PsGood ⟨(p2pPsWkCmd t cmd queued).1,noaAttr,(p2pPsWkCmd t cmd queued).2⟩ ↔
      WholeDescs noaAttr ∧ (EnablesAtOnce s noaAttr queued → Covered s.p2pPsOffload noaAttr) := by
  have hnum : t.noaNum ≤ P2P_MAX_NOA_NUM := by
    rw [h.noaNum, P2P_MAX_NOA_NUM]
    omega
  have henc := h.encodes_iff hlen
  rw [← h.p2pState] at hon
  by_cases hsilent : cmd = none ∨ queued = false
  · have hcmd : p2pPsWkCmd t cmd queued = (t,[]) := by
      cases hcmd : cmd with
      | none => rfl
      | some c =>
        rw [hcmd] at hsilent
        exact if_pos (.inr (hsilent.resolve_left nofun))
    rw [hcmd]
    constructor
    · intro hgood
      have hwhole : WholeDescs noaAttr := by
        by_cases hzero : t.noaNum = 0
        · exact h.whole_of_noaNum hzero
        · exact henc.mp (hgood.follows (h.mode_ne_none (.inr (Nat.pos_of_ne_zero hzero))))
      refine ⟨hwhole,fun hen => ?_⟩
      obtain ⟨hqueued,hcmd⟩ := (h.enablesAtOnce_iff hlen hwhole).mp hen
      rcases hsilent with hnone | hlost
      · rw [hnone] at hcmd
        cases hcmd
      · rw [hlost] at hqueued
        cases hqueued
    · intro hwhole
      exact .of_silent hnum fun _ => henc.mpr hwhole.1
  · obtain ⟨hsome,hqueued⟩ := not_or.mp hsilent
    rw [Bool.not_eq_false] at hqueued
    rcases h.cmd_cases with ⟨hcmd,hmode⟩ | ⟨hcmd,hzero⟩ | hcmd
    · have hrun : p2pPsWkCmd t cmd queued = p2pPsWkHdl t .ENABLE := by
        rw [hcmd]
        exact if_neg (not_or.mpr ⟨hon,by simp [hqueued]⟩)
      obtain ⟨⟨smartPs,hdrv⟩,hsent⟩ := p2pPsWkHdl_enable hmode
      rw [hrun]
      constructor
      · intro hgood
        have hfollows := hgood.follows
        have hann := hgood.announces _ ((hsent _).mpr rfl)
        dsimp only at hfollows hann
        rw [hdrv] at hfollows hann
        have hnotice : Encodes noaAttr t := ⟨(hfollows hmode).oppPs,(hfollows hmode).ctwindow,(hfollows hmode).noas⟩
        refine ⟨henc.mp hnotice,fun _ => ?_⟩
        rw [← h.offload]
        exact (announces_iff hnotice).mp ⟨hann.ctwindowEn,hann.noa0En,hann.noa1En⟩
      · rintro ⟨hwhole,hcov⟩
        have hnotice := henc.mpr hwhole
        have hann := (announces_iff hnotice).mpr
          (h.offload ▸ hcov ((h.enablesAtOnce_iff hlen hwhole).mpr ⟨hqueued,hcmd⟩))
        refine ⟨?_,?_,?_⟩
        · rw [hdrv]
          exact hnum
        · rw [hdrv]
          exact fun _ => ⟨hnotice.oppPs,hnotice.ctwindow,hnotice.noas⟩
        · intro o ho
          rw [(hsent o).mp ho, hdrv]
          exact ⟨hann.ctwindowEn,hann.noa0En,hann.noa1En⟩
    · have hrun : p2pPsWkCmd t cmd queued = p2pPsWkHdl t .DISABLE := by
        rw [hcmd]
        exact if_neg (not_or.mpr ⟨hon,by simp [hqueued]⟩)
      obtain ⟨hmode,hn,hsent⟩ := p2pPsWkHdl_disable t
      have hwhole := h.whole_of_noaNum hzero
      rw [hrun]
      refine iff_of_true ⟨hn ▸ Nat.zero_le _,fun hne => absurd hmode hne,fun o ho => absurd ho (hsent o)⟩
        ⟨hwhole,?_⟩
      intro hen
      have := ((h.enablesAtOnce_iff hlen hwhole).mp hen).2
      rw [hcmd] at this
      cases this
    · exact absurd hcmd hsome

end Took

theorem p2pPsWkCmd_disable_good (hgood : PsGood ⟨s,last,[]⟩) :
    PsGood ⟨(p2pPsWkCmd s (some .DISABLE) queued).1,last,(p2pPsWkCmd s (some .DISABLE) queued).2⟩ := by
  rw [p2pPsWkCmd]
  split
  · exact hgood
  · obtain ⟨hmode,hn,hsent⟩ := p2pPsWkHdl_disable s
    exact ⟨hn ▸ Nat.zero_le _,fun hne => absurd hmode hne,fun o ho => absurd ho (hsent o)⟩

end Step

/-- One event takes a good state to a good one exactly when it fits. -/
theorem PsRun.step_good_iff (r : PsRun) (e : PsEvent) (hgood : PsGood r) :
    (∃ u, r.step e = some u ∧ PsGood u) ↔ e.Fits r := by
  have hkept : ∀ {s : P2pPs}, s = r.drv → PsGood ⟨s,r.lastNoa,[]⟩ := by
    rintro _ rfl
    exact ⟨hgood.noaNum_le,hgood.follows,nofun⟩
  cases e with
  | power fw sp mode =>
    refine iff_of_true ⟨_,rfl,hgood.noaNum_le,fun h => ?_,nofun⟩ trivial
    exact ⟨(hgood.follows h).oppPs,(hgood.follows h).ctwindow,(hgood.follows h).noas⟩
  | beacon iEs iELength queued =>
    rw [PsEvent.Fits, PsRun.step, processP2pPsIe]
    by_cases hskip : r.drv.p2pState = .NONE ∨ iELength ≤ 12
    · simp only [if_pos hskip]
      refine iff_of_true ⟨_,rfl,hkept rfl⟩ ?_
      exact hskip.imp_right .inl
    · simp only [if_neg hskip]
      obtain ⟨hon,hlong⟩ := not_or.mp hskip
      rw [or_iff_right hon, or_iff_right hlong]
      have hreads := @beaconNotice_eq_none_iff iEs iELength
      cases hnotice : beaconNotice iEs iELength with
      | none =>
        refine iff_of_false ?_ fun h => hreads.mp hnotice h.1
        rintro ⟨u,hu,-⟩
        cases hu
      | some found =>
        have hbeacon : BeaconReads iEs iELength :=
          Classical.not_not.mp fun h => nomatch hnotice.symm.trans (hreads.mpr h)
        rw [and_iff_right hbeacon]
        cases found with
        | none =>
          simp only [newNotice, hnotice, Option.getD_some, Option.filter_none]
          refine iff_of_true ⟨_,rfl,?_⟩ fun _ h => by cases h
          split
          · exact p2pPsWkCmd_disable_good (hkept rfl)
          · exact hkept rfl
        | some noaAttr =>
          simp only [newNotice, hnotice, Option.getD_some, Option.filter_some, decide_eq_true_eq]
          rw [byteAt_append_zeros]
          by_cases htake : r.drv.p2pPsMode = .NONE ∨ (byteAt noaAttr 0).toNat ≠ r.drv.noaIndex
          · simp only [if_pos htake]
            have hresult := @takeOver_result
              (noaAttr ++ List.replicate (MAX_P2P_IE_LEN - noaAttr.length) 0) noaAttr.length r.drv
            cases htook : takeOver r.drv (noaAttr ++ List.replicate (MAX_P2P_IE_LEN - noaAttr.length) 0)
                noaAttr.length with
            | none =>
              rw [htook] at hresult
              refine iff_of_false (fun ⟨u,hu,_⟩ => nomatch hu) fun h => ?_
              have hwhole := (h _ rfl).1
              rw [WholeDescs] at hwhole
              rw [TakeResult] at hresult
              omega
            | some p =>
              rw [htook] at hresult
              obtain ⟨hle,htook⟩ := hresult
              have hiff := @Took.good_iff _ _ _ _ queued _ htook hle hon
              simp only [Option.map_some, Option.some.injEq, exists_eq_left', Option.getD_some, forall_eq']
              exact hiff
          · simp only [if_neg htake]
            exact iff_of_true ⟨_,rfl,hkept rfl⟩ fun _ h => by cases h

/-- The driver when P2P was switched on: the adapter is allocated with zeros. -/
def P2pPs.init (p2pState : P2pState) (role : P2pRole) (fw : Bool) (smartPs pwrMode : ℕ) : P2pPs where
  p2pState := p2pState
  role := role
  p2pPsMode := .NONE
  p2pPsState := .DISABLE
  noaIndex := 0
  ctwindow := 0
  oppPs := 0
  noaNum := 0
  noaCount := fun _ => 0
  noaDuration := fun _ => 0
  noaInterval := fun _ => 0
  noaStartTime := fun _ => 0
  bFwCurrentInPSMode := fw
  smartPs := smartPs
  pwrMode := pwrMode
  p2pPsOffload := .zero

/-- In every state of a run the schedule is that of the notice, and every enable command said so,
exactly when every beacon of the run fits the state that it meets. -/
theorem p2p_ps_follows_notice_iff (p2pState : P2pState) (role : P2pRole) (fw : Bool) (smartPs pwrMode : ℕ)
    (es : List PsEvent) :
    (∀ past, past <+: es → ∃ r, PartialRun.run PsRun.step ⟨.init p2pState role fw smartPs pwrMode,[],[]⟩
      past = some r ∧
      PsGood r) ↔
    ∀ past e, past ++ [e] <+: es → ∀ r,
      PartialRun.run PsRun.step ⟨.init p2pState role fw smartPs pwrMode,[],[]⟩ past = some r → e.Fits r :=
  PartialRun.prefixes_iff PsGood (.of_silent (Nat.zero_le _) fun h => absurd rfl h) PsRun.step_good_iff es

/-- A beacon with one P2P element and in it one notice -/
def noticeBeacon (noaAttr : List UInt8) : PsEvent :=
  let attr := 0x0c :: UInt8.ofNat noaAttr.length :: 0 :: noaAttr
  let ie := [0x50,0x6f,0x9a,0x09] ++ attr
  .beacon (List.replicate 12 0 ++ 0xdd :: UInt8.ofNat ie.length :: ie) (12 + 2 + ie.length) true

/-- A second notice with one descriptor does not take back what the first one with two enabled. -/
theorem dropped_descriptor_stays_enabled :
    ¬∀ past, past <+: [noticeBeacon (1 :: 0 :: List.replicate 26 7),noticeBeacon (2 :: 0 :: List.replicate 13 7)] →
      ∃ r, PartialRun.run PsRun.step ⟨.init .GONEGO_OK .CLIENT false 2 0,[],[]⟩ past = some r ∧ PsGood r := by
  intro h
  obtain ⟨r,hr,hgood⟩ := h _ (List.prefix_refl _)
  have heval : (PartialRun.run PsRun.step ⟨.init .GONEGO_OK .CLIENT false 2 0,[],[]⟩
      [noticeBeacon (1 :: 0 :: List.replicate 26 7),noticeBeacon (2 :: 0 :: List.replicate 13 7)]).map
        (fun r => (r.sent.getLast?,r.drv.noaNum)) =
      some (some (.fwP2pPsOffload .ENABLE ⟨true,false,false,true,true,false,false⟩),1) := by
    decide
  rw [hr, Option.map_some, Option.some.injEq, Prod.mk.injEq] at heval
  obtain ⟨hsent,hnum⟩ := heval
  have htwo := (hgood.announces _ (List.mem_of_getLast? hsent)).noa1En.mp rfl
  omega

end Rtl8188fu
