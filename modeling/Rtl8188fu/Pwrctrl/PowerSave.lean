import Rtl8188fu.Library.Run
import Rtl8188fu.Library.Trace
import Rtl8188fu.P2p.PsRun

/-! # Leisure and inactive power save

`LPS_Enter`, `LPS_Leave` and `rtw_set_ps_mode` move the firmware between its power save modes while
linked, `ips_enter`, `ips_leave` and `rtw_ps_processor` switch the radio while not. Both write
`bpower_saving`. There is one adapter, the primary one on port 0.
-/
namespace Rtl8188fu

def PS_MODE_ACTIVE : ℕ := 0
def PM_Card_Disable : ℕ := 10

inductive RtRfPowerState
  | on
  | sleep
  | off
deriving DecidableEq

inductive IpsMode
  | NONE
  | NORMAL
  | LEVEL_2
deriving DecidableEq

/-- What of `pwrctrl_priv` the two machines use, the registry's `smart_ps`, `WIFI_ASOC_STATE`, and what
went to the device, the newest last -/
structure PwrCtrl extends P2pPs where
  bcnAntMode : ℕ
  powerMgnt : ℕ
  registrySmartPs : ℕ
  bLeisurePs : Bool
  lpsIdleCount : ℕ
  bpowerSaving : Bool
  rfPwrstate : RtRfPowerState
  changeRfpwrstate : RtRfPowerState
  bipsProcessing : Bool
  ipsMode : IpsMode
  ipsModeReq : IpsMode
  bkeepfwalive : Bool
  pwrStateCheckCnts : ℕ
  asoc : Bool
  sent : List HalWrite

/-- What else `PS_RDY_CHECK`, `rtw_ps_processor` and `rtw_pwr_unassociated_idle` read -/
structure PsEnv where
  psDeny : ℕ
  bInSuspend : Bool
  -- `delta_time < LPS_DELAY_TIME`
  delayLps : Bool
  -- `ips_deny_time` is not over
  ipsDeny : Bool
  siteMonitor : Bool
  underLinking : Bool
  underWps : Bool
  apState : Bool
  adhocState : Bool
  isRoCh : Bool
  -- the last `is_ro_ch` is less than 3000 ms ago
  lastRoCh : Bool
  scanDeny : Bool
  auth8021X : Bool
  binstallGrpkey : Bool
  pwrMgmt : Bool
  mpMode : Bool
  xmitPending : Bool

/-- How `rtw_ips_pwr_up` ends, and whether `rtl8188f_FirmwareDownload` was called -/
structure PwrUp where
  ok : Bool
  fwDownload : Bool

/-- `rtw_init_pwrctrl_priv`, from zeroed memory -/
def PwrCtrl.init (p2pState : P2pState) (role : P2pRole) (powerMgnt smartPs : ℕ) (ipsMode : IpsMode) : PwrCtrl where
  toP2pPs := .init p2pState role false smartPs PS_MODE_ACTIVE
  bcnAntMode := 0
  powerMgnt := powerMgnt
  registrySmartPs := smartPs
  bLeisurePs := PS_MODE_ACTIVE ≠ powerMgnt
  lpsIdleCount := 0
  bpowerSaving := false
  rfPwrstate := .on
  changeRfpwrstate := .on
  bipsProcessing := false
  ipsMode := ipsMode
  ipsModeReq := ipsMode
  bkeepfwalive := false
  pwrStateCheckCnts := 0
  asoc := false
  sent := []

def psRdyCheck (env : PsEnv) : Bool :=
  !(env.bInSuspend || env.delayLps || env.siteMonitor || env.underLinking || env.underWps || env.apState ||
    env.adhocState || env.isRoCh || env.scanDeny || (env.auth8021X && !env.binstallGrpkey) || !env.pwrMgmt)

def rtwPwrUnassociatedIdle (s : PwrCtrl) (env : PsEnv) : Bool :=
  !(s.bpowerSaving || env.ipsDeny || s.asoc || env.siteMonitor || env.underLinking || env.underWps || env.apState ||
    env.adhocState || env.isRoCh || env.lastRoCh || env.mpMode || env.xmitPending)

/-- `p2p_ps_wk_cmd` without the queue, or the command thread with what was queued -/
def PwrCtrl.p2pPsWk (s : PwrCtrl) (cmd : P2pPsState) : PwrCtrl :=
  let r := p2pPsWkCmd s.toP2pPs (some cmd) true
  { s with toP2pPs := r.1, sent := s.sent ++ r.2 }

def rtwSetPsMode (s : PwrCtrl) (env : PsEnv) (psMode smartPs bcnAntMode : ℕ) : PwrCtrl :=
  if PM_Card_Disable < psMode then s
  else if s.pwrMode = psMode ∧ (psMode = PS_MODE_ACTIVE ∨ s.smartPs = smartPs ∧ s.bcnAntMode = bcnAntMode) then s
  else if psMode = PS_MODE_ACTIVE then
    if s.oppPs = 0 then
      { s with pwrMode := psMode, sent := s.sent ++ [.fwPwrMode psMode], bFwCurrentInPSMode := false }
    else s
  else if psRdyCheck env ∧ s.asoc then
    let t : PwrCtrl := { s with
      bFwCurrentInPSMode := true
      pwrMode := psMode
      smartPs := smartPs
      bcnAntMode := bcnAntMode
      sent := s.sent ++ [.fwPwrMode psMode] }
    -- Set CTWindow after LPS
    if s.oppPs = 1 then t.p2pPsWk .ENABLE else t
  else s

def lpsEnter (s : PwrCtrl) (env : PsEnv) : PwrCtrl :=
  if s.asoc = false ∨ psRdyCheck env = false ∨ s.p2pPsMode = .NOA ∨ s.bLeisurePs = false then s
  else if 2 ≤ s.lpsIdleCount then
    if s.pwrMode = PS_MODE_ACTIVE then rtwSetPsMode { s with bpowerSaving := true } env s.powerMgnt s.registrySmartPs 0
    else s
  else { s with lpsIdleCount := s.lpsIdleCount + 1 }

def lpsLeave (s : PwrCtrl) (env : PsEnv) : PwrCtrl :=
  let t := if s.bLeisurePs ∧ s.pwrMode ≠ PS_MODE_ACTIVE then rtwSetPsMode s env PS_MODE_ACTIVE 0 0 else s
  { t with bpowerSaving := false }

def ipsEnter (s : PwrCtrl) : PwrCtrl :=
  let s := { s with ipsMode := s.ipsModeReq, bipsProcessing := false }
  if s.changeRfpwrstate = .off then
    { s with bpowerSaving := true, bkeepfwalive := s.bkeepfwalive || s.ipsMode = .LEVEL_2, rfPwrstate := .off }
  else s

/-- `rtw_ips_pwr_up`: `rtw_reset_drv_sw`, and `rtw_hal_init` with `rtl8188f_InitializeFirmwareVars` at the end
of the firmware download, however that ends -/
def rtwIpsPwrUp (s : PwrCtrl) (up : PwrUp) : PwrCtrl :=
  { s with pwrStateCheckCnts := 0, bFwCurrentInPSMode := s.bFwCurrentInPSMode && !up.fwDownload }

def ipsLeave (s : PwrCtrl) (up : PwrUp) : PwrCtrl :=
  if s.rfPwrstate = .off ∧ s.bipsProcessing = false then
    let t := rtwIpsPwrUp { s with changeRfpwrstate := .on } up
    { t with
      rfPwrstate := if up.ok then .on else s.rfPwrstate
      bipsProcessing := false
      bkeepfwalive := false
      bpowerSaving := false }
  else s

def rtwPsProcessor (s : PwrCtrl) (env : PsEnv) : PwrCtrl :=
  if env.psDeny ≠ 0 ∨ env.bInSuspend ∨ s.ipsModeReq = .NONE ∨ rtwPwrUnassociatedIdle s env = false then s
  else if s.rfPwrstate = .on ∧ s.pwrStateCheckCnts % 4 = 0 then ipsEnter { s with changeRfpwrstate := .off }
  else s

/-- One call. Each is atomic. -/
inductive PsCall
  | lpsEnter (env : PsEnv)
  | lpsLeave (env : PsEnv)
  | setPsMode (env : PsEnv) (psMode smartPs bcnAntMode : ℕ)
  | ipsEnter
  | ipsLeave (up : PwrUp)
  | psProcessor (env : PsEnv)
  -- association and disassociation, and the `LPS_CTRL_CONNECT` that follows an association
  | asocState (asoc : Bool)
  | lpsCtrlConnect
  -- the wifi direct data may change in any way
  | p2pChange (p : P2pPs)
  | p2pPsWk (cmd : P2pPsState)

def psStep (s : PwrCtrl) : PsCall → PwrCtrl
  | .lpsEnter env => lpsEnter s env
  | .lpsLeave env => lpsLeave s env
  | .setPsMode env psMode smartPs bcnAntMode => rtwSetPsMode s env psMode smartPs bcnAntMode
  | .ipsEnter => ipsEnter s
  | .ipsLeave up => ipsLeave s up
  | .psProcessor env => rtwPsProcessor s env
  | .asocState asoc => { s with asoc := asoc }
  | .lpsCtrlConnect => { s with lpsIdleCount := 0 }
  | .p2pChange p =>
    { s with toP2pPs :=
      { p with bFwCurrentInPSMode := s.bFwCurrentInPSMode, smartPs := s.smartPs, pwrMode := s.pwrMode } }
  | .p2pPsWk cmd => s.p2pPsWk cmd

/-- The last mode sent with `HW_VAR_H2C_FW_PWRMODE` -/
def fwPwrModeAfter (mode : ℕ) (sent : List HalWrite) : ℕ :=
  sent.foldl (fun mode w => match w with | .fwPwrMode m => m | _ => mode) mode

/-- What the driver has written down is what the device does. -/
structure PsAgrees (s : PwrCtrl) : Prop where
  mode : s.pwrMode = fwPwrModeAfter PS_MODE_ACTIVE s.sent
  fw : s.bFwCurrentInPSMode = true ↔ s.pwrMode ≠ PS_MODE_ACTIVE
  saving : s.bpowerSaving = true ↔ s.pwrMode ≠ PS_MODE_ACTIVE ∨ s.rfPwrstate = .off

/-- If a call changes neither the mode nor the radio, nothing that is written down changes. -/
def RefusalKeeps (s t : PwrCtrl) : Prop :=
  t.pwrMode = s.pwrMode → t.rfPwrstate = s.rfPwrstate →
    fwPwrModeAfter PS_MODE_ACTIVE t.sent = fwPwrModeAfter PS_MODE_ACTIVE s.sent ∧
      t.bFwCurrentInPSMode = s.bFwCurrentInPSMode ∧ t.bpowerSaving = s.bpowerSaving

/-- `rtw_set_ps_mode` leaves the power save of the firmware. -/
def SetPsLeaves (s : PwrCtrl) (psMode : ℕ) : Prop := psMode = PS_MODE_ACTIVE ∧ s.pwrMode ≠ PS_MODE_ACTIVE ∧
    s.oppPs = 0

/-- `rtw_set_ps_mode` enters a power save mode, perhaps from another one. -/
structure SetPsEnters (s : PwrCtrl) (env : PsEnv) (psMode smartPs bcnAntMode : ℕ) : Prop where
  ne_active : psMode ≠ PS_MODE_ACTIVE
  le : psMode ≤ PM_Card_Disable
  ready : psRdyCheck env = true
  asoc : s.asoc = true
  differs : ¬(s.pwrMode = psMode ∧ s.smartPs = smartPs ∧ s.bcnAntMode = bcnAntMode)

/-- `LPS_Enter` gets as far as `rtw_set_ps_mode`. -/
structure LpsEnters (s : PwrCtrl) (env : PsEnv) : Prop where
  asoc : s.asoc = true
  ready : psRdyCheck env = true
  not_noa : s.p2pPsMode ≠ .NOA
  leisure : s.bLeisurePs = true
  idle : 2 ≤ s.lpsIdleCount
  active : s.pwrMode = PS_MODE_ACTIVE

/-- What a call needs of the state for `bpower_saving` and `bFwCurrentInPSMode` to stay right -/
def KeepsAgreement (s : PwrCtrl) : PsCall → Prop
  | .lpsEnter env => LpsEnters s env → s.rfPwrstate = .off ∨ 0 < s.powerMgnt ∧ s.powerMgnt ≤ PM_Card_Disable
  | .lpsLeave _ => s.rfPwrstate ≠ .off ∧ (s.pwrMode = PS_MODE_ACTIVE ∨ s.bLeisurePs = true ∧ s.oppPs = 0)
  | .setPsMode env psMode smartPs bcnAntMode =>
    (SetPsLeaves s psMode → s.rfPwrstate = .off) ∧
      (SetPsEnters s env psMode smartPs bcnAntMode → s.pwrMode ≠ PS_MODE_ACTIVE ∨ s.rfPwrstate = .off)
  | .ipsLeave up => s.rfPwrstate = .off → s.bipsProcessing = false → up.ok = true ∧ s.pwrMode = PS_MODE_ACTIVE
  | .ipsEnter | .psProcessor _ | .asocState _ | .lpsCtrlConnect | .p2pChange _ | .p2pPsWk _ => True

section Calls
variable {s t : PwrCtrl} {env : PsEnv} {psMode smartPs bcnAntMode : ℕ}

@[simp] theorem fwPwrModeAfter_append (mode : ℕ) (sent more : List HalWrite) :
    fwPwrModeAfter mode (sent ++ more) = fwPwrModeAfter (fwPwrModeAfter mode sent) more := List.foldl_append

@[simp] theorem fwPwrModeAfter_singleton (mode m : ℕ) : fwPwrModeAfter mode [.fwPwrMode m] = m := rfl

theorem fwPwrModeAfter_same {mode : ℕ} {sent : List HalWrite} (h : ∀ m, .fwPwrMode m ∈ sent → m = mode) :
    fwPwrModeAfter mode sent = mode := by
  induction sent with
  | nil => rfl
  | cons w sent ih =>
    have hrest : ∀ m, .fwPwrMode m ∈ sent → m = mode := fun m hm => h m (List.mem_cons_of_mem w hm)
    cases w with
    | fwPwrMode m =>
      obtain rfl := h m List.mem_cons_self
      exact ih hrest
    | write addr val => exact ih hrest
    | fwP2pPsOffload cmd byte => exact ih hrest

theorem fwPwrMode_not_mem_enableWrites (p : P2pPs) (m : ℕ) : .fwPwrMode m ∉ p.enableWrites := by
  intro h
  obtain ⟨addr,val,hw⟩ := p.isWrite_of_mem h
  cases hw

theorem fwPwrMode_not_mem_offload (p : P2pPs) (cmd : P2pPsState) (m : ℕ) :
    .fwPwrMode m ∉ (rtl8188fSetP2pPsOffloadCmd p cmd).2 := by
  cases cmd with
  | ENABLE => simp [rtl8188fSetP2pPsOffloadCmd, fwPwrMode_not_mem_enableWrites]
  | DISABLE | SCAN | SCAN_DONE | ALLSTASLEEP => simp [rtl8188fSetP2pPsOffloadCmd]

/-- `p2p_ps_wk_hdl` sends no other mode than the one that is written down. -/
theorem p2pPsWkHdl_keeps (p : P2pPs) (cmd : P2pPsState) :
    (p2pPsWkHdl p cmd).1.pwrMode = p.pwrMode ∧ (p2pPsWkHdl p cmd).1.bFwCurrentInPSMode = p.bFwCurrentInPSMode ∧
      ∀ m, .fwPwrMode m ∈ (p2pPsWkHdl p cmd).2 → m = p.pwrMode := by
  have hoff : ∀ q c m, .fwPwrMode m ∈ (rtl8188fSetP2pPsOffloadCmd q c).2 → m = p.pwrMode :=
    fun q c m h => absurd h (fwPwrMode_not_mem_offload q c m)
  cases cmd with
  | DISABLE =>
    dsimp only [p2pPsWkHdl]
    split
    · exact ⟨rfl,rfl,by simp [rtl8188fSetP2pPsOffloadCmd]⟩
    · exact ⟨rfl,rfl,hoff _ _⟩
  | ENABLE =>
    dsimp only [p2pPsWkHdl]
    split
    · exact ⟨rfl,rfl,nofun⟩
    · split
      · refine ⟨rfl,rfl,fun m hm => ?_⟩
        rcases List.mem_cons.mp hm with hm | hm
        · exact HalWrite.fwPwrMode.inj hm
        · exact hoff _ _ m hm
      · exact ⟨rfl,rfl,hoff _ _⟩
  | SCAN | SCAN_DONE | ALLSTASLEEP =>
    dsimp only [p2pPsWkHdl]
    split
    · exact ⟨rfl,rfl,nofun⟩
    · exact ⟨rfl,rfl,hoff _ _⟩

/-- `t` is `s` in another mode, which is the one that was sent last. -/
structure MovesTo (s t : PwrCtrl) (mode : ℕ) : Prop where
  pwrMode : t.pwrMode = mode
  sent : fwPwrModeAfter PS_MODE_ACTIVE t.sent = mode
  fw : t.bFwCurrentInPSMode = true ↔ mode ≠ PS_MODE_ACTIVE
  bpowerSaving : t.bpowerSaving = s.bpowerSaving
  rfPwrstate : t.rfPwrstate = s.rfPwrstate

theorem PsAgrees.movesTo (h : PsAgrees s) : MovesTo s s s.pwrMode := ⟨rfl,h.mode.symm,h.fw,rfl,rfl⟩

/-- After a move the state agrees as far as `bpower_saving` does. -/
theorem MovesTo.agrees_iff {mode : ℕ} (h : MovesTo s t mode) :
    PsAgrees t ↔ (s.bpowerSaving = true ↔ mode ≠ PS_MODE_ACTIVE ∨ s.rfPwrstate = .off) := by
  rw [← h.bpowerSaving, ← h.rfPwrstate]
  constructor
  · intro hagrees
    rw [hagrees.saving, h.pwrMode]
  · intro hsaving
    exact ⟨h.pwrMode.trans h.sent.symm,by rw [h.fw, h.pwrMode],by rw [hsaving, h.pwrMode]⟩

theorem MovesTo.p2pPsWk {mode : ℕ} (h : MovesTo s t mode) (cmd : P2pPsState) : MovesTo s (t.p2pPsWk cmd) mode := by
  have hkeeps := p2pPsWkHdl_keeps t.toP2pPs cmd
  rw [h.pwrMode] at hkeeps
  by_cases hnone : t.p2pState = .NONE
  · have hsame : t.p2pPsWk cmd = { t with sent := t.sent ++ [] } := by
      rw [PwrCtrl.p2pPsWk, p2pPsWkCmd, if_pos (.inl hnone)]
    rw [hsame, List.append_nil]
    exact h
  · have hwk : t.p2pPsWk cmd =
        { t with toP2pPs := (p2pPsWkHdl t.toP2pPs cmd).1, sent := t.sent ++ (p2pPsWkHdl t.toP2pPs cmd).2 } := by
      rw [PwrCtrl.p2pPsWk, p2pPsWkCmd, if_neg (by simp [hnone])]
    rw [hwk]
    refine ⟨hkeeps.1,?_,?_,h.bpowerSaving,h.rfPwrstate⟩
    · rw [fwPwrModeAfter_append, h.sent, fwPwrModeAfter_same hkeeps.2.2]
    · rw [hkeeps.2.1, h.fw]

/-- What `rtw_set_ps_mode` does: it leaves, it enters, or it does nothing. -/
theorem rtwSetPsMode_cases (s : PwrCtrl) (env : PsEnv) (psMode smartPs bcnAntMode : ℕ) :
    (SetPsLeaves s psMode ∨ SetPsEnters s env psMode smartPs bcnAntMode) ∧
        MovesTo s (rtwSetPsMode s env psMode smartPs bcnAntMode) psMode ∨
      ¬SetPsLeaves s psMode ∧ ¬SetPsEnters s env psMode smartPs bcnAntMode ∧
        rtwSetPsMode s env psMode smartPs bcnAntMode = s := by
  rw [rtwSetPsMode]
  by_cases hle : PM_Card_Disable < psMode
  · rw [if_pos hle]
    refine .inr ⟨?_,fun h => absurd hle (Nat.not_lt.mpr h.le),rfl⟩
    rintro ⟨rfl,-⟩
    exact absurd hle (Nat.not_lt_zero _)
  · rw [if_neg hle]
    by_cases hsame : s.pwrMode = psMode ∧
      (psMode = PS_MODE_ACTIVE ∨ s.smartPs = smartPs ∧ s.bcnAntMode = bcnAntMode)
    · rw [if_pos hsame]
      refine .inr ⟨?_,?_,rfl⟩
      · rintro ⟨hactive,hne,-⟩
        exact hne (hsame.1.trans hactive)
      · intro h
        exact h.differs ⟨hsame.1,hsame.2.resolve_left h.ne_active⟩
    · rw [if_neg hsame]
      by_cases hactive : psMode = PS_MODE_ACTIVE
      · rw [if_pos hactive]
        have hne : s.pwrMode ≠ PS_MODE_ACTIVE := fun h => hsame ⟨h.trans hactive.symm,.inl hactive⟩
        by_cases hopp : s.oppPs = 0
        · rw [if_pos hopp]
          refine .inl ⟨.inl ⟨hactive,hne,hopp⟩,rfl,?_,?_,rfl,rfl⟩
          · exact fwPwrModeAfter_append _ _ _
          · exact iff_of_false nofun (not_not_intro hactive)
        · rw [if_neg hopp]
          exact .inr ⟨fun h => hopp h.2.2,fun h => h.ne_active hactive,rfl⟩
      · rw [if_neg hactive]
        by_cases hready : psRdyCheck env ∧ s.asoc
        · rw [if_pos hready]
          refine .inl ⟨.inr ⟨hactive,Nat.le_of_not_lt hle,hready.1,hready.2,fun h => hsame
            ⟨h.1,.inr h.2⟩⟩,?_⟩
          have hmoves : MovesTo s { s with
              bFwCurrentInPSMode := true
              pwrMode := psMode
              smartPs := smartPs
              bcnAntMode := bcnAntMode
              sent := s.sent ++ [.fwPwrMode psMode] } psMode :=
            ⟨rfl,fwPwrModeAfter_append _ _ _,iff_of_true rfl hactive,rfl,rfl⟩
          dsimp only
          split
          · exact hmoves.p2pPsWk .ENABLE
          · exact hmoves
        · rw [if_neg hready]
          exact .inr ⟨fun h => hactive h.1,fun h => hready ⟨h.ready,h.asoc⟩,rfl⟩

theorem setPsMode_agrees_iff (h : PsAgrees s) : PsAgrees (rtwSetPsMode s env psMode smartPs bcnAntMode) ↔
    KeepsAgreement s (.setPsMode env psMode smartPs bcnAntMode) := by
  rcases rtwSetPsMode_cases s env psMode smartPs bcnAntMode with ⟨hmove,hto⟩ | ⟨hleaves,henters,heq⟩
  · rw [hto.agrees_iff, h.saving]
    rcases hmove with hleaves | henters
    · have hnot : ¬SetPsEnters s env psMode smartPs bcnAntMode := fun h => h.ne_active hleaves.1
      constructor
      · intro hiff
        exact ⟨fun _ => (hiff.mp (.inl hleaves.2.1)).resolve_left (not_not_intro hleaves.1),fun h => absurd h hnot⟩
      · intro hkeeps
        exact iff_of_true (.inl hleaves.2.1) (.inr (hkeeps.1 hleaves))
    · have hnot : ¬SetPsLeaves s psMode := fun h => henters.ne_active h.1
      constructor
      · intro hiff
        exact ⟨fun h => absurd h hnot,fun _ => hiff.mpr (.inl henters.ne_active)⟩
      · intro hkeeps
        exact iff_of_true (hkeeps.2 henters) (.inl henters.ne_active)
  · rw [heq]
    exact iff_of_true h ⟨fun h => absurd h hleaves,fun h => absurd h henters⟩

theorem lpsEnter_agrees_iff (h : PsAgrees s) : PsAgrees (lpsEnter s env) ↔ KeepsAgreement s (.lpsEnter env) := by
  rw [lpsEnter]
  by_cases hguard : s.asoc = false ∨ psRdyCheck env = false ∨ s.p2pPsMode = .NOA ∨ s.bLeisurePs = false
  · rw [if_pos hguard]
    refine iff_of_true h fun henters => ?_
    rcases hguard with hg | hg | hg | hg
    · exact absurd (hg.symm.trans henters.asoc) nofun
    · exact absurd (hg.symm.trans henters.ready) nofun
    · exact absurd hg henters.not_noa
    · exact absurd (hg.symm.trans henters.leisure) nofun
  · rw [if_neg hguard]
    by_cases hidle : 2 ≤ s.lpsIdleCount
    · rw [if_pos hidle]
      by_cases hactive : s.pwrMode = PS_MODE_ACTIVE
      · rw [if_pos hactive]
        simp only [not_or, Bool.not_eq_false] at hguard
        obtain ⟨hasoc,hready,hnoa,hleisure⟩ := hguard
        have henters : LpsEnters s env := ⟨hasoc,hready,hnoa,hleisure,hidle,hactive⟩
        rcases rtwSetPsMode_cases { s with bpowerSaving := true } env s.powerMgnt s.registrySmartPs 0 with
          ⟨hmove,hto⟩ | ⟨hleaves,hrefused,heq⟩
        · have hset := hmove.resolve_left fun hl => hl.2.1 hactive
          refine iff_of_true ?_ fun _ => .inr ⟨Nat.pos_of_ne_zero hset.ne_active,hset.le⟩
          rw [hto.agrees_iff]
          exact iff_of_true rfl (.inl hset.ne_active)
        · rw [heq]
          constructor
          · intro hagrees _
            exact .inl ((hagrees.saving.mp rfl).resolve_left (not_not_intro hactive))
          · intro hkeeps
            refine ⟨h.mode,h.fw,iff_of_true rfl ?_⟩
            rcases hkeeps henters with hoff | ⟨hpos,hle⟩
            · exact .inr hoff
            · refine absurd ⟨Nat.pos_iff_ne_zero.mp hpos,hle,hready,hasoc,?_⟩ hrefused
              rintro ⟨hsame,-⟩
              exact absurd (hsame.symm.trans hactive) (Nat.pos_iff_ne_zero.mp hpos)
      · rw [if_neg hactive]
        exact iff_of_true h fun henters => absurd henters.active hactive
    · rw [if_neg hidle]
      exact iff_of_true ⟨h.mode,h.fw,h.saving⟩ fun henters => absurd henters.idle hidle

theorem lpsLeave_agrees_iff (h : PsAgrees s) : PsAgrees (lpsLeave s env) ↔ KeepsAgreement s (.lpsLeave env) := by
  -- the mode that is left behind, with the flag cleared
  have hclear : ∀ {t : PwrCtrl} {mode : ℕ}, MovesTo s t mode →
      (PsAgrees { t with bpowerSaving := false } ↔ mode = PS_MODE_ACTIVE ∧ s.rfPwrstate ≠ .off) := by
    intro t mode hto
    have hto' : MovesTo { s with bpowerSaving := false } { t with bpowerSaving := false } mode :=
      ⟨hto.pwrMode,hto.sent,hto.fw,rfl,hto.rfPwrstate⟩
    rw [hto'.agrees_iff]
    simp
  rw [lpsLeave]
  by_cases hguard : s.bLeisurePs ∧ s.pwrMode ≠ PS_MODE_ACTIVE
  · rw [if_pos hguard]
    rcases rtwSetPsMode_cases s env PS_MODE_ACTIVE 0 0 with ⟨hmove,hto⟩ | ⟨hleaves,-,heq⟩
    · have hset := hmove.resolve_right fun he => he.ne_active rfl
      rw [hclear hto]
      exact ⟨fun hr => ⟨hr.2,.inr ⟨hguard.1,hset.2.2⟩⟩,fun hk => ⟨rfl,hk.1⟩⟩
    · rw [heq, hclear h.movesTo]
      refine iff_of_false (fun hr => hguard.2 hr.1) ?_
      rintro ⟨-,hactive | ⟨-,hopp⟩⟩
      · exact hguard.2 hactive
      · exact hleaves ⟨rfl,hguard.2,hopp⟩
  · rw [if_neg hguard, hclear h.movesTo]
    constructor
    · intro hr
      exact ⟨hr.2,.inl hr.1⟩
    · rintro ⟨hon,hactive | ⟨hleisure,-⟩⟩
      · exact ⟨hactive,hon⟩
      · exact ⟨not_not.mp fun hne => hguard ⟨hleisure,hne⟩,hon⟩

theorem ipsEnter_agrees (h : PsAgrees s) : PsAgrees (ipsEnter s) := by
  dsimp only [ipsEnter]
  split
  · exact ⟨h.mode,h.fw,iff_of_true rfl (.inr rfl)⟩
  · exact ⟨h.mode,h.fw,h.saving⟩

theorem rtwPsProcessor_agrees (h : PsAgrees s) : PsAgrees (rtwPsProcessor s env) := by
  rw [rtwPsProcessor]
  split
  · exact h
  · split
    · exact ipsEnter_agrees ⟨h.mode,h.fw,h.saving⟩
    · exact h

theorem ipsLeave_agrees_iff {up : PwrUp} (h : PsAgrees s) : PsAgrees (ipsLeave s up) ↔
    KeepsAgreement s (.ipsLeave up) := by
  rw [ipsLeave]
  by_cases hguard : s.rfPwrstate = .off ∧ s.bipsProcessing = false
  · rw [if_pos hguard]
    constructor
    · intro hagrees _ _
      have hnot := mt hagrees.saving.mpr nofun
      obtain ⟨hactive,hrf⟩ := not_or.mp hnot
      refine ⟨?_,not_not.mp hactive⟩
      by_contra hok
      exact hrf ((if_neg hok).trans hguard.1)
    · intro hkeeps
      obtain ⟨hok,hactive⟩ := hkeeps hguard.1 hguard.2
      have hfw : s.bFwCurrentInPSMode = false := Bool.eq_false_iff.mpr fun hfw => h.fw.mp hfw hactive
      refine ⟨h.mode,?_,?_⟩
      · refine iff_of_false ?_ (not_not_intro hactive)
        simp [rtwIpsPwrUp, hfw]
      · refine iff_of_false nofun (not_or.mpr ⟨not_not_intro hactive,?_⟩)
        simp [hok]
  · rw [if_neg hguard]
    exact iff_of_true h fun hoff hproc => absurd ⟨hoff,hproc⟩ hguard

theorem psStep_agrees_iff (h : PsAgrees s) (call : PsCall) : PsAgrees (psStep s call) ↔ KeepsAgreement s call := by
  cases call with
  | lpsEnter env => exact lpsEnter_agrees_iff h
  | lpsLeave env => exact lpsLeave_agrees_iff h
  | setPsMode env psMode smartPs bcnAntMode => exact setPsMode_agrees_iff h
  | ipsEnter => exact iff_of_true (ipsEnter_agrees h) trivial
  | ipsLeave up => exact ipsLeave_agrees_iff h
  | psProcessor env => exact iff_of_true (rtwPsProcessor_agrees h) trivial
  | asocState asoc => exact iff_of_true ⟨h.mode,h.fw,h.saving⟩ trivial
  | lpsCtrlConnect => exact iff_of_true ⟨h.mode,h.fw,h.saving⟩ trivial
  | p2pChange p => exact iff_of_true ⟨h.mode,h.fw,h.saving⟩ trivial
  | p2pPsWk cmd => exact iff_of_true ((h.movesTo.p2pPsWk cmd).agrees_iff.mpr h.saving) trivial

/-- Between two states that agree, what is written down changes with the mode and the radio only. -/
theorem PsAgrees.refusalKeeps (hs : PsAgrees s) (ht : PsAgrees t) : RefusalKeeps s t := by
  intro hmode hrf
  refine ⟨?_,?_,?_⟩
  · rw [← ht.mode, ← hs.mode, hmode]
  · rw [Bool.eq_iff_iff, ht.fw, hs.fw, hmode]
  · rw [Bool.eq_iff_iff, ht.saving, hs.saving, hmode, hrf]

end Calls

section Runs

theorem PwrCtrl.init_agrees (p2pState : P2pState) (role : P2pRole) (powerMgnt smartPs : ℕ) (ipsMode : IpsMode) :
    PsAgrees (.init p2pState role powerMgnt smartPs ipsMode) :=
  ⟨rfl,by simp [init, P2pPs.init],by simp [init, P2pPs.init]⟩

/-- In a run the bookkeeping agrees with the device after every call, and every call that refuses to
change the mode keeps all of it, exactly when every call meets a state in which it keeps the agreement. -/
theorem power_save_agrees_iff (p2pState : P2pState) (role : P2pRole) (powerMgnt smartPs : ℕ) (ipsMode : IpsMode)
    (calls : List PsCall) :
    ((∀ past, past <+: calls → PsAgrees (Run.run psStep (.init p2pState role powerMgnt smartPs ipsMode) past)) ∧
      ∀ past call, past ++ [call] <+: calls →
        RefusalKeeps (Run.run psStep (.init p2pState role powerMgnt smartPs ipsMode) past)
          (Run.run psStep (.init p2pState role powerMgnt smartPs ipsMode) (past ++ [call]))) ↔
    ∀ past call, past ++ [call] <+: calls →
      KeepsAgreement (Run.run psStep (.init p2pState role powerMgnt smartPs ipsMode) past) call := by
  have hiff := @Trace.prefix_iff _ calls
    (fun past => PsAgrees (Run.run psStep (.init p2pState role powerMgnt smartPs ipsMode) past))
    (fun past => PsAgrees (Run.run psStep (.init p2pState role powerMgnt smartPs ipsMode) past))
    (fun past => KeepsAgreement (Run.run psStep (.init p2pState role powerMgnt smartPs ipsMode) past))
    (PwrCtrl.init_agrees p2pState role powerMgnt smartPs ipsMode) (fun _ h => h)
    (fun past call h hok => by rw [Run.run_append]; exact (psStep_agrees_iff h call).mpr hok)
    (fun past call h hnext => by rw [Run.run_append] at hnext; exact (psStep_agrees_iff h call).mp hnext)
  rw [← hiff]
  refine ⟨fun h => h.1,fun h => ⟨h,fun past call hpast => ?_⟩⟩
  exact (h past ((List.prefix_append past [call]).trans hpast)).refusalKeeps (h _ hpast)

/-- Nothing keeps the adapter from power save. -/
def PsEnv.calm : PsEnv where
  psDeny := 0
  bInSuspend := false
  delayLps := false
  ipsDeny := false
  siteMonitor := false
  underLinking := false
  underWps := false
  apState := false
  adhocState := false
  isRoCh := false
  lastRoCh := false
  scanDeny := false
  auth8021X := false
  binstallGrpkey := false
  pwrMgmt := true
  mpMode := false
  xmitPending := false

/-- A client is in power save when its group owner turns on opportunistic power save, and then is told to
leave. -/
def refusedLeave : List PsCall :=
  [.asocState true,.lpsEnter .calm,.lpsEnter .calm,.lpsEnter .calm,
    .p2pChange { P2pPs.init .GONEGO_OK .CLIENT false 2 0 with oppPs := 1, p2pPsMode := .CTWINDOW },.lpsLeave .calm]

/-- The firmware stays in mode 2, and `bpower_saving` is cleared. -/
theorem refused_leave_clears_bpower_saving :
    ¬∀ (p2pState : P2pState) (role : P2pRole) (powerMgnt smartPs : ℕ) (ipsMode : IpsMode) (calls : List PsCall),
      (∀ past, past <+: calls → PsAgrees (Run.run psStep (.init p2pState role powerMgnt smartPs ipsMode) past)) ∧
        ∀ past call, past ++ [call] <+: calls →
          RefusalKeeps (Run.run psStep (.init p2pState role powerMgnt smartPs ipsMode) past)
            (Run.run psStep (.init p2pState role powerMgnt smartPs ipsMode) (past ++ [call])) := by
  intro h
  have hagrees := (h .GONEGO_OK .CLIENT 2 2 .NORMAL refusedLeave).1 _ (List.prefix_refl _)
  exact absurd hagrees.saving (by decide)

end Runs

end Rtl8188fu
