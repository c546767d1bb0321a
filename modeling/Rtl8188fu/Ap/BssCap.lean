import Rtl8188fu.Ap.StaTable
import Rtl8188fu.Library.FlagCount

/-! # The capabilities that an access point announces for its stations

The counters of `mlme_priv` with the flags of the stations that they count, and the bits of
the beacon that are made of them. The channel width that the HT operation element announces
is left out.
-/
namespace Rtl8188fu

/-- The flags of `sta_info` that are counted: `nonerp_set`, `no_short_slot_time_set`,
`no_short_preamble_set`, `no_ht_gf_set`, `no_ht_set`, `ht_20mhz_set` and `ht_40mhz_intolerant` -/
inductive StaFlag
  | nonErp
  | noShortSlotTime
  | noShortPreamble
  | htNoGf
  | noHt
  | ht20mhz
  | ht40mhzIntolerant
  deriving DecidableEq, Repr

instance : Fintype StaFlag where
  elems := {.nonErp,.noShortSlotTime,.noShortPreamble,.htNoGf,.noHt,.ht20mhz,.ht40mhzIntolerant}
  complete k := by cases k <;> decide

/-- The ERP information element: `RTW_ERP_INFO_NON_ERP_PRESENT`, `RTW_ERP_INFO_USE_PROTECTION`
and `RTW_ERP_INFO_BARKER_PREAMBLE_MODE` -/
structure ErpInfo where
  nonErpPresent : Bool
  useProtection : Bool
  barkerPreambleMode : Bool
  deriving DecidableEq, Repr

/-- `ht_op_mode`: `HT_INFO_OPERATION_MODE_OP_MODE_MASK`,
`HT_INFO_OPERATION_MODE_NON_GF_DEVS_PRESENT` and `HT_INFO_OPERATION_MODE_NON_HT_STA_PRESENT` -/
structure HtOpMode where
  opMode : ℕ
  nonGfDevsPresent : Bool
  nonHtStaPresent : Bool
  deriving DecidableEq, Repr

def opModePure : ℕ := 0
def opModeMayBeLegacyStas : ℕ := 1
def opMode20mhzHtStaAssoced : ℕ := 2
def opModeMixed : ℕ := 3

structure BssCap where
  /-- `num_sta_non_erp` and the like, with the flags -/
  sta : FlagCount StaFlag ℕ
  olbc : Bool
  olbcHt : Bool
  ht20mhzWidthReq : Bool
  htIntolerantChReported : Bool
  htOption : Bool
  /-- `IEEE80211_HT_CAP_SUP_WIDTH` of the access point -/
  supWidth : Bool
  htOpMode : HtOpMode
  /-- the two elements of the beacon, when they are there -/
  erpIe : Option ErpInfo
  htInfoIe : Option HtOpMode

/-- After `start_ap_mode` -/
def BssCap.init : BssCap := ⟨.zero,false,false,false,false,false,false,⟨0,false,false⟩,none,none⟩

namespace BssCap

def updateBcnErpinfoIe (b : BssCap) : BssCap :=
  { b with erpIe := b.erpIe.map fun _ =>
      { nonErpPresent := b.sta.num .nonErp = 1
        useProtection := b.sta.num .nonErp = 1
        barkerPreambleMode := 0 < b.sta.num .noShortPreamble } }

def updateBcnHtinfoIe (b : BssCap) : BssCap :=
  if b.htOption then { b with htInfoIe := b.htInfoIe.map fun _ => b.htOpMode } else b

def put (b : BssCap) (k : StaFlag) (i : ℕ) (v : Bool) : BssCap := { b with sta := b.sta.put k i v }

/-- The counter of non-ERP stations; the beacon follows its first and last station. -/
def putNonErp (b : BssCap) (i : ℕ) (v : Bool) : BssCap :=
  if b.sta.flag .nonErp i = v then b
  else
    let b := b.put .nonErp i v
    if b.sta.num .nonErp = (if v then 1 else 0) then b.updateBcnErpinfoIe else b

/-- A bit of `ht_op_mode` with the number of changes -/
def opModeBit (cur want : Bool) : Bool × ℕ :=
  if !cur && want then (true,1) else if cur && !want then (false,1) else (cur,0)

def newOpMode (b : BssCap) : ℕ :=
  if b.sta.num .noHt ≠ 0 then opModeMixed
  else if b.supWidth ∧ b.sta.num .ht20mhz ≠ 0 then opMode20mhzHtStaAssoced
  else if b.olbcHt then opModeMayBeLegacyStas
  else opModePure

/-- `rtw_ht_operation_update`, with its number of changes -/
def rtwHtOperationUpdate (b : BssCap) : BssCap × ℕ :=
  if !b.htOption then (b,0)
  else
    let gf := opModeBit b.htOpMode.nonGfDevsPresent (b.sta.num .htNoGf ≠ 0)
    let ht := opModeBit b.htOpMode.nonHtStaPresent (b.sta.num .noHt ≠ 0 || b.olbcHt)
    ({ b with htOpMode := ⟨b.newOpMode,gf.1,ht.1⟩ },
      gf.2 + ht.2 + if b.htOpMode.opMode ≠ b.newOpMode then 1 else 0)

/-- The end of the two functions below -/
def htUpdate (b : BssCap) : BssCap :=
  let r := b.rtwHtOperationUpdate
  if 0 < r.2 then r.1.updateBcnHtinfoIe else r.1

/-- `bss_cap_update_on_sta_join`; the changes of preamble and slot time do not change the beacon. -/
def onStaJoin (b : BssCap) (i : ℕ) (caps : AssocCaps) : BssCap :=
  let b := b.put .noShortPreamble i !caps.shortPreamble
  let b := b.putNonErp i caps.nonErp
  let b := b.put .noShortSlotTime i !caps.shortSlot
  let b :=
    match caps.ht with
    | some (grnFld,supWidth) =>
      let b := b.put .noHt i false
      let b := if grnFld then b else b.put .htNoGf i true
      if supWidth then b else b.put .ht20mhz i true
    | none => b.put .noHt i true
  b.htUpdate

def onStaLeave (b : BssCap) (i : ℕ) : BssCap :=
  let b := b.put .noShortPreamble i false
  let b := b.putNonErp i false
  let b := b.put .noShortSlotTime i false
  let b := b.put .htNoGf i false
  let b := b.put .noHt i false
  let b := b.put .ht20mhz i false
  b.htUpdate

/-- What a handler of the station table does here -/
def effect (b : BssCap) : StaEffect → BssCap
  | .fresh i => { b with sta := b.sta.reset i }
  | .join i caps => b.onStaJoin i caps
  | .leave i => b.onStaLeave i
  | _ => b

end BssCap

/-- A public action frame about 20/40 MHz coexistence -/
structure CoexFrame where
  ta : MacAddr
  /-- `RTW_WLAN_20_40_BSS_COEX_40MHZ_INTOL` and `RTW_WLAN_20_40_BSS_COEX_20MHZ_WIDTH_REQ`
  of the coexistence element, when there is one -/
  coexistence : Option (Bool × Bool)
  /-- the frame has a report of intolerant channels -/
  intolerantChReport : Bool

/-- The beacon that user space sets, and what the scan in front of it found -/
structure BeaconData where
  /-- a recent network on a usable channel has no HT capabilities -/
  legacyBss : Bool
  /-- HT is enabled, and the beacon has HT capabilities -/
  htCap : Bool
  /-- `IEEE80211_HT_CAP_SUP_WIDTH`, if the beacon has HT capabilities -/
  supWidth : Option Bool
  /-- no channel switch or site survey is going on -/
  idle : Bool
  erpIe : Option ErpInfo
  htInfoIe : Option HtOpMode

/-- The coexistence element of a known station, and whether the beacon is to be updated -/
def bsscoexElement (b : BssCap) (f : CoexFrame) (i : ℕ) : BssCap × Bool :=
  match f.coexistence with
  | some (true,_) => if b.sta.flag .ht40mhzIntolerant i then (b,false) else (b.put .ht40mhzIntolerant i true,true)
  | some (false,true) => if b.ht20mhzWidthReq then (b,false) else ({ b with ht20mhzWidthReq := true },true)
  | _ => (b,false)

/-- `rtw_process_public_act_bsscoex` of a known station -/
def rtwProcessPublicActBsscoex (b : BssCap) (f : CoexFrame) (i : ℕ) : BssCap :=
  let r := bsscoexElement b f i
  let r :=
    if f.intolerantChReport && !r.1.htIntolerantChReported
      then ({ r.1 with htIntolerantChReported := true },true) else r
  if r.2 then r.1.updateBcnHtinfoIe else r.1

/-- `collect_bss_info` of a network, without HT capabilities or with them -/
def collectBssInfo (b : BssCap) (wifiSpec bwmodeUpdated ht : Bool) : BssCap :=
  if wifiSpec && !bwmodeUpdated && !ht then
    { b with sta.num := Function.update b.sta.num .noHt (b.sta.num .noHt + 1) }
  else b

def rtwApCheckScan (b : BssCap) (legacyBss : Bool) : BssCap :=
  { b with
    olbc := b.olbc || legacyBss
    olbcHt := b.olbcHt || legacyBss
    sta.num := Function.update b.sta.num .noHt 0 }

/-- `rtw_check_beacon_data`, and `start_bss_network` behind it -/
def rtwCheckBeaconData (b : BssCap) (d : BeaconData) : BssCap :=
  let b := rtwApCheckScan b d.legacyBss
  let b := { b with
    supWidth := d.supWidth.getD b.supWidth
    htOption := d.htCap
    erpIe := d.erpIe
    htInfoIe := d.htInfoIe }
  if d.idle ∧ (b.olbc || b.olbcHt) then
    { b with htOpMode.opMode := opModeMayBeLegacyStas }.updateBcnHtinfoIe
  else b

/-- The access point: its station table and what it announces -/
structure Bss where
  table : StaTable
  cap : BssCap

inductive BssEvent
  | sta (e : StaEvent)
  | coex (f : CoexFrame)
  | survey (wifiSpec bwmodeUpdated ht : Bool)
  | beacon (d : BeaconData)

def Bss.init : Bss := ⟨.init,.init⟩

def bssStep (s : Bss) : BssEvent → Bss
  | .sta e =>
    let r := staStep s.table e
    ⟨r.1,r.2.foldl BssCap.effect s.cap⟩
  | .coex f =>
    match s.table.getStainfo f.ta with
    | none => s
    | some i => { s with cap := rtwProcessPublicActBsscoex s.cap f i }
  | .survey wifiSpec bwmodeUpdated ht => { s with cap := collectBssInfo s.cap wifiSpec bwmodeUpdated ht }
  | .beacon d => { s with cap := rtwCheckBeaconData s.cap d }

end Rtl8188fu
