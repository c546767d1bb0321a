import Rtl8188fu.Library.CellLoop

/-! # The transmit power index

The tables of the 2.4 GHz band, their conversion and `PHY_GetTxPowerIndex_8188F`. Signed bytes
wrap as in the source; a difference with an unsigned byte is the same byte.
-/
namespace Rtl8188fu
open CellLoop

def MAX_POWER_INDEX : Int8 := 0x3f
def NSS_NUM_8188F : ℕ := 1
def RF_PATH_MAX : ℕ := 4
def RF_MAX_TX_NUM : ℕ := 4
def MAX_REGULATION_NUM : ℕ := 4
def MAX_2_4G_BANDWIDTH_NUM : ℕ := 2
def CENTER_CH_2G_NUM : ℕ := 14
def HT_4SS : ℕ := 5
def RATE_SECTION_NUM : ℕ := 10

inductive TxPwrLmt
  | fcc
  | mkk
  | etsi
  | ww
  deriving DecidableEq

/-- `TXPWR_LMT_FCC` and so on -/
def TxPwrLmt.idx : TxPwrLmt → ℕ
  | fcc => 0
  | mkk => 1
  | etsi => 2
  | ww => 3

inductive ChannelWidth
  | w20
  | w40
  deriving DecidableEq

inductive MgnRate
  | m1 | m2 | m5_5 | m11
  | m6 | m9 | m12 | m18 | m24 | m36 | m48 | m54
  | mcs0 | mcs1 | mcs2 | mcs3 | mcs4 | mcs5 | mcs6 | mcs7
  deriving DecidableEq

namespace MgnRate

/-- `enum MGN_RATE` -/
def code : MgnRate → ℕ
  | m1 => 0x02 | m2 => 0x04 | m5_5 => 0x0b | m11 => 0x16
  | m6 => 0x0c | m9 => 0x12 | m12 => 0x18 | m18 => 0x24 | m24 => 0x30 | m36 => 0x48 | m48 => 0x60 | m54 => 0x6c
  | mcs0 => 0x80 | mcs1 => 0x81 | mcs2 => 0x82 | mcs3 => 0x83 | mcs4 => 0x84 | mcs5 => 0x85 | mcs6 => 0x86
    | mcs7 => 0x87

def isCck : MgnRate → Bool
  | m1 | m2 | m5_5 | m11 => true
  | _ => false

/-- `PHY_GetRateIndexOfTxPowerByRate` -/
def index : MgnRate → ℕ
  | m1 => 0 | m2 => 1 | m5_5 => 2 | m11 => 3
  | m6 => 4 | m9 => 5 | m12 => 6 | m18 => 7 | m24 => 8 | m36 => 9 | m48 => 10 | m54 => 11
  | mcs0 => 12 | mcs1 => 13 | mcs2 => 14 | mcs3 => 15 | mcs4 => 16 | mcs5 => 17 | mcs6 => 18 | mcs7 => 19

/-- The section of a rate in `PHY_GetTxPowerLimit` -/
def rateSection : MgnRate → ℕ
  | m1 | m2 | m5_5 | m11 => 0
  | m6 | m9 | m12 | m18 | m24 | m36 | m48 | m54 => 1
  | _ => 2

end MgnRate

def rateSectionToTxNum (rs : ℕ) : ℕ := [0, 0, 0, 1, 2, 3, 0, 1, 2, 3].getD rs 0

/-- `rate_sec_base`, as indices of rates: the highest common rate of each section -/
def rateSecBase (rs : ℕ) : ℕ := [3, 11, 19, 27, 35, 43, 51, 61, 71, 81].getD rs 0

/-- The rates of a section as they lie in the table, with the base among them -/
structure RateSpan where
  first : ℕ
  count : ℕ
  base : ℕ
  inSpan : first ≤ base ∧ base < first + count
  deriving DecidableEq

/-- The sections of `phy_ConvertTxPowerByRateInDbmToRelativeValues` -/
def rateSpans : List RateSpan :=
  [⟨0,4,3,by decide⟩,⟨4,8,11,by decide⟩,⟨12,8,19,by decide⟩,⟨20,8,27,by decide⟩,⟨28,8,35,by decide⟩,
    ⟨44,10,51,by decide⟩,⟨54,10,61,by decide⟩,⟨64,10,71,by decide⟩]

/-- The fields of the HAL data and the registry that the power index is made of, in the
2.4 GHz band -/
structure PwrHal where
  /-- `TxPwrByRateOffset`, for a path, a number of streams and the index of a rate -/
  rateOffset : ℕ × ℕ × ℕ → Int8
  /-- `TxPwrByRateBase2_4G`, for a path, a number of streams and a section -/
  rateBase : ℕ × ℕ × ℕ → UInt8
  /-- `TxPwrLimit_2_4G`, for a regulation, a bandwidth, a channel and a section; then the path -/
  limit : ℕ × ℕ × ℕ × ℕ → ℕ → Int8
  /-- `PhyRegPgValueType` is `PHY_REG_PG_EXACT_VALUE`. -/
  exactValue : Bool
  regEnableTxPowerLimit : ℕ
  regEnableTxPowerByRate : ℕ
  eepromRegulatory : ℕ
  regPwrTblSel : ℕ
  regulation24G : TxPwrLmt
  targetTxPwr : ℕ → ℕ → Int8
  targetTxPwrValid : Bool
  /-- `Index24G_CCK_Base` and `Index24G_BW40_Base`, for a path and a channel -/
  cckBase : ℕ → ℕ → UInt8
  bw40Base : ℕ → ℕ → UInt8
  /-- the differences of one stream, for a path -/
  ofdmDiff : ℕ → Int8
  bw20Diff : ℕ → Int8
  bw40Diff : ℕ → Int8
  currentChannelBW : ChannelWidth
  currentChannel : ℕ
  txPowerTrackControl : Bool
  remnantCckSwingIdx : Int8
  remnantOfdmSwingIdx : ℕ → Int8
  channelOk : 1 ≤ currentChannel ∧ currentChannel ≤ 14

def phyIsTxPowerByRateNeeded (h : PwrHal) : Bool :=
  h.regEnableTxPowerByRate = 1 ∨ (h.regEnableTxPowerByRate = 2 ∧ h.eepromRegulatory ≠ 2)

def phyIsTxPowerLimitNeeded (h : PwrHal) : Bool :=
  h.regEnableTxPowerLimit = 1 ∨ (h.regEnableTxPowerLimit = 2 ∧ h.eepromRegulatory = 1)

def phyGetTxPowerByRate (h : PwrHal) (path txNum : ℕ) (rate : MgnRate) : Int8 :=
  if phyIsTxPowerByRateNeeded h then h.rateOffset (path,txNum,rate.index) else 0

def phyGetTargetTxPower (h : PwrHal) (path rs : ℕ) : UInt8 :=
  if phyIsTxPowerByRateNeeded h = false ∧ h.targetTxPwrValid = true then (2 * h.targetTxPwr path rs).toUInt8
  else h.rateBase (path,rateSectionToTxNum rs,rs)

/-- The turns of `phy_StoreTxPowerByRateBase` -/
def baseCells : List (ℕ × ℕ × ℕ) :=
  (List.range RF_PATH_MAX).flatMap fun path =>
    ((List.range RATE_SECTION_NUM).filter fun rs => rateSectionToTxNum rs < NSS_NUM_8188F).map fun rs =>
      (path,rateSectionToTxNum rs,rs)

def phyStoreTxPowerByRateBase (h : PwrHal) : PwrHal :=
  { h with
    rateBase :=
      run (updateStep fun cell _ => (h.rateOffset (cell.1,cell.2.1,rateSecBase cell.2.2)).toUInt8) baseCells
      h.rateBase }

/-- One section of one path: the base is read before the loop over its rates. -/
def convertSection (needed : Bool) (s : ℕ × ℕ × RateSpan) (t : ℕ × ℕ × ℕ → Int8) :
    ℕ × ℕ × ℕ → Int8 :=
  let get := fun value : Int8 => if needed then value else 0
  let base := get (t (s.1,s.2.1,s.2.2.base))
  run (updateStep fun _ value => get value - base)
    ((List.range' s.2.2.first s.2.2.count).map fun i => (s.1,s.2.1,i)) t

/-- The turns of `phy_ConvertTxPowerByRateInDbmToRelativeValues` -/
def sectionTurns : List (ℕ × ℕ × RateSpan) :=
  List.range RF_PATH_MAX ×ˢ (List.range RF_MAX_TX_NUM ×ˢ rateSpans)

def phyConvertTxPowerByRate (h : PwrHal) : PwrHal :=
  { h with rateOffset := run (convertSection (phyIsTxPowerByRateNeeded h)) sectionTurns h.rateOffset }

def phyTxPowerByRateConfiguration (h : PwrHal) : PwrHal := phyConvertTxPowerByRate (phyStoreTxPowerByRateBase h)

/-- The turns of `PHY_ConvertTxPowerLimitToPowerIndex` -/
def limitRows : List (ℕ × ℕ × ℕ × ℕ) :=
  List.range MAX_REGULATION_NUM ×ˢ (List.range MAX_2_4G_BANDWIDTH_NUM ×ˢ
    (List.range CENTER_CH_2G_NUM ×ˢ List.range (HT_4SS + 1)))

/-- The limit of path A less the base of each path -/
def convertRow (h : PwrHal) (cell : ℕ × ℕ × ℕ × ℕ) (row : ℕ → Int8) : ℕ → Int8 :=
  let tempPwrLmt := row 0
  if tempPwrLmt = MAX_POWER_INDEX then row
  else run (updateStep fun path _ => tempPwrLmt - (phyGetTargetTxPower h path cell.2.2.2).toInt8)
    (List.range RF_PATH_MAX) row

def convertLimits (h : PwrHal) : ℕ × ℕ × ℕ × ℕ → ℕ → Int8 :=
  run (updateStep (convertRow h)) limitRows h.limit

def phyConvertTxPowerLimitToPowerIndex (h : PwrHal) : PwrHal :=
  if h.exactValue then { h with limit := convertLimits h } else h

def phyGetWorldWideLimit (limitTable : List Int8) : Int8 :=
  limitTable.foldl (fun least v => if v < least then v else least) (limitTable.getD 0 0)

/-- The regulation that `PHY_GetTxPowerLimit` selects -/
def selectRegulation (h : PwrHal) : TxPwrLmt :=
  match h.regPwrTblSel with
  | 1 => .etsi
  | 2 => .mkk
  | 3 => .fcc
  | 4 => .ww
  | _ => h.regulation24G

/-- The bandwidth whose limits apply: legacy rates have those of 20 MHz. -/
def limitBandwidth (bw : ChannelWidth) (rate : MgnRate) : ℕ :=
  if rate.rateSection = 1 ∨ rate.rateSection = 0 then 0
  else match bw with
    | .w20 => 0
    | .w40 => 1

/-- `PHY_GetTxPowerLimit` in the 2.4 GHz band -/
def phyGetTxPowerLimit (h : PwrHal) (bw : ChannelWidth) (path : ℕ) (rate : MgnRate) (channel : ℕ) : Int8 :=
  if (h.regEnableTxPowerLimit = 2 ∧ h.eepromRegulatory ≠ 1) ∨ h.regEnableTxPowerLimit = 0 then MAX_POWER_INDEX
  else if channel = 0 then MAX_POWER_INDEX
  else
    let at_ := fun regulation => h.limit (regulation,limitBandwidth bw rate,channel - 1,rate.rateSection) path
    let regulation := selectRegulation h
    if regulation = .ww then phyGetWorldWideLimit ((List.range MAX_REGULATION_NUM).map at_) else at_ regulation.idx

/-- `PHY_GetTxPowerIndexBase` in the 2.4 GHz band -/
def phyGetTxPowerIndexBase (h : PwrHal) (path : ℕ) (rate : MgnRate) (bw : ChannelWidth) (channel : ℕ) : UInt8 :=
  let chnlIdx := channel - 1
  let txPower :=
    if rate.isCck then h.cckBase path chnlIdx
    else if MgnRate.m6.code ≤ rate.code then h.bw40Base path chnlIdx
    else 0
  let txPower :=
    if MgnRate.m6.code ≤ rate.code ∧ rate.code ≤ MgnRate.m54.code ∧
      rate.isCck = false then txPower + (h.ofdmDiff path).toUInt8
    else txPower
  match bw with
  | .w20 => if MgnRate.mcs0.code ≤ rate.code then txPower + (h.bw20Diff path).toUInt8 else txPower
  | .w40 => if MgnRate.mcs0.code ≤ rate.code then txPower + (h.bw40Diff path).toUInt8 else txPower

def phyGetTxPowerTrackingOffset (h : PwrHal) (path : ℕ) (rate : MgnRate) : Int8 :=
  if h.txPowerTrackControl = false then 0
  else if rate.isCck then h.remnantCckSwingIdx
  else h.remnantOfdmSwingIdx path

def phyGetTxPowerIndex8188F (h : PwrHal) (path : ℕ) (rate : MgnRate) (bw : ChannelWidth) (channel : ℕ) : UInt8 :=
  let txPower := (phyGetTxPowerIndexBase h path rate bw channel).toInt8
  let powerDiffByRate := phyGetTxPowerByRate h 0 0 rate
  let limit := phyGetTxPowerLimit h h.currentChannelBW path rate h.currentChannel
  let powerDiffByRate := if limit < powerDiffByRate then limit else powerDiffByRate
  let txPower := txPower + powerDiffByRate
  let txPower := txPower + phyGetTxPowerTrackingOffset h path rate
  let txPower := if MAX_POWER_INDEX < txPower then MAX_POWER_INDEX else txPower
  txPower.toUInt8

/-! ## What the conversions leave in a cell -/

/-- The cells of one turn of the conversion -/
def ownsRate (s : ℕ × ℕ × RateSpan) (cell : ℕ × ℕ × ℕ) : Prop :=
  cell.1 = s.1 ∧ cell.2.1 = s.2.1 ∧ s.2.2.first ≤ cell.2.2 ∧ cell.2.2 < s.2.2.first + s.2.2.count

theorem mem_section (s : ℕ × ℕ × RateSpan) (cell : ℕ × ℕ × ℕ) :
    (cell ∈ (List.range' s.2.2.first s.2.2.count).map fun i => (s.1,s.2.1,i)) ↔ ownsRate s cell := by
  obtain ⟨path,txNum,i⟩ := cell
  simp only [List.mem_map, List.mem_range'_1, Prod.mk.injEq, ownsRate]
  constructor
  · rintro ⟨j,hj,rfl,rfl,rfl⟩
    exact ⟨rfl,rfl,hj⟩
  · rintro ⟨rfl,rfl,hi⟩
    exact ⟨i,hi,rfl,rfl,rfl⟩

theorem convertSection_apply (needed : Bool) (s : ℕ × ℕ × RateSpan) (t : ℕ × ℕ × ℕ → Int8)
    (cell : ℕ × ℕ × ℕ)
    [Decidable (ownsRate s cell)] :
    convertSection needed s t cell =
      if ownsRate s cell then (if needed then t cell else 0) - (if needed then t (s.1,s.2.1,s.2.2.base) else 0)
      else t cell := by
  have hnodup : ((List.range' s.2.2.first s.2.2.count).map fun i => (s.1,s.2.1,i)).Nodup := by
    refine List.Nodup.map ?_ List.nodup_range'
    intro i j hij
    exact (Prod.mk.inj (Prod.mk.inj hij).2).2
  rw [convertSection, run_updateStep _ hnodup]
  simp only [mem_section]

theorem local_convertSection (needed : Bool) : Local ownsRate (convertSection needed) where
  writes s t cell hcell := by
    classical
    rw [convertSection_apply, if_neg hcell]
  reads s t u htu cell hcell := by
    classical
    have hbase : ownsRate s (s.1,s.2.1,s.2.2.base) := ⟨rfl,rfl,s.2.2.inSpan⟩
    rw [convertSection_apply, convertSection_apply, if_pos hcell, if_pos hcell, htu cell hcell, htu _ hbase]

theorem rateSpans_disjoint : ∀ s ∈ rateSpans, ∀ u ∈ rateSpans, s ≠ u → s.first + s.count ≤ u.first ∨
    u.first + u.count ≤ s.first := by
  decide

theorem sectionTurns_disjoint : sectionTurns.Pairwise fun s u => ∀ cell, ownsRate s cell → ¬ ownsRate u cell := by
  have hspans : rateSpans.Nodup := by decide
  have hnodup : sectionTurns.Nodup := List.nodup_range.product (List.nodup_range.product hspans)
  refine List.Pairwise.imp_of_mem ?_ hnodup
  rintro ⟨path,txNum,s⟩ ⟨path',txNum',u⟩ hs hu hne cell ⟨hp,hx,hlo,hhi⟩ ⟨hp',hx',hlo',hhi'⟩
  have hs := (List.mem_product.mp (List.mem_product.mp hs).2).2
  have hu := (List.mem_product.mp (List.mem_product.mp hu).2).2
  by_cases hsu : s = u
  · have hp : path = path' := hp.symm.trans hp'
    have hx : txNum = txNum' := hx.symm.trans hx'
    exact hne (by rw [hp, hx, hsu])
  · have := rateSpans_disjoint s hs u hu hsu
    dsimp only at hlo hhi hlo' hhi'
    omega

/-- The section of a rate in the conversion -/
def MgnRate.span (rate : MgnRate) : RateSpan :=
  if rate.rateSection = 0 then ⟨0,4,3,by decide⟩ else if rate.rateSection = 1 then ⟨4,8,11,by decide⟩
    else ⟨12,8,19,by decide⟩

theorem span_spec (rate : MgnRate) : rate.span ∈ rateSpans ∧ rate.span.first ≤ rate.index ∧
    rate.index < rate.span.first + rate.span.count ∧ rate.span.base = rateSecBase rate.rateSection := by
  cases rate <;> decide

theorem rateOffset_convert {h : PwrHal} (hneeded : phyIsTxPowerByRateNeeded h = true) {path : ℕ}
    (hpath : path < RF_PATH_MAX)
    (rate : MgnRate) :
    (phyConvertTxPowerByRate h).rateOffset (path,0,rate.index) =
      h.rateOffset (path,0,rate.index) - h.rateOffset (path,0,rateSecBase rate.rateSection) := by
  classical
  obtain ⟨hmem,hlo,hhi,hbase⟩ := span_spec rate
  have hturn : (path,0,rate.span) ∈ sectionTurns :=
    List.mem_product.mpr ⟨List.mem_range.mpr hpath,List.mem_product.mpr ⟨List.mem_range.mpr (by decide),hmem⟩⟩
  have hown : ownsRate (path,0,rate.span) (path,0,rate.index) := ⟨rfl,rfl,hlo,hhi⟩
  change run (convertSection (phyIsTxPowerByRateNeeded h)) sectionTurns h.rateOffset (path,0,rate.index) = _
  rw [run_of_own (local_convertSection _) sectionTurns_disjoint hturn hown, convertSection_apply, if_pos hown,
    hneeded, hbase]
  rfl

/-- The base that is stored for a section of one stream -/
theorem rateBase_store (h : PwrHal) {path : ℕ} (hpath : path < RF_PATH_MAX) (rate : MgnRate) :
    (phyStoreTxPowerByRateBase h).rateBase (path,0,rate.rateSection) =
      (h.rateOffset (path,0,rateSecBase rate.rateSection)).toUInt8 := by
  have hnodup : baseCells.Nodup := by decide
  have hall : ∀ path < RF_PATH_MAX, ∀ rs < 3, (path,0,rs) ∈ baseCells := by decide
  have hrs : rate.rateSection < 3 := by cases rate <;> decide
  change run (updateStep _) baseCells h.rateBase _ = _
  rw [run_updateStep _ hnodup, if_pos (hall path hpath _ hrs)]

theorem limit_convert (h : PwrHal) {regulation bw channel rs path : ℕ} (hreg : regulation < MAX_REGULATION_NUM)
    (hbw : bw < MAX_2_4G_BANDWIDTH_NUM) (hchannel : channel < CENTER_CH_2G_NUM) (hrs : rs < HT_4SS + 1)
    (hpath : path < RF_PATH_MAX) :
    (phyConvertTxPowerLimitToPowerIndex h).limit (regulation,bw,channel,rs) path =
      if h.exactValue = true ∧ h.limit (regulation,bw,channel,rs) 0 ≠ MAX_POWER_INDEX then
        h.limit (regulation,bw,channel,rs) 0 - (phyGetTargetTxPower h path rs).toInt8
      else h.limit (regulation,bw,channel,rs) path := by
  have hnodup : limitRows.Nodup :=
    List.nodup_range.product (List.nodup_range.product (List.nodup_range.product List.nodup_range))
  have hmem : (regulation,bw,channel,rs) ∈ limitRows :=
    List.mem_product.mpr ⟨List.mem_range.mpr hreg,List.mem_product.mpr ⟨List.mem_range.mpr hbw,List.mem_product.mpr
      ⟨List.mem_range.mpr hchannel,List.mem_range.mpr hrs⟩⟩⟩
  rw [phyConvertTxPowerLimitToPowerIndex]
  cases hexact : h.exactValue with
  | false => rw [if_neg Bool.false_ne_true, if_neg (fun hc => Bool.false_ne_true hc.1)]
  | true =>
    rw [if_pos rfl]
    have hrow : convertLimits h (regulation,bw,channel,rs) =
        convertRow h (regulation,bw,channel,rs) (h.limit (regulation,bw,channel,rs)) := by
      rw [convertLimits]
      generalize limitRows = rows at hnodup hmem
      rw [run_updateStep _ hnodup, if_pos hmem]
    dsimp only
    rw [hrow, convertRow]
    by_cases hmax : h.limit (regulation,bw,channel,rs) 0 = MAX_POWER_INDEX
    · rw [if_pos hmax, if_neg (fun hc => hc.2 hmax)]
    · rw [if_neg hmax, if_pos ⟨rfl,hmax⟩, run_updateStep _ List.nodup_range, if_pos (List.mem_range.mpr hpath)]

/-! ## Bytes as integers -/

theorem toInt_eq_bmod (x : Int8) : x.toInt = (x.toUInt8.toNat : ℤ).bmod 256 := by
  rw [← Int8.toNat_toBitVec]
  exact BitVec.toInt_eq_toNat_bmod _

theorem toInt8_toInt (b : UInt8) : b.toInt8.toInt = (b.toNat : ℤ).bmod 256 := by
  rw [toInt_eq_bmod, UInt8.toUInt8_toInt8]

theorem least_toInt (least v : Int8) : (if v < least then v else least).toInt = min least.toInt v.toInt := by
  split
  · rename_i hlt
    have := Int8.lt_iff_toInt_lt.mp hlt
    omega
  · rename_i hge
    have := mt Int8.lt_iff_toInt_lt.mpr hge
    omega

/-- The last steps of the power index: the sum wraps, and only the upper bound is checked. -/
theorem clamp_iff (base : UInt8) (diff offset : Int8) {s : ℤ} (hs : s = base.toNat + diff.toInt + offset.toInt) :
    (((if MAX_POWER_INDEX < base.toInt8 + diff + offset then MAX_POWER_INDEX
        else base.toInt8 + diff + offset).toUInt8.toNat : ℤ) =
        max 0 (min 63 s)) ↔ (0 ≤ s ∧ s ≤ 127) ∨ s = -256 ∨ (319 ≤ s ∧ s ≤ 383) := by
  have hb := base.toNat_lt
  have hd := diff.toInt_lt
  have hd' := diff.le_toInt
  have ho := offset.toInt_lt
  have ho' := offset.le_toInt
  have hsum : (base.toInt8 + diff + offset).toInt = s.bmod 256 := by
    rw [Int8.toInt_add, Int8.toInt_add, toInt8_toInt, hs]
    simp only [Int.bmod_def]
    omega
  generalize base.toInt8 + diff + offset = x at hsum
  have hx := toInt_eq_bmod x
  have hn := x.toUInt8.toNat_lt
  have hmax : (MAX_POWER_INDEX < x) ↔ 63 < x.toInt := Int8.lt_iff_toInt_lt
  simp only [Int.bmod_def] at hx hsum
  by_cases hlt : 63 < x.toInt
  · rw [if_pos (hmax.mpr hlt)]
    change (63 : ℤ) = _ ↔ _
    omega
  · rw [if_neg (mt hmax.mp hlt)]
    omega

/-! ## The power index and the limit -/

/-- `PHY_TxPowerByRateConfiguration`, then `PHY_ConvertTxPowerLimitToPowerIndex` -/
def configure (h : PwrHal) : PwrHal := phyConvertTxPowerLimitToPowerIndex (phyTxPowerByRateConfiguration h)

/-- The base of a rate's section -/
def sectionBase (h : PwrHal) (path : ℕ) (rate : MgnRate) : ℤ :=
  (h.rateOffset (path,0,rateSecBase rate.rateSection)).toInt

def byRateDiff (h : PwrHal) (rate : MgnRate) : ℤ := (h.rateOffset (0,0,rate.index)).toInt - sectionBase h 0 rate

/-- The limits for a rate, for each path -/
def limitEntry (h : PwrHal) (bw : ChannelWidth) (channel : ℕ) (rate : MgnRate) (regulation : TxPwrLmt) :
    ℕ → Int8 :=
  h.limit (regulation.idx,limitBandwidth bw rate,channel - 1,rate.rateSection)

/-- The configured limit less the base; a missing entry stays. -/
def limitDiff (h : PwrHal) (bw : ChannelWidth) (channel : ℕ) (rate : MgnRate) (regulation : TxPwrLmt) : ℤ :=
  if limitEntry h bw channel rate regulation 0 = MAX_POWER_INDEX then 63
  else (limitEntry h bw channel rate regulation 0).toInt - sectionBase h 0 rate

/-- What becomes of the entry that is looked up, if nothing wraps -/
def storedLimit (h : PwrHal) (path : ℕ) (rate : MgnRate) (regulation : TxPwrLmt) : ℤ :=
  let entry := limitEntry h h.currentChannelBW h.currentChannel rate regulation
  if h.exactValue = true ∧ entry 0 ≠ MAX_POWER_INDEX then (entry 0).toInt - sectionBase h path rate
    else (entry path).toInt

def usedRegulations (h : PwrHal) : List TxPwrLmt :=
  match selectRegulation h with
  | .ww => [.fcc,.mkk,.etsi,.ww]
  | r => [r]

/-- The limit of the regulation, worldwide the least of all -/
def leastLimit (d : TxPwrLmt → ℤ) : TxPwrLmt → ℤ
  | .ww => min (min (min (d .fcc) (d .mkk)) (d .etsi)) (d .ww)
  | r => d r

def powerSum (h : PwrHal) (path : ℕ) (rate : MgnRate) (bw : ChannelWidth) (channel : ℕ) : ℤ :=
  (phyGetTxPowerIndexBase h path rate bw channel).toNat +
    min (byRateDiff h rate) (leastLimit (limitDiff h bw channel rate) (selectRegulation h)) +
    (phyGetTxPowerTrackingOffset h path rate).toInt

/-- No difference wraps, and the index is the sum, cut to the range of power indices. -/
structure TxPowerRespectsLimit (h : PwrHal) (path : ℕ) (rate : MgnRate) (bw : ChannelWidth) (channel : ℕ) :
    Prop where
  byRate : (phyGetTxPowerByRate (configure h) 0 0 rate).toInt = byRateDiff h rate
  limits : ∀ r ∈ usedRegulations h,
    (limitEntry (configure h) h.currentChannelBW h.currentChannel rate r path).toInt = limitDiff h bw channel rate r
  index : ((phyGetTxPowerIndex8188F (configure h) path rate bw channel).toNat : ℤ) =
    max 0 (min 63 (powerSum h path rate bw channel))

def InS8 (n : ℤ) : Prop := -128 ≤ n ∧ n ≤ 127

/-- The condition on the tables -/
structure TxPowerFits (h : PwrHal) (path : ℕ) (rate : MgnRate) (bw : ChannelWidth) (channel : ℕ) : Prop where
  byRate : InS8 (byRateDiff h rate)
  limits : ∀ r ∈ usedRegulations h, InS8 (limitDiff h bw channel rate r) ∧
    storedLimit h path rate r ≡ limitDiff h bw channel rate r [ZMOD 256]
  sum : (0 ≤ powerSum h path rate bw channel ∧ powerSum h path rate bw channel ≤ 127) ∨
    powerSum h path rate bw channel = -256 ∨
      (319 ≤ powerSum h path rate bw channel ∧ powerSum h path rate bw channel ≤ 383)

theorem configure_eq (h : PwrHal) : ∃ offsets bases limits,
    configure h = { h with rateOffset := offsets, rateBase := bases, limit := limits } := by
  rw [configure, phyConvertTxPowerLimitToPowerIndex]
  split
  · exact ⟨_,_,_,rfl⟩
  · exact ⟨_,_,_,rfl⟩

theorem configure_rateOffset (h : PwrHal) :
    (configure h).rateOffset = (phyTxPowerByRateConfiguration h).rateOffset := by
  rw [configure, phyConvertTxPowerLimitToPowerIndex]
  split
  · rfl
  · rfl

section
variable {h : PwrHal} {path : ℕ} {rate : MgnRate} {bw : ChannelWidth} {channel : ℕ}

theorem byRate_configure (hneeded : phyIsTxPowerByRateNeeded h = true) :
    phyGetTxPowerByRate (configure h) 0 0 rate = h.rateOffset (0,0,rate.index) -
    h.rateOffset (0,0,rateSecBase rate.rateSection) := by
  have hstill : phyIsTxPowerByRateNeeded (configure h) = true := by
    obtain ⟨offsets,bases,limits,hc⟩ := configure_eq h
    rw [hc]
    exact hneeded
  have hstored : phyIsTxPowerByRateNeeded (phyStoreTxPowerByRateBase h) = true := hneeded
  rw [phyGetTxPowerByRate, if_pos hstill, configure_rateOffset, phyTxPowerByRateConfiguration,
    rateOffset_convert hstored (by decide)]
  rfl

theorem byRate_iff (hneeded : phyIsTxPowerByRateNeeded h = true) :
    (phyGetTxPowerByRate (configure h) 0 0 rate).toInt = byRateDiff h rate ↔ InS8 (byRateDiff h rate) := by
  rw [byRate_configure hneeded, Int8.toInt_sub, byRateDiff, sectionBase, InS8]
  simp only [Int.bmod_def]
  omega

theorem limit_configure (hneeded : phyIsTxPowerByRateNeeded h = true) (hpath : path < RF_PATH_MAX)
    (regulation : TxPwrLmt) :
    (limitEntry (configure h) h.currentChannelBW h.currentChannel rate regulation path).toInt =
      (storedLimit h path rate regulation).bmod 256 := by
  have hreg : regulation.idx < MAX_REGULATION_NUM := by cases regulation <;> decide
  have hbw : limitBandwidth h.currentChannelBW rate < MAX_2_4G_BANDWIDTH_NUM := by
    cases h.currentChannelBW <;> cases rate <;> decide
  have hchannel : h.currentChannel - 1 < CENTER_CH_2G_NUM := by
    have hle : h.currentChannel ≤ 14 := h.channelOk.2
    change h.currentChannel - 1 < 14
    omega
  have hrs : rate.rateSection < HT_4SS + 1 := by cases rate <;> decide
  have htxNum : rateSectionToTxNum rate.rateSection = 0 := by cases rate <;> decide
  have hstill : phyIsTxPowerByRateNeeded (phyTxPowerByRateConfiguration h) = true := hneeded
  have htarget : phyGetTargetTxPower (phyTxPowerByRateConfiguration h) path rate.rateSection =
      (h.rateOffset (path,0,rateSecBase rate.rateSection)).toUInt8 := by
    rw [phyGetTargetTxPower, if_neg (fun hc => Bool.false_ne_true (hc.1.symm.trans hstill)), htxNum]
    exact rateBase_store h hpath rate
  have hvalue := limit_convert (phyTxPowerByRateConfiguration h) hreg hbw hchannel hrs hpath
  rw [htarget, Int8.toInt8_toUInt8] at hvalue
  rw [limitEntry, configure, hvalue, storedLimit]
  change Int8.toInt (if h.exactValue = true ∧
    limitEntry h h.currentChannelBW h.currentChannel rate regulation 0 ≠ MAX_POWER_INDEX then
    limitEntry h h.currentChannelBW h.currentChannel rate regulation 0 -
      h.rateOffset (path,0,rateSecBase rate.rateSection)
    else limitEntry h h.currentChannelBW h.currentChannel rate regulation path) = _
  split
  · rw [Int8.toInt_sub, sectionBase]
  · have hlt := (limitEntry h h.currentChannelBW h.currentChannel rate regulation path).toInt_lt
    have hle := (limitEntry h h.currentChannelBW h.currentChannel rate regulation path).le_toInt
    simp only [Int.bmod_def]
    omega

theorem limit_iff (hneeded : phyIsTxPowerByRateNeeded h = true) (hpath : path < RF_PATH_MAX) (regulation : TxPwrLmt) :
    (limitEntry (configure h) h.currentChannelBW h.currentChannel rate regulation path).toInt =
      limitDiff h bw channel rate regulation ↔
      InS8 (limitDiff h bw channel rate regulation) ∧
      storedLimit h path rate regulation ≡ limitDiff h bw channel rate regulation [ZMOD 256] := by
  rw [limit_configure hneeded hpath, InS8, Int.ModEq]
  simp only [Int.bmod_def]
  omega

/-- The limit that is used is the least of those that are stored. -/
theorem phyGetTxPowerLimit_configure (hlimit : phyIsTxPowerLimitNeeded h = true) (path : ℕ) :
    (phyGetTxPowerLimit (configure h) h.currentChannelBW path rate h.currentChannel).toInt =
      leastLimit (fun r => (limitEntry (configure h) h.currentChannelBW h.currentChannel rate r path).toInt)
      (selectRegulation h) := by
  have hfields : (configure h).regEnableTxPowerLimit = h.regEnableTxPowerLimit ∧
      (configure h).eepromRegulatory = h.eepromRegulatory ∧ selectRegulation (configure h) = selectRegulation h := by
    obtain ⟨offsets,bases,limits,hc⟩ := configure_eq h
    rw [hc]
    exact ⟨rfl,rfl,rfl⟩
  have hon : ¬ ((h.regEnableTxPowerLimit = 2 ∧ h.eepromRegulatory ≠ 1) ∨ h.regEnableTxPowerLimit = 0) := by
    have := of_decide_eq_true hlimit
    omega
  have hchannel : h.currentChannel ≠ 0 := by
    have := h.channelOk.1
    omega
  rw [phyGetTxPowerLimit, hfields.1, hfields.2.1, if_neg hon, if_neg hchannel]
  dsimp only
  rw [hfields.2.2]
  cases selectRegulation h with
  | ww =>
    rw [if_pos rfl]
    change (phyGetWorldWideLimit [limitEntry (configure h) h.currentChannelBW h.currentChannel rate .fcc path,
      limitEntry (configure h) h.currentChannelBW h.currentChannel rate .mkk path,
      limitEntry (configure h) h.currentChannelBW h.currentChannel rate .etsi path,
      limitEntry (configure h) h.currentChannelBW h.currentChannel rate .ww path]).toInt = _
    rw [phyGetWorldWideLimit]
    simp only [List.foldl_cons, List.foldl_nil, least_toInt, List.getD_cons_zero, min_self, leastLimit]
  | fcc => rfl
  | mkk => rfl
  | etsi => rfl

theorem leastLimit_congr {d e : TxPwrLmt → ℤ} (heq : ∀ r ∈ usedRegulations h, d r = e r) :
    leastLimit d (selectRegulation h) = leastLimit e (selectRegulation h) := by
  rw [usedRegulations] at heq
  cases hsel : selectRegulation h with
  | ww =>
    rw [hsel] at heq
    rw [leastLimit, leastLimit, heq .fcc (by simp), heq .mkk (by simp), heq .etsi (by simp), heq .ww (by simp)]
  | fcc =>
    rw [hsel] at heq
    exact heq .fcc (by simp)
  | mkk =>
    rw [hsel] at heq
    exact heq .mkk (by simp)
  | etsi =>
    rw [hsel] at heq
    exact heq .etsi (by simp)

/-- Where no difference wraps, the index is the clamped sum for these sums only. -/
theorem index_iff (hlimit : phyIsTxPowerLimitNeeded h = true)
    (hdiff : (phyGetTxPowerByRate (configure h) 0 0 rate).toInt = byRateDiff h rate)
    (hlim : ∀ r ∈ usedRegulations h,
      (limitEntry (configure h) h.currentChannelBW h.currentChannel rate r path).toInt =
      limitDiff h bw channel rate r) :
    ((phyGetTxPowerIndex8188F (configure h) path rate bw channel).toNat : ℤ) =
      max 0 (min 63 (powerSum h path rate bw channel)) ↔
      (0 ≤ powerSum h path rate bw channel ∧ powerSum h path rate bw channel ≤ 127) ∨
        powerSum h path rate bw channel = -256 ∨
        (319 ≤ powerSum h path rate bw channel ∧ powerSum h path rate bw channel ≤ 383) := by
  have hleast := (phyGetTxPowerLimit_configure hlimit path).trans (leastLimit_congr hlim)
  have hcur : (configure h).currentChannelBW = h.currentChannelBW ∧
      (configure h).currentChannel = h.currentChannel ∧
      phyGetTxPowerIndexBase (configure h) path rate bw channel = phyGetTxPowerIndexBase h path rate bw channel ∧
      phyGetTxPowerTrackingOffset (configure h) path rate = phyGetTxPowerTrackingOffset h path rate := by
    obtain ⟨offsets,bases,limits,hc⟩ := configure_eq h
    rw [hc]
    exact ⟨rfl,rfl,rfl,rfl⟩
  obtain ⟨hcbw,hcch,hbase,htrack⟩ := hcur
  rw [phyGetTxPowerIndex8188F, hcbw, hcch, hbase, htrack]
  apply clamp_iff
  rw [least_toInt, hdiff, hleast, powerSum]

/-- The power index is the clamped sum, with no difference wrapping, exactly when the differences
and the sum fit. -/
theorem tx_power_index_iff (hneeded : phyIsTxPowerByRateNeeded h = true) (hlimit : phyIsTxPowerLimitNeeded h = true)
    (hpath : path < RF_PATH_MAX) :
    TxPowerRespectsLimit h path rate bw channel ↔ TxPowerFits h path rate bw channel := by
  constructor
  · intro hok
    exact ⟨(byRate_iff hneeded).mp hok.byRate,fun r hr => (limit_iff hneeded hpath r).mp (hok.limits r hr),
      (index_iff hlimit hok.byRate hok.limits).mp hok.index⟩
  · intro hfit
    have hdiff := (byRate_iff hneeded).mpr hfit.byRate
    have hlim :
        ∀ r ∈ usedRegulations h, (limitEntry (configure h) h.currentChannelBW h.currentChannel rate r path).toInt =
        limitDiff h bw channel rate r := fun r hr => (limit_iff hneeded hpath r).mpr (hfit.limits r hr)
    exact ⟨hdiff,hlim,(index_iff hlimit hdiff hlim).mpr hfit.sum⟩

/-- So the index stays below the one of the limit, the tracking offset apart. -/
theorem TxPowerRespectsLimit.below_limit (hok : TxPowerRespectsLimit h path rate bw channel) :
    ((phyGetTxPowerIndex8188F (configure h) path rate bw channel).toNat : ℤ) ≤
      max 0 (min 63 ((phyGetTxPowerIndexBase h path rate bw channel).toNat +
        leastLimit (limitDiff h bw channel rate)
        (selectRegulation h) + (phyGetTxPowerTrackingOffset h path rate).toInt)) := by
  rw [hok.index, powerSum]
  have := min_le_right (byRateDiff h rate) (leastLimit (limitDiff h bw channel rate) (selectRegulation h))
  omega

end

/-- Exact values, all limits and rates 32, an efuse base of `base` -/
def flatHal (limit : Int8) (base : UInt8) : PwrHal where
  rateOffset := fun _ => 32
  rateBase := fun _ => 0
  limit := fun _ _ => limit
  exactValue := true
  regEnableTxPowerLimit := 1
  regEnableTxPowerByRate := 1
  eepromRegulatory := 0
  regPwrTblSel := 4
  regulation24G := .ww
  targetTxPwr := fun _ _ => 0
  targetTxPwrValid := false
  cckBase := fun _ _ => base
  bw40Base := fun _ _ => base
  ofdmDiff := fun _ => 0
  bw20Diff := fun _ => 0
  bw40Diff := fun _ => 0
  currentChannelBW := .w20
  currentChannel := 6
  txPowerTrackControl := false
  remnantCckSwingIdx := 0
  remnantOfdmSwingIdx := fun _ => 0
  channelOk := by decide

theorem tx_power_index_flat : TxPowerRespectsLimit (flatHal 28 45) 0 .mcs7 .w20 6 := by
  refine (tx_power_index_iff rfl rfl (by decide)).mpr
    ⟨⟨by decide,by decide⟩,?_,Or.inl ⟨by decide,by decide⟩⟩
  intro r hr
  cases r <;> exact ⟨⟨by decide,by decide⟩,by decide⟩

/-- A limit far below the base makes the sum negative, and the index 251. -/
theorem negative_power_index : ¬ TxPowerRespectsLimit (flatHal 2 25) 0 .mcs7 .w20 6 := by
  intro hok
  have hsum : powerSum (flatHal 2 25) 0 .mcs7 .w20 6 = -5 := by decide
  have hfit := (index_iff rfl hok.byRate hok.limits).mp hok.index
  rw [hsum] at hfit
  exact absurd hfit (by decide)

end Rtl8188fu
