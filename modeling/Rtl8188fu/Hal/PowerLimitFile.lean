import Rtl8188fu.Hal.ParaFile
import Rtl8188fu.Hal.TxPower

/-! # The file of the power limits

`phy_ParsePowerLimitTableFile` and `PHY_SetTxPowerLimit`, on a buffer that holds the text as it is. A string in an array
is given without the zeros behind it.
-/
namespace Rtl8188fu
open Bytes Logged

def TXPWR_LMT_MAX_REGULATION_NUM : ℕ := 4

def centerCh5gAll : List UInt8 :=
  [36,38,40,42,44,46,48,52,54,56,58,60,62,64,100,102,104,106,108,110,112,116,118,120,122,124,126,128,132,134,136,
    138,140,142,144,149,151,153,155,157,159,161,165,167,169,171,173,175,177]

/-- `TxPwrLimit_2_4G` and `TxPwrLimit_5G`, for a regulation, a bandwidth, a channel and a section; then the path -/
structure TxPwrLimits where
  limit24G : ℕ × ℕ × ℕ × ℕ → ℕ → Int8
  limit5G : ℕ × ℕ × ℕ × ℕ → ℕ → Int8

def phyInitTxPowerLimit : TxPwrLimits := ⟨fun _ _ => MAX_POWER_INDEX,fun _ _ => MAX_POWER_INDEX⟩

/-- The first of the labels that the string begins with -/
def labelOf {α : Type} (labels : List (String × α)) (str : List UInt8) : Option α :=
  (labels.find? fun l => (ascii l.1).isPrefixOf str).map Prod.snd

def regulationOf : List UInt8 → Option ℕ := labelOf [("FCC",0),("MKK",1),("ETSI",2),("WW13",3)]

/-- The number of streams is the first two characters of the path. -/
def rateSectionOf (rateSection rfPath : List UInt8) : Option ℕ :=
  let is (section_ path : String) : Bool := (ascii section_).isPrefixOf rateSection && (ascii path).isPrefixOf rfPath
  ([("CCK","1T",0),("OFDM","1T",1),("HT","1T",2),("HT","2T",3),("HT","3T",4),("HT","4T",5),("VHT","1T",6),
    ("VHT","2T",7),("VHT","3T",8),("VHT","4T",9)].find? fun l => is l.1 l.2.1).map fun l => l.2.2

def bandwidthOf : List UInt8 → Option ℕ := labelOf [("20M",0),("40M",1),("80M",2)]

inductive LimitBand
  | on24G
  | on5G

def limitBandOf : List UInt8 → Option LimitBand := labelOf [("2.4G",.on24G),("5G",.on5G)]

/-- `phy_GetChannelIndexOfTxPowerLimit`, an `s8` -/
def phyGetChannelIndex (band : LimitBand) (channel : UInt8) : Int8 :=
  match band with
  | .on24G => channel.toInt8 - 1
  | .on5G => if channel ∈ centerCh5gAll then Int8.ofNat (centerCh5gAll.idxOf channel) else -1

/-- `if (powerLimit < prevPowerLimit)` the limit of path A is stored. -/
def lowerLimit (table : ℕ × ℕ × ℕ × ℕ → ℕ → Int8) (cell : ℕ × ℕ × ℕ × ℕ)
    (powerLimit : Int8) : ℕ × ℕ × ℕ × ℕ → ℕ → Int8 :=
  if powerLimit < table cell 0 then Function.update table cell (Function.update (table cell) 0 powerLimit) else table

/-- The labels of a table, with the regulations of its columns -/
structure LimitLabels where
  band : List UInt8
  bandwidth : List UInt8
  rfPath : List UInt8
  rateSection : List UInt8
  regulation : List (List UInt8)
  colNum : ℕ

def LimitLabels.init : LimitLabels := ⟨[],[],[],[],[],0⟩

/-- What `PHY_SetTxPowerLimit` does with an index of a channel; behind the table nothing is followed. -/
def atChannel (channelIndex : Int8) (size : ℕ) (store : ℕ → TxPwrLimits) : Logged ParaAccess TxPwrLimits :=
  (emit [.array channelIndex.toInt size]).andThen fun _ =>
    if 0 ≤ channelIndex.toInt ∧ channelIndex.toInt < size then ret (store channelIndex.toInt.toNat) else stop

def phySetTxPowerLimit (t : TxPwrLimits) (l : LimitLabels) (regulation channel powerLimit : List UInt8) :
    Logged ParaAccess TxPwrLimits :=
  (getU1ByteInteger channel).andThen fun
  | none => ret t
  | some channel =>
    (getU1ByteInteger powerLimit).andThen fun
    | none => ret t
    | some powerLimit =>
      -- the number is an `u8`, the limit an `s8`
      let powerLimit := if MAX_POWER_INDEX < powerLimit.toInt8 then MAX_POWER_INDEX else powerLimit.toInt8
      match regulationOf regulation, rateSectionOf l.rateSection l.rfPath, bandwidthOf l.bandwidth,
        limitBandOf l.band with
      | some regulation, some rateSection, some bandwidth, some .on24G =>
        let channelIndex := phyGetChannelIndex .on24G channel
        if channelIndex = -1 ∨ MAX_2_4G_BANDWIDTH_NUM ≤ bandwidth then ret t
        else atChannel channelIndex CENTER_CH_2G_NUM fun i =>
          { t with limit24G := lowerLimit t.limit24G (regulation,bandwidth,i,rateSection) powerLimit }
      | some regulation, some rateSection, some bandwidth, some .on5G =>
        let channelIndex := phyGetChannelIndex .on5G channel
        if channelIndex = -1 then ret t
        else atChannel channelIndex centerCh5gAll.length fun i =>
          { t with limit5G := lowerLimit t.limit5G (regulation,bandwidth,i,rateSection) powerLimit }
      | _, _, _, _ => ret t

/-- `limitValue`, an `u8`, in decimal -/
def limitText (limitValue : UInt8) : List UInt8 :=
  if 100 ≤ limitValue then [limitValue / 100 + chr '0',limitValue % 100 / 10 +
    chr '0',limitValue % 100 % 10 + chr '0']
  else if 10 ≤ limitValue then [limitValue / 10 + chr '0',limitValue % 10 + chr '0']
  else [limitValue + chr '0']

/-- `limitValue` of an integer part and a fraction -/
def limitValueOf (integer fraction : UInt8) : UInt8 := if fraction = chr '5' then integer * 2 + 1 else integer * 2

/-- The loop over the columns of a row, over the `forCnt` that are left; `none` for `_FAIL` -/
def limitColumns (l : LimitLabels) (mem channel : List UInt8) :
    List ℕ → ℕ → TxPwrLimits → Logged ParaAccess (Option TxPwrLimits)
  | [], _, t => ret (some t)
  | forCnt :: cols, i, t =>
    (scanWhile isBlank mem i).andThen fun i =>
    (scanWhile isDigit mem i).andThen fun j =>
    (storeToken (j - i)).andThen fun _ =>
    (if byteAt mem j = chr '.' then
      (readAt mem (j + 1)).andThen fun c => ret (if isDigit c then some (c,j + 2) else none)
    else ret (some (0,j))).andThen fun
    | none => ret none
    | some (fraction, k) =>
      if i = j then
        -- no digit: the limit is 63, and two characters are passed over
        (phySetTxPowerLimit t l (l.regulation.getD forCnt []) channel (ascii "63")).andThen fun t =>
          limitColumns l mem channel cols (k + 2) t
      else
        (getU1ByteInteger (slice mem i (j - i))).andThen fun
        | none => ret none
        | some integer =>
          (phySetTxPowerLimit t l (l.regulation.getD forCnt []) channel
            (limitText (limitValueOf integer fraction))).andThen
            fun t => limitColumns l mem channel cols k t

/-- The names of the columns; `none` for `_FAIL` -/
def columnNames (mem : List UInt8) : ℕ → ℕ → Logged ParaAccess (Option (List (List UInt8)))
  | 0, _ => ret (some [])
  | cols + 1, i =>
    (scanWhile isBlank mem i).andThen fun i =>
    (scanWhile (fun c => !isBlank c && c != 0) mem i).andThen fun j =>
    (storeToken (j - i)).andThen fun _ =>
    if i = j then ret none
    else (columnNames mem cols j).andThen fun names => ret (names.map (slice mem i (j - i) :: ·))

/-- Labels one behind the other, each with a comma behind it; `none` when one is not read -/
def labelFields (mem : List UInt8) : ℕ → ℕ → Logged ParaAccess (Option (List (List UInt8)))
  | 0, _ => ret (some [])
  | k + 1, i =>
    (parseQualifiedString mem i (chr ' ') (chr ',')).andThen fun
    | none => ret none
    | some (label, i) => (labelFields mem k i).andThen fun labels => ret (labels.map (label :: ·))

inductive LoadingStage
  | label
  | start
  | columns
  | rows

/-- What the parser has between two lines -/
structure LimitParser where
  loadingStage : LoadingStage
  labels : LimitLabels
  limits : TxPwrLimits

/-- The status, and what has been stored -/
abbrev LimitResult := Bool × TxPwrLimits

/-- `szLine[0] == '#' && szLine[1] == '#'` -/
def doubleHash (mem : List UInt8) : Logged ParaAccess Bool :=
  (readAt mem 0).andThen fun c =>
  if c = chr '#' then (readAt mem 1).andThen fun c => ret (c = chr '#') else ret false

section Lines
variable (p : LimitParser) (mem : List UInt8)

/-- Stage 0: a line that is not skipped sets the labels back. -/
def labelLine : Logged ParaAccess (LimitResult ⊕ LimitParser) :=
  (doubleHash mem).andThen fun isLabel =>
  if isLabel = false then ret (.inr { p with labels := { LimitLabels.init with colNum := p.labels.colNum } })
  else
    (scanWhile isBlank mem 2).andThen fun i =>
    (emit [.buffer (i - 1) mem.length]).andThen fun _ =>
    (labelFields (mem.set (i - 1) (chr ' ')) 4 (i - 1)).andThen fun
    | none => ret (.inl (false,p.limits))
    | some labels => ret (.inr { p with
        loadingStage := .start
        labels := { LimitLabels.init with
          band := labels.getD 0 []
          bandwidth := labels.getD 1 []
          rfPath := labels.getD 2 []
          rateSection := labels.getD 3 []
          colNum := p.labels.colNum } })

/-- Stage 1 -/
def startLine : Logged ParaAccess (LimitResult ⊕ LimitParser) :=
  (doubleHash mem).andThen fun isLabel =>
  if isLabel = false then ret (.inr p)
  else
    (scanWhile isBlank mem 2).andThen fun i =>
    (eqNByte mem i (ascii "START")).andThen fun starts =>
    if starts = false then ret (.inl (false,p.limits)) else ret (.inr { p with loadingStage := .columns })

/-- Stage 2 -/
def columnsLine : Logged ParaAccess (LimitResult ⊕ LimitParser) :=
  (doubleHash mem).andThen fun isLabel =>
  if isLabel = false then ret (.inr p)
  else
    (scanWhile isBlank mem 2).andThen fun i =>
    (parseQualifiedString mem i (chr '#') (chr '#')).andThen fun
    | none => ret (.inl (false,p.limits))
    | some (colNumBuf, i) =>
      (getU1ByteInteger colNumBuf).andThen fun
      | none => ret (.inl (false,p.limits))
      | some colNum =>
        if TXPWR_LMT_MAX_REGULATION_NUM < colNum.toNat then ret (.inl (false,p.limits))
        else
          (columnNames mem colNum.toNat i).andThen fun
          | none => ret (.inl (false,p.limits))
          | some names => ret (.inr { p with
              loadingStage := .rows
              labels := { p.labels with regulation := names, colNum := colNum.toNat } })

/-- `( c != 'c' && c != 'C' ) || ...` for the first two characters -/
def isChannel : Logged ParaAccess Bool :=
  (readAt mem 0).andThen fun c =>
  if c = chr 'c' ∨ c = chr 'C' then (readAt mem 1).andThen fun h => ret (h = chr 'h' || h = chr 'H') else ret false

/-- Stage 3 -/
def rowLine : Logged ParaAccess (LimitResult ⊕ LimitParser) :=
  (doubleHash mem).andThen fun isLabel =>
  if isLabel = true then
    (scanWhile isBlank mem 2).andThen fun i =>
    (eqNByte mem i (ascii "END")).andThen fun ends =>
    if ends = true then ret (.inr { p with loadingStage := .label }) else ret (.inl (false,p.limits))
  else
    (isChannel mem).andThen fun isRow =>
    if isRow = false then ret (.inr p)
    else
      (scanWhile isDigit mem 2).andThen fun i =>
      (storeToken (i - 2)).andThen fun _ =>
      (limitColumns p.labels mem (slice mem 2 (i - 2)) (List.range p.labels.colNum) i p.limits).andThen fun
      | none => ret (.inl (false,p.limits))
      | some limits => ret (.inr { p with limits })

def stageLine : Logged ParaAccess (LimitResult ⊕ LimitParser) :=
  match p.loadingStage with
  | .label => labelLine p mem
  | .start => startLine p mem
  | .columns => columnsLine p mem
  | .rows => rowLine p mem

/-- One turn of the loop over the lines -/
def limitLine : Logged ParaAccess (LimitResult ⊕ LimitParser) :=
  (skipsLine mem).andThen fun skip => if skip = true then ret (.inr p) else stageLine p mem

end Lines

def phyParsePowerLimitTableFile (limits : TxPwrLimits) (buf : List UInt8) : Logged ParaAccess LimitResult :=
  overLines limitLine (fun p => (true,p.limits)) (buf.length + 1) ⟨.label,.init,limits⟩ buf

end Rtl8188fu
