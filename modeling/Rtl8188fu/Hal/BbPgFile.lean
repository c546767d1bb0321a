import Rtl8188fu.Hal.ParaFile

/-! # The file of the power by rate

`phy_DecryptBBPgParaFile`, which works on the buffer of a parameter file line by line, and `phy_ParseBBPgParaFile` on
what is then in the buffer.
-/
namespace Rtl8188fu
open Bytes Logged

/-- The size of `map` -/
def DECRYPT_MAP_LEN : ℕ := 95

/-- `map[currentChar - 32] + 32`, for the character at `j` of line `i`. Nothing is followed behind the map. -/
def decryptChar (i j : ℕ) (c : UInt8) : Logged ParaAccess UInt8 :=
  let currentChar := c - UInt8.ofNat ((i + j) * 3 % 128)
  (emit [.array (currentChar.toNat - 32 : ℤ) DECRYPT_MAP_LEN]).andThen fun _ =>
    if 32 ≤ currentChar ∧ currentChar ≤ 126 then ret (94 - (currentChar - 32) + 32) else stop

/-- The characters of a line from `j` on -/
def decryptChars (i : ℕ) : ℕ → List UInt8 → Logged ParaAccess (List UInt8)
  | _, [] => ret []
  | j, c :: cs => (decryptChar i j c).andThen fun d => (decryptChars i (j + 1) cs).andThen fun ds => ret (d :: ds)

/-- `strlen(szLine)`, with what `strsep` and the loops do to the bytes up to there -/
def lineLength (mem : List UInt8) : Logged ParaAccess ℕ := scanWhile (· != 0) mem 0

/-- Each line is decrypted in its place, and a line feed is put where it ends, also behind the last line. -/
def decryptLines : ℕ → ℕ → List UInt8 → Logged ParaAccess (List UInt8)
  | 0, _, _ => stop
  | fuel + 1, i, buf =>
    (getLineFromBuffer buf).andThen fun (mem, rest) =>
    (lineLength mem).andThen fun n =>
    (decryptChars i 0 (mem.take n)).andThen fun line =>
    match rest with
    | none => ret (line ++ 10 :: mem.drop (n + 1))
    | some rest =>
      (decryptLines fuel (if n ≠ 0 then i + 1 else i) rest).andThen fun rest => ret (line ++ 10 :: rest)

def phyDecryptBBPgParaFile (buf : List UInt8) : Logged ParaAccess (List UInt8) := decryptLines (buf.length + 1) 0 buf

def isHexDigit (c : UInt8) : Bool :=
  isDigit c || (chr 'a' ≤ c && c ≤ chr 'f') || (chr 'A' ≤ c && c ≤ chr 'F')

def mapCharToHexDigit (c : UInt8) : UInt8 :=
  if isDigit c then c - chr '0' else if chr 'a' ≤ c ∧ c ≤ chr 'f' then 10 + (c - chr 'a')
  else if chr 'A' ≤ c ∧ c ≤ chr 'F' then 10 + (c - chr 'A') else 0

/-- `GetHexValueFromString` at `i`: the number, and where it goes on -/
def getHexValueFromString (mem : List UInt8) (i : ℕ) : Logged ParaAccess (Option (UInt32 × ℕ)) :=
  (scanWhile isBlank mem i).andThen fun i =>
  (if byteAt mem i = chr '0' then
    (readAt mem (i + 1)).andThen fun c => ret (if c = chr 'x' ∨ c = chr 'X' then i + 2 else i)
  else ret i).andThen fun i =>
  (scanWhile isHexDigit mem i).andThen fun j =>
  ret (if i = j then none
    else some ((slice mem i (j - i)).foldl (fun v c => (v <<< 4) + (mapCharToHexDigit c).toUInt32) 0,j))

/-- `GetFractionValueFromString` at `i`: integer part, fraction, and where it goes on. The first character is taken for
a digit, whatever it is. -/
def getFractionValueFromString (mem : List UInt8) (i : ℕ) : Logged ParaAccess (Option (UInt8 × UInt8 × ℕ)) :=
  (scanWhile isBlank mem i).andThen fun i =>
  (scanWhile isDigit mem (i + 1)).andThen fun j =>
  let integer := (slice mem i (j - i)).foldl decimalStep 0
  if byteAt mem j = chr '.' then
    (readAt mem (j + 1)).andThen fun c => ret (if isDigit c then some (integer,c - chr '0',j + 2) else none)
  else ret (some (integer,0,j))

/-- `combineValue <<= 8` and the two decimal digits of a doubled number -/
def combineStep (combineValue : UInt32) (integer fraction : UInt8) : UInt32 :=
  let integer := if fraction = 5 then integer * 2 + 1 else integer * 2
  (combineValue <<< 8) ||| (((integer / 10).toUInt32 <<< 4) + (integer % 10).toUInt32)

/-- As many exact values; `none` for `_FAIL` -/
def exactValues (mem : List UInt8) : ℕ → ℕ → UInt32 → Logged ParaAccess (Option UInt32)
  | 0, _, combineValue => ret (some combineValue)
  | k + 1, i, combineValue =>
    (getFractionValueFromString mem i).andThen fun
    | none => ret none
    | some (integer, fraction, i) => exactValues mem k i (combineStep combineValue integer fraction)

structure PgStore where
  band : ℕ
  rfPath : UInt8
  txNum : ℕ
  regOffset : UInt32
  regMask : UInt32
  value : UInt32

/-- What the parser has between two lines -/
structure PgParser where
  firstLine : Bool
  phyRegPgVersion : UInt8
  /-- `PHY_REG_PG_EXACT_VALUE`, or else `PHY_REG_PG_RELATIVE_VALUE` -/
  exactValue : Bool
  band : ℕ
  rfPath : UInt8
  stores : List PgStore

def PgParser.init : PgParser := ⟨true,0,false,0,0,[]⟩

/-- The status, and what has been stored -/
abbrev PgResult := Bool × List PgStore

section Lines
variable (p : PgParser) (mem : List UInt8)

/-- The header: version and type of the values -/
def pgHeaderLine : Logged ParaAccess (PgResult ⊕ PgParser) :=
  (eqNByte mem 0 (ascii "#[v1]")).andThen fun v1 =>
  (if v1 = true then ret (some 1)
  else (eqNByte mem 0 (ascii "#[v0]")).andThen fun v0 => ret (if v0 = true then some 0 else none)).andThen fun
  | none => ret (.inl (false,p.stores))
  | some version =>
    (eqNByte mem 5 (ascii "[Exact]#")).andThen fun exact =>
    if exact = true then ret (.inr { p with firstLine := false, phyRegPgVersion := version, exactValue := true })
    else
      (eqNByte mem 5 (ascii "[Relative]#")).andThen fun relative =>
      ret (if relative = true then .inr { p with firstLine := false, phyRegPgVersion := version, exactValue := false }
        else .inl (false,p.stores))

/-- The mask and the value behind the register offset -/
def pgValues (band : ℕ) (rfPath : UInt8) (txNum : ℕ) (regOffset : UInt32) (i : ℕ) :
    Logged ParaAccess (PgResult ⊕ PgParser) :=
  (getHexValueFromString mem i).andThen fun
  | none => ret (.inl (false,p.stores))
  | some (regMask, i) =>
    (if p.exactValue then exactValues mem 4 i 0
    else (getHexValueFromString mem i).andThen fun value => ret (value.map Prod.fst)).andThen fun
    | none => ret (.inl (false,p.stores))
    | some value => ret (.inr { p with stores := p.stores ++ [⟨band,rfPath,txNum,regOffset,regMask,value⟩] })

/-- A line of version 0. One that does not begin with a number is passed over. -/
def pgLineV0 : Logged ParaAccess (PgResult ⊕ PgParser) :=
  (getHexValueFromString mem 0).andThen fun
  | none => ret (.inr p)
  | some (regOffset, i) =>
    if regOffset = 0xffff then ret (.inl (true,p.stores)) else pgValues p mem 0 0 1 regOffset i

def pgLabelLine : Logged ParaAccess (PgResult ⊕ PgParser) :=
  (eqNByte mem 0 (ascii "#[2.4G]")).andThen fun on24G =>
  (if on24G = true then ret (some (0,8))
  else (eqNByte mem 0 (ascii "#[5G]")).andThen fun on5G => ret (if on5G = true then some (1,6) else none)).andThen fun
  | none => ret (.inl (false,p.stores))
  | some (band, index) =>
    (readAt mem index).andThen fun c => ret (.inr { p with band := band, rfPath := c - chr 'A' })

def pgRowLine : Logged ParaAccess (PgResult ⊕ PgParser) :=
  (readAt mem 1).andThen fun c =>
  if chr '1' ≤ c ∧ c ≤ chr '4' then
    (scanWhile (· != chr ']') mem 0).andThen fun index =>
    (getHexValueFromString mem (index + 1)).andThen fun
    | none => ret (.inl (false,p.stores))
    | some (regOffset, i) => pgValues p mem p.band p.rfPath (c - chr '1').toNat regOffset i
  else ret (.inl (false,p.stores))

/-- A line of a later version -/
def pgLineV1 : Logged ParaAccess (PgResult ⊕ PgParser) :=
  (eqNByte mem 0 (ascii "0xffff")).andThen fun ends =>
  if ends = true then ret (.inl (true,p.stores))
  else
    (eqNByte mem 0 (ascii "#[END]#")).andThen fun tableEnds =>
    if tableEnds = true then ret (.inr p)
    else
      (readAt mem 0).andThen fun c => if c = chr '#' then pgLabelLine p mem else pgRowLine p mem

/-- One turn of the loop over the lines -/
def pgLine : Logged ParaAccess (PgResult ⊕ PgParser) :=
  (skipsLine mem).andThen fun skip =>
  if skip = true then ret (.inr p)
  else if p.firstLine then pgHeaderLine p mem
  else if p.phyRegPgVersion = 0 then pgLineV0 p mem
  else pgLineV1 p mem

end Lines

/-- `phy_ParseBBPgParaFile` on what is in the buffer after decryption -/
def phyParseBBPgParaFile (buf : List UInt8) : Logged ParaAccess PgResult :=
  overLines pgLine (fun p => (true,p.stores)) (buf.length + 1) .init buf

end Rtl8188fu
