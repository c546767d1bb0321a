import Rtl8188fu.Hal.PowerLimitFile

/-! # Texts of power limits

What a text says, and how it may be written: tables of the 2.4 GHz band with their lines, and other lines between
them.
-/
namespace Rtl8188fu
open Bytes

/-- No character that ends a line or the text -/
def IsText (s : List UInt8) : Prop := ∀ c ∈ s, isLineEnd c = false ∧ c ≠ 0

def IsBlanks (s : List UInt8) : Prop := ∀ c ∈ s, isBlank c = true

/-- What may follow the last column -/
def IsRest (s : List UInt8) : Prop := IsText s ∧ ∀ c ∈ s.head?, isBlank c = true

structure Blanks where
  bytes : List UInt8
  blank : IsBlanks bytes

/-- A numeral that fits the array it is copied to -/
structure Numeral where
  bytes : List UInt8
  digits : ∀ c ∈ bytes, isDigit c = true
  nonempty : bytes ≠ []
  short : bytes.length < TOKEN_LEN

def digitsValue (s : List UInt8) : ℕ := s.foldl (fun v c => v * 10 + (c.toNat - 48)) 0

def Numeral.value (n : Numeral) : ℕ := digitsValue n.bytes

/-- A limit as it is written: not applicable, or in dBm, perhaps with `.0` or `.5` -/
inductive LimitMark
  | na
  | dbm (integer : Numeral) (half : Option Bool) (h : integer.value ≤ 127)

namespace LimitMark

def bytes : LimitMark → List UInt8
  | na => ascii "NA"
  | dbm n none _ => n.bytes
  | dbm n (some false) _ => n.bytes ++ ascii ".0"
  | dbm n (some true) _ => n.bytes ++ ascii ".5"

/-- Twice the limit -/
def value : LimitMark → Option ℕ
  | na => none
  | dbm n half _ => some (2 * n.value + if half = some true then 1 else 0)

end LimitMark

structure LimitCell where
  before : Blanks
  separated : before.bytes ≠ []
  mark : LimitMark

def LimitCell.bytes (c : LimitCell) : List UInt8 := c.before.bytes ++ c.mark.bytes

structure LimitRow where
  indent : Blanks
  c : UInt8
  h : UInt8
  channel : Numeral
  cells : List LimitCell
  rest : List UInt8
  isC : c = chr 'c' ∨ c = chr 'C'
  isH : h = chr 'h' ∨ h = chr 'H'
  channelOk : 1 ≤ channel.value ∧ channel.value ≤ 14
  isRest : IsRest rest

def LimitRow.body (r : LimitRow) : List UInt8 :=
  r.c :: r.h :: (r.channel.bytes ++ (r.cells.flatMap LimitCell.bytes ++ r.rest))

def LimitRow.line (r : LimitRow) : List UInt8 := r.indent.bytes ++ r.body

inductive LimitSection
  | cck
  | ofdm
  | ht

def LimitSection.name : LimitSection → List UInt8
  | cck => ascii "CCK"
  | ofdm => ascii "OFDM"
  | ht => ascii "HT"

def LimitSection.idx : LimitSection → ℕ
  | cck => 0
  | ofdm => 1
  | ht => 2

def ChannelWidth.name : ChannelWidth → List UInt8
  | w20 => ascii "20M"
  | w40 => ascii "40M"

def ChannelWidth.idx : ChannelWidth → ℕ
  | w20 => 0
  | w40 => 1

def TxPwrLmt.name : TxPwrLmt → List UInt8
  | fcc => ascii "FCC"
  | mkk => ascii "MKK"
  | etsi => ascii "ETSI"
  | ww => ascii "WW13"

/-- A label of a table with the blanks around it; a comma follows. -/
structure LabelField where
  before : Blanks
  label : List UInt8
  after : Blanks

def LabelField.bytes (f : LabelField) : List UInt8 := f.before.bytes ++ f.label ++ f.after.bytes ++ [chr ',']

structure LimitTable where
  lead : Blanks
  bandAfter : Blanks
  bandwidth : ChannelWidth
  bandwidthBefore : Blanks
  bandwidthAfter : Blanks
  pathBefore : Blanks
  pathAfter : Blanks
  rateSection : LimitSection
  sectionBefore : Blanks
  sectionAfter : Blanks
  labelRest : List UInt8
  startLead : Blanks
  startRest : List UInt8
  columnsLead : Blanks
  colNum : Numeral
  /-- the blanks in front of each regulation -/
  columns : List (Blanks × TxPwrLmt)
  columnsRest : List UInt8
  rows : List LimitRow
  endLead : Blanks
  endRest : List UInt8
  labelRestText : IsText labelRest
  startRestText : IsText startRest
  columnsRestText : IsRest columnsRest
  endRestText : IsText endRest
  colNumIs : colNum.value = columns.length
  fewColumns : columns.length ≤ TXPWR_LMT_MAX_REGULATION_NUM
  separated : ∀ c ∈ columns.tail, c.1.bytes ≠ []
  rowsFull : ∀ r ∈ rows, r.cells.length = columns.length

namespace LimitTable
variable (t : LimitTable)

def fields : List LabelField :=
  [⟨t.bandwidthBefore,t.bandwidth.name,t.bandwidthAfter⟩,⟨t.pathBefore,ascii "1T",t.pathAfter⟩,
    ⟨t.sectionBefore,t.rateSection.name,t.sectionAfter⟩]

def labelLine : List UInt8 :=
  ascii "##" ++ (t.lead.bytes ++ (ascii "2.4G" ++
    (t.bandAfter.bytes ++ (chr ',' :: (t.fields.flatMap LabelField.bytes ++ t.labelRest)))))

def startLine : List UInt8 := ascii "##" ++ (t.startLead.bytes ++ (ascii "START" ++ t.startRest))

def columnBytes (c : Blanks × TxPwrLmt) : List UInt8 := c.1.bytes ++ c.2.name

def columnsLine : List UInt8 :=
  ascii "##" ++ (t.columnsLead.bytes ++ (chr '#' ::
    (t.colNum.bytes ++ (chr '#' :: (t.columns.flatMap columnBytes ++ t.columnsRest)))))

def endLine : List UInt8 := ascii "##" ++ (t.endLead.bytes ++ (ascii "END" ++ t.endRest))

def lines : List (List UInt8) :=
  t.labelLine :: t.startLine :: t.columnsLine :: (t.rows.map LimitRow.line ++ [t.endLine])

end LimitTable

/-- A blank line or a comment -/
def IsFiller (line : List UInt8) : Bool :=
  line.dropWhile isBlank = [] || (ascii "//").isPrefixOf (line.dropWhile isBlank)

/-- A limit that a text gives: the regulation, the bandwidth, the index of the channel and the section, and twice the
limit in dBm -/
structure GivenLimit where
  cell : ℕ × ℕ × ℕ × ℕ
  value : ℕ

def LimitTable.givenIn (t : LimitTable) (r : LimitRow) : List GivenLimit :=
  (t.columns.zip r.cells).filterMap fun c => c.2.mark.value.map
    (⟨(c.1.2.idx,t.bandwidth.idx,r.channel.value - 1,t.rateSection.idx),·⟩)

def LimitTable.given (t : LimitTable) : List GivenLimit := t.rows.flatMap t.givenIn

/-- A text of tables of the 2.4 GHz band, in any order, with blank lines and comments anywhere between their lines -/
structure LimitFile where
  tables : List LimitTable
  /-- the lines, each with the character that ends it -/
  lines : List (List UInt8 × UInt8)
  /-- the line behind the last end of a line -/
  last : List UInt8
  isText : ∀ l ∈ lines.map Prod.fst ++ [last], IsText l
  isEnd : ∀ l ∈ lines, isLineEnd l.2 = true
  ofTables : (lines.map Prod.fst ++ [last]).filter (fun l => !IsFiller l) = tables.flatMap LimitTable.lines
  short : (lines.flatMap (fun l => l.1 ++ [l.2]) ++ last).length < MAX_PARA_FILE_BUF_LEN

namespace LimitFile
variable (f : LimitFile)

def content : List UInt8 := f.lines.flatMap (fun l => l.1 ++ [l.2]) ++ f.last

/-- The buffer is set to zero before the file is read. -/
def buffer : List UInt8 := f.content ++ List.replicate (MAX_PARA_FILE_BUF_LEN - f.content.length) 0

def given : List GivenLimit := f.tables.flatMap LimitTable.given

end LimitFile

end Rtl8188fu
