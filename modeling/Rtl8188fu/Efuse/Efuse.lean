import Mathlib

/-! # Walking the packets of the efuse

The three functions that walk the Wi-Fi packets of the efuse, each with its own loop. A read of
the efuse gives its byte; the packets that a loop takes, each with its start and its end, are
a record of the model.
-/
namespace Rtl8188fu

/-- What `efuse_OneByteRead` reads at each address -/
abbrev Efuse := ℕ → UInt8

def efuseRealContentLen : ℕ := 256
def efuseMaxSection : ℕ := 64
/-- `EFUSE_REAL_CONTENT_LEN_8188F` without `EFUSE_OOB_PROTECT_BYTES` -/
def availableEfuseBytesTotal : ℕ := efuseRealContentLen - 35

def extHeader (header : UInt8) : Bool := header &&& 0x1F = 0x0F

def allWordsDisabled (wde : UInt8) : Bool := wde &&& 0x0F = 0x0F

def getHdrOffset20 (header : UInt8) : UInt8 := (header &&& 0xE0) >>> 5

/-- A word is enabled when its bit is clear. -/
def wordEnabled (wordEn : UInt8) (i : ℕ) : Bool := !wordEn.toNat.testBit i

def efuseCalculateWordCnts (wordEn : UInt8) : ℕ := (List.range 4).countP (wordEnabled wordEn)

/-- `offset` and `wden` of a one-byte header -/
def hdrOffset1 (header : UInt8) : ℕ := ((header >>> 4) &&& 0x0F).toNat
def hdrWden1 (header : UInt8) : UInt8 := header &&& 0x0F

/-- `offset` and `wden` of an extended header -/
def hdrOffset2 (header ext : UInt8) : ℕ := (getHdrOffset20 header ||| ((ext &&& 0xF0) >>> 1)).toNat
def hdrWden2 (ext : UInt8) : UInt8 := ext &&& 0x0F

/-- A word of a packet: the address, and the bytes from `base` on -/
def readWord (e : Efuse) (wden : UInt8) (base : ℕ) (r : ℕ × (ℕ → UInt8)) (i : ℕ) : ℕ × (ℕ → UInt8) :=
  if wordEnabled wden i then
    (r.1 + 2,Function.update (Function.update r.2 (base + 2 * i) (e r.1)) (base + 2 * i + 1) (e (r.1 + 1)))
  else r

/-- The loop over the words of a packet -/
def readWords (e : Efuse) (wden : UInt8) (base : ℕ) (r : ℕ × (ℕ → UInt8)) : ℕ × (ℕ → UInt8) :=
  (List.range 4).foldl (readWord e wden base) r

theorem readWords_fst (e : Efuse) (wden : UInt8) (base : ℕ) (r : ℕ × (ℕ → UInt8)) :
    (readWords e wden base r).1 = r.1 + 2 * efuseCalculateWordCnts wden := by
  have hfold : ∀ is : List ℕ, ∀ r : ℕ × (ℕ → UInt8),
      (is.foldl (readWord e wden base) r).1 = r.1 + 2 * is.countP (wordEnabled wden) := by
    intro is
    induction is with
    | nil => exact fun r => rfl
    | cons i is ih =>
      intro r
      rw [List.foldl_cons, ih, List.countP_cons, readWord]
      split <;> ring
  exact hfold (List.range 4) r

/-- `eFuse_Addr` and `efuseTbl` at the end of `hal_ReadEFuse_WiFi`, with the packets -/
structure ReadState where
  eFuseAddr : ℕ
  efuseTbl : ℕ → UInt8
  pkts : List (ℕ × ℕ)

def ReadState.take (start stop : ℕ) (r : ReadState) : ReadState := { r with pkts := (start,stop) :: r.pkts }

/-- The loop of `hal_ReadEFuse_WiFi` -/
def readEFuseLoop (e : Efuse) (addr : ℕ) (tbl : ℕ → UInt8) : ReadState :=
  if addr < efuseRealContentLen then
    let header := e addr
    if header = 0xFF then ⟨addr + 1,tbl,[]⟩
    else if extHeader header then
      let ext := e (addr + 1)
      if allWordsDisabled ext then (readEFuseLoop e (addr + 2) tbl).take addr (addr + 2)
      else
        let offset := hdrOffset2 header ext
        let wden := hdrWden2 ext
        if offset < efuseMaxSection then
          let r := readWords e wden (offset * 8) (addr + 2,tbl)
          (readEFuseLoop e r.1 r.2).take addr r.1
        else
          let next := addr + 2 + efuseCalculateWordCnts wden * 2
          (readEFuseLoop e next tbl).take addr next
    else
      let offset := hdrOffset1 header
      let wden := hdrWden1 header
      if offset < efuseMaxSection then
        let r := readWords e wden (offset * 8) (addr + 1,tbl)
        (readEFuseLoop e r.1 r.2).take addr r.1
      else
        let next := addr + 1 + efuseCalculateWordCnts wden * 2
        (readEFuseLoop e next tbl).take addr next
  else ⟨addr,tbl,[]⟩
termination_by efuseRealContentLen - addr
decreasing_by
  all_goals first
    | rw [readWords_fst]
      omega
    | omega

/-- `hal_ReadEFuse_WiFi` of the whole map -/
def halReadEFuseWiFi (e : Efuse) : ReadState := readEFuseLoop e 0 fun _ => 0xFF

/-- The used size that `hal_ReadEFuse_WiFi` stores with `HW_VAR_EFUSE_BYTES` -/
def ReadState.used (r : ReadState) : ℕ := r.eFuseAddr - 1

/-- The loop of `hal_EfuseGetCurrentSize_WiFi`: the size, and the packets -/
def getCurrentSizeLoop (e : Efuse) (addr start count : ℕ) : ℕ × List (ℕ × ℕ) :=
  if addr < efuseRealContentLen then
    let data := e addr
    if data = 0xFF then (addr,[])
    else if start ≠ 0 ∧ addr = start then
      if count + 1 < 4 then
        if 2 < count + 1 then getCurrentSizeLoop e 0 0 (count + 1) else getCurrentSizeLoop e addr start (count + 1)
      else (availableEfuseBytesTotal,[])
    else if extHeader data then
      let data := e (addr + 1)
      if allWordsDisabled data then
        let r := getCurrentSizeLoop e (addr + 1) start count
        (r.1,(addr,addr + 1) :: r.2)
      else
        let next := addr + 1 + (efuseCalculateWordCnts (hdrWden2 data) * 2 + 1)
        let r := getCurrentSizeLoop e next start count
        (r.1,(addr,next) :: r.2)
    else
      let next := addr + (efuseCalculateWordCnts (hdrWden1 data) * 2 + 1)
      let r := getCurrentSizeLoop e next start count
      (r.1,(addr,next) :: r.2)
  else (addr,[])
termination_by (4 - count,efuseRealContentLen - addr)

/-- `hal_EfuseGetCurrentSize_WiFi` with the used size that is stored -/
def halEfuseGetCurrentSizeWiFi (e : Efuse) (used : ℕ) : ℕ × List (ℕ × ℕ) := getCurrentSizeLoop e used used 0

/-- The loop of `Hal_EfusePgPacketRead`: the data, and the packets -/
def pgPacketReadLoop (e : Efuse) (offset addr : ℕ) (data : ℕ → UInt8) : (ℕ → UInt8) × List (ℕ × ℕ) :=
  if addr < efuseRealContentLen then
    let header := e addr
    if header = 0xFF then (data,[])
    else if extHeader header then
      let ext := e (addr + 1)
      if allWordsDisabled ext then
        let q := pgPacketReadLoop e offset (addr + 2) data
        (q.1,(addr,addr + 2) :: q.2)
      else if hdrOffset2 header ext = offset then
        let r := readWords e (hdrWden2 ext) 0 (addr + 2,data)
        let q := pgPacketReadLoop e offset r.1 r.2
        (q.1,(addr,r.1) :: q.2)
      else
        let next := addr + 2 + efuseCalculateWordCnts (hdrWden2 ext) * 2
        let q := pgPacketReadLoop e offset next data
        (q.1,(addr,next) :: q.2)
    else if hdrOffset1 header = offset then
      let r := readWords e (hdrWden1 header) 0 (addr + 1,data)
      let q := pgPacketReadLoop e offset r.1 r.2
      (q.1,(addr,r.1) :: q.2)
    else
      let next := addr + 1 + efuseCalculateWordCnts (hdrWden1 header) * 2
      let q := pgPacketReadLoop e offset next data
      (q.1,(addr,next) :: q.2)
  else (data,[])
termination_by efuseRealContentLen - addr
decreasing_by
  all_goals first
    | rw [readWords_fst]
      omega
    | omega

def halEfusePgPacketRead (e : Efuse) (offset : ℕ) : Option ((ℕ → UInt8) × List (ℕ × ℕ)) :=
  if efuseMaxSection < offset then none else some (pgPacketReadLoop e offset 0 fun _ => 0xFF)

end Rtl8188fu
