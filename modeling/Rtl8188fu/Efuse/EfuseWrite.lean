import Rtl8188fu.Efuse.EfuseAgree

/-! # Writing the efuse

`rtw_efuse_map_write` and what it calls for the Wi-Fi packets. A read does not time out, and the tables that
`hal_ReadEFuse_WiFi` and `rtw_efuse_map_write` allocate are there. What a write leaves in its
cell is up to the efuse; it touches no other cell. `hal_EfuseFixHeaderProcess` is left out: the loops before it end
only with the header that was written.
-/
namespace Rtl8188fu

def EFUSE_MAX_SECTION_BASE : ℕ := 16
def EFUSE_REPEAT_THRESHOLD : ℕ := 3
def efuseMapLen : ℕ := 512

/-- What the `n`th write of all leaves in its cell, by the byte that is written -/
abbrev Burn := ℕ → UInt8 → UInt8

structure EfuseHal where
  cells : Efuse
  /-- `HW_VAR_EFUSE_BYTES` -/
  used : ℕ
  /-- the writes so far -/
  writes : ℕ

def oneByteWrite (burn : Burn) (addr : ℕ) (data : UInt8) (s : EfuseHal) : EfuseHal :=
  { s with cells := Function.update s.cells addr (burn s.writes data), writes := s.writes + 1 }

/-- `Efuse_GetCurrentSize`; the fourth try, which alone stores nothing, does not come about. -/
def getCurrentSize (s : EfuseHal) : EfuseHal := { s with used := (halEfuseGetCurrentSizeWiFi s.cells s.used).1 }

/-- The loop that writes a header until it is read back: how often it may still be written, if it is -/
def retryHeader (burn : Burn) (addr : ℕ) (pgHeader : UInt8) : ℕ → EfuseHal → EfuseHal × Option ℕ
  | tries, s =>
    if s.cells addr = 0xFF ∨ pgHeader ≠ s.cells addr then
      match tries with
      | 0 => (s,none)
      | tries + 1 => retryHeader burn addr pgHeader tries (oneByteWrite burn addr pgHeader s)
    else (s,some tries)

def writeHeader (burn : Burn) (addr : ℕ) (pgHeader : UInt8) (tries : ℕ) (s : EfuseHal) : EfuseHal × Option ℕ :=
  retryHeader burn addr pgHeader tries (oneByteWrite burn addr pgHeader s)

/-- `hal_EfusePgPacketWrite1ByteHeader`, with the address of the last byte of the header -/
def pgPacketWrite1ByteHeader (burn : Burn) (offset wordEn : UInt8) (addr : ℕ) (s : EfuseHal) :
    EfuseHal × Option ℕ :=
  let r := writeHeader burn addr ((offset <<< 4 &&& 0xF0) ||| wordEn) (EFUSE_REPEAT_THRESHOLD + 1) s
  (r.1,r.2.map fun _ => addr)

/-- The loop of `hal_EfusePgPacketWrite2ByteHeader` -/
def write2ByteLoop (burn : Burn) (offset wordEn : UInt8) (addr tries : ℕ) (s : EfuseHal) : EfuseHal × Option ℕ :=
  if addr < availableEfuseBytesTotal then
    let r := writeHeader burn addr ((offset &&& 0x07) <<< 5 ||| 0x0F) tries s
    match r.2 with
    | none => (r.1,none)
    | some tries =>
      let ext := (offset &&& 0x78) <<< 1 ||| wordEn
      let r := writeHeader burn (addr + 1) ext tries r.1
      match r.2 with
      | none => (r.1,none)
      | some tries =>
        if ext &&& 0x0F = 0x0F then
          if tries = 0 then (r.1,none) else write2ByteLoop burn offset wordEn (addr + 2) (tries - 1) r.1
        else (r.1,some (addr + 1))
  else (s,some addr)
termination_by availableEfuseBytesTotal - addr

def pgPacketWrite2ByteHeader (burn : Burn) (offset wordEn : UInt8) (addr : ℕ) (s : EfuseHal) :
    EfuseHal × Option ℕ :=
  if availableEfuseBytesTotal ≤ addr then (s,none)
  else write2ByteLoop burn offset wordEn addr (EFUSE_REPEAT_THRESHOLD + 1) s

def pgPacketWriteHeader (burn : Burn) (offset wordEn : UInt8) (addr : ℕ) (s : EfuseHal) : EfuseHal × Option ℕ :=
  if EFUSE_MAX_SECTION_BASE ≤ offset.toNat then pgPacketWrite2ByteHeader burn offset wordEn addr s
  else pgPacketWrite1ByteHeader burn offset wordEn addr s

/-- The address, `badworden` and the efuse during `Hal_EfuseWordEnableDataWrite` -/
structure DataWrite where
  addr : ℕ
  bad : UInt8
  hal : EfuseHal

/-- A word of `Hal_EfuseWordEnableDataWrite` -/
def writeWord (burn : Burn) (wordEn : UInt8) (data : ℕ → UInt8) (r : DataWrite) (i : ℕ) : DataWrite :=
  if wordEnabled wordEn i then
    let hal := oneByteWrite burn (r.addr + 1) (data (2 * i + 1)) (oneByteWrite burn r.addr (data (2 * i)) r.hal)
    let fails := data (2 * i) ≠ hal.cells r.addr ∨ data (2 * i + 1) ≠ hal.cells (r.addr + 1)
    ⟨r.addr + 2,if fails then r.bad &&& ~~~((1 : UInt8) <<< UInt8.ofNat i) else r.bad,hal⟩
  else r

def wordEnableDataWrite (burn : Burn) (addr : ℕ) (wordEn : UInt8) (data : ℕ → UInt8) (s : EfuseHal) : DataWrite :=
  (List.range 4).foldl (writeWord burn wordEn data) ⟨addr,0x0F,s⟩

/-- `hal_EfusePartialWriteCheck`: the address at which a packet begins -/
def partialWriteCheck (s : EfuseHal) : Option ℕ :=
  let startAddr := s.used % efuseRealContentLen
  if availableEfuseBytesTotal ≤ startAddr then none
  else if s.cells startAddr ≠ 0xFF then none
  else some startAddr

def wordEnableDataRead (wordEn : UInt8) (data : ℕ → UInt8) (j : ℕ) : UInt8 :=
  if wordEnabled wordEn (j / 2) then data j else 0xFF

/-- `Efuse_PgPacketWrite`, with as many packets as `fuel`: it writes the words that failed in a packet of their own. -/
def pgPacketWrite (burn : Burn) : ℕ → UInt8 → UInt8 → (ℕ → UInt8) → EfuseHal → EfuseHal × Bool
  | 0, _, _, _, s => (s,false)
  | fuel + 1, offset, wordEn, pData, s =>
    let s := getCurrentSize s
    if availableEfuseBytesTotal ≤ s.used then (s,false)
    else
      let data := wordEnableDataRead wordEn pData
      match partialWriteCheck s with
      | none => (s,false)
      | some startAddr =>
        let r := pgPacketWriteHeader burn offset wordEn startAddr s
        match r.2 with
        | none => (r.1,false)
        | some addr =>
          let d := wordEnableDataWrite burn (addr + 1) wordEn data r.1
          if d.bad = 0x0F then (d.hal,true) else pgPacketWrite burn fuel offset d.bad data d.hal

/-- `idx`, `word_en` and `newdata` of the loop over a section -/
structure SectionScan where
  idx : ℕ
  wordEn : UInt8
  newdata : ℕ → UInt8

/-- The loop over a section in `rtw_efuse_map_write`, from its byte `i` on -/
def scanSection (map : ℕ → UInt8) (addr cnts : ℕ) (data : ℕ → UInt8) (i : ℕ) (r : SectionScan) :
    SectionScan :=
  if i < 8 ∧ r.idx < cnts then
    if data r.idx ≠ map (addr + r.idx) then
      scanSection map addr cnts data (i + 1) ⟨r.idx + 1,r.wordEn &&& ~~~((1 : UInt8) <<< UInt8.ofNat (i / 2)),
        Function.update r.newdata i (data r.idx)⟩
    else scanSection map addr cnts data (i + 1) { r with idx := r.idx + 1 }
  else r
termination_by 8 - i

/-- A section of `rtw_efuse_map_write` -/
def startSection (map : ℕ → UInt8) (addr cnts : ℕ) (data : ℕ → UInt8) (offset idx : ℕ) : SectionScan :=
  scanSection map addr cnts data ((addr + idx) % 8) ⟨idx,0x0F,fun i => map (offset * 8 + i)⟩

theorem scanSection_idx (map : ℕ → UInt8) (addr cnts : ℕ) (data : ℕ → UInt8) (i : ℕ) (r : SectionScan) :
    (scanSection map addr cnts data i r).idx = r.idx + min (8 - i) (cnts - r.idx) := by
  fun_induction scanSection map addr cnts data i r with
  | case1 i r h hne ih =>
    rw [ih]
    dsimp only
    omega
  | case2 i r h hne ih =>
    rw [ih]
    dsimp only
    omega
  | case3 i r h => omega

theorem lt_startSection_idx (map : ℕ → UInt8) (addr : ℕ) {cnts : ℕ} (data : ℕ → UInt8)
    (offset : ℕ) {idx : ℕ}
    (h : idx < cnts) : idx < (startSection map addr cnts data offset idx).idx := by
  have hmod : (addr + idx) % 8 < 8 := Nat.mod_lt _ (by decide)
  rw [startSection, scanSection_idx]
  dsimp only
  omega

def chkTotalByte (map : ℕ → UInt8) (addr cnts : ℕ) (data : ℕ → UInt8) (offset idx : ℕ) : ℕ :=
  if _h : idx < cnts then
    let r := startSection map addr cnts data offset idx
    let hdr := if EFUSE_MAX_SECTION_BASE ≤ offset then 2 else 1
    (if r.wordEn = 0x0F then 0 else efuseCalculateWordCnts r.wordEn * 2 + hdr) +
      chkTotalByte map addr cnts data (offset + 1) r.idx
  else 0
termination_by cnts - idx
decreasing_by
  have := lt_startSection_idx map addr data offset _h
  omega

/-- The loop of `rtw_efuse_map_write` over the sections -/
def writeSections (burn : Burn) (fuel : ℕ) (map : ℕ → UInt8) (addr cnts : ℕ) (data : ℕ → UInt8)
    (offset idx : ℕ)
    (s : EfuseHal) : EfuseHal × Bool :=
  if _h : idx < cnts then
    let r := startSection map addr cnts data offset idx
    if r.wordEn = 0x0F then writeSections burn fuel map addr cnts data (offset + 1) r.idx s
    else
      let w := pgPacketWrite burn fuel (UInt8.ofNat offset) r.wordEn r.newdata s
      if w.2 then writeSections burn fuel map addr cnts data (offset + 1) r.idx w.1 else w
  else (s,true)
termination_by cnts - idx
decreasing_by
  all_goals
    have := lt_startSection_idx map addr data offset _h
    omega

/-- What `rtw_efuse_map_write` reads first -/
def mapRead (s : EfuseHal) : (ℕ → UInt8) × EfuseHal :=
  ((halReadEFuseWiFi s.cells).efuseTbl,{ s with used := (halReadEFuseWiFi s.cells).used })

/-- The bytes that are to be written: a masked byte is what the map has. -/
def maskData (masked : ℕ → Bool) (map : ℕ → UInt8) (addr : ℕ) (data : ℕ → UInt8) (i : ℕ) : UInt8 :=
  if masked (addr + i) then map (addr + i) else data i

def mapWrite (burn : Burn) (fuel : ℕ) (masked : ℕ → Bool) (addr cnts : ℕ) (data : ℕ → UInt8)
    (s : EfuseHal) :
    EfuseHal × Bool :=
  if efuseMapLen < addr + cnts then (s,false)
  else
    let (map,s) := mapRead s
    let data := maskData masked map addr data
    let total := chkTotalByte map addr cnts data (addr / 8) 0
    let s := if s.used = 0 then getCurrentSize s else s
    if availableEfuseBytesTotal ≤ s.used + total then (s,false)
    else writeSections burn fuel map addr cnts data (addr / 8) 0 s

end Rtl8188fu
