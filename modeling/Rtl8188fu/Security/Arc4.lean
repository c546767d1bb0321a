import Rtl8188fu.Security.Michael

/-! # RC4 and the CRC-32 of the WEP and TKIP ICV

`arc4context` as a value that `arcfour_byte` moves on. The table of `crc32_init` is
computed where it is read, on a little-endian host.
-/
namespace Rtl8188fu
open Bytes

/-- `struct arc4context`; `x` and `y` are kept below 256 -/
structure Arc4Context where
  x : UInt8
  y : UInt8
  state : List UInt8

/-- The swaps of `arcfour_init`: `n` of them from `counter` on -/
def arcfourSwaps (key : List UInt8) (keyLen : ℕ) : ℕ → ℕ → ℕ → UInt8 → List UInt8 → List UInt8
  | 0, _, _, _, state => state
  | n + 1, counter, keyindex, stateindex, state =>
    let t := byteAt state counter
    let stateindex := stateindex + byteAt key keyindex + t
    let u := byteAt state stateindex.toNat
    let state := (state.set stateindex.toNat t).set counter u
    arcfourSwaps key keyLen n (counter + 1) (if keyLen ≤ keyindex + 1 then 0 else keyindex + 1) stateindex state

def arcfourInit (key : List UInt8) (keyLen : ℕ) : Arc4Context where
  x := 0
  y := 0
  state := arcfourSwaps key keyLen 256 0 0 0 ((List.range 256).map UInt8.ofNat)

def arcfourByte (c : Arc4Context) : UInt8 × Arc4Context :=
  let x := c.x + 1
  let sx := byteAt c.state x.toNat
  let y := sx + c.y
  let sy := byteAt c.state y.toNat
  let state := (c.state.set y.toNat sx).set x.toNat sy
  (byteAt state (sx + sy).toNat, ⟨x, y, state⟩)

def arcfourEncrypt : Arc4Context → List UInt8 → List UInt8
  | _, [] => []
  | c, b :: src =>
    let r := arcfourByte c
    (b ^^^ r.1) :: arcfourEncrypt r.2 src

@[simp] theorem length_arcfourEncrypt (c : Arc4Context) (src : List UInt8) :
    (arcfourEncrypt c src).length = src.length := by
  induction src generalizing c with
  | nil => rfl
  | cons b src ih => simp [arcfourEncrypt, ih]

/-- Encrypting twice from the same state gives the text back. -/
theorem arcfourEncrypt_arcfourEncrypt (c : Arc4Context) (src : List UInt8) :
    arcfourEncrypt c (arcfourEncrypt c src) = src := by
  induction src generalizing c with
  | nil => rfl
  | cons b src ih =>
    simp only [arcfourEncrypt, ih]
    congr 1
    rw [UInt8.xor_assoc, UInt8.xor_self, UInt8.xor_zero]

def CRC32_POLY : UInt32 := 0x04c11db7

def crc32ReverseBit (data : UInt8) : UInt8 :=
  let bitAt (b m : UInt8) : UInt8 := b &&& m
  bitAt (data <<< 7) 0x80 ||| bitAt (data <<< 5) 0x40 ||| bitAt (data <<< 3) 0x20 ||| bitAt (data <<< 1) 0x10 |||
    bitAt (data >>> 1) 0x08 ||| bitAt (data >>> 3) 0x04 ||| bitAt (data >>> 5) 0x02 ||| bitAt (data >>> 7) 0x01

/-- The division of `crc32_init`, `j` bits of it -/
def crc32Bits : ℕ → UInt32 → UInt32
  | 0, c => c
  | j + 1, c => crc32Bits j (if c &&& 0x80000000 ≠ 0 then (c <<< 1) ^^^ CRC32_POLY else c <<< 1)

/-- `crc32_table[i]` -/
def crc32Table (i : UInt8) : UInt32 :=
  let p := secmicputuint32 (crc32Bits 8 ((crc32ReverseBit i).toUInt32 <<< 24))
  secmicgetuint32 (p.reverse.map crc32ReverseBit)

def getcrc32 (buf : List UInt8) : UInt32 :=
  ~~~ buf.foldl (fun crc p => crc32Table (crc ^^^ p.toUInt32).toUInt8 ^^^ (crc >>> 8)) 0xffffffff

/-- The four bytes of the check value, as they are compared and stored -/
def crcBytes (buf : List UInt8) : List UInt8 := secmicputuint32 (getcrc32 buf)

@[simp] theorem length_crcBytes (buf : List UInt8) : (crcBytes buf).length = 4 := rfl

/-- The check value of the digits `123456789` -/
example : getcrc32 ((List.range 9).map fun i => UInt8.ofNat (0x31 + i)) = 0xcbf43926 := by decide +kernel

end Rtl8188fu
