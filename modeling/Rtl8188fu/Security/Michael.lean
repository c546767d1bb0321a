import Rtl8188fu.Include.RtwSecurity

/-! # The TKIP message integrity code

`mic_data` accumulates four bytes at a time into the two halves of the state.
-/
namespace Rtl8188fu
open Bytes

structure MicData where
  k0 : UInt32
  k1 : UInt32
  l : UInt32
  r : UInt32
  m : UInt32
  nBytesInM : ℕ
  deriving DecidableEq

def rol32 (a : UInt32) (n : UInt32) : UInt32 := a <<< n ||| ((a >>> (32 - n)) &&& ((1 <<< n) - 1))

def ror32 (a : UInt32) (n : UInt32) : UInt32 := rol32 a (32 - n)

def secmicgetuint32 (p : List UInt8) : UInt32 :=
  (byteAt p 0).toUInt32 ||| (byteAt p 1).toUInt32 <<< 8 ||| (byteAt p 2).toUInt32 <<< 16 |||
    (byteAt p 3).toUInt32 <<< 24

def secmicputuint32 (val : UInt32) : List UInt8 :=
  [val.toUInt8, (val >>> 8).toUInt8, (val >>> 16).toUInt8, (val >>> 24).toUInt8]

def secmicclear (d : MicData) : MicData := { d with l := d.k0, r := d.k1, nBytesInM := 0, m := 0 }

def rtwSecmicsetkey (key : List UInt8) : MicData :=
  secmicclear ⟨secmicgetuint32 key, secmicgetuint32 (key.drop 4), 0, 0, 0, 0⟩

/-- The six mixing steps on a full word -/
def secmicmix (d : MicData) : MicData :=
  let l := d.l ^^^ d.m
  let r := d.r ^^^ rol32 l 17
  let l := l + r
  let r := r ^^^ ((l &&& 0xff00ff00) >>> 8 ||| (l &&& 0x00ff00ff) <<< 8)
  let l := l + r
  let r := r ^^^ rol32 l 3
  let l := l + r
  let r := r ^^^ ror32 l 2
  let l := l + r
  { d with l := l, r := r, m := 0, nBytesInM := 0 }

def rtwSecmicappendbyte (d : MicData) (b : UInt8) : MicData :=
  let d := { d with
    m := d.m ||| b.toUInt32 <<< UInt32.ofNat (8 * d.nBytesInM)
    nBytesInM := d.nBytesInM + 1 }
  if 4 ≤ d.nBytesInM then secmicmix d else d

def rtwSecmicappend (d : MicData) (src : List UInt8) : MicData := src.foldl rtwSecmicappendbyte d

/-- Zeroes until the length is a multiple of four, at most `n` of them -/
def secmicpad : ℕ → MicData → MicData
  | 0, d => d
  | n + 1, d => if d.nBytesInM = 0 then d else secmicpad n (rtwSecmicappendbyte d 0)

def rtwSecgetmic (d : MicData) : List UInt8 :=
  let d := secmicpad 4 (rtwSecmicappend d [0x5a, 0, 0, 0, 0])
  secmicputuint32 d.l ++ secmicputuint32 d.r

def rtwSeccalctkipmic (key header data : List UInt8) (pri : UInt8) : List UInt8 :=
  let d := rtwSecmicsetkey key
  let h1 := byteAt header 1
  let d :=
    if h1 &&& 1 ≠ 0 then
      let d := rtwSecmicappend d (slice header 16 6)
      if h1 &&& 2 ≠ 0 then rtwSecmicappend d (slice header 24 6)
      else rtwSecmicappend d (slice header 10 6)
    else
      let d := rtwSecmicappend d (slice header 4 6)
      if h1 &&& 2 ≠ 0 then rtwSecmicappend d (slice header 16 6)
      else rtwSecmicappend d (slice header 10 6)
  rtwSecgetmic (rtwSecmicappend (rtwSecmicappend d [pri, 0, 0, 0]) data)

end Rtl8188fu
