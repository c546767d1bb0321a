import Rtl8188fu.Security.Arc4
import Rtl8188fu.Include.RtwXmit

/-! # The TKIP key mixing

`phase1` and `phase2`, and the RC4 key of a packet.
-/
namespace Rtl8188fu
open Bytes

/-- `Sbox1[0]` -/
def sbox1 : List UInt16 :=
  [0xc6a5, 0xf884, 0xee99, 0xf68d, 0xff0d, 0xd6bd, 0xdeb1, 0x9154, 0x6050, 0x0203, 0xcea9, 0x567d, 0xe719, 0xb562,
    0x4de6, 0xec9a,
   0x8f45, 0x1f9d, 0x8940, 0xfa87, 0xef15, 0xb2eb, 0x8ec9, 0xfb0b, 0x41ec, 0xb367, 0x5ffd, 0x45ea, 0x23bf, 0x53f7,
   0xe496, 0x9b5b,
   0x75c2, 0xe11c, 0x3dae, 0x4c6a, 0x6c5a, 0x7e41, 0xf502, 0x834f, 0x685c, 0x51f4, 0xd134, 0xf908, 0xe293, 0xab73,
   0x6253, 0x2a3f,
   0x080c, 0x9552, 0x4665, 0x9d5e, 0x3028, 0x37a1, 0x0a0f, 0x2fb5, 0x0e09, 0x2436, 0x1b9b, 0xdf3d, 0xcd26, 0x4e69,
   0x7fcd, 0xea9f,
   0x121b, 0x1d9e, 0x5874, 0x342e, 0x362d, 0xdcb2, 0xb4ee, 0x5bfb, 0xa4f6, 0x764d, 0xb761, 0x7dce, 0x527b, 0xdd3e,
   0x5e71, 0x1397,
   0xa6f5, 0xb968, 0x0000, 0xc12c, 0x4060, 0xe31f, 0x79c8, 0xb6ed, 0xd4be, 0x8d46, 0x67d9, 0x724b, 0x94de, 0x98d4,
   0xb0e8, 0x854a,
   0xbb6b, 0xc52a, 0x4fe5, 0xed16, 0x86c5, 0x9ad7, 0x6655, 0x1194, 0x8acf, 0xe910, 0x0406, 0xfe81, 0xa0f0, 0x7844,
   0x25ba, 0x4be3,
   0xa2f3, 0x5dfe, 0x80c0, 0x058a, 0x3fad, 0x21bc, 0x7048, 0xf104, 0x63df, 0x77c1, 0xaf75, 0x4263, 0x2030, 0xe51a,
   0xfd0e, 0xbf6d,
   0x814c, 0x1814, 0x2635, 0xc32f, 0xbee1, 0x35a2, 0x88cc, 0x2e39, 0x9357, 0x55f2, 0xfc82, 0x7a47, 0xc8ac, 0xbae7,
   0x322b, 0xe695,
   0xc0a0, 0x1998, 0x9ed1, 0xa37f, 0x4466, 0x547e, 0x3bab, 0x0b83, 0x8cca, 0xc729, 0x6bd3, 0x283c, 0xa779, 0xbce2,
   0x161d, 0xad76,
   0xdb3b, 0x6456, 0x744e, 0x141e, 0x92db, 0x0c0a, 0x486c, 0xb8e4, 0x9f5d, 0xbd6e, 0x43ef, 0xc4a6, 0x39a8, 0x31a4,
   0xd337, 0xf28b,
   0xd532, 0x8b43, 0x6e59, 0xdab7, 0x018c, 0xb164, 0x9cd2, 0x49e0, 0xd8b4, 0xacfa, 0xf307, 0xcf25, 0xcaaf, 0xf48e,
   0x47e9, 0x1018,
   0x6fd5, 0xf088, 0x4a6f, 0x5c72, 0x3824, 0x57f1, 0x73c7, 0x9751, 0xcb23, 0xa17c, 0xe89c, 0x3e21, 0x96dd, 0x61dc,
   0x0d86, 0x0f85,
   0xe090, 0x7c42, 0x71c4, 0xccaa, 0x90d8, 0x0605, 0xf701, 0x1c12, 0xc2a3, 0x6a5f, 0xaef9, 0x69d0, 0x1791, 0x9958,
   0x3a27, 0x27b9,
   0xd938, 0xeb13, 0x2bb3, 0x2233, 0xd2bb, 0xa970, 0x0789, 0x33a7, 0x2db6, 0x3c22, 0x1592, 0xc920, 0x8749, 0xaaff,
   0x5078, 0xa57a,
   0x038f, 0x59f8, 0x0980, 0x1a17, 0x65da, 0xd731, 0x84c6, 0xd0b8, 0x82c3, 0x29b0, 0x5a77, 0x1e11, 0x7bcb, 0xa8fc,
   0x6dd6, 0x2c3a]

/-- `Sbox1[1]`, the first half of the table with the bytes of each entry swapped -/
def sbox1Reversed (i : UInt8) : UInt16 :=
  let v := sbox1.getD i.toNat 0
  v >>> 8 ||| v <<< 8

/-- `_S_` -/
def tkipS (v16 : UInt16) : UInt16 := sbox1.getD v16.toUInt8.toNat 0 ^^^ sbox1Reversed (v16 >>> 8).toUInt8

def mk16 (hi lo : UInt8) : UInt16 := lo.toUInt16 ^^^ hi.toUInt16 <<< 8

def tk16 (tk : List UInt8) (n : ℕ) : UInt16 := mk16 (byteAt tk (2 * n + 1)) (byteAt tk (2 * n))

def rotR1 (v16 : UInt16) : UInt16 := (v16 >>> 1 &&& (0x7fff : UInt16)) ^^^ (v16 &&& (1 : UInt16)) <<< (15 : UInt16)

/-- The five words `p1k` -/
structure P1k where
  p0 : UInt16
  p1 : UInt16
  p2 : UInt16
  p3 : UInt16
  p4 : UInt16
  deriving DecidableEq

/-- Turn `i` of the loop of `phase1` -/
def phase1Round (tk : List UInt8) (p : P1k) (i : ℕ) : P1k :=
  let p0 := p.p0 + tkipS (p.p4 ^^^ tk16 tk (i % 2 + 0))
  let p1 := p.p1 + tkipS (p0 ^^^ tk16 tk (i % 2 + 2))
  let p2 := p.p2 + tkipS (p1 ^^^ tk16 tk (i % 2 + 4))
  let p3 := p.p3 + tkipS (p2 ^^^ tk16 tk (i % 2 + 6))
  let p4 := p.p4 + tkipS (p3 ^^^ tk16 tk (i % 2 + 0)) + UInt16.ofNat i
  ⟨p0, p1, p2, p3, p4⟩

def phase1 (tk ta : List UInt8) (iv32 : UInt32) : P1k :=
  let p1k : P1k :=
    ⟨iv32.toUInt16, (iv32 >>> 16).toUInt16, mk16 (byteAt ta 1) (byteAt ta 0), mk16 (byteAt ta 3) (byteAt ta 2),
      mk16 (byteAt ta 5) (byteAt ta 4)⟩
  (List.range 8).foldl (phase1Round tk) p1k

def phase2 (tk : List UInt8) (p1k : P1k) (iv16 : UInt16) : List UInt8 :=
  let ppk5 := p1k.p4 + iv16
  let ppk0 := p1k.p0 + tkipS (ppk5 ^^^ tk16 tk 0)
  let ppk1 := p1k.p1 + tkipS (ppk0 ^^^ tk16 tk 1)
  let ppk2 := p1k.p2 + tkipS (ppk1 ^^^ tk16 tk 2)
  let ppk3 := p1k.p3 + tkipS (ppk2 ^^^ tk16 tk 3)
  let ppk4 := p1k.p4 + tkipS (ppk3 ^^^ tk16 tk 4)
  let ppk5 := ppk5 + tkipS (ppk4 ^^^ tk16 tk 5)
  let ppk0 := ppk0 + rotR1 (ppk5 ^^^ tk16 tk 6)
  let ppk1 := ppk1 + rotR1 (ppk0 ^^^ tk16 tk 7)
  let ppk2 := ppk2 + rotR1 ppk1
  let ppk3 := ppk3 + rotR1 ppk2
  let ppk4 := ppk4 + rotR1 ppk3
  let ppk5 := ppk5 + rotR1 ppk4
  [(iv16 >>> 8).toUInt8, ((iv16 >>> 8).toUInt8 ||| 0x20) &&& 0x7f, iv16.toUInt8,
    ((ppk5 ^^^ tk16 tk 0) >>> 1).toUInt8] ++
    [ppk0, ppk1, ppk2, ppk3, ppk4, ppk5].flatMap fun w : UInt16 => [w.toUInt8, (w >>> 8).toUInt8]

/-- The RC4 key of a packet, from the packet number in its IV -/
def tkipRc4Key (tk ta iv : List UInt8) : List UInt8 :=
  let txpn := getTkipPn iv
  phase2 tk (phase1 tk ta (UInt32.ofNat (txpn / 2 ^ 16))) (UInt16.ofNat txpn)

end Rtl8188fu
