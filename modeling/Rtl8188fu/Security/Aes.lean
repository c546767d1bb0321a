import Rtl8188fu.Include.Wifi

/-! # The AES-128 block cipher of the software CCMP

`aes128k128d` and the functions it is made of. Blocks and keys are lists of sixteen bytes.
-/
namespace Rtl8188fu

def sboxTable : List UInt8 :=
  [0x63, 0x7c, 0x77, 0x7b, 0xf2, 0x6b, 0x6f, 0xc5, 0x30, 0x01, 0x67, 0x2b, 0xfe, 0xd7, 0xab, 0x76,
   0xca, 0x82, 0xc9, 0x7d, 0xfa, 0x59, 0x47, 0xf0, 0xad, 0xd4, 0xa2, 0xaf, 0x9c, 0xa4, 0x72, 0xc0,
   0xb7, 0xfd, 0x93, 0x26, 0x36, 0x3f, 0xf7, 0xcc, 0x34, 0xa5, 0xe5, 0xf1, 0x71, 0xd8, 0x31, 0x15,
   0x04, 0xc7, 0x23, 0xc3, 0x18, 0x96, 0x05, 0x9a, 0x07, 0x12, 0x80, 0xe2, 0xeb, 0x27, 0xb2, 0x75,
   0x09, 0x83, 0x2c, 0x1a, 0x1b, 0x6e, 0x5a, 0xa0, 0x52, 0x3b, 0xd6, 0xb3, 0x29, 0xe3, 0x2f, 0x84,
   0x53, 0xd1, 0x00, 0xed, 0x20, 0xfc, 0xb1, 0x5b, 0x6a, 0xcb, 0xbe, 0x39, 0x4a, 0x4c, 0x58, 0xcf,
   0xd0, 0xef, 0xaa, 0xfb, 0x43, 0x4d, 0x33, 0x85, 0x45, 0xf9, 0x02, 0x7f, 0x50, 0x3c, 0x9f, 0xa8,
   0x51, 0xa3, 0x40, 0x8f, 0x92, 0x9d, 0x38, 0xf5, 0xbc, 0xb6, 0xda, 0x21, 0x10, 0xff, 0xf3, 0xd2,
   0xcd, 0x0c, 0x13, 0xec, 0x5f, 0x97, 0x44, 0x17, 0xc4, 0xa7, 0x7e, 0x3d, 0x64, 0x5d, 0x19, 0x73,
   0x60, 0x81, 0x4f, 0xdc, 0x22, 0x2a, 0x90, 0x88, 0x46, 0xee, 0xb8, 0x14, 0xde, 0x5e, 0x0b, 0xdb,
   0xe0, 0x32, 0x3a, 0x0a, 0x49, 0x06, 0x24, 0x5c, 0xc2, 0xd3, 0xac, 0x62, 0x91, 0x95, 0xe4, 0x79,
   0xe7, 0xc8, 0x37, 0x6d, 0x8d, 0xd5, 0x4e, 0xa9, 0x6c, 0x56, 0xf4, 0xea, 0x65, 0x7a, 0xae, 0x08,
   0xba, 0x78, 0x25, 0x2e, 0x1c, 0xa6, 0xb4, 0xc6, 0xe8, 0xdd, 0x74, 0x1f, 0x4b, 0xbd, 0x8b, 0x8a,
   0x70, 0x3e, 0xb5, 0x66, 0x48, 0x03, 0xf6, 0x0e, 0x61, 0x35, 0x57, 0xb9, 0x86, 0xc1, 0x1d, 0x9e,
   0xe1, 0xf8, 0x98, 0x11, 0x69, 0xd9, 0x8e, 0x94, 0x9b, 0x1e, 0x87, 0xe9, 0xce, 0x55, 0x28, 0xdf,
   0x8c, 0xa1, 0x89, 0x0d, 0xbf, 0xe6, 0x42, 0x68, 0x41, 0x99, 0x2d, 0x0f, 0xb0, 0x54, 0xbb, 0x16]

def sbox (a : UInt8) : UInt8 := byteAt sboxTable a.toNat

def xor32 (a b : List UInt8) : List UInt8 := (List.range 4).map fun i => byteAt a i ^^^ byteAt b i

/-- `xor_128` and `bitwise_xor` -/
def xor128 (a b : List UInt8) : List UInt8 := (List.range 16).map fun i => byteAt a i ^^^ byteAt b i

def rconTable : List UInt8 := [0x01, 0x02, 0x04, 0x08, 0x10, 0x20, 0x40, 0x80, 0x1b, 0x36, 0x36, 0x36]

def nextKey (key : List UInt8) (round : ℕ) : List UInt8 :=
  let sboxKey := [sbox (byteAt key 13), sbox (byteAt key 14), sbox (byteAt key 15), sbox (byteAt key 12)]
  let k0 := xor32 key sboxKey
  let k0 := (byteAt k0 0 ^^^ byteAt rconTable round) :: k0.drop 1
  let k1 := xor32 (key.drop 4) k0
  let k2 := xor32 (key.drop 8) k1
  let k3 := xor32 (key.drop 12) k2
  k0 ++ k1 ++ k2 ++ k3

def byteSub (b : List UInt8) : List UInt8 := b.map sbox

def shiftRow (b : List UInt8) : List UInt8 :=
  [0, 5, 10, 15, 4, 9, 14, 3, 8, 13, 2, 7, 12, 1, 6, 11].map (byteAt b)

/-- `mix_column` of the four bytes at `b` -/
def mixColumn (b : List UInt8) : List UInt8 :=
  let add1b := (List.range 4).map fun i => if byteAt b i &&& 0x80 = 0x80 then (0x1b : UInt8) else 0
  let swapHalfs := [byteAt b 2, byteAt b 3, byteAt b 0, byteAt b 1]
  let rotl := [byteAt b 3, byteAt b 0, byteAt b 1, byteAt b 2]
  -- the masked bytes have bit 7 clear, so nothing is carried into the next byte
  let andf7 := (List.range 4).map fun i => (byteAt b i &&& 0x7f) <<< 1
  let add1bf7 := xor32 add1b andf7
  let rotr := xor32 b add1bf7
  let rotr := [byteAt rotr 1, byteAt rotr 2, byteAt rotr 3, byteAt rotr 0]
  let temp := xor32 add1bf7 rotr
  let tempb := xor32 swapHalfs rotl
  xor32 temp tempb

/-- Rounds 1 to 9 of `aes128k128d`, `n` of them from `round` on, with the round key -/
def aesRounds : ℕ → ℕ → List UInt8 → List UInt8 → List UInt8 × List UInt8
  | 0, _, roundKey, ciphertext => (roundKey, ciphertext)
  | n + 1, round, roundKey, ciphertext =>
    let b := shiftRow (byteSub ciphertext)
    let a := mixColumn b ++ mixColumn (b.drop 4) ++ mixColumn (b.drop 8) ++ mixColumn (b.drop 12)
    aesRounds n (round + 1) (nextKey roundKey round) (xor128 a roundKey)

def aes128k128d (key data : List UInt8) : List UInt8 :=
  let r := aesRounds 9 1 (nextKey key 0) (xor128 key data)
  xor128 (shiftRow (byteSub r.2)) r.1

/-- The example vector of the AES standard -/
example : aes128k128d ((List.range 16).map UInt8.ofNat) ((List.range 16).map fun i => UInt8.ofNat (17 * i)) =
    [0x69, 0xc4, 0xe0, 0xd8, 0x6a, 0x7b, 0x04, 0x30, 0xd8, 0xcd, 0xb7, 0x80, 0x70, 0xb4, 0xc5, 0x5a] := by
  decide +kernel

end Rtl8188fu
