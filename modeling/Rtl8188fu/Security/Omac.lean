import Rtl8188fu.Security.Aes

/-! # The table-driven AES and its CMAC

`rijndaelEncrypt` works on four 32-bit words, the first byte of a block highest, with one
table and its rotations. `omac1_aes_128` is the CMAC of one buffer.
-/
namespace Rtl8188fu

def te0 : List UInt32 :=
  [0xc66363a5, 0xf87c7c84, 0xee777799, 0xf67b7b8d, 0xfff2f20d, 0xd66b6bbd, 0xde6f6fb1, 0x91c5c554,
   0x60303050, 0x02010103, 0xce6767a9, 0x562b2b7d, 0xe7fefe19, 0xb5d7d762, 0x4dababe6, 0xec76769a,
   0x8fcaca45, 0x1f82829d, 0x89c9c940, 0xfa7d7d87, 0xeffafa15, 0xb25959eb, 0x8e4747c9, 0xfbf0f00b,
   0x41adadec, 0xb3d4d467, 0x5fa2a2fd, 0x45afafea, 0x239c9cbf, 0x53a4a4f7, 0xe4727296, 0x9bc0c05b,
   0x75b7b7c2, 0xe1fdfd1c, 0x3d9393ae, 0x4c26266a, 0x6c36365a, 0x7e3f3f41, 0xf5f7f702, 0x83cccc4f,
   0x6834345c, 0x51a5a5f4, 0xd1e5e534, 0xf9f1f108, 0xe2717193, 0xabd8d873, 0x62313153, 0x2a15153f,
   0x0804040c, 0x95c7c752, 0x46232365, 0x9dc3c35e, 0x30181828, 0x379696a1, 0x0a05050f, 0x2f9a9ab5,
   0x0e070709, 0x24121236, 0x1b80809b, 0xdfe2e23d, 0xcdebeb26, 0x4e272769, 0x7fb2b2cd, 0xea75759f,
   0x1209091b, 0x1d83839e, 0x582c2c74, 0x341a1a2e, 0x361b1b2d, 0xdc6e6eb2, 0xb45a5aee, 0x5ba0a0fb,
   0xa45252f6, 0x763b3b4d, 0xb7d6d661, 0x7db3b3ce, 0x5229297b, 0xdde3e33e, 0x5e2f2f71, 0x13848497,
   0xa65353f5, 0xb9d1d168, 0x00000000, 0xc1eded2c, 0x40202060, 0xe3fcfc1f, 0x79b1b1c8, 0xb65b5bed,
   0xd46a6abe, 0x8dcbcb46, 0x67bebed9, 0x7239394b, 0x944a4ade, 0x984c4cd4, 0xb05858e8, 0x85cfcf4a,
   0xbbd0d06b, 0xc5efef2a, 0x4faaaae5, 0xedfbfb16, 0x864343c5, 0x9a4d4dd7, 0x66333355, 0x11858594,
   0x8a4545cf, 0xe9f9f910, 0x04020206, 0xfe7f7f81, 0xa05050f0, 0x783c3c44, 0x259f9fba, 0x4ba8a8e3,
   0xa25151f3, 0x5da3a3fe, 0x804040c0, 0x058f8f8a, 0x3f9292ad, 0x219d9dbc, 0x70383848, 0xf1f5f504,
   0x63bcbcdf, 0x77b6b6c1, 0xafdada75, 0x42212163, 0x20101030, 0xe5ffff1a, 0xfdf3f30e, 0xbfd2d26d,
   0x81cdcd4c, 0x180c0c14, 0x26131335, 0xc3ecec2f, 0xbe5f5fe1, 0x359797a2, 0x884444cc, 0x2e171739,
   0x93c4c457, 0x55a7a7f2, 0xfc7e7e82, 0x7a3d3d47, 0xc86464ac, 0xba5d5de7, 0x3219192b, 0xe6737395,
   0xc06060a0, 0x19818198, 0x9e4f4fd1, 0xa3dcdc7f, 0x44222266, 0x542a2a7e, 0x3b9090ab, 0x0b888883,
   0x8c4646ca, 0xc7eeee29, 0x6bb8b8d3, 0x2814143c, 0xa7dede79, 0xbc5e5ee2, 0x160b0b1d, 0xaddbdb76,
   0xdbe0e03b, 0x64323256, 0x743a3a4e, 0x140a0a1e, 0x924949db, 0x0c06060a, 0x4824246c, 0xb85c5ce4,
   0x9fc2c25d, 0xbdd3d36e, 0x43acacef, 0xc46262a6, 0x399191a8, 0x319595a4, 0xd3e4e437, 0xf279798b,
   0xd5e7e732, 0x8bc8c843, 0x6e373759, 0xda6d6db7, 0x018d8d8c, 0xb1d5d564, 0x9c4e4ed2, 0x49a9a9e0,
   0xd86c6cb4, 0xac5656fa, 0xf3f4f407, 0xcfeaea25, 0xca6565af, 0xf47a7a8e, 0x47aeaee9, 0x10080818,
   0x6fbabad5, 0xf0787888, 0x4a25256f, 0x5c2e2e72, 0x381c1c24, 0x57a6a6f1, 0x73b4b4c7, 0x97c6c651,
   0xcbe8e823, 0xa1dddd7c, 0xe874749c, 0x3e1f1f21, 0x964b4bdd, 0x61bdbddc, 0x0d8b8b86, 0x0f8a8a85,
   0xe0707090, 0x7c3e3e42, 0x71b5b5c4, 0xcc6666aa, 0x904848d8, 0x06030305, 0xf7f6f601, 0x1c0e0e12,
   0xc26161a3, 0x6a35355f, 0xae5757f9, 0x69b9b9d0, 0x17868691, 0x99c1c158, 0x3a1d1d27, 0x279e9eb9,
   0xd9e1e138, 0xebf8f813, 0x2b9898b3, 0x22111133, 0xd26969bb, 0xa9d9d970, 0x078e8e89, 0x339494a7,
   0x2d9b9bb6, 0x3c1e1e22, 0x15878792, 0xc9e9e920, 0x87cece49, 0xaa5555ff, 0x50282878, 0xa5dfdf7a,
   0x038c8c8f, 0x59a1a1f8, 0x09898980, 0x1a0d0d17, 0x65bfbfda, 0xd7e6e631, 0x844242c6, 0xd06868b8,
   0x824141c3, 0x299999b0, 0x5a2d2d77, 0x1e0f0f11, 0x7bb0b0cb, 0xa85454fc, 0x6dbbbbd6, 0x2c16163a]

/-- `Te0` at byte `n` of a word, counted from the lowest -/
def te0At (w : UInt32) (n : UInt32) : UInt32 := te0.getD (w >>> (8 * n)).toUInt8.toNat 0

def rotr (v bits : UInt32) : UInt32 := v >>> bits ||| v <<< (32 - bits)

def rcons : List UInt32 := [0x01, 0x02, 0x04, 0x08, 0x10, 0x20, 0x40, 0x80, 0x1b, 0x36]

def GETU32 (pt : List UInt8) : UInt32 :=
  (byteAt pt 0).toUInt32 <<< 24 ^^^ (byteAt pt 1).toUInt32 <<< 16 ^^^ (byteAt pt 2).toUInt32 <<< 8 ^^^
    (byteAt pt 3).toUInt32

def PUTU32 (st : UInt32) : List UInt8 :=
  [(st >>> 24).toUInt8, (st >>> 16).toUInt8, (st >>> 8).toUInt8, st.toUInt8]

/-- Four words, of the cipher state or of the key schedule -/
structure Words where
  w0 : UInt32
  w1 : UInt32
  w2 : UInt32
  w3 : UInt32
  deriving DecidableEq

def Words.get (p : List UInt8) : Words :=
  ⟨GETU32 p, GETU32 (p.drop 4), GETU32 (p.drop 8), GETU32 (p.drop 12)⟩

def Words.put (s : Words) : List UInt8 := PUTU32 s.w0 ++ PUTU32 s.w1 ++ PUTU32 s.w2 ++ PUTU32 s.w3

def Words.xor (s t : Words) : Words := ⟨s.w0 ^^^ t.w0, s.w1 ^^^ t.w1, s.w2 ^^^ t.w2, s.w3 ^^^ t.w3⟩

/-- Turn `i` of the loop of `rijndaelKeySetupEnc` -/
def rijndaelNextKey (rk : Words) (i : ℕ) : Words :=
  let temp := rk.w3
  let w4 := rk.w0 ^^^ ((te0At temp 2 <<< 8) &&& (0xff000000 : UInt32)) ^^^ (te0At temp 1 &&& (0x00ff0000 : UInt32)) ^^^
    (te0At temp 0 &&& (0x0000ff00 : UInt32)) ^^^ ((te0At temp 3 >>> 8) &&& (0x000000ff : UInt32)) ^^^ rcons.getD
      i 0 <<< 24
  let w5 := rk.w1 ^^^ w4
  let w6 := rk.w2 ^^^ w5
  let w7 := rk.w3 ^^^ w6
  ⟨w4, w5, w6, w7⟩

/-- `ROUND` with the round key `rk` -/
def rijndaelRound (rk s : Words) : Words :=
  let t := fun a b c d : UInt32 => te0At a 3 ^^^ rotr (te0At b 2) 8 ^^^ rotr (te0At c 1) 16 ^^^ rotr (te0At d 0) 24
  Words.xor ⟨t s.w0 s.w1 s.w2 s.w3, t s.w1 s.w2 s.w3 s.w0, t s.w2 s.w3 s.w0 s.w1, t s.w3 s.w0 s.w1 s.w2⟩ rk

def rijndaelLast (rk t : Words) : Words :=
  let s := fun a b c d : UInt32 =>
    ((te0At a 3 <<< 8) &&& (0xff000000 : UInt32)) ^^^ (te0At b 2 &&& (0x00ff0000 : UInt32)) ^^^
      (te0At c 1 &&& (0x0000ff00 : UInt32)) ^^^ ((te0At d 0 >>> 8) &&& (0x000000ff : UInt32))
  Words.xor ⟨s t.w0 t.w1 t.w2 t.w3, s t.w1 t.w2 t.w3 t.w0, s t.w2 t.w3 t.w0 t.w1, s t.w3 t.w0 t.w1 t.w2⟩ rk

/-- `n` full rounds with the key schedule from `rk` on, made as it is used, and the last one -/
def rijndaelRounds : ℕ → ℕ → Words → Words → Words
  | 0, i, rk, s => rijndaelLast (rijndaelNextKey rk i) s
  | n + 1, i, rk, s =>
    let rk := rijndaelNextKey rk i
    rijndaelRounds n (i + 1) rk (rijndaelRound rk s)

/-- `aes_128_encrypt` under the schedule of `key` -/
def rijndaelEncrypt (key pt : List UInt8) : List UInt8 :=
  let rk := Words.get key
  (rijndaelRounds 9 0 rk ((Words.get pt).xor rk)).put

def gfMulx (pad : List UInt8) : List UInt8 :=
  let shifted := (List.range 16).map fun i =>
    if i < 15 then byteAt pad i <<< 1 ||| byteAt pad (i + 1) >>> 7 else byteAt pad i <<< 1
  if byteAt pad 0 &&& 0x80 ≠ 0 then shifted.set 15 (byteAt shifted 15 ^^^ 0x87) else shifted

/-- The full blocks of `omac1_aes_128_vector`, `n` of them; the last one of a buffer is not encrypted. -/
def omac1Blocks (key : List UInt8) : ℕ → List UInt8 → List UInt8 → List UInt8 × List UInt8
  | 0, data, cbc => (cbc, data)
  | n + 1, data, cbc =>
    let cbc := xor128 cbc data
    omac1Blocks key n (data.drop 16) (if 16 < data.length then rijndaelEncrypt key cbc else cbc)

def omac1Aes128 (key data : List UInt8) : List UInt8 :=
  let r := omac1Blocks key (data.length / 16) data (List.replicate 16 0)
  let pad := gfMulx (rijndaelEncrypt key (List.replicate 16 0))
  if r.2 ≠ [] ∨ data = [] then
    rijndaelEncrypt key (xor128 (gfMulx pad) (xor128 r.1 (r.2 ++ [0x80])))
  else rijndaelEncrypt key (xor128 pad r.1)

/-- The CMAC of no byte, from the test vectors of the standard -/
example : omac1Aes128
    [0x2b, 0x7e, 0x15, 0x16, 0x28, 0xae, 0xd2, 0xa6, 0xab, 0xf7, 0x15, 0x88, 0x09, 0xcf, 0x4f, 0x3c] [] =
    [0xbb, 0x1d, 0x69, 0x29, 0xe9, 0x59, 0x37, 0x28, 0x7f, 0xa3, 0x7d, 0x12, 0x9b, 0x75, 0x67, 0x46] := by
  decide +kernel

end Rtl8188fu
