import Rtl8188fu.Library.ByteWord
import Rtl8188fu.Security.Omac

/-! # The two AES-128 ciphers are one function

`aes128k128d` works on bytes and makes its round keys as it goes, `rijndaelEncrypt` works on words with a table and a
key schedule made before. A block of bytes stands for the four words that `GETU32` makes of it, and each round does the
same on both sides.
-/
namespace Rtl8188fu
open ByteWord

/-- What `rijndaelKeySetupEnc` writes behind the four words `rk`, in `n` turns from turn `i` on -/
def rijndaelKeyWords : ℕ → ℕ → Words → List UInt32
  | 0, _, _ => []
  | n + 1, i, rk =>
    let next := rijndaelNextKey rk i
    next.w0 :: next.w1 :: next.w2 :: next.w3 :: rijndaelKeyWords n (i + 1) next

/-- `rijndaelKeySetupEnc`, the 44 words of `rk` -/
def rijndaelKeySetupEnc (cipherKey : List UInt8) : List UInt32 :=
  let rk := Words.get cipherKey
  rk.w0 :: rk.w1 :: rk.w2 :: rk.w3 :: rijndaelKeyWords 10 0 rk

/-- `rk[4 * i]` to `rk[4 * i + 3]` -/
def roundKey (rk : List UInt32) (i : ℕ) : Words :=
  ⟨rk.getD (4 * i) 0,rk.getD (4 * i + 1) 0,rk.getD (4 * i + 2) 0,rk.getD (4 * i + 3) 0⟩

/-- The loop of `rijndaelEncrypt`, two rounds in a turn, with `r` turns left: where `rk` points behind it, and `t` -/
def rijndaelLoop : ℕ → List UInt32 → Words → List UInt32 × Words
  | 0, rk, s => (rk,s)
  | r + 1, rk, s =>
    let t := rijndaelRound (roundKey rk 1) s
    let rk := rk.drop 8
    if r = 0 then (rk,t) else rijndaelLoop r rk (rijndaelRound (roundKey rk 0) t)

/-- `rijndaelEncrypt` of a block under a key schedule -/
def rijndaelEncryptWith (rk : List UInt32) (pt : List UInt8) : List UInt8 :=
  let l := rijndaelLoop (10 >>> 1) rk ((Words.get pt).xor (roundKey rk 0))
  (rijndaelLast (roundKey l.1 0) l.2).put

section Words
variable {p q r s a b c d : UInt8} {x : UInt8} {l m : List UInt8}

theorem getU32_eq (l : List UInt8) : GETU32 l = word (byteAt l 0) (byteAt l 1) (byteAt l 2) (byteAt l 3) := by
  rw [GETU32, toUInt32_eq, toUInt32_eq, toUInt32_eq, toUInt32_eq, word_shiftLeft24, word_shiftLeft16,
    word_shiftLeft8, word_xor, word_xor, word_xor]
  simp

theorem putU32_word : PUTU32 (word p q r s) = [p,q,r,s] := by
  rw [PUTU32, word_shiftRight24, word_shiftRight16, word_shiftRight8, toUInt8_word, toUInt8_word, toUInt8_word,
    toUInt8_word]

/-- The product with 2 in the field of the cipher -/
def xtime (b : UInt8) : UInt8 := (if b &&& 0x80 = 0x80 then (0x1b : UInt8) else 0) ^^^ (b &&& 0x7f) <<< 1

/-- An entry of the table is a column of the mixing of an entry of the S-box. -/
theorem te0_eq (x : UInt8) : te0.getD x.toNat 0 = word (xtime (sbox x)) (sbox x) (sbox x)
    (xtime (sbox x) ^^^ sbox x) := by
  have h : ∀ n : Fin 256, te0.getD (UInt8.ofNat n).toNat 0 = word (xtime (sbox (UInt8.ofNat n)))
      (sbox (UInt8.ofNat n))
      (sbox (UInt8.ofNat n)) (xtime (sbox (UInt8.ofNat n)) ^^^ sbox (UInt8.ofNat n)) := by decide +kernel
  have hx := h ⟨x.toNat,x.toNat_lt⟩
  rwa [UInt8.ofNat_toNat] at hx

theorem te0At_get3 (l : List UInt8) : te0At (GETU32 l) 3 = te0.getD (byteAt l 0).toNat 0 := by
  rw [getU32_eq, te0At, show (8 : UInt32) * 3 = 24 from rfl, word_shiftRight24, toUInt8_word]

theorem te0At_get2 (l : List UInt8) : te0At (GETU32 l) 2 = te0.getD (byteAt l 1).toNat 0 := by
  rw [getU32_eq, te0At, show (8 : UInt32) * 2 = 16 from rfl, word_shiftRight16, toUInt8_word]

theorem te0At_get1 (l : List UInt8) : te0At (GETU32 l) 1 = te0.getD (byteAt l 2).toNat 0 := by
  rw [getU32_eq, te0At, show (8 : UInt32) * 1 = 8 from rfl, word_shiftRight8, toUInt8_word]

theorem te0At_get0 (l : List UInt8) : te0At (GETU32 l) 0 = te0.getD (byteAt l 3).toNat 0 := by
  rw [getU32_eq, te0At, show (8 : UInt32) * 0 = 0 from rfl, UInt32.shiftRight_zero, toUInt8_word]

theorem rotr_word8 : rotr (word p q r s) 8 = word s p q r := by
  rw [rotr, show (32 : UInt32) - 8 = 24 from rfl, word_shiftRight8, word_shiftLeft24, word_or]
  simp

theorem rotr_word16 : rotr (word p q r s) 16 = word r s p q := by
  rw [rotr, show (32 : UInt32) - 16 = 16 from rfl, word_shiftRight16, word_shiftLeft16, word_or]
  simp

theorem rotr_word24 : rotr (word p q r s) 24 = word q r s p := by
  rw [rotr, show (32 : UInt32) - 24 = 8 from rfl, word_shiftRight24, word_shiftLeft8, word_or]
  simp

theorem mixColumn_eq (l : List UInt8) : mixColumn l =
    [xtime (byteAt l 0) ^^^ (byteAt l 1 ^^^ xtime (byteAt l 1)) ^^^ (byteAt l 2 ^^^ byteAt l 3),
      xtime (byteAt l 1) ^^^ (byteAt l 2 ^^^ xtime (byteAt l 2)) ^^^ (byteAt l 3 ^^^ byteAt l 0),
      xtime (byteAt l 2) ^^^ (byteAt l 3 ^^^ xtime (byteAt l 3)) ^^^ (byteAt l 0 ^^^ byteAt l 1),
      xtime (byteAt l 3) ^^^ (byteAt l 0 ^^^ xtime (byteAt l 0)) ^^^ (byteAt l 1 ^^^ byteAt l 2)] := rfl

/-- A column of a full round: the mixing of four entries of the S-box -/
theorem round_column (l : List UInt8) (ha : byteAt l 0 = sbox a) (hb : byteAt l 1 = sbox b) (hc : byteAt l 2 = sbox c)
    (hd : byteAt l 3 = sbox d) :
    te0.getD a.toNat 0 ^^^ rotr (te0.getD b.toNat 0) 8 ^^^ rotr (te0.getD c.toNat 0) 16 ^^^ rotr
      (te0.getD d.toNat 0) 24 = GETU32 (mixColumn l) := by
  have hput : ∀ p q r s : UInt8, GETU32 [p,q,r,s] = word p q r s := fun p q r s => getU32_eq [p,q,r,s]
  rw [te0_eq, te0_eq, te0_eq, te0_eq, rotr_word8, rotr_word16, rotr_word24, word_xor, word_xor, word_xor,
    mixColumn_eq, hput, ha, hb, hc, hd]
  congr 1 <;> ac_rfl

end Words

section Rounds
variable {c key rk data : List UInt8} {i n : ℕ}

theorem get_xor128 (a b : List UInt8) : Words.get (xor128 a b) = (Words.get a).xor (Words.get b) := by
  simp only [Words.get, Words.xor, getU32_eq, byteAt_drop, word_xor]
  rfl

theorem byteAt_byteSub (h : i < c.length) : byteAt (byteSub c) i = sbox (byteAt c i) := by
  rw [byteSub, byteAt, byteAt, List.getD_eq_getElem?_getD, List.getD_eq_getElem?_getD, List.getElem?_map,
    List.getElem?_eq_getElem h]
  rfl

/-- The four columns of a full round in front of the round key -/
theorem get_columns {b : List UInt8} (hsub : ∀ k < 16, byteAt b k = sbox (byteAt c k)) (rk : Words) :
    rijndaelRound rk (Words.get c) = Words.xor
      ⟨GETU32 (mixColumn (shiftRow b)),GETU32 (mixColumn ((shiftRow b).drop 4)),
      GETU32 (mixColumn ((shiftRow b).drop 8)),GETU32 (mixColumn ((shiftRow b).drop 12))⟩ rk := by
  have hdrop : ∀ k i, k + i < 16 → byteAt b (k + i) = sbox (byteAt (c.drop k) i) := fun k i h => by
    rw [byteAt_drop]
    exact hsub _ h
  rw [rijndaelRound]
  simp only [Words.get, te0At_get3, te0At_get2, te0At_get1, te0At_get0]
  rw [round_column (shiftRow b) (hsub 0 (by decide)) (hdrop 4 1 (by decide)) (hdrop 8 2 (by decide))
    (hdrop 12 3 (by decide)),
    round_column ((shiftRow b).drop 4) (hdrop 4 0 (by decide)) (hdrop 8 1 (by decide)) (hdrop 12 2 (by decide))
      (hsub 3 (by decide)),
    round_column ((shiftRow b).drop 8) (hdrop 8 0 (by decide)) (hdrop 12 1 (by decide)) (hsub 2 (by decide))
      (hdrop 4 3 (by decide)),
    round_column ((shiftRow b).drop 12) (hdrop 12 0 (by decide)) (hsub 1 (by decide)) (hdrop 4 2 (by decide))
      (hdrop 8 3 (by decide))]

theorem get_append {k l m n : List UInt8} (hk : k.length = 4) (hl : l.length = 4) (hm : m.length = 4) :
    Words.get (k ++ l ++ m ++ n) = ⟨GETU32 k,GETU32 l,GETU32 m,GETU32 n⟩ := by
  obtain ⟨_,_,_,_,rfl⟩ := List.length_eq_four.mp hk
  obtain ⟨_,_,_,_,rfl⟩ := List.length_eq_four.mp hl
  obtain ⟨_,_,_,_,rfl⟩ := List.length_eq_four.mp hm
  rfl

theorem get_round (hc : c.length = 16) (rk : List UInt8) :
    Words.get (xor128 (mixColumn (shiftRow (byteSub c)) ++ mixColumn ((shiftRow (byteSub c)).drop 4) ++
      mixColumn ((shiftRow (byteSub c)).drop 8) ++ mixColumn ((shiftRow (byteSub c)).drop 12)) rk) =
      rijndaelRound (Words.get rk) (Words.get c) := by
  have hlen : ∀ l, (mixColumn l).length = 4 := fun _ => rfl
  rw [get_xor128, get_append (hlen _) (hlen _) (hlen _), get_columns fun k hk => byteAt_byteSub (hc ▸ hk)]

/-- The entries of the S-box in the table, each at its place in a word -/
theorem te0_masks (x : UInt8) : te0.getD x.toNat 0 <<< 8 &&& (0xff000000 : UInt32) = word (sbox x) 0 0 0 ∧
    te0.getD x.toNat 0 &&& (0x00ff0000 : UInt32) = word 0 (sbox x) 0 0 ∧
      te0.getD x.toNat 0 &&& (0x0000ff00 : UInt32) = word 0 0 (sbox x) 0 ∧
      te0.getD x.toNat 0 >>> 8 &&& (0x000000ff : UInt32) = word 0 0 0 (sbox x) := by
  have h : ∀ n : Fin 256, te0.getD (UInt8.ofNat n).toNat 0 <<< 8 &&& (0xff000000 : UInt32) =
      word (sbox (UInt8.ofNat n)) 0 0 0 ∧
      te0.getD (UInt8.ofNat n).toNat 0 &&& (0x00ff0000 : UInt32) = word 0 (sbox (UInt8.ofNat n)) 0 0 ∧
      te0.getD (UInt8.ofNat n).toNat 0 &&& (0x0000ff00 : UInt32) = word 0 0 (sbox (UInt8.ofNat n)) 0 ∧
      te0.getD (UInt8.ofNat n).toNat 0 >>> 8 &&& (0x000000ff : UInt32) = word 0 0 0 (sbox (UInt8.ofNat n)) := by
        decide +kernel
  have hx := h ⟨x.toNat,x.toNat_lt⟩
  rwa [UInt8.ofNat_toNat] at hx

/-- Four entries of the S-box in a word, as the key schedule and the last round make it -/
theorem sub_word (a b c d : UInt8) :
    (te0.getD a.toNat 0 <<< 8 &&& (0xff000000 : UInt32)) ^^^ (te0.getD b.toNat 0 &&& (0x00ff0000 : UInt32)) ^^^
    (te0.getD c.toNat 0 &&& (0x0000ff00 : UInt32)) ^^^ (te0.getD d.toNat 0 >>> 8 &&& (0x000000ff : UInt32)) =
      word (sbox a) (sbox b) (sbox c) (sbox d) := by
  rw [(te0_masks a).1, (te0_masks b).2.1, (te0_masks c).2.2.1, (te0_masks d).2.2.2, word_xor, word_xor, word_xor]
  simp

theorem getU32_xor32 (a b : List UInt8) : GETU32 (xor32 a b) = GETU32 a ^^^ GETU32 b := by
  rw [getU32_eq, getU32_eq a, getU32_eq b, word_xor]
  rfl

theorem getU32_rcon (l : List UInt8) (h : i < 10) :
    GETU32 ((byteAt l 0 ^^^ byteAt rconTable i) :: l.drop 1) = GETU32 l ^^^ rcons.getD i 0 <<< 24 := by
  have hrcon : ∀ i < 10, rcons.getD i 0 <<< 24 = word (byteAt rconTable i) 0 0 0 := by decide
  have htail : ∀ x k, byteAt (x :: l.drop 1) (k + 1) = byteAt l (k + 1) := by
    intro x k
    rw [Nat.add_comm k 1, ← byteAt_drop l 1 k, Nat.add_comm 1 k]
    rfl
  rw [hrcon i h, getU32_eq, getU32_eq l, word_xor, htail _ 0, htail _ 1, htail _ 2, UInt8.xor_zero, UInt8.xor_zero,
    UInt8.xor_zero]
  rfl

/-- The round key of the bytes is the next one of the schedule. -/
theorem get_nextKey (h : i < 10) : Words.get (nextKey key i) = rijndaelNextKey (Words.get key) i := by
  have hlen : ∀ a b, (xor32 a b).length = 4 := fun _ _ => rfl
  have hsub : GETU32 [sbox (byteAt key 13),sbox (byteAt key 14),sbox (byteAt key 15),sbox (byteAt key 12)] =
      word (sbox (byteAt key 13)) (sbox (byteAt key 14)) (sbox (byteAt key 15)) (sbox (byteAt key 12)) := getU32_eq _
  rw [nextKey, get_append rfl (hlen _ _) (hlen _ _)]
  simp only [getU32_xor32, getU32_rcon _ h, hsub, ← sub_word]
  rw [rijndaelNextKey]
  simp only [Words.get, te0At_get3, te0At_get2, te0At_get1, te0At_get0, byteAt_drop, Nat.reduceAdd, UInt32.xor_assoc]

theorem xor128_length (a b : List UInt8) : (xor128 a b).length = 16 := rfl

theorem get_last (hc : c.length = 16) (rk : List UInt8) :
    Words.get (xor128 (shiftRow (byteSub c)) rk) = rijndaelLast (Words.get rk) (Words.get c) := by
  have hsub : ∀ k < 16, byteAt (byteSub c) k = sbox (byteAt c k) := fun k hk => byteAt_byteSub (hc ▸ hk)
  have hrow : ∀ b : List UInt8, Words.get (shiftRow b) =
      ⟨word (byteAt b 0) (byteAt b 5) (byteAt b 10) (byteAt b 15),word (byteAt b 4) (byteAt b 9) (byteAt b 14)
        (byteAt b 3),
        word (byteAt b 8) (byteAt b 13) (byteAt b 2) (byteAt b 7),word (byteAt b 12) (byteAt b 1) (byteAt b 6)
          (byteAt b 11)⟩ := by
    intro b
    simp only [Words.get, getU32_eq]
    rfl
  rw [get_xor128, hrow, rijndaelLast]
  simp only [Words.get, te0At_get3, te0At_get2, te0At_get1, te0At_get0, byteAt_drop, Nat.reduceAdd, sub_word]
  rw [hsub 0 (by decide), hsub 1 (by decide), hsub 2 (by decide), hsub 3 (by decide), hsub 4 (by decide),
    hsub 5 (by decide),
    hsub 6 (by decide), hsub 7 (by decide), hsub 8 (by decide), hsub 9 (by decide), hsub 10 (by decide),
    hsub 11 (by decide), hsub 12 (by decide), hsub 13 (by decide), hsub 14 (by decide), hsub 15 (by decide)]

/-- The rounds from the key of round `i` on -/
theorem get_rounds (hc : c.length = 16) (h : i + n < 10) :
    Words.get (xor128 (shiftRow (byteSub (aesRounds n (i + 1) (nextKey key i) c).2))
      (aesRounds n (i + 1) (nextKey key i) c).1) =
      rijndaelRounds n i (Words.get key) (Words.get c) := by
  induction n generalizing i key c with
  | zero =>
    rw [aesRounds, get_last hc, rijndaelRounds]
    dsimp only
    rw [get_nextKey (show i < 10 from h)]
  | succ n ih =>
    rw [aesRounds, ih (xor128_length _ _) (by omega), get_round hc, get_nextKey (by omega), rijndaelRounds]

theorem put_get (h : c.length = 16) : (Words.get c).put = c := by
  have hput : ∀ l : List UInt8, PUTU32 (GETU32 l) = [byteAt l 0,byteAt l 1,byteAt l 2,byteAt l 3] := fun l => by
    rw [getU32_eq, putU32_word]
  rw [Words.put, Words.get, hput, hput, hput, hput]
  simp only [byteAt_drop]
  have hall : (List.range 16).map (byteAt c) = c := by
    apply List.ext_getElem
    · rw [List.length_map, List.length_range, h]
    · intro k hk hkc
      rw [List.getElem_map, List.getElem_range, byteAt, List.getD_eq_getElem _ _ hkc]
  exact hall

theorem aes128k128d_eq (key data : List UInt8) : aes128k128d key data = rijndaelEncrypt key data := by
  have hrounds := @get_rounds (xor128 key data) key 0 9 (xor128_length _ _) (by decide)
  have hxor : (Words.get key).xor (Words.get data) = (Words.get data).xor (Words.get key) := by
    simp only [Words.xor, UInt32.xor_comm]
  rw [get_xor128 key data, hxor] at hrounds
  rw [rijndaelEncrypt, ← hrounds, put_get (xor128_length _ _), aes128k128d]

end Rounds

section Schedule
variable {r n i : ℕ} {w s : Words}

/-- The schedule from the words of `w` on -/
def scheduleFrom (n i : ℕ) (w : Words) : List UInt32 := w.w0 :: w.w1 :: w.w2 :: w.w3 :: rijndaelKeyWords n i w

/-- The loop over a schedule that was made before is the one that makes it. -/
theorem rijndaelLoop_eq : rijndaelLast (roundKey (rijndaelLoop (r + 1) (scheduleFrom (2 * r + 2) i w) s).1 0)
    (rijndaelLoop (r + 1) (scheduleFrom (2 * r + 2) i w) s).2 = rijndaelRounds (2 * r + 1) i w s := by
  induction r generalizing i w s with
  | zero => rfl
  | succ r ih =>
    rw [rijndaelLoop, if_neg (Nat.succ_ne_zero r)]
    exact ih

theorem rijndaelEncryptWith_eq (key data : List UInt8) :
    rijndaelEncryptWith (rijndaelKeySetupEnc key) data = rijndaelEncrypt key data := by
  have hloop := rijndaelLoop_eq (r := 4) (i := 0) (w := Words.get key) (s := (Words.get data).xor (Words.get key))
  rw [rijndaelEncrypt, ← hloop]
  rfl

end Schedule

/-- The cipher of CCMP and the cipher of BIP are the same function of the key and the block. -/
theorem aes_ciphers_agree (key data : List UInt8) :
    aes128k128d key data = rijndaelEncryptWith (rijndaelKeySetupEnc key) data :=
  (aes128k128d_eq key data).trans (rijndaelEncryptWith_eq key data).symm

end Rtl8188fu
