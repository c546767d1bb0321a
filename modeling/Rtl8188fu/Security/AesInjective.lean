import Rtl8188fu.Security.AesAgree

/-! # AES is injective

Under one key two blocks with the same cipher text are the same block: the S-box, the row
shift and the column mixing each have an inverse, and the round key is added to both.
-/
namespace Rtl8188fu
open Bytes

/-- The values of a table as the bits of a number -/
def valueBits (l : List UInt8) : ℕ := l.foldr (fun x bits => bits ||| 2 ^ x.toNat) 0

theorem testBit_valueBits {l : List UInt8} {k : ℕ} (h : (valueBits l).testBit k = true) :
    ∃ x ∈ l, x.toNat = k := by
  induction l with
  | nil => simp [valueBits] at h
  | cons x l ih =>
    rw [valueBits, List.foldr_cons, Nat.testBit_or, Bool.or_eq_true, Nat.testBit_two_pow] at h
    rcases h with h | h
    · obtain ⟨y,hy,hk⟩ := ih h
      exact ⟨y,List.mem_cons_of_mem _ hy,hk⟩
    · exact ⟨x,List.mem_cons_self,of_decide_eq_true h⟩

/-- Each of the 256 values is in the table, so none is there twice. -/
theorem sbox_injective : Function.Injective sbox := by
  have hbits : valueBits sboxTable = 2 ^ 256 - 1 := by decide +kernel
  have hlen : sboxTable.length = 256 := by decide +kernel
  have : Finite UInt8 := Finite.of_injective UInt8.toFin fun _ _ => UInt8.toFin_inj.mp
  apply Finite.injective_iff_surjective.mpr
  intro y
  obtain ⟨x,hx,hxy⟩ := testBit_valueBits (l := sboxTable) (k := y.toNat)
    (by rw [hbits, Nat.testBit_two_pow_sub_one]; exact decide_eq_true y.toNat_lt)
  obtain ⟨n,hn,rfl⟩ := List.getElem_of_mem hx
  refine ⟨UInt8.ofNat n,?_⟩
  rw [sbox, byteAt, UInt8.toNat_ofNat', Nat.mod_eq_of_lt (show n < 256 from hlen ▸ hn), List.getD_eq_getElem _ _ hn]
  exact UInt8.toNat_inj.mp hxy
theorem and_high (a : UInt8) : a &&& 0x80 = 0 ∨ a &&& 0x80 = 0x80 := by
  have h : ∀ n : Fin 256, UInt8.ofNat n &&& 0x80 = 0 ∨ UInt8.ofNat n &&& 0x80 = 0x80 := by decide +kernel
  simpa using h ⟨a.toNat,a.toNat_lt⟩

theorem xor_and (a b m : UInt8) : (a ^^^ b) &&& m = (a &&& m) ^^^ (b &&& m) := by
  apply UInt8.toBitVec_inj.mp
  ext i hi
  simp [Bool.and_xor_distrib_right]

theorem xor_left_comm (a b c : UInt8) : a ^^^ (b ^^^ c) = b ^^^ (a ^^^ c) := by
  rw [← UInt8.xor_assoc, UInt8.xor_comm a b, UInt8.xor_assoc]

theorem xor_cancel_left (a b : UInt8) : a ^^^ (a ^^^ b) = b := by
  rw [← UInt8.xor_assoc, UInt8.xor_self, UInt8.zero_xor]

theorem xtime_xor (a b : UInt8) : xtime (a ^^^ b) = xtime a ^^^ xtime b := by
  have hmask : (a &&& 0x7f ^^^ b &&& 0x7f) <<< 1 = (a &&& 0x7f) <<< 1 ^^^ (b &&& 0x7f) <<< 1 := UInt8.shiftLeft_xor
  rw [xtime, xtime, xtime, xor_and a b 0x80, xor_and a b 0x7f, hmask]
  -- the reduction is added once when one of the two high bits is set, and cancels when both are
  rcases and_high a with ha | ha <;> rcases and_high b with hb | hb <;> rw [ha, hb]
  · simp
  · simp [xor_left_comm]
  · simp [UInt8.xor_comm, xor_left_comm]
  · simp [UInt8.xor_comm, xor_left_comm]

/-- The column that was mixed: first its sum, then the sums of two bytes, then each byte -/
def unmixColumn (m : List UInt8) : List UInt8 :=
  let sum := byteAt m 0 ^^^ byteAt m 1 ^^^ byteAt m 2 ^^^ byteAt m 3
  let even := byteAt m 0 ^^^ byteAt m 2 ^^^ xtime sum
  let odd := byteAt m 1 ^^^ byteAt m 3 ^^^ xtime sum
  let first := byteAt m 0 ^^^ byteAt m 1 ^^^ xtime even
  let b0 := byteAt m 0 ^^^ sum ^^^ xtime first
  let b1 := b0 ^^^ first
  [b0, b1, b0 ^^^ even, b1 ^^^ odd]

theorem unmixColumn_mixColumn (l : List UInt8) :
    unmixColumn (mixColumn l) = [byteAt l 0, byteAt l 1, byteAt l 2, byteAt l 3] := by
  rw [mixColumn_eq]
  generalize byteAt l 0 = a, byteAt l 1 = b, byteAt l 2 = c, byteAt l 3 = d
  simp [unmixColumn, byteAt, xtime_xor, UInt8.xor_assoc, UInt8.xor_comm, xor_left_comm]

theorem mixColumn_injective {l m : List UInt8} (h : mixColumn l = mixColumn m) :
    ∀ i < 4, byteAt l i = byteAt m i := by
  have hbytes := congrArg unmixColumn h
  rw [unmixColumn_mixColumn, unmixColumn_mixColumn] at hbytes
  simp only [List.cons.injEq, and_true] at hbytes
  intro i hi
  interval_cases i <;> simp only [hbytes]

theorem byteAt_xor128 (a b : List UInt8) {j : ℕ} (hj : j < 16) :
    byteAt (xor128 a b) j = byteAt a j ^^^ byteAt b j := by
  simp [byteAt, xor128, List.getD_eq_getElem?_getD, hj]

theorem eq_of_byteAt {l m : List UInt8} {n : ℕ} (hl : l.length = n) (hm : m.length = n)
    (h : ∀ i < n, byteAt l i = byteAt m i) : l = m := by
  apply List.ext_getElem (hl.trans hm.symm)
  intro i hi hi'
  have := h i (hl ▸ hi)
  rwa [byteAt, byteAt, List.getD_eq_getElem _ _ hi, List.getD_eq_getElem _ _ hi'] at this

theorem byteSub_injective : Function.Injective byteSub := List.map_injective_iff.mpr sbox_injective

theorem length_mixColumn (l : List UInt8) : (mixColumn l).length = 4 := rfl

/-- The four columns of a round -/
def mixColumns (b : List UInt8) : List UInt8 :=
  mixColumn b ++ mixColumn (b.drop 4) ++ mixColumn (b.drop 8) ++ mixColumn (b.drop 12)

theorem length_mixColumns (b : List UInt8) : (mixColumns b).length = 16 := by
  simp only [mixColumns, List.length_append, length_mixColumn]

theorem aesRounds_succ (n round : ℕ) (key c : List UInt8) : aesRounds (n + 1) round key c =
    aesRounds n (round + 1) (nextKey key round) (xor128 (mixColumns (shiftRow (byteSub c))) key) := rfl

theorem length_shiftRow (b : List UInt8) : (shiftRow b).length = 16 := rfl

theorem xor128_comm (a b : List UInt8) : xor128 a b = xor128 b a :=
  List.map_congr_left fun _ _ => UInt8.xor_comm ..

section Block
variable {c d : List UInt8} (hc : c.length = 16) (hd : d.length = 16)
include hc hd

theorem xor128_injective {k : List UInt8} (h : xor128 c k = xor128 d k) : c = d := by
  apply eq_of_byteAt hc hd
  intro i hi
  have hbyte := congrArg (byteAt · i) h
  simp only [byteAt_xor128 _ _ hi] at hbyte
  rw [← xor_cancel_left (byteAt k i) (byteAt c i), UInt8.xor_comm _ (byteAt c i), hbyte,
    UInt8.xor_comm (byteAt d i), xor_cancel_left]

theorem shiftRow_injective (h : shiftRow c = shiftRow d) : c = d := by
  apply eq_of_byteAt hc hd
  simp only [shiftRow, List.map_cons, List.map_nil, List.cons.injEq, and_true] at h
  intro i hi
  interval_cases i <;> simp only [h]

theorem mixColumns_injective (h : mixColumns c = mixColumns d) : c = d := by
  rw [mixColumns, mixColumns] at h
  obtain ⟨habc,h3⟩ := List.append_inj h (by simp only [List.length_append, length_mixColumn])
  obtain ⟨hab,h2⟩ := List.append_inj habc (by simp only [List.length_append, length_mixColumn])
  obtain ⟨h0,h1⟩ := List.append_inj hab (by simp only [length_mixColumn])
  apply eq_of_byteAt hc hd
  intro i hi
  have hcol : ∀ k, mixColumn (c.drop k) = mixColumn (d.drop k) → k ≤ i → i < k + 4 →
      byteAt c i = byteAt d i := by
    intro k hk hle hlt
    have := mixColumn_injective hk (i - k) (by omega)
    rwa [byteAt_drop, byteAt_drop, Nat.add_sub_cancel' hle] at this
  rcases (by omega : i < 4 ∨ 4 ≤ i ∧ i < 8 ∨ 8 ≤ i ∧ i < 12 ∨ 12 ≤ i) with hi | hi | hi | hi
  · exact hcol 0 h0 (by omega) (by omega)
  · exact hcol 4 h1 (by omega) (by omega)
  · exact hcol 8 h2 (by omega) (by omega)
  · exact hcol 12 h3 (by omega) (by omega)

theorem subShift_injective (h : shiftRow (byteSub c) = shiftRow (byteSub d)) : c = d := by
  apply byteSub_injective
  exact shiftRow_injective (by rw [byteSub, List.length_map, hc]) (by rw [byteSub, List.length_map, hd]) h

/-- Induction on the rounds: the round keys do not depend on the block. -/
theorem aesRounds_injective {n round : ℕ} {key k : List UInt8}
    (h : xor128 (shiftRow (byteSub (aesRounds n round key c).2)) k =
      xor128 (shiftRow (byteSub (aesRounds n round key d).2)) k) : c = d := by
  induction n generalizing round key c d with
  | zero => exact subShift_injective hc hd (xor128_injective (length_shiftRow _) (length_shiftRow _) h)
  | succ n ih =>
    rw [aesRounds_succ, aesRounds_succ] at h
    have hround := ih (xor128_length _ _) (xor128_length _ _) h
    have hmix := xor128_injective (length_mixColumns _) (length_mixColumns _) hround
    exact subShift_injective hc hd (mixColumns_injective (length_shiftRow _) (length_shiftRow _) hmix)

end Block

theorem aesRounds_key (n round : ℕ) (key c d : List UInt8) :
    (aesRounds n round key c).1 = (aesRounds n round key d).1 := by
  induction n generalizing round key c d with
  | zero => rfl
  | succ n ih => exact ih _ _ _ _

theorem aes128k128d_injective {key p q : List UInt8} (hp : p.length = 16) (hq : q.length = 16)
    (h : aes128k128d key p = aes128k128d key q) : p = q := by
  have hcipher : ∀ n k c d, c.length = 16 → d.length = 16 →
      xor128 (shiftRow (byteSub (aesRounds n 1 k c).2)) (aesRounds n 1 k c).1 =
        xor128 (shiftRow (byteSub (aesRounds n 1 k d).2)) (aesRounds n 1 k d).1 → c = d := by
    intro n k c d hc hd hcd
    rw [aesRounds_key n 1 k d c] at hcd
    exact aesRounds_injective hc hd hcd
  have hkey := hcipher 9 (nextKey key 0) _ _ (xor128_length _ _) (xor128_length _ _) h
  rw [xor128_comm, xor128_comm key q] at hkey
  exact xor128_injective hp hq hkey

end Rtl8188fu
