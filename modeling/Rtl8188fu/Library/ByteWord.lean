import Mathlib

/-! # Four bytes in a word

A 32-bit word as its four bytes, the highest first. Whatever moves, masks or adds whole bytes is a statement about
the four.
-/
namespace ByteWord

def word (p q r s : UInt8) : UInt32 := ⟨p.toBitVec ++ q.toBitVec ++ r.toBitVec ++ s.toBitVec⟩

section
variable {p q r s p' q' r' s' : UInt8}

theorem word_xor : word p q r s ^^^ word p' q' r' s' = word (p ^^^ p') (q ^^^ q') (r ^^^ r') (s ^^^ s') := by
  apply UInt32.toBitVec_inj.mp
  rw [UInt32.toBitVec_xor, word, word, BitVec.xor_append, BitVec.xor_append, BitVec.xor_append]
  rfl

theorem word_or : word p q r s ||| word p' q' r' s' = word (p ||| p') (q ||| q') (r ||| r') (s ||| s') := by
  apply UInt32.toBitVec_inj.mp
  rw [UInt32.toBitVec_or, word, word, BitVec.or_append, BitVec.or_append, BitVec.or_append]
  rfl

theorem toNat_word : (word p q r s).toNat = ((p.toNat * 256 + q.toNat) * 256 + r.toNat) * 256 + s.toNat := by
  have happend : ∀ {n : ℕ} (x : BitVec n) (b : UInt8), (x ++ b.toBitVec).toNat = x.toNat * 256 + b.toNat := by
    intro n x b
    rw [BitVec.toNat_append, ← Nat.shiftLeft_add_eq_or_of_lt b.toBitVec.isLt, Nat.shiftLeft_eq]
    rfl
  rw [word, UInt32.toNat, happend, happend, happend]
  rfl

theorem toNat_shiftRight (w : UInt32) {k : ℕ} (hk : k < 32) : (w >>> UInt32.ofNat k).toNat = w.toNat / 2 ^ k := by
  rw [UInt32.toNat_shiftRight, UInt32.toNat_ofNat', Nat.shiftRight_eq_div_pow,
    Nat.mod_eq_of_lt (show k < 2 ^ 32 by omega), Nat.mod_eq_of_lt hk]

theorem toNat_shiftLeft (w : UInt32) {k : ℕ} (hk : k < 32) :
    (w <<< UInt32.ofNat k).toNat = w.toNat * 2 ^ k % 2 ^ 32 := by
  rw [UInt32.toNat_shiftLeft, UInt32.toNat_ofNat', Nat.shiftLeft_eq, Nat.mod_eq_of_lt (show k < 2 ^ 32 by omega),
    Nat.mod_eq_of_lt hk]

theorem word_shiftRight8 : word p q r s >>> 8 = word 0 p q r := by
  apply UInt32.toNat_inj.mp
  have hs := s.toNat_lt
  rw [show (8 : UInt32) = UInt32.ofNat 8 from rfl, toNat_shiftRight _ (by decide), toNat_word, toNat_word]
  rw [show UInt8.toNat 0 = 0 from rfl]
  omega

theorem word_shiftRight16 : word p q r s >>> 16 = word 0 0 p q := by
  apply UInt32.toNat_inj.mp
  have hr := r.toNat_lt
  have hs := s.toNat_lt
  rw [show (16 : UInt32) = UInt32.ofNat 16 from rfl, toNat_shiftRight _ (by decide), toNat_word, toNat_word]
  rw [show UInt8.toNat 0 = 0 from rfl]
  omega

theorem word_shiftRight24 : word p q r s >>> 24 = word 0 0 0 p := by
  apply UInt32.toNat_inj.mp
  have hq := q.toNat_lt
  have hr := r.toNat_lt
  have hs := s.toNat_lt
  rw [show (24 : UInt32) = UInt32.ofNat 24 from rfl, toNat_shiftRight _ (by decide), toNat_word, toNat_word]
  rw [show UInt8.toNat 0 = 0 from rfl]
  omega

theorem word_shiftLeft8 : word p q r s <<< 8 = word q r s 0 := by
  apply UInt32.toNat_inj.mp
  have hq := q.toNat_lt
  have hr := r.toNat_lt
  have hs := s.toNat_lt
  rw [show (8 : UInt32) = UInt32.ofNat 8 from rfl, toNat_shiftLeft _ (by decide), toNat_word, toNat_word]
  rw [show UInt8.toNat 0 = 0 from rfl]
  omega

theorem word_shiftLeft16 : word p q r s <<< 16 = word r s 0 0 := by
  apply UInt32.toNat_inj.mp
  have hr := r.toNat_lt
  have hs := s.toNat_lt
  rw [show (16 : UInt32) = UInt32.ofNat 16 from rfl, toNat_shiftLeft _ (by decide), toNat_word, toNat_word]
  rw [show UInt8.toNat 0 = 0 from rfl]
  omega

theorem word_shiftLeft24 : word p q r s <<< 24 = word s 0 0 0 := by
  apply UInt32.toNat_inj.mp
  have hs := s.toNat_lt
  rw [show (24 : UInt32) = UInt32.ofNat 24 from rfl, toNat_shiftLeft _ (by decide), toNat_word, toNat_word]
  rw [show UInt8.toNat 0 = 0 from rfl]
  omega

theorem toUInt8_word : (word p q r s).toUInt8 = s := by
  apply UInt8.toNat_inj.mp
  have hs := s.toNat_lt
  rw [UInt32.toNat_toUInt8, toNat_word]
  omega

theorem toUInt32_eq : p.toUInt32 = word 0 0 0 p := by
  apply UInt32.toNat_inj.mp
  rw [UInt8.toNat_toUInt32, toNat_word]
  rw [show UInt8.toNat 0 = 0 from rfl]
  omega

end

end ByteWord
