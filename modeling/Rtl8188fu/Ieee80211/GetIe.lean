import Rtl8188fu.Include.Wifi
import Rtl8188fu.Library.Tlv

/-! # Finding an information element -/
namespace Rtl8188fu

/-- The loop of `rtw_get_ie` from offset `i` on: where the element is, and its length -/
def rtwGetIeLoop (pbuf : List UInt8) (index : UInt8) (limit : ℕ) : ℕ → ℕ → Option (ℕ × ℕ)
  | 0, _ => none
  | fuel + 1, i =>
    if byteAt pbuf i = index then some (i, (byteAt pbuf (i + 1)).toNat)
    else
      let i := i + ((byteAt pbuf (i + 1)).toNat + 2)
      if limit ≤ i then none else rtwGetIeLoop pbuf index limit fuel i

/-- `rtw_get_ie`: every turn moves on by two bytes at least, so `limit` turns are enough. -/
def rtwGetIe (pbuf : List UInt8) (index : UInt8) (limit : ℕ) : Option (ℕ × ℕ) :=
  if limit < 1 then none else rtwGetIeLoop pbuf index limit limit 0

theorem byteAt_tlv (pre : List UInt8) (t : Tlv) (rest : List UInt8) :
    byteAt (pre ++ (t.bytes ++ rest)) pre.length = t.id ∧
      (byteAt (pre ++ (t.bytes ++ rest)) (pre.length + 1)).toNat = t.body.length ∧
      (pre ++ (t.bytes ++ rest)).drop (pre.length + 2) = t.body ++ rest := by
  refine ⟨?_,?_,?_⟩
  · simp [byteAt, Tlv.bytes]
  · rw [← t.toNat_length]
    simp [byteAt, Tlv.bytes]
  · rw [← List.drop_drop, List.drop_left]
    rfl

/-- What `rtw_get_ie` is to find: the first element with this number -/
inductive FirstIe (index : UInt8) (ts : List Tlv) : Option (ℕ × ℕ) → Prop where
  | none (h : ∀ t ∈ ts, t.id ≠ index) : FirstIe index ts none
  | some {pre post : List Tlv} {t : Tlv} (hpre : ∀ u ∈ pre, u.id ≠ index) (ht : t.id = index)
      (hts : ts = pre ++ t :: post) : FirstIe index ts (some ((Tlv.flat pre).length, t.body.length))

theorem rtwGetIeLoop_flat {index : UInt8} {done ts : List Tlv} (rest : List UInt8) {limit fuel : ℕ}
    (hdone : ∀ u ∈ done, u.id ≠ index) (hne : ts ≠ []) (hlimit : limit = (Tlv.flat (done ++ ts)).length)
    (hfuel : (Tlv.flat ts).length ≤ fuel) :
    FirstIe index (done ++ ts)
      (rtwGetIeLoop (Tlv.flat (done ++ ts) ++ rest) index limit fuel (Tlv.flat done).length) := by
  induction ts generalizing done fuel with
  | nil => exact absurd rfl hne
  | cons t ts ih =>
    obtain ⟨hid,hlen,-⟩ := byteAt_tlv (Tlv.flat done) t (Tlv.flat ts ++ rest)
    have hbytes : Tlv.flat (done ++ t :: ts) ++ rest = Tlv.flat done ++ (t.bytes ++ (Tlv.flat ts ++ rest)) := by simp
    rw [Tlv.flat_cons, List.length_append, Tlv.length_bytes] at hfuel
    obtain ⟨fuel,rfl⟩ : ∃ n, fuel = n + 1 := ⟨fuel - 1,by omega⟩
    rw [rtwGetIeLoop, hbytes, hid, hlen]
    split
    · rename_i hid'
      exact .some hdone hid' rfl
    · rename_i hid'
      have hsnoc : ∀ u ∈ done ++ [t], u.id ≠ index := by
        intro u hu
        rcases List.mem_append.mp hu with hu | hu
        · exact hdone u hu
        · rwa [List.mem_singleton.mp hu]
      have hpos : (Tlv.flat done).length + (t.body.length + 2) = (Tlv.flat (done ++ [t])).length := by simp
      dsimp only
      rw [hpos]
      cases ts with
      | nil =>
        rw [if_pos (Nat.le_of_eq hlimit)]
        exact .none hsnoc
      | cons u us =>
        have hcons : done ++ t :: u :: us = done ++ [t] ++ u :: us := by simp
        rw [if_neg (by rw [hlimit, hcons, Tlv.flat_append, Tlv.flat_cons]; simp), ← hbytes, hcons]
        exact ih hsnoc (List.cons_ne_nil _ _) (hcons ▸ hlimit) (by omega)

/-- In a sequence of complete elements `rtw_get_ie` finds the first one with the number. -/
theorem rtwGetIe_flat (index : UInt8) (ts : List Tlv) (rest : List UInt8) :
    FirstIe index ts (rtwGetIe (Tlv.flat ts ++ rest) index (Tlv.flat ts).length) := by
  cases ts with
  | nil => exact .none (fun t ht => by cases ht)
  | cons t ts =>
    rw [rtwGetIe, if_neg (by simp)]
    exact @rtwGetIeLoop_flat index [] (t :: ts) rest _ _ (fun u hu => by cases hu) (List.cons_ne_nil _ _) rfl
      (Nat.le_refl _)

end Rtl8188fu
