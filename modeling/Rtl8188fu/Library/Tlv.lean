import Mathlib

/-! # Lists of records with a kind, a length and a body

A record is a byte for its kind, a byte for the length of its body, and the body. A list of
bytes is read record by record, as far as there are complete ones.
-/

structure Tlv where
  id : UInt8
  body : List UInt8
  short : body.length < 256
  deriving DecidableEq

namespace Tlv

def bytes (t : Tlv) : List UInt8 := t.id :: UInt8.ofNat t.body.length :: t.body

def flat (ts : List Tlv) : List UInt8 := ts.flatMap bytes

/-- The first record and what is behind it -/
def read : List UInt8 → Option (Tlv × List UInt8)
  | id :: len :: rest =>
    if _h : len.toNat ≤ rest.length then
      some (⟨id,rest.take len.toNat,by have := len.toNat_lt; rw [List.length_take]; omega⟩,rest.drop len.toNat)
    else none
  | _ => none

/-- The records of a list of bytes, and what is left when no complete record follows -/
structure Reads (bs : List UInt8) (ts : List Tlv) (rest : List UInt8) : Prop where
  bytes : bs = flat ts ++ rest
  stops : read rest = none

variable {t : Tlv} {ts us : List Tlv} {bs rest : List UInt8}

@[simp] theorem flat_nil : flat [] = [] := rfl

@[simp] theorem flat_cons : flat (t :: ts) = t.bytes ++ flat ts := rfl

@[simp] theorem flat_append : flat (ts ++ us) = flat ts ++ flat us := List.flatMap_append

@[simp] theorem length_bytes (t : Tlv) : t.bytes.length = t.body.length + 2 := rfl

theorem length_le_flat (ts : List Tlv) : ts.length ≤ (flat ts).length := by
  induction ts with
  | nil => exact Nat.le_refl _
  | cons t ts ih =>
    simp only [flat_cons, List.length_cons, List.length_append, length_bytes]
    omega

theorem toNat_length (t : Tlv) : (UInt8.ofNat t.body.length).toNat = t.body.length := by
  rw [UInt8.toNat_ofNat']
  exact Nat.mod_eq_of_lt t.short

@[simp] theorem read_bytes (t : Tlv) (rest : List UInt8) : read (t.bytes ++ rest) = some (t,rest) := by
  have hlen := t.toNat_length
  change read (t.id :: UInt8.ofNat t.body.length :: (t.body ++ rest)) = _
  rw [read, dif_pos (by rw [hlen, List.length_append]; omega)]
  simp only [hlen, List.take_left, List.drop_left]

theorem bytes_of_read (h : read bs = some (t,rest)) : bs = t.bytes ++ rest := by
  match bs with
  | [] => cases h
  | [_] => cases h
  | id :: len :: bs =>
    rw [read] at h
    split at h
    · rename_i hle
      cases h
      rw [bytes, List.length_take, Nat.min_eq_left hle, UInt8.ofNat_toNat]
      simp
    · cases h

theorem read_nil : read [] = none := rfl

theorem Reads.unique {rest' : List UInt8} (h : Reads bs ts rest) (h' : Reads bs us rest') :
    ts = us ∧ rest = rest' := by
  induction ts generalizing us bs with
  | nil =>
    cases us with
    | nil => exact ⟨rfl,by rw [← List.nil_append rest, ← flat_nil, ← h.bytes, h'.bytes]; rfl⟩
    | cons u us =>
      have hr := h.stops
      have hb : rest = flat (u :: us) ++ rest' := h.bytes.symm.trans h'.bytes
      rw [hb, flat_cons, List.append_assoc, read_bytes] at hr
      cases hr
  | cons t ts ih =>
    have hb := h.bytes.symm.trans h'.bytes
    cases us with
    | nil =>
      have hr := h'.stops
      have hb : rest' = flat (t :: ts) ++ rest := h'.bytes.symm.trans h.bytes
      rw [hb, flat_cons, List.append_assoc, read_bytes] at hr
      cases hr
    | cons u us =>
      have hread := congrArg read hb
      rw [flat_cons, flat_cons, List.append_assoc, List.append_assoc, read_bytes, read_bytes] at hread
      obtain ⟨rfl,hrest⟩ := Prod.mk.inj (Option.some.inj hread)
      obtain ⟨hts,hr⟩ := ih ⟨rfl,h.stops⟩ ⟨hrest,h'.stops⟩
      exact ⟨by rw [hts],hr⟩

theorem flat_inj (h : flat ts = flat us) : ts = us :=
  (@Reads.unique ts us (flat ts) [] [] ⟨(List.append_nil _).symm,read_nil⟩
    ⟨h.trans (List.append_nil _).symm,read_nil⟩).1

theorem exists_reads (bs : List UInt8) : ∃ ts rest, Reads bs ts rest := by
  induction h : bs.length using Nat.strong_induction_on generalizing bs with
  | _ n ih =>
    cases hread : read bs with
    | none => exact ⟨[],bs,rfl,hread⟩
    | some r =>
      obtain ⟨t,rest⟩ := r
      have hbs := bytes_of_read hread
      have hlen := congrArg List.length hbs
      rw [List.length_append, length_bytes] at hlen
      obtain ⟨ts,left,hr⟩ := ih rest.length (by omega) rest rfl
      refine ⟨t :: ts,left,?_,hr.stops⟩
      rw [hbs, hr.bytes, flat_cons, List.append_assoc]

/-- All complete records, and what is left -/
def readAll (bs : List UInt8) : List Tlv × List UInt8 :=
  match _h : read bs with
  | none => ([],bs)
  | some (t,rest) => (t :: (readAll rest).1,(readAll rest).2)
termination_by bs.length
decreasing_by
  all_goals
    have := congrArg List.length (bytes_of_read _h)
    rw [List.length_append, length_bytes] at this
    omega

theorem reads_readAll (bs : List UInt8) : Reads bs (readAll bs).1 (readAll bs).2 := by
  induction bs using readAll.induct with
  | case1 bs h =>
    rw [readAll]
    split
    · exact ⟨rfl,h⟩
    · rename_i hs
      rw [h] at hs
      cases hs
  | case2 bs t rest h ih =>
    rw [readAll]
    split
    · rename_i hn
      rw [h] at hn
      cases hn
    · rename_i hs
      rw [h] at hs
      cases hs
      refine ⟨?_,ih.stops⟩
      conv_lhs => rw [bytes_of_read h, ih.bytes]
      rw [flat_cons, List.append_assoc]

end Tlv
