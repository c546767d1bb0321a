import Mathlib

/-! # Reading records one behind the other

A format says how one record is written and how the first record of a list is read. It cuts every list into
records and what no record begins with, in one way only.
-/

structure RecordFormat (β ρ : Type*) where
  bytes : ρ → List β
  read : List β → Option (ρ × List β)
  read_bytes : ∀ r rest, read (bytes r ++ rest) = some (r,rest)
  bytes_of_read : ∀ {bs r rest}, read bs = some (r,rest) → bs = bytes r ++ rest
  pos : ∀ r, 0 < (bytes r).length

namespace RecordFormat
variable {β ρ : Type*} (f : RecordFormat β ρ)

def flat (rs : List ρ) : List β := rs.flatMap f.bytes

structure Reads (bs : List β) (rs : List ρ) (rest : List β) : Prop where
  bytes : bs = f.flat rs ++ rest
  stops : f.read rest = none

variable {r : ρ} {rs qs : List ρ} {bs rest rest' : List β}

@[simp] theorem flat_nil : f.flat [] = [] := rfl

@[simp] theorem flat_cons : f.flat (r :: rs) = f.bytes r ++ f.flat rs := rfl

@[simp] theorem flat_append : f.flat (rs ++ qs) = f.flat rs ++ f.flat qs := List.flatMap_append

theorem length_le_flat (rs : List ρ) : rs.length ≤ (f.flat rs).length := by
  induction rs with
  | nil => exact Nat.le_refl _
  | cons r rs ih =>
    have hpos := f.pos r
    rw [flat_cons, List.length_cons, List.length_append]
    omega

/-- Where something else is read, nothing can be left over. -/
theorem not_stops (h : f.read rest = none) (hrest : rest = f.flat (r :: rs) ++ rest') : False := by
  rw [hrest, flat_cons, List.append_assoc, f.read_bytes] at h
  cases h

theorem Reads.unique {f : RecordFormat β ρ} (h : f.Reads bs rs rest) (h' : f.Reads bs qs rest') :
    rs = qs ∧ rest = rest' := by
  induction rs generalizing qs bs with
  | nil =>
    cases qs with
    | nil => exact ⟨rfl,h.bytes.symm.trans h'.bytes⟩
    | cons q qs => exact (f.not_stops h.stops (h.bytes.symm.trans h'.bytes)).elim
  | cons r rs ih =>
    have hb := h.bytes.symm.trans h'.bytes
    cases qs with
    | nil => exact (f.not_stops h'.stops hb.symm).elim
    | cons q qs =>
      have hread := congrArg f.read hb
      rw [flat_cons, flat_cons, List.append_assoc, List.append_assoc, f.read_bytes, f.read_bytes] at hread
      obtain ⟨rfl,hrest⟩ := Prod.mk.inj (Option.some.inj hread)
      obtain ⟨rfl,hr⟩ := ih ⟨rfl,h.stops⟩ ⟨hrest,h'.stops⟩
      exact ⟨rfl,hr⟩

theorem exists_reads (bs : List β) : ∃ rs rest, f.Reads bs rs rest := by
  induction h : bs.length using Nat.strong_induction_on generalizing bs with
  | _ n ih =>
    cases hread : f.read bs with
    | none => exact ⟨[],bs,rfl,hread⟩
    | some p =>
      obtain ⟨r,rest⟩ := p
      have hbs := f.bytes_of_read hread
      have hpos := f.pos r
      have hlen := congrArg List.length hbs
      rw [List.length_append] at hlen
      obtain ⟨rs,left,hr⟩ := ih rest.length (by omega) rest rfl
      refine ⟨r :: rs,left,?_,hr.stops⟩
      rw [flat_cons, List.append_assoc, ← hr.bytes]
      exact hbs

end RecordFormat
