import Rtl8188fu.Library.Bytes

/-! # Optional fields at their natural alignment

A record is a sequence of slots. A bit for each says whether its field is there, and a field begins at the next offset
that its alignment divides. What is written in this way is read back, whatever stands in front of the record and
behind it.
-/
namespace AlignedFields
open Bytes

structure Slot where
  bit : ℕ
  align : ℕ
  size : ℕ

def alignUp (align n : ℕ) : ℕ := (n + align - 1) / align * align

variable {α : Type*} {pad : α} {values : ℕ → Option (List α)} {slots : List Slot} {pre rest bytes : List α}
  {off align n b : ℕ}

/-- The fields that have a value, from an offset on -/
def encode (pad : α) (values : ℕ → Option (List α)) : List Slot → ℕ → List α
  | [], _ => []
  | s :: slots, off =>
    ((values s.bit).elim [] fun v => List.replicate (alignUp s.align off - off) pad ++ v) ++
      encode pad values slots ((values s.bit).elim off fun v => alignUp s.align off + v.length)

/-- The fields that are there, each with its bit; `none` when one of them runs over the end -/
def decode (bytes : List α) (present : ℕ → Bool) : List Slot → ℕ → Option (List (ℕ × List α))
  | [], _ => some []
  | s :: slots, off =>
    if present s.bit = true then
      if alignUp s.align off + s.size ≤ bytes.length then
        (decode bytes present slots (alignUp s.align off + s.size)).map
          ((s.bit,slice bytes (alignUp s.align off) s.size) :: ·)
      else none
    else decode bytes present slots off

def fields (values : ℕ → Option (List α)) (slots : List Slot) : List (ℕ × List α) :=
  slots.filterMap fun s => (values s.bit).map (s.bit,·)

theorem le_alignUp (h : 0 < align) : n ≤ alignUp align n := by
  rw [alignUp]
  have hdiv := Nat.div_add_mod (n + align - 1) align
  have hmod := Nat.mod_lt (n + align - 1) h
  rw [Nat.mul_comm] at hdiv
  omega

theorem decode_congr {present present' : ℕ → Bool} (h : ∀ s ∈ slots, present s.bit = present' s.bit) :
    decode bytes present slots off = decode bytes present' slots off := by
  induction slots generalizing off with
  | nil => rfl
  | cons s slots ih =>
    have hrest := fun off => @ih off fun t ht => h t (List.mem_cons_of_mem _ ht)
    rw [decode, decode, h s List.mem_cons_self, hrest, hrest]

theorem decode_encode (halign : ∀ s ∈ slots, 0 < s.align)
    (hsize : ∀ s ∈ slots, ∀ v, values s.bit = some v → v.length = s.size) :
    decode (pre ++ (encode pad values slots pre.length ++ rest)) (fun b => (values b).isSome) slots pre.length =
      some (fields values slots) := by
  induction slots generalizing pre with
  | nil => rfl
  | cons s slots ih =>
    have halign' := fun t ht => halign t (List.mem_cons_of_mem _ ht)
    have hsize' := fun t ht => hsize t (List.mem_cons_of_mem _ ht)
    cases hv : values s.bit with
    | none =>
      rw [encode, decode, fields, List.filterMap_cons, hv]
      exact ih halign' hsize'
    | some v =>
      have hlen := hsize s List.mem_cons_self v hv
      have hle := le_alignUp (n := pre.length) (halign s List.mem_cons_self)
      have hfront : (pre ++ List.replicate (alignUp s.align pre.length - pre.length) pad).length =
          alignUp s.align pre.length := by
        rw [List.length_append, List.length_replicate]
        omega
      have hslice : slice ((pre ++ List.replicate (alignUp s.align pre.length - pre.length) pad) ++
          (v ++ (encode pad values slots (alignUp s.align pre.length + v.length) ++ rest))) (alignUp s.align pre.length)
          v.length = v := by
        rw [← List.append_assoc]
        exact slice_middle hfront rfl
      have hnext := @ih (pre ++ List.replicate (alignUp s.align pre.length - pre.length) pad ++ v) halign' hsize'
      have hwhole : pre ++ (encode pad values (s :: slots) pre.length ++ rest) =
          (pre ++ List.replicate (alignUp s.align pre.length - pre.length) pad) ++
            (v ++ (encode pad values slots (alignUp s.align pre.length + v.length) ++ rest)) := by
        rw [encode, hv]
        simp
      rw [List.length_append, hfront, List.append_assoc] at hnext
      rw [hwhole, decode, if_pos (show (values s.bit).isSome = true by rw [hv]; rfl),
        if_pos (by rw [List.length_append, hfront, List.length_append]; omega), ← hlen, hslice, hnext, fields, fields,
        List.filterMap_cons, hv]
      rfl

theorem lookup_fields (hb : b ∈ slots.map Slot.bit) : (fields values slots).lookup b = values b := by
  cases hv : values b with
  | none =>
    rw [List.lookup_eq_none_iff]
    intro f hf
    obtain ⟨s,-,hs⟩ := List.mem_filterMap.mp hf
    obtain ⟨v,hsv,rfl⟩ := Option.map_eq_some_iff.mp hs
    have hne : b ≠ s.bit := by
      rintro rfl
      rw [hv] at hsv
      cases hsv
    exact bne_iff_ne.mpr hne
  | some v =>
    induction slots with
    | nil => cases hb
    | cons s slots ih =>
      rw [fields, List.filterMap_cons]
      by_cases hs : b = s.bit
      · rw [← hs, hv]
        exact List.lookup_cons_self
      · have hrest := ih ((List.mem_cons.mp hb).resolve_left hs)
        cases hsv : values s.bit with
        | none => exact hrest
        | some w =>
          rw [Option.map_some]
          dsimp only
          rw [List.lookup_cons, beq_false_of_ne hs]
          exact hrest

end AlignedFields
