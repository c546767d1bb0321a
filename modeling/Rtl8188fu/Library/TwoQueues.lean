import Mathlib

/-! # Objects in one of two queues

An object is taken from the head of the free queue to the tail of the used one, and given back to
the tail of the free queue from wherever it is linked.
-/
namespace TwoQueues
variable {α : Type*}

/-- Every object is in exactly one of the two queues. -/
structure Ok (all free used : List α) : Prop where
  nodup : all.Nodup
  perm : (free ++ used).Perm all

variable {all free used : List α} {p : α}

theorem Ok.nodup_append (h : Ok all free used) : (free ++ used).Nodup := h.perm.nodup_iff.mpr h.nodup

theorem Ok.used_nodup (h : Ok all free used) : used.Nodup := (List.nodup_append'.mp h.nodup_append).2.1

theorem Ok.not_mem_free (h : Ok all free used) (hp : p ∈ used) : p ∉ free :=
  fun hf => (List.nodup_append'.mp h.nodup_append).2.2 hf hp

theorem Ok.used_length_le (h : Ok all free used) : used.length ≤ all.length := by
  have hlen := h.perm.length_eq
  rw [List.length_append] at hlen
  omega

theorem Ok.take {rest : List α} (h : Ok all (p :: rest) used) : Ok all rest (used ++ [p]) where
  nodup := h.nodup
  perm := by
    apply List.Perm.trans ?_ h.perm
    rw [← List.append_assoc, List.cons_append]
    exact List.perm_append_singleton p (rest ++ used)

/-- An object is linked to the tail of the free queue, from either of the two. -/
theorem Ok.give [DecidableEq α] (h : Ok all free used) (hp : p ∈ free ∨ p ∈ used) :
    Ok all (free.erase p ++ [p]) (used.erase p) where
  nodup := h.nodup
  perm := by
    apply List.Perm.trans ?_ h.perm
    rcases hp with hf | hu
    · have hu : p ∉ used := fun hu => h.not_mem_free hu hf
      rw [List.erase_of_not_mem hu]
      apply List.Perm.append_right
      exact (List.perm_append_singleton p _).trans (List.perm_cons_erase hf).symm
    · rw [List.erase_of_not_mem (h.not_mem_free hu), List.append_assoc]
      apply List.Perm.append_left
      exact (List.perm_cons_erase hu).symm

theorem length_erase_succ [DecidableEq α] (hp : p ∈ used) : (used.erase p).length + 1 = used.length := by
  rw [List.length_erase_of_mem hp]
  have hpos := List.length_pos_of_mem hp
  omega

end TwoQueues
