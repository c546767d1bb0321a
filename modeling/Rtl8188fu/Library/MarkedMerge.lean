import Mathlib

/-! # Merging two ascending lists, with a mark on what the second one lists -/

variable {α : Type*} [LinearOrder α]

/-- The turns of a merge: a member of both lists is taken once, and members of the second list are marked. -/
inductive MarkedMerge : List α → List α → List (α × Bool) → Prop where
  | left (xs : List α) : MarkedMerge xs [] (xs.map (·,false))
  | right (ys : List α) : MarkedMerge [] ys (ys.map (·,true))
  | both (x : α) {xs ys : List α} {zs : List (α × Bool)} (h : MarkedMerge xs ys zs) :
      MarkedMerge (x :: xs) (x :: ys) ((x,true) :: zs)
  | first {x y : α} {xs ys : List α} {zs : List (α × Bool)} (hlt : x < y) (h : MarkedMerge xs (y :: ys) zs) :
      MarkedMerge (x :: xs) (y :: ys) ((x,false) :: zs)
  | second {x y : α} {xs ys : List α} {zs : List (α × Bool)} (hlt : y < x) (h : MarkedMerge (x :: xs) ys zs) :
      MarkedMerge (x :: xs) (y :: ys) ((y,true) :: zs)

namespace MarkedMerge
variable {xs ys : List α} {zs : List (α × Bool)} {x : α} {b : Bool}

theorem mem_iff (h : MarkedMerge xs ys zs) : x ∈ zs.map Prod.fst ↔ x ∈ xs ∨ x ∈ ys := by
  induction h with
  | left xs => simp
  | right ys => simp
  | both _ _ ih =>
    rw [List.map_cons, List.mem_cons, ih, List.mem_cons, List.mem_cons]
    tauto
  | first _ _ ih =>
    rw [List.map_cons, List.mem_cons, ih, List.mem_cons, List.mem_cons]
    tauto
  | second _ _ ih =>
    rw [List.map_cons, List.mem_cons, ih, List.mem_cons, List.mem_cons]
    tauto

theorem above {y : α} (h : MarkedMerge xs ys zs) (hxs : ∀ x ∈ xs, y < x) (hys : ∀ x ∈ ys, y < x) :
    ∀ z ∈ zs, y < z.1 := by
  intro z hz
  rcases h.mem_iff.mp (List.mem_map_of_mem hz) with hz | hz
  · exact hxs _ hz
  · exact hys _ hz

theorem sorted (h : MarkedMerge xs ys zs) (hxs : xs.Pairwise (· < ·)) (hys : ys.Pairwise (· < ·)) :
    (zs.map Prod.fst).Pairwise (· < ·) := by
  have hcons : ∀ {z : α × Bool} {zs : List (α × Bool)}, (∀ w ∈ zs, z.1 < w.1) →
      (zs.map Prod.fst).Pairwise (· < ·) →
      ((z :: zs).map Prod.fst).Pairwise (· < ·) := fun habove hzs =>
    List.pairwise_cons.mpr ⟨List.forall_mem_map.mpr habove,hzs⟩
  induction h with
  | left xs => simpa [List.map_map, Function.comp_def] using hxs
  | right ys => simpa [List.map_map, Function.comp_def] using hys
  | both _ h ih =>
    rw [List.pairwise_cons] at hxs hys
    exact hcons (h.above hxs.1 hys.1) (ih hxs.2 hys.2)
  | first hlt h ih =>
    rw [List.pairwise_cons] at hxs
    have hall := List.forall_mem_cons.mpr ⟨hlt,fun z hz => hlt.trans (List.rel_of_pairwise_cons hys hz)⟩
    exact hcons (h.above hxs.1 hall) (ih hxs.2 hys)
  | second hlt h ih =>
    rw [List.pairwise_cons] at hys
    have hall := List.forall_mem_cons.mpr ⟨hlt,fun z hz => hlt.trans (List.rel_of_pairwise_cons hxs hz)⟩
    exact hcons (h.above hall hys.1) (ih hxs hys.2)

theorem mark_iff (h : MarkedMerge xs ys zs) (hxs : xs.Pairwise (· < ·)) (hys : ys.Pairwise (· < ·))
    (hz : (x,b) ∈ zs) :
    b = true ↔ x ∈ ys := by
  induction h with
  | left xs =>
    obtain ⟨_,-,heq⟩ := List.mem_map.mp hz
    obtain ⟨rfl,rfl⟩ := Prod.mk.inj heq
    simp
  | right ys =>
    obtain ⟨_,hy,heq⟩ := List.mem_map.mp hz
    obtain ⟨rfl,rfl⟩ := Prod.mk.inj heq
    simpa using hy
  | both y h ih =>
    rw [List.pairwise_cons] at hxs hys
    rcases List.mem_cons.mp hz with heq | hz
    · obtain ⟨rfl,rfl⟩ := Prod.mk.inj heq
      simp
    · have hne := (h.above hxs.1 hys.1 _ hz).ne'
      rw [ih hxs.2 hys.2 hz, List.mem_cons, or_iff_right hne]
  | first hlt h ih =>
    rw [List.pairwise_cons] at hxs
    rcases List.mem_cons.mp hz with heq | hz
    · obtain ⟨rfl,rfl⟩ := Prod.mk.inj heq
      refine iff_of_false Bool.false_ne_true fun hx => ?_
      rcases List.mem_cons.mp hx with rfl | hx
      · exact lt_irrefl _ hlt
      · exact lt_asymm hlt (List.rel_of_pairwise_cons hys hx)
    · exact ih hxs.2 hys hz
  | second hlt h ih =>
    have hall := List.forall_mem_cons.mpr ⟨hlt,fun z hz => hlt.trans (List.rel_of_pairwise_cons hxs hz)⟩
    rw [List.pairwise_cons] at hys
    rcases List.mem_cons.mp hz with heq | hz
    · obtain ⟨rfl,rfl⟩ := Prod.mk.inj heq
      simp
    · have hne := (h.above hall hys.1 _ hz).ne'
      rw [ih hxs hys.2 hz, List.mem_cons, or_iff_right hne]

end MarkedMerge
