import Mathlib

/-! # Banks of counted queues

Queues for owners and classes. Each has a counter, each class a counter of its own and a list of the owners that it
serves. An owner is linked to that list when something is put into its queue.
-/

structure QueueBank (ι κ α : Type*) where
  queue : ι → κ → List α
  qcnt : ι → κ → ℤ
  linked : κ → List ι
  total : κ → ℤ

section Sums
variable {ι M : Type*} [Fintype ι] [DecidableEq ι] [AddCommMonoid M]

theorem sum_update_add (f : ι → M) (i : ι) (m : M) : (∑ j, Function.update f i m j) + f i = (∑ j, f j) + m := by
  have hf := Finset.add_sum_erase Finset.univ f (Finset.mem_univ i)
  have hm := Finset.add_sum_erase Finset.univ (Function.update f i m) (Finset.mem_univ i)
  have hrest : ∑ j ∈ Finset.univ.erase i, Function.update f i m j = ∑ j ∈ Finset.univ.erase i, f j :=
    Finset.sum_congr rfl fun j hj => Function.update_of_ne (Finset.ne_of_mem_erase hj) _ _
  rw [← hf, ← hm, hrest, Function.update_self]
  abel

end Sums

namespace QueueBank
variable {ι κ α β : Type*} [DecidableEq ι] [DecidableEq κ] (b : QueueBank ι κ α)

def empty : QueueBank ι κ α := ⟨fun _ _ => [],fun _ _ => 0,fun _ => [],fun _ => 0⟩

def setQueue (i : ι) (k : κ) (q : List α) : QueueBank ι κ α :=
  { b with queue := Function.update b.queue i (Function.update (b.queue i) k q) }

def count (i : ι) (k : κ) (d : ℤ) : QueueBank ι κ α :=
  { b with
    qcnt := Function.update b.qcnt i (Function.update (b.qcnt i) k (b.qcnt i k + d))
    total := Function.update b.total k (b.total k + d) }

def link (i : ι) (k : κ) : QueueBank ι κ α :=
  if i ∈ b.linked k then b else { b with linked := Function.update b.linked k (b.linked k ++ [i]) }

def unlink (i : ι) (k : κ) : QueueBank ι κ α :=
  { b with linked := Function.update b.linked k ((b.linked k).erase i) }

/-- Something new at the end of a queue -/
def push (i : ι) (k : κ) (a : α) : QueueBank ι κ α := ((b.link i k).setQueue i k (b.queue i k ++ [a])).count i k 1

/-- The first owner of a list that has something -/
def popFirst (k : κ) : List ι → Option (α × QueueBank ι κ α)
  | [] => none
  | i :: is =>
    match b.queue i k with
    | [] => popFirst k is
    | a :: q =>
      let b := (b.setQueue i k q).count i k (-1)
      some (a,if q.isEmpty then b.unlink i k else b)

/-- So many leave a queue, which changes its place if `turn` says so. -/
def take (i : ι) (k : κ) (n : ℕ) (turn : Bool) : QueueBank ι κ α :=
  let q := (b.queue i k).drop n
  let b := (b.setQueue i k q).count i k (-((b.queue i k).take n).length)
  if q.isEmpty then b.unlink i k else if turn then (b.unlink i k).link i k else b

/-- A queue is given up, with what its counter says. -/
def clear (i : ι) (k : κ) : QueueBank ι κ α := ((b.setQueue i k []).unlink i k).count i k (-b.qcnt i k)

section Fields
variable {b} {i j : ι} {k l : κ} {q : List α} {a : α} {d : ℤ}

@[simp] theorem queue_setQueue_self : (b.setQueue i k q).queue i k = q := by simp [setQueue]

theorem queue_setQueue_of_ne (h : j = i → l ≠ k) : (b.setQueue i k q).queue j l = b.queue j l := by
  by_cases hj : j = i
  · subst hj
    simp [setQueue, h rfl]
  · simp [setQueue, hj]

@[simp] theorem queue_count : (b.count i k d).queue = b.queue := rfl

@[simp] theorem queue_unlink : (b.unlink i k).queue = b.queue := rfl

@[simp] theorem queue_link : (b.link i k).queue = b.queue := by
  unfold link
  split_ifs <;> rfl

@[simp] theorem qcnt_setQueue : (b.setQueue i k q).qcnt = b.qcnt := rfl

@[simp] theorem qcnt_unlink : (b.unlink i k).qcnt = b.qcnt := rfl

@[simp] theorem qcnt_link : (b.link i k).qcnt = b.qcnt := by
  unfold link
  split_ifs <;> rfl

@[simp] theorem total_setQueue : (b.setQueue i k q).total = b.total := rfl

@[simp] theorem total_unlink : (b.unlink i k).total = b.total := rfl

@[simp] theorem total_link : (b.link i k).total = b.total := by
  unfold link
  split_ifs <;> rfl

@[simp] theorem linked_setQueue : (b.setQueue i k q).linked = b.linked := rfl

@[simp] theorem linked_count : (b.count i k d).linked = b.linked := rfl

@[simp] theorem setQueue_setQueue {q' : List α} : (b.setQueue i k q).setQueue i k q' = b.setQueue i k q' := by
  simp [setQueue]

theorem setQueue_count {q' : List α} : (b.count i k d).setQueue j l q' = (b.setQueue j l q').count i k d := rfl

@[simp] theorem setQueue_queue : b.setQueue i k (b.queue i k) = b := by simp [setQueue]

@[simp] theorem count_count {e : ℤ} : (b.count i k d).count i k e = b.count i k (d + e) := by simp [count, add_assoc]

@[simp] theorem count_zero : b.count i k 0 = b := by simp [count]

theorem queue_take_self {n : ℕ} {turn : Bool} : (b.take i k n turn).queue i k = (b.queue i k).drop n := by
  unfold take
  dsimp only
  split_ifs <;> simp

theorem queue_take_of_ne {n : ℕ} {turn : Bool} (h : j = i → l ≠ k) :
    (b.take i k n turn).queue j l = b.queue j l := by
  unfold take
  dsimp only
  split_ifs <;> simp [queue_setQueue_of_ne h]

theorem queue_push_self : (b.push i k a).queue i k = b.queue i k ++ [a] := by simp [push]

theorem queue_push_of_ne (h : j = i → l ≠ k) : (b.push i k a).queue j l = b.queue j l := by
  simp [push, queue_setQueue_of_ne h]

theorem queue_clear_self : (b.clear i k).queue i k = [] := by simp [clear]

theorem queue_clear_of_ne (h : j = i → l ≠ k) : (b.clear i k).queue j l = b.queue j l := by
  simp [clear, queue_setQueue_of_ne h]

theorem mem_linked_link : j ∈ (b.link i k).linked l ↔ j ∈ b.linked l ∨ j = i ∧ l = k := by
  unfold link
  split_ifs with hin
  · constructor
    · exact .inl
    · rintro (h | ⟨rfl,rfl⟩)
      · exact h
      · exact hin
  · by_cases hl : l = k
    · subst hl
      simp
    · simp [hl]

theorem mem_linked_unlink (hnd : (b.linked k).Nodup) : j ∈ (b.unlink i k).linked l ↔ j ∈ b.linked l ∧
    ¬(j = i ∧ l = k) := by
  by_cases hl : l = k
  · subst hl
    simp [unlink, hnd.mem_erase_iff, and_comm]
  · simp [unlink, hl]

end Fields

/-- Counters say what is there. -/
structure Counted [Fintype ι] : Prop where
  qcnt : ∀ i k, b.qcnt i k = (b.queue i k).length
  total : ∀ k, b.total k = ∑ i, b.qcnt i k

/-- No owner is linked twice, and none without something in its queue. -/
structure Served : Prop where
  nodup : ∀ k, (b.linked k).Nodup
  nonempty : ∀ i k, i ∈ b.linked k → b.queue i k ≠ []

/-- What is in a queue is found over its class. -/
def Reached : Prop := ∀ i k, b.queue i k ≠ [] → i ∈ b.linked k

def contents [Fintype ι] [Fintype κ] : Multiset α := ∑ i, ∑ k, (b.queue i k : Multiset α)

section Counted
variable [Fintype ι] {b} {i : ι} {k : κ} {q : List α} {a : α}

omit [DecidableEq ι] [DecidableEq κ] in
theorem counted_empty : (empty : QueueBank ι κ α).Counted := ⟨fun _ _ => rfl,fun _ => by simp [empty]⟩

theorem Counted.change (h : b.Counted) (i : ι) (k : κ) (q : List α) :
    ((b.setQueue i k q).count i k (q.length - (b.queue i k).length)).Counted where
  qcnt j l := by
    by_cases hjl : j = i ∧ l = k
    · obtain ⟨rfl,rfl⟩ := hjl
      simp [count, h.qcnt]
    · have hqueue : (b.setQueue i k q).queue j l = b.queue j l :=
        queue_setQueue_of_ne fun hj hl => hjl ⟨hj,hl⟩
      have hqcnt : ((b.setQueue i k q).count i k (q.length - (b.queue i k).length)).qcnt j l = b.qcnt j l := by
        by_cases hj : j = i
        · subst hj
          have hl : l ≠ k := fun hl => hjl ⟨rfl,hl⟩
          simp [count, hl]
        · simp [count, hj]
      rw [hqcnt, queue_count, hqueue, h.qcnt]
  total l := by
    by_cases hl : l = k
    · subst hl
      have hsum := sum_update_add (fun j => b.qcnt j l) i (b.qcnt i l + (q.length - (b.queue i l).length))
      have hupdate : (fun j => ((b.setQueue i l q).count i l (q.length - (b.queue i l).length)).qcnt j l) =
          Function.update (fun j => b.qcnt j l) i (b.qcnt i l + (q.length - (b.queue i l).length)) := by
        funext j
        by_cases hj : j = i
        · subst hj
          simp [count]
        · simp [count, hj]
      have htotal := h.total l
      simp only [hupdate]
      simp only [count, total_setQueue, Function.update_self]
      linarith
    · have hqcnt : ∀ j, ((b.setQueue i k q).count i k (q.length - (b.queue i k).length)).qcnt j l = b.qcnt j l := by
        intro j
        by_cases hj : j = i
        · subst hj
          simp [count, hl]
        · simp [count, hj]
      simp only [hqcnt]
      simp [count, hl, h.total]

theorem Counted.link (h : b.Counted) (i : ι) (k : κ) : (b.link i k).Counted := by
  constructor <;> intro <;> simp [h.qcnt, h.total]

theorem Counted.unlink (h : b.Counted) (i : ι) (k : κ) : (b.unlink i k).Counted := by
  constructor <;> intro <;> simp [h.qcnt, h.total]

theorem Counted.push (h : b.Counted) (i : ι) (k : κ) (a : α) : (b.push i k a).Counted := by
  have hchange := (h.link i k).change i k (b.queue i k ++ [a])
  have hone : (((b.queue i k ++ [a]).length : ℤ) - ((b.link i k).queue i k).length) = 1 := by simp
  rw [hone] at hchange
  exact hchange

theorem Counted.take (h : b.Counted) (i : ι) (k : κ) (n : ℕ) (turn : Bool) : (b.take i k n turn).Counted := by
  have hchange := h.change i k ((b.queue i k).drop n)
  have hless : (((b.queue i k).drop n).length : ℤ) - (b.queue i k).length = -((b.queue i k).take n).length := by
    have hlength := congrArg List.length (List.take_append_drop n (b.queue i k))
    rw [List.length_append] at hlength
    omega
  rw [hless] at hchange
  unfold QueueBank.take
  dsimp only
  split_ifs
  · exact hchange.unlink i k
  · exact (hchange.unlink i k).link i k
  · exact hchange

theorem Counted.clear (h : b.Counted) (i : ι) (k : κ) : (b.clear i k).Counted := by
  have hchange := (h.change i k []).unlink i k
  have hall : ((([] : List α).length : ℤ) - (b.queue i k).length) = -b.qcnt i k := by simp [h.qcnt]
  rw [hall] at hchange
  exact hchange

end Counted

section Served
variable {b} {i j : ι} {k l : κ} {q : List α} {a : α} {d : ℤ}

omit [DecidableEq ι] [DecidableEq κ] in
theorem served_empty : (empty : QueueBank ι κ α).Served :=
  ⟨fun _ => List.nodup_nil,fun _ _ h => absurd h List.not_mem_nil⟩

theorem nodup_link (h : ∀ k, (b.linked k).Nodup) (l : κ) : ((b.link i k).linked l).Nodup := by
  unfold link
  split_ifs with hin
  · exact h l
  · by_cases hl : l = k
    · subst hl
      have hnew : (b.linked l ++ [i]).Nodup :=
        List.nodup_append.mpr ⟨h l,List.nodup_singleton i,fun x hx y hy hxy => hin
          (List.mem_singleton.mp hy ▸ hxy ▸ hx)⟩
      simpa using hnew
    · simpa [hl] using h l

theorem nodup_unlink (h : ∀ k, (b.linked k).Nodup) (l : κ) : ((b.unlink i k).linked l).Nodup := by
  by_cases hl : l = k
  · subst hl
    simpa [unlink] using (h l).erase i
  · simpa [unlink, hl] using h l

theorem Served.count (h : b.Served) (i : ι) (k : κ) (d : ℤ) : (b.count i k d).Served := ⟨h.nodup,h.nonempty⟩

theorem Served.push (h : b.Served) (i : ι) (k : κ) (a : α) : (b.push i k a).Served where
  nodup := nodup_link h.nodup
  nonempty j l hj := by
    have hlinked : j ∈ b.linked l ∨ j = i ∧ l = k := mem_linked_link.mp hj
    by_cases hjl : j = i ∧ l = k
    · obtain ⟨rfl,rfl⟩ := hjl
      simp [QueueBank.push]
    · have hqueue : (b.push i k a).queue j l = b.queue j l := by
        rw [QueueBank.push, queue_count, queue_setQueue_of_ne fun hj hl => hjl ⟨hj,hl⟩, queue_link]
      rw [hqueue]
      exact h.nonempty j l (hlinked.resolve_right hjl)

/-- A queue that is shortened stays linked only when something is left. -/
theorem Served.shorten (h : b.Served) (hq : i ∈ b.linked k → q ≠ []) : (b.setQueue i k q).Served where
  nodup := h.nodup
  nonempty j l hj := by
    by_cases hjl : j = i ∧ l = k
    · obtain ⟨rfl,rfl⟩ := hjl
      rw [queue_setQueue_self]
      exact hq hj
    · rw [queue_setQueue_of_ne fun hj hl => hjl ⟨hj,hl⟩]
      exact h.nonempty j l hj

/-- A queue that is not linked any more may be set as one likes. -/
theorem Served.setQueue_unlink (h : b.Served) (i : ι) (k : κ) (q : List α) :
    ((b.setQueue i k q).unlink i k).Served where
  nodup := nodup_unlink h.nodup
  nonempty j l hj := by
    obtain ⟨hj,hne⟩ := (mem_linked_unlink (h.nodup k)).mp hj
    rw [queue_unlink, queue_setQueue_of_ne fun hi hl => hne ⟨hi,hl⟩]
    exact h.nonempty j l hj

theorem Served.clear (h : b.Served) (i : ι) (k : κ) : (b.clear i k).Served :=
  (h.setQueue_unlink i k []).count i k _

theorem Served.link (h : b.Served) (hq : b.queue i k ≠ []) : (b.link i k).Served where
  nodup := nodup_link h.nodup
  nonempty j l hj := by
    rw [queue_link]
    rcases mem_linked_link.mp hj with hj | ⟨rfl,rfl⟩
    · exact h.nonempty j l hj
    · exact hq

theorem Served.take (h : b.Served) (i : ι) (k : κ) (n : ℕ) (turn : Bool) : (b.take i k n turn).Served := by
  have hunlink := (h.setQueue_unlink i k ((b.queue i k).drop n)).count i k (-((b.queue i k).take n).length)
  unfold QueueBank.take
  dsimp only
  split_ifs with hempty hturn
  · exact hunlink
  · exact hunlink.link (by simpa using hempty)
  · exact (h.shorten fun _ => by simpa using hempty).count i k _

theorem Reached.push (h : b.Reached) (i : ι) (k : κ) (a : α) : (b.push i k a).Reached := by
  intro j l hj
  refine mem_linked_link.mpr ?_
  by_cases hjl : j = i ∧ l = k
  · exact .inr hjl
  · refine .inl (h j l ?_)
    rwa [QueueBank.push, queue_count, queue_setQueue_of_ne fun hj hl => hjl ⟨hj,hl⟩, queue_link] at hj

theorem Reached.shorten (h : b.Reached) (hq : q ≠ [] → b.queue i k ≠ []) : (b.setQueue i k q).Reached := by
  intro j l hj
  by_cases hjl : j = i ∧ l = k
  · obtain ⟨rfl,rfl⟩ := hjl
    rw [queue_setQueue_self] at hj
    exact h j l (hq hj)
  · rw [queue_setQueue_of_ne fun hj hl => hjl ⟨hj,hl⟩] at hj
    exact h j l hj

theorem Reached.unlink (h : b.Reached) (hs : (b.linked k).Nodup) (hq : b.queue i k = []) : (b.unlink i k).Reached := by
  intro j l hj
  refine (mem_linked_unlink hs).mpr ⟨h j l hj,?_⟩
  rintro ⟨rfl,rfl⟩
  exact hj hq

theorem Reached.clear (h : b.Reached) (hs : (b.linked k).Nodup) (i : ι) : (b.clear i k).Reached :=
  (h.shorten (q := []) fun hne => absurd rfl hne).unlink hs queue_setQueue_self

theorem Reached.take (h : b.Reached) (hs : ∀ k, (b.linked k).Nodup) (i : ι) (k : κ) (n : ℕ) (turn : Bool) :
    (b.take i k n turn).Reached := by
  have hset : (b.setQueue i k ((b.queue i k).drop n)).Reached := h.shorten fun hne hnil => hne (by simp [hnil])
  intro j l hj
  by_cases hjl : j = i ∧ l = k
  · obtain ⟨rfl,rfl⟩ := hjl
    have hleft : (b.queue j l).drop n ≠ [] := by rwa [queue_take_self] at hj
    have hlinked := hset j l (by rwa [queue_setQueue_self])
    unfold QueueBank.take
    dsimp only
    split_ifs with hempty hturn
    · exact absurd (by simpa using hempty) hleft
    · exact mem_linked_link.mpr (.inr ⟨rfl,rfl⟩)
    · exact hlinked
  · have hne : j = i → l ≠ k := fun hj hl => hjl ⟨hj,hl⟩
    rw [queue_take_of_ne hne] at hj
    have hlinked := h j l hj
    have hunlink : j ∈ (b.unlink i k).linked l := (mem_linked_unlink (hs k)).mpr ⟨hlinked,hjl⟩
    unfold QueueBank.take
    dsimp only
    split_ifs
    · exact hunlink
    · exact mem_linked_link.mpr (.inl hunlink)
    · exact hlinked

end Served

section Clears
variable {b} {i j : ι} {k : κ} {ks : List κ}

theorem Counted.clears [Fintype ι] (h : b.Counted) (i : ι) (ks : List κ) :
    (ks.foldl (fun b k => b.clear i k) b).Counted := by
  induction ks generalizing b with
  | nil => exact h
  | cons k ks ih => exact ih (h.clear i k)

theorem Served.clears (h : b.Served) (i : ι) (ks : List κ) : (ks.foldl (fun b k => b.clear i k) b).Served := by
  induction ks generalizing b with
  | nil => exact h
  | cons k ks ih => exact ih (h.clear i k)

theorem Reached.clears (h : b.Reached) (hs : b.Served) (i : ι) (ks : List κ) :
    (ks.foldl (fun b k => b.clear i k) b).Reached := by
  induction ks generalizing b with
  | nil => exact h
  | cons k ks ih => exact ih (h.clear (hs.nodup k) i) (hs.clear i k)

theorem queue_clears_of_ne (hj : j ≠ i) : (ks.foldl (fun b k => b.clear i k) b).queue j k = b.queue j k := by
  induction ks generalizing b with
  | nil => rfl
  | cons l ks ih => exact ih.trans (queue_clear_of_ne fun h => absurd h hj)

theorem queue_clears_of_nil (h : b.queue i k = []) : (ks.foldl (fun b k => b.clear i k) b).queue i k = [] := by
  induction ks generalizing b with
  | nil => exact h
  | cons l ks ih =>
    refine ih ?_
    by_cases hk : k = l
    · subst hk
      exact queue_clear_self
    · rwa [queue_clear_of_ne fun _ => hk]

theorem queue_clears_of_mem (h : k ∈ ks) : (ks.foldl (fun b k => b.clear i k) b).queue i k = [] := by
  induction ks generalizing b with
  | nil => cases h
  | cons l ks ih =>
    rcases List.mem_cons.mp h with rfl | h
    · exact queue_clears_of_nil (b := b.clear i _) queue_clear_self
    · exact ih h

end Clears

section PopFirst
variable {b} {k : κ} {is : List ι} {a : α} {b' : QueueBank ι κ α}

theorem popFirst_eq_none_iff : b.popFirst k is = none ↔ ∀ i ∈ is, b.queue i k = [] := by
  induction is with
  | nil => simp [popFirst]
  | cons i is ih =>
    rw [popFirst]
    cases hq : b.queue i k with
    | nil => simp [hq, ih]
    | cons a q => simp [hq]

theorem popFirst_eq_some (h : b.popFirst k is = some (a,b')) :
    ∃ i ∈ is, ∃ q, b.queue i k = a :: q ∧ b' = b.take i k 1 false := by
  induction is with
  | nil => cases h
  | cons i is ih =>
    rw [popFirst] at h
    cases hq : b.queue i k with
    | nil =>
      rw [hq] at h
      obtain ⟨j,hj,hrest⟩ := ih h
      exact ⟨j,List.mem_cons_of_mem i hj,hrest⟩
    | cons a q =>
      rw [hq] at h
      cases h
      refine ⟨i,List.mem_cons_self,q,hq,?_⟩
      simp [take, hq]

end PopFirst

section Contents
variable [Fintype ι] [Fintype κ] {b} {i : ι} {k : κ} {q : List α} {d : ℤ}

omit [DecidableEq ι] [DecidableEq κ] in
@[simp] theorem contents_empty : (empty : QueueBank ι κ α).contents = 0 := by simp [contents, empty]

/-- What leaves and what comes when a queue is replaced -/
theorem contents_setQueue : (b.setQueue i k q).contents + (b.queue i k : Multiset α) = b.contents + q := by
  have hinner := sum_update_add (fun l => (b.queue i l : Multiset α)) k (q : Multiset α)
  have houter := sum_update_add (fun j => ∑ l, (b.queue j l : Multiset α)) i
    (∑ l, Function.update (fun l => (b.queue i l : Multiset α)) k (q : Multiset α) l)
  have hqueue : (b.setQueue i k q).contents = ∑ j, Function.update (fun j => ∑ l, (b.queue j l : Multiset α)) i
      (∑ l, Function.update (fun l => (b.queue i l : Multiset α)) k (q : Multiset α) l) j := by
    refine Finset.sum_congr rfl fun j _ => ?_
    by_cases hj : j = i
    · subst hj
      rw [Function.update_self]
      refine Finset.sum_congr rfl fun l _ => ?_
      by_cases hl : l = k
      · subst hl
        simp
      · rw [queue_setQueue_of_ne fun _ => hl, Function.update_of_ne hl]
    · rw [Function.update_of_ne hj]
      exact Finset.sum_congr rfl fun l _ => by rw [queue_setQueue_of_ne fun h => absurd h hj]
  rw [hqueue]
  refine add_right_cancel (b := ∑ l, (b.queue i l : Multiset α)) ?_
  rw [add_right_comm, houter, add_assoc, hinner, contents]
  abel

@[simp] theorem contents_count : (b.count i k d).contents = b.contents := rfl

@[simp] theorem contents_unlink : (b.unlink i k).contents = b.contents := rfl

@[simp] theorem contents_link : (b.link i k).contents = b.contents := by rw [contents, queue_link, contents]

theorem contents_push (a : α) : (b.push i k a).contents = b.contents + {a} := by
  have hset : ((b.link i k).setQueue i k (b.queue i k ++ [a])).contents + ((b.link i k).queue i k : Multiset α) =
      (b.link i k).contents + (b.queue i k ++ [a] : List α) := contents_setQueue
  rw [queue_link, contents_link, ← Multiset.coe_add, Multiset.coe_singleton] at hset
  refine add_right_cancel (b := (b.queue i k : Multiset α)) ?_
  rw [QueueBank.push, contents_count, hset]
  abel

theorem contents_take (n : ℕ) (turn : Bool) :
    (b.take i k n turn).contents + ((b.queue i k).take n : Multiset α) = b.contents := by
  have hbank : (b.take i k n turn).contents = (b.setQueue i k ((b.queue i k).drop n)).contents := by
    unfold take
    dsimp only
    split_ifs <;> simp
  have hset : (b.setQueue i k ((b.queue i k).drop n)).contents + (b.queue i k : Multiset α) =
      b.contents + ((b.queue i k).drop n : Multiset α) := contents_setQueue
  refine add_right_cancel (b := (((b.queue i k).drop n : List α) : Multiset α)) ?_
  rw [hbank, ← hset, add_assoc, Multiset.coe_add, List.take_append_drop]

theorem contents_clear : (b.clear i k).contents + (b.queue i k : Multiset α) = b.contents := by
  have hset : (b.setQueue i k []).contents + (b.queue i k : Multiset α) = b.contents + ([] : List α) :=
    contents_setQueue
  simpa [clear] using hset

end Contents

end QueueBank
