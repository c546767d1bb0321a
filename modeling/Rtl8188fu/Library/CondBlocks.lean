import Mathlib.Data.List.Basic

/-! # Flat programs of conditional blocks

Blocks of branches are written as one list of instructions without jumps. A machine goes through the list once and
keeps two flags: whether the branch that it is in is taken, and whether one of the block was. A condition comes in
two instructions, and the second decides.
-/
namespace Rtl8188fu.CondBlocks

variable {β α : Type*}

inductive Instr (β α : Type*)
  | cond (c : β)
  | test (c : β)
  | els
  | endif
  | op (a : α)

structure Machine (β : Type*) where
  matched : Bool
  skipped : Bool
  pre : β

def Machine.step (holds : β → β → Bool) (s : Machine β) : Instr β α → Machine β × List α
  | .cond c => ({ s with pre := c },[])
  | .test c =>
    if s.skipped then ({ s with matched := false },[])
    else ({ s with matched := holds s.pre c, skipped := holds s.pre c },[])
  | .els => ({ s with matched := !s.skipped },[])
  | .endif => ({ s with matched := true, skipped := false },[])
  | .op a => (s,if s.matched then [a] else [])

/-- The state after a program, and the operations that were carried out -/
def Machine.exec (holds : β → β → Bool) : Machine β → List (Instr β α) → Machine β × List α
  | s, [] => (s,[])
  | s, i :: is =>
    let r := (s.step holds i).1.exec holds is
    (r.1,(s.step holds i).2 ++ r.2)

structure Branch (β α : Type*) where
  cond : β
  test : β
  body : List α

inductive Item (β α : Type*)
  | op (a : α)
  | block (first : Branch β α) (more : List (Branch β α)) (other : Option (List α))

/-- The first branch whose condition holds, or the rest -/
def pick (holds : β → β → Bool) (other : List α) (bs : List (Branch β α)) : List α :=
  ((bs.find? fun b => holds b.cond b.test).map (·.body)).getD other

/-- What an item means -/
def Item.ops (holds : β → β → Bool) : Item β α → List α
  | .op a => [a]
  | .block first more other => pick holds (other.getD []) (first :: more)

def Branch.encode (b : Branch β α) : List (Instr β α) := .cond b.cond :: .test b.test :: b.body.map .op

def encodeElse : Option (List α) → List (Instr β α)
  | none => []
  | some body => .els :: body.map .op

def Item.encode : Item β α → List (Instr β α)
  | .op a => [.op a]
  | .block first more other => (first :: more).flatMap Branch.encode ++ (encodeElse other ++ [.endif])

variable (holds : β → β → Bool) {s : Machine β}

theorem exec_append (is js : List (Instr β α)) :
    s.exec holds (is ++ js) =
      (((s.exec holds is).1.exec holds js).1,(s.exec holds is).2 ++ ((s.exec holds is).1.exec holds js).2) := by
  induction is generalizing s with
  | nil => rfl
  | cons i is ih => simp [Machine.exec, ih]

theorem exec_ops (body : List α) : s.exec holds (body.map .op) = (s,if s.matched then body else []) := by
  induction body with
  | nil => simp [Machine.exec]
  | cons a body ih =>
    cases hm : s.matched <;> simp [Machine.exec, Machine.step, hm, ih]

/-- Once a branch was taken, the others are passed over. -/
theorem exec_passed (bs : List (Branch β α)) (hskip : s.skipped = true) :
    (s.exec holds (bs.flatMap Branch.encode)).1.skipped = true ∧
      (s.exec holds (bs.flatMap Branch.encode)).2 = [] := by
  induction bs generalizing s with
  | nil => exact ⟨hskip,rfl⟩
  | cons b bs ih =>
    have hone : s.exec holds b.encode = ({ matched := false, skipped := true, pre := b.cond },[]) := by
      simp [Branch.encode, Machine.exec, Machine.step, hskip, exec_ops]
    simpa [exec_append, hone] using ih (s := { matched := false, skipped := true, pre := b.cond }) rfl

theorem exec_tried (bs : List (Branch β α)) (hskip : s.skipped = false) :
    (s.exec holds (bs.flatMap Branch.encode)).1.skipped = (bs.find? fun b => holds b.cond b.test).isSome ∧
      (s.exec holds (bs.flatMap Branch.encode)).2 = pick holds [] bs := by
  induction bs generalizing s with
  | nil => exact ⟨hskip,rfl⟩
  | cons b bs ih =>
    have hone : s.exec holds b.encode =
        ({ matched := holds b.cond b.test, skipped := holds b.cond b.test, pre := b.cond },
          if holds b.cond b.test then b.body else []) := by
      simp [Branch.encode, Machine.exec, Machine.step, hskip, exec_ops]
    cases hb : holds b.cond b.test with
    | true =>
      obtain ⟨hs,hout⟩ := exec_passed holds (s := { matched := true, skipped := true, pre := b.cond }) bs rfl
      simp [exec_append, hone, hb, hs, hout, pick]
    | false =>
      obtain ⟨hs,hout⟩ := ih (s := { matched := false, skipped := false, pre := b.cond }) rfl
      simp [exec_append, hone, hb, hs, hout, pick]

theorem exec_else (other : Option (List α)) :
    (s.exec holds (encodeElse other)).2 = if s.skipped then [] else other.getD [] := by
  cases other with
  | none => simp [encodeElse, Machine.exec]
  | some body => cases hs : s.skipped <;> simp [encodeElse, Machine.exec, Machine.step, hs, exec_ops]

/-- Between blocks -/
structure Machine.Idle (s : Machine β) : Prop where
  matched : s.matched = true
  skipped : s.skipped = false

theorem exec_item (h : s.Idle) (i : Item β α) :
    (s.exec holds i.encode).1.Idle ∧ (s.exec holds i.encode).2 = i.ops holds := by
  cases i with
  | op a => exact ⟨h,by simp [Item.encode, Machine.exec, Machine.step, h.matched, Item.ops]⟩
  | block first more other =>
    obtain ⟨hskip,hout⟩ := exec_tried holds (first :: more) h.skipped
    have hpick : pick holds [] (first :: more) ++
        (if ((first :: more).find? fun b => holds b.cond b.test).isSome then [] else other.getD []) =
          pick holds (other.getD []) (first :: more) := by
      unfold pick
      cases (first :: more).find? fun b => holds b.cond b.test with
      | none => simp
      | some b => simp
    have helse := exec_else holds (s := (s.exec holds ((first :: more).flatMap Branch.encode)).1) other
    rw [Item.encode, exec_append, exec_append]
    refine ⟨⟨rfl,rfl⟩,?_⟩
    simp only [hout, helse, hskip, Machine.exec, Machine.step, List.append_nil, Item.ops, hpick]

theorem exec_encode (h : s.Idle) (prog : List (Item β α)) :
    (s.exec holds (prog.flatMap Item.encode)).1.Idle ∧
      (s.exec holds (prog.flatMap Item.encode)).2 = prog.flatMap (Item.ops holds) := by
  induction prog generalizing s with
  | nil => exact ⟨h,rfl⟩
  | cons i prog ih =>
    obtain ⟨hidle,hout⟩ := exec_item holds h i
    obtain ⟨hrest,hmore⟩ := ih hidle
    simp [exec_append, hrest, hout, hmore]

end Rtl8188fu.CondBlocks
