import Rtl8188fu.Ap.StaTable
import Rtl8188fu.Library.Run

/-! # What the operations on the station table keep -/
namespace Rtl8188fu
namespace StaTable

/-- A station object is in use. -/
def Hashed (t : StaTable) (i : ℕ) : Prop := ∃ b, i ∈ t.staHash b

/-- Every station object is free or in one hash bucket. -/
structure HashInv (t : StaTable) : Prop where
  freeNodup : t.freeStaQueue.Nodup
  hashNodup : ∀ b, (t.staHash b).Nodup
  bucket : ∀ i b c, i ∈ t.staHash b → i ∈ t.staHash c → b = c
  place : ∀ i, i < numSta ↔ i ∈ t.freeStaQueue ∨ t.Hashed i
  apart : ∀ i ∈ t.freeStaQueue, ¬ t.Hashed i
  count : t.asocStaCount + t.freeStaQueue.length = numSta

/-- The two lists hold different stations that are in use, and their counters are right. -/
structure ListInv (t : StaTable) : Prop where
  asocNodup : t.asocList.Nodup
  authNodup : t.authList.Nodup
  asocHashed : ∀ i ∈ t.asocList, t.Hashed i
  authHashed : ∀ i ∈ t.authList, t.Hashed i
  listsApart : ∀ i ∈ t.asocList, i ∉ t.authList
  asocCnt : t.asocListCnt = t.asocList.length
  authCnt : t.authListCnt = t.authList.length

/-- An AID slot holds the station in use that has the AID. -/
def AidInv (t : StaTable) : Prop := ∀ a i, t.staAid a = some i ↔ t.Hashed i ∧ (t.sta i).aid = a + 1

/-- The table is in order; the AID slots only when `aids` holds. -/
structure TableInv (aids : Prop) (t : StaTable) : Prop extends HashInv t, ListInv t where
  aid : aids → AidInv t

theorem TableInv.init (aids : Prop) : TableInv aids .init where
  freeNodup := List.nodup_range
  hashNodup _ := List.nodup_nil
  bucket _ _ _ hi := absurd hi List.not_mem_nil
  place i := by simp [StaTable.init, Hashed]
  apart _ _ := by simp [StaTable.init, Hashed]
  count := by simp [StaTable.init]
  asocNodup := List.nodup_nil
  authNodup := List.nodup_nil
  asocHashed _ hi := absurd hi List.not_mem_nil
  authHashed _ hi := absurd hi List.not_mem_nil
  listsApart _ hi := absurd hi List.not_mem_nil
  asocCnt := rfl
  authCnt := rfl
  aid _ _ _ := by simp [StaTable.init, Hashed]

section Congr
variable {t u : StaTable}

theorem HashInv.congr (h : HashInv t) (hfree : u.freeStaQueue = t.freeStaQueue) (hhash : u.staHash = t.staHash)
    (hcount : u.asocStaCount = t.asocStaCount) : HashInv u := by
  obtain ⟨sta,free,hash,count,asoc,asocCnt,auth,authCnt,aid,lim⟩ := u
  dsimp only at hfree hhash hcount
  subst hfree hhash hcount
  exact ⟨h.freeNodup,h.hashNodup,h.bucket,h.place,h.apart,h.count⟩

theorem ListInv.congr (h : ListInv t) (hhash : u.staHash = t.staHash) (hasoc : u.asocList = t.asocList)
    (hasocCnt : u.asocListCnt = t.asocListCnt) (hauth : u.authList = t.authList)
    (hauthCnt : u.authListCnt = t.authListCnt) : ListInv u := by
  obtain ⟨sta,free,hash,count,asoc,asocCnt,auth,authCnt,aid,lim⟩ := u
  dsimp only at hhash hasoc hasocCnt hauth hauthCnt
  subst hhash hasoc hasocCnt hauth hauthCnt
  exact ⟨h.asocNodup,h.authNodup,h.asocHashed,h.authHashed,h.listsApart,h.asocCnt,h.authCnt⟩

theorem AidInv.congr (h : AidInv t) (hhash : u.staHash = t.staHash) (haid : u.staAid = t.staAid)
    (hsta : ∀ i, (u.sta i).aid = (t.sta i).aid) : AidInv u := by
  intro a i
  rw [haid, hsta, h a i, Hashed, Hashed, hhash]

end Congr

theorem aid_setSta {t : StaTable} {i : ℕ} {n : StaNode} (h : n.aid = (t.sta i).aid) (j : ℕ) :
    ((t.setSta i n).sta j).aid = (t.sta j).aid := by
  by_cases hj : j = i
  · rw [hj]
    exact (congrArg StaNode.aid (Function.update_self ..)).trans h
  · exact congrArg StaNode.aid (Function.update_of_ne hj _ _)

section Keep
variable {aids : Prop} {t : StaTable} (h : TableInv aids t)
include h

theorem TableInv.setSta {i : ℕ} {n : StaNode} (haid : n.aid = (t.sta i).aid) : TableInv aids (t.setSta i n) :=
  ⟨h.toHashInv.congr rfl rfl rfl,h.toListInv.congr rfl rfl rfl rfl rfl,fun ha => (h.aid ha).congr rfl rfl
    (aid_setSta haid)⟩

omit h in
theorem hashed_of_getStainfo {hwaddr : MacAddr} {i : ℕ} (hi : t.getStainfo hwaddr = some i) : t.Hashed i :=
  ⟨_,List.mem_of_find?_eq_some hi⟩

theorem TableInv.lt_of_hashed {i : ℕ} (hi : t.Hashed i) : i < numSta := (h.place i).mpr (Or.inr hi)

/-- A new station is in use, is on no list and has no AID. -/
theorem TableInv.alloc {hwaddr : MacAddr} {i : ℕ} {u : StaTable} (hu : t.allocStainfo hwaddr = some (i,u)) :
    TableInv aids u ∧ u.Hashed i ∧ i ∉ u.asocList ∧ i ∉ u.authList ∧ (u.sta i).aid = 0 := by
  rw [allocStainfo] at hu
  split at hu
  · cases hu
  · rename_i rest hfree
    cases hu
    have hnew : ¬ t.Hashed i := h.apart i (by rw [hfree]; exact List.mem_cons_self)
    have hnodup := h.freeNodup
    rw [hfree, List.nodup_cons] at hnodup
    let u : StaTable := { t.setSta i (.fresh hwaddr) with
      freeStaQueue := rest
      staHash := Function.update t.staHash (wifiMacHash hwaddr) (t.staHash (wifiMacHash hwaddr) ++ [i])
      asocStaCount := t.asocStaCount + 1 }
    have hmem : ∀ b j, j ∈ u.staHash b ↔ j ∈ t.staHash b ∨ j = i ∧ b = wifiMacHash hwaddr := by
      intro b j
      by_cases hb : b = wifiMacHash hwaddr
      · subst hb
        simp [u]
      · simp [u, hb]
    have hhashed : ∀ j, u.Hashed j ↔ t.Hashed j ∨ j = i := by
      intro j
      simp only [Hashed, hmem]
      constructor
      · rintro ⟨b,hb | ⟨hj,-⟩⟩
        · exact Or.inl ⟨b,hb⟩
        · exact Or.inr hj
      · rintro (⟨b,hb⟩ | hj)
        · exact ⟨b,Or.inl hb⟩
        · exact ⟨_,Or.inr ⟨hj,rfl⟩⟩
    have hsta : ∀ j, j ≠ i → u.sta j = t.sta j := fun j hj => Function.update_of_ne hj _ _
    have hself : u.sta i = .fresh hwaddr := Function.update_self ..
    refine ⟨⟨⟨hnodup.2,?_,?_,?_,?_,?_⟩,
      ⟨h.asocNodup,h.authNodup,?_,?_,h.listsApart,h.asocCnt,h.authCnt⟩,?_⟩,
      (hhashed i).mpr (Or.inr rfl),fun hi => hnew (h.asocHashed i hi),fun hi => hnew (h.authHashed i hi),
      congrArg StaNode.aid hself⟩
    · intro b
      by_cases hb : b = wifiMacHash hwaddr
      · subst hb
        have : i ∉ t.staHash (wifiMacHash hwaddr) := fun hi => hnew ⟨_,hi⟩
        have hn := h.hashNodup (wifiMacHash hwaddr)
        simp [List.nodup_append, hn]
        rintro a ha rfl
        exact this ha
      · simpa [hb] using h.hashNodup b
    · intro j b c hb hc
      rcases (hmem b j).mp hb with hb | ⟨hji,hb⟩
      · rcases (hmem c j).mp hc with hc | ⟨hji,-⟩
        · exact h.bucket j b c hb hc
        · exact absurd ⟨b,hji ▸ hb⟩ hnew
      · rcases (hmem c j).mp hc with hc | ⟨-,hc⟩
        · exact absurd ⟨c,hji ▸ hc⟩ hnew
        · exact hb.trans hc.symm
    · intro j
      refine (h.place j).trans ?_
      rw [hfree, List.mem_cons]
      constructor
      · rintro ((hj | hj) | hj)
        · exact Or.inr ((hhashed j).mpr (Or.inr hj))
        · exact Or.inl hj
        · exact Or.inr ((hhashed j).mpr (Or.inl hj))
      · rintro (hj | hj)
        · exact Or.inl (Or.inr hj)
        · rcases (hhashed j).mp hj with hj | hj
          · exact Or.inr hj
          · exact Or.inl (Or.inl hj)
    · intro j hj hh
      rcases (hhashed j).mp hh with hh | rfl
      · exact h.apart j (by rw [hfree]; exact List.mem_cons_of_mem _ hj) hh
      · exact hnodup.1 hj
    · have := h.count
      rw [hfree, List.length_cons] at this
      push_cast at this ⊢
      omega
    · exact fun j hj => (hhashed j).mpr (Or.inl (h.asocHashed j hj))
    · exact fun j hj => (hhashed j).mpr (Or.inl (h.authHashed j hj))
    · intro hok a j
      refine (h.aid hok a j).trans ?_
      rw [hhashed]
      by_cases hj : j = i
      · subst hj
        rw [hself]
        simp [StaNode.fresh, hnew]
      · rw [hsta j hj]
        simp [hj]

theorem TableInv.asocRemove (i : ℕ) : TableInv aids (t.asocRemove i) ∧ i ∉ (t.asocRemove i).asocList := by
  rw [StaTable.asocRemove]
  split
  · rename_i hi
    refine ⟨⟨h.toHashInv.congr rfl rfl rfl,⟨h.asocNodup.erase i,h.authNodup,?_,h.authHashed,?_,?_,h.authCnt⟩,
      fun ha => (h.aid ha).congr rfl rfl fun _ => rfl⟩,h.asocNodup.not_mem_erase⟩
    · exact fun j hj => h.asocHashed j (List.mem_of_mem_erase hj)
    · exact fun j hj => h.listsApart j (List.mem_of_mem_erase hj)
    · have := List.length_pos_of_mem hi
      rw [List.length_erase_of_mem hi, Nat.cast_sub this, h.asocCnt]
      rfl
  · rename_i hi
    exact ⟨h,hi⟩

theorem TableInv.authRemove (i : ℕ) : TableInv aids (t.authRemove i) ∧ i ∉ (t.authRemove i).authList := by
  rw [StaTable.authRemove]
  split
  · rename_i hi
    refine ⟨⟨h.toHashInv.congr rfl rfl rfl,⟨h.asocNodup,h.authNodup.erase i,h.asocHashed,?_,?_,h.asocCnt,?_⟩,
      fun ha => (h.aid ha).congr rfl rfl fun _ => rfl⟩,h.authNodup.not_mem_erase⟩
    · exact fun j hj => h.authHashed j (List.mem_of_mem_erase hj)
    · exact fun j hj hm => h.listsApart j hj (List.mem_of_mem_erase hm)
    · have := List.length_pos_of_mem hi
      rw [List.length_erase_of_mem hi, Nat.cast_sub this, h.authCnt]
      rfl
  · rename_i hi
    exact ⟨h,hi⟩

theorem TableInv.authInsert {i : ℕ} (hi : t.Hashed i) (hasoc : i ∉ t.asocList) :
    TableInv aids (t.authInsert i) := by
  rw [StaTable.authInsert]
  split
  · exact h
  · rename_i hnew
    refine ⟨h.toHashInv.congr rfl rfl rfl,⟨h.asocNodup,?_,h.asocHashed,?_,?_,h.asocCnt,?_⟩,
      fun ha => (h.aid ha).congr rfl rfl fun _ => rfl⟩
    · exact List.nodup_append.mpr ⟨h.authNodup,List.nodup_singleton i,by
        rintro a ha b hb rfl
        exact hnew (List.mem_singleton.mp hb ▸ ha)⟩
    · intro j hj
      rcases List.mem_append.mp hj with hj | hj
      · exact h.authHashed j hj
      · exact List.mem_singleton.mp hj ▸ hi
    · intro j hj hm
      rcases List.mem_append.mp hm with hm | hm
      · exact h.listsApart j hj hm
      · exact hasoc (List.mem_singleton.mp hm ▸ hj)
    · simp [h.authCnt]

theorem TableInv.asocInsert {i : ℕ} (hi : t.Hashed i) (hauth : i ∉ t.authList) :
    TableInv aids (t.asocInsert i) := by
  rw [StaTable.asocInsert]
  split
  · exact h
  · rename_i hnew
    refine ⟨h.toHashInv.congr rfl rfl rfl,⟨?_,h.authNodup,?_,h.authHashed,?_,?_,h.authCnt⟩,
      fun ha => (h.aid ha).congr rfl rfl (aid_setSta rfl)⟩
    · exact List.nodup_append.mpr ⟨h.asocNodup,List.nodup_singleton i,by
        rintro a ha b hb rfl
        exact hnew (List.mem_singleton.mp hb ▸ ha)⟩
    · intro j hj
      rcases List.mem_append.mp hj with hj | hj
      · exact h.asocHashed j hj
      · exact List.mem_singleton.mp hj ▸ hi
    · intro j hj hm
      rcases List.mem_append.mp hj with hj | hj
      · exact h.listsApart j hj hm
      · exact hauth (List.mem_singleton.mp hj ▸ hm)
    · simp [h.asocCnt]

end Keep

section Freed
variable (t : StaTable) (i : ℕ)

@[simp] theorem freeStainfo_freeStaQueue : (t.freeStainfo i).freeStaQueue = t.freeStaQueue ++ [i] := by
  simp only [freeStainfo, authRemove, StaTable.setSta]
  split_ifs <;> rfl

@[simp] theorem freeStainfo_staHash (b : ℕ) : (t.freeStainfo i).staHash b = (t.staHash b).erase i := by
  simp only [freeStainfo, authRemove, StaTable.setSta]
  split_ifs <;> rfl

@[simp] theorem freeStainfo_asocStaCount : (t.freeStainfo i).asocStaCount = t.asocStaCount - 1 := by
  simp only [freeStainfo, authRemove, StaTable.setSta]
  split_ifs <;> rfl

@[simp] theorem freeStainfo_asocList : (t.freeStainfo i).asocList = t.asocList := by
  simp only [freeStainfo, authRemove, StaTable.setSta]
  split_ifs <;> rfl

@[simp] theorem freeStainfo_asocListCnt : (t.freeStainfo i).asocListCnt = t.asocListCnt := by
  simp only [freeStainfo, authRemove, StaTable.setSta]
  split_ifs <;> rfl

@[simp] theorem freeStainfo_authList : (t.freeStainfo i).authList = (t.authRemove i).authList := by
  simp only [freeStainfo, authRemove, StaTable.setSta]
  split_ifs <;> rfl

@[simp] theorem freeStainfo_authListCnt : (t.freeStainfo i).authListCnt = (t.authRemove i).authListCnt := by
  simp only [freeStainfo, authRemove, StaTable.setSta]
  split_ifs <;> rfl

theorem freeStainfo_sta {j : ℕ} (hj : j ≠ i) : (t.freeStainfo i).sta j = t.sta j := by
  simp only [freeStainfo, authRemove, StaTable.setSta]
  split_ifs <;> simp [hj]

theorem freeStainfo_staAid (a : ℕ) :
    (t.freeStainfo i).staAid a = if t.staAid a = some i ∧ (t.sta i).aid = a + 1 then none else t.staAid a := by
  have hstep : (t.freeStainfo i).staAid =
      if 0 < (t.sta i).aid ∧ t.staAid ((t.sta i).aid - 1) = some i then
        Function.update t.staAid ((t.sta i).aid - 1) none else t.staAid := by
    simp only [freeStainfo, authRemove, StaTable.setSta]
    split_ifs <;> rfl
  rw [hstep]
  by_cases hslot : 0 < (t.sta i).aid ∧ t.staAid ((t.sta i).aid - 1) = some i
  · rw [if_pos hslot]
    by_cases ha : (t.sta i).aid = a + 1
    · have : (t.sta i).aid - 1 = a := by omega
      rw [this] at hslot ⊢
      rw [if_pos ⟨hslot.2,ha⟩, Function.update_self]
    · rw [if_neg fun hc => ha hc.2, Function.update_of_ne (by omega)]
  · rw [if_neg hslot, if_neg]
    rintro ⟨hc,ha⟩
    rw [ha] at hslot
    exact hslot ⟨by omega,hc⟩

end Freed

theorem TableInv.hashed_freeStainfo {aids : Prop} {t : StaTable} (h : TableInv aids t) (i j : ℕ) :
    (t.freeStainfo i).Hashed j ↔ t.Hashed j ∧ j ≠ i := by
  simp only [Hashed, freeStainfo_staHash, (h.hashNodup _).mem_erase_iff]
  constructor
  · rintro ⟨b,hne,hb⟩
    exact ⟨⟨b,hb⟩,hne⟩
  · rintro ⟨⟨b,hb⟩,hne⟩
    exact ⟨b,hne,hb⟩

/-- A station that is not on `asoc_list` is freed. -/
theorem TableInv.free {aids : Prop} {t : StaTable} (h : TableInv aids t) {i : ℕ} (hi : t.Hashed i)
    (hasoc : i ∉ t.asocList) :
    TableInv aids (t.freeStainfo i) := by
  have hhashed := h.hashed_freeStainfo i
  have hauth := h.authRemove i
  have hnew : i ∉ t.freeStaQueue := fun hf => h.apart i hf hi
  have hmem : ∀ j, j ∈ (t.authRemove i).authList → j ∈ t.authList := by
    intro j hj
    rw [StaTable.authRemove] at hj
    split at hj
    · exact List.mem_of_mem_erase hj
    · exact hj
  refine ⟨⟨?_,?_,?_,?_,?_,?_⟩,⟨?_,?_,?_,?_,?_,?_,?_⟩,?_⟩
  · rw [freeStainfo_freeStaQueue]
    exact List.nodup_append.mpr ⟨h.freeNodup,List.nodup_singleton i,by
      rintro a ha b hb rfl
      exact hnew (List.mem_singleton.mp hb ▸ ha)⟩
  · intro b
    rw [freeStainfo_staHash]
    exact (h.hashNodup b).erase i
  · intro j b c hb hc
    rw [freeStainfo_staHash] at hb hc
    exact h.bucket j b c (List.mem_of_mem_erase hb) (List.mem_of_mem_erase hc)
  · intro j
    rw [freeStainfo_freeStaQueue, List.mem_append, List.mem_singleton, hhashed, h.place j]
    constructor
    · rintro (hj | hj)
      · exact Or.inl (Or.inl hj)
      · by_cases hji : j = i
        · exact Or.inl (Or.inr hji)
        · exact Or.inr ⟨hj,hji⟩
    · rintro ((hj | rfl) | hj)
      · exact Or.inl hj
      · exact Or.inr hi
      · exact Or.inr hj.1
  · intro j hj
    rw [freeStainfo_freeStaQueue, List.mem_append, List.mem_singleton] at hj
    rw [hhashed]
    rintro ⟨hh,hne⟩
    exact h.apart j (hj.resolve_right hne) hh
  · have := h.count
    rw [freeStainfo_freeStaQueue, freeStainfo_asocStaCount, List.length_append, List.length_singleton]
    push_cast
    omega
  · rw [freeStainfo_asocList]
    exact h.asocNodup
  · rw [freeStainfo_authList]
    exact hauth.1.authNodup
  · intro j hj
    rw [freeStainfo_asocList] at hj
    exact (hhashed j).mpr ⟨h.asocHashed j hj,fun hji => hasoc (hji ▸ hj)⟩
  · intro j hj
    rw [freeStainfo_authList] at hj
    exact (hhashed j).mpr ⟨h.authHashed j (hmem j hj),fun hji => hauth.2 (hji ▸ hj)⟩
  · intro j hj hm
    rw [freeStainfo_asocList] at hj
    rw [freeStainfo_authList] at hm
    exact h.listsApart j hj (hmem j hm)
  · rw [freeStainfo_asocListCnt, freeStainfo_asocList]
    exact h.asocCnt
  · rw [freeStainfo_authListCnt, freeStainfo_authList]
    exact hauth.1.authCnt
  · intro hok a j
    rw [freeStainfo_staAid, hhashed]
    by_cases hj : j = i
    · subst hj
      by_cases ha : t.staAid a = some j
      · rw [if_pos ⟨ha,((h.aid hok a j).mp ha).2⟩]
        simp
      · rw [if_neg fun hc => ha hc.1]
        simp [ha]
    · rw [freeStainfo_sta t i hj]
      by_cases ha : t.staAid a = some i ∧ (t.sta i).aid = a + 1
      · have hno : ¬ (t.Hashed j ∧ (t.sta j).aid = a + 1) := by
          rw [← h.aid hok a j, ha.1]
          exact fun heq => hj (Option.some.inj heq).symm
        rw [if_pos ha]
        simp only [reduceCtorEq, false_iff]
        exact fun hc => hno ⟨hc.1.1,hc.2⟩
      · rw [if_neg ha, h.aid hok a j]
        simp [hj]

end StaTable
end Rtl8188fu
