import Rtl8188fu.Ap.StaTableInv

/-! # Runs of the station table

Every handler keeps the table in order as long as no request of a station with an AID is
refused.
-/
namespace Rtl8188fu
namespace StaTable

section Frame
variable (t : StaTable) (i : ℕ)

@[simp] theorem authInsert_asocList : (t.authInsert i).asocList = t.asocList := by
  rw [authInsert]
  split <;> rfl

@[simp] theorem authInsert_staHash : (t.authInsert i).staHash = t.staHash := by
  rw [authInsert]
  split <;> rfl

@[simp] theorem authRemove_staHash : (t.authRemove i).staHash = t.staHash := by
  rw [authRemove]
  split <;> rfl

@[simp] theorem authRemove_asocList : (t.authRemove i).asocList = t.asocList := by
  rw [authRemove]
  split <;> rfl

@[simp] theorem asocRemove_staHash : (t.asocRemove i).staHash = t.staHash := by
  rw [asocRemove]
  split <;> rfl

@[simp] theorem asocRemove_sta : (t.asocRemove i).sta = t.sta := by
  rw [asocRemove]
  split <;> rfl

theorem mem_authRemove {j : ℕ} (hj : j ≠ i) : j ∈ (t.authRemove i).authList ↔ j ∈ t.authList := by
  rw [authRemove]
  split
  · exact List.mem_erase_of_ne hj
  · rfl

end Frame

end StaTable

open StaTable

theorem authCheck_aid {f : AuthFrame} {n m : StaNode} (h : authCheck f n = some m) : m.aid = n.aid := by
  rw [authCheck] at h
  split_ifs at h <;> cases h <;> rfl

section Handlers
variable {aids : Prop} {t : StaTable} (h : TableInv aids t)
include h

theorem onAuthSta_inv (f : AuthFrame) {i : ℕ} (hi : t.Hashed i) (hasoc : i ∉ t.asocList) :
    TableInv aids (onAuthSta t f i).1 := by
  have hins := h.authInsert hi hasoc
  rw [onAuthSta]
  generalize hn : (if ((t.authInsert i).sta i).authSeq = 0 then { (t.authInsert i).sta i with expireTo := 3 }
    else (t.authInsert i).sta i) = n
  have haid : n.aid = ((t.authInsert i).sta i).aid := by
    rw [← hn]
    split <;> rfl
  have hset := hins.setSta haid
  have hself : ((t.authInsert i).setSta i n).sta i = n := Function.update_self ..
  cases hc : authCheck f n with
  | none =>
    have hhashed : ((t.authInsert i).setSta i n).Hashed i := by
      obtain ⟨b,hb⟩ := hi
      exact ⟨b,(authInsert_staHash t i).symm ▸ hb⟩
    have hno : i ∉ ((t.authInsert i).setSta i n).asocList := (authInsert_asocList t i).symm ▸ hasoc
    simpa only [hn, hc] using hset.free hhashed hno
  | some m =>
    have hdone : (authDone f m).aid = (((t.authInsert i).setSta i n).sta i).aid := by
      rw [hself]
      change m.aid = n.aid
      exact authCheck_aid hc
    simpa only [hn, hc] using hset.setSta hdone

theorem onAuth_inv (f : AuthFrame) : TableInv aids (onAuth t f).1 := by
  rw [onAuth]
  split
  · exact h
  · split
    · rename_i i hi
      obtain ⟨b,hb⟩ := hashed_of_getStainfo hi
      have hremove := h.asocRemove i
      exact onAuthSta_inv hremove.1 f ⟨b,(asocRemove_staHash t i).symm ▸ hb⟩ hremove.2
    · split
      · exact h
      · rename_i i u hu
        obtain ⟨hinv,hhashed,hasoc,-,-⟩ := h.alloc hu
        exact onAuthSta_inv (hinv.setSta (n := { u.sta i with authNull := true, authSeq := 0 }) rfl) f hhashed hasoc

/-- As many stations as slots cannot all be others than one more station in use. -/
theorem aid_room (hok : aids) {i : ℕ} (hi : t.Hashed i) (haid : (t.sta i).aid = 0) :
    (List.range numSta).find? (fun a => (t.staAid a).isNone) ≠ none := by
  intro hnone
  rw [List.find?_eq_none] at hnone
  have hfull : ∀ a < numSta, ∃ j, t.staAid a = some j := by
    intro a ha
    have := hnone a (List.mem_range.mpr ha)
    rwa [Bool.not_eq_true, Option.isNone_eq_false_iff, Option.isSome_iff_exists] at this
  choose! g hg using hfull
  have hmaps : ∀ a ∈ Finset.range numSta, g a ∈ (Finset.range numSta).erase i := by
    intro a ha
    have hga := (h.aid hok a (g a)).mp (hg a (Finset.mem_range.mp ha))
    rw [Finset.mem_erase, Finset.mem_range]
    refine ⟨?_,h.lt_of_hashed hga.1⟩
    intro heq
    rw [heq, haid] at hga
    omega
  have hinj : Set.InjOn g (Finset.range numSta) := by
    intro a ha b hb heq
    have hga := ((h.aid hok a (g a)).mp (hg a (Finset.mem_range.mp ha))).2
    have hgb := ((h.aid hok b (g b)).mp (hg b (Finset.mem_range.mp hb))).2
    rw [← heq] at hgb
    omega
  have hcard := Finset.card_le_card_of_injOn g hmaps hinj
  rw [Finset.card_erase_of_mem (Finset.mem_range.mpr (h.lt_of_hashed hi)), Finset.card_range] at hcard
  exact absurd hcard (by decide)

theorem assign_inv {i a : ℕ} (hi : t.Hashed i) (haid : (t.sta i).aid = 0) (ha : t.staAid a = none) {n : StaNode}
    (hn : n.aid = a + 1) :
    TableInv aids (StaTable.setSta { t with staAid := Function.update t.staAid a (some i) } i n) := by
  refine ⟨h.toHashInv.congr rfl rfl rfl,h.toListInv.congr rfl rfl rfl rfl rfl,?_⟩
  intro hok b j
  have hsame := h.aid hok b j
  by_cases hj : j = i
  · subst hj
    change Function.update t.staAid a (some j) b = some j ↔ t.Hashed j ∧ (Function.update t.sta j n j).aid = b + 1
    rw [Function.update_self, hn]
    by_cases hb : b = a
    · rw [hb, Function.update_self]
      simp [hi]
    · rw [Function.update_of_ne hb, hsame, haid]
      simp only [Nat.add_left_inj, Nat.right_eq_add, Nat.add_eq_zero_iff]
      constructor
      · rintro ⟨-,hc⟩
        omega
      · rintro ⟨-,hc⟩
        exact absurd hc.symm hb
  · change Function.update t.staAid a (some i) b = some j ↔ t.Hashed j ∧ (Function.update t.sta i n j).aid = b + 1
    rw [Function.update_of_ne hj]
    by_cases hb : b = a
    · rw [hb, Function.update_self]
      rw [hb, ha] at hsame
      simpa [Ne.symm hj, eq_comm] using hsame
    · rw [Function.update_of_ne hb]
      exact hsame

/-- A station that is accepted goes from one list to the other. -/
theorem joined_inv {i : ℕ} (hi : t.Hashed i) : TableInv aids ((t.authRemove i).asocInsert i) := by
  have hremove := h.authRemove i
  obtain ⟨b,hb⟩ := hi
  exact hremove.1.asocInsert ⟨b,(authRemove_staHash t i).symm ▸ hb⟩ hremove.2

theorem onAssocReqSta_inv (f : AssocReq) {i : ℕ} (hi : t.Hashed i)
    (hsafe : aids → f.refusal.isSome → (t.sta i).authSuccess || (t.sta i).assocSuccess → (t.sta i).aid = 0) :
    TableInv aids (onAssocReqSta t f i).1 := by
  rw [onAssocReqSta]
  dsimp only
  split
  · exact h
  · rename_i hclass
    generalize hn : (if (t.sta i).authSuccess then { t.sta i with authSuccess := false, assocState := true }
      else { t.sta i with assocSuccess := false, assocState := true }) = n
    have haid : n.aid = (t.sta i).aid := by
      rw [← hn]
      split <;> rfl
    have hset := h.setSta haid
    have hself : (t.setSta i n).sta i = n := Function.update_self ..
    have hfail : (aids → n.aid = 0) → TableInv aids (assocReqFail (t.setSta i n) i) := by
      intro hzero
      refine ⟨hset.toHashInv.congr rfl rfl rfl,hset.toListInv.congr rfl rfl rfl rfl rfl,fun hok => ?_⟩
      refine (hset.aid hok).congr rfl rfl (aid_setSta ?_)
      rw [hself]
      exact (hzero hok).symm
    cases hr : f.refusal with
    | some r =>
      refine hfail fun hok => haid.trans (hsafe hok (by rw [hr]; rfl) ?_)
      revert hclass
      cases (t.sta i).authSuccess <;> cases (t.sta i).assocSuccess <;> simp
    | none =>
      dsimp only
      rw [assocAid]
      by_cases hold : 0 < n.aid
      · rw [if_pos hold]
        refine joined_inv (hset.setSta ?_) hi
        rw [hself]
      · have hzero : (t.sta i).aid = 0 := by omega
        rw [if_neg hold]
        cases hroom : (List.range numSta).find? fun a => ((t.setSta i n).staAid a).isNone with
        | none =>
          let m : StaNode := { n with aid := numSta + 1, assocState := false, assocSuccess := true }
          have hlast : TableInv aids ((t.setSta i n).setSta i m) :=
            ⟨hset.toHashInv.congr rfl rfl rfl,hset.toListInv.congr rfl rfl rfl rfl rfl,
              fun hok => absurd hroom (aid_room hset hok hi (by rw [hself]; omega))⟩
          exact joined_inv hlast hi
        | some a =>
          dsimp only
          split
          · rename_i heq
            split at heq
            · exact hfail fun _ => by omega
            · cases heq
          · rename_i heq
            split at heq
            · cases heq
            · cases heq
              have ha : (t.staAid a).isNone = true :=
                List.find?_some (p := fun a => ((t.setSta i n).staAid a).isNone) hroom
              refine joined_inv ?_ hi
              exact assign_inv hset hi (by rw [hself]; omega) (Option.isNone_iff_eq_none.mp ha) rfl

theorem asocLeave_inv (i : ℕ) : TableInv aids (asocLeave t i).1 := by
  rw [asocLeave]
  split
  · rename_i hi
    have hremove := h.asocRemove i
    obtain ⟨b,hb⟩ := h.asocHashed i hi
    exact hremove.1.free ⟨b,(asocRemove_staHash t i).symm ▸ hb⟩ hremove.2
  · exact h

theorem onDeAuth_inv (ta : MacAddr) : TableInv aids (onDeAuth t ta).1 := by
  rw [onDeAuth]
  split
  · exact h
  · exact asocLeave_inv h _

theorem delStation_inv (mac : MacAddr) (keyPending : ℕ → Bool) : TableInv aids (delStation t mac keyPending).1 := by
  rw [delStation]
  split
  · exact h
  · exact asocLeave_inv h _

theorem ownSta_inv (hwaddr : MacAddr) : TableInv aids (ownSta t hwaddr).1 := by
  rw [ownSta]
  split
  · exact h
  · split
    · exact h
    · rename_i i u hu
      exact (h.alloc hu).1

end Handlers

/-- A loop over stations keeps what its body keeps, when the body does not touch what the
later stations need. -/
theorem forEachSta_induction (P : StaTable → List ℕ → Prop)
    {body : StaTable → ℕ → StaTable × List StaEffect}
    (keep : ∀ t i is, P t (i :: is) → P (body t i).1 is) {t : StaTable} {is : List ℕ} (h : P t is) :
    P (forEachSta body t is).1 [] := by
  have hfold : ∀ (is : List ℕ) (r : StaTable × List StaEffect), P r.1 is →
      P (is.foldl (fun r i => let q := body r.1 i; (q.1,r.2 ++ q.2)) r).1 [] := by
    intro is
    induction is with
    | nil => exact fun _ hp => hp
    | cons i is ih => exact fun r hp => ih _ (keep r.1 i is hp)
  exact hfold is (t,[]) h

theorem expireAuth_inv {aids : Prop} {t : StaTable} (h : TableInv aids t) {i : ℕ} (hi : i ∈ t.authList) :
    TableInv aids (expireAuth t i).1 ∧ ∀ j ∈ t.authList, j ≠ i → j ∈ (expireAuth t i).1.authList := by
  rw [expireAuth]
  dsimp only
  split
  · exact ⟨h,fun j hj _ => hj⟩
  · have hset := h.setSta (i := i) (n := { t.sta i with expireTo := (t.sta i).expireTo - 1 }) rfl
    split
    · have hremove := hset.authRemove i
      obtain ⟨b,hb⟩ := h.authHashed i hi
      refine ⟨hremove.1.free ⟨b,(authRemove_staHash _ i).symm ▸ hb⟩ ?_,?_⟩
      · rw [authRemove_asocList]
        exact fun hm => h.listsApart i hm hi
      · intro j hj hne
        rw [freeStainfo_authList, mem_authRemove _ _ hne, mem_authRemove _ _ hne]
        exact hj
    · exact ⟨hset,fun j hj _ => hj⟩

theorem expireAsoc_inv {aids : Prop} {t : StaTable} (h : TableInv aids t) (c : ExpireChk) (i : ℕ) :
    TableInv aids (expireAsoc c t i).1 := by
  rw [expireAsoc]
  generalize hn : (if c.alive i || decide ((t.sta i).expireTo = 0) then
    { t.sta i with expireTo := 3, keepAliveTrycnt := 0 }
    else { t.sta i with expireTo := (t.sta i).expireTo - 1 }) = n
  have haid : n.aid = (t.sta i).aid := by
    rw [← hn]
    split <;> rfl
  have hset := h.setSta haid
  have hself : ((t.setSta i n).sta i).aid = n.aid := congrArg StaNode.aid (Function.update_self ..)
  dsimp only
  split
  · exact hset
  · split
    · exact hset.setSta (n := { n with expireTo := 3 }) hself.symm
    · split
      · exact hset.setSta (n := { n with expireTo := 3, authSuccess := true }) hself.symm
      · split
        · exact hset
        · exact asocLeave_inv hset i

theorem expireAsocLoop_inv {aids : Prop} (c : ExpireChk) (is : List ℕ) {r : (StaTable × List StaEffect) × List ℕ}
    (h : TableInv aids r.1.1) :
    TableInv aids (is.foldl (fun r i =>
      let q := expireAsoc c r.1.1 i
      ((q.1,r.1.2 ++ q.2.1),if q.2.2 then r.2 ++ [i] else r.2)) r).1.1 := by
  induction is generalizing r with
  | nil => exact h
  | cons i is ih => exact ih (expireAsoc_inv h c i)

theorem expireKeepAlive_inv {aids : Prop} {t : StaTable} (h : TableInv aids t) (c : ExpireChk) (i : ℕ) :
    TableInv aids (expireKeepAlive c t i).1 := by
  rw [expireKeepAlive]
  split
  · exact h
  · exact h.setSta (n := { t.sta i with expireTo := 3, keepAliveTrycnt := 0 }) rfl
  · split
    · exact h.setSta (n := { t.sta i with expireTo := 1, keepAliveTrycnt := (t.sta i).keepAliveTrycnt + 1 }) rfl
    · exact asocLeave_inv (h.setSta (n := { t.sta i with keepAliveTrycnt := 0 }) rfl) i

theorem expireTimeoutChk_inv {aids : Prop} {t : StaTable} (h : TableInv aids t) (c : ExpireChk) :
    TableInv aids (expireTimeoutChk c t).1 := by
  have hauth : TableInv aids (forEachSta expireAuth t t.authList).1 := by
    refine (forEachSta_induction (fun t is => TableInv aids t ∧ is.Nodup ∧ ∀ i ∈ is, i ∈ t.authList) ?_
      ⟨h,h.authNodup,fun i hi => hi⟩).1
    rintro t i is ⟨hinv,hnodup,hmem⟩
    obtain ⟨hstep,hrest⟩ := expireAuth_inv hinv (hmem i List.mem_cons_self)
    rw [List.nodup_cons] at hnodup
    refine ⟨hstep,hnodup.2,?_⟩
    intro j hj
    exact hrest j (hmem j (List.mem_cons_of_mem _ hj)) fun hji => hnodup.1 (hji ▸ hj)
  rw [expireTimeoutChk]
  exact forEachSta_induction (fun t _ => TableInv aids t) (fun t i _ ht => expireKeepAlive_inv ht c i)
    (expireAsocLoop_inv c _ hauth)

/-- All stations of a list leave `asoc_list`. -/
theorem foldl_asocRemove (is : List ℕ) {aids : Prop} {t : StaTable} (h : TableInv aids t) :
    TableInv aids (is.foldl asocRemove t) ∧ (is.foldl asocRemove t).staHash = t.staHash ∧
      ∀ j ∈ (is.foldl asocRemove t).asocList, j ∈ t.asocList ∧ j ∉ is := by
  induction is generalizing t with
  | nil => exact ⟨h,rfl,fun j hj => ⟨hj,List.not_mem_nil⟩⟩
  | cons i is ih =>
    have hremove := h.asocRemove i
    obtain ⟨hinv,hhash,hmem⟩ := ih hremove.1
    refine ⟨hinv,hhash.trans (asocRemove_staHash t i),?_⟩
    intro j hj
    obtain ⟨hin,hout⟩ := hmem j hj
    have hji : j ≠ i := fun hji => hremove.2 (hji ▸ hin)
    refine ⟨?_,?_⟩
    · rw [asocRemove] at hin
      split at hin
      · exact List.mem_of_mem_erase hin
      · exact hin
    · rw [List.mem_cons]
      exact fun hm => hm.elim hji hout

theorem staFlush_inv {aids : Prop} {t : StaTable} (h : TableInv aids t) : TableInv aids (staFlush t).1 := by
  obtain ⟨hinv,hhash,hout⟩ := foldl_asocRemove t.asocList h
  rw [staFlush]
  refine (forEachSta_induction (fun t is => TableInv aids t ∧ is.Nodup ∧ ∀ i ∈ is, t.Hashed i ∧
    i ∉ t.asocList) ?_
    ⟨hinv,h.asocNodup,?_⟩).1
  · rintro t i is ⟨hinv,hnodup,hmem⟩
    have hi := hmem i List.mem_cons_self
    rw [List.nodup_cons] at hnodup
    refine ⟨hinv.free hi.1 hi.2,hnodup.2,?_⟩
    intro j hj
    have hjm := hmem j (List.mem_cons_of_mem _ hj)
    refine ⟨(hinv.hashed_freeStainfo i j).mpr ⟨hjm.1,fun hji => hnodup.1 (hji ▸ hj)⟩,?_⟩
    rw [apFreeSta, freeStainfo_asocList]
    exact hjm.2
  · intro i hi
    obtain ⟨b,hb⟩ := h.asocHashed i hi
    exact ⟨⟨b,hhash.symm ▸ hb⟩,fun hm => (hout i hm).2 hi⟩

/-- No association request is refused whose station has an AID. -/
def StaSafe (t : StaTable) : StaEvent → Prop
  | .assocReq f => f.tooShort = false → f.refusal.isSome → ∀ i ∈ t.getStainfo f.ta,
      (t.sta i).authSuccess || (t.sta i).assocSuccess → (t.sta i).aid = 0
  | _ => True

theorem staStep_inv {aids : Prop} {t : StaTable} (h : TableInv aids t) (e : StaEvent) (hsafe : aids → StaSafe t e) :
    TableInv aids (staStep t e).1 := by
  cases e with
  | own hwaddr => exact ownSta_inv h hwaddr
  | auth f => exact onAuth_inv h f
  | assocReq f =>
    rw [staStep, onAssocReq]
    split
    · exact h
    · rename_i hshort
      split
      · exact h
      · rename_i i hi
        exact onAssocReqSta_inv h f (hashed_of_getStainfo hi) fun hok hr => hsafe hok (by simpa using hshort) hr i hi
  | deauth ta => exact onDeAuth_inv h ta
  | delSta mac keyPending => exact delStation_inv h mac keyPending
  | flush => exact staFlush_inv h
  | expire c => exact expireTimeoutChk_inv h c
  | maxNumSta n =>
    exact ⟨h.toHashInv.congr rfl rfl rfl,h.toListInv.congr rfl rfl rfl rfl rfl,
      fun ha => (h.aid ha).congr rfl rfl fun _ => rfl⟩

/-- What is asked of the table: each object is free or in one bucket, a free one is on no list,
the counters are right, and an AID slot holds exactly the station in use with the AID. -/
structure TableSound (t : StaTable) : Prop where
  place : ∀ i < numSta, (t.freeStaQueue.count i = 1 ∧ ∀ b, i ∉ t.staHash b) ∨
    (i ∉ t.freeStaQueue ∧ ∃ b, (t.staHash b).count i = 1 ∧ ∀ c ≠ b, i ∉ t.staHash c)
  freed : ∀ i ∈ t.freeStaQueue, i ∉ t.asocList ∧ i ∉ t.authList
  asocListCnt : t.asocListCnt = t.asocList.length
  authListCnt : t.authListCnt = t.authList.length
  aid : ∀ a i, t.staAid a = some i ↔ t.Hashed i ∧ (t.sta i).aid = a + 1
  aidOne : ∀ i j, t.Hashed i → t.Hashed j → (t.sta i).aid ≠ 0 → (t.sta i).aid = (t.sta j).aid → i = j
  asocStaCount : t.asocStaCount = Set.ncard { i | t.Hashed i }

theorem StaTable.TableInv.sound {t : StaTable} (h : TableInv True t) : TableSound t where
  place i hi := by
    rcases (h.place i).mp hi with hf | ⟨b,hb⟩
    · exact Or.inl ⟨List.count_eq_one_of_mem h.freeNodup hf,fun b hb => h.apart i hf ⟨b,hb⟩⟩
    · refine Or.inr ⟨fun hf => h.apart i hf ⟨b,hb⟩,b,List.count_eq_one_of_mem (h.hashNodup b) hb,?_⟩
      exact fun c hc hm => hc (h.bucket i c b hm hb)
  freed i hi := ⟨fun hm => h.apart i hi (h.asocHashed i hm),fun hm => h.apart i hi (h.authHashed i hm)⟩
  asocListCnt := h.asocCnt
  authListCnt := h.authCnt
  aid := h.aid trivial
  aidOne i j hi hj hne heq := by
    obtain ⟨a,ha⟩ := Nat.exists_eq_succ_of_ne_zero hne
    have hia := (h.aid trivial a i).mpr ⟨hi,ha⟩
    have hja := (h.aid trivial a j).mpr ⟨hj,heq.symm.trans ha⟩
    exact Option.some.inj (hia.symm.trans hja)
  asocStaCount := by
    have hset : { i | t.Hashed i } = ↑(Finset.range numSta \ t.freeStaQueue.toFinset) := by
      ext i
      simp only [Set.mem_ofPred_eq, Finset.coe_sdiff, Finset.coe_range, List.coe_toFinset, Set.mem_sdiff, Set.mem_Iio]
      constructor
      · exact fun hi => ⟨(h.place i).mpr (Or.inr hi),fun hf => h.apart i hf hi⟩
      · rintro ⟨hlt,hf⟩
        exact ((h.place i).mp hlt).resolve_left hf
    have hsub : t.freeStaQueue.toFinset ⊆ Finset.range numSta := by
      intro i hi
      exact Finset.mem_range.mpr ((h.place i).mpr (Or.inl (List.mem_toFinset.mp hi)))
    have hlen := Finset.card_le_card hsub
    rw [hset, Set.ncard_coe_finset, Finset.card_sdiff_of_subset hsub]
    rw [List.toFinset_card_of_nodup h.freeNodup, Finset.card_range] at *
    have := h.count
    omega

/-- In every run in which no request of a station with an AID is refused, the station table is in
order after each event. -/
theorem station_table_sound (es : List StaEvent)
    (hsafe : ∀ past e, past ++ [e] <+: es → StaSafe (Run.run (fun t e => (staStep t e).1) .init past) e) :
    ∀ past, past <+: es → TableSound (Run.run (fun t e => (staStep t e).1) .init past) := by
  have hrun : ∀ past, past <+: es → TableInv True (Run.run (fun t e => (staStep t e).1) .init past) := by
    apply Run.prefix_induction
    · exact TableInv.init _
    · intro past e he ih
      rw [Run.run_append]
      exact staStep_inv ih e fun _ => hsafe past e he
  exact fun past hpast => (hrun past hpast).sound

/-- An open authentication, and a request with the given answer to its checks -/
def openAuth : AuthFrame := ⟨apAddr,0,1,false,.openSystem,false,true⟩
def someAssocReq (refusal : Option AssocRefusal) : AssocReq :=
  ⟨apAddr,false,refusal,⟨true,false,true,none,none⟩⟩

theorem station_table_sound_joined :
    TableSound (Run.run (fun t e => (staStep t e).1) .init
      [.own bcAddr,.auth openAuth,.assocReq (someAssocReq none),.deauth apAddr]) := by
  refine station_table_sound _ ?_ _ (List.prefix_refl _)
  intro past e hpre
  have he : e ∈ [StaEvent.own bcAddr,.auth openAuth,.assocReq (someAssocReq none),.deauth apAddr] :=
    hpre.subset (by simp)
  simp only [List.mem_cons, List.not_mem_nil, or_false] at he
  rcases he with rfl | rfl | rfl | rfl
  · trivial
  · trivial
  · exact nofun
  · trivial

/-- An associated station sends a second request with another SSID and then leaves: its AID
stays taken by an object that is free. -/
theorem refused_station_keeps_slot :
    ((Run.run (fun t e => (staStep t e).1) .init [.auth openAuth,.assocReq (someAssocReq none),
      .assocReq (someAssocReq (some .ssid)),.deauth apAddr]).staAid 0 = some 0 ∧
    0 ∈ (Run.run (fun t e => (staStep t e).1) .init [.auth openAuth,.assocReq (someAssocReq none),
      .assocReq (someAssocReq (some .ssid)),.deauth apAddr]).freeStaQueue) ∧
    ¬ TableSound (Run.run (fun t e => (staStep t e).1) .init [.auth openAuth,.assocReq (someAssocReq none),
      .assocReq (someAssocReq (some .ssid)),.deauth apAddr]) := by
  have hslot : (Run.run (fun t e => (staStep t e).1) .init [.auth openAuth,.assocReq (someAssocReq none),
      .assocReq (someAssocReq (some .ssid)),.deauth apAddr]).staAid 0 = some 0 := by decide
  have hfree : 0 ∈ (Run.run (fun t e => (staStep t e).1) .init [.auth openAuth,.assocReq (someAssocReq none),
      .assocReq (someAssocReq (some .ssid)),.deauth apAddr]).freeStaQueue := by decide
  refine ⟨⟨hslot,hfree⟩,fun h => ?_⟩
  obtain ⟨b,hb⟩ := ((h.aid 0 0).mp hslot).1
  rcases h.place 0 (by decide) with hp | hp
  · exact hp.2 b hb
  · exact hp.1 hfree

end Rtl8188fu
