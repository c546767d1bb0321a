import Rtl8188fu.Ap.StaTableRun

/-! # What the effects of a handler say about `asoc_list` -/
namespace Rtl8188fu

/-- How `asoc_list` changes while effects are reported; only a station that is not associated
is made anew. -/
inductive Tracks : List ℕ → List StaEffect → List ℕ → Prop
  | nil (l) : Tracks l [] l
  | fresh {l i es m} : i ∉ l → Tracks l es m → Tracks l (.fresh i :: es) m
  | join {l i caps es m} : Tracks (if i ∈ l then l else l ++ [i]) es m → Tracks l (.join i caps :: es) m
  | leave {l i es m} : Tracks (l.erase i) es m → Tracks l (.leave i :: es) m
  | qos {l i q es m} : Tracks l es m → Tracks l (.qos i q :: es) m
  | free {l i aid es m} : Tracks l es m → Tracks l (.free i aid :: es) m
  | poll {l i aid es m} : Tracks l es m → Tracks l (.poll i aid :: es) m
  | aging {l i es m} : Tracks l es m → Tracks l (.aging i :: es) m

theorem Tracks.append {l m n : List ℕ} {es fs : List StaEffect} (h : Tracks l es m) (hn : Tracks m fs n) :
    Tracks l (es ++ fs) n := by
  induction h with
  | nil l => exact hn
  | fresh hi _ ih => exact .fresh hi (ih hn)
  | join _ ih => exact .join (ih hn)
  | leave _ ih => exact .leave (ih hn)
  | qos _ ih => exact .qos (ih hn)
  | free _ ih => exact .free (ih hn)
  | poll _ ih => exact .poll (ih hn)
  | aging _ ih => exact .aging (ih hn)

theorem asocRemove_asocList (t : StaTable) (i : ℕ) : (t.asocRemove i).asocList = t.asocList.erase i := by
  rw [StaTable.asocRemove]
  split
  · rfl
  · rename_i hi
    exact (List.erase_of_not_mem hi).symm

theorem asocInsert_asocList (t : StaTable) (i : ℕ) :
    (t.asocInsert i).asocList = if i ∈ t.asocList then t.asocList else t.asocList ++ [i] := by
  rw [StaTable.asocInsert]
  split <;> rfl

section Handlers
variable (t : StaTable)

theorem onAuthSta_tracks (f : AuthFrame) (i : ℕ) :
    Tracks t.asocList (onAuthSta t f i).2 (onAuthSta t f i).1.asocList := by
  rw [onAuthSta]
  dsimp only
  split
  · rw [StaTable.freeStainfo_asocList]
    change Tracks _ _ (t.authInsert i).asocList
    rw [StaTable.authInsert_asocList]
    exact .free (.nil _)
  · change Tracks _ _ (t.authInsert i).asocList
    rw [StaTable.authInsert_asocList]
    exact .nil _

theorem onAssocReqSta_tracks (f : AssocReq) (i : ℕ) :
    Tracks t.asocList (onAssocReqSta t f i).2 (onAssocReqSta t f i).1.asocList := by
  rw [onAssocReqSta]
  dsimp only
  split
  · exact .nil _
  · generalize (if (t.sta i).authSuccess then { t.sta i with authSuccess := false, assocState := true }
      else { t.sta i with assocSuccess := false, assocState := true }) = n
    cases f.refusal with
    | some r =>
      change Tracks t.asocList (if r.beforeQos then [] else [.qos i f.caps.qosInfo]) t.asocList
      split
      · exact .nil _
      · exact .qos (.nil _)
    | none =>
      dsimp only
      split
      · exact .qos (.nil _)
      · rename_i new _
        rw [asocInsert_asocList, StaTable.authRemove_asocList]
        cases new <;> exact .qos (.join (.nil _))

theorem asocLeave_tracks (i : ℕ) : Tracks t.asocList (asocLeave t i).2 (asocLeave t i).1.asocList := by
  rw [asocLeave]
  split
  · rw [StaTable.apFreeSta, StaTable.freeStainfo_asocList, asocRemove_asocList]
    exact .leave (.free (.nil _))
  · exact .nil _

theorem onDeAuth_tracks (ta : MacAddr) : Tracks t.asocList (onDeAuth t ta).2 (onDeAuth t ta).1.asocList := by
  rw [onDeAuth]
  split
  · exact .nil _
  · exact asocLeave_tracks t _

theorem delStation_tracks (mac : MacAddr) (keyPending : ℕ → Bool) :
    Tracks t.asocList (delStation t mac keyPending).2 (delStation t mac keyPending).1.asocList := by
  rw [delStation]
  split
  · exact .nil _
  · exact asocLeave_tracks t _

theorem expireAuth_tracks (i : ℕ) : Tracks t.asocList (expireAuth t i).2 (expireAuth t i).1.asocList := by
  rw [expireAuth]
  dsimp only
  split
  · exact .nil _
  · split
    · rw [StaTable.freeStainfo_asocList, StaTable.authRemove_asocList]
      exact .free (.nil _)
    · exact .nil _

theorem expireAsoc_tracks (c : ExpireChk) (i : ℕ) :
    Tracks t.asocList (expireAsoc c t i).2.1 (expireAsoc c t i).1.asocList := by
  rw [expireAsoc]
  generalize (if c.alive i || decide ((t.sta i).expireTo = 0) then
    { t.sta i with expireTo := 3, keepAliveTrycnt := 0 }
    else { t.sta i with expireTo := (t.sta i).expireTo - 1 }) = n
  dsimp only
  split
  · exact .aging (.nil _)
  · split
    · exact .nil _
    · split
      · exact .poll (.nil _)
      · split
        · exact .nil _
        · exact asocLeave_tracks (t.setSta i _) i

theorem expireKeepAlive_tracks (c : ExpireChk) (i : ℕ) :
    Tracks t.asocList (expireKeepAlive c t i).2 (expireKeepAlive c t i).1.asocList := by
  rw [expireKeepAlive]
  split
  · exact .nil _
  · exact .nil _
  · split
    · exact .nil _
    · exact asocLeave_tracks (t.setSta i _) i

end Handlers

theorem forEachSta_tracks {body : StaTable → ℕ → StaTable × List StaEffect}
    (h : ∀ t i, Tracks t.asocList (body t i).2 (body t i).1.asocList) (t : StaTable) (is : List ℕ) :
    Tracks t.asocList (forEachSta body t is).2 (forEachSta body t is).1.asocList := by
  have hfold : ∀ (r : StaTable × List StaEffect), Tracks t.asocList r.2 r.1.asocList →
      let q := is.foldl (fun r i => let q := body r.1 i; (q.1,r.2 ++ q.2)) r
      Tracks t.asocList q.2 q.1.asocList := by
    induction is with
    | nil => exact fun r hr => hr
    | cons i is ih => exact fun r hr => ih _ (hr.append (h r.1 i))
  exact hfold (t,[]) (.nil _)

theorem expireAsocLoop_tracks (c : ExpireChk) (t : StaTable) (is : List ℕ) :
    Tracks t.asocList (expireAsocLoop c t is).1.2 (expireAsocLoop c t is).1.1.asocList := by
  have hfold : ∀ (r : (StaTable × List StaEffect) × List ℕ), Tracks t.asocList r.1.2 r.1.1.asocList →
      let q := is.foldl (fun r i =>
        let q := expireAsoc c r.1.1 i
        ((q.1,r.1.2 ++ q.2.1),if q.2.2 then r.2 ++ [i] else r.2)) r
      Tracks t.asocList q.1.2 q.1.1.asocList := by
    induction is with
    | nil => exact fun r hr => hr
    | cons i is ih => exact fun r hr => ih _ (hr.append (expireAsoc_tracks r.1.1 c i))
  exact hfold ((t,[]),[]) (.nil _)

theorem expireTimeoutChk_tracks (c : ExpireChk) (t : StaTable) :
    Tracks t.asocList (expireTimeoutChk c t).2 (expireTimeoutChk c t).1.asocList := by
  have hauth := forEachSta_tracks expireAuth_tracks t t.authList
  have hasoc := expireAsocLoop_tracks c (forEachSta expireAuth t t.authList).1
    (forEachSta expireAuth t t.authList).1.asocList
  exact (hauth.append hasoc).append (forEachSta_tracks (fun t i => expireKeepAlive_tracks t c i) _ _)

/-- Stations that have left `asoc_list` are freed one after the other. -/
theorem forEachSta_apFreeSta_tracks (t : StaTable) (is : List ℕ) :
    (forEachSta StaTable.apFreeSta t is).1.asocList = t.asocList ∧
      Tracks is (forEachSta StaTable.apFreeSta t is).2 [] := by
  have hfold : ∀ (is l : List ℕ) (r : StaTable × List StaEffect), Tracks l r.2 is →
      let q := is.foldl (fun r i => let q := StaTable.apFreeSta r.1 i; (q.1,r.2 ++ q.2)) r
      q.1.asocList = r.1.asocList ∧ Tracks l q.2 [] := by
    intro is
    induction is with
    | nil => exact fun l r hr => ⟨rfl,hr⟩
    | cons i is ih =>
      intro l r hr
      have hi : Tracks (i :: is) (r.1.apFreeSta i).2 is := by
        refine .leave ?_
        rw [List.erase_cons_head]
        exact .free (.nil _)
      obtain ⟨hlist,htracks⟩ := ih l ((r.1.apFreeSta i).1,r.2 ++ (r.1.apFreeSta i).2) (hr.append hi)
      exact ⟨hlist.trans (StaTable.freeStainfo_asocList r.1 i),htracks⟩
  exact hfold is is (t,[]) (.nil _)

theorem staFlush_tracks {aids : Prop} {t : StaTable} (h : StaTable.TableInv aids t) :
    Tracks t.asocList (staFlush t).2 (staFlush t).1.asocList := by
  obtain ⟨hlist,htracks⟩ := forEachSta_apFreeSta_tracks (t.asocList.foldl StaTable.asocRemove t) t.asocList
  have hempty : (t.asocList.foldl StaTable.asocRemove t).asocList = [] := by
    refine List.eq_nil_iff_forall_not_mem.mpr fun j hj => ?_
    have hout := (foldl_asocRemove t.asocList h).2.2 j hj
    exact hout.2 hout.1
  rw [staFlush, hlist, hempty]
  exact htracks

/-- `asoc_list` at the time of the first effect of a handler: `OnAuth` takes a known station
off the list. -/
def asocListIn (t : StaTable) : StaEvent → List ℕ
  | .auth f => if f.badAlg || !f.allowed then t.asocList else (t.getStainfo f.sa).elim t.asocList t.asocList.erase
  | _ => t.asocList

theorem staStep_tracks {aids : Prop} {t : StaTable} (h : StaTable.TableInv aids t) (e : StaEvent) :
    Tracks (asocListIn t e) (staStep t e).2 (staStep t e).1.asocList := by
  cases e with
  | own hwaddr =>
    simp only [staStep, ownSta, asocListIn]
    split
    · exact .nil _
    · split
      · exact .nil _
      · rename_i i u hu
        have hnew := h.alloc hu
        have hlist : u.asocList = t.asocList := by
          rw [StaTable.allocStainfo] at hu
          split at hu
          · cases hu
          · cases hu
            rfl
        exact .fresh (hlist ▸ hnew.2.2.1) (hlist ▸ .nil _)
  | auth f =>
    simp only [staStep, onAuth, asocListIn]
    split
    · exact .nil _
    · cases hi : t.getStainfo f.sa with
      | some i =>
        have htracks := onAuthSta_tracks (t.asocRemove i) f i
        rw [asocRemove_asocList] at htracks
        exact htracks
      | none =>
        cases hu : t.allocStainfo f.sa with
        | none => exact .nil _
        | some r =>
          obtain ⟨i,u⟩ := r
          have hnew := h.alloc hu
          have hlist : u.asocList = t.asocList := by
            rw [StaTable.allocStainfo] at hu
            split at hu
            · cases hu
            · cases hu
              rfl
          have htracks := onAuthSta_tracks (u.setSta i { u.sta i with authNull := true, authSeq := 0 }) f i
          exact .fresh (hlist ▸ hnew.2.2.1) (hlist ▸ htracks)
  | assocReq f =>
    simp only [staStep, onAssocReq, asocListIn]
    split
    · exact .nil _
    · split
      · exact .nil _
      · exact onAssocReqSta_tracks t f _
  | deauth ta => exact onDeAuth_tracks t ta
  | delSta mac keyPending => exact delStation_tracks t mac keyPending
  | flush => exact staFlush_tracks h
  | expire c => exact expireTimeoutChk_tracks c t
  | maxNumSta n => exact .nil _

end Rtl8188fu
