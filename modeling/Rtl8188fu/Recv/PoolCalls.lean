import Rtl8188fu.Recv.PoolOwned

/-! # Which calls keep the frame objects

What each function of the receive path takes from the hands of the code and leaves there.
The conditions say of a function that it does not take one of its branches that free an
object twice or drop it.
-/
namespace Rtl8188fu
open Placement

/-- Whether handing on a frame ends with the frame object in the free queue -/
def Effect.givesBack : Effect → Bool
  | .forget _ => false
  | _ => true

/-- The frame `g` is indicated, or a failure is reported and `g` is the frame that
`recv_func_posthandle` then frees. -/
def IndicateSafe (ad : Adapter) (q : RxQueues) (orig g : RecvFrame) : Prop :=
  if ad.htOption then
    let r := recvIndicatepktReorder ad.cannotRun ((q g.preorderCtrl.1).recvreorderCtrl g.preorderCtrl.2) g
    if r.1 = .success then r.2.2.all (·.givesBack) = true else ad.cannotRun = false ∧ g.id = orig.id
  else (wlanhdrToEthhdr g).isSome ∧ ad.cannotRun = false ∨ g.id = orig.id

instance (ad : Adapter) (q : RxQueues) (orig g : RecvFrame) : Decidable (IndicateSafe ad q orig g) := by
  delta IndicateSafe
  infer_instance

theorem released_handOn {es : List Effect} (h : es.all (·.givesBack)) :
    (es.map RxAct.handOn).flatMap RxAct.released = es.map (·.frame.id) := by
  induction es with
  | nil => rfl
  | cons e es ih =>
    obtain ⟨he,hes⟩ := Bool.and_eq_true_iff.mp h
    rw [List.map_cons, List.flatMap_cons, ih hes, List.map_cons]
    cases e with
    | indicate f => rfl
    | amsduToMsdu f => rfl
    | forget f => cases he

theorem released_free (fs : List RecvFrame) : (fs.map RxAct.free).flatMap RxAct.released = objs fs := by
  induction fs with
  | nil => rfl
  | cons f fs ih =>
    rw [List.map_cons, List.flatMap_cons, ih]
    rfl

theorem chkDefrag_passes (ad : Adapter) (q : RxQueues) (f : RecvFrame) :
    Passes q [f.id] (chkDefrag ad q f).1
      ((chkDefrag ad q f).2.2.flatMap RxAct.released ++ objs (chkDefrag ad q f).2.1.toList) := by
  obtain ⟨hsome,hperm⟩ := recvframeChkDefrag_perm (rxMicKey ad.sec ad.stapriv)
    ((defragOwner ad f).map fun a => (q a).defragQ) f
  unfold chkDefrag
  dsimp only
  rw [released_free]
  cases howner : defragOwner ad f with
  | none =>
    rw [howner] at hsome hperm
    refine Passes.perm ?_
    simpa [Option.not_isSome_iff_eq_none.mp (by simpa using hsome), objs] using hperm
  | some a =>
    rw [howner] at hsome hperm
    obtain ⟨d,hd⟩ := Option.isSome_iff_exists.mp hsome
    simp only [Option.map_some] at hd hperm ⊢
    rw [hd] at hperm ⊢
    exact Passes.setDefragQ hperm

/-- What `process_recv_indicatepkts` gives back, with what the caller frees on a failure -/
theorem processRecvIndicatepkts_passes {ad : Adapter} {q : RxQueues} {orig g : RecvFrame}
    (h : IndicateSafe ad q orig g) :
    Passes q [g.id] (processRecvIndicatepkts ad q g).2.1
      (((processRecvIndicatepkts ad q g).2.2.map RxAct.handOn).flatMap RxAct.released ++
        if (processRecvIndicatepkts ad q g).1 ≠ .success then [orig.id] else []) := by
  unfold IndicateSafe at h
  unfold processRecvIndicatepkts
  cases hht : ad.htOption with
  | true =>
    simp only [hht, ↓reduceIte] at h ⊢
    have hc := recvIndicatepktReorder_conserves ad.cannotRun
      ((q g.preorderCtrl.1).recvreorderCtrl g.preorderCtrl.2) g
    rcases hr : recvIndicatepktReorder ad.cannotRun
      ((q g.preorderCtrl.1).recvreorderCtrl g.preorderCtrl.2) g with ⟨st,c,es⟩
    rw [hr] at h hc
    dsimp only at h ⊢
    rcases hc.status with hst | hst
    · cases hst
      have hperm := hc.success rfl
      simp only [ne_eq, not_true_eq_false, false_and, ↓reduceIte, List.append_nil] at h ⊢
      rw [released_handOn h]
      exact Passes.setReorderCtrl hperm
    · cases hst
      rw [if_neg nofun] at h
      obtain ⟨hpend,hes⟩ := hc.fail rfl
      obtain ⟨hrun,hid⟩ := h
      dsimp only at hpend hes
      subst hes
      simp only [hrun, ne_eq, reduceCtorEq, not_false_eq_true, Bool.not_false, and_self, ↓reduceIte,
        List.map_nil, List.flatMap_nil, List.nil_append, hid]
      refine Passes.setReorderCtrl ?_
      rw [hpend]
  | false =>
    simp only [hht, Bool.false_eq_true, ↓reduceIte] at h ⊢
    cases hconv : wlanhdrToEthhdr g with
    | none =>
      have hid : g.id = orig.id := by simpa [hconv] using h
      exact Passes.perm (by simp [hid])
    | some e =>
      cases hrun : ad.cannotRun with
      | false =>
        refine Passes.perm ?_
        simp [RxAct.released, Effect.frame, (wlanhdrToEthhdr_frame hconv).1]
      | true =>
        have hid : g.id = orig.id := by simpa [hrun] using h
        exact Passes.perm (by simp [hid])

/-- The frame that `recvframe_chk_defrag` returns passes the port only if it can be indicated. -/
def PosthandleSafe (L : RxLeaves) (ad : Adapter) (q : RxQueues) (f : RecvFrame) : Prop :=
  let d := L.decryptor ad f
  d.1 ≠ .fail →
    ∀ g ∈ (chkDefrag ad q d.2).2.1, portctrl ad g → IndicateSafe ad (chkDefrag ad q d.2).1 f g

instance (L : RxLeaves) (ad : Adapter) (q : RxQueues) (f : RecvFrame) : Decidable (PosthandleSafe L ad q f) := by
  delta PosthandleSafe
  infer_instance

theorem posthandleDecrypted_passes {ad : Adapter} {q : RxQueues} {orig f : RecvFrame}
    (h : ∀ g ∈ (chkDefrag ad q f).2.1, portctrl ad g → IndicateSafe ad (chkDefrag ad q f).1 orig g) :
    Passes q [f.id] (posthandleDecrypted ad q orig f).1
      ((posthandleDecrypted ad q orig f).2.flatMap RxAct.released) := by
  have hchk := chkDefrag_passes ad q f
  unfold posthandleDecrypted
  rcases hd : chkDefrag ad q f with ⟨r,out,acts⟩
  rw [hd] at hchk h
  dsimp only at hchk h ⊢
  cases out with
  | none => simpa [objs] using hchk
  | some g =>
    have hg : Passes q [f.id] r ([g.id] ++ acts.flatMap RxAct.released) :=
      hchk.trans (Passes.perm List.perm_append_comm)
    dsimp only
    cases hport : portctrl ad g with
    | false =>
      simpa [RxAct.released, objs] using hchk
    | true =>
      have hind := (processRecvIndicatepkts_passes (h g rfl hport)).append (acts.flatMap RxAct.released)
      refine hg.trans ?_
      simp only [Bool.not_true, Bool.false_eq_true, ↓reduceIte]
      split
      · rename_i hst
        simp only [if_pos hst] at hind
        refine hind.trans (Passes.perm ?_)
        simp only [List.flatMap_append, List.flatMap_cons, List.flatMap_nil, RxAct.released,
          List.nil_append, List.append_nil, List.append_assoc]
        exact (List.perm_append_comm_assoc _ _ _).trans (List.perm_append_comm.append_left _)
      · rename_i hst
        simp only [if_neg hst, List.append_nil] at hind
        refine hind.trans (Passes.perm ?_)
        simp only [List.flatMap_append, List.flatMap_cons, RxAct.released, List.nil_append]
        exact List.perm_append_comm

theorem Owned.carryOut {s : RecvPriv} {hand inp : List ℕ} {r : RxQueues × List RxAct}
    (h : Owned s (inp ++ hand)) (hr : Passes s.queues inp r.1 (r.2.flatMap RxAct.released)) :
    Owned (s.carryOut r) hand :=
  (hr s hand rfl h).acts

theorem Owned.posthandle {L : RxLeaves} {ad : Adapter} {s : RecvPriv} {f : RecvFrame} {hand : List ℕ}
    (h : Owned s (f.id :: hand)) (hsafe : PosthandleSafe L ad s.queues f) :
    Owned (s.posthandle L ad f) hand := by
  refine Owned.carryOut (show Owned s ([f.id] ++ hand) from h) ?_
  unfold recvFuncPosthandle
  dsimp only
  split
  · exact Passes.perm (List.Perm.refl _)
  · rename_i hd
    have := posthandleDecrypted_passes (hsafe hd)
    rwa [L.decryptor_id] at this

/-- The loop over the frames that wait for a key -/
def DrainSafe (L : RxLeaves) (ad : Adapter) : ℕ → RecvPriv → Prop
  | 0, _ => True
  | n + 1, s =>
    match s.ucSwdecPendingQueue with
    | [] => True
    | f :: q =>
      PosthandleSafe L ad s.queues f ∧
        DrainSafe L ad n ({ s with ucSwdecPendingQueue := q }.posthandle L ad f)

instance DrainSafe.decidable (L : RxLeaves) (ad : Adapter) :
    ∀ (n : ℕ) (s : RecvPriv), Decidable (DrainSafe L ad n s)
  | 0, _ => .isTrue trivial
  | n + 1, s => by
    unfold DrainSafe
    have := DrainSafe.decidable L ad n
    split <;> infer_instance

theorem Owned.takeSwdec {s : RecvPriv} {hand : List ℕ} {f : RecvFrame} {q : List RecvFrame} (h : Owned s hand)
    (hq : s.ucSwdecPendingQueue = f :: q) :
    Owned { s with ucSwdecPendingQueue := q } (f.id :: hand) := by
  refine h.exchange .swdec ?_ ?_ h.count
  · change ((f.id :: hand) ++ objs q).Perm (hand ++ objs s.ucSwdecPendingQueue)
    rw [hq]
    exact List.perm_middle.symm
  · rintro (_ | _ | b | ⟨b,tid⟩) hb
    · rfl
    · exact absurd rfl hb
    · rfl
    · rfl

theorem Owned.drainSwdec {L : RxLeaves} {ad : Adapter} {n : ℕ} {s : RecvPriv} {hand : List ℕ} (h : Owned s hand)
    (hsafe : DrainSafe L ad n s) : Owned (drainSwdec L ad n s) hand := by
  induction n generalizing s with
  | zero => exact h
  | succ n ih =>
    unfold Rtl8188fu.drainSwdec
    unfold DrainSafe at hsafe
    cases hq : s.ucSwdecPendingQueue with
    | nil => exact h
    | cons f q =>
      simp only [hq] at hsafe ⊢
      exact ih ((h.takeSwdec hq).posthandle hsafe.1) hsafe.2

theorem Owned.enqueueSwdec {s : RecvPriv} {f : RecvFrame} {hand : List ℕ} (h : Owned s (f.id :: hand)) :
    Owned (enqueueSwdec s f) hand := by
  have hnodup := List.nodup_cons.mp h.hand_nodup
  refine ⟨h.once.relocate (some .swdec) f.id ?_ ?_,?_⟩
  · change objs (s.ucSwdecPendingQueue.filter (·.id ≠ f.id) ++ [f]) = _
    rw [objs, List.map_append]
    exact congrArg (· ++ [f.id]) (objs_filter _ _)
  · rintro (_ | p) hp
    · change hand = (f.id :: hand).filter (· ≠ f.id)
      rw [List.filter_cons_of_neg (by simp), filter_ne_of_not_mem hnodup.1]
    · change (Rtl8188fu.enqueueSwdec s f).content p = (s.content p).filter (· ≠ f.id)
      rw [← unlink_content s f.id p]
      cases p with
      | free => rfl
      | swdec => exact absurd rfl hp
      | defrag a => rfl
      | reorder a tid => rfl
  · change s.freeRecvframeCnt = ((s.freeRecvQueue.filter (· ≠ f.id)).length : ℤ)
    rw [filter_ne_of_not_mem (h.not_free List.mem_cons_self), h.count]

/-- A station without fragments is freed: the objects of its reorder queues are given back. -/
theorem rtwFreeStainfo_passes {q : RxQueues} {a : MacAddr} (h : (q a).defragQ = []) :
    Passes q [] (rtwFreeStainfo q a).1 ((rtwFreeStainfo q a).2.flatMap RxAct.released) := by
  rintro s hand rfl hs
  have hps : ((List.finRange 16).map fun tid => some (Place.reorder a tid)).Nodup := by
    refine (List.nodup_finRange 16).map ?_
    intro t t' ht
    cases ht
    rfl
  refine ⟨(hs.once.gather hps (q := none) (by simp)).perm ?_,hs.count⟩
  have hreleased : (rtwFreeStainfo s.queues a).2.flatMap RxAct.released =
      (List.finRange 16).flatMap fun tid => objs ((s.queues a).recvreorderCtrl tid).pending := by
    rw [rtwFreeStainfo, released_free, objs, List.map_flatMap]
    rfl
  rintro (_ | _ | _ | b | ⟨b,tid⟩)
  · rw [hreleased]
    simp [RecvPriv.held, RecvPriv.content, List.flatMap_map]
  · simp [RecvPriv.held, RecvPriv.content]
  · simp [RecvPriv.held, RecvPriv.content]
  · rcases eq_or_ne b a with rfl | hba
    · simp [RecvPriv.held, RecvPriv.content, rtwFreeStainfo, h]
    · simp [RecvPriv.held, RecvPriv.content, rtwFreeStainfo, hba]
  · rcases eq_or_ne b a with rfl | hba
    · simp [RecvPriv.held, RecvPriv.content, rtwFreeStainfo, objs]
    · simp [RecvPriv.held, RecvPriv.content, rtwFreeStainfo, hba, Ne.symm hba]

theorem freeStainfos_passes {q : RxQueues} {as : List MacAddr} (h : ∀ a ∈ as, (q a).defragQ = []) :
    Passes q [] (freeStainfos q as).1 ((freeStainfos q as).2.flatMap RxAct.released) := by
  induction as generalizing q with
  | nil => exact Passes.perm (List.Perm.refl _)
  | cons a as ih =>
    have hkeep : ∀ b ∈ as, ((rtwFreeStainfo q a).1 b).defragQ = [] := by
      intro b hb
      rcases eq_or_ne b a with rfl | hba
      · simp [rtwFreeStainfo]
      · simpa [rtwFreeStainfo, hba] using h b (List.mem_cons_of_mem _ hb)
    have hrest := (ih hkeep).append ((rtwFreeStainfo q a).2.flatMap RxAct.released)
    refine ((rtwFreeStainfo_passes (h a List.mem_cons_self)).trans hrest).trans (Passes.perm ?_)
    rw [freeStainfos, List.flatMap_append]
    exact List.perm_append_comm

theorem setDefragQ_self (q : RxQueues) (a : MacAddr) : setDefragQ q a (q a).defragQ = q :=
  Function.update_eq_self a q

theorem chkDefrag_whole {ad : Adapter} {q : RxQueues} {f g : RecvFrame} (hm : f.attrib.mfrag = false)
    (hn : f.attrib.fragNum = 0) (hg : (chkDefrag ad q f).2.1 = some g) :
    (chkDefrag ad q f).1 = q ∧ (chkDefrag ad q f).2.2 = [] ∧ g.id = f.id := by
  have hrec : ∀ chk : RecvFrame → Status × RecvFrame, (∀ f, (chk f).2.id = f.id) → ∀ d,
      (recvframeChkDefrag chk d f).out = some g →
      (recvframeChkDefrag chk d f).queue = d ∧ (recvframeChkDefrag chk d f).freed = [] ∧ g.id = f.id := by
    intro chk hchk d hout
    have hqueue : chkDefragQueue d f = ⟨d,some f,[],[]⟩ := by
      unfold chkDefragQueue
      rw [hm, hn]
    unfold recvframeChkDefrag at hout ⊢
    simp only [hqueue] at hout ⊢
    split_ifs at hout ⊢
    · cases hout
      exact ⟨rfl,rfl,hchk f⟩
    · cases hout
      exact ⟨rfl,rfl,rfl⟩
  obtain ⟨hq,hfreed,hid⟩ := hrec _ (recvframeChkmic_id _) _ hg
  refine ⟨?_,?_,hid⟩
  · unfold chkDefrag
    dsimp only
    rw [hq]
    cases defragOwner ad f with
    | none => rfl
    | some a => exact setDefragQ_self q a
  · exact congrArg (List.map RxAct.free) hfreed

theorem chkDefrag_queued {ad : Adapter} {q : RxQueues} {f : RecvFrame} {a : MacAddr} (hm : f.attrib.mfrag = true)
    (ha : defragOwner ad f = some a) :
    (chkDefrag ad q f).2.1 = none ∧ f ∈ ((chkDefrag ad q f).1 a).defragQ := by
  have hqueue : ∃ d, (chkDefragQueue (some (q a).defragQ) f).queue = some d ∧ f ∈ d ∧
      (chkDefragQueue (some (q a).defragQ) f).out = none := by
    unfold chkDefragQueue
    rw [hm]
    dsimp only
    split
    · exact ⟨_,rfl,List.mem_singleton_self f,rfl⟩
    · exact ⟨_,rfl,List.mem_append_right _ (List.mem_singleton_self f),rfl⟩
  obtain ⟨d,hd,hmem,hout⟩ := hqueue
  unfold chkDefrag recvframeChkDefrag
  simp only [ha, Option.map_some, hout, hd]
  exact ⟨trivial,by simpa [setDefragQ] using hmem⟩

/-- Objects are given back and then one that is in a queue. -/
theorem Owned.actsQueued {s : RecvPriv} {hand : List ℕ} {acts : List RxAct} {p : Place} {f : RecvFrame}
    (h : Owned s (acts.flatMap RxAct.released ++ hand)) (hp : p ≠ .free) (hf : f.id ∈ s.content p) :
    Owned ((acts ++ [RxAct.free f]).foldl RecvPriv.act s) hand := by
  have hnot : f.id ∉ acts.flatMap RxAct.released ++ hand := by
    intro hmem
    cases h.once.apart (p := none) (q := some p) hmem hf
  rw [List.mem_append, not_or] at hnot
  have hin := mem_content_acts hf hnot.1
  have hfree : f.id ∉ (acts.foldl RecvPriv.act s).freeRecvQueue := by
    intro hmem
    have := h.acts.once.apart (p := some .free) (q := some p) hmem hin
    exact hp (Option.some.inj this).symm
  have hown := h.acts.rtwFree hfree
  rw [filter_ne_of_not_mem hnot.2] at hown
  rw [List.foldl_append]
  exact hown

/-- `recvframe_chk_defrag` queues a management frame or returns it as it is, and the
dispatcher frees no station that has fragments waiting. -/
def MgmtSafe (L : RxLeaves) (ad : Adapter) (q : RxQueues) (f : RecvFrame) : Prop :=
  if f.attrib.mfrag then (defragOwner ad f).isSome = true
  else f.attrib.fragNum = 0 ∧ (chkDefrag ad q f).2.1.isSome ∧
    ∀ g ∈ (chkDefrag ad q f).2.1, ∀ a ∈ L.mgtDispatcher ad g, (q a).defragQ = []

instance (L : RxLeaves) (ad : Adapter) (q : RxQueues) (f : RecvFrame) : Decidable (MgmtSafe L ad q f) := by
  delta MgmtSafe
  infer_instance

/-- `validate_recv_mgnt_frame` and then `rtw_free_recvframe` in `recv_func_prehandle` -/
theorem Owned.mgntFrame {L : RxLeaves} {ad : Adapter} {s : RecvPriv} {f g : RecvFrame} {hand : List ℕ}
    (h : Owned s (f.id :: hand)) (hg : g.id = f.id) (hsafe : MgmtSafe L ad s.queues f) :
    Owned (s.carryOut ((validateRecvMgntFrame L ad s.queues f).1,
      (validateRecvMgntFrame L ad s.queues f).2 ++ [.free g])) hand := by
  unfold MgmtSafe at hsafe
  unfold validateRecvMgntFrame
  have hchk := chkDefrag_passes ad s.queues f
  cases hm : f.attrib.mfrag with
  | true =>
    obtain ⟨a,ha⟩ := Option.isSome_iff_exists.mp (by simpa [hm] using hsafe)
    obtain ⟨hout,hmem⟩ := chkDefrag_queued (q := s.queues) hm ha
    simp only [hout, Option.toList_none, objs, List.map_nil, List.append_nil] at hchk ⊢
    refine (hchk s hand rfl h).actsQueued (p := .defrag a) (by simp) ?_
    rw [hg]
    exact List.mem_map_of_mem hmem
  | false =>
    rw [hm, if_neg Bool.false_ne_true] at hsafe
    obtain ⟨hn,hsome,hstas⟩ := hsafe
    obtain ⟨x,hx⟩ := Option.isSome_iff_exists.mp hsome
    obtain ⟨hq,hacts,hid⟩ := chkDefrag_whole hm hn hx
    simp only [hx, hq, hacts, List.nil_append]
    refine Owned.carryOut (show Owned s ([f.id] ++ hand) from h) ?_
    have hfree := (freeStainfos_passes (hstas x hx)).append [f.id]
    simpa [RxAct.released, hg] using hfree

theorem validate80211wMgmt_id {dec : RecvFrame → Status × RecvFrame} (hdec : ∀ f, (dec f).2.id = f.id)
    (bip : RecvFrame → Status) (sec : SecurityPriv) (stapriv : StaPriv) (f : RecvFrame) :
    (validate80211wMgmt dec bip sec stapriv f).frame.id = f.id := by
  have hremove : (removeMgmtIv (dec (mgmtSecurityAttrib f)).2).id = f.id := hdec _
  unfold validate80211wMgmt
  dsimp only
  split_ifs <;> first | rfl | exact hremove

theorem mgmt80211w_id (L : RxLeaves) (ad : Adapter) (f : RecvFrame) : (mgmt80211w L ad f).frame.id = f.id := by
  unfold mgmt80211w
  split
  · exact validate80211wMgmt_id (L.decryptor_id ad) _ _ _ f
  · rfl

end Rtl8188fu
