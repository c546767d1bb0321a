import Rtl8188fu.Recv.Pool

/-! # Every frame object is in one place

The places of frame objects between two calls are the free queue and the queues that hold
received frames; during a call some are also in the hands of the code. Each step moves
objects between the hands and one of the lists.
-/
namespace Rtl8188fu
open Placement

inductive Place
  | free
  | swdec
  | defrag (a : MacAddr)
  | reorder (a : MacAddr) (tid : Fin 16)
  deriving DecidableEq

/-- The frame objects of a list of frames -/
def objs (fs : List RecvFrame) : List ℕ := fs.map (·.id)

/-- What is in a place, in order -/
def RecvPriv.content (s : RecvPriv) : Place → List ℕ
  | .free => s.freeRecvQueue
  | .swdec => objs s.ucSwdecPendingQueue
  | .defrag a => objs (s.queues a).defragQ
  | .reorder a tid => objs ((s.queues a).recvreorderCtrl tid).pending

/-- The places and, under `none`, the hands of the code -/
def RecvPriv.held (s : RecvPriv) (hand : List ℕ) : Option Place → List ℕ
  | none => hand
  | some p => s.content p

structure Owned (s : RecvPriv) (hand : List ℕ) : Prop where
  once : Once {i | i < NR_RECVFRAME} (s.held hand)
  count : s.freeRecvframeCnt = s.freeRecvQueue.length

theorem Owned.hand_nodup {s : RecvPriv} {hand : List ℕ} (h : Owned s hand) : hand.Nodup := h.once.nodup none

theorem Owned.not_free {s : RecvPriv} {hand : List ℕ} (h : Owned s hand) {i : ℕ} (hi : i ∈ hand) :
    i ∉ s.freeRecvQueue := by
  intro hf
  have := h.once.apart (p := none) (q := some .free) hi hf
  cases this

theorem objs_filter (fs : List RecvFrame) (i : ℕ) :
    objs (fs.filter (·.id ≠ i)) = (objs fs).filter (· ≠ i) := by
  simp only [objs, List.filter_map]
  rfl

theorem unlink_content (s : RecvPriv) (i : ℕ) (p : Place) :
    (s.unlink i).content p = (s.content p).filter (· ≠ i) := by
  cases p with
  | free => rfl
  | swdec => exact objs_filter _ _
  | defrag a => exact objs_filter _ _
  | reorder a tid => exact objs_filter _ _

theorem filter_ne_of_not_mem {l : List ℕ} {i : ℕ} (h : i ∉ l) : l.filter (· ≠ i) = l := by
  refine List.filter_eq_self.mpr ?_
  rintro j hj
  simp only [ne_eq, decide_not, Bool.not_eq_eq_eq_not, Bool.not_true, decide_eq_false_iff_not]
  rintro rfl
  exact h hj

theorem Owned.rtwFree {s : RecvPriv} {hand : List ℕ} (h : Owned s hand) {i : ℕ}
    (hi : i ∉ s.freeRecvQueue) : Owned (rtwFreeRecvframe s i) (hand.filter (· ≠ i)) := by
  refine ⟨h.once.relocate (some .free) i rfl ?_,?_⟩
  · rintro (_ | p) hp
    · rfl
    · change (rtwFreeRecvframe s i).content p = (s.content p).filter (· ≠ i)
      rw [← unlink_content s i p]
      cases p with
      | free => exact absurd rfl hp
      | swdec => rfl
      | defrag a => rfl
      | reorder a tid => rfl
  · change s.freeRecvframeCnt + 1 = ((s.freeRecvQueue.filter (· ≠ i) ++ [i]).length : ℤ)
    rw [filter_ne_of_not_mem hi, h.count, List.length_append, List.length_singleton, Nat.cast_add, Nat.cast_one]

theorem Owned.rtwFree_hand {s : RecvPriv} {hand : List ℕ} {i : ℕ} (h : Owned s (i :: hand)) :
    Owned (rtwFreeRecvframe s i) hand := by
  have hnodup := List.nodup_cons.mp h.hand_nodup
  have hfilter : (i :: hand).filter (· ≠ i) = hand := by
    rw [List.filter_cons_of_neg (by simp), filter_ne_of_not_mem hnodup.1]
  have := h.rtwFree (h.not_free List.mem_cons_self)
  rwa [hfilter] at this

/-- Objects go between the hands and one list that holds frames. -/
theorem Owned.exchange {s t : RecvPriv} {hand hand' : List ℕ} (h : Owned s hand) (p : Place)
    (hperm : (hand' ++ t.content p).Perm (hand ++ s.content p))
    (hrest : ∀ r, r ≠ p → t.content r = s.content r)
    (hcount : t.freeRecvframeCnt = t.freeRecvQueue.length) : Owned t hand' := by
  refine ⟨h.once.exchange (p := none) (q := some p) (by simp) hperm ?_,hcount⟩
  rintro (_ | r) hnone hr
  · exact absurd rfl hnone
  · exact hrest r (fun h => hr (congrArg some h))

theorem Owned.perm {s : RecvPriv} {hand hand' : List ℕ} (h : Owned s hand) (hp : hand'.Perm hand) :
    Owned s hand' :=
  h.exchange .swdec (hp.append_right _) (fun _ _ => rfl) h.count

/-- The objects that an action gives back -/
def RxAct.released : RxAct → List ℕ
  | .handOn (.forget _) => []
  | .handOn e => [e.frame.id]
  | .free f => [f.id]
  | .passed _ _ => []

theorem Owned.acts {acts : List RxAct} {s : RecvPriv} {hand : List ℕ}
    (h : Owned s (acts.flatMap RxAct.released ++ hand)) : Owned (acts.foldl RecvPriv.act s) hand := by
  induction acts generalizing s with
  | nil => exact h
  | cons a acts ih =>
    refine ih ?_
    rw [List.flatMap_cons, List.append_assoc] at h
    cases a with
    | handOn e =>
      cases e with
      | indicate f => exact h.rtwFree_hand
      | amsduToMsdu f => exact h.rtwFree_hand
      | forget f => exact h
    | free f => exact h.rtwFree_hand
    | passed f b => exact h

/-- What an action does not give back stays where it is. -/
theorem mem_content_acts {acts : List RxAct} {s : RecvPriv} {p : Place} {i : ℕ} (h : i ∈ s.content p)
    (hi : i ∉ acts.flatMap RxAct.released) : i ∈ (acts.foldl RecvPriv.act s).content p := by
  have hfree : ∀ (s : RecvPriv) (j : ℕ), i ≠ j → i ∈ s.content p →
      i ∈ (rtwFreeRecvframe s j).content p := by
    intro s j hj hs
    have hs : i ∈ (s.unlink j).content p := by
      rw [unlink_content]
      exact List.mem_filter.mpr ⟨hs,by simpa using hj⟩
    cases p with
    | free => exact List.mem_append_left _ hs
    | swdec => exact hs
    | defrag a => exact hs
    | reorder a tid => exact hs
  induction acts generalizing s with
  | nil => exact h
  | cons a acts ih =>
    rw [List.flatMap_cons, List.mem_append, not_or] at hi
    refine ih ?_ hi.2
    cases a with
    | handOn e =>
      cases e with
      | indicate f => exact hfree s f.id (List.ne_of_not_mem_cons hi.1) h
      | amsduToMsdu f => exact hfree s f.id (List.ne_of_not_mem_cons hi.1) h
      | forget f => exact h
    | free f => exact hfree s f.id (List.ne_of_not_mem_cons hi.1) h
    | passed f b => exact h

/-- Going from the station queues `q` to `q'` takes the objects `inp` from the hands and
leaves `out` in them. -/
def Passes (q : RxQueues) (inp : List ℕ) (q' : RxQueues) (out : List ℕ) : Prop :=
  ∀ (s : RecvPriv) (hand : List ℕ), s.queues = q → Owned s (inp ++ hand) →
    Owned { s with queues := q' } (out ++ hand)

theorem Passes.perm {q : RxQueues} {inp out : List ℕ} (h : out.Perm inp) : Passes q inp q out := by
  rintro s hand rfl hs
  exact hs.perm (h.append_right hand)

theorem Passes.trans {q r t : RxQueues} {inp mid out : List ℕ} (h : Passes q inp r mid)
    (h' : Passes r mid t out) : Passes q inp t out := by
  intro s hand hq hs
  exact h' { s with queues := r } hand rfl (h s hand hq hs)

theorem Passes.append {q q' : RxQueues} {inp out : List ℕ} (h : Passes q inp q' out) (more : List ℕ) :
    Passes q (inp ++ more) q' (out ++ more) := by
  intro s hand hq hs
  rw [List.append_assoc] at hs ⊢
  exact h s (more ++ hand) hq hs

theorem perm_between {l m l' m' : List ℕ} (h : (l ++ m).Perm (l' ++ m')) (hand : List ℕ) :
    ((l ++ hand) ++ m).Perm ((l' ++ hand) ++ m') := by
  have hswap : ∀ l m : List ℕ, ((l ++ hand) ++ m).Perm ((l ++ m) ++ hand) := by
    intro l m
    rw [List.append_assoc, List.append_assoc]
    exact List.perm_append_comm.append_left l
  exact (hswap l m).trans ((h.append_right hand).trans (hswap l' m').symm)

theorem Passes.setDefragQ {q : RxQueues} {a : MacAddr} {d : List RecvFrame} {inp out : List ℕ}
    (h : (out ++ objs d).Perm (inp ++ objs (q a).defragQ)) : Passes q inp (setDefragQ q a d) out := by
  rintro s hand rfl hs
  refine hs.exchange (.defrag a) ?_ ?_ hs.count
  · have hd : objs (Rtl8188fu.setDefragQ s.queues a d a).defragQ = objs d := by
      simp [Rtl8188fu.setDefragQ]
    change ((out ++ hand) ++ objs (Rtl8188fu.setDefragQ s.queues a d a).defragQ).Perm
      ((inp ++ hand) ++ objs (s.queues a).defragQ)
    rw [hd]
    exact perm_between h hand
  · rintro (_ | _ | b | ⟨b,tid⟩) hb
    · rfl
    · rfl
    · have hba : b ≠ a := fun h => hb (h ▸ rfl)
      simp [RecvPriv.content, Rtl8188fu.setDefragQ, hba]
    · rcases eq_or_ne b a with rfl | hba
      · simp [RecvPriv.content, Rtl8188fu.setDefragQ]
      · simp [RecvPriv.content, Rtl8188fu.setDefragQ, hba]

theorem Passes.setReorderCtrl {q : RxQueues} {a : MacAddr} {tid : Fin 16} {c : RecvReorderCtrl}
    {inp out : List ℕ}
    (h : (out ++ objs c.pending).Perm (inp ++ objs ((q a).recvreorderCtrl tid).pending)) :
    Passes q inp (setReorderCtrl q a tid c) out := by
  rintro s hand rfl hs
  refine hs.exchange (.reorder a tid) ?_ ?_ hs.count
  · have hc : objs ((Rtl8188fu.setReorderCtrl s.queues a tid c a).recvreorderCtrl tid).pending =
        objs c.pending := by
      simp [Rtl8188fu.setReorderCtrl]
    change ((out ++ hand) ++ objs ((Rtl8188fu.setReorderCtrl s.queues a tid c a).recvreorderCtrl tid).pending).Perm
      ((inp ++ hand) ++ objs ((s.queues a).recvreorderCtrl tid).pending)
    rw [hc]
    exact perm_between h hand
  · rintro (_ | _ | b | ⟨b,t⟩) hb
    · rfl
    · rfl
    · rcases eq_or_ne b a with rfl | hba
      · simp [RecvPriv.content, Rtl8188fu.setReorderCtrl]
      · simp [RecvPriv.content, Rtl8188fu.setReorderCtrl, hba]
    · rcases eq_or_ne b a with rfl | hba
      · have ht : t ≠ tid := fun h => hb (h ▸ rfl)
        simp [RecvPriv.content, Rtl8188fu.setReorderCtrl, ht]
      · simp [RecvPriv.content, Rtl8188fu.setReorderCtrl, hba]

end Rtl8188fu
