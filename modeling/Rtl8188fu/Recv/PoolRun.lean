import Rtl8188fu.Recv.PoolCalls
import Rtl8188fu.Recv.ReorderRun

/-! # Conservation of the receive frame objects

The calls of `recv_func` one after the other, from the pool as `_rtw_init_recv_priv`
leaves it.
-/
namespace Rtl8188fu
open Placement

/-- Whether `mp_recv_frame` indicates the frame -/
def mpIndicates (ad : Adapter) (f : RecvFrame) : Bool :=
  ad.fwLinked && ad.rxBindicatePkt && getFrameType f.buf.ptr = WIFI_DATA_TYPE &&
    (mpWlanhdrToEthhdr ad.bRTWSmbCfg (mpParse f)).isSome && !ad.cannotRun

theorem mpRecvFrame_of_not_indicates {ad : Adapter} {f : RecvFrame} (h : mpIndicates ad f = false) :
    mpRecvFrame ad f = [.free f] := by
  unfold mpRecvFrame
  split
  · rename_i hdata
    unfold mpIndicates at h
    rw [hdata, Bool.true_and] at h
    cases hconv : mpWlanhdrToEthhdr ad.bRTWSmbCfg (mpParse f) with
    | none => rfl
    | some g =>
      have hrun : ad.cannotRun = true := by simpa [hconv] using h
      simp [hrun]
  · rfl

/-- `recv_func_prehandle` does not indicate in MP mode; a management frame is not freed by
the decryptor and goes through `validate_recv_mgnt_frame` safely. -/
def PrehandleSafe (L : RxLeaves) (ad : Adapter) (q : RxQueues) (f : RecvFrame) : Prop :=
  if ad.mpMode then mpIndicates ad f = false
  else (byteAt f.buf.ptr 0).toNat % 4 = 0 → getFrameType f.buf.ptr = WIFI_MGT_TYPE →
    (mgmt80211w L ad (parseFrameCtl f)).freed = false ∧
      ((mgmt80211w L ad (parseFrameCtl f)).status ≠ .fail →
        MgmtSafe L ad q (mgmt80211w L ad (parseFrameCtl f)).frame)

/-- Only management frames change the queues before they are validated. -/
theorem validateRecvFrame_of_not_mgmt (L : RxLeaves) (ad : Adapter) (q : RxQueues) {f : RecvFrame}
    (h : (byteAt f.buf.ptr 0).toNat % 4 = 0 → getFrameType f.buf.ptr ≠ WIFI_MGT_TYPE) :
    (validateRecvFrame L ad q f).2.2 = (q,[]) ∧ (validateRecvFrame L ad q f).2.1.id = f.id := by
  unfold validateRecvFrame
  by_cases hproto : (byteAt f.buf.ptr 0).toNat % 4 = 0
  · simp only [hproto, ne_eq, not_true_eq_false, ↓reduceIte, h hproto]
    split_ifs
    · exact ⟨rfl,rfl⟩
    · exact ⟨rfl,L.validate_id ad _⟩
    · exact ⟨rfl,rfl⟩
  · simp only [hproto, ne_eq, not_false_eq_true, ↓reduceIte]
    exact ⟨trivial,trivial⟩

instance (L : RxLeaves) (ad : Adapter) (q : RxQueues) (f : RecvFrame) : Decidable (PrehandleSafe L ad q f) := by
  delta PrehandleSafe
  infer_instance

/-- After `recv_func_prehandle` the frame is in the hands of the code or has been given back. -/
theorem Owned.prehandle {L : RxLeaves} {ad : Adapter} {s : RecvPriv} {f : RecvFrame} {hand : List ℕ}
    (h : Owned s (f.id :: hand)) (hsafe : PrehandleSafe L ad s.queues f) :
    Owned (s.carryOut (recvFuncPrehandle L ad s.queues f).2.2)
      (if (recvFuncPrehandle L ad s.queues f).1 = .success then
        (recvFuncPrehandle L ad s.queues f).2.1.id :: hand else hand) := by
  have hfree : ∀ g : RecvFrame, g.id = f.id → Owned (s.carryOut (s.queues,[.free g])) hand := by
    intro g hg
    exact (hg ▸ h : Owned s (g.id :: hand)).rtwFree_hand
  unfold PrehandleSafe at hsafe
  unfold recvFuncPrehandle
  cases hmp : ad.mpMode with
  | true =>
    rw [hmp, if_pos rfl] at hsafe
    simp only [↓reduceIte, mpRecvFrame_of_not_indicates hsafe, reduceCtorEq]
    exact hfree f rfl
  | false =>
    rw [hmp, if_neg Bool.false_ne_true] at hsafe
    simp only [Bool.false_eq_true, ↓reduceIte]
    by_cases hmgt : (byteAt f.buf.ptr 0).toNat % 4 = 0 ∧ getFrameType f.buf.ptr = WIFI_MGT_TYPE
    · obtain ⟨hnofree,hmgmt⟩ := hsafe hmgt.1 hmgt.2
      have hid : (mgmt80211w L ad (parseFrameCtl f)).frame.id = f.id := mgmt80211w_id L ad _
      simp only [validateRecvFrame, hmgt, ne_eq, not_true_eq_false, ↓reduceIte, hnofree, Bool.false_eq_true]
      by_cases hst : (mgmt80211w L ad (parseFrameCtl f)).status = .fail
      · simp only [hst, ↓reduceIte, reduceCtorEq, not_false_eq_true, List.nil_append]
        exact hfree f rfl
      · simp only [hst, ↓reduceIte, reduceCtorEq, not_false_eq_true, List.nil_append]
        exact (hid ▸ h : Owned s ((mgmt80211w L ad (parseFrameCtl f)).frame.id :: hand)).mgntFrame hid.symm
          (hmgmt hst)
    · rw [not_and] at hmgt
      obtain ⟨hkeep,hid⟩ := validateRecvFrame_of_not_mgmt L ad s.queues hmgt
      by_cases hst : (validateRecvFrame L ad s.queues f).1 = .success
      · simp only [hst, ne_eq, not_true_eq_false, ↓reduceIte, hkeep, hid]
        exact h
      · simp only [hst, ne_eq, not_false_eq_true, ↓reduceIte, hkeep, List.nil_append]
        exact hfree f rfl

/-- The frame that `recv_func` passes on after it was validated: this one, or the oldest
of those that wait for a key -/
def ValidatedSafe (L : RxLeaves) (ad : Adapter) (s : RecvPriv) (f : RecvFrame) : Prop :=
  if waitsForKey ad f then
    (enqueueSwdec s f).freeRecvframeCnt < NR_RECVFRAME / 4 →
      ∀ g ∈ (enqueueSwdec s f).ucSwdecPendingQueue.head?, PosthandleSafe L ad (enqueueSwdec s f).queues g
  else PosthandleSafe L ad s.queues f

instance (L : RxLeaves) (ad : Adapter) (s : RecvPriv) (f : RecvFrame) : Decidable (ValidatedSafe L ad s f) := by
  delta ValidatedSafe
  infer_instance

theorem Owned.validated {L : RxLeaves} {ad : Adapter} {s : RecvPriv} {f : RecvFrame} {hand : List ℕ}
    (h : Owned s (f.id :: hand)) (hsafe : ValidatedSafe L ad s f) :
    Owned (recvFuncValidated L ad s f) hand := by
  rw [ValidatedSafe] at hsafe
  rw [recvFuncValidated]
  split
  · rename_i hwait
    rw [if_pos hwait] at hsafe
    have hown := h.enqueueSwdec
    dsimp only
    split
    · rename_i hfew
      cases hq : (Rtl8188fu.enqueueSwdec s f).ucSwdecPendingQueue with
      | nil => exact hown
      | cons g q => exact (hown.takeSwdec hq).posthandle (hsafe hfew g (by rw [hq]; rfl))
    · exact hown
  · rename_i hwait
    rw [if_neg hwait] at hsafe
    exact h.posthandle hsafe

/-- One call of `recv_func` takes none of the branches that free an object twice or lose it. -/
def RecvFuncSafe (L : RxLeaves) (ad : Adapter) (s : RecvPriv) (f : RecvFrame) : Prop :=
  let t := recvFuncWaiting L ad s
  let p := recvFuncPrehandle L ad t.queues f
  ((ad.stationState && ad.sec.busetkipkey) = true → DrainSafe L ad s.ucSwdecPendingQueue.length s) ∧
    PrehandleSafe L ad t.queues f ∧ (p.1 = .success → ValidatedSafe L ad (t.carryOut p.2.2) p.2.1)

instance (L : RxLeaves) (ad : Adapter) (s : RecvPriv) (f : RecvFrame) : Decidable (RecvFuncSafe L ad s f) := by
  delta RecvFuncSafe
  infer_instance

theorem Owned.monitor {L : RxLeaves} {ad : Adapter} {s : RecvPriv} {f : RecvFrame} {hand : List ℕ}
    (h : Owned s (f.id :: hand)) : Owned (s.carryOut (s.queues,recvFrameMonitor L ad f)) hand := by
  apply Owned.carryOut (show Owned s ([f.id] ++ hand) from h)
  apply Passes.perm
  rw [recvFrameMonitor]
  split
  · exact List.Perm.refl _
  · exact List.Perm.refl _

theorem Owned.recvFunc {L : RxLeaves} {ad : Adapter} {s : RecvPriv} {f : RecvFrame} {hand : List ℕ}
    (h : Owned s (f.id :: hand)) (hsafe : ad.monitorState = false → RecvFuncSafe L ad s f) :
    Owned (recvFunc L ad s f) hand := by
  rw [Rtl8188fu.recvFunc]
  cases hmon : ad.monitorState with
  | true => exact h.monitor
  | false =>
    obtain ⟨hwaiting,hprehandle,hvalidated⟩ := hsafe hmon
    have hown : Owned (recvFuncWaiting L ad s) (f.id :: hand) := by
      rw [recvFuncWaiting]
      split
      · rename_i hkey
        exact h.drainSwdec (hwaiting hkey)
      · exact h
    have hpre := hown.prehandle hprehandle
    simp only [Bool.false_eq_true, ↓reduceIte]
    split
    · rename_i hst
      rw [if_pos hst] at hpre
      exact hpre.validated (hvalidated hst)
    · rename_i hst
      rw [if_neg hst] at hpre
      exact hpre

/-- A received frame for which there is a frame object, outside monitor mode, meets
`RecvFuncSafe` in the state in which `recv_func` is called. -/
def CallSafe (L : RxLeaves) (s : RecvPriv) (e : RxCall) : Prop :=
  match s.freeRecvQueue with
  | [] => True
  | i :: q =>
    e.adapter.monitorState = false →
      RecvFuncSafe L e.adapter { s with freeRecvQueue := q, freeRecvframeCnt := s.freeRecvframeCnt - 1 }
        { e.frame with id := i }

instance (L : RxLeaves) (s : RecvPriv) (e : RxCall) : Decidable (CallSafe L s e) := by
  delta CallSafe
  split <;> infer_instance

theorem Owned.recvEntry {L : RxLeaves} {s : RecvPriv} {e : RxCall} (h : Owned s [])
    (hsafe : CallSafe L s e) : Owned (recvEntry L s e) [] := by
  rw [CallSafe] at hsafe
  rw [Rtl8188fu.recvEntry]
  cases hfree : s.freeRecvQueue with
  | nil => exact h
  | cons i q =>
    rw [hfree] at hsafe
    apply Owned.recvFunc
    · apply h.exchange .free
      · change ([i] ++ q).Perm ([] ++ s.freeRecvQueue)
        rw [hfree]
        exact List.Perm.refl _
      · rintro (_ | _ | b | ⟨b,tid⟩) hb
        · exact absurd rfl hb
        · rfl
        · rfl
        · rfl
      · have hcount := h.count
        rw [hfree, List.length_cons] at hcount
        simp [hcount]
    · exact hsafe

theorem Owned.init : Owned RecvPriv.init [] := by
  have hcontent : ∀ p, (RecvPriv.init.held [] p) = if p = some .free then List.range NR_RECVFRAME else [] := by
    rintro (_ | p)
    · exact (if_neg (Option.some_ne_none _).symm).symm
    · cases p with
      | free => simp [RecvPriv.held, RecvPriv.content, RecvPriv.init]
      | swdec => exact (if_neg (by simp)).symm
      | defrag a => exact (if_neg (by simp)).symm
      | reorder a tid => exact (if_neg (by simp)).symm
  refine ⟨⟨?_,?_,?_⟩,?_⟩
  · intro p
    rw [hcontent]
    split
    · exact List.nodup_range
    · exact List.nodup_nil
  · intro p q i hp hq
    rw [hcontent] at hp hq
    split at hp
    · split at hq
      · rename_i hp' hq'
        rw [hp', hq']
      · cases hq
    · cases hp
  · intro i hi
    refine ⟨some .free,?_⟩
    rw [hcontent, if_pos rfl]
    exact List.mem_range.mpr hi
  · simp [RecvPriv.init]

/-- Every frame object is in exactly one of the queues and there once, and the counter of
free objects is right. -/
structure RecvPriv.Conserved (s : RecvPriv) : Prop where
  place : ∀ i < NR_RECVFRAME, ∃! p, i ∈ s.content p
  nodup : ∀ p, (s.content p).Nodup
  count : s.freeRecvframeCnt = s.freeRecvQueue.length

theorem Owned.conserved {s : RecvPriv} (h : Owned s []) : s.Conserved := by
  refine ⟨?_,fun p => h.once.nodup (some p),h.count⟩
  intro i hi
  obtain ⟨p,hp⟩ := h.once.cover i hi
  cases p with
  | none => cases hp
  | some p => exact ⟨p,hp,fun q hq => Option.some.inj (h.once.apart (p := some q) (q := some p) hq hp)⟩

/-- Decryption and validation that let every frame pass -/
def passAll : RxLeaves where
  fillRadiotapHdr := fun _ _ => true
  decryptor := fun _ f => (.success,f)
  validateRecvDataFrame := fun _ f => (.success,f)
  bipVerify := fun _ _ => .success
  mgtDispatcher := fun _ _ => []
  decryptor_id := fun _ _ => rfl
  validate_id := fun _ _ => rfl

def stationAdapter : Adapter where
  sec := openSecurity
  stapriv := fun _ => none
  cannotRun := false
  htOption := true
  monitorState := false
  stationState := true
  fwLinked := true
  mpMode := false
  rxBindicatePkt := false
  bRTWSmbCfg := false
  ieee80211w := true

/-- An unencrypted frame with the given frame control bytes and fragment number -/
def receivedFrame (fc0 fc1 fragNum : UInt8) : RxCall where
  adapter := stationAdapter
  frame :=
    { plainFrame 0 0 false with
      buf :=
        { mem := fc0 :: fc1 :: (List.replicate 20 2 ++ [fragNum, 0] ++ List.replicate 40 0)
          data := 0
          tail := 64
          data_le_tail := (plainFrame 0 0 false).buf.data_le_tail
          tail_le_end := by simp } }

end Rtl8188fu
