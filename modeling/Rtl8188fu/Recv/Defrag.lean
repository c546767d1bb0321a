import Rtl8188fu.Include.RtwSecurity
import Rtl8188fu.Security.Michael

/-! # Fragments of received frames

The defragmentation queue of a station, the reassembly that runs when a last fragment
arrives, and the MIC check behind it. Every copy into the first fragment is recorded as
the range of its buffer that the copy writes, since the driver copies before it checks.
-/
namespace Rtl8188fu
open Bytes

/-- A `memcpy` into the buffer of a frame: the offset from `rx_head` and the number of bytes -/
abbrev CopyRange := ℕ × ℕ

structure DefragResult where
  out : Option RecvFrame
  /-- given to `rtw_free_recvframe`, in this order -/
  freed : List RecvFrame
  copies : List CopyRange

/-- The payload of `pnfhdr` behind header and IV, as `recvframe_pull` leaves it -/
def fragmentBody (pnfhdr : RecvFrame) : RxBuf :=
  (pnfhdr.buf.pull ((pnfhdr.attrib.hdrlen + pnfhdr.attrib.ivLen) % 256)).getD pnfhdr.buf

/-- One turn of the loop of `recvframe_defrag`: the payload of the next fragment is copied
behind the frame, and only then is room for it taken. -/
def appendFragment (prframe pnextrframe : RecvFrame) : RecvFrame × CopyRange :=
  let src := fragmentBody pnextrframe
  let dst := (prframe.buf.pullTail prframe.attrib.icvLen).getD prframe.buf
  let tail := dst.tail
  let dst := dst.write tail src.payload
  let dst := (dst.put src.len).getD dst
  ({ prframe with buf := dst, attrib := { prframe.attrib with icvLen := pnextrframe.attrib.icvLen } },
    (tail, src.len))

/-- The loop of `recvframe_defrag` over the second to last fragment; `none` when the
fragment numbers do not go on from `curfragnum` -/
def defragLoop (curfragnum : ℕ) (prframe : RecvFrame) :
    List RecvFrame → Option RecvFrame × List CopyRange
  | [] => (some prframe, [])
  | pnextrframe :: q =>
    if curfragnum ≠ pnextrframe.attrib.fragNum then (none, [])
    else
      let s := appendFragment prframe pnextrframe
      let r := defragLoop (curfragnum + 1) s.1 q
      (r.1, s.2 :: r.2)

/-- `recvframe_defrag`; the queue is left empty in every case. -/
def recvframeDefrag : List RecvFrame → DefragResult
  | [] => ⟨none, [], []⟩
  | prframe :: q =>
    if prframe.attrib.fragNum ≠ 0 then ⟨none, prframe :: q, []⟩
    else
      let r := defragLoop 1 prframe q
      match r.1 with
      | none => ⟨none, prframe :: q, r.2⟩
      | some g => ⟨some g, q, r.2⟩

/-- `recvframe_chkmic`. `rxmickey` is the key for the sender: `none` when there is no such
station, and an inner `none` when a group key is needed and not installed. -/
def recvframeChkmic (rxmickey : RecvFrame → Option (Option Keytype)) (f : RecvFrame) :
    Status × RecvFrame :=
  let drop8 := { f with buf := (f.buf.pullTail 8).getD f.buf }
  if f.attrib.encrypt = .tkip then
    match rxmickey f with
    | none => (.success, drop8)
    | some none => (.fail, f)
    | some (some mickey) =>
      let a := f.attrib
      let datalen := (((f.buf.len : ℤ) - a.hdrlen - a.ivLen - a.icvLen - 8) % 4294967296).toNat
      let pframe := f.buf.ptr
      let payload := pframe.drop (a.hdrlen + a.ivLen)
      let miccode := rtwSeccalctkipmic mickey pframe (payload.take datalen) (UInt8.ofNat a.priority)
      (if miccode = slice payload datalen 8 then .success else .fail, drop8)
  else (.success, f)

/-- The MIC key that `recvframe_chkmic` selects -/
def rxMicKey (sec : SecurityPriv) (stapriv : StaPriv) (f : RecvFrame) : Option (Option Keytype) :=
  (rtwGetStainfo stapriv f.attrib.ta).map fun stainfo =>
    if isMcast f.attrib.ra then
      if sec.binstallGrpkey then some (sec.dot118021XGrprxmickey f.attrib.keyIndex) else none
    else some stainfo.dot11tkiprxmickey

structure ChkDefrag where
  /-- `pdefrag_q` afterwards -/
  queue : Option (List RecvFrame)
  out : Option RecvFrame
  freed : List RecvFrame
  copies : List CopyRange

/-- The part of `recvframe_chk_defrag` before the MIC check -/
def chkDefragQueue (pdefragQ : Option (List RecvFrame)) (f : RecvFrame) : ChkDefrag :=
  match f.attrib.mfrag, f.attrib.fragNum with
  | false, 0 => ⟨pdefragQ, some f, [], []⟩
  | true, n =>
    match pdefragQ with
    | none => ⟨none, none, [f], []⟩
    | some q => if n = 0 then ⟨some [f], none, q, []⟩ else ⟨some (q ++ [f]), none, [], []⟩
  | false, _ + 1 =>
    match pdefragQ with
    | none => ⟨none, none, [f], []⟩
    | some q =>
      let r := recvframeDefrag (q ++ [f])
      ⟨some [], r.out, r.freed, r.copies⟩

/-- `recvframe_chk_defrag`, with the MIC check `chkmic` -/
def recvframeChkDefrag (chkmic : RecvFrame → Status × RecvFrame) (pdefragQ : Option (List RecvFrame))
    (f : RecvFrame) : ChkDefrag :=
  let r := chkDefragQueue pdefragQ f
  match r.out with
  | none => r
  | some g =>
    if g.attrib.privacy then
      let m := chkmic g
      if m.1 = .fail then { r with out := none, freed := r.freed ++ [g] }
      else { r with out := some m.2 }
    else r

theorem defragLoop_id {n : ℕ} {h g : RecvFrame} {q : List RecvFrame} (hg : (defragLoop n h q).1 = some g) :
    g.id = h.id := by
  induction q generalizing n h with
  | nil =>
    cases hg
    rfl
  | cons x q ih =>
    unfold defragLoop at hg
    split_ifs at hg
    exact (ih hg).trans rfl

theorem recvframeChkmic_id (rxmickey : RecvFrame → Option (Option Keytype)) (f : RecvFrame) :
    (recvframeChkmic rxmickey f).2.id = f.id := by
  unfold recvframeChkmic
  dsimp only
  split
  · split <;> rfl
  · rfl

/-- The frame objects that come out of `recvframe_defrag` are those of the queue. -/
theorem recvframeDefrag_perm (q : List RecvFrame) :
    ((recvframeDefrag q).freed.map (·.id) ++ (recvframeDefrag q).out.toList.map (·.id)).Perm
      (q.map (·.id)) := by
  cases q with
  | nil => exact List.Perm.refl _
  | cons h q =>
    simp only [recvframeDefrag]
    split
    · simp
    · split
      · simp
      · rename_i g hg
        simp only [Option.toList_some, List.map_cons, List.map_nil, defragLoop_id hg]
        exact List.perm_append_singleton _ _

/-- One call of `recvframe_chk_defrag`: the frame and the queue are freed, returned or queued. -/
theorem recvframeChkDefrag_perm (rxmickey : RecvFrame → Option (Option Keytype))
    (q : Option (List RecvFrame)) (f : RecvFrame) :
    let r := recvframeChkDefrag (recvframeChkmic rxmickey) q f
    r.queue.isSome = q.isSome ∧
      (r.freed.map (·.id) ++ r.out.toList.map (·.id) ++ (r.queue.getD []).map (·.id)).Perm
        (f.id :: (q.getD []).map (·.id)) := by
  have hqueue : (chkDefragQueue q f).queue.isSome = q.isSome ∧
      ((chkDefragQueue q f).freed.map (·.id) ++ (chkDefragQueue q f).out.toList.map (·.id) ++
        ((chkDefragQueue q f).queue.getD []).map (·.id)).Perm (f.id :: (q.getD []).map (·.id)) := by
    unfold chkDefragQueue
    split
    · exact ⟨rfl,List.Perm.refl _⟩
    · cases q with
      | none => exact ⟨rfl,List.Perm.refl _⟩
      | some q =>
        dsimp only
        split
        · refine ⟨rfl,?_⟩
          simp
        · exact ⟨rfl,by simp⟩
    · cases q with
      | none => exact ⟨rfl,List.Perm.refl _⟩
      | some q =>
        refine ⟨rfl,?_⟩
        have hperm := recvframeDefrag_perm (q ++ [f])
        rw [List.map_append] at hperm
        simpa using hperm.trans (List.perm_append_singleton f.id (q.map (·.id)))
  unfold recvframeChkDefrag
  cases ho : (chkDefragQueue q f).out with
  | none => simpa [ho] using hqueue
  | some g =>
    rw [ho] at hqueue
    simp only [ho]
    split
    · split
      · simpa using hqueue
      · simpa [recvframeChkmic_id] using hqueue
    · simpa [ho] using hqueue

end Rtl8188fu
