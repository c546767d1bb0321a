import Rtl8188fu.Ap.StaTable
import Rtl8188fu.Library.QueueBank

/-! # Transmit queues of an access point

Frames wait for the hardware in the queues of their stations, or in the sleep queues of stations that save power. The
functions that move them, built without TDLS, each as one step: what they do to the queues is under the lock of
`xmit_priv`, `rtw_xmitframe_coalesce` of a frame that is in none of them is not. Counters are integers here.
-/
namespace Rtl8188fu

abbrev StaId := Fin numSta

instance : NeZero numSta := ⟨by decide⟩

/-- The queues of a station, in the order of `hwxmits` -/
inductive TxAc
  | vo
  | vi
  | be
  | bk
  deriving DecidableEq, Repr

instance : Fintype TxAc where
  elems := {TxAc.vo,TxAc.vi,TxAc.be,TxAc.bk}
  complete k := by cases k <;> simp

/-- The switch over `attrib.priority` -/
def txAcOf (priority : ℕ) : TxAc :=
  match priority with
  | 1 | 2 => .bk
  | 4 | 5 => .vi
  | 6 | 7 => .vo
  | _ => .be

structure XmitFrame where
  /-- which of the frame objects it is -/
  id : ℕ
  ra : MacAddr
  psta : StaId
  priority : ℕ
  triggered : Bool
  mdata : Bool
  eosp : Bool
  deriving DecidableEq, Repr

def XmitFrame.ac (f : XmitFrame) : TxAc := txAcOf f.priority

structure TxSta where
  hwaddr : MacAddr
  /-- `_FW_LINKED` and `WIFI_SLEEP_STATE` of `state` -/
  fwLinked : Bool
  sleeping : Bool
  aid : ℕ
  /-- `uapsd_vo` and so on; an association sets both bits or none -/
  uapsd : TxAc → Bool
  hasLegacyAc : Bool
  sleepQ : List XmitFrame
  sleepqLen : ℤ
  sleepqAcLen : ℤ

/-- `_rtw_init_stainfo` and the address -/
def TxSta.fresh (hwaddr : MacAddr) : TxSta := ⟨hwaddr,false,false,0,fun _ => false,false,[],0,0⟩

structure TxQueues where
  sta : StaId → TxSta
  /-- the stations that are in the hash -/
  staHash : List StaId
  /-- the `tx_servq`s with `qcnt`, the lists `vo_pending` and so on, and `accnt` -/
  bank : QueueBank StaId TxAc XmitFrame
  staDzBitmap : BitVec 16
  timBitmap : BitVec 16
  /-- what has gone to the hardware, and what has been dropped -/
  sent : List XmitFrame
  freed : List XmitFrame

def TxQueues.init : TxQueues := ⟨fun _ => .fresh [],[],.empty,0,0,[],[]⟩

/-- `BIT(aid)` in a bitmap -/
def aidBit (aid : ℕ) : BitVec 16 := BitVec.ofNat 16 (2 ^ aid)

namespace TxQueues
variable (t : TxQueues)

def setSta (i : StaId) (s : TxSta) : TxQueues := { t with sta := Function.update t.sta i s }

def getStainfo (hwaddr : MacAddr) : Option StaId := t.staHash.find? fun i => (t.sta i).hwaddr = staKey hwaddr

/-- `rtw_xmit_classifier`; `none` is `_FAIL`. -/
def rtwXmitClassifier (f : XmitFrame) : Option TxQueues :=
  if t.getStainfo f.ra ≠ some f.psta then none
  else if (t.sta f.psta).fwLinked = false then none
  else some { t with bank := t.bank.push f.psta f.ac f }

def halXmitframeEnqueue (f : XmitFrame) : TxQueues := (t.rtwXmitClassifier f).getD { t with freed := t.freed ++ [f] }

/-- `rtw_dequeue_xframe`, over the access categories in the order `inx` -/
def rtwDequeueXframe : List TxAc → Option (XmitFrame × TxQueues)
  | [] => none
  | k :: inx =>
    match t.bank.popFirst k (t.bank.linked k) with
    | some (f, bank) => some (f,{ t with bank })
    | none => rtwDequeueXframe inx

/-- A unicast frame goes to the sleep queue of its station. -/
def bufferUnicast (f : XmitFrame) : TxQueues :=
  let s := t.sta f.psta
  let wmmpsAc := s.uapsd f.ac
  let t := t.setSta f.psta { s with
    sleepQ := s.sleepQ ++ [f]
    sleepqLen := s.sleepqLen + 1
    sleepqAcLen := if wmmpsAc then s.sleepqAcLen + 1 else s.sleepqAcLen }
  if s.hasLegacyAc ≠ wmmpsAc then { t with timBitmap := t.timBitmap ||| aidBit s.aid } else t

/-- A group frame goes to the sleep queue of `psta_bmc`. -/
def bufferGroup (f : XmitFrame) : TxQueues :=
  let s := t.sta f.psta
  { t.setSta f.psta { s with sleepQ := s.sleepQ ++ [f], sleepqLen := s.sleepqLen + 1 } with
    timBitmap := t.timBitmap ||| aidBit 0
    staDzBitmap := t.staDzBitmap ||| aidBit 0 }

/-- `xmitframe_enqueue_for_sleeping_sta`; `none` is `_FALSE`. -/
def enqueueForSleepingSta (f : XmitFrame) : Option TxQueues :=
  if t.getStainfo f.ra ≠ some f.psta then none
  else if (t.sta f.psta).fwLinked = false then none
  else if f.triggered = true then none
  else if isMcast f.ra = true then if t.staDzBitmap ≠ 0 then some (t.bufferGroup f) else none
  else if (t.sta f.psta).sleeping = true ∧ t.staDzBitmap &&& aidBit (t.sta f.psta).aid ≠ 0
    then some (t.bufferUnicast f)
  else none

def txframesPending (f : XmitFrame) : ℤ :=
  if t.getStainfo f.ra ≠ some f.psta then 0
  else if (t.sta f.psta).fwLinked = false then 0
  else t.bank.qcnt f.psta f.ac

/-- `pre_xmitframe`. When nothing else asks for the frame to be queued, `direct` says whether it has been coalesced. -/
def preXmitframe (f : XmitFrame) (direct : Option Bool) : TxQueues :=
  if 0 < t.txframesPending f then t.halXmitframeEnqueue f
  else
    match direct with
    | none => t.halXmitframeEnqueue f
    | some true => { t with sent := t.sent ++ [f] }
    | some false => { t with freed := t.freed ++ [f] }

/-- `rtw_xmit` from the frame on -/
def rtwXmit (f : XmitFrame) (direct : Option Bool) : TxQueues :=
  (t.enqueueForSleepingSta f).getD (t.preXmitframe f direct)

/-- The frames that `rtl8188fu_xmitframe_complete` takes up to the first one that can be coalesced -/
def pickFirst (inx : List TxAc) (coalesce : XmitFrame → Bool) : ℕ → TxQueues → TxQueues × Option XmitFrame
  | 0, t => (t,none)
  | fuel + 1, t =>
    match t.rtwDequeueXframe inx with
    | none => (t,none)
    | some (f, t) =>
      if coalesce f then ({ t with sent := t.sent ++ [f] },some f)
      else pickFirst inx coalesce fuel { t with freed := t.freed ++ [f] }

/-- The aggregation takes `n` frames more from the queue of the first one, and the queue changes its place. -/
def aggregate (coalesce : XmitFrame → Bool) (n : ℕ) (i : StaId) (k : TxAc) : TxQueues :=
  let q := t.bank.queue i k
  let bank := (t.bank.setQueue i k (q.drop n)).count i k (-(q.take n).length)
  { t with
    bank := if q.drop n = [] then bank.unlink i k
      else if (t.bank.linked k).length ≤ 1 then bank else (bank.unlink i k).link i k
    sent := t.sent ++ (q.take n).filter coalesce
    freed := t.freed ++ (q.take n).filter fun f => !coalesce f }

/-- All frames that wait in the servqs -/
def pending : ℕ := ∑ i, ∑ k, (t.bank.queue i k).length

/-- `rtl8188fu_xmitframe_complete`; how many frames are aggregated is left open here. -/
def xmitframeComplete (inx : List TxAc) (coalesce : XmitFrame → Bool) (n : ℕ) : TxQueues :=
  match pickFirst inx coalesce (t.pending + 1) t with
  | (t, none) => t
  | (t, some f) => t.aggregate coalesce n f.psta f.ac

/-- `dequeue_xmitframes_to_sleeping_queue`, over what is behind the frames that have stayed -/
def dequeueToSleeping (i : StaId) (k : TxAc) : List XmitFrame → List XmitFrame → TxQueues → TxQueues
  | _, [], t => t
  | kept, f :: q, t =>
    let f := { f with triggered := false }
    match t.enqueueForSleepingSta f with
    | some t' =>
      dequeueToSleeping i k kept q { t' with bank := (t'.bank.setQueue i k (kept ++ q)).count i f.ac (-1) }
    | none => dequeueToSleeping i k (kept ++ [f]) q { t with bank := t.bank.setQueue i k (kept ++ f :: q) }

/-- One of the four queues in `stop_sta_xmit` -/
def stopServq (i : StaId) (k : TxAc) : TxQueues :=
  let t := dequeueToSleeping i k [] (t.bank.queue i k) t
  { t with bank := t.bank.unlink i k }

/-- What `stop_sta_xmit` says about the station first -/
def staAsleep (i : StaId) : TxQueues :=
  { t.setSta i { t.sta i with sleeping := true } with staDzBitmap := t.staDzBitmap ||| aidBit (t.sta i).aid }

/-- The group frames in `stop_sta_xmit` -/
def stopGroup : TxQueues :=
  match t.getStainfo bcAddr with
  | some bmc => t.stopServq bmc .be
  | none => t

def stopStaXmit (i : StaId) : TxQueues :=
  ([TxAc.vo,.vi,.be,.bk].foldl (fun t k => t.stopServq i k) (t.staAsleep i)).stopGroup

/-- A frame that leaves the sleep queue of `i` for the servqs; `left` is what stays in that queue. -/
def release (i : StaId) (f : XmitFrame) (left : List XmitFrame) (sleepqAcLen : ℤ) (mdata eosp : Bool) : TxQueues :=
  let s := t.sta i
  (t.setSta i { s with sleepQ := left, sleepqLen := s.sleepqLen - 1, sleepqAcLen }).halXmitframeEnqueue
    { f with triggered := true, mdata, eosp }

/-- The loop of `wakeup_sta_to_xmit` over the sleep queue of the station -/
def wakeupLoop (i : StaId) : List XmitFrame → TxQueues → TxQueues
  | [], t => t
  | f :: left, t =>
    let s := t.sta i
    wakeupLoop i left
      (if s.uapsd f.ac then
        t.release i f left (s.sleepqAcLen - 1) (0 < s.sleepqAcLen - 1) (¬0 < s.sleepqAcLen - 1)
      else t.release i f left s.sleepqAcLen (0 < s.sleepqLen - 1) f.eosp)

/-- The loops over the sleep queue of `psta_bmc`, over `n` frames at most -/
def flushLoop (bmc : StaId) : ℕ → List XmitFrame → TxQueues → TxQueues
  | n + 1, f :: left, t =>
    let s := t.sta bmc
    flushLoop bmc n left (t.release bmc f left s.sleepqAcLen (0 < s.sleepqLen - 1 ∧ n ≠ 0) f.eosp)
  | _, _, t => t

def clearGroupBits : TxQueues :=
  { t with timBitmap := t.timBitmap &&& ~~~aidBit 0, staDzBitmap := t.staDzBitmap &&& ~~~aidBit 0 }

/-- What `wakeup_sta_to_xmit` says about the station whose sleep queue is empty -/
def staAwake (i : StaId) : TxQueues :=
  if (t.sta i).sleepqLen = 0 then
    { t.setSta i { t.sta i with sleeping := false } with
      timBitmap := t.timBitmap &&& ~~~aidBit (t.sta i).aid
      staDzBitmap := t.staDzBitmap &&& ~~~aidBit (t.sta i).aid }
  else t

/-- All group frames leave their sleep queue. -/
def flushGroup (bmc : StaId) : TxQueues := flushLoop bmc ((t.sta bmc).sleepQ.length + 1) (t.sta bmc).sleepQ t

/-- The group frames in `wakeup_sta_to_xmit` -/
def wakeupGroup : TxQueues :=
  match t.getStainfo bcAddr with
  | none => t
  | some bmc =>
    if t.staDzBitmap &&& 0xfffe = 0 then
      if ((t.flushGroup bmc).sta bmc).sleepqLen = 0 then (t.flushGroup bmc).clearGroupBits else t.flushGroup bmc
    else t

def wakeupStaToXmit (i : StaId) : TxQueues := ((wakeupLoop i (t.sta i).sleepQ t).staAwake i).wakeupGroup

def processPwrbit (src : MacAddr) (pwrbit : Bool) : TxQueues :=
  match t.getStainfo src with
  | none => t
  | some i =>
    if (t.sta i).sleeping = pwrbit then t else if pwrbit then t.stopStaXmit i else t.wakeupStaToXmit i

/-- The loop of `xmit_delivery_enabled_frames`, over what is behind the frames that have stayed -/
def deliveryLoop (i : StaId) : List XmitFrame → List XmitFrame → TxQueues → TxQueues
  | _, [], t => t
  | kept, f :: q, t =>
    let s := t.sta i
    if s.uapsd f.ac then
      let t := t.release i f (kept ++ q) (s.sleepqAcLen - 1) (0 < s.sleepqAcLen - 1) (¬0 < s.sleepqAcLen - 1)
      deliveryLoop i kept q
        (if (t.sta i).sleepqAcLen = 0 ∧
          s.hasLegacyAc = false then { t with timBitmap := t.timBitmap &&& ~~~aidBit s.aid }
        else t)
    else deliveryLoop i (kept ++ [f]) q t

/-- `process_wmmps_data`; that one of the categories is enabled follows from the last check. -/
def processWmmps (src : MacAddr) (priority : ℕ) : TxQueues :=
  match t.getStainfo src with
  | none => t
  | some i =>
    if (t.sta i).sleeping = true ∧ (t.sta i).uapsd (txAcOf priority) = true ∧ 0 < (t.sta i).sleepqAcLen then
      deliveryLoop i [] (t.sta i).sleepQ t
    else t

/-- What a PS-Poll fetches -/
def pollFrame (i : StaId) : TxQueues :=
  let s := t.sta i
  match s.sleepQ with
  | f :: left =>
    let t := t.release i f left s.sleepqAcLen (0 < s.sleepqLen - 1) f.eosp
    if (t.sta i).sleepqLen = 0 then { t with timBitmap := t.timBitmap &&& ~~~aidBit s.aid } else t
  | [] =>
    if t.timBitmap &&& aidBit s.aid ≠ 0 then
      { t.setSta i { s with sleepqLen := 0 } with timBitmap := t.timBitmap &&& ~~~aidBit s.aid }
    else t

/-- A PS-Poll in `validate_recv_ctrl_frame` -/
def psPoll (ta : MacAddr) (aid priority : ℕ) : TxQueues :=
  match t.getStainfo ta with
  | none => t
  | some i =>
    if (t.sta i).aid ≠ aid ∨ (t.sta i).uapsd (txAcOf priority) = true then t
    else if (t.sta i).sleeping = true ∧ t.staDzBitmap &&& aidBit (t.sta i).aid ≠ 0 then t.pollFrame i
    else t

def chkBmcSleepq : TxQueues :=
  match t.getStainfo bcAddr with
  | none => t
  | some bmc =>
    if t.timBitmap &&& aidBit 0 ≠ 0 ∧ 0 < (t.sta bmc).sleepqLen then t.flushGroup bmc else t

/-- `rtw_ap_bmc_frames_hdl`, with `HIQ_XMIT_COUNTS` frames at a time -/
def apBmcFrames : TxQueues :=
  match t.getStainfo bcAddr with
  | none => t
  | some bmc =>
    if t.timBitmap &&& aidBit 0 ≠ 0 ∧ 0 < (t.sta bmc).sleepqLen then flushLoop bmc 6 (t.sta bmc).sleepQ t
    else if (t.sta bmc).sleepqLen = 0 then t.clearGroupBits
    else t

/-- `rtw_chk_hi_queue_hdl`, when it finds the hardware queue empty or not -/
def chkHiQueue (empty : Bool) : TxQueues :=
  match t.getStainfo bcAddr with
  | none => t
  | some bmc => if (t.sta bmc).sleepqLen = 0 ∧ empty = true then t.clearGroupBits else t

/-- A station that has not been heard for long, in `expire_timeout_chk` -/
def aliveCheck (i : StaId) : TxQueues :=
  if i ∈ t.staHash ∧ (t.sta i).sleeping = true then { t with timBitmap := t.timBitmap ||| aidBit (t.sta i).aid }
    else t

/-- A station whose sleep queue has grown too long, in `expire_timeout_chk` -/
def aging (i : StaId) : TxQueues := if i ∈ t.staHash then t.wakeupStaToXmit i else t

/-- `rtw_alloc_stainfo`, with a station object that is free -/
def allocStainfo (i : StaId) (hwaddr : MacAddr) : TxQueues :=
  if i ∈ t.staHash then t else { t.setSta i (.fresh hwaddr) with staHash := t.staHash ++ [i] }

/-- What an association does, with the AID that the station gets when it has none, and the ACs it has enabled -/
def associate (i : StaId) (aid : ℕ) (uapsd : TxAc → Bool) : TxQueues :=
  if i ∈ t.staHash then
    t.setSta i { t.sta i with
      fwLinked := true
      aid := if 0 < (t.sta i).aid then (t.sta i).aid else aid
      uapsd
      hasLegacyAc := decide (¬∀ k, uapsd k = true) }
  else t

def updateBmcSta : TxQueues :=
  match t.getStainfo bcAddr with
  | none => t
  | some bmc => t.setSta bmc { t.sta bmc with fwLinked := true, sleeping := false, aid := 0 }

/-- One of the four queues in `rtw_free_stainfo` -/
def freeServq (i : StaId) (k : TxAc) : TxQueues :=
  { t with bank := t.bank.clear i k, freed := t.freed ++ t.bank.queue i k }

/-- A station leaves the hash, and its sleep queue is dropped. -/
def unhash (i : StaId) : TxQueues :=
  { t.setSta i { t.sta i with
      fwLinked := false, sleepQ := [], sleepqLen := 0, sleepqAcLen := 0, uapsd := fun _ => false, hasLegacyAc := false,
      aid := 0 } with
    staHash := t.staHash.erase i
    freed := t.freed ++ (t.sta i).sleepQ }

/-- `rtw_free_stainfo` of a station that is in the hash -/
def freeStainfo (i : StaId) : TxQueues :=
  if i ∈ t.staHash then
    { [TxAc.vo,.vi,.be,.bk].foldl (fun t k => t.freeServq i k) (t.unhash i) with
      staDzBitmap := t.staDzBitmap &&& ~~~aidBit (t.sta i).aid
      timBitmap := t.timBitmap &&& ~~~aidBit (t.sta i).aid }
  else t

end TxQueues

/-- What happens to the queues. A refused association is not among it: `OnAssocReqFail` takes the AID of a station that
may be linked and asleep, which the bitmaps still know. -/
inductive TxEvent
  /-- `rtw_xmit` of a new frame -/
  | xmit (id : ℕ) (ra : MacAddr) (psta : StaId) (priority : ℕ) (direct : Option Bool)
  | complete (inx : List TxAc) (coalesce : XmitFrame → Bool) (n : ℕ)
  | pwrbit (src : MacAddr) (pwrbit : Bool)
  | wmmps (src : MacAddr) (priority : ℕ)
  | psPoll (ta : MacAddr) (aid priority : ℕ)
  | chkBmcSleepq
  | apBmcFrames
  | chkHiQueue (empty : Bool)
  | aliveCheck (i : StaId)
  | aging (i : StaId)
  | alloc (i : StaId) (hwaddr : MacAddr)
  | associate (i : StaId) (aid : ℕ) (uapsd : TxAc → Bool)
  | updateBmcSta
  | free (i : StaId)

def TxQueues.step (t : TxQueues) : TxEvent → TxQueues
  | .xmit id ra psta priority direct => t.rtwXmit ⟨id,ra,psta,priority,false,false,false⟩ direct
  | .complete inx coalesce n => t.xmitframeComplete inx coalesce n
  | .pwrbit src pwrbit => t.processPwrbit src pwrbit
  | .wmmps src priority => t.processWmmps src priority
  | .psPoll ta aid priority => t.psPoll ta aid priority
  | .chkBmcSleepq => t.chkBmcSleepq
  | .apBmcFrames => t.apBmcFrames
  | .chkHiQueue empty => t.chkHiQueue empty
  | .aliveCheck i => t.aliveCheck i
  | .aging i => t.aging i
  | .alloc i hwaddr => t.allocStainfo i hwaddr
  | .associate i aid uapsd => t.associate i aid uapsd
  | .updateBmcSta => t.updateBmcSta
  | .free i => t.freeStainfo i

def TxQueues.run (t : TxQueues) (events : List TxEvent) : TxQueues := events.foldl TxQueues.step t

/-- Events that bring no frame and leave the stations as they are -/
def TxEvent.moving : TxEvent → Bool
  | .xmit .. | .alloc .. | .associate .. | .updateBmcSta | .free _ => false
  | _ => true

/-- The frames that a run is given -/
def TxEvent.arrival : TxEvent → Option ℕ
  | .xmit id _ _ _ _ => some id
  | _ => none

end Rtl8188fu
