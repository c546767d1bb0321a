import Rtl8188fu.Library.Placement
import Rtl8188fu.Library.Run
import Rtl8188fu.Recv.RecvFunc

/-! # The pool of receive frame objects

The free queue with its counter, and `recv_func` on top of it. Frame objects are numbers.
Freeing one first unlinks it from whatever list it is linked into, as `rtw_list_delete`
does, so freeing twice moves it inside the free queue and counts it twice.
-/
namespace Rtl8188fu

structure RecvPriv where
  freeRecvQueue : List ℕ
  freeRecvframeCnt : ℤ
  ucSwdecPendingQueue : List RecvFrame
  queues : RxQueues

def RecvReorderCtrl.unlink (i : ℕ) (c : RecvReorderCtrl) : RecvReorderCtrl :=
  { c with pending := c.pending.filter (·.id ≠ i) }

def StaRecvPriv.unlink (i : ℕ) (p : StaRecvPriv) : StaRecvPriv :=
  { defragQ := p.defragQ.filter (·.id ≠ i)
    recvreorderCtrl := fun tid => (p.recvreorderCtrl tid).unlink i }

/-- `rtw_list_delete` of the list node of object `i` -/
def RecvPriv.unlink (i : ℕ) (s : RecvPriv) : RecvPriv :=
  { s with
    freeRecvQueue := s.freeRecvQueue.filter (· ≠ i)
    ucSwdecPendingQueue := s.ucSwdecPendingQueue.filter (·.id ≠ i)
    queues := fun a => (s.queues a).unlink i }

def rtwFreeRecvframe (s : RecvPriv) (i : ℕ) : RecvPriv :=
  let s := s.unlink i
  { s with freeRecvQueue := s.freeRecvQueue ++ [i], freeRecvframeCnt := s.freeRecvframeCnt + 1 }

/-- What an action does to the pool; `rtw_recv_indicatepkt` and `amsdu_to_msdu` give the
frame object back. -/
def RecvPriv.act (s : RecvPriv) : RxAct → RecvPriv
  | .handOn (.indicate f) => rtwFreeRecvframe s f.id
  | .handOn (.amsduToMsdu f) => rtwFreeRecvframe s f.id
  | .handOn (.forget _) => s
  | .free f => rtwFreeRecvframe s f.id
  | .passed _ _ => s

/-- New station queues, then the actions -/
def RecvPriv.carryOut (s : RecvPriv) (r : RxQueues × List RxAct) : RecvPriv :=
  r.2.foldl RecvPriv.act { s with queues := r.1 }

def RecvPriv.posthandle (L : RxLeaves) (ad : Adapter) (s : RecvPriv) (f : RecvFrame) : RecvPriv :=
  s.carryOut (recvFuncPosthandle L ad s.queues f)

/-- The loop over `uc_swdec_pending_queue`, at most `n` turns -/
def drainSwdec (L : RxLeaves) (ad : Adapter) : ℕ → RecvPriv → RecvPriv
  | 0, s => s
  | n + 1, s =>
    match s.ucSwdecPendingQueue with
    | [] => s
    | f :: q => drainSwdec L ad n ({ s with ucSwdecPendingQueue := q }.posthandle L ad f)

/-- Whether a validated frame has to wait for its pairwise key -/
def waitsForKey (ad : Adapter) (f : RecvFrame) : Bool :=
  ad.stationState && !isMcast f.attrib.ra && f.attrib.encrypt ≠ .noPrivacy &&
    (!f.attrib.bdecrypted || ad.sec.swDecrypt) && ad.sec.authModeWpaPsk && !ad.sec.busetkipkey

/-- `rtw_enqueue_recvframe` to `uc_swdec_pending_queue` -/
def enqueueSwdec (s : RecvPriv) (f : RecvFrame) : RecvPriv :=
  let s := s.unlink f.id
  { s with ucSwdecPendingQueue := s.ucSwdecPendingQueue ++ [f] }

/-- The part of `recv_func` after `recv_func_prehandle` succeeded -/
def recvFuncValidated (L : RxLeaves) (ad : Adapter) (s : RecvPriv) (f : RecvFrame) : RecvPriv :=
  if waitsForKey ad f then
    let s := enqueueSwdec s f
    if s.freeRecvframeCnt < NR_RECVFRAME / 4 then
      -- against starvation the oldest waiting frame goes on without a key
      match s.ucSwdecPendingQueue with
      | [] => s
      | g :: q => { s with ucSwdecPendingQueue := q }.posthandle L ad g
    else s
  else s.posthandle L ad f

/-- The frames that waited for a key, when there is one now -/
def recvFuncWaiting (L : RxLeaves) (ad : Adapter) (s : RecvPriv) : RecvPriv :=
  if ad.stationState && ad.sec.busetkipkey then drainSwdec L ad s.ucSwdecPendingQueue.length s else s

def recvFunc (L : RxLeaves) (ad : Adapter) (s : RecvPriv) (f : RecvFrame) : RecvPriv :=
  if ad.monitorState then s.carryOut (s.queues, recvFrameMonitor L ad f)
  else
    let s := recvFuncWaiting L ad s
    let p := recvFuncPrehandle L ad s.queues f
    let s := s.carryOut p.2.2
    if p.1 = .success then recvFuncValidated L ad s p.2.1 else s

/-- One received frame and the configuration it is received under -/
structure RxCall where
  adapter : Adapter
  /-- the contents; the frame object is taken from the free queue -/
  frame : RecvFrame

/-- A frame comes in: `rtw_alloc_recvframe`, and `recv_func` if there was a frame object -/
def recvEntry (L : RxLeaves) (s : RecvPriv) (e : RxCall) : RecvPriv :=
  match s.freeRecvQueue with
  | [] => s
  | i :: q =>
    recvFunc L e.adapter { s with freeRecvQueue := q, freeRecvframeCnt := s.freeRecvframeCnt - 1 }
      { e.frame with id := i }

/-- The pool after `_rtw_init_recv_priv`, with reorder windows of 64 -/
def RecvPriv.init : RecvPriv where
  freeRecvQueue := List.range NR_RECVFRAME
  freeRecvframeCnt := NR_RECVFRAME
  ucSwdecPendingQueue := []
  queues := fun _ => ⟨[], fun _ => ⟨false, 0xffff, 64, [], false⟩⟩

end Rtl8188fu
