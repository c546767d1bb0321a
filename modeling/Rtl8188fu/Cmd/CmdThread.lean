import Rtl8188fu.Library.Run

/-! # Command objects

The objects that are handed to `rtw_enqueue_cmd`, the queue of the command thread, and the submit
contexts on the stacks of the callers that wait for their command.
-/
namespace Rtl8188fu

def MAX_CMDSZ : ℕ := 1024

def H2C_SUCCESS : ℕ := 0
def H2C_DROPPED : ℕ := 3
def H2C_PARAMETERS_ERROR : ℕ := 4

def _DisConnect_CMD_ : ℕ := 15
def _Set_Drv_Extra_CMD_ : ℕ := 57
def _SetChannelPlan_CMD_ : ℕ := 59

inductive ParmBuf
  | null
  | parm
  /-- `struct drvextra_cmd_parm`: whether `pbuf` is not `NULL`, and `size` -/
  | drvextra (pbuf : Bool) (size : ℕ)
deriving DecidableEq

structure CmdObj where
  cmdcode : ℕ
  parmbuf : ParmBuf
  cmdsz : ℕ
  rsp : Bool
  rspsz : ℕ
  /-- whether a submit context is attached -/
  sctx : Bool
  noIo : Bool
  extraParm : cmdcode = _Set_Drv_Extra_CMD_ ↔ ∃ pbuf size, parmbuf = .drvextra pbuf size

instance : Inhabited CmdObj := ⟨⟨0,.null,0,false,0,false,false,by simp [_Set_Drv_Extra_CMD_]⟩⟩

/-- What `rtw_mfree` is called on; objects are told apart by the order in which they were handed over. -/
inductive CmdBlock
  | cmdObj (a : ℕ)
  | parmbuf (a : ℕ)
  | pbuf (a : ℕ)
  | rsp (a : ℕ)
deriving DecidableEq

inductive CmdEffect
  /-- `rtw_enqueue_cmd` is called on an object with a submit context. -/
  | attach (a : ℕ)
  /-- The object is put into the queue. -/
  | accept (a : ℕ)
  /-- The handler of the command runs. -/
  | exec (a : ℕ)
  /-- `rtw_sctx_done_err` on the submit context of the object -/
  | complete (a : ℕ)
  /-- The waiter writes `cmdobj->sctx = NULL`. -/
  | detach (a : ℕ)
  | free (b : CmdBlock)
deriving DecidableEq

inductive SctxStatus
  | RTW_SCTX_SUBMITTED
  | RTW_SCTX_DONE_SUCCESS
  | RTW_SCTX_DONE_CMD_ERROR
deriving DecidableEq

namespace CmdObj

def freeParmbuf (o : CmdObj) (a : ℕ) : List CmdEffect := if o.parmbuf = .null then [] else [.free (.parmbuf a)]

def freeCmdObj (o : CmdObj) (a : ℕ) : List CmdEffect :=
  o.freeParmbuf a ++ (if o.rsp = true ∧ o.rspsz ≠ 0 then [.free (.rsp a)] else []) ++ [.free (.cmdObj a)]

/-- `if (extra_parm->pbuf && extra_parm->size > 0) rtw_mfree(…)` -/
def freePbuf (o : CmdObj) (a : ℕ) : List CmdEffect :=
  match o.parmbuf with
  | .drvextra true size => if 0 < size then [.free (.pbuf a)] else []
  | _ => []

/-- The same, made for `_Set_Drv_Extra` only -/
def freeExtra (o : CmdObj) (a : ℕ) : List CmdEffect := if o.cmdcode = _Set_Drv_Extra_CMD_ then o.freePbuf a else []

end CmdObj

inductive CmdHdl
  | rtw_drvextra_cmd_hdl
  | other

/-- The handlers by command code; most have nothing to do with the memory of the command. -/
def wlancmds : List (Option CmdHdl) :=
  List.flatten [[some .other],List.replicate 13 none,List.replicate 8 (some .other),List.replicate 23 none,
    List.replicate 2 (some .other),List.replicate 8 none,List.replicate 2 (some .other),[some .rtw_drvextra_cmd_hdl],
    List.replicate 8 (some .other)]

def CmdHdl.frees (o : CmdObj) (a : ℕ) : CmdHdl → List CmdEffect
  | .rtw_drvextra_cmd_hdl => o.freePbuf a
  | .other => []

inductive CmdCallback
  | rtw_getmacreg_cmdrsp_callback
  | rtw_getbbrfreg_cmdrsp_callback
  | rtw_joinbss_cmd_callback
  | rtw_disassoc_cmd_callback
  | rtw_survey_cmd_callback
  | rtw_setstaKey_cmdrsp_callback
  | rtw_setassocsta_cmdrsp_callback
deriving DecidableEq

def rtw_cmd_callback : List (Option CmdCallback) :=
  List.flatten [[some .rtw_getmacreg_cmdrsp_callback,none,some .rtw_getbbrfreg_cmdrsp_callback,none,
    some .rtw_getbbrfreg_cmdrsp_callback],List.replicate 9 none,[some .rtw_joinbss_cmd_callback,
    some .rtw_disassoc_cmd_callback,none,none,some .rtw_survey_cmd_callback,none,none,
    some .rtw_setstaKey_cmdrsp_callback,some .rtw_setassocsta_cmdrsp_callback],List.replicate 43 none]

def CmdCallback.frees (o : CmdObj) (a : ℕ) (res : ℕ) : CmdCallback → List CmdEffect
  -- the only one that looks at the result before it frees
  | .rtw_disassoc_cmd_callback => if res ≠ H2C_SUCCESS then [] else o.freeCmdObj a
  -- the response is a variable of the caller
  | .rtw_getbbrfreg_cmdrsp_callback => o.freeParmbuf a ++ [.free (.cmdObj a)]
  | _ => o.freeCmdObj a

/-- The end of an iteration: the callback of the command, or `rtw_free_cmd_obj` where there is none. -/
def CmdObj.callback (o : CmdObj) (a : ℕ) (res : ℕ) : List CmdEffect :=
  match rtw_cmd_callback[o.cmdcode]? with
  | some (some callback) => callback.frees o a res
  | some none => o.freeCmdObj a
  | none => o.freeCmdObj a

/-- `struct cmd_priv`, the objects by number, and the callers that wait -/
structure CmdPriv where
  hwInitCompleted : Bool
  cmdthdRunning : Bool
  cmdQueue : List ℕ
  next : ℕ
  obj : ℕ → CmdObj
  waiters : List ℕ
  status : ℕ → SctxStatus
  log : List CmdEffect

namespace CmdPriv

def init : CmdPriv := ⟨false,false,[],0,fun _ => default,[],fun _ => .RTW_SCTX_SUBMITTED,[]⟩

/-- `rtw_cmd_filter`: whether the command is let through -/
def filter (s : CmdPriv) (o : CmdObj) : Bool :=
  let bAllow := decide (o.cmdcode = _SetChannelPlan_CMD_) || o.noIo
  !(!s.hwInitCompleted && !bAllow || !s.cmdthdRunning)

/-- `rtw_enqueue_cmd`, and the caller that waits for the command if it has attached a submit context.
A command that is too long is freed, but the result is that of the filter. -/
def enqueueCmd (s : CmdPriv) (o : CmdObj) : CmdPriv :=
  let a := s.next
  let res := s.filter o
  let attach : List CmdEffect := if o.sctx then [.attach a] else []
  let s := { s with
    next := a + 1
    obj := Function.update s.obj a o
    status := Function.update s.status a .RTW_SCTX_SUBMITTED
    waiters := if res && o.sctx then a :: s.waiters else s.waiters }
  if res = false ∨ MAX_CMDSZ < o.cmdsz then { s with log := s.log ++ attach ++ o.freeExtra a ++ o.freeCmdObj a }
  else { s with cmdQueue := s.cmdQueue ++ [a], log := s.log ++ attach ++ [.accept a] }

/-- What `rtw_cmd_thread` does with a command up to `post_process`: its result and what happens -/
def process (s : CmdPriv) (o : CmdObj) (a : ℕ) (result : UInt8) : ℕ × List CmdEffect :=
  if MAX_CMDSZ < o.cmdsz then (H2C_PARAMETERS_ERROR,[])
  else match wlancmds[o.cmdcode]? with
    | none => (H2C_PARAMETERS_ERROR,[])
    | some none => (H2C_PARAMETERS_ERROR,[])
    | some (some cmdHdl) =>
      if s.filter o = false then (H2C_DROPPED,o.freeExtra a) else (result.toNat,.exec a :: cmdHdl.frees o a)

/-- One iteration of `rtw_cmd_thread`, with what the handler returns if it is run -/
def iterate (s : CmdPriv) (result : UInt8) : CmdPriv :=
  if s.cmdthdRunning = false then s
  else match s.cmdQueue with
    | [] => s
    | a :: rest =>
      let o := s.obj a
      let (res,done) := s.process o a result
      let complete : List CmdEffect := if o.sctx then [.complete a] else []
      { s with
        cmdQueue := rest
        obj := Function.update s.obj a { o with sctx := false }
        status := if o.sctx then
            Function.update s.status a (if res = H2C_SUCCESS then .RTW_SCTX_DONE_SUCCESS else .RTW_SCTX_DONE_CMD_ERROR)
          else s.status
        log := s.log ++ done ++ complete ++ o.callback a res }

/-- `rtw_sctx_wait` returns, because of a timeout or because the command is done. -/
def wake (s : CmdPriv) (a : ℕ) : CmdPriv :=
  if a ∈ s.waiters then
    let s := { s with waiters := s.waiters.filter (· ≠ a) }
    if s.status a = .RTW_SCTX_SUBMITTED then
      { s with obj := Function.update s.obj a { s.obj a with sctx := false }, log := s.log ++ [.detach a] }
    else s
  else s

/-- The end of `rtw_cmd_thread`: what is left in the queue is dropped. -/
def stop (s : CmdPriv) : CmdPriv :=
  if s.cmdthdRunning = false then s
  else { s with
    cmdthdRunning := false
    cmdQueue := []
    log := s.log ++ s.cmdQueue.flatMap fun a => (s.obj a).freeExtra a ++ (s.obj a).freeCmdObj a }

end CmdPriv

inductive CmdEvent
  | enqueue (o : CmdObj)
  | iterate (result : UInt8)
  | wake (a : ℕ)
  | start
  | stop
  | hwInit (completed : Bool)

def cmdStep (s : CmdPriv) : CmdEvent → CmdPriv
  | .enqueue o => s.enqueueCmd o
  | .iterate result => s.iterate result
  | .wake a => s.wake a
  | .start => { s with cmdthdRunning := true }
  | .stop => s.stop
  | .hwInit completed => { s with hwInitCompleted := completed }

def cmdRun (es : List CmdEvent) : CmdPriv := Run.run cmdStep .init es

end Rtl8188fu
