import Rtl8188fu.Include.Wifi
import Rtl8188fu.Library.TwoQueues
import Rtl8188fu.OsDep.Jiffies

/-! # The scan table

The functions of `rtw_mlme.c` and `rtw_cmd.c` that move `wlan_network` objects between
`free_bss_pool` and `scanned_queue`, or change what they describe. An object is its index in
`free_bss_buf`. `last_scanned` is the `u32` that `rtw_get_current_time` returns, in an `unsigned long`.
Signal strengths, rates and the elements behind the fixed ones are only copied, so only their bytes
are here.
-/
namespace Rtl8188fu
open Bytes

def MAX_BSS_CNT : ℕ := 128
def SCANQUEUE_LIFETIME : ℕ := 20000

inductive Infra
  | infrastructure
  | ibss
  | other
  deriving DecidableEq, Repr

structure BssidEx where
  macAddress : MacAddr
  /-- `Reserved[0]`: 1 for a beacon, 2 for a probe request, 3 for a probe response -/
  reserved : ℕ
  /-- the bytes of `Ssid` up to `SsidLength` -/
  ssid : List UInt8
  infrastructureMode : Infra
  ieLength : ℕ
  ies : List UInt8
  fits : ieLength ≤ ies.length
  deriving DecidableEq, Repr

/-- `rtw_get_capability_from_ie` -/
def BssidEx.cap (b : BssidEx) : ℕ := le16At b.ies 10

/-- `memcpy` of `get_WLAN_BSSID_EX_sz(src)` bytes: what is behind the elements of `src` stays. -/
def BssidEx.copy (dst src : BssidEx) : BssidEx :=
  { src with
    ies := src.ies.take src.ieLength ++ dst.ies.drop src.ieLength
    fits := by
      have := src.fits
      rw [List.length_append, List.length_take]
      omega }

/-- What `is_same_network` compares: the address, the SSID, and the ESS and IBSS bits -/
def BssidEx.key (b : BssidEx) : MacAddr × List UInt8 × Bool × Bool :=
  (b.macAddress,b.ssid,b.cap.testBit 0,b.cap.testBit 1)

/-- `is_same_network` with `feature` 0 -/
def isSameNetwork (src dst : BssidEx) : Bool := src.key = dst.key

structure WlanNetwork where
  network : BssidEx
  fixed : Bool
  lastScanned : ℕ
  deriving DecidableEq, Repr

inductive FwMode
  | station
  | adhoc
  | adhocMaster
  | other
  deriving DecidableEq, Repr

structure MlmePriv where
  heap : ℕ → WlanNetwork
  freeBssPool : List ℕ
  scannedQueue : List ℕ
  numOfScanned : ℕ
  curNetwork : BssidEx
  curNetworkScanned : Option ℕ
  /-- `_FW_LINKED`, `_FW_UNDER_LINKING`, `WIFI_UNDER_WPS` and the mode of `fw_state` -/
  linked : Bool
  underLinking : Bool
  underWps : Bool
  mode : FwMode
  /-- The P2P state is not `P2P_STATE_NONE`. -/
  p2p : Bool
  clock : Clock

def BssidEx.zero : BssidEx := ⟨[],0,[],.other,0,List.replicate 768 0,Nat.zero_le _⟩

def MlmePriv.init (clock : Clock) : MlmePriv where
  heap := fun _ => ⟨.zero,false,0⟩
  freeBssPool := List.range MAX_BSS_CNT
  scannedQueue := []
  numOfScanned := 0
  curNetwork := .zero
  curNetworkScanned := none
  linked := false
  underLinking := false
  underWps := false
  mode := .station
  p2p := false
  clock := clock

namespace MlmePriv

def net (s : MlmePriv) (p : ℕ) : BssidEx := (s.heap p).network

def write (s : MlmePriv) (p : ℕ) (f : WlanNetwork → WlanNetwork) : MlmePriv :=
  { s with heap := Function.update s.heap p (f (s.heap p)) }

/-- `rtw_list_delete` and `rtw_list_insert_tail` to `free_bss_pool`, and `num_of_scanned --` -/
def moveToFree (s : MlmePriv) (p : ℕ) : MlmePriv :=
  { s with
    freeBssPool := s.freeBssPool.erase p ++ [p]
    scannedQueue := s.scannedQueue.erase p
    numOfScanned := (s.numOfScanned + 2 ^ 32 - 1) % 2 ^ 32 }

/-- The head of the pool is taken and linked to the tail of `scanned_queue`: `_rtw_alloc_network`
with what its callers do. -/
def takeFree (s : MlmePriv) (p : ℕ) (rest : List ℕ) : MlmePriv :=
  { s.write p fun e => { e with fixed := false, lastScanned := s.clock.rtwGetCurrentTime } with
    freeBssPool := rest
    scannedQueue := s.scannedQueue ++ [p]
    numOfScanned := (s.numOfScanned + 1) % 2 ^ 32 }

/-- The lifetime in `_rtw_free_network` -/
def lifetime (s : MlmePriv) : ℕ := if s.mode = .adhocMaster ∨ s.mode = .adhoc then 1 else SCANQUEUE_LIFETIME

/-- `_rtw_free_network` frees the entry. -/
def due (s : MlmePriv) (isfreeall : Bool) (p : ℕ) : Bool :=
  !(s.heap p).fixed && (isfreeall || decide (s.lifetime ≤ s.clock.passingMs (s.heap p).lastScanned))

def freeNetwork (isfreeall : Bool) (s : MlmePriv) (p : ℕ) : MlmePriv :=
  if s.due isfreeall p then s.moveToFree p else s

def freeNetworkNolock (s : MlmePriv) (p : ℕ) : MlmePriv := if (s.heap p).fixed then s else s.moveToFree p

def freeNetworkQueue (s : MlmePriv) (isfreeall : Bool) : MlmePriv := s.scannedQueue.foldl (freeNetwork isfreeall) s

def freeScanqueue (s : MlmePriv) : MlmePriv := s.scannedQueue.foldl moveToFree s

def findSameNetwork (s : MlmePriv) (network : BssidEx) : Option ℕ :=
  s.scannedQueue.find? fun p => isSameNetwork network (s.net p)

def findNetwork (s : MlmePriv) (addr : MacAddr) : Option ℕ :=
  if addr = List.replicate 6 0 then none else s.scannedQueue.find? fun p => decide (addr = (s.net p).macAddress)

/-- `oldest`, with another entry -/
def older (s : MlmePriv) (oldest : Option ℕ) (p : ℕ) : Option ℕ :=
  match oldest with
  | none => some p
  | some q => if s.clock.timeAfter (s.heap q).lastScanned (s.heap p).lastScanned then some p else some q

/-- `rtw_get_oldest_wlan_network`, which leaves fixed entries out -/
def getOldestWlanNetwork (s : MlmePriv) : Option ℕ :=
  s.scannedQueue.foldl (fun oldest p => if (s.heap p).fixed then oldest else s.older oldest p) none

/-- The comparison in `rtw_update_scanned_network`: with P2P the address is enough. -/
def surveyMatches (s : MlmePriv) (target : BssidEx) (p : ℕ) : Bool :=
  (s.p2p && decide ((s.net p).macAddress = target.macAddress)) || isSameNetwork (s.net p) target

/-- The loop of `rtw_update_scanned_network`: the match, and the oldest entry before it -/
def surveyLoop (s : MlmePriv) (target : BssidEx) (oldest : Option ℕ) : List ℕ → Option ℕ × Option ℕ
  | [] => (none,oldest)
  | p :: rest => if s.surveyMatches target p then (some p,oldest) else s.surveyLoop target (s.older oldest p) rest

def updateIe (s : MlmePriv) (target : BssidEx) (p : ℕ) : Bool :=
  decide (target.reserved ≠ 2 ∧ (s.net p).reserved ≤ target.reserved)

def updateScannedNetwork (s : MlmePriv) (target : BssidEx) : MlmePriv :=
  match s.surveyLoop target none s.scannedQueue with
  | (some p,_) =>
    s.write p fun e =>
      { e with
        network := if s.updateIe target p then e.network.copy target else e.network
        lastScanned := s.clock.rtwGetCurrentTime }
  | (none,oldest) =>
    match s.freeBssPool with
    | [] =>
      match oldest with
      | none => s
      | some p => s.write p fun e =>
        { network := e.network.copy target, fixed := false, lastScanned := s.clock.rtwGetCurrentTime }
    | p :: rest => (s.takeFree p rest).write p fun e => { e with network := e.network.copy target }

def updateCurrentNetwork (s : MlmePriv) (target : BssidEx) : MlmePriv :=
  if s.linked && isSameNetwork s.curNetwork target then { s with curNetwork := s.curNetwork.copy target } else s

/-- `rtw_add_network`, after it has removed P2P and WFD elements -/
def addNetwork (s : MlmePriv) (target : BssidEx) : MlmePriv :=
  (s.updateCurrentNetwork target).updateScannedNetwork target

/-- An entry that was found is not fixed any more. -/
def unfix (s : MlmePriv) : Option ℕ → MlmePriv
  | some p => s.write p fun e => { e with fixed := false }
  | none => s

/-- The entry that is joined is fixed in station mode. -/
def fixTarget (s : MlmePriv) : Option ℕ → MlmePriv
  | some p => if s.mode = .station then s.write p fun e => { e with fixed := true } else s
  | none => s

/-- `s1` of `rtw_joinbss_event_prehandle`: the entry that is joined -/
def joinTarget (s : MlmePriv) (network : BssidEx) : MlmePriv × Option ℕ :=
  if s.linked then
    if network.macAddress = s.curNetwork.macAddress then (s,s.findNetwork s.curNetwork.macAddress)
    else
      let s := s.unfix (s.findNetwork s.curNetwork.macAddress)
      (s.fixTarget (s.findNetwork network.macAddress),s.findNetwork network.macAddress)
  else (s.fixTarget (s.findSameNetwork network),s.findSameNetwork network)

def joinUpdateNetwork (s : MlmePriv) (p : ℕ) (network : BssidEx) : MlmePriv :=
  { s with
    curNetwork := { network with ieLength := (s.net p).ieLength, ies := (s.net p).ies, fits := (s.net p).fits }
    linked := false
    underLinking := false
    underWps := s.underWps && decide (network.infrastructureMode = .infrastructure)
    mode :=
      match network.infrastructureMode with
      | .infrastructure => .station
      | .ibss => .adhoc
      | .other => .other }

/-- `rtw_joinbss_event_prehandle`; `staOk` tells that the station could be updated. -/
def joinbssEvent (s : MlmePriv) (network : BssidEx) (joinRes : ℤ) (staOk : Bool) : MlmePriv :=
  if 0 < joinRes then
    if s.underLinking then
      let r := s.joinTarget network
      match r.2 with
      | none => r.1
      | some p =>
        let s := r.1.joinUpdateNetwork p network
        if s.mode = .station ∧ staOk = false then s
        else if s.mode = .station ∨ s.mode = .adhoc then { s with curNetworkScanned := some p, linked := true }
        else s
    else s
  else { s with underLinking := false }

/-- The entry that `rtw_create_ibss_post_hdl` uses -/
def ibssEntry (s : MlmePriv) : Option (MlmePriv × ℕ) :=
  match s.freeBssPool with
  | p :: rest => some (s.takeFree p rest,p)
  | [] => s.getOldestWlanNetwork.map fun p => (s.write p fun e => { e with lastScanned := s.clock.rtwGetCurrentTime },p)

/-- `rtw_create_ibss_post_hdl` -/
def createIbss (s : MlmePriv) (devNetwork : BssidEx) : MlmePriv :=
  match s.ibssEntry with
  | none => s
  | some (s,p) =>
    { s.write p fun e => { e with network := e.network.copy devNetwork } with
      curNetwork := s.curNetwork.copy devNetwork
      underLinking := false }

/-- `rtw_free_assoc_resources`, with `asoc_sta_count` behind what it does to the stations -/
def freeAssocResources (s : MlmePriv) (asocStaCount : ℕ) : MlmePriv :=
  match s.findSameNetwork s.curNetwork with
  | none => s
  | some p =>
    let s := if s.underWps then s else (s.write p fun e => { e with fixed := false }).freeNetworkNolock p
    if s.mode = .adhocMaster ∧ asocStaCount = 1 then s.freeNetworkNolock p else s

def indicateDisconnect (s : MlmePriv) : MlmePriv := { s with linked := false, underLinking := false, underWps := false }

end MlmePriv

inductive ScanEvent
  /-- `rtw_add_network` -/
  | survey (target : BssidEx)
  | flush (isfreeall : Bool)
  | p2p (on : Bool)
  | join (network : BssidEx) (joinRes : ℤ) (staOk : Bool)
  | createIbss (devNetwork : BssidEx)
  /-- The callers free the resources and indicate the disconnect, in one order or the other. -/
  | disconnect (indicateFirst : Bool) (asocStaCount : ℕ)
  /-- `_rtw_join_timeout_handler`, when there is no roaming or its last try has failed -/
  | joinTimeout (roaming : Bool)
  /-- Something else sets `_FW_UNDER_LINKING`, `WIFI_UNDER_WPS` or the mode. -/
  | linking
  | wps (on : Bool)
  | setMode (mode : FwMode)
  | wait (ticks : ℕ)

def scanStep (s : MlmePriv) : ScanEvent → MlmePriv
  | .survey target => s.addNetwork target
  | .flush isfreeall => s.freeNetworkQueue isfreeall
  | .p2p on => { s with p2p := on }
  | .join network joinRes staOk => s.joinbssEvent network joinRes staOk
  | .createIbss devNetwork => s.createIbss devNetwork
  | .disconnect true n => s.indicateDisconnect.freeAssocResources n
  | .disconnect false n => (s.freeAssocResources n).indicateDisconnect
  | .joinTimeout true => s.indicateDisconnect
  | .joinTimeout false => s.indicateDisconnect.freeScanqueue
  | .linking => { s with underLinking := true }
  | .wps on => { s with underWps := on }
  | .setMode mode => { s with mode := mode }
  | .wait ticks => { s with clock := s.clock.wait ticks }

end Rtl8188fu
