import Rtl8188fu.Include.RtwSecurity

/-! # The station table of an access point

`sta_priv` with its station objects, and the handlers that move them between the free queue,
the hash, the two lists and the AID table, built without 802.11w. A station object is its
index in `pstainfo_buf`. What the handlers do to the other parts of a station is reported
as effects.
-/
namespace Rtl8188fu

def numSta : ℕ := 32

/-- The fields of `sta_info` that decide where a station is. The bits of `state` are
`WIFI_FW_AUTH_NULL`, `WIFI_FW_AUTH_STATE`, `WIFI_FW_AUTH_SUCCESS` (which is also
`WIFI_STA_ALIVE_CHK_STATE`), `WIFI_FW_ASSOC_STATE` and `WIFI_FW_ASSOC_SUCCESS`. -/
structure StaNode where
  hwaddr : MacAddr
  aid : ℕ
  authNull : Bool
  authState : Bool
  authSuccess : Bool
  assocState : Bool
  assocSuccess : Bool
  authSeq : ℕ
  expireTo : ℕ
  keepAliveTrycnt : ℕ
  deriving DecidableEq, Repr

/-- `_rtw_init_stainfo` followed by the address -/
def StaNode.fresh (hwaddr : MacAddr) : StaNode := ⟨hwaddr,0,false,false,false,false,false,0,0,0⟩

structure StaTable where
  sta : ℕ → StaNode
  freeStaQueue : List ℕ
  staHash : ℕ → List ℕ
  asocStaCount : ℤ
  asocList : List ℕ
  asocListCnt : ℤ
  authList : List ℕ
  authListCnt : ℤ
  staAid : ℕ → Option ℕ
  maxNumSta : ℕ

/-- What an association request tells about the station -/
structure AssocCaps where
  /-- `WLAN_STA_SHORT_PREAMBLE` of the flags -/
  shortPreamble : Bool
  /-- `WLAN_STA_NONERP` -/
  nonErp : Bool
  /-- `WLAN_CAPABILITY_SHORT_SLOT` -/
  shortSlot : Bool
  /-- `WLAN_STA_HT`, and then `IEEE80211_HT_CAP_GRN_FLD` and `IEEE80211_HT_CAP_SUP_WIDTH` -/
  ht : Option (Bool × Bool)
  /-- `qos_info` of a WMM element, if the access point has QoS -/
  qosInfo : Option ℕ
  deriving DecidableEq, Repr

/-- What the handlers do to the other parts of the station with an index -/
inductive StaEffect
  /-- `_rtw_init_stainfo` -/
  | fresh (i : ℕ)
  /-- the U-APSD flags of an association request -/
  | qos (i : ℕ) (qosInfo : Option ℕ)
  /-- `bss_cap_update_on_sta_join` -/
  | join (i : ℕ) (caps : AssocCaps)
  /-- `bss_cap_update_on_sta_leave` -/
  | leave (i : ℕ)
  /-- `rtw_free_stainfo`, with the AID that the station had -/
  | free (i aid : ℕ)
  /-- the TIM bit of a sleeping station that has not been heard -/
  | poll (i aid : ℕ)
  /-- the check whether `sleep_q` has grown too long -/
  | aging (i : ℕ)
  deriving DecidableEq, Repr

/-- The table after `_rtw_init_sta_priv` -/
def StaTable.init : StaTable where
  sta _ := .fresh []
  freeStaQueue := List.range numSta
  staHash _ := []
  asocStaCount := 0
  asocList := []
  asocListCnt := 0
  authList := []
  authListCnt := 0
  staAid _ := none
  maxNumSta := numSta

def wifiMacHash (mac : MacAddr) : ℕ :=
  let x := mac.foldl (fun x b => (x <<< 2) ^^^ b.toNat) 0
  (x ^^^ (x >>> 8)) % numSta

namespace StaTable

def setSta (t : StaTable) (i : ℕ) (n : StaNode) : StaTable := { t with sta := Function.update t.sta i n }

def getStainfo (t : StaTable) (hwaddr : MacAddr) : Option ℕ :=
  (t.staHash (wifiMacHash (staKey hwaddr))).find? fun i => (t.sta i).hwaddr = staKey hwaddr

def allocStainfo (t : StaTable) (hwaddr : MacAddr) : Option (ℕ × StaTable) :=
  match t.freeStaQueue with
  | [] => none
  | i :: rest =>
    some (i, { t.setSta i (.fresh hwaddr) with
      freeStaQueue := rest
      staHash := Function.update t.staHash (wifiMacHash hwaddr) (t.staHash (wifiMacHash hwaddr) ++ [i])
      asocStaCount := t.asocStaCount + 1 })

/-- A station that is on `auth_list` leaves it. -/
def authRemove (t : StaTable) (i : ℕ) : StaTable :=
  if i ∈ t.authList then { t with authList := t.authList.erase i, authListCnt := t.authListCnt - 1 } else t

/-- A station that is on `asoc_list` leaves it. -/
def asocRemove (t : StaTable) (i : ℕ) : StaTable :=
  if i ∈ t.asocList then { t with asocList := t.asocList.erase i, asocListCnt := t.asocListCnt - 1 } else t

def authInsert (t : StaTable) (i : ℕ) : StaTable :=
  if i ∈ t.authList then t else { t with authList := t.authList ++ [i], authListCnt := t.authListCnt + 1 }

def asocInsert (t : StaTable) (i : ℕ) : StaTable :=
  if i ∈ t.asocList then t
  else { t.setSta i { t.sta i with expireTo := 3 } with
    asocList := t.asocList ++ [i], asocListCnt := t.asocListCnt + 1 }

def freeStainfo (t : StaTable) (i : ℕ) : StaTable :=
  let t := { t with staHash := fun b => (t.staHash b).erase i, asocStaCount := t.asocStaCount - 1 }
  let t := t.authRemove i
  let aid := (t.sta i).aid
  let t := t.setSta i { t.sta i with expireTo := 0 }
  let t :=
    if 0 < aid ∧ t.staAid (aid - 1) = some i then
      { t.setSta i { t.sta i with aid := 0 } with staAid := Function.update t.staAid (aid - 1) none }
    else t
  { t with freeStaQueue := t.freeStaQueue ++ [i] }

def apFreeSta (t : StaTable) (i : ℕ) : StaTable × List StaEffect :=
  (t.freeStainfo i, [.leave i,.free i (t.sta i).aid])

end StaTable

/-- An authentication frame: what is read of it and of the security settings -/
structure AuthFrame where
  sa : MacAddr
  algorithm : ℕ
  seq : ℕ
  /-- the element with the challenge text is there and has the text that was sent -/
  challengeOk : Bool
  authMode : AuthAlgrthm
  /-- `dot11PrivacyAlgrthm` is `_WEP40_` or `_WEP104_` -/
  wep : Bool
  /-- `rtw_access_ctrl` -/
  allowed : Bool

def AuthFrame.mode (f : AuthFrame) : AuthAlgrthm :=
  if f.authMode = .ieee8021X ∧ !f.wep then .openSystem else f.authMode

/-- A frame that is refused before its station is looked up -/
def AuthFrame.badAlg (f : AuthFrame) : Bool :=
  (0 < f.algorithm ∧ f.mode = .openSystem) ∨ (f.algorithm = 0 ∧ f.mode = .shared)

/-- The sequence checks of `OnAuth` and what they make of the station; `none` for `auth_fail` -/
def authCheck (f : AuthFrame) (n : StaNode) : Option StaNode :=
  if n.authSeq + 1 ≠ f.seq then none
  else if f.algorithm = 0 ∧ (f.mode = .openSystem ∨ f.mode = .ieee8021X ∨ f.mode = .auto) then
    if f.seq = 1 then some { n with authNull := false, authSuccess := true, expireTo := 3 } else none
  else if f.seq = 1 then some { n with authNull := false, authState := true, authSeq := 2 }
  else if f.seq = 3 then
    if f.challengeOk then some { n with authState := false, authSuccess := true, expireTo := 3 } else none
  else none

/-- `auth_seq` after an accepted frame -/
def authDone (f : AuthFrame) (n : StaNode) : StaNode :=
  { n with authSeq := if n.authSuccess || n.assocSuccess then 0 else f.seq + 1 }

/-- The part of `OnAuth` behind the search for the station -/
def onAuthSta (t : StaTable) (f : AuthFrame) (i : ℕ) : StaTable × List StaEffect :=
  let t := t.authInsert i
  let n := if (t.sta i).authSeq = 0 then { t.sta i with expireTo := 3 } else t.sta i
  let t := t.setSta i n
  match authCheck f n with
  | none => (t.freeStainfo i, [.free i n.aid])
  | some n => (t.setSta i (authDone f n), [])

def onAuth (t : StaTable) (f : AuthFrame) : StaTable × List StaEffect :=
  if f.badAlg || !f.allowed then (t, [])
  else
    match t.getStainfo f.sa with
    | some i => onAuthSta (t.asocRemove i) f i
    | none =>
      match t.allocStainfo f.sa with
      | none => (t, [])
      | some (i, t) =>
        let r := onAuthSta (t.setSta i { t.sta i with authNull := true, authSeq := 0 }) f i
        (r.1, .fresh i :: r.2)

/-- Why a request is refused before an AID is looked for -/
inductive AssocRefusal
  | elements
  | ssid
  | rates
  | cipher
  | wps
  | noWpa
  | ht
  | p2p
  deriving DecidableEq, Repr

/-- The check comes before the WMM element is read. -/
def AssocRefusal.beforeQos : AssocRefusal → Bool
  | .ht | .p2p => false
  | _ => true

/-- An association or re-association request: what is read of it, and the first check that
it fails in the network as it is -/
structure AssocReq where
  ta : MacAddr
  tooShort : Bool
  refusal : Option AssocRefusal
  caps : AssocCaps

/-- The AID of an accepted request, and whether it is a new one; `none` when there is no room.
The loop also ends without a free AID. -/
def assocAid (t : StaTable) (n : StaNode) : Option (ℕ × Bool) :=
  if 0 < n.aid then some (n.aid, false)
  else
    match (List.range numSta).find? fun a => (t.staAid a).isNone with
    | none => some (numSta + 1, false)
    | some a => if t.maxNumSta < a + 1 then none else some (a + 1, true)

/-- The end of `OnAssocReq` for a request that is refused -/
def assocReqFail (t : StaTable) (i : ℕ) : StaTable := t.setSta i { t.sta i with aid := 0 }

/-- `OnAssocReq` for a known station -/
def onAssocReqSta (t : StaTable) (f : AssocReq) (i : ℕ) : StaTable × List StaEffect :=
  let n := t.sta i
  if !n.authSuccess && !n.assocSuccess then (t, [])
  else
    let n :=
      if n.authSuccess then { n with authSuccess := false, assocState := true }
      else { n with assocSuccess := false, assocState := true }
    let t := t.setSta i n
    let qos := StaEffect.qos i f.caps.qosInfo
    match f.refusal with
    | some r => (assocReqFail t i, if r.beforeQos then [] else [qos])
    | none =>
      match assocAid t n with
      | none => (assocReqFail t i, [qos])
      | some (aid, new) =>
        let t := if new then { t with staAid := Function.update t.staAid (aid - 1) (some i) } else t
        let t := t.setSta i { n with aid := aid, assocState := false, assocSuccess := true }
        ((t.authRemove i).asocInsert i, [qos,.join i f.caps])

def onAssocReq (t : StaTable) (f : AssocReq) : StaTable × List StaEffect :=
  if f.tooShort then (t, [])
  else
    match t.getStainfo f.ta with
    | none => (t, [])
    | some i => onAssocReqSta t f i

/-- A station on `asoc_list` is removed. -/
def asocLeave (t : StaTable) (i : ℕ) : StaTable × List StaEffect :=
  if i ∈ t.asocList then (t.asocRemove i).apFreeSta i else (t, [])

/-- `OnDeAuth` and `OnDisassoc` of an access point, and `rtw_del_sta` -/
def onDeAuth (t : StaTable) (ta : MacAddr) : StaTable × List StaEffect :=
  match t.getStainfo ta with
  | none => (t, [])
  | some i => asocLeave t i

/-- `cfg80211_rtw_del_station` of one station; the station waits for its key when `dot8021xalg`
is set and no pairwise key is installed -/
def delStation (t : StaTable) (mac : MacAddr) (keyPending : ℕ → Bool) : StaTable × List StaEffect :=
  match t.asocList.find? fun i => decide ((t.sta i).hwaddr = mac) && !keyPending i with
  | none => (t, [])
  | some i => asocLeave t i

/-- The effects of one station after another -/
def forEachSta (body : StaTable → ℕ → StaTable × List StaEffect) (t : StaTable) (is : List ℕ) :
    StaTable × List StaEffect :=
  is.foldl (fun r i => let q := body r.1 i; (q.1, r.2 ++ q.2)) (t, [])

/-- `rtw_sta_flush`: all stations leave `asoc_list`, and then they are freed -/
def staFlush (t : StaTable) : StaTable × List StaEffect :=
  forEachSta StaTable.apFreeSta (t.asocList.foldl StaTable.asocRemove t) t.asocList

structure ExpireChk where
  /-- `chk_sta_is_alive` -/
  alive : ℕ → Bool
  /-- `WIFI_SLEEP_STATE` -/
  sleep : ℕ → Bool
  wifiSpec : Bool
  activeKeepAliveCheck : Bool
  /-- whether the null frame to a station is answered, if the station is linked -/
  answer : ℕ → Option Bool

/-- A station on `auth_list` -/
def expireAuth (t : StaTable) (i : ℕ) : StaTable × List StaEffect :=
  let n := t.sta i
  if n.expireTo = 0 then (t, [])
  else
    let t := t.setSta i { n with expireTo := n.expireTo - 1 }
    if n.expireTo = 1 then ((t.authRemove i).freeStainfo i, [.free i n.aid]) else (t, [])

/-- A station on `asoc_list`; the third part tells that a null frame is to be sent. -/
def expireAsoc (c : ExpireChk) (t : StaTable) (i : ℕ) : StaTable × List StaEffect × Bool :=
  let n := t.sta i
  let n := if c.alive i || n.expireTo = 0 then { n with expireTo := 3, keepAliveTrycnt := 0 }
    else { n with expireTo := n.expireTo - 1 }
  let t := t.setSta i n
  if 0 < n.expireTo then (t, [.aging i], false)
  else if c.wifiSpec then (t.setSta i { n with expireTo := 3 }, [], false)
  else if c.sleep i && !n.authSuccess then
    -- the state bit of the keep-alive check is that of a finished authentication
    let t := t.setSta i { n with expireTo := 3, authSuccess := true }
    (t, [.poll i n.aid], c.activeKeepAliveCheck)
  else if c.activeKeepAliveCheck then (t, [], true)
  else
    let r := asocLeave t i
    (r.1, r.2, false)

/-- The first loop over `asoc_list`, with the stations that get a null frame -/
def expireAsocLoop (c : ExpireChk) (t : StaTable) (is : List ℕ) : (StaTable × List StaEffect) × List ℕ :=
  is.foldl (fun r i =>
    let q := expireAsoc c r.1.1 i
    ((q.1, r.1.2 ++ q.2.1), if q.2.2 then r.2 ++ [i] else r.2)) ((t, []), [])

/-- A station that was sent a null frame -/
def expireKeepAlive (c : ExpireChk) (t : StaTable) (i : ℕ) : StaTable × List StaEffect :=
  let n := t.sta i
  match c.answer i with
  | none => (t, [])
  | some true => (t.setSta i { n with expireTo := 3, keepAliveTrycnt := 0 }, [])
  | some false =>
    if n.keepAliveTrycnt + 1 ≤ 3 then
      (t.setSta i { n with expireTo := 1, keepAliveTrycnt := n.keepAliveTrycnt + 1 }, [])
    else asocLeave (t.setSta i { n with keepAliveTrycnt := 0 }) i

def expireTimeoutChk (c : ExpireChk) (t : StaTable) : StaTable × List StaEffect :=
  let auth := forEachSta expireAuth t t.authList
  let asoc := expireAsocLoop c auth.1 auth.1.asocList
  let keep := forEachSta (expireKeepAlive c) asoc.1.1 asoc.2
  (keep.1, auth.2 ++ asoc.1.2 ++ keep.2)

/-- The station of the access point itself, and of its group addressed frames: a station that
is not there is allocated -/
def ownSta (t : StaTable) (hwaddr : MacAddr) : StaTable × List StaEffect :=
  match t.getStainfo hwaddr with
  | some _ => (t, [])
  | none =>
    match t.allocStainfo hwaddr with
    | none => (t, [])
    | some (i, t) => (t, [.fresh i])

/-- What can happen to the table -/
inductive StaEvent
  | own (hwaddr : MacAddr)
  | auth (f : AuthFrame)
  | assocReq (f : AssocReq)
  | deauth (ta : MacAddr)
  | delSta (mac : MacAddr) (keyPending : ℕ → Bool)
  | flush
  | expire (c : ExpireChk)
  /-- the limit that user space sets -/
  | maxNumSta (n : ℕ)

def staStep (t : StaTable) : StaEvent → StaTable × List StaEffect
  | .own hwaddr => ownSta t hwaddr
  | .auth f => onAuth t f
  | .assocReq f => onAssocReq t f
  | .deauth ta => onDeAuth t ta
  | .delSta mac keyPending => delStation t mac keyPending
  | .flush => staFlush t
  | .expire c => expireTimeoutChk c t
  | .maxNumSta n => ({ t with maxNumSta := if numSta < n ∨ n = 0 then numSta else n }, [])

end Rtl8188fu
