import Rtl8188fu.Include.RtwSecurity

/-! # The security CAM

The entries that `rtw_camid_alloc` hands out, the software copy of the CAM, and the command
handlers that install and clear keys. The registers, and the flag that ends the search for
group keys, are left out; a step that loops forever has no result.
-/
namespace Rtl8188fu

def nullAddr : MacAddr := [0, 0, 0, 0, 0, 0]

/-- `cam_ctl.num`: the smaller of `SEC_CAM_ENT_NUM_8188F` and `SEC_CAM_ENT_NUM_SW_LIMIT` -/
def camNum : ℕ := min 16 32

structure SecCamEnt where
  ctrl : ℕ
  mac : MacAddr
  key : Keytype
  deriving DecidableEq, Repr

def SecCamEnt.zero : SecCamEnt := ⟨0,nullAddr,List.replicate 16 0⟩

/-- What tells one key from another -/
@[ext] structure CamKey where
  addr : MacAddr
  keyid : ℕ
  gk : Bool
  deriving DecidableEq, Repr

/-- `cam_ctl` and `cam_cache`. The keys that were written and not cleared since, with their
entries, are a record of the model. -/
structure CamState where
  /-- `SEC_CAP_CHK_BMC` of `sec_cap` -/
  chkBmc : Bool
  used : BitVec 32
  camCache : ℕ → SecCamEnt
  live : List (CamKey × ℕ)

/-- After `invalidate_cam_all`, with the capabilities of `init_hal_spec_8188f` -/
def CamState.init : CamState := ⟨false,0,fun _ => .zero,[]⟩

/-- What the handlers read of the interface -/
structure CamMode where
  /-- `WIFI_FW_AP_STATE` or `WIFI_FW_ADHOC_STATE` -/
  apOrAdhoc : Bool
  /-- `WIFI_FW_ASSOC_SUCCESS` -/
  assocSuccess : Bool
  bssid : MacAddr
  /-- `is_wep_enc` of `dot11PrivacyAlgrthm` -/
  wepEnc : Bool
  stapriv : StaPriv

def secCamMapSet (map : BitVec 32) (id : ℕ) : BitVec 32 := if id < 32 then map ||| BitVec.twoPow 32 id else map

def secCamMapClr (map : BitVec 32) (id : ℕ) : BitVec 32 := if id < 32 then map &&& ~~~BitVec.twoPow 32 id else map

def secCamidIsUsed (s : CamState) (id : ℕ) : Bool := decide (id < camNum) && s.used.getLsbD id

def camidIsGk (s : CamState) (id : ℕ) : Bool := secCamidIsUsed s id && (s.camCache id).ctrl.testBit 6

/-- `cam_cache_chk`; without a key id or a kind that is not looked at -/
def camCacheChk (s : CamState) (id : ℕ) (addr : MacAddr) (kid : Option ℕ) (gk : Option Bool) : Bool :=
  (s.camCache id).mac = addr ∧ (∀ k ∈ kid, k = (s.camCache id).ctrl % 4) ∧ ∀ g ∈ gk, g = camidIsGk s id

def camidSearch (s : CamState) (addr : MacAddr) (kid : Option ℕ) (gk : Option Bool) : Option ℕ :=
  (List.range camNum).find? (camCacheChk s · addr kid gk)

/-- The first entry behind the default keys that is not used -/
def camidRoom (s : CamState) : Option ℕ := (List.range camNum).find? fun i => decide (4 ≤ i) && !secCamidIsUsed s i

/-- Which entry `rtw_camid_alloc` takes for a station, or for a group key -/
def camidFor (m : CamMode) (s : CamState) (sta : Option MacAddr) (kid : ℕ) : Option ℕ :=
  if m.apOrAdhoc ∧ sta = none then
    -- a group key is placed by its key id
    if 3 < kid then none else some kid
  else if sta = none ∧ !m.assocSuccess then none
  else
    match camidSearch s (sta.getD m.bssid) (some kid) (if s.chkBmc then some sta.isNone else none) with
    | some i => some i
    | none => camidRoom s

def CamState.take (s : CamState) (id : ℕ) : CamState := { s with used := secCamMapSet s.used id }

/-- `rtw_camid_alloc`: the entry, whether it was used before, and the new bitmap -/
def rtwCamidAlloc (m : CamMode) (s : CamState) (sta : Option MacAddr) (kid : ℕ) : Option (ℕ × Bool × CamState) :=
  (camidFor m s sta kid).map fun id => (id,secCamidIsUsed s id,s.take id)

/-- `write_cam`, which makes a key live -/
def writeCam (s : CamState) (id ctrl : ℕ) (key : CamKey) (bytes : Keytype) : CamState :=
  { s with
    camCache := Function.update s.camCache id ⟨ctrl,key.addr,bytes⟩
    live := s.live.filter (·.1 ≠ key) ++ [(key,id)] }

/-- `clear_cam_entry` followed by `rtw_camid_free` -/
def clearCamEntry (s : CamState) (id : ℕ) : CamState :=
  { s with
    used := if id < camNum then secCamMapClr s.used id else s.used
    camCache := Function.update s.camCache id .zero
    live := s.live.filter (·.2 ≠ id) }

/-- The loop that clears all keys of an address, or its group keys -/
def clearKeysLoop (addr : MacAddr) (gk : Option Bool) : ℕ → CamState → Option CamState
  | 0, _ => none
  | fuel + 1, s =>
    match camidSearch s addr none gk with
    | none => some s
    | some id => clearKeysLoop addr gk fuel (clearCamEntry s id)

/-- A loop that ends has cleared each entry once at most. -/
def clearKeys (s : CamState) (addr : MacAddr) (gk : Option Bool) : Option CamState :=
  clearKeysLoop addr gk (camNum + 1) s

/-- The number of `_WEP40_` and the others -/
def EncryAlgo.code : EncryAlgo → ℕ
  | .noPrivacy => 0
  | .wep40 => 1
  | .tkip => 2
  | .tkipWtmic => 3
  | .aes => 4
  | .wep104 => 5
  | .sms4 => 6

def setStakeyHdl (m : CamMode) (s : CamState) (addr : MacAddr) (keyid : ℕ) (algorithm : EncryAlgo) (key : Keytype) :
    Option CamState :=
  if algorithm = .noPrivacy then clearKeys s addr none
  else if (rtwGetStainfo m.stapriv addr).isNone then some s
  else
    match rtwCamidAlloc m s (some (staKey addr)) 0 with
    | none => some s
    | some (camId, used, s) =>
      -- the entry is that of a group key: all group keys of the station are cleared
      (if used && camidIsGk s camId then clearKeys s addr (some true) else some s).map fun s =>
        writeCam s camId (bit 15 ||| algorithm.code <<< 2 ||| keyid) ⟨addr,keyid,false⟩ key

def setkeyHdl (m : CamMode) (s : CamState) (keyid : ℕ) (algorithm : EncryAlgo) (key : Keytype) : Option CamState :=
  match rtwCamidAlloc m s none keyid with
  | none => some s
  | some (camId, used, s) =>
    let addr := if 3 < camId then m.bssid else nullAddr
    -- the entry is that of a pairwise key
    if used && !camidIsGk s camId then clearKeys s addr (some true)
    else
      let s := writeCam s camId (bit 15 ||| bit 6 ||| algorithm.code <<< 2 ||| keyid) ⟨addr,keyid,true⟩ key
      if s.chkBmc && m.wepEnc then setStakeyHdl m s m.bssid keyid algorithm key else some s

inductive CamCmd
  | setkey (m : CamMode) (keyid : ℕ) (algorithm : EncryAlgo) (key : Keytype)
  /-- `rtw_setstakey_cmd`, which leaves the key id at zero -/
  | setstakey (m : CamMode) (addr : MacAddr) (algorithm : EncryAlgo) (key : Keytype)
  /-- `rtw_clearstakey_cmd` -/
  | clearstakey (addr : MacAddr)
  /-- `invalidate_cam_all` -/
  | invalidateAll

def camStep (s : CamState) : CamCmd → Option CamState
  | .setkey m keyid algorithm key => setkeyHdl m s keyid algorithm key
  | .setstakey m addr algorithm key => setStakeyHdl m s addr 0 algorithm key
  | .clearstakey addr => clearKeys s addr none
  | .invalidateAll => some { s with used := 0, camCache := fun _ => .zero, live := [] }

end Rtl8188fu
