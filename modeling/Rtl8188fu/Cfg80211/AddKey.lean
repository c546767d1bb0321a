import Rtl8188fu.Cfg80211.Connect
import Rtl8188fu.Xmit.WlanHdr

/-! # Which key slots a request reaches

`cfg80211_rtw_add_key` with `rtw_cfg80211_set_encryption` and `rtw_cfg80211_ap_set_encryption`: what they read of the
request and which key slots they write, for keys and sequence numbers of any length. What else they change is not
followed here.
-/
namespace Rtl8188fu
open Bytes

def BIP_MAX_KEYID : ℕ := 5

/-- `sizeof(struct ieee_param)` -/
def IEEE_PARAM_SZ : ℕ := 64
/-- Where `u.crypt.seq` and `u.crypt.key` stand in it -/
def CRYPT_SEQ_OFFSET : ℕ := 37
def CRYPT_KEY_OFFSET : ℕ := 48
/-- `sizeof(u.crypt.seq)` -/
def CRYPT_SEQ_SZ : ℕ := 8

/-- `params->cipher` -/
inductive AddKeyCipher
  | none
  | wep40
  | wep104
  | tkip
  | ccmp
  | aesCmac
  | other
deriving DecidableEq

structure AddKeyReq where
  cipher : AddKeyCipher
  keyIndex : UInt8
  macAddr : Option MacAddr
  seq : List UInt8
  key : List UInt8

/-- What the functions ask of the adapter -/
structure AddKeyEnv where
  /-- `CONFIG_IEEE80211W` -/
  ieee80211w : Bool
  /-- the bits of `fw_state` -/
  stationState : Bool
  apState : Bool
  adhocState : Bool
  adhocMasterState : Bool
  mpState : Bool
  /-- `bWepDefaultKeyIdxSet` -/
  wepDefaultKeyIdxSet : Bool
  /-- `dot11AuthAlgrthm == dot11AuthAlgrthm_8021X` -/
  auth8021X : Bool
  bssid : MacAddr
  /-- whether the station table has an entry -/
  hasSta : MacAddr → Bool

/-- An element of a key array, or a key of a station. An index may lie behind the end of its array. -/
inductive KeySlot
  | dot11DefKey (i : ℕ)
  | dot118021XGrpKey (i : ℕ)
  | dot118021XGrptxmickey (i : ℕ)
  | dot118021XGrprxmickey (i : ℕ)
  | dot11wBIPKey (i : ℕ)
  | dot118021xUncstKey (sta : MacAddr)
  | dot11tkiptxmickey (sta : MacAddr)
  | dot11tkiprxmickey (sta : MacAddr)
deriving DecidableEq

def KeySlot.InRange : KeySlot → Prop
  | .dot11DefKey i => i < WEP_KEYS
  | .dot118021XGrpKey i => i < 4
  | .dot118021XGrptxmickey i => i < 4
  | .dot118021XGrprxmickey i => i < 4
  | .dot11wBIPKey i => i < 6
  | .dot118021xUncstKey _ => True
  | .dot11tkiptxmickey _ => True
  | .dot11tkiprxmickey _ => True

inductive KeyAccess
  /-- a byte of the key of the request -/
  | readKey (o : ℕ)
  | readSeq (o : ℕ)
  /-- a copy to the start of a slot -/
  | write (slot : KeySlot) (bytes : List UInt8)
deriving DecidableEq

structure KeyRun where
  ret : ℤ
  log : List KeyAccess

/-- `struct ieee_param` with the memory from `u.crypt.seq` on -/
structure CryptParam where
  paramLen : ℕ
  staAddr : MacAddr
  alg : CryptAlg
  setTx : Bool
  idx : ℕ
  mem : List UInt8

def CryptParam.keyLen (p : CryptParam) : ℕ := le16At p.mem (CRYPT_KEY_OFFSET - CRYPT_SEQ_OFFSET - 2)

/-- The bytes of `u.crypt.key` from `lo` on -/
def CryptParam.keyBytes (p : CryptParam) (lo n : ℕ) : List UInt8 :=
  (List.range' (CRYPT_KEY_OFFSET - CRYPT_SEQ_OFFSET + lo) n).map (byteAt p.mem)

/-- `_rtw_memcpy(slot.skey, &key[lo], n)` -/
def copyToSlot (p : CryptParam) (slot : KeySlot) (lo n : ℕ) : List KeyAccess :=
  (List.range' lo n).map .readKey ++ [.write slot (p.keyBytes lo n)]

/-- `rtw_ap_set_key` reads as many bytes as the algorithm has. -/
def apSetKeyReads (keylen : ℕ) : List KeyAccess := (List.range' 0 keylen).map .readKey

/-- A key of a station, which both functions set in the same way -/
def setUncstKey (p : CryptParam) (sta : MacAddr) : List KeyAccess :=
  copyToSlot p (.dot118021xUncstKey sta) 0 (min 16 p.keyLen) ++
    if p.alg = .tkip then copyToSlot p (.dot11tkiptxmickey sta) 16 8 ++ copyToSlot p (.dot11tkiprxmickey sta) 24 8
      else []

/-- The index of a request for the broadcast address is refused. -/
def IdxRefused (env : AddKeyEnv) (idx : ℕ) : Prop := WEP_KEYS ≤ idx ∧
    (env.ieee80211w = true → BIP_MAX_KEYID < idx)

instance (env : AddKeyEnv) (idx : ℕ) : Decidable (IdxRefused env idx) := by
  delta IdxRefused
  infer_instance

def cfg80211SetEncryption (env : AddKeyEnv) (p : CryptParam) : KeyRun :=
  if p.paramLen < CRYPT_KEY_OFFSET + p.keyLen then ⟨-EINVAL,[]⟩
  else if p.staAddr ≠ bcAddr then ⟨-EINVAL,[]⟩
  else if IdxRefused env p.idx then ⟨-EINVAL,[]⟩
  else if p.alg = .wep then
    if WEP_KEYS < p.idx ∨ p.keyLen = 0 then ⟨-EINVAL,[]⟩
    else
      let wepKeyLen := if env.wepDefaultKeyIdxSet then p.keyLen else if p.keyLen ≤ 5 then 5 else 13
      ⟨0,copyToSlot p (.dot11DefKey p.idx) 0 wepKeyLen⟩
  else if env.auth8021X ∧ (env.stationState ∨ env.mpState) ∧ env.hasSta (staKey env.bssid) then
    if p.setTx then ⟨0,setUncstKey p (staKey env.bssid)⟩
    else if p.alg = .tkip ∨ p.alg = .ccmp then
      ⟨0,copyToSlot p (.dot118021XGrpKey p.idx) 0 (min 16 p.keyLen) ++
        (if 24 ≤ p.keyLen then copyToSlot p (.dot118021XGrptxmickey p.idx) 16 8 else []) ++
        if 32 ≤ p.keyLen then copyToSlot p (.dot118021XGrprxmickey p.idx) 24 8 else []⟩
    else if env.ieee80211w ∧ p.alg = .bip then ⟨0,copyToSlot p (.dot11wBIPKey p.idx) 0 (min 16 p.keyLen)⟩
    else ⟨0,[]⟩
  else ⟨0,[]⟩

/-- The group keys of `rtw_cfg80211_ap_set_encryption`, which it sets in two places in the same way -/
def apSetGroupKeyAccesses (p : CryptParam) : List KeyAccess :=
  let grp := copyToSlot p (.dot118021XGrpKey p.idx) 0 (min 16 p.keyLen)
  match p.alg with
  | .wep => grp ++ apSetKeyReads (if p.keyLen = 13 then 13 else 5)
  | .tkip =>
    grp ++ copyToSlot p (.dot118021XGrptxmickey p.idx) 16 8 ++ copyToSlot p (.dot118021XGrprxmickey p.idx) 24 8 ++
      apSetKeyReads 16
  | .ccmp => grp ++ apSetKeyReads 16
  | .none => apSetKeyReads 16
  | .bip => apSetKeyReads 16

def cfg80211ApSetEncryption (env : AddKeyEnv) (p : CryptParam) : KeyRun :=
  let psta := decide (p.staAddr ≠ bcAddr)
  if p.paramLen ≠ IEEE_PARAM_SZ + p.keyLen then ⟨-EINVAL,[]⟩
  else if psta = false ∧ IdxRefused env p.idx then ⟨-EINVAL,[]⟩
  else if psta ∧ env.hasSta (staKey p.staAddr) = false then ⟨0,[]⟩
  else if p.alg = .none ∧ psta = false then ⟨0,[]⟩
  else if p.alg = .wep ∧ psta = false then
    if WEP_KEYS ≤ p.idx ∨ p.keyLen = 0 then ⟨-EINVAL,[]⟩
    else
      let wepKeyLen := if p.keyLen ≤ 5 then 5 else 13
      ⟨0,copyToSlot p (.dot11DefKey p.idx) 0 wepKeyLen ++ apSetKeyReads wepKeyLen⟩
  else if psta = false ∧ env.apState then
    if p.setTx then ⟨0,[]⟩
    else if env.ieee80211w ∧ p.alg = .bip then ⟨0,copyToSlot p (.dot11wBIPKey p.idx) 0 (min 16 p.keyLen)⟩
    else ⟨0,apSetGroupKeyAccesses p⟩
  else if env.auth8021X ∧ psta ∧ env.apState then
    if p.setTx then ⟨0,setUncstKey p (staKey p.staAddr)⟩ else ⟨0,apSetGroupKeyAccesses p⟩
  else ⟨0,[]⟩

def algName (env : AddKeyEnv) : AddKeyCipher → Option CryptAlg
  | .none => some .none
  | .wep40 => some .wep
  | .wep104 => some .wep
  | .tkip => some .tkip
  | .ccmp => some .ccmp
  | .aesCmac => if env.ieee80211w then some .bip else none
  | .other => none

/-- The memory from `u.crypt.seq` on when it is filled; a longer sequence number runs over what stands behind. -/
def cryptMem (req : AddKeyReq) : List UInt8 :=
  let mem := patch (List.replicate (IEEE_PARAM_SZ + req.key.length - CRYPT_SEQ_OFFSET) 0) 0 req.seq
  if req.key = [] then mem
  else
    patch (patch mem (CRYPT_KEY_OFFSET - CRYPT_SEQ_OFFSET - 2) (le16Bytes req.key.length))
      (CRYPT_KEY_OFFSET - CRYPT_SEQ_OFFSET)
      req.key

/-- The request is for no address or for the broadcast address. -/
def AddKeyReq.IsGroup (req : AddKeyReq) : Prop := req.macAddr = none ∨ req.macAddr = some bcAddr

instance (req : AddKeyReq) : Decidable req.IsGroup := by
  delta AddKeyReq.IsGroup
  infer_instance

def cryptParam (req : AddKeyReq) (alg : CryptAlg) (staAddr : MacAddr) : CryptParam :=
  ⟨IEEE_PARAM_SZ + req.key.length,staAddr,alg,decide ¬req.IsGroup,req.keyIndex.toNat,cryptMem req⟩

/-- `cfg80211_rtw_add_key` when memory is there -/
def cfg80211RtwAddKey (env : AddKeyEnv) (req : AddKeyReq) : KeyRun :=
  match algName env req.cipher with
  | none => ⟨-ENOTSUPP,[]⟩
  | some alg =>
    let r : KeyRun :=
      if env.stationState then cfg80211SetEncryption env (cryptParam req alg bcAddr)
      else if env.apState then cfg80211ApSetEncryption env (cryptParam req alg (req.macAddr.getD bcAddr))
      else if env.adhocState ∨ env.adhocMasterState then cfg80211SetEncryption env (cryptParam req alg bcAddr)
      else ⟨0,[]⟩
    ⟨r.ret,(List.range' 0 req.seq.length).map .readSeq ++ r.log⟩

abbrev KeySlots := KeySlot → List UInt8

/-- What the copies make of the keys -/
def keysAfter (keys : KeySlots) : List KeyAccess → KeySlots
  | [] => keys
  | .write slot bytes :: log => keysAfter (Function.update keys slot (patch (keys slot) 0 bytes)) log
  | .readKey _ :: log => keysAfter keys log
  | .readSeq _ :: log => keysAfter keys log

/-- The request goes to `rtw_cfg80211_ap_set_encryption`. -/
def ApMode (env : AddKeyEnv) : Prop := env.stationState = false ∧ env.apState = true

/-- The slots that cipher, index and address name. A WEP key of one station is there in AP mode only. -/
def NamedSlot (env : AddKeyEnv) (req : AddKeyReq) : KeySlot → Prop :=
  let group (i : ℕ) := (algName env req.cipher = some .tkip ∨ algName env req.cipher = some .ccmp) ∧
    req.IsGroup ∧
    i = req.keyIndex.toNat
  let pairwise (sta : MacAddr) := ¬req.IsGroup ∧ req.macAddr.map staKey = some sta ∧
    (algName env req.cipher = some .wep → ApMode env)
  fun
  | .dot11DefKey i => algName env req.cipher = some .wep ∧ (ApMode env → req.IsGroup) ∧ i = req.keyIndex.toNat
  | .dot118021XGrpKey i => group i
  | .dot118021XGrptxmickey i => group i
  | .dot118021XGrprxmickey i => group i
  | .dot11wBIPKey i => algName env req.cipher = some .bip ∧ req.IsGroup ∧ i = req.keyIndex.toNat
  | .dot118021xUncstKey sta => pairwise sta
  | .dot11tkiptxmickey sta => pairwise sta
  | .dot11tkiprxmickey sta => pairwise sta

/-- A copy of no bytes writes nothing. -/
def GoodKeyAccess (env : AddKeyEnv) (req : AddKeyReq) : KeyAccess → Prop
  | .readKey o => o < req.key.length
  | .readSeq o => o < CRYPT_SEQ_SZ
  | .write slot bytes => bytes ≠ [] → NamedSlot env req slot ∧ slot.InRange ∧ bytes.length ≤ 16

structure KeysContained (env : AddKeyEnv) (req : AddKeyReq) (keys : KeySlots) : Prop where
  accesses : ∀ e ∈ (cfg80211RtwAddKey env req).log, GoodKeyAccess env req e
  others : ∀ slot, ¬NamedSlot env req slot → keysAfter keys (cfg80211RtwAddKey env req).log slot = keys slot
  refused : (cfg80211RtwAddKey env req).ret ≠ 0 → keysAfter keys (cfg80211RtwAddKey env req).log = keys

/-- The key length as an `u16` -/
def AddKeyReq.keyLen16 (req : AddKeyReq) : ℕ := req.key.length % 65536

/-- What `rtw_cfg80211_set_encryption` needs of a request that it does not refuse -/
def SetEncryptionFits (env : AddKeyEnv) (req : AddKeyReq) (alg : CryptAlg) : Prop :=
  ¬IdxRefused env req.keyIndex.toNat →
    if alg = .wep then
      req.keyIndex.toNat ≤ WEP_KEYS → req.keyLen16 ≠ 0 → req.keyIndex.toNat < WEP_KEYS ∧
        if env.wepDefaultKeyIdxSet then req.keyLen16 ≤ 16
          else (if req.keyLen16 ≤ 5 then 5 else 13) ≤ req.key.length
    else
      (env.auth8021X = true ∧ (env.stationState = true ∨ env.mpState = true) ∧
        env.hasSta (staKey env.bssid) = true) →
        if req.IsGroup then alg = .tkip ∨ alg = .ccmp → req.keyLen16 ≠ 0 → req.keyIndex.toNat < 4
        else (alg = .tkip → 32 ≤ req.key.length) ∧
          (alg = .tkip ∨ req.keyLen16 ≠ 0 → req.macAddr.map staKey = some (staKey env.bssid))

/-- What `rtw_cfg80211_ap_set_encryption` needs of a request that it does not refuse -/
def ApSetEncryptionFits (env : AddKeyEnv) (req : AddKeyReq) (alg : CryptAlg) : Prop :=
  req.key.length < 65536 →
    if req.IsGroup then
      ¬IdxRefused env req.keyIndex.toNat →
        (alg = .wep → req.keyIndex.toNat < WEP_KEYS → req.key ≠ [] → req.key.length = 5 ∨
          13 ≤ req.key.length) ∧
        (alg = .tkip → req.keyIndex.toNat < 4 ∧ 32 ≤ req.key.length) ∧
        (alg = .ccmp → req.keyIndex.toNat < 4 ∧ 16 ≤ req.key.length)
    else
      env.hasSta (staKey (req.macAddr.getD bcAddr)) = true → env.auth8021X = true → alg = .tkip →
        32 ≤ req.key.length

/-- A request that is forwarded has a sequence number that fits, and is one that the function for the mode can take. -/
def AddKeyFits (env : AddKeyEnv) (req : AddKeyReq) : Prop :=
  ∀ alg, algName env req.cipher = some alg → req.seq.length ≤ CRYPT_SEQ_SZ ∧
    if env.stationState then SetEncryptionFits env req alg
    else if env.apState then ApSetEncryptionFits env req alg
    else if env.adhocState = true ∨ env.adhocMasterState = true then SetEncryptionFits env req alg
    else True

section Access
variable {env : AddKeyEnv} {req : AddKeyReq} {p : CryptParam} {slot : KeySlot} {lo n : ℕ} {log : List KeyAccess}
  {keys : KeySlots}

theorem length_keyBytes (p : CryptParam) (lo n : ℕ) : (p.keyBytes lo n).length = n := by
  rw [CryptParam.keyBytes, List.length_map, List.length_range']

theorem good_reads_iff : (∀ e ∈ (List.range' lo n).map KeyAccess.readKey, GoodKeyAccess env req e) ↔
    0 < n → lo + n ≤ req.key.length := by
  rw [List.forall_mem_map]
  constructor
  · intro h hn
    have hlast : lo + n - 1 < req.key.length := h (lo + n - 1) (by rw [List.mem_range'_1]; omega)
    omega
  · intro h o ho
    rw [List.mem_range'_1] at ho
    have := h (by omega)
    change o < req.key.length
    omega

/-- A copy is as it should be exactly when it is empty, or from inside the key into a slot that is named. -/
theorem good_copy_iff : (∀ e ∈ copyToSlot p slot lo n, GoodKeyAccess env req e) ↔
    (0 < n → lo + n ≤ req.key.length ∧ NamedSlot env req slot ∧ slot.InRange ∧ n ≤ 16) := by
  rw [copyToSlot, List.forall_mem_append, good_reads_iff, List.forall_mem_singleton]
  have hne : p.keyBytes lo n ≠ [] ↔ 0 < n := by
    rw [← List.length_pos_iff, length_keyBytes]
  change _ ∧ (_ → _ ∧ _ ∧ (p.keyBytes lo n).length ≤ 16) ↔ _
  rw [hne, length_keyBytes]
  exact ⟨fun h hn => ⟨h.1 hn,h.2 hn⟩,fun h => ⟨fun hn => (h hn).1,fun hn => (h hn).2⟩⟩

theorem good_if_iff {c : Prop} [Decidable c] :
    (∀ e ∈ (if c then log else []), GoodKeyAccess env req e) ↔
    (c → ∀ e ∈ log, GoodKeyAccess env req e) := by
  split
  · rename_i hc
    exact ⟨fun h _ => h,fun h => h hc⟩
  · rename_i hc
    exact iff_of_true (List.forall_mem_nil _) fun h => absurd h hc

theorem keysAfter_of_not_named (h : ∀ e ∈ log, GoodKeyAccess env req e) (hslot : ¬NamedSlot env req slot) :
    keysAfter keys log slot = keys slot := by
  induction log generalizing keys with
  | nil => rfl
  | cons e log ih =>
    rw [List.forall_mem_cons] at h
    cases e with
    | readKey o => exact ih h.2
    | readSeq o => exact ih h.2
    | write slot' bytes =>
      rw [keysAfter, ih h.2]
      by_cases heq : slot = slot'
      · subst heq
        have hempty : bytes = [] := by
          by_contra hne
          exact hslot (h.1 hne).1
        rw [hempty, Function.update_self]
        simp [patch]
      · rw [Function.update_of_ne heq]

theorem keysAfter_reads (os : List ℕ) (log : List KeyAccess) :
    keysAfter keys (os.map .readSeq ++ log) = keysAfter keys log := by
  induction os with
  | nil => rfl
  | cons o os ih => exact ih

end Access

section Run
variable {env : AddKeyEnv} {req : AddKeyReq} {alg : CryptAlg} {sta : MacAddr}

@[simp] theorem cryptParam_staAddr (req : AddKeyReq) (alg : CryptAlg) (a : MacAddr) :
    (cryptParam req alg a).staAddr = a := rfl

@[simp] theorem cryptParam_paramLen (req : AddKeyReq) (alg : CryptAlg) (a : MacAddr) :
    (cryptParam req alg a).paramLen = IEEE_PARAM_SZ + req.key.length := rfl

@[simp] theorem cryptParam_alg (req : AddKeyReq) (alg : CryptAlg) (a : MacAddr) :
    (cryptParam req alg a).alg = alg := rfl

@[simp] theorem cryptParam_idx (req : AddKeyReq) (alg : CryptAlg) (a : MacAddr) :
    (cryptParam req alg a).idx = req.keyIndex.toNat := rfl

@[simp] theorem cryptParam_setTx (req : AddKeyReq) (alg : CryptAlg) (a : MacAddr) :
    (cryptParam req alg a).setTx = decide ¬req.IsGroup := rfl

theorem keyLen_cryptParam (hseq : req.seq.length ≤ CRYPT_SEQ_SZ) (alg : CryptAlg) (staAddr : MacAddr) :
    (cryptParam req alg staAddr).keyLen = req.keyLen16 := by
  have hsz : CRYPT_SEQ_SZ = 8 := rfl
  have h11 : CRYPT_KEY_OFFSET - CRYPT_SEQ_OFFSET = 11 := rfl
  have hmem : IEEE_PARAM_SZ + req.key.length - CRYPT_SEQ_OFFSET = 27 + req.key.length := by
    change 64 + req.key.length - 37 = _
    omega
  have hzero : ∀ n i, byteAt (List.replicate n 0) i = 0 := by
    intro n i
    simp [byteAt, List.getElem?_replicate]
    split <;> rfl
  simp only [CryptParam.keyLen, cryptParam, cryptMem, h11, Nat.reduceSub, hmem, AddKeyReq.keyLen16]
  split
  · rename_i hkey
    rw [le16At, byteAt_patch, byteAt_patch, if_neg (by omega), if_neg (by omega), hzero, hzero, hkey]
    rfl
  · have hlen : (patch (List.replicate (27 + req.key.length) 0) 0 req.seq).length = 27 + req.key.length := by
      rw [length_patch, List.length_replicate]
    have hbyte : ∀ j < 2, byteAt (patch (patch (patch (List.replicate (27 + req.key.length) 0) 0 req.seq) 9
        (le16Bytes req.key.length)) 11 req.key) (9 + j) = byteAt (le16Bytes req.key.length) j := by
      intro j hj
      rw [byteAt_patch, if_neg (by omega), byteAt_patch, hlen, length_le16Bytes, if_pos (by omega),
        Nat.add_sub_cancel_left]
    have h0 := hbyte 0 (by omega)
    have h1 := hbyte 1 (by omega)
    rw [Nat.add_zero] at h0
    rw [le16At, h0, h1]
    simp only [le16Bytes, byteAt, List.getD_cons_zero, List.getD_cons_succ, UInt8.toNat_ofNat']
    omega

theorem good_setUncstKey_iff (hseq : req.seq.length ≤ CRYPT_SEQ_SZ) {staAddr : MacAddr} :
    (∀ e ∈ setUncstKey (cryptParam req alg staAddr) sta, GoodKeyAccess env req e) ↔
      (alg = .tkip → 32 ≤ req.key.length) ∧
        (alg = .tkip ∨ req.keyLen16 ≠ 0 → NamedSlot env req (.dot118021xUncstKey sta)) := by
  have hle : req.keyLen16 ≤ req.key.length := Nat.mod_le _ _
  have hsame : NamedSlot env req (.dot11tkiptxmickey sta) = NamedSlot env req (.dot118021xUncstKey sta) := rfl
  have hsame' : NamedSlot env req (.dot11tkiprxmickey sta) = NamedSlot env req (.dot118021xUncstKey sta) := rfl
  have halg : (cryptParam req alg staAddr).alg = alg := rfl
  rw [setUncstKey, List.forall_mem_append, good_copy_iff, keyLen_cryptParam hseq, halg]
  by_cases htkip : alg = .tkip
  · rw [if_pos htkip, List.forall_mem_append, good_copy_iff, good_copy_iff, hsame, hsame']
    simp only [htkip, KeySlot.InRange]
    grind
  · rw [if_neg htkip]
    simp only [htkip, KeySlot.InRange, List.not_mem_nil]
    grind

theorem named_defKey (halg : algName env req.cipher = some alg) {i : ℕ} :
    NamedSlot env req (.dot11DefKey i) ↔ alg = .wep ∧ (ApMode env → req.IsGroup) ∧ i = req.keyIndex.toNat := by
  simp only [NamedSlot, halg, Option.some.injEq]

theorem named_grpKey (halg : algName env req.cipher = some alg) {i : ℕ} :
    NamedSlot env req (.dot118021XGrpKey i) ↔ (alg = .tkip ∨ alg = .ccmp) ∧ req.IsGroup ∧
    i = req.keyIndex.toNat := by
  simp only [NamedSlot, halg, Option.some.injEq]

theorem named_grpMic {i : ℕ} :
    (NamedSlot env req (.dot118021XGrptxmickey i) ↔ NamedSlot env req (.dot118021XGrpKey i)) ∧
      (NamedSlot env req (.dot118021XGrprxmickey i) ↔ NamedSlot env req (.dot118021XGrpKey i)) :=
  ⟨Iff.rfl,Iff.rfl⟩

theorem named_bipKey (halg : algName env req.cipher = some alg) {i : ℕ} :
    NamedSlot env req (.dot11wBIPKey i) ↔ alg = .bip ∧ req.IsGroup ∧ i = req.keyIndex.toNat := by
  simp only [NamedSlot, halg, Option.some.injEq]

theorem named_uncstKey (halg : algName env req.cipher = some alg) :
    NamedSlot env req (.dot118021xUncstKey sta) ↔
      ¬req.IsGroup ∧ req.macAddr.map staKey = some sta ∧ (alg = .wep → ApMode env) := by
  simp only [NamedSlot, halg, Option.some.injEq]

/-- BIP is there under `CONFIG_IEEE80211W` only. -/
theorem ieee80211w_of_bip (halg : algName env req.cipher = some .bip) : env.ieee80211w = true := by
  cases hc : req.cipher <;> rw [hc] at halg <;> simp [algName] at halg
  exact halg

theorem good_setEncryption_iff (hseq : req.seq.length ≤ CRYPT_SEQ_SZ) (halg : algName env req.cipher = some alg)
    (hmode : ¬ApMode env) :
    (∀ e ∈ (cfg80211SetEncryption env (cryptParam req alg bcAddr)).log, GoodKeyAccess env req e) ↔
      SetEncryptionFits env req alg := by
  have hlen := @keyLen_cryptParam req hseq alg bcAddr
  have hle : req.keyLen16 ≤ req.key.length := Nat.mod_le _ _
  have hparam : ¬(cryptParam req alg bcAddr).paramLen < CRYPT_KEY_OFFSET + req.keyLen16 := by
    change ¬64 + req.key.length < 48 + _
    omega
  have hkeys : WEP_KEYS = 4 := rfl
  have h0 : ∀ a b : ℕ, 0 + a ≤ b ↔ a ≤ b := fun a b => by rw [Nat.zero_add]
  unfold cfg80211SetEncryption SetEncryptionFits
  simp only [hlen, cryptParam_staAddr, cryptParam_alg, cryptParam_idx, cryptParam_setTx, decide_eq_true_eq]
  rw [if_neg hparam, if_neg (not_not_intro rfl)]
  by_cases hidx : IdxRefused env req.keyIndex.toNat
  · rw [if_pos hidx]
    exact iff_of_true (List.forall_mem_nil _) fun h => absurd hidx h
  rw [if_neg hidx, forall_prop_of_true hidx]
  by_cases hwep : alg = .wep
  · rw [if_pos hwep, if_pos hwep]
    by_cases hbad : WEP_KEYS < req.keyIndex.toNat ∨ req.keyLen16 = 0
    · rw [if_pos hbad]
      refine iff_of_true (List.forall_mem_nil _) fun h4 hne => ?_
      rcases hbad with hbad | hbad
      · omega
      · exact absurd hbad hne
    · rw [if_neg hbad]
      rw [not_or, Nat.not_lt] at hbad
      rw [good_copy_iff, named_defKey halg, forall_prop_of_true hbad.1, forall_prop_of_true hbad.2, h0]
      change (_ → _ ∧ _ ∧ _ < WEP_KEYS ∧ _) ↔ _
      simp only [hwep, hmode, false_implies, true_and]
      cases env.wepDefaultKeyIdxSet
      · simp only [Bool.false_eq_true, if_false]
        split <;> omega
      · simp only [if_true]
        omega
  · rw [if_neg hwep, if_neg hwep]
    by_cases h8021x : env.auth8021X = true ∧ (env.stationState = true ∨ env.mpState = true) ∧
      env.hasSta (staKey env.bssid) = true
    · rw [if_pos h8021x, forall_prop_of_true h8021x]
      by_cases hgroup : req.IsGroup
      · rw [if_neg (not_not_intro hgroup), if_pos hgroup]
        by_cases hcipher : alg = .tkip ∨ alg = .ccmp
        · rw [if_pos hcipher, forall_prop_of_true hcipher, List.forall_mem_append, List.forall_mem_append, good_if_iff,
            good_if_iff, good_copy_iff, good_copy_iff, good_copy_iff, named_grpMic.1, named_grpMic.2, named_grpKey halg]
          simp only [hcipher, hgroup, KeySlot.InRange, true_and]
          omega
        · rw [if_neg hcipher]
          refine iff_of_true ?_ fun h => absurd h hcipher
          split
          · rename_i hbip
            have hin : req.keyIndex.toNat < 6 := by
              by_contra hbig
              exact hidx ⟨by omega,fun _ => by change 5 < _; omega⟩
            rw [good_copy_iff, named_bipKey halg]
            exact fun _ => ⟨by omega,⟨hbip.2,hgroup,rfl⟩,hin,Nat.min_le_left _ _⟩
          · exact List.forall_mem_nil _
      · rw [if_pos hgroup, if_neg hgroup, good_setUncstKey_iff hseq, named_uncstKey halg]
        simp [hgroup, hwep]
    · rw [if_neg h8021x]
      exact iff_of_true (List.forall_mem_nil _) fun h => absurd h h8021x

theorem good_apSetEncryption_iff (hseq : req.seq.length ≤ CRYPT_SEQ_SZ) (halg : algName env req.cipher = some alg)
    (hmode : ApMode env) :
    (∀ e ∈ (cfg80211ApSetEncryption env (cryptParam req alg (req.macAddr.getD bcAddr))).log,
      GoodKeyAccess env req e) ↔
      ApSetEncryptionFits env req alg := by
  have hlen := @keyLen_cryptParam req hseq alg (req.macAddr.getD bcAddr)
  have hkeys : WEP_KEYS = 4 := rfl
  have hgroup_iff : req.macAddr.getD bcAddr ≠ bcAddr ↔ ¬req.IsGroup := by
    unfold AddKeyReq.IsGroup
    cases req.macAddr <;> simp
  unfold cfg80211ApSetEncryption ApSetEncryptionFits
  simp only [hlen, cryptParam_paramLen, cryptParam_staAddr, cryptParam_alg, cryptParam_idx, cryptParam_setTx,
    decide_eq_true_eq, decide_eq_false_iff_not, hgroup_iff, not_not]
  by_cases hlong : req.key.length < 65536
  · have h16 : req.keyLen16 = req.key.length := Nat.mod_eq_of_lt hlong
    rw [h16, if_neg (not_not_intro rfl), forall_prop_of_true hlong]
    by_cases hgroup : req.IsGroup
    · simp only [hgroup, hmode.2, true_and, and_true, and_false, false_and, not_true, if_true, if_false]
      by_cases hidx : IdxRefused env req.keyIndex.toNat
      · rw [if_pos hidx]
        exact iff_of_true (List.forall_mem_nil _) fun h => absurd hidx h
      rw [if_neg hidx, forall_prop_of_true hidx]
      cases alg with
      | none =>
        simp only [if_true]
        exact iff_of_true (List.forall_mem_nil _) (by simp only [reduceCtorEq, false_implies, and_self])
      | wep =>
        simp only [reduceCtorEq, if_false, if_true, false_implies, and_true, true_implies]
        by_cases hbad : WEP_KEYS ≤ req.keyIndex.toNat ∨ req.key.length = 0
        · rw [if_pos hbad]
          refine iff_of_true (List.forall_mem_nil _) fun h4 hne => ?_
          rcases hbad with hbad | hbad
          · omega
          · exact absurd (List.length_eq_zero_iff.mp hbad) hne
        · rw [if_neg hbad, List.forall_mem_append, good_copy_iff, apSetKeyReads, good_reads_iff, named_defKey halg]
          rw [not_or, Nat.not_le] at hbad
          have hne : req.key ≠ [] := fun h => hbad.2 (List.length_eq_zero_iff.mpr h)
          rw [forall_prop_of_true hbad.1, forall_prop_of_true hne]
          simp only [KeySlot.InRange, hgroup, implies_true, true_and]
          split <;> omega
      | tkip =>
        simp only [reduceCtorEq, if_false, and_false, false_implies, and_true, true_and, true_implies]
        simp only [apSetGroupKeyAccesses, cryptParam_alg, cryptParam_idx, apSetKeyReads, hlen, h16,
          List.forall_mem_append, good_copy_iff,
          good_reads_iff, named_grpMic.1, named_grpMic.2, named_grpKey halg, hgroup, KeySlot.InRange, true_and,
          and_true, true_or]
        omega
      | ccmp =>
        simp only [reduceCtorEq, if_false, and_false, false_implies, true_and, true_implies]
        simp only [apSetGroupKeyAccesses, cryptParam_alg, cryptParam_idx, apSetKeyReads, hlen, h16,
          List.forall_mem_append, good_copy_iff,
          good_reads_iff, named_grpKey halg, hgroup, KeySlot.InRange, true_and, and_true, or_true]
        omega
      | bip =>
        have hw := ieee80211w_of_bip halg
        have hin : req.keyIndex.toNat < 6 := by
          by_contra hbig
          exact hidx ⟨by omega,fun _ => by change 5 < _; omega⟩
        simp only [reduceCtorEq, if_false, hw, and_true, if_true]
        rw [good_copy_iff, named_bipKey halg]
        refine iff_of_true ?_ (by simp only [false_implies, and_self])
        exact fun _ => ⟨by omega,⟨rfl,hgroup,rfl⟩,hin,Nat.min_le_left _ _⟩
    · simp only [hgroup, hmode.2, true_and, and_true, and_false, false_and, not_false_eq_true, if_true, if_false]
      by_cases hsta : env.hasSta (staKey (req.macAddr.getD bcAddr)) = true
      · rw [if_neg (by rw [hsta]; decide), forall_prop_of_true hsta]
        by_cases h8021x : env.auth8021X = true
        · rw [if_pos h8021x, good_setUncstKey_iff hseq, named_uncstKey halg, forall_prop_of_true h8021x]
          have hnamed : req.macAddr.map staKey = some (staKey (req.macAddr.getD bcAddr)) := by
            cases hmac : req.macAddr with
            | none => exact absurd (.inl hmac) hgroup
            | some a => rfl
          simp [hgroup, hnamed, hmode]
        · rw [if_neg h8021x]
          exact iff_of_true (List.forall_mem_nil _) fun h => absurd h h8021x
      · rw [if_pos (by simpa using hsta)]
        exact iff_of_true (List.forall_mem_nil _) fun h => absurd h hsta
  · have : req.keyLen16 < 65536 := Nat.mod_lt _ (by decide)
    rw [if_pos (by omega)]
    exact iff_of_true (List.forall_mem_nil _) fun h => absurd h hlong

/-- A function that refuses a request has not touched anything yet. -/
theorem setEncryption_refused (p : CryptParam) (h : (cfg80211SetEncryption env p).ret ≠ 0) :
    (cfg80211SetEncryption env p).log = [] := by
  revert h
  unfold cfg80211SetEncryption
  dsimp only
  split_ifs <;> simp

theorem apSetEncryption_refused (p : CryptParam) (h : (cfg80211ApSetEncryption env p).ret ≠ 0) :
    (cfg80211ApSetEncryption env p).log = [] := by
  revert h
  unfold cfg80211ApSetEncryption
  dsimp only
  split_ifs <;> simp

theorem good_readSeq_iff {n : ℕ} :
    (∀ e ∈ (List.range' 0 n).map KeyAccess.readSeq, GoodKeyAccess env req e) ↔ n ≤ CRYPT_SEQ_SZ := by
  rw [List.forall_mem_map]
  constructor
  · intro h
    by_contra hlong
    have hlast : CRYPT_SEQ_SZ < CRYPT_SEQ_SZ := h CRYPT_SEQ_SZ (by rw [List.mem_range'_1]; omega)
    omega
  · intro h o ho
    rw [List.mem_range'_1] at ho
    change o < CRYPT_SEQ_SZ
    omega

theorem good_addKey_iff :
    (∀ e ∈ (cfg80211RtwAddKey env req).log, GoodKeyAccess env req e) ↔ AddKeyFits env req := by
  unfold cfg80211RtwAddKey AddKeyFits
  cases halg : algName env req.cipher with
  | none => exact iff_of_true (List.forall_mem_nil _) (by simp)
  | some alg =>
    simp only [Option.some.injEq, forall_eq', List.forall_mem_append, good_readSeq_iff]
    refine and_congr_right fun hseq => ?_
    cases hstation : env.stationState with
    | true =>
      have hmode : ¬ApMode env := fun h => Bool.noConfusion (hstation.symm.trans h.1)
      exact good_setEncryption_iff hseq halg hmode
    | false =>
      cases hap : env.apState with
      | true => exact good_apSetEncryption_iff hseq halg ⟨hstation,hap⟩
      | false =>
        have hmode : ¬ApMode env := fun h => Bool.noConfusion (hap.symm.trans h.2)
        simp only [Bool.false_eq_true, if_false]
        split
        · exact good_setEncryption_iff hseq halg hmode
        · exact iff_of_true (List.forall_mem_nil _) trivial

theorem addKey_refused (h : (cfg80211RtwAddKey env req).ret ≠ 0) (keys : KeySlots) :
    keysAfter keys (cfg80211RtwAddKey env req).log = keys := by
  revert h
  unfold cfg80211RtwAddKey
  split
  · exact fun _ => rfl
  · dsimp only
    intro h
    rw [keysAfter_reads]
    split_ifs at h ⊢
    · rw [setEncryption_refused _ h]
      rfl
    · rw [apSetEncryption_refused _ h]
      rfl
    · rw [setEncryption_refused _ h]
      rfl
    · rfl

end Run

/-- A request touches the named key slots only, and reads no more than it has, exactly when its sequence number fits,
its key is as long as the cipher takes it for, and its index and address are such that the slot is there. -/
theorem add_key_contained_iff (env : AddKeyEnv) (req : AddKeyReq) (keys : KeySlots) :
    KeysContained env req keys ↔ AddKeyFits env req := by
  constructor
  · exact fun h => good_addKey_iff.mp h.accesses
  · intro h
    have hgood := good_addKey_iff.mpr h
    exact ⟨hgood,fun slot => keysAfter_of_not_named hgood,fun hret => addKey_refused hret keys⟩

def wpaStation : AddKeyEnv :=
  ⟨true,true,false,false,false,false,false,true,[2,0,0,0,0,1],fun _ => true⟩

/-- With `CONFIG_IEEE80211W` a group key of CCMP with the index 5 is written behind the four group keys. -/
theorem group_key_written_behind_array : ¬∀ env req keys, KeysContained env req keys := by
  intro h
  have hwrite := (h wpaStation ⟨.ccmp,5,none,[],List.replicate 16 0⟩ fun _ => []).accesses
    (.write (.dot118021XGrpKey 5) (List.replicate 16 0)) (by decide)
  have hin : 5 < 4 := (hwrite (by decide)).2.1
  exact absurd hin (by decide)

end Rtl8188fu
