import Rtl8188fu.Library.Streak
import Rtl8188fu.Library.Trace
import Rtl8188fu.Ieee80211.DelVendorIe
import Rtl8188fu.Ieee80211.ParseSecIe
import Rtl8188fu.Mlme.FrameWalks

/-! # Watching the beacons of the AP

`rtw_get_bcn_keys` takes what matters out of a beacon and `rtw_check_bcn_info` compares it with the beacon of
the association. A beacon that differs has to be seen `new_bcn_max` times.
-/
namespace Rtl8188fu
open Bytes Streak

inductive EncrypProtocol
  | OPENSYS
  | WEP
  | WPA
  | WPA2
deriving DecidableEq

/-- `struct beacon_keys`; `ssid` are the first `ssid_len` bytes, the others are zero. -/
structure BeaconKeys where
  ssid : List UInt8
  bcnChannel : UInt8
  htCapInfo : ℕ
  htInfoInfos0Sco : UInt8
  encrypProtocol : EncrypProtocol
  ciphers : Ciphers
  is8021x : Bool
deriving DecidableEq

attribute [ext] BeaconKeys

def HT_CAP_SIZE : ℕ := 26
def HT_INFO_SIZE : ℕ := 22

def bcnChannelOf (body : List UInt8) (elems : Elems) (curChannel : UInt8) : UInt8 :=
  match elems .dsParams, elems .htOperation with
  | some (p, 1), _ => byteAt body p
  | _, some (p, _) => byteAt body p
  | _, none => curChannel

/-- What a security element tells; the parser's result is not looked at. -/
def secKeys (parse : List UInt8 → ℕ → Ciphers → Option Bool → SecParse) (body : List UInt8)
    (elem : ℕ × ℕ) : Ciphers × Bool :=
  let r := parse (body.drop (elem.1 - 2)) (elem.2 + 2) ⟨0,0⟩ (some false)
  (r.ciphers,r.is8021x.getD false)

/-- The pointer to an element with a body -/
def nonEmpty (elem : Option (ℕ × ℕ)) : Option (ℕ × ℕ) := elem.filter fun e => e.2 ≠ 0

def bcnSecurity (body : List UInt8) (elems : Elems) (capability : ℕ) : EncrypProtocol × Ciphers × Bool :=
  match nonEmpty (elems .rsnIe), nonEmpty (elems .wpaIe) with
  | some e, _ => (.WPA2,secKeys SecParse.rtwParseWpa2Ie body e)
  | none, some e => (.WPA,secKeys SecParse.rtwParseWpaIe body e)
  | none, none => (if capability.testBit 4 then .WEP else .OPENSYS,⟨0,0⟩,false)

/-- The tests that throw a beacon away -/
def bcnKeysRejected (elems : Elems) : Bool :=
  (elems .htCapabilities).any (fun e => e.2 ≠ HT_CAP_SIZE) || (elems .htOperation).any
    (fun e => e.2 ≠ HT_INFO_SIZE) ||
    (elems .ssid).any fun e => IW_ESSID_MAX_SIZE < e.2

/-- `rtw_get_bcn_keys` of the frame at the start of `mem`. The number of bytes left to the parser wraps when the
frame ends before its elements. -/
def rtwGetBcnKeys (curChannel : UInt8) (mem : List UInt8) (packetLen : UInt32) : Option BeaconKeys :=
  let body := mem.drop BEACON_ELEMS
  let r := parseElemsLoop body (packetLen - UInt32.ofNat BEACON_ELEMS).toNat 0 0 fun _ => none
  let elems := r.2
  if r.1 = .failed ∨ bcnKeysRejected elems then none
  else
    let security := bcnSecurity body elems (le16At mem (WLAN_HDR_A3_LEN + 10))
    some {
      ssid := ((elems .ssid).map fun e => slice body e.1 e.2).getD []
      bcnChannel := bcnChannelOf body elems curChannel
      htCapInfo := ((elems .htCapabilities).map fun e => le16At body e.1).getD 0
      htInfoInfos0Sco := ((elems .htOperation).map fun e => byteAt body (e.1 + 1) &&& 0x03).getD 0
      encrypProtocol := security.1
      ciphers := security.2.1
      is8021x := security.2.2 }

/-- What `rtw_check_bcn_info` uses of `mlme_priv`; the last two are of `cur_network.BcnInfo`. -/
structure BcnCheck where
  associated : Bool
  macAddress : MacAddr
  curBeaconKeys : BeaconKeys
  newBeaconKeys : BeaconKeys
  newBeaconCnts : UInt8
  htCapInfo : ℕ
  htInfoInfos0 : UInt8

/-- A call: the frame with the memory behind it, the channel of the adapter and the value of `new_bcn_max` -/
structure Beacon where
  mem : List UInt8
  packetLen : UInt32
  curChannel : UInt8
  newBcnMax : ℤ

/-- A hidden SSID counts as the current one. -/
def BeaconKeys.unhide (cur k : BeaconKeys) : BeaconKeys := if k.ssid = [] then { k with ssid := cur.ssid } else k

/-- The key set that a beacon of the AP is compared by -/
def BcnCheck.recvBeacon (s : BcnCheck) (e : Beacon) : Option BeaconKeys :=
  if slice e.mem 16 ETH_ALEN = s.macAddress then
    (rtwGetBcnKeys e.curChannel e.mem e.packetLen).map s.curBeaconKeys.unhide
  else none

/-- The branches that set the counter -/
def BcnCheck.count (s : BcnCheck) (k : BeaconKeys) : BcnCheck :=
  if k = s.curBeaconKeys then { s with newBeaconCnts := 0 }
  else if s.newBeaconCnts = 0 ∨ k ≠ s.newBeaconKeys then { s with newBeaconKeys := k, newBeaconCnts := 1 }
  else { s with newBeaconCnts := s.newBeaconCnts + 1 }

def BeaconKeys.withHt (cur k : BeaconKeys) : BeaconKeys :=
  { cur with htCapInfo := k.htCapInfo, htInfoInfos0Sco := k.htInfoInfos0Sco }

/-- The branch behind the threshold; `cur_beacon_keys` is written before it is compared. -/
def BcnCheck.confirm (s : BcnCheck) (k : BeaconKeys) : BcnCheck × Status :=
  if k ≠ s.curBeaconKeys.withHt k then ({ s with curBeaconKeys := s.curBeaconKeys.withHt k },.fail)
  else
    ({ s with
        curBeaconKeys := k
        newBeaconCnts := 0
        htCapInfo := k.htCapInfo
        htInfoInfos0 := s.htInfoInfos0 &&& 0xfc ||| k.htInfoInfos0Sco },.success)

def rtwCheckBcnInfo (s : BcnCheck) (e : Beacon) : BcnCheck × Status :=
  if s.associated = false then (s,.success)
  -- `len` is unsigned
  else if MAX_IE_SZ < (e.packetLen - UInt32.ofNat WLAN_HDR_A3_LEN).toNat then (s,.fail)
  else
    match s.recvBeacon e with
    | none => (s,.success)
    | some k =>
      let s := s.count k
      if e.newBcnMax ≤ s.newBeaconCnts.toNat then s.confirm k else (s,.success)

/-- The key sets of the parseable beacons so far, the newest last -/
structure BcnRun where
  st : BcnCheck
  seen : List BeaconKeys

def bcnStep (t : BcnRun) (e : Beacon) : BcnRun :=
  ⟨(rtwCheckBcnInfo t.st e).1,t.seen ++ (t.st.recvBeacon e).toList⟩

/-- After `OnBeacon` has stored the keys of the AP it joins -/
def bcnJoined (macAddress : MacAddr) (cur new : BeaconKeys) (htCapInfo : ℕ) (htInfoInfos0 : UInt8) : BcnRun :=
  ⟨⟨true,macAddress,cur,new,0,htCapInfo,htInfoInfos0⟩,[]⟩

def SameButHt (k cur : BeaconKeys) : Prop :=
  k.ssid = cur.ssid ∧ k.bcnChannel = cur.bcnChannel ∧ k.encrypProtocol = cur.encrypProtocol ∧
    k.ciphers = cur.ciphers ∧
    k.is8021x = cur.is8021x

/-- With this beacon, the last `new_bcn_max` parseable ones had the key set `k`. -/
def Confirmed (t : BcnRun) (e : Beacon) (k : BeaconKeys) : Prop := List.replicate e.newBcnMax.toNat k <:+ t.seen ++ [k]

/-- A beacon disconnects when it confirms a change of more than the bandwidth, and a confirmed change of the
bandwidth is what the key set changes to. -/
structure ChangeRight (t : BcnRun) (e : Beacon) : Prop where
  fail_iff : (rtwCheckBcnInfo t.st e).2 = .fail ↔
    (BEACON_ELEMS ≤ e.packetLen.toNat ∧ e.packetLen.toNat ≤ WLAN_HDR_A3_LEN + MAX_IE_SZ) ∧
      ∃ k, t.st.recvBeacon e = some k ∧ Confirmed t e k ∧ ¬SameButHt k t.st.curBeaconKeys
  kept : (∀ k, t.st.recvBeacon e = some k → Confirmed t e k → ¬SameButHt k t.st.curBeaconKeys) →
    (bcnStep t e).st.curBeaconKeys = t.st.curBeaconKeys
  taken : ∀ k, t.st.recvBeacon e = some k → Confirmed t e k → SameButHt k t.st.curBeaconKeys →
    (bcnStep t e).st.curBeaconKeys = k
  fail_keeps : (rtwCheckBcnInfo t.st e).2 = .fail → (bcnStep t e).st.curBeaconKeys = t.st.curBeaconKeys

/-- The frame has a header and no more than `MAX_IE_SZ` bytes behind it, the counter has not wrapped when a
change is confirmed, except of a frame that ends before its elements, and such a change leaves the bandwidth alone. -/
structure BeaconOk (t : BcnRun) (e : Beacon) : Prop where
  length : WLAN_HDR_A3_LEN ≤ e.packetLen.toNat ∧ e.packetLen.toNat ≤ WLAN_HDR_A3_LEN + MAX_IE_SZ
  counted : ∀ k, t.st.recvBeacon e = some k → k ≠ t.st.curBeaconKeys → Confirmed t e k →
    (SameButHt k t.st.curBeaconKeys ∨ BEACON_ELEMS ≤ e.packetLen.toNat ↔
      e.newBcnMax ≤ (streak (t.seen ++ [k]) k % 256 : ℕ))
  bandwidth : ∀ k, t.st.recvBeacon e = some k → Confirmed t e k → ¬SameButHt k t.st.curBeaconKeys →
    BEACON_ELEMS ≤ e.packetLen.toNat →
      k.htCapInfo = t.st.curBeaconKeys.htCapInfo ∧ k.htInfoInfos0Sco = t.st.curBeaconKeys.htInfoInfos0Sco

/-- The stored keys and the counter hold the streak of the last key set. -/
structure BcnInv (t : BcnRun) : Prop where
  associated : t.st.associated = true
  counted : ∀ k, k ≠ t.st.curBeaconKeys →
    streak t.seen k % 256 = if k = t.st.newBeaconKeys then t.st.newBeaconCnts.toNat else 0

section
variable {t : BcnRun} {s : BcnCheck} {e : Beacon} {k cur : BeaconKeys}

theorem withHt_eq_iff : k = cur.withHt k ↔ SameButHt k cur := by
  unfold SameButHt BeaconKeys.withHt
  rw [BeaconKeys.ext_iff]
  tauto

theorem withHt_eq_self_iff : cur.withHt k = cur ↔ k.htCapInfo = cur.htCapInfo ∧
    k.htInfoInfos0Sco = cur.htInfoInfos0Sco := by
  unfold BeaconKeys.withHt
  rw [BeaconKeys.ext_iff]
  tauto

theorem sameButHt_self (k : BeaconKeys) : SameButHt k k := ⟨rfl,rfl,rfl,rfl,rfl⟩

theorem length_test (p : UInt32) : (p - UInt32.ofNat WLAN_HDR_A3_LEN).toNat ≤ MAX_IE_SZ ↔
    WLAN_HDR_A3_LEN ≤ p.toNat ∧ p.toNat ≤ WLAN_HDR_A3_LEN + MAX_IE_SZ := by
  have hp := p.toNat_lt
  have hsub : (p - UInt32.ofNat WLAN_HDR_A3_LEN).toNat = (2 ^ 32 - 24 + p.toNat) % 2 ^ 32 := UInt32.toNat_sub _ _
  rw [hsub, WLAN_HDR_A3_LEN, MAX_IE_SZ]
  omega

@[simp] theorem count_associated (s : BcnCheck) (k : BeaconKeys) : (s.count k).associated = s.associated := by
  unfold BcnCheck.count
  split_ifs <;> rfl

@[simp] theorem count_curBeaconKeys (s : BcnCheck) (k : BeaconKeys) : (s.count k).curBeaconKeys = s.curBeaconKeys := by
  unfold BcnCheck.count
  split_ifs <;> rfl

theorem confirmed_iff : Confirmed t e k ↔ e.newBcnMax.toNat ≤ streak (t.seen ++ [k]) k := replicate_suffix_iff

/-- A key set other than the current one is the one that is counted then. -/
theorem BcnInv.count (h : BcnInv t) (hk : k ≠ t.st.curBeaconKeys) :
    (t.st.count k).newBeaconKeys = k ∧ (t.st.count k).newBeaconCnts.toNat = streak (t.seen ++ [k]) k % 256 := by
  have hcounted := h.counted k hk
  unfold BcnCheck.count
  rw [if_neg hk, streak_concat_self, Nat.add_mod, hcounted]
  split_ifs with hstart hnew hnew
  · have hzero : t.st.newBeaconCnts = 0 := hstart.resolve_right (not_not_intro hnew)
    exact ⟨rfl,by rw [hzero]; rfl⟩
  · exact ⟨rfl,rfl⟩
  · refine ⟨hnew.symm,?_⟩
    rw [UInt8.toNat_add]
    rfl
  · exact absurd (Or.inr hnew) hstart

/-- What a call does with a key set that is not the current one -/
theorem check_changed (h : BcnInv t) (hlen : (e.packetLen - UInt32.ofNat WLAN_HDR_A3_LEN).toNat ≤ MAX_IE_SZ)
    (hkey : t.st.recvBeacon e = some k) (hk : k ≠ t.st.curBeaconKeys) :
    rtwCheckBcnInfo t.st e =
      if e.newBcnMax ≤ (streak (t.seen ++ [k]) k % 256 : ℕ) then (t.st.count k).confirm k
      else (t.st.count k,.success) := by
  rw [← (h.count hk).2, rtwCheckBcnInfo, if_neg (by rw [h.associated]; exact Bool.noConfusion),
    if_neg (not_lt.mpr hlen), hkey]

theorem check_same (h : BcnInv t) (hlen : (e.packetLen - UInt32.ofNat WLAN_HDR_A3_LEN).toNat ≤ MAX_IE_SZ)
    (hkey : t.st.recvBeacon e = some t.st.curBeaconKeys) :
    (rtwCheckBcnInfo t.st e).2 = .success ∧ (rtwCheckBcnInfo t.st e).1.curBeaconKeys = t.st.curBeaconKeys ∧
      (rtwCheckBcnInfo t.st e).1.newBeaconCnts = 0 ∧ (rtwCheckBcnInfo t.st e).1.associated = true := by
  have hcount : t.st.count t.st.curBeaconKeys = { t.st with newBeaconCnts := 0 } := if_pos rfl
  rw [rtwCheckBcnInfo, if_neg (by rw [h.associated]; exact Bool.noConfusion), if_neg (not_lt.mpr hlen), hkey]
  dsimp only
  rw [hcount]
  split_ifs
  · rw [BcnCheck.confirm, if_neg (not_not_intro (withHt_eq_iff.mpr (sameButHt_self _)))]
    exact ⟨rfl,rfl,rfl,h.associated⟩
  · exact ⟨rfl,rfl,rfl,h.associated⟩

theorem check_none (hlen : (e.packetLen - UInt32.ofNat WLAN_HDR_A3_LEN).toNat ≤ MAX_IE_SZ)
    (hkey : s.recvBeacon e = none) : rtwCheckBcnInfo s e = (s,.success) := by
  rw [rtwCheckBcnInfo, if_neg (not_lt.mpr hlen), hkey]
  exact ite_self _

theorem confirm_of_same (h : SameButHt k s.curBeaconKeys) :
    (s.confirm k).2 = .success ∧ (s.confirm k).1.curBeaconKeys = k ∧ (s.confirm k).1.newBeaconCnts = 0 ∧
      (s.confirm k).1.associated = s.associated := by
  rw [BcnCheck.confirm, if_neg (not_not_intro (withHt_eq_iff.mpr h))]
  exact ⟨rfl,rfl,rfl,rfl⟩

theorem confirm_of_not_same (h : ¬SameButHt k s.curBeaconKeys) :
    s.confirm k = ({ s with curBeaconKeys := s.curBeaconKeys.withHt k },.fail) := by
  rw [BcnCheck.confirm, if_pos (mt withHt_eq_iff.mp h)]

theorem bcnInv_joined (macAddress : MacAddr) (cur new : BeaconKeys) (htCapInfo : ℕ) (htInfoInfos0 : UInt8) :
    BcnInv (bcnJoined macAddress cur new htCapInfo htInfoInfos0) where
  associated := rfl
  counted _ _ := (ite_self _).symm

/-- Every call with a frame that passes the length test keeps the invariant. -/
theorem BcnInv.step (h : BcnInv t) (hlen : (e.packetLen - UInt32.ofNat WLAN_HDR_A3_LEN).toNat ≤ MAX_IE_SZ) :
    BcnInv (bcnStep t e) := by
  unfold bcnStep
  cases hkey : t.st.recvBeacon e with
  | none =>
    rw [check_none hlen hkey, Option.toList_none, List.append_nil]
    exact h
  | some k =>
    rw [Option.toList_some]
    by_cases hk : k = t.st.curBeaconKeys
    · subst hk
      obtain ⟨-,hcur,hcnt,hassoc⟩ := check_same h hlen hkey
      refine ⟨hassoc,?_⟩
      intro k' hk'
      dsimp only at hk' ⊢
      rw [hcur] at hk'
      rw [streak_concat_of_ne (Ne.symm hk'), hcnt]
      exact (ite_self _).symm
    · obtain ⟨hnew,hcnt⟩ := h.count hk
      have hlast : ∀ k', streak (t.seen ++ [k]) k' % 256 = if k' = k then (t.st.count k).newBeaconCnts.toNat
          else 0 := by
        intro k'
        by_cases heq : k' = k
        · rw [if_pos heq, heq, hcnt]
        · rw [if_neg heq, streak_concat_of_ne (Ne.symm heq)]
      rw [check_changed h hlen hkey hk]
      split_ifs
      · by_cases hsame : SameButHt k (t.st.count k).curBeaconKeys
        · obtain ⟨-,hcur,hzero,hassoc⟩ := confirm_of_same hsame
          refine ⟨by rw [hassoc, count_associated]; exact h.associated,?_⟩
          intro k' hk'
          rw [hcur] at hk'
          rw [hlast, if_neg hk', hzero]
          exact (ite_self _).symm
        · rw [confirm_of_not_same hsame]
          refine ⟨by rw [← h.associated]; exact count_associated _ _,?_⟩
          intro k' _
          rw [hlast, hnew]
      · refine ⟨by rw [← h.associated]; exact count_associated _ _,?_⟩
        intro k' _
        rw [hlast, hnew]

/-- A frame that is too long, or so short that its length wraps, is taken for a changed beacon. -/
theorem check_bad_length (h : t.st.associated = true)
    (hlen : MAX_IE_SZ < (e.packetLen - UInt32.ofNat WLAN_HDR_A3_LEN).toNat) :
    (rtwCheckBcnInfo t.st e).2 = .fail := by
  rw [rtwCheckBcnInfo, if_neg (by rw [h]; exact Bool.noConfusion), if_pos hlen]

/-- A confirmed change is seen as one unless the counter has wrapped. -/
theorem confirmed_of_count (h : e.newBcnMax ≤ (streak (t.seen ++ [k]) k % 256 : ℕ)) : Confirmed t e k := by
  rw [confirmed_iff]
  have := Nat.mod_le (streak (t.seen ++ [k]) k) 256
  omega

section Key
variable (hlen : WLAN_HDR_A3_LEN ≤ e.packetLen.toNat ∧ e.packetLen.toNat ≤ WLAN_HDR_A3_LEN + MAX_IE_SZ)
  (hkey : t.st.recvBeacon e = some k)
include hlen hkey

theorem changeRight_some : ChangeRight t e ↔
    ((rtwCheckBcnInfo t.st e).2 = .fail ↔
        BEACON_ELEMS ≤ e.packetLen.toNat ∧ Confirmed t e k ∧ ¬SameButHt k t.st.curBeaconKeys) ∧
      (¬(Confirmed t e k ∧ SameButHt k t.st.curBeaconKeys) →
      (bcnStep t e).st.curBeaconKeys = t.st.curBeaconKeys) ∧
      (Confirmed t e k ∧ SameButHt k t.st.curBeaconKeys → (bcnStep t e).st.curBeaconKeys = k) ∧
      ((rtwCheckBcnInfo t.st e).2 = .fail → (bcnStep t e).st.curBeaconKeys = t.st.curBeaconKeys) := by
  constructor
  · intro h
    have hfail := h.fail_iff
    simp only [hkey, Option.some.injEq, exists_eq_left', and_iff_left hlen.2] at hfail
    refine ⟨hfail,?_,fun hc => h.taken k hkey hc.1 hc.2,h.fail_keeps⟩
    intro hc
    refine h.kept ?_
    intro j hj hconf hsame
    obtain rfl : k = j := Option.some.inj (hkey.symm.trans hj)
    exact hc ⟨hconf,hsame⟩
  · rintro ⟨hfail,hkept,htaken,hkeeps⟩
    refine ⟨?_,?_,?_,hkeeps⟩
    · simpa only [hkey, Option.some.injEq, exists_eq_left', and_iff_left hlen.2] using hfail
    · intro h
      exact hkept fun hc => h k hkey hc.1 hc.2
    · intro j hj hconf hsame
      obtain rfl : k = j := Option.some.inj (hkey.symm.trans hj)
      exact htaken ⟨hconf,hsame⟩

theorem beaconOk_some : BeaconOk t e ↔
    (k ≠ t.st.curBeaconKeys → Confirmed t e k →
        (SameButHt k t.st.curBeaconKeys ∨ BEACON_ELEMS ≤ e.packetLen.toNat ↔
          e.newBcnMax ≤ (streak (t.seen ++ [k]) k % 256 : ℕ))) ∧
      (Confirmed t e k → ¬SameButHt k t.st.curBeaconKeys → BEACON_ELEMS ≤ e.packetLen.toNat →
        t.st.curBeaconKeys.withHt k = t.st.curBeaconKeys) := by
  rw [withHt_eq_self_iff]
  constructor
  · intro h
    exact ⟨h.counted k hkey,h.bandwidth k hkey⟩
  · rintro ⟨hcounted,hbandwidth⟩
    refine ⟨hlen,?_,?_⟩
    · intro j hj
      obtain rfl : k = j := Option.some.inj (hkey.symm.trans hj)
      exact hcounted
    · intro j hj
      obtain rfl : k = j := Option.some.inj (hkey.symm.trans hj)
      exact hbandwidth

/-- A call whose frame passes the length test, for the key set that it finds -/
theorem changeRight_iff_of_key (h : BcnInv t) : ChangeRight t e ↔ BeaconOk t e := by
  have htest := (length_test e.packetLen).mpr hlen
  rw [changeRight_some hlen hkey, beaconOk_some hlen hkey, bcnStep]
  by_cases hk : k = t.st.curBeaconKeys
  · have hsame : SameButHt k t.st.curBeaconKeys := by
      rw [hk]
      exact sameButHt_self _
    obtain ⟨hok,hcur,-⟩ := check_same h htest (by rw [hkey, hk])
    rw [← hk] at hsame hcur
    simp [hok, hcur, hsame, ← hk]
  · rw [check_changed h htest hkey hk]
    by_cases hmax : e.newBcnMax ≤ (streak (t.seen ++ [k]) k % 256 : ℕ)
    · have hconf : Confirmed t e k := confirmed_of_count hmax
      rw [if_pos hmax, eq_true hmax]
      by_cases hsame : SameButHt k t.st.curBeaconKeys
      · obtain ⟨hok,hcur,-⟩ := confirm_of_same (s := t.st.count k) (by rwa [count_curBeaconKeys])
        simp [hok, hcur, hsame, hconf]
      · rw [confirm_of_not_same (by rwa [count_curBeaconKeys])]
        simp [hsame, hconf, hk]
        exact Or.inl
    · have hk' : ¬t.st.curBeaconKeys = k := Ne.symm hk
      rw [if_neg hmax, eq_false hmax]
      simp [hk, hk', -not_le, -Nat.not_le]
      tauto

end Key

/-- The call does what is asked for exactly when the condition holds. -/
theorem changeRight_iff (h : BcnInv t) : ChangeRight t e ↔ BeaconOk t e := by
  by_cases hlen : WLAN_HDR_A3_LEN ≤ e.packetLen.toNat ∧ e.packetLen.toNat ≤ WLAN_HDR_A3_LEN + MAX_IE_SZ
  · cases hkey : t.st.recvBeacon e with
    | some k => exact changeRight_iff_of_key hlen hkey h
    | none =>
      have hcheck := check_none ((length_test e.packetLen).mpr hlen) hkey
      constructor
      · intro _
        exact ⟨hlen,by simp [hkey],by simp [hkey]⟩
      · intro _
        exact ⟨by simp [hcheck, hkey],by simp [bcnStep, hcheck],by simp [hkey],by simp [hcheck]⟩
  · have hfail := check_bad_length h.associated (not_le.mp (mt (length_test e.packetLen).mp hlen))
    constructor
    · intro hright
      obtain ⟨⟨hlong,hmax⟩,-⟩ := hright.fail_iff.mp hfail
      exact absurd ⟨(Nat.le_add_right _ _).trans hlong,hmax⟩ hlen
    · intro hok
      exact absurd hok.length hlen

end

/-- In a run of beacons, each does what is asked for exactly when each meets the condition. -/
theorem changed_beacon_right_iff (macAddress : MacAddr) (cur new : BeaconKeys) (htCapInfo : ℕ) (htInfoInfos0 : UInt8)
    (es : List Beacon) :
    let run := Run.run bcnStep (bcnJoined macAddress cur new htCapInfo htInfoInfos0)
    (∀ past e, past ++ [e] <+: es → ChangeRight (run past) e) ↔
      ∀ past e, past ++ [e] <+: es → BeaconOk (run past) e := by
  intro run
  refine Trace.event_iff (I := fun past => BcnInv (run past)) ?_ ?_ ?_
  · exact bcnInv_joined macAddress cur new htCapInfo htInfoInfos0
  · intro past e hinv hok
    rw [show run (past ++ [e]) = bcnStep (run past) e from Run.run_append _ _ _ _]
    exact hinv.step ((length_test e.packetLen).mpr hok.length)
  · exact fun past e hinv => changeRight_iff hinv

/-- The open network without HT on channel 1 -/
def openKeys : BeaconKeys := ⟨[0x61],1,0,0,.OPENSYS,⟨0,0⟩,false⟩

/-- A beacon of the AP with 769 bytes behind its header -/
def longBeacon : Beacon :=
  ⟨[0x80,0,0,0] ++ List.replicate 6 0xff ++ apAddr ++ apAddr ++ [0,0] ++ List.replicate 769 0,793,1,3⟩

/-- The first long beacon disconnects. -/
theorem long_beacon_disconnects :
    ¬∀ (macAddress : MacAddr) (cur new : BeaconKeys) (htCapInfo : ℕ) (htInfoInfos0 : UInt8) (es : List Beacon),
      ∀ past e, past ++ [e] <+: es →
        ChangeRight (Run.run bcnStep (bcnJoined macAddress cur new htCapInfo htInfoInfos0) past) e := by
  intro h
  have hright := h apAddr openKeys openKeys 0 0 [longBeacon] [] longBeacon List.prefix_rfl
  have hfail : (rtwCheckBcnInfo (bcnJoined apAddr openKeys openKeys 0 0).st longBeacon).2 = .fail :=
    check_bad_length rfl (by decide)
  exact absurd (hright.fail_iff.mp hfail).1.2 (by decide)

end Rtl8188fu
