import Rtl8188fu.Ap.AuthProtocol
import Rtl8188fu.Ap.BcnTim
import Rtl8188fu.Ieee80211.ParseElems

/-! # Copies of received elements into arrays of fixed size

The rates of an association request and of a beacon, and the challenge text in both directions. A frame is
given with the memory behind it; its length is an argument of its own.
-/
namespace Rtl8188fu
open Bytes

def EXT_SUPPORTEDRATES_IE : UInt8 := 50
def HT_CAPABILITY_ID : UInt8 := 0x2d

/-- The arrays that elements are copied into -/
inductive RateBuf
  | rateSet
  | bssrateset
  | chgTxt
deriving DecidableEq

def RateBuf.size : RateBuf → ℕ
  | .rateSet | .bssrateset => 16
  | .chgTxt => 128

/-- A copy: the array, the place in it, and the bytes -/
structure ElemCopy where
  dest : RateBuf
  place : ℕ
  bytes : List UInt8

def ElemCopy.Fits (c : ElemCopy) : Prop := c.place + c.bytes.length ≤ c.dest.size

def bytesFrom (m : List UInt8) (p n : ℕ) : List UInt8 := (List.range n).map fun i => byteAt m (p + i)

/-- The copies into `rate_set`, and `rate_num` -/
structure SupportedRates where
  copies : List ElemCopy
  rateNum : ℕ

def SupportedRates.bytes (r : SupportedRates) : List UInt8 := r.copies.flatMap ElemCopy.bytes

/-- `rtw_ies_get_supported_rate`; `rate_num` is an `u8`. -/
def rtwIesGetSupportedRate (ies : List UInt8) (iesLen : ℕ) : SupportedRates :=
  let r : SupportedRates :=
    match rtwGetIe ies SUPPORTEDRATES_IE iesLen with
    | none => ⟨[],0⟩
    | some (p, ieLen) => ⟨[⟨.rateSet,0,bytesFrom ies (p + 2) ieLen⟩],ieLen % 256⟩
  match rtwGetIe ies EXT_SUPPORTEDRATES_IE iesLen with
  | none => r
  | some (p, ieLen) =>
    ⟨r.copies ++ [⟨.rateSet,r.rateNum,bytesFrom ies (p + 2) ieLen⟩],(r.rateNum + ieLen) % 256⟩

/-- The copies of a caller that goes on to `bssrateset`, unless there are no rates -/
def ratesCopied (ies : List UInt8) (iesLen : ℕ) (room : Bool) : List ElemCopy :=
  let r := rtwIesGetSupportedRate ies iesLen
  r.copies ++ if r.rateNum = 0 ∨ room = false then [] else [⟨.bssrateset,0,r.bytes.take r.rateNum⟩]

/-- What `OnAssocReq` looks at before the rates: the own state, whether the station is known and authenticated
or associated, and `cur->Ssid` -/
structure AssocReqState where
  apState : Bool
  admitted : Bool
  ssid : List UInt8

/-- `_SUCCESS` of the checks before the rates -/
def assocReqPasses (s : AssocReqState) (ies : List UInt8) (left : ℕ) : Bool :=
  (rtwIeee80211ParseElems (ies.take left)).1 ≠ .failed && ((rtwIeee80211ParseElems (ies.take left)).2 .ssid).isSome &&
    match rtwGetIe ies SSID_IE left with
    | none => false
    | some (p, ieLen) => ieLen ≠ 0 && slice ies (p + 2) s.ssid.length = s.ssid && ieLen = s.ssid.length

def assocReqIes (frame : List UInt8) : ℕ :=
  WLAN_HDR_A3_LEN + if getFrameSubType frame = WIFI_ASSOCREQ then _ASOCREQ_IE_OFFSET_ else _REASOCREQ_IE_OFFSET_

/-- `OnAssocReq` comes to the rates. -/
def assocReqTakesRates (s : AssocReqState) (frame : List UInt8) (pktLen : ℕ) : Bool :=
  s.apState && assocReqIes frame ≤ pktLen && s.admitted &&
    assocReqPasses s (frame.drop (assocReqIes frame)) (pktLen - assocReqIes frame)

def onAssocReqCopies (s : AssocReqState) (frame : List UInt8) (pktLen : ℕ) : List ElemCopy :=
  if assocReqTakesRates s frame pktLen then ratesCopied (frame.drop (assocReqIes frame))
    (pktLen - assocReqIes frame) true
  else []

/-- `CONFIG_ATTEMPT_TO_FIX_AP_BEACON_ERROR`: extended rates that end with the number of the HT capabilities
are cut by that byte. -/
def fixExtRates (frame : List UInt8) (len : ℕ) : List UInt8 :=
  let ies := WLAN_HDR_A3_LEN + BEACON_IE_OFFSET
  match rtwGetIe (frame.drop ies) EXT_SUPPORTEDRATES_IE (len - ies) with
  | none => frame
  | some (p, ielen) =>
    if 0 < ielen ∧ byteAt frame (ies + p + 1 + ielen) = HT_CAPABILITY_ID ∧
        byteAt frame (ies + p + 2 + ielen) ≠ HT_CAPABILITY_ID then
      patch frame (ies + p + 1) [UInt8.ofNat (ielen - 1)]
    else frame

def fixedBeaconIes (frame : List UInt8) (len : ℕ) : List UInt8 :=
  (fixExtRates frame len).drop (WLAN_HDR_A3_LEN + BEACON_IE_OFFSET)

/-- The copies of `OnBeacon`; `unknown` is an ad hoc network's beacon from a station that is not known, `room`
tells that the station gets an entry. -/
def onBeaconCopies (unknown room : Bool) (frame : List UInt8) (len : ℕ) : List ElemCopy :=
  if unknown then ratesCopied (fixedBeaconIes frame len) (len - WLAN_HDR_A3_LEN - BEACON_IE_OFFSET) room else []

/-- What `OnAuthClient` looks at -/
structure AuthClient where
  macAddr : MacAddr
  authState : Bool
  shared : Bool

/-- It comes to the challenge text: the frame is for the adapter and has status 0 and sequence 2. -/
def AuthClient.takesChallenge (s : AuthClient) (frame : List UInt8) : Bool :=
  let offset := if getPrivacy frame then 4 else 0
  getDa frame = s.macAddr && s.authState && le16At frame (WLAN_HDR_A3_LEN + offset + 4) = 0 &&
    le16At frame (WLAN_HDR_A3_LEN + offset + 2) = 2 && s.shared

def clientChallenge (frame : List UInt8) (pktLen : ℕ) : Option (ℕ × ℕ) :=
  rtwGetIe (frame.drop (WLAN_HDR_A3_LEN + _AUTH_IE_OFFSET_)) _CHLGETXT_IE_ (pktLen - WLAN_HDR_A3_LEN - _AUTH_IE_OFFSET_)

def onAuthClientCopies (s : AuthClient) (frame : List UInt8) (pktLen : ℕ) : List ElemCopy :=
  if s.takesChallenge frame then
    match clientChallenge frame pktLen with
    | none => []
    | some (p, len) => [⟨.chgTxt,0,bytesFrom (frame.drop (WLAN_HDR_A3_LEN + _AUTH_IE_OFFSET_)) (p + 2) len⟩]
  else []

/-- `OnAuth` comes to the search for the challenge text. -/
def AuthRead.answersChallenge (sec : SecurityPriv) (sta : AuthSta) (r : AuthRead) : Bool :=
  sta.authSeq = 2 && r.seq = 3 &&
    !(r.algorithm = 0 && (authMode sec = .openSystem || authMode sec = .ieee8021X || authMode sec = .auto))

/-- The first of the bytes that `OnAuth` compares with the challenge text, and the length of the frame -/
def onAuthCompared (sec : SecurityPriv) (t : AuthTable) (f : RecvFrame) (allowed : Bool) : Option (ℕ × ℕ) := do
  let r ← readAuth sec f
  let sta ← t (staKey (getAddr2Ptr f.buf.ptr))
  if badAlgorithm sec r.algorithm = false ∧ allowed = true ∧ r.answersChallenge sec sta = true then
    let (p, ieLen) ← findChallenge r.frame
    if 0 < ieLen then some (WLAN_HDR_A3_LEN + 4 + _AUTH_IE_OFFSET_ + p + 2,r.frame.buf.len) else none
  else none

/-- The length of the element that `rtw_get_ie` finds, nothing without one -/
def ieLength (ies : List UInt8) (index : UInt8) (limit : ℕ) : ℕ := ((rtwGetIe ies index limit).map Prod.snd).getD 0

/-- Both rates elements together have no more rates than `rate_set` has room for. -/
def RatesFit (ies : List UInt8) (iesLen : ℕ) : Prop :=
  ieLength ies SUPPORTEDRATES_IE iesLen + ieLength ies EXT_SUPPORTEDRATES_IE iesLen ≤ 16

def RatesExact (r : SupportedRates) : Prop := (∀ c ∈ r.copies, c.Fits) ∧ r.rateNum = r.bytes.length

/-- A challenge text that is looked at is empty, or 128 bytes follow its header inside the frame. -/
def ChallengeInside (sec : SecurityPriv) (t : AuthTable) (f : RecvFrame) (allowed : Bool) : Prop :=
  ∀ r ∈ readAuth sec f, ∀ sta ∈ t (staKey (getAddr2Ptr f.buf.ptr)),
    badAlgorithm sec r.algorithm = false → allowed = true → r.answersChallenge sec sta = true →
      ∀ e ∈ findChallenge r.frame, e.2 = 0 ∨
        WLAN_HDR_A3_LEN + 4 + _AUTH_IE_OFFSET_ + e.1 + 130 ≤ r.frame.buf.len

section
variable {ies frame : List UInt8} {index : UInt8} {limit len : ℕ} {e : ℕ × ℕ}

theorem rtwGetIeLoop_lt {fuel i : ℕ} (h : rtwGetIeLoop ies index limit fuel i = some e) : e.2 < 256 := by
  induction fuel generalizing i with
  | zero => cases h
  | succ fuel ih =>
    unfold rtwGetIeLoop at h
    split at h
    · cases h
      exact byteAt_lt _ _
    · dsimp only at h
      split at h
      · cases h
      · exact ih h

theorem rtwGetIe_lt (h : rtwGetIe ies index limit = some e) : e.2 < 256 := by
  unfold rtwGetIe at h
  split at h
  · cases h
  · exact rtwGetIeLoop_lt h

/-- In a sequence of complete elements it is the length of the first one with the number. -/
theorem ieLength_flat (index : UInt8) (ts : List Tlv) (rest : List UInt8) :
    ieLength (Tlv.flat ts ++ rest) index (Tlv.flat ts).length =
      ((ts.find? fun t => t.id = index).map fun t => t.body.length).getD 0 := by
  have h := rtwGetIe_flat index ts rest
  unfold ieLength
  generalize rtwGetIe (Tlv.flat ts ++ rest) index (Tlv.flat ts).length = r at h
  cases h with
  | none hnone =>
    rw [List.find?_eq_none.mpr (by simpa using hnone)]
    rfl
  | some hpre ht hts =>
    rw [hts, List.find?_append, List.find?_eq_none.mpr (by simpa using hpre)]
    simp [ht]

theorem length_bytesFrom (m : List UInt8) (p n : ℕ) : (bytesFrom m p n).length = n := by
  rw [bytesFrom, List.length_map, List.length_range]

theorem supportedRates_eq (ies : List UInt8) (iesLen : ℕ) :
    (rtwIesGetSupportedRate ies iesLen).bytes.length =
        ieLength ies SUPPORTEDRATES_IE iesLen + ieLength ies EXT_SUPPORTEDRATES_IE iesLen ∧
      (rtwIesGetSupportedRate ies iesLen).rateNum =
        (ieLength ies SUPPORTEDRATES_IE iesLen + ieLength ies EXT_SUPPORTEDRATES_IE iesLen) % 256 ∧
      ((∀ c ∈ (rtwIesGetSupportedRate ies iesLen).copies, c.Fits) ↔ RatesFit ies iesLen) := by
  unfold RatesFit ieLength rtwIesGetSupportedRate
  cases h1 : rtwGetIe ies SUPPORTEDRATES_IE iesLen with
  | none =>
    cases h2 : rtwGetIe ies EXT_SUPPORTEDRATES_IE iesLen with
    | none => simp [SupportedRates.bytes]
    | some e2 => simp [SupportedRates.bytes, length_bytesFrom, ElemCopy.Fits, RateBuf.size]
  | some e1 =>
    have hlt := rtwGetIe_lt h1
    cases h2 : rtwGetIe ies EXT_SUPPORTEDRATES_IE iesLen with
    | none => simp [SupportedRates.bytes, length_bytesFrom, ElemCopy.Fits, RateBuf.size]
    | some e2 =>
      have hfits : e1.2 ≤ 16 ∧ e1.2 + e2.2 ≤ 16 ↔ e1.2 + e2.2 ≤ 16 := by omega
      simpa [SupportedRates.bytes, length_bytesFrom, ElemCopy.Fits, RateBuf.size, Nat.mod_eq_of_lt hlt] using hfits

theorem ratesExact_iff : RatesExact (rtwIesGetSupportedRate ies limit) ↔ RatesFit ies limit := by
  obtain ⟨hbytes,hnum,hfits⟩ := supportedRates_eq ies limit
  unfold RatesExact
  rw [hfits, hbytes, hnum]
  refine and_iff_left_of_imp fun h => Nat.mod_eq_of_lt ?_
  unfold RatesFit at h
  omega

theorem ratesCopied_fit_iff {room : Bool} : (∀ c ∈ ratesCopied ies limit room, c.Fits) ↔ RatesFit ies limit := by
  obtain ⟨-,hnum,hfits⟩ := supportedRates_eq ies limit
  constructor
  · exact fun h => hfits.mp fun c hc => h c (List.mem_append_left _ hc)
  · intro h c hc
    rcases List.mem_append.mp hc with hc | hc
    · exact hfits.mpr h c hc
    · split at hc
      · cases hc
      · obtain rfl := List.mem_singleton.mp hc
        have hle :=
          List.length_take_le (rtwIesGetSupportedRate ies limit).rateNum (rtwIesGetSupportedRate ies limit).bytes
        unfold RatesFit at h
        unfold ElemCopy.Fits RateBuf.size
        dsimp only
        omega

/-- The same for a caller that comes to the copies only when `p` holds -/
theorem ratesCopied_if_fit_iff {p : Prop} [Decidable p] {room : Bool} :
    (∀ c ∈ if p then ratesCopied ies limit room else [], c.Fits) ↔ (p → RatesFit ies limit) := by
  split
  · rename_i h
    exact ratesCopied_fit_iff.trans ⟨fun hfit _ => hfit,fun hfit => hfit h⟩
  · rename_i h
    exact iff_of_true (fun c hc => by cases hc) fun hp => absurd hp h

theorem onAuthClientCopies_fit_iff {s : AuthClient} :
    (∀ c ∈ onAuthClientCopies s frame len, c.Fits) ↔
      (s.takesChallenge frame = true → ∀ e ∈ clientChallenge frame len, e.2 ≤ 128) := by
  unfold onAuthClientCopies
  split
  · rename_i h
    cases clientChallenge frame len with
    | none => simp
    | some e => simp [h, ElemCopy.Fits, RateBuf.size, length_bytesFrom]
  · rename_i h
    simp [h]

theorem onAuthCompared_inside_iff {sec : SecurityPriv} {t : AuthTable} {f : RecvFrame} {allowed : Bool} :
    (∀ q ∈ onAuthCompared sec t f allowed, q.1 + 128 ≤ q.2) ↔ ChallengeInside sec t f allowed := by
  unfold onAuthCompared ChallengeInside
  cases readAuth sec f with
  | none => simp
  | some r =>
    cases t (staKey (getAddr2Ptr f.buf.ptr)) with
    | none => simp
    | some sta =>
      by_cases hgoes : badAlgorithm sec r.algorithm = false ∧ allowed = true ∧ r.answersChallenge sec sta = true
      · cases hfind : findChallenge r.frame with
        | none => simp [hgoes, hfind]
        | some e =>
          obtain ⟨p,n⟩ := e
          by_cases hlen : 0 < n
          · simp [hgoes, hfind, hlen, Nat.add_assoc, Nat.pos_iff_ne_zero.mp hlen]
          · simp [hgoes, hfind, Nat.eq_zero_of_not_pos hlen]
      · refine iff_of_true (by simp [hgoes]) ?_
        rintro r' ⟨⟩ sta' ⟨⟩ hbad hallowed hanswers
        exact absurd ⟨hbad,hallowed,hanswers⟩ hgoes

end

/-- The rates are copied right exactly when both elements have at most sixteen rates together, and so are the
copies of the callers that come to them; the challenge text is copied inside exactly when it has at most 128
bytes, and compared inside the frame exactly when it is empty or that many bytes follow its header. -/
theorem element_copies_fit_iff (ies : List UInt8) (iesLen : ℕ) (s : AssocReqState) (unknown room : Bool)
    (client : AuthClient)
    (frame : List UInt8) (len : ℕ) (sec : SecurityPriv) (t : AuthTable) (f : RecvFrame) (allowed : Bool) :
    (RatesExact (rtwIesGetSupportedRate ies iesLen) ↔ RatesFit ies iesLen) ∧
    ((∀ c ∈ onAssocReqCopies s frame len, c.Fits) ↔
      (assocReqTakesRates s frame len = true → RatesFit (frame.drop (assocReqIes frame))
      (len - assocReqIes frame))) ∧
    ((∀ c ∈ onBeaconCopies unknown room frame len, c.Fits) ↔
      (unknown = true → RatesFit (fixedBeaconIes frame len) (len - WLAN_HDR_A3_LEN - BEACON_IE_OFFSET))) ∧
    ((∀ c ∈ onAuthClientCopies client frame len, c.Fits) ↔
      (client.takesChallenge frame = true → ∀ e ∈ clientChallenge frame len, e.2 ≤ 128)) ∧
    ((∀ q ∈ onAuthCompared sec t f allowed, q.1 + 128 ≤ q.2) ↔ ChallengeInside sec t f allowed) := by
  exact ⟨ratesExact_iff,ratesCopied_if_fit_iff,ratesCopied_if_fit_iff,onAuthClientCopies_fit_iff,
    onAuthCompared_inside_iff⟩

def eightRates : Tlv := ⟨SUPPORTEDRATES_IE,[0x82,0x84,0x8b,0x96,0x0c,0x12,0x18,0x24],by decide⟩
def nineRates : Tlv := ⟨EXT_SUPPORTEDRATES_IE,[0x30,0x48,0x60,0x6c,0x02,0x04,0x0b,0x16,0x0d],by decide⟩

theorem seventeen_rates_overflow :
    ¬∀ (ies : List UInt8) (iesLen : ℕ), RatesExact (rtwIesGetSupportedRate ies iesLen) := by
  intro h
  have hfit := ratesExact_iff.mp (h (Tlv.flat [eightRates,nineRates] ++ []) (Tlv.flat [eightRates,nineRates]).length)
  unfold RatesFit at hfit
  rw [ieLength_flat, ieLength_flat] at hfit
  exact absurd hfit (by decide)

end Rtl8188fu
