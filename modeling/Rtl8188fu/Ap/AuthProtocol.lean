import Rtl8188fu.Recv.Decryptor
import Rtl8188fu.Ieee80211.GetIe

/-! # Authentication and association at an access point

`OnAuth` with the frame as it lies in memory, and `OnAssocReq`, with and without 802.11w.
A station is its address in a table; what decides whether a request is acceptable apart
from the state of the station is taken from outside.
-/
namespace Rtl8188fu
open Bytes

def WIFI_ASSOCREQ : ℕ := 0x00
def _ASOCREQ_IE_OFFSET_ : ℕ := 4
def _REASOCREQ_IE_OFFSET_ : ℕ := 10
def _AUTH_IE_OFFSET_ : ℕ := 6
def _CHLGETXT_IE_ : UInt8 := 16
def _STATS_SUCCESSFUL_ : ℕ := 0
def _STATS_NO_SUPP_ALG_ : ℕ := 13
def _STATS_OUT_OF_AUTH_SEQ_ : ℕ := 14
def _STATS_CHALLENGE_FAIL_ : ℕ := 15
def _STATS_UNABLE_HANDLE_STA_ : ℕ := 17

/-- The fields of `sta_info` that the handlers use. The first five are bits of `state`. -/
structure AuthSta where
  authNull : Bool
  authState : Bool
  authSuccess : Bool
  assocState : Bool
  assocSuccess : Bool
  authSeq : ℕ
  authalg : ℕ
  chgTxt : List UInt8
  bpairwiseKeyInstalled : Bool
  inAuthList : Bool
  inAsocList : Bool
  deriving DecidableEq, Repr

/-- `rtw_alloc_stainfo`, and what `OnAuth` sets in the new station -/
def AuthSta.fresh : AuthSta := ⟨true,false,false,false,false,0,0,List.replicate 128 0,false,false,false⟩

abbrev AuthTable := MacAddr → Option AuthSta

structure AuthReply where
  ra : MacAddr
  algorithm : ℕ
  seq : ℕ
  status : ℕ
  challenge : Option (List UInt8)
  deriving DecidableEq, Repr

/-- `issue_auth` to a station -/
def issueAuth (ra : MacAddr) (sta : AuthSta) (status : ℕ) : AuthReply :=
  let algorithm := if status ≠ _STATS_SUCCESSFUL_ then 0 else sta.authalg
  { ra := ra
    algorithm := algorithm
    seq := sta.authSeq
    status := status
    challenge := if sta.authSeq = 2 ∧ sta.authState = true ∧ algorithm ≠ 0 then some sta.chgTxt else none }

/-- The end of `OnAuth` behind `auth_fail`, with the station of the address `key` freed -/
def authFail (t : AuthTable) (key : Option MacAddr) (sa : MacAddr) (status : ℕ) : AuthTable × AuthReply :=
  (match key with
    | none => t
    | some a => Function.update t a none,
    ⟨sa,0,2,status,none⟩)

/-- What `OnAuth` reads of a frame -/
structure AuthRead where
  /-- the frame, decrypted when it is protected -/
  frame : RecvFrame
  algorithm : ℕ
  seq : ℕ

/-- A protected frame is decrypted, whatever its ICV. -/
def readAuth (sec : SecurityPriv) (f : RecvFrame) : Option AuthRead :=
  if getPrivacy f.buf.ptr then
    let attrib :=
      { f.attrib with
        hdrlen := WLAN_HDR_A3_LEN
        encrypt := .wep40
        keyIndex := (byteAt f.buf.ptr (WLAN_HDR_A3_LEN + 3)).toNat / 64
        ivLen := 4
        icvLen := 4 }
    (rtwWepDecrypt sec { f with attrib := attrib }).map fun g =>
      ⟨g,le16At g.buf.ptr (WLAN_HDR_A3_LEN + 4),le16At g.buf.ptr (WLAN_HDR_A3_LEN + 4 + 2)⟩
  else some ⟨f,le16At f.buf.ptr WLAN_HDR_A3_LEN,le16At f.buf.ptr (WLAN_HDR_A3_LEN + 2)⟩

def authMode (sec : SecurityPriv) : AuthAlgrthm :=
  if sec.dot11AuthAlgrthm = .ieee8021X ∧ ¬ IsWep sec.dot11PrivacyAlgrthm then .openSystem else sec.dot11AuthAlgrthm

def badAlgorithm (sec : SecurityPriv) (algorithm : ℕ) : Bool :=
  (0 < algorithm ∧ authMode sec = .openSystem) ∨ (algorithm = 0 ∧ authMode sec = .shared)

/-- Where the element with the challenge text is, and its length. The IV is counted whether the
frame has one or not. -/
def findChallenge (f : RecvFrame) : Option (ℕ × ℕ) :=
  rtwGetIe (f.buf.ptr.drop (WLAN_HDR_A3_LEN + 4 + _AUTH_IE_OFFSET_)) _CHLGETXT_IE_
    (f.buf.len - (WLAN_HDR_A3_LEN + _AUTH_IE_OFFSET_ + 4))

/-- The 128 bytes that are compared with the challenge text -/
def challengeBytes (f : RecvFrame) (p : ℕ) : List UInt8 :=
  slice f.buf.ptr (WLAN_HDR_A3_LEN + 4 + _AUTH_IE_OFFSET_ + p + 2) 128

/-- The station is not protected by 802.11w. -/
def AuthSta.open (w : Bool) (sta : AuthSta) : Bool := !w || (!sta.bpairwiseKeyInstalled && !sta.assocSuccess)

/-- The end of `OnAuth` for an accepted frame -/
def authAccepted (t : AuthTable) (key : MacAddr) (sta : AuthSta) (seq : ℕ) : AuthTable × AuthReply :=
  let sta := { sta with authSeq := seq + 1 }
  let reply := issueAuth key sta _STATS_SUCCESSFUL_
  let sta := if sta.authSuccess || sta.assocSuccess then { sta with authSeq := 0 } else sta
  (Function.update t key (some sta),reply)

/-- A frame of sequence 1 in open system authentication -/
def openSystemDone (w : Bool) (algorithm : ℕ) (sta : AuthSta) : AuthSta :=
  let sta := if sta.open w then { sta with authNull := false, authSuccess := true } else sta
  { sta with authalg := algorithm }

/-- A frame of sequence 1 in shared key authentication -/
def challengeSent (w : Bool) (algorithm : ℕ) (sta : AuthSta) : AuthSta :=
  let sta := { sta with chgTxt := List.replicate 128 78 }
  let sta := if sta.open w then { sta with authNull := false, authState := true } else sta
  { sta with authalg := algorithm, authSeq := 2 }

/-- A frame of sequence 3 with the challenge text -/
def challengeAnswered (w : Bool) (sta : AuthSta) : AuthSta :=
  if sta.open w then { sta with authState := false, authSuccess := true } else sta

/-- `OnAuth` from the insertion in `auth_list` on -/
def authCheckSta (w : Bool) (sec : SecurityPriv) (t : AuthTable) (key sa : MacAddr) (sta : AuthSta) (r : AuthRead) :
    AuthTable × AuthReply :=
  let sta := if sta.open w then { sta with inAuthList := true } else sta
  let fail := authFail t (some key) sa
  if sta.authSeq + 1 ≠ r.seq then fail _STATS_OUT_OF_AUTH_SEQ_
  else if r.algorithm = 0 ∧ (authMode sec = .openSystem ∨ authMode sec = .ieee8021X ∨ authMode sec = .auto) then
    if r.seq = 1 then authAccepted t key (openSystemDone w r.algorithm sta) r.seq else fail _STATS_OUT_OF_AUTH_SEQ_
  else if r.seq = 1 then authAccepted t key (challengeSent w r.algorithm sta) r.seq
  else if r.seq = 3 then
    match findChallenge r.frame with
    | none => fail _STATS_CHALLENGE_FAIL_
    | some (p,len) =>
      if len = 0 then fail _STATS_CHALLENGE_FAIL_
      else if challengeBytes r.frame p = sta.chgTxt then authAccepted t key (challengeAnswered w sta) r.seq
      else fail _STATS_CHALLENGE_FAIL_
  else fail _STATS_OUT_OF_AUTH_SEQ_

/-- `OnAuth` of an access point; `none` when the decryption leaves the memory of the frame -/
def onAuthFrame (w : Bool) (sec : SecurityPriv) (t : AuthTable) (f : RecvFrame) (allowed room : Bool) :
    Option (AuthTable × AuthReply) :=
  let sa := getAddr2Ptr f.buf.ptr
  (readAuth sec f).map fun r =>
    if badAlgorithm sec r.algorithm then authFail t none sa _STATS_NO_SUPP_ALG_
    else if !allowed then authFail t none sa _STATS_UNABLE_HANDLE_STA_
    else
      match t (staKey sa) with
      | some sta => authCheckSta w sec t (staKey sa) sa (if sta.open w then { sta with inAsocList := false } else sta) r
      | none =>
        if room then authCheckSta w sec t sa sa .fresh r
        else authFail t none sa _STATS_UNABLE_HANDLE_STA_

/-- `OnAssocReq` for a station that is authenticated or associated -/
def assocSta (w accepted : Bool) (sta : AuthSta) : AuthSta :=
  let sta :=
    if sta.authSuccess then { sta with authSuccess := false, assocState := true }
    else { sta with assocSuccess := false, assocState := true }
  if accepted then
    let sta := { sta with assocState := false, assocSuccess := true }
    if w && sta.bpairwiseKeyInstalled then sta else { sta with inAuthList := false, inAsocList := true }
  else sta

/-- `OnAssocReq`; `accepted` tells that its elements are acceptable and an AID is free. -/
def onAssocReqFrame (w : Bool) (t : AuthTable) (f : RecvFrame) (accepted : Bool) : AuthTable :=
  let ieOffset := if getFrameSubType f.buf.ptr = WIFI_ASSOCREQ then _ASOCREQ_IE_OFFSET_ else _REASOCREQ_IE_OFFSET_
  if f.buf.len < WLAN_HDR_A3_LEN + ieOffset then t
  else
    let key := staKey (getAddr2Ptr f.buf.ptr)
    match t key with
    | none => t
    | some sta =>
      if !sta.authSuccess && !sta.assocSuccess then t
      else Function.update t key (some (assocSta w accepted sta))

inductive AuthEvent
  /-- an authentication frame, with the verdict of `rtw_access_ctrl`, and whether a station can
  be allocated -/
  | auth (f : RecvFrame) (allowed room : Bool)
  | assoc (f : RecvFrame) (accepted : Bool)
  /-- a pairwise key is set for the station -/
  | keyInstalled (a : MacAddr)

structure AuthAp where
  table : AuthTable
  /-- what was sent, the last first -/
  sent : List AuthReply

/-- After `rtw_init_bcmc_stainfo` -/
def AuthAp.init : AuthAp :=
  ⟨Function.update (fun _ => none) bcAddr (some { AuthSta.fresh with authNull := false }),[]⟩

def authStep (w : Bool) (sec : SecurityPriv) (s : AuthAp) : AuthEvent → Option AuthAp
  | .auth f allowed room => (onAuthFrame w sec s.table f allowed room).map fun r => ⟨r.1,r.2 :: s.sent⟩
  | .assoc f accepted => some { s with table := onAssocReqFrame w s.table f accepted }
  | .keyInstalled a =>
    some { s with
      table := Function.update s.table a ((s.table a).map fun sta => { sta with bpairwiseKeyInstalled := true }) }

/-! ## What a frame can do -/

/-- The station on `auth_list`, unless it is protected -/
def listed (w : Bool) (sta : AuthSta) : AuthSta := if sta.open w then { sta with inAuthList := true } else sta

/-- The station off `asoc_list`, unless it is protected -/
def unlisted (w : Bool) (sta : AuthSta) : AuthSta := if sta.open w then { sta with inAsocList := false } else sta

/-- An accepted frame, in sequence, and what it makes of the station -/
inductive AuthAccepts (w : Bool) (sec : SecurityPriv) (sta : AuthSta) (r : AuthRead) : AuthSta → Prop
  | openSystem : sta.authSeq = 0 → r.seq = 1 → authMode sec ≠ .shared →
      AuthAccepts w sec sta r (openSystemDone w r.algorithm (listed w sta))
  | request : sta.authSeq = 0 → r.seq = 1 → AuthAccepts w sec sta r (challengeSent w r.algorithm (listed w sta))
  | answer (p len : ℕ) : sta.authSeq = 2 → r.seq = 3 → findChallenge r.frame = some (p,len) →
      challengeBytes r.frame p = sta.chgTxt → AuthAccepts w sec sta r (challengeAnswered w (listed w sta))

section
variable {w : Bool} {sec : SecurityPriv} {t t' : AuthTable} {key sa : MacAddr} {sta : AuthSta} {r : AuthRead}
  {reply : AuthReply}

theorem listed_fields (w : Bool) (sta : AuthSta) :
    (listed w sta).authSeq = sta.authSeq ∧ (listed w sta).chgTxt = sta.chgTxt := by
  rw [listed]
  split
  · exact ⟨rfl,rfl⟩
  · exact ⟨rfl,rfl⟩

theorem authCheckSta_cases (h : authCheckSta w sec t key sa sta r = (t',reply)) :
    t' = Function.update t key none ∨
      ∃ sta', AuthAccepts w sec sta r sta' ∧ authAccepted t key sta' r.seq = (t',reply) := by
  obtain ⟨hseq,htxt⟩ := listed_fields w sta
  have hfail : ∀ status, authFail t (some key) sa status = (t',reply) → t' = Function.update t key none := by
    intro status hf
    exact (congrArg Prod.fst hf).symm
  rw [authCheckSta] at h
  rw [← listed, hseq, htxt] at h
  by_cases hin : sta.authSeq + 1 = r.seq
  · rw [if_neg (not_not_intro hin)] at h
    by_cases halg : r.algorithm = 0 ∧
      (authMode sec = .openSystem ∨ authMode sec = .ieee8021X ∨ authMode sec = .auto)
    · rw [if_pos halg] at h
      have hmode : authMode sec ≠ .shared := by
        rcases halg.2 with hm | hm | hm
        · rw [hm]
          exact AuthAlgrthm.noConfusion
        · rw [hm]
          exact AuthAlgrthm.noConfusion
        · rw [hm]
          exact AuthAlgrthm.noConfusion
      by_cases h1 : r.seq = 1
      · rw [if_pos h1] at h
        exact Or.inr ⟨_,.openSystem (by omega) h1 hmode,h⟩
      · rw [if_neg h1] at h
        exact Or.inl (hfail _ h)
    · rw [if_neg halg] at h
      by_cases h1 : r.seq = 1
      · rw [if_pos h1] at h
        exact Or.inr ⟨_,.request (by omega) h1,h⟩
      · rw [if_neg h1] at h
        by_cases h3 : r.seq = 3
        · rw [if_pos h3] at h
          split at h
          · exact Or.inl (hfail _ h)
          · rename_i p len hfind
            split at h
            · exact Or.inl (hfail _ h)
            · split at h
              · rename_i hbytes
                exact Or.inr ⟨_,.answer p len (by omega) h3 hfind hbytes,h⟩
              · exact Or.inl (hfail _ h)
        · rw [if_neg h3] at h
          exact Or.inl (hfail _ h)
  · rw [if_pos hin] at h
    exact Or.inl (hfail _ h)

/-- The station that a frame meets, and its key in the table: the one of its address, off
`asoc_list`, or a new one -/
inductive Meets (w : Bool) (t : AuthTable) (f : RecvFrame) : MacAddr → AuthSta → Prop
  | known (sta : AuthSta) : t (staKey (getAddr2Ptr f.buf.ptr)) = some sta →
      Meets w t f (staKey (getAddr2Ptr f.buf.ptr)) (unlisted w sta)
  | new : t (staKey (getAddr2Ptr f.buf.ptr)) = none → Meets w t f (getAddr2Ptr f.buf.ptr) .fresh

/-- A frame leaves the table as it is, or frees the station that it meets, or is accepted. -/
theorem onAuthFrame_cases {f : RecvFrame} {allowed room : Bool}
    (h : onAuthFrame w sec t f allowed room = some (t',reply)) :
    ∃ r, readAuth sec f = some r ∧
      (t' = t ∨
        badAlgorithm sec r.algorithm = false ∧ allowed = true ∧ ∃ key sta, Meets w t f key sta ∧
          (t' = Function.update t key none ∨
            ∃ sta', AuthAccepts w sec sta r sta' ∧ authAccepted t key sta' r.seq = (t',reply))) := by
  rw [onAuthFrame] at h
  obtain ⟨r,hr,h⟩ := Option.map_eq_some_iff.mp h
  refine ⟨r,hr,?_⟩
  by_cases hbad : badAlgorithm sec r.algorithm = true
  · rw [if_pos hbad] at h
    exact Or.inl (congrArg Prod.fst h).symm
  rw [if_neg hbad] at h
  by_cases hal : allowed = true
  · rw [if_neg (by rw [hal]; decide)] at h
    cases hsta : t (staKey (getAddr2Ptr f.buf.ptr)) with
    | some sta =>
      rw [hsta] at h
      exact Or.inr ⟨Bool.eq_false_of_not_eq_true hbad,hal,_,_,.known sta hsta,authCheckSta_cases h⟩
    | none =>
      rw [hsta] at h
      dsimp only at h
      split at h
      · exact Or.inr ⟨Bool.eq_false_of_not_eq_true hbad,hal,_,_,.new hsta,authCheckSta_cases h⟩
      · exact Or.inl (congrArg Prod.fst h).symm
  · rw [if_pos (by rw [Bool.eq_false_of_not_eq_true hal]; rfl)] at h
    exact Or.inl (congrArg Prod.fst h).symm

/-- The station after an accepted frame -/
def settled (sta : AuthSta) (seq : ℕ) : AuthSta :=
  if sta.authSuccess || sta.assocSuccess then { sta with authSeq := 0 } else { sta with authSeq := seq + 1 }

theorem authAccepted_eq (t : AuthTable) (key : MacAddr) (sta : AuthSta) (seq : ℕ) :
    authAccepted t key sta seq =
      (Function.update t key (some (settled sta seq)),issueAuth key
      { sta with authSeq := seq + 1 } _STATS_SUCCESSFUL_) := by
  rw [authAccepted, settled]

end

end Rtl8188fu
