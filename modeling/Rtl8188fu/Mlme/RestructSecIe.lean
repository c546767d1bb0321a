import Rtl8188fu.Cfg80211.Pmksa
import Rtl8188fu.Ieee80211.DelVendorIe
import Rtl8188fu.Ieee80211.ParseSecIe

/-! # The security element of the join request

`rtw_restruct_sec_ie` with `rtw_append_pmkid` and `rtw_remove_pmkid`. They take the number of PMKIDs from
behind the twenty bytes that a body with two suites and the capabilities has.
-/
namespace Rtl8188fu
open Bytes

/-- The output buffer, the length returned, and what was read of the buffer meanwhile -/
structure RestructOut where
  outIe : List UInt8
  ielength : ℕ
  reads : List ℕ
deriving DecidableEq

/-- `ie_len - (2+pmkid_cnt*16)` of an `uint` -/
def withoutPmkids (ieLen pmkidCnt : ℕ) : ℕ := (ieLen + 2 ^ 32 - (2 + pmkidCnt * 16)) % 2 ^ 32

/-- The second half of `rtw_append_pmkid`: by then `ie[13]` is at most 20. -/
def putPmkid (pmkid ie : List UInt8) (ieLen : ℕ) (reads : List ℕ) : RestructOut :=
  let ie := patch (patch ie ieLen (le16Bytes 1)) ((ieLen + 2) % 2 ^ 32) pmkid
  ⟨patch ie 13 [byteAt ie 13 + 18],(ieLen + 18) % 2 ^ 32,reads⟩

def rtwAppendPmkid (pmkid ie : List UInt8) (ieLen : ℕ) : RestructOut :=
  if 20 < (byteAt ie 13).toNat then
    let pmkidCnt := le16At ie (14 + 20)
    if pmkidCnt = 1 ∧ slice ie (14 + 20 + 2) 16 = pmkid then ⟨ie,ieLen,[13,34,35] ++ List.range' 36 16⟩
    else
      putPmkid pmkid (patch ie 13 [20]) (withoutPmkids ieLen pmkidCnt)
        ([13,34,35] ++ if pmkidCnt = 1 then List.range' 36 16 else [])
  else putPmkid pmkid ie ieLen [13]

/-- `rtw_remove_pmkid`; the number is read before the length is looked at. -/
def rtwRemovePmkid (ie : List UInt8) (ieLen : ℕ) : RestructOut :=
  let pmkidCnt := le16At ie (14 + 20)
  if (byteAt ie 13).toNat ≤ 20 then ⟨ie,ieLen,[34,35,13]⟩
  else ⟨patch ie 13 [20],withoutPmkids ieLen pmkidCnt,[34,35,13]⟩

/-- `Ndis802_11AuthModeWPA2` has the value of `Ndis802_11AuthModeWAPI`. -/
def authmodeOf : NdisAuthMode → UInt8
  | .wpa | .wpaPsk => WPA_IE_ID
  | .wapi | .wpa2Psk => WPA2_IE_ID
  | _ => 0

def rtwRestructSecIe (sec : SecPriv) (underWps : Bool) (assocBssid : MacAddr) (inIe outIe : List UInt8) : RestructOut :=
  let out := patch outIe 0 (slice inIe 0 12)
  let authmode := authmodeOf sec.ndisauthtype
  let r : List UInt8 × ℕ :=
    if underWps then (patch out 12 sec.wpsIe,12 + sec.wpsIe.length)
    else if authmode = WPA_IE_ID ∨ authmode = WPA2_IE_ID then
      let n := (byteAt sec.supplicantIe 1).toNat + 2
      (patch out 12 (slice sec.supplicantIe 0 n),12 + n)
    else (out,12)
  if authmode = WPA2_IE_ID then
    match pmkidFor sec assocBssid with
    | none => rtwRemovePmkid r.1 r.2
    | some pmkid => rtwAppendPmkid pmkid r.1 r.2
  else ⟨r.1,r.2,[]⟩

abbrev Pmkid := { p : List UInt8 // p.length = 16 }

def pmkidsBytes (ps : List Pmkid) : List UInt8 := ps.flatMap Subtype.val

/-- What stands behind the AKM suites; each field needs the ones before it. -/
inductive RsnTail
  | none
  | caps (capabilities : { c : List UInt8 // c.length = 2 })
  | pmkids (capabilities : { c : List UInt8 // c.length = 2 }) (ps : List Pmkid) (groupMgmt : Option Suite)

namespace RsnTail

/-- The group management cipher, when it is there -/
def mgmtBytes (m : Option Suite) : List UInt8 := (m.map Subtype.val).getD []

def bytes : RsnTail → List UInt8
  | none => []
  | caps c => c.val
  | pmkids c ps m => c.val ++ (le16Bytes ps.length ++ (pmkidsBytes ps ++ mgmtBytes m))

def capabilities : RsnTail → Option (List UInt8)
  | none => Option.none
  | caps c => some c.val
  | pmkids c _ _ => some c.val

def pmkidList : RsnTail → List Pmkid
  | none => []
  | caps _ => []
  | pmkids _ ps _ => ps

def groupMgmt : RsnTail → Option Suite
  | none => Option.none
  | caps _ => Option.none
  | pmkids _ _ m => m

end RsnTail

/-- A well-formed RSN element -/
structure RsnIe where
  elem : SecElem wpa2Kind
  tail : RsnTail
  rest_eq : elem.rest = tail.bytes

namespace RsnIe

/-- The body up to the AKM suites -/
def base (e : RsnIe) : List UInt8 := SecBody.bytes wpa2Kind { e.elem.toSecBody with rest := [] }

def body (e : RsnIe) : List UInt8 := e.elem.tlv.body

def bytes (e : RsnIe) : List UInt8 := e.elem.tlv.bytes

def suites (e : RsnIe) : ℕ := e.elem.pairwise.length + e.elem.akms.length

structure SameButPmkids (e' e : RsnIe) : Prop where
  version : e'.elem.version = e.elem.version
  group : e'.elem.group = e.elem.group
  pairwise : e'.elem.pairwise = e.elem.pairwise
  akms : e'.elem.akms = e.elem.akms
  capabilities : e'.tail.capabilities = e.tail.capabilities
  groupMgmt : e'.tail.groupMgmt = e.tail.groupMgmt

end RsnIe

/-- The output is the fixed bytes and the element with just this PMKID, the length returned is that of the
output, and nothing outside the element was read. -/
structure RsnRewritten (e : RsnIe) (pmkid : Option (List UInt8)) (fixed : List UInt8) (o : RestructOut) : Prop where
  element : ∃ e' : RsnIe, e'.SameButPmkids e ∧ e'.tail.pmkidList.map Subtype.val = pmkid.toList ∧
    o.outIe.take o.ielength = fixed ++ e'.bytes ∧ o.ielength = (fixed ++ e'.bytes).length
  reads : ∀ i ∈ o.reads, fixed.length ≤ i ∧ i < (fixed ++ e.bytes).length

/-- Two suites, the capabilities, a number of PMKIDs and nothing behind them -/
def TwoSuitesCounted (e : RsnIe) : Prop := e.suites = 2 ∧ ∃ c ps, e.tail = .pmkids c ps none

/-- The PMKID stands in the element where it is looked for. -/
def CachedInPlace (e : RsnIe) (pmkid : List UInt8) : Prop :=
  ∃ c p m, e.tail = .pmkids c [p] m ∧ p.val = pmkid ∧ slice e.body 20 18 = le16Bytes 1 ++ pmkid

/-- The PMKID is the group management cipher four times over, and the element's begins with it. -/
def FourTimesMgmt (e : RsnIe) (pmkid : List UInt8) : Prop :=
  e.suites = 1 ∧ ∃ c p g, e.tail = .pmkids c [p] (some g) ∧ p.val.take 4 = g.val ∧
    g.val.drop 2 = le16Bytes 1 ∧
    pmkid = g.val ++ (g.val ++ (g.val ++ g.val))

/-- Where the twenty bytes are right: without an entry for two suites and a number of PMKIDs only; with one, also
for up to two suites with capabilities and no number, and where the bytes at the place happen to fit. -/
def RsnOk (e : RsnIe) : Option (List UInt8) → Prop
  | none => TwoSuitesCounted e
  | some pmkid =>
    (e.suites ≤ 2 ∧ ∃ c, e.tail = .caps c) ∨ TwoSuitesCounted e ∨ CachedInPlace e pmkid ∨
      FourTimesMgmt e pmkid

/-- A join with an RSN element, and buffers of the sizes that they have -/
structure RsnJoin (sec : SecPriv) (inIe outIe : List UInt8) (e : RsnIe) : Prop where
  auth : authmodeOf sec.ndisauthtype = WPA2_IE_ID
  stored : e.bytes <+: sec.supplicantIe
  pmkids : ∀ p ∈ sec.pmkidList, p.pmkid.length = 16
  inIe : inIe.length = MAX_IE_SZ
  outIe : outIe.length = MAX_IE_SZ

section
variable {e e' : RsnIe} {b : SecBody} {t t' : RsnTail} {ps : List Pmkid} {m : Option Suite}

theorem wpa2_bytes_eq (b : SecBody) : b.bytes wpa2Kind = SecBody.bytes wpa2Kind { b with rest := [] } ++ b.rest := by
  simp [SecBody.bytes, SecBody.pairwiseBytes, SecBody.akmBytes]

theorem body_eq (e : RsnIe) : e.body = e.base ++ e.tail.bytes := by
  rw [← e.rest_eq]
  exact wpa2_bytes_eq e.elem.toSecBody

theorem bytes_eq (e : RsnIe) : e.bytes = WPA2_IE_ID :: UInt8.ofNat e.body.length :: e.body := rfl

theorem length_base (e : RsnIe) : e.base.length = 10 + 4 * e.suites := by
  have hgroup := e.elem.group.property
  simp only [RsnIe.base, RsnIe.suites, SecBody.bytes, SecBody.pairwiseBytes, SecBody.akmBytes, List.length_append,
    length_le16Bytes, length_suitesBytes, hgroup, wpa2Kind, List.length_nil]
  omega

theorem length_pmkidsBytes (ps : List Pmkid) : (pmkidsBytes ps).length = 16 * ps.length := by
  induction ps with
  | nil => rfl
  | cons p ps ih =>
    have : pmkidsBytes (p :: ps) = p.val ++ pmkidsBytes ps := rfl
    rw [this, List.length_append, p.property, ih, List.length_cons]
    omega

theorem length_mgmtBytes (m : Option Suite) : (RsnTail.mgmtBytes m).length = 4 * m.toList.length := by
  cases m with
  | none => rfl
  | some g => exact g.property

def RsnIe.withTail (e : RsnIe) (t : RsnTail) (short : (e.base ++ t.bytes).length < 256) : RsnIe where
  elem := ⟨{ e.elem.toSecBody with rest := t.bytes },by rwa [wpa2_bytes_eq]⟩
  tail := t
  rest_eq := rfl

theorem withTail_body {short : (e.base ++ t.bytes).length < 256} : (e.withTail t short).body = e.base ++ t.bytes :=
  wpa2_bytes_eq _

theorem RsnIe.SameButPmkids.base (h : e'.SameButPmkids e) : e'.base = e.base := by
  simp only [RsnIe.base, SecBody.bytes, SecBody.pairwiseBytes, SecBody.akmBytes, h.version, h.group, h.pairwise, h.akms]

theorem withTail_same {short : (e.base ++ t.bytes).length < 256} (hcaps : t.capabilities = e.tail.capabilities)
    (hmgmt : t.groupMgmt = e.tail.groupMgmt) : (e.withTail t short).SameButPmkids e :=
  ⟨rfl,rfl,rfl,rfl,hcaps,hmgmt⟩

end

theorem patch_patch_append {α : Type*} (m : List α) (i : ℕ) (a b : List α) :
    patch (patch m i a) (i + a.length) b = patch m i (a ++ b) := by
  apply List.ext_getElem?
  intro j
  simp only [getElem?_patch, length_patch, List.length_append, List.getElem?_append]
  by_cases hj : i ≤ j ∧ j < m.length
  · by_cases ha : j - i < a.length
    · rw [if_neg (by omega), if_pos (by omega), if_pos (by omega), if_pos ha]
    · by_cases hb : j < i + a.length + b.length
      · rw [if_pos (by omega), if_pos (by omega), if_neg ha, Nat.sub_add_eq]
      · rw [if_neg (by omega), if_neg (by omega), if_neg (by omega)]
  · rw [if_neg (by omega), if_neg (by omega), if_neg (by omega)]

theorem putPmkid_byte {pmkid ie : List UInt8} {ieLen : ℕ} {reads : List ℕ} (h13 : 13 < ie.length)
    (hlow : 14 ≤ ieLen)
    (hhigh : ieLen < 1000) : byteAt (putPmkid pmkid ie ieLen reads).outIe 13 = byteAt ie 13 + 18 := by
  have hpos : (ieLen + 2) % 2 ^ 32 = ieLen + 2 := by omega
  rw [putPmkid, hpos]
  simp only [byteAt_patch, length_patch, List.length_singleton]
  rw [if_pos (by omega), if_neg (by omega), if_neg (by omega)]
  rfl

/-- An output buffer: the fixed bytes, and an element's number and length in front of the rest -/
def secBuf (fixed : List UInt8) (len : UInt8) (rest : List UInt8) : List UInt8 := fixed ++ WPA2_IE_ID :: len :: rest

section Buffer
variable {fixed rest bs : List UInt8} {len x : UInt8} {i n : ℕ} (hfixed : fixed.length = 12)
include hfixed

theorem secBuf_byte : byteAt (secBuf fixed len rest) 13 = len := by
  rw [secBuf, byteAt_append, if_neg (by omega), hfixed]
  rfl

theorem secBuf_drop : (secBuf fixed len rest).drop 14 = rest := by
  rw [secBuf, show 14 = fixed.length + 2 by omega, List.drop_append]
  simp

theorem secBuf_le16At : le16At (secBuf fixed len rest) (14 + i) = le16At rest i := by
  rw [le16At, Nat.add_assoc, ← byteAt_drop, ← byteAt_drop, secBuf_drop hfixed]
  rfl

theorem secBuf_slice : slice (secBuf fixed len rest) (14 + i) n = slice rest i n := by
  rw [slice, ← List.drop_drop, secBuf_drop hfixed]
  rfl

theorem secBuf_take : (secBuf fixed len rest).take (14 + n) = fixed ++ WPA2_IE_ID :: len :: rest.take n := by
  rw [secBuf, show 14 + n = fixed.length + (n + 2) by omega, List.take_length_add_append]
  rfl

theorem secBuf_patch_len : patch (secBuf fixed len rest) 13 [x] = secBuf fixed x rest := by
  have h := @patch_middle _ (fixed ++ [WPA2_IE_ID]) [len] rest [x] rfl
  simpa [secBuf, hfixed] using h

theorem secBuf_patch : patch (secBuf fixed len rest) (14 + i) bs = secBuf fixed len (patch rest i bs) := by
  have htake := @secBuf_take fixed rest len i hfixed
  have hdrop : (secBuf fixed len rest).drop (14 + i + bs.length) = rest.drop (i + bs.length) := by
    rw [Nat.add_assoc, ← List.drop_drop, secBuf_drop hfixed]
  have hlen : (secBuf fixed len rest).length - (14 + i) = rest.length - i := by
    rw [secBuf, List.length_append, List.length_cons, List.length_cons, hfixed]
    omega
  rw [patch, htake, hdrop, hlen, patch, secBuf]
  simp

theorem putPmkid_eq {pmkid : List UInt8} {reads : List ℕ} (hp : pmkid.length = 16) (hn : n + 18 ≤ rest.length)
    (hsmall : n < 1000) :
    putPmkid pmkid (secBuf fixed len rest) (14 + n) reads =
      ⟨secBuf fixed (len + 18) (rest.take n ++ (le16Bytes 1 ++ pmkid) ++ rest.drop (n + 18)),14 +
        (n + 18),reads⟩ := by
  have hpos : (14 + n + 2) % 2 ^ 32 = 14 + (n + 2) := by omega
  have hlen : (14 + n + 18) % 2 ^ 32 = 14 + (n + 18) := by omega
  have hpatch : patch (patch rest n (le16Bytes 1))
      (n + 2) pmkid = rest.take n ++ (le16Bytes 1 ++ pmkid) ++ rest.drop (n + 18) := by
    have hwhole : (le16Bytes 1 ++ pmkid).take (rest.length - n) = le16Bytes 1 ++ pmkid := by
      apply List.take_of_length_le
      rw [List.length_append, length_le16Bytes, hp]
      omega
    rw [show n + 2 = n + (le16Bytes 1).length from rfl, patch_patch_append, patch, hwhole, List.length_append,
      length_le16Bytes, hp]
  rw [putPmkid, secBuf_patch hfixed, hpos, secBuf_patch hfixed, hpatch, secBuf_byte hfixed,
    secBuf_patch_len hfixed, hlen]

end Buffer

section Element
variable {e e' : RsnIe} {t : RsnTail} {fixed behind pmkid : List UInt8} {o : RestructOut} {pmkids : List (List UInt8)}

/-- A tail that has what is kept of the element's, and these PMKIDs -/
structure TailFor (e : RsnIe) (pmkids : List (List UInt8)) (t : RsnTail) : Prop where
  capabilities : t.capabilities = e.tail.capabilities
  groupMgmt : t.groupMgmt = e.tail.groupMgmt
  pmkidList : t.pmkidList.map Subtype.val = pmkids

/-- The output is an element with such a tail. -/
structure OutputIs (e : RsnIe) (fixed : List UInt8) (o : RestructOut) (t : RsnTail) : Prop where
  short : (e.base ++ t.bytes).length < 256
  ielength : o.ielength = 14 + (e.base ++ t.bytes).length
  outIe : o.outIe.take (14 + (e.base ++ t.bytes).length) =
    fixed ++ WPA2_IE_ID :: UInt8.ofNat (e.base ++ t.bytes).length :: (e.base ++ t.bytes)

theorem length_body_lt (e : RsnIe) : e.body.length < 256 := e.elem.short

theorem length_fixed_bytes (hfixed : fixed.length = 12) : (fixed ++ e.bytes).length = 14 + e.body.length := by
  rw [bytes_eq, List.length_append, List.length_cons, List.length_cons, hfixed]
  omega

theorem element_iff (hfixed : fixed.length = 12) :
    (∃ e' : RsnIe, e'.SameButPmkids e ∧ e'.tail.pmkidList.map Subtype.val = pmkids ∧
      o.outIe.take o.ielength = fixed ++ e'.bytes ∧ o.ielength = (fixed ++ e'.bytes).length) ↔
    ∃ t, TailFor e pmkids t ∧ OutputIs e fixed o t := by
  constructor
  · rintro ⟨e',hsame,hlist,hout,hlen⟩
    have hbody : e'.body = e.base ++ e'.tail.bytes := by rw [body_eq, hsame.base]
    have hlen' : o.ielength = 14 + (e.base ++ e'.tail.bytes).length := by
      rw [hlen, length_fixed_bytes hfixed, hbody]
    refine ⟨e'.tail,⟨hsame.capabilities,hsame.groupMgmt,hlist⟩,hbody ▸ length_body_lt e',hlen',?_⟩
    rw [← hlen', hout, bytes_eq, hbody]
  · rintro ⟨t,ht,hout⟩
    have hbody := @withTail_body e t hout.short
    refine ⟨e.withTail t hout.short,withTail_same ht.capabilities ht.groupMgmt,ht.pmkidList,?_,?_⟩
    · rw [hout.ielength, hout.outIe, bytes_eq, hbody]
    · rw [length_fixed_bytes hfixed, hbody, hout.ielength]

theorem length_tail_of_nil (ht : t.pmkidList.map Subtype.val = ([] : List (List UInt8))) :
    t.bytes.length = 0 ∧ t.capabilities = none ∨
      t.bytes.length = 2 ∧ (∃ c, t = .caps c) ∨ t.bytes.length = 4 + 4 * t.groupMgmt.toList.length := by
  cases t with
  | none => exact Or.inl ⟨rfl,rfl⟩
  | caps c => exact Or.inr (Or.inl ⟨c.property,c,rfl⟩)
  | pmkids c ps m =>
    obtain rfl : ps = [] := List.map_eq_nil_iff.mp ht
    refine Or.inr (Or.inr ?_)
    simp only [RsnTail.bytes, List.length_append, length_le16Bytes, length_pmkidsBytes, length_mgmtBytes, c.property,
      RsnTail.groupMgmt, List.length_nil]
    omega

theorem drop_twenty (behind : List UInt8) {c : { c : List UInt8 // c.length = 2 }} {ps : List Pmkid} {m : Option Suite}
    (hs : e.suites = 2)
    (ht : e.tail = .pmkids c ps m) : e.body.take 20 = e.base ++ c.val ∧
      (e.body ++ behind).drop 20 = le16Bytes ps.length ++ (pmkidsBytes ps ++ (RsnTail.mgmtBytes m ++ behind)) := by
  have hlen : (e.base ++ c.val).length = 20 := by rw [List.length_append, length_base, hs, c.property]
  have hbody : e.body = e.base ++ c.val ++ (le16Bytes ps.length ++ (pmkidsBytes ps ++ RsnTail.mgmtBytes m)) := by
    rw [body_eq, ht, RsnTail.bytes, List.append_assoc]
  constructor
  · rw [hbody, ← hlen, List.take_left]
  · rw [hbody, List.append_assoc, ← hlen, List.drop_left]
    simp only [List.append_assoc]

theorem length_body_pmkids {c : { c : List UInt8 // c.length = 2 }} {ps : List Pmkid} {m : Option Suite}
    (ht : e.tail = .pmkids c ps m) : e.body.length = 14 + 4 * e.suites + 16 * ps.length + 4 * m.toList.length := by
  rw [body_eq, ht]
  simp only [RsnTail.bytes, List.length_append, length_base, length_le16Bytes, length_pmkidsBytes, length_mgmtBytes,
    c.property]
  omega

theorem toNat_body_length (e : RsnIe) : (UInt8.ofNat e.body.length).toNat = e.body.length := by
  rw [UInt8.toNat_ofNat']
  exact Nat.mod_eq_of_lt (length_body_lt e)

theorem OutputIs.parts {len : UInt8} {rest : List UInt8} (hfixed : fixed.length = 12) (h : OutputIs e fixed o t)
    (hbuf : o.outIe = secBuf fixed len rest) :
    len.toNat = (e.base ++ t.bytes).length ∧ rest.take (e.base ++ t.bytes).length = e.base ++ t.bytes := by
  have hout := h.outIe
  rw [hbuf, secBuf_take hfixed, List.append_cancel_left_eq, List.cons.injEq, List.cons.injEq] at hout
  refine ⟨?_,hout.2.2⟩
  rw [hout.2.1, UInt8.toNat_ofNat']
  exact Nat.mod_eq_of_lt h.short

theorem outputIs_of_parts {len : UInt8} {rest : List UInt8} (hfixed : fixed.length = 12)
    (hbuf : o.outIe = secBuf fixed len rest) (hlen : len.toNat = (e.base ++ t.bytes).length)
    (hie : o.ielength = 14 + len.toNat) (hrest : rest.take len.toNat = e.base ++ t.bytes) : OutputIs e fixed o t where
  short := hlen ▸ len.toNat_lt
  ielength := by rw [hie, hlen]
  outIe := by rw [hbuf, ← hlen, secBuf_take hfixed, hrest, UInt8.ofNat_toNat]

theorem remove_iff (hfixed : fixed.length = 12) :
    RsnRewritten e none fixed
      (rtwRemovePmkid (secBuf fixed (UInt8.ofNat e.body.length) (e.body ++ behind)) (14 + e.body.length)) ↔
      TwoSuitesCounted e := by
  have hinside := length_fixed_bytes (e := e) hfixed
  have hbase := length_base e
  rw [rtwRemovePmkid, secBuf_byte hfixed, secBuf_le16At hfixed, secBuf_patch_len hfixed, toNat_body_length]
  constructor
  · intro h
    have hreads := h.reads
    have hlong : 22 ≤ e.body.length := by
      have h35 := hreads 35 (by split_ifs <;> simp)
      omega
    rw [if_neg (by omega)] at h
    obtain ⟨t,ht,hout⟩ := (element_iff hfixed).mp h.element
    obtain ⟨hlen,-⟩ := hout.parts hfixed rfl
    have htwenty : (20 : UInt8).toNat = 20 := rfl
    rw [htwenty, List.length_append] at hlen
    rcases length_tail_of_nil ht.pmkidList with ⟨h0,-⟩ | ⟨h2,c,rfl⟩ | h4
    · omega
    · refine ⟨by omega,?_⟩
      have hcaps := ht.capabilities
      have hmgmt := ht.groupMgmt
      cases htail : e.tail with
      | none =>
        rw [htail] at hcaps
        cases hcaps
      | caps c' =>
        rw [body_eq, htail, List.length_append] at hlong
        have := c'.property
        simp only [RsnTail.bytes] at hlong
        omega
      | pmkids c' ps m =>
        rw [htail] at hmgmt
        obtain rfl : none = m := hmgmt
        exact ⟨c',ps,rfl⟩
    · omega
  · rintro ⟨hs,c,ps,ht⟩
    obtain ⟨htake,hdrop⟩ := drop_twenty behind hs ht
    have hlen : e.body.length = 22 + 16 * ps.length := by
      rw [length_body_pmkids ht, hs, Option.toList_none, List.length_nil]
      omega
    have hcount : le16At (e.body ++ behind) 20 = ps.length := le16At_of_drop hdrop (by have := length_body_lt e; omega)
    have hbytes : (RsnTail.caps c).bytes = c.val := rfl
    have hkept : (e.base ++ (RsnTail.caps c).bytes).length = 20 := by
      rw [hbytes, ← htake, List.length_take]
      omega
    rw [if_neg (by omega), hcount]
    refine ⟨(element_iff hfixed).mpr ⟨.caps c,⟨by rw [ht]; rfl,by rw [ht]; rfl,rfl⟩,?_⟩,?_⟩
    · refine outputIs_of_parts hfixed rfl hkept.symm ?_ ?_
      · have htwenty : (20 : UInt8).toNat = 20 := rfl
        dsimp only
        rw [htwenty, withoutPmkids]
        omega
      · rw [hbytes, ← htake]
        exact List.take_append_of_le_length (by rw [hlen]; exact Nat.le_add_right_of_le (by decide))
    · intro i hi
      rw [hinside, hfixed]
      have : i = 34 ∨ i = 35 ∨ i = 13 := by simpa using hi
      omega

theorem tail_of_one (h : t.pmkidList.map Subtype.val = [pmkid]) : ∃ c p m, t = .pmkids c [p] m ∧ p.val = pmkid := by
  cases t with
  | none => cases h
  | caps c => cases h
  | pmkids c ps m =>
    obtain ⟨p,rfl,hp⟩ := List.map_eq_singleton_iff.mp h
    exact ⟨c,p,m,rfl,hp⟩

/-- The element that the output is when the PMKID is put where twenty bytes of the body end -/
theorem append_twenty (hfixed : fixed.length = 12) (hp : pmkid.length = 16) (hbehind : 499 ≤ behind.length)
    (hlong : 20 < e.body.length) (hcount : e.body.length = 22 + 16 * le16At (e.body ++ behind) 20) :
    let o := rtwAppendPmkid pmkid (secBuf fixed (UInt8.ofNat e.body.length) (e.body ++ behind)) (14 + e.body.length)
    o.outIe = secBuf fixed 38 (e.body.take 20 ++ (le16Bytes 1 ++ pmkid) ++ (e.body ++ behind).drop 38) ∧
      o.ielength = 52 ∧
      ∀ i ∈ o.reads, 12 ≤ i ∧ i < 14 + e.body.length := by
  have hlt := length_body_lt e
  have hfar : 38 ≤ (e.body ++ behind).length := by
    rw [List.length_append]
    omega
  have htake : (e.body ++ behind).take 20 = e.body.take 20 := List.take_append_of_le_length (by omega)
  have hreads : ∀ i ∈ ([13,34,35] : List ℕ), 12 ≤ i ∧ i < 14 + e.body.length := by
    intro i hi
    have : i = 13 ∨ i = 34 ∨ i = 35 := by simpa using hi
    omega
  have hcompared : le16At (e.body ++ behind) 20 = 1 → ∀ i ∈ List.range' 36 16, 12 ≤ i ∧
      i < 14 + e.body.length := by
    intro hone i hi
    have := List.mem_range'_1.mp hi
    omega
  have hwithout : withoutPmkids (14 + e.body.length) (le16At (e.body ++ behind) 20) = 14 + 20 := by
    rw [withoutPmkids]
    omega
  intro o
  unfold o
  rw [rtwAppendPmkid, secBuf_byte hfixed, secBuf_le16At hfixed, secBuf_patch_len hfixed, toNat_body_length,
    if_pos hlong]
  dsimp only
  rw [show 14 + 20 + 2 = 14 + 22 from rfl, secBuf_slice hfixed]
  split_ifs with hsame hone
  · have hlen : e.body.length = 38 := by omega
    have hbytes :
        (e.body ++ behind).take 20 ++ (le16Bytes 1 ++ pmkid) ++ (e.body ++ behind).drop 38 = e.body ++ behind := by
      have hnum := slice_eq_le16Bytes (y := e.body ++ behind) (i := 20) (by omega)
      rw [← hsame.2, ← hsame.1, ← hnum, slice_append_slice, List.append_assoc, slice, ← List.drop_drop (i := 18)
        (j := 20), List.take_append_drop, List.take_append_drop]
    refine ⟨?_,by dsimp only; omega,?_⟩
    · rw [← htake, hbytes, hlen]
      rfl
    · intro i hi
      rcases List.mem_append.mp hi with hi | hi
      · exact hreads i hi
      · exact hcompared hsame.1 i hi
  · rw [hwithout, putPmkid_eq hfixed hp hfar (by decide), htake]
    refine ⟨rfl,rfl,?_⟩
    intro i hi
    rcases List.mem_append.mp hi with hi | hi
    · exact hreads i hi
    · exact hcompared hone i hi
  · rw [hwithout, putPmkid_eq hfixed hp hfar (by decide), htake, List.append_nil]
    exact ⟨rfl,rfl,hreads⟩

/-- Four bytes in front of sixteen that are the same as four behind them -/
theorem four_times {u g P : List UInt8} (hu : u.length = 4) (hg : g.length = 4) (hP : P.length = 16)
    (h : u ++ P = P ++ g) :
    u = g ∧ P = g ++ (g ++ (g ++ g)) := by
  -- the first four bytes of `P` are `u`, and so on
  have hpeel : ∀ n (Q : List UInt8), Q.length = 4 * n + 4 → u ++ Q = Q ++ g → ∃ R, R.length = 4 * n ∧
      Q = u ++ R ∧ u ++ R = R ++ g := by
    intro n Q hQ heq
    have htake : u = Q.take 4 := by
      have := congrArg (List.take u.length) heq
      rwa [List.take_left, List.take_append_of_le_length (by omega), hu] at this
    refine ⟨Q.drop 4,by rw [List.length_drop]; omega,?_,?_⟩
    · rw [htake, List.take_append_drop]
    · have := congrArg (List.drop u.length) heq
      rw [List.drop_left, List.drop_append_of_le_length (by omega), hu] at this
      rw [← this, htake, List.take_append_drop]
  obtain ⟨P3,h3,rfl,heq3⟩ := hpeel 3 P hP h
  obtain ⟨P2,h2,rfl,heq2⟩ := hpeel 2 P3 h3 heq3
  obtain ⟨P1,h1,rfl,heq1⟩ := hpeel 1 P2 h2 heq2
  obtain ⟨P0,h0,rfl,heq0⟩ := hpeel 0 P1 h1 heq1
  obtain rfl := List.length_eq_zero_iff.mp h0
  obtain rfl : u = g := by simpa using heq0
  exact ⟨rfl,by simp⟩

theorem OutputIs.byte (hfixed : fixed.length = 12) (h : OutputIs e fixed o t) :
    (byteAt o.outIe 13).toNat = (e.base ++ t.bytes).length := by
  have hwhole :=
    List.take_of_length_le (l := fixed ++ WPA2_IE_ID :: UInt8.ofNat (e.base ++ t.bytes).length :: (e.base ++ t.bytes))
    (i := 14 + (e.base ++ t.bytes).length) (by
      rw [List.length_append, List.length_cons, List.length_cons, hfixed]
      omega)
  rw [byteAt_congr (h.outIe.trans hwhole.symm) (by omega), show fixed ++ WPA2_IE_ID :: _ = secBuf fixed _ _ from rfl,
    secBuf_byte hfixed, UInt8.toNat_ofNat']
  exact Nat.mod_eq_of_lt h.short

/-- With an entry, for an element that is too short for a number of PMKIDs at the place -/
theorem append_short_iff (hfixed : fixed.length = 12) (hp : pmkid.length = 16) (hbehind : 499 ≤ behind.length)
    (hshort : e.body.length ≤ 20) :
    RsnRewritten e (some pmkid) fixed
      (rtwAppendPmkid pmkid (secBuf fixed (UInt8.ofNat e.body.length) (e.body ++ behind)) (14 + e.body.length)) ↔
        e.suites ≤ 2 ∧ ∃ c, e.tail = .caps c := by
  have hbase := length_base e
  have hbody := congrArg List.length (body_eq e)
  have htake : (e.body ++ behind).take e.body.length = e.body := List.take_left
  rw [List.length_append] at hbody
  rw [rtwAppendPmkid, secBuf_byte hfixed, toNat_body_length, if_neg (by omega),
    putPmkid_eq hfixed hp (by rw [List.length_append]; omega) (by omega), htake]
  constructor
  · intro h
    obtain ⟨t,ht,hout⟩ := (element_iff hfixed).mp h.element
    obtain ⟨c,p,m,rfl,-⟩ := tail_of_one ht.pmkidList
    have hlen := hout.ielength
    have hcaps := ht.capabilities
    obtain rfl : m = e.tail.groupMgmt := ht.groupMgmt
    simp only [RsnTail.bytes, List.length_append, length_le16Bytes, length_pmkidsBytes, length_mgmtBytes, c.property,
      List.length_singleton] at hlen
    cases htail : e.tail with
    | none =>
      rw [htail] at hcaps
      cases hcaps
    | caps c' =>
      have := c'.property
      rw [htail] at hbody
      simp only [RsnTail.bytes] at hbody
      exact ⟨by omega,c',rfl⟩
    | pmkids c' ps m =>
      have hbody' := length_body_pmkids htail
      rw [htail] at hlen
      simp only [RsnTail.groupMgmt] at hlen
      omega
  · rintro ⟨hs,c,htail⟩
    have hbytes : (RsnTail.pmkids c [⟨pmkid,hp⟩] none).bytes = c.val ++ (le16Bytes 1 ++ pmkid) := by
      simp [RsnTail.bytes, pmkidsBytes, RsnTail.mgmtBytes]
    have hnew : e.base ++ (RsnTail.pmkids c [⟨pmkid,hp⟩] none).bytes = e.body ++ (le16Bytes 1 ++ pmkid) := by
      rw [hbytes, body_eq, htail, List.append_assoc]
      rfl
    have hlen : (e.body ++ (le16Bytes 1 ++ pmkid)).length = e.body.length + 18 := by
      rw [List.length_append, List.length_append, length_le16Bytes, hp]
    have hbyte : (UInt8.ofNat e.body.length + 18).toNat = e.body.length + 18 := by
      rw [UInt8.toNat_add, toNat_body_length]
      exact Nat.mod_eq_of_lt (by change e.body.length + 18 < 256; omega)
    refine ⟨(element_iff hfixed).mpr
      ⟨.pmkids c [⟨pmkid,hp⟩] none,⟨by rw [htail]; rfl,by rw [htail]; rfl,rfl⟩,?_⟩,?_⟩
    · refine outputIs_of_parts hfixed rfl ?_ ?_ ?_
      · rw [hnew, hlen, hbyte]
      · rw [hbyte]
      · rw [hnew, hbyte, ← hlen, List.take_left]
    · intro i hi
      rw [length_fixed_bytes hfixed, hfixed]
      have : i = 13 := List.mem_singleton.mp hi
      omega

theorem mgmtBytes_some (g : Suite) : RsnTail.mgmtBytes (some g) = g.val := rfl

theorem pmkidsBytes_one (p : Pmkid) : pmkidsBytes [p] = p.val := List.append_nil _

theorem same_output_iff (hfixed : fixed.length = 12)
    (hsame : le16At (e.body ++ behind) 20 = 1 ∧ slice (e.body ++ behind) 22 16 = pmkid)
    (hlong : 38 ≤ e.body.length) :
    (∃ t, TailFor e [pmkid] t ∧ OutputIs e fixed
      ⟨secBuf fixed (UInt8.ofNat e.body.length)
        (e.body ++ behind),14 + e.body.length,[13,34,35] ++ List.range' 36 16⟩ t) ↔ CachedInPlace e pmkid := by
  constructor
  · rintro ⟨t,ht,hout⟩
    obtain ⟨-,htake⟩ := hout.parts hfixed rfl
    obtain ⟨c,p,m,rfl,hp⟩ := tail_of_one ht.pmkidList
    have hlen : e.body.length = (e.base ++ (RsnTail.pmkids c [p] m).bytes).length := Nat.add_left_cancel hout.ielength
    have htail : e.tail.bytes = (RsnTail.pmkids c [p] m).bytes := by
      rw [← hlen, List.take_left, body_eq] at htake
      exact List.append_cancel_left htake
    have hcaps := ht.capabilities
    have hmgmt := ht.groupMgmt
    cases hetail : e.tail with
    | none =>
      rw [hetail] at hcaps
      cases hcaps
    | caps c' =>
      have := congrArg List.length htail
      rw [hetail] at this
      simp only [RsnTail.bytes, List.length_append, length_le16Bytes, length_pmkidsBytes, c.property, c'.property,
        List.length_singleton] at this
      omega
    | pmkids c' ps m' =>
      rw [hetail] at hcaps hmgmt htail
      obtain rfl : c = c' := Subtype.ext (Option.some.inj hcaps)
      obtain rfl : m = m' := hmgmt
      have hrest := List.append_cancel_left htail
      obtain ⟨-,hps⟩ := List.append_inj hrest (by rw [length_le16Bytes, length_le16Bytes])
      have hpmkids := List.append_cancel_right hps
      have hone : ps.length = 1 := by
        have := congrArg List.length hpmkids
        rw [length_pmkidsBytes, length_pmkidsBytes, List.length_singleton] at this
        omega
      obtain ⟨q,rfl⟩ := List.length_eq_one_iff.mp hone
      rw [pmkidsBytes_one, pmkidsBytes_one] at hpmkids
      refine ⟨c,q,m,hetail,hpmkids.trans hp,?_⟩
      have hnum := slice_eq_le16Bytes (y := e.body ++ behind) (i := 20) (by rw [List.length_append]; omega)
      rw [← slice_append_left (b := behind) (by omega : 20 + 18 ≤ e.body.length), ← slice_append_slice _ 20 2 16,
        hnum, hsame.1, hsame.2]
  · rintro ⟨c,p,m,htail,hp,-⟩
    refine ⟨e.tail,⟨rfl,rfl,by rw [htail, ← hp]; rfl⟩,outputIs_of_parts hfixed rfl ?_ ?_ ?_⟩
    · rw [← body_eq, toNat_body_length]
    · rw [toNat_body_length]
    · rw [← body_eq, toNat_body_length, List.take_left]

/-- With one suite, the number of PMKIDs and two more bytes are among the twenty. -/
theorem one_suite (behind : List UInt8) {c : { c : List UInt8 // c.length = 2 }} {ps : List Pmkid} {m : Option Suite}
    (hs : e.suites = 1)
    (ht : e.tail = .pmkids c ps m) :
    e.body.take 20 = e.base ++ (c.val ++ (le16Bytes ps.length ++ (pmkidsBytes ps ++ RsnTail.mgmtBytes m).take 2)) ∧
      (e.body ++ behind).drop 20 = (pmkidsBytes ps ++ (RsnTail.mgmtBytes m ++ behind)).drop 2 := by
  have hlen : (e.base ++ (c.val ++ le16Bytes ps.length)).length = 18 := by
    rw [List.length_append, List.length_append, length_base, hs, c.property, length_le16Bytes]
  have hbody : e.body = e.base ++ (c.val ++ le16Bytes ps.length) ++ (pmkidsBytes ps ++ RsnTail.mgmtBytes m) := by
    rw [body_eq, ht, RsnTail.bytes]
    simp only [List.append_assoc]
  constructor
  · rw [hbody, show 20 = (e.base ++ (c.val ++ le16Bytes ps.length)).length + 2 by rw [hlen],
      List.take_length_add_append]
    simp only [List.append_assoc]
  · rw [hbody, show 20 = (e.base ++ (c.val ++ le16Bytes ps.length)).length + 2 by rw [hlen], List.append_assoc,
      List.drop_length_add_append, List.append_assoc]

theorem le16Bytes_one_eq {k : ℕ} (hk : k < 65536) (h : le16Bytes 1 = le16Bytes k) : k = 1 := by
  have hlow := congrArg UInt8.toNat (List.cons.inj h).1
  have hhigh := congrArg UInt8.toNat (List.cons.inj (List.cons.inj h).2).1
  rw [UInt8.toNat_ofNat', UInt8.toNat_ofNat'] at hlow hhigh
  omega

/-- The bytes 2 and 3 of the first PMKID, where the number is looked for when there is one suite -/
theorem number_of_first (behind : List UInt8) {c : { c : List UInt8 // c.length = 2 }} {p : Pmkid} {m : Option Suite}
    (hs : e.suites = 1)
    (ht : e.tail = .pmkids c [p] m) : slice (e.body ++ behind) 20 2 = (p.val.drop 2).take 2 := by
  have hp := p.property
  rw [slice, (one_suite behind hs ht).2, pmkidsBytes_one, List.drop_append_of_le_length (by omega),
    List.take_append_of_le_length (by rw [List.length_drop]; omega)]

/-- What the twenty bytes and the PMKID behind them make an element of -/
theorem base_output_iff (hp : pmkid.length = 16) (hlong : 20 < e.body.length)
    (hcount : e.body.length = 22 + 16 * le16At (e.body ++ behind) 20) :
    (∃ t, TailFor e [pmkid] t ∧ e.base ++ t.bytes = e.body.take 20 ++ (le16Bytes 1 ++ pmkid)) ↔
      TwoSuitesCounted e ∨ FourTimesMgmt e pmkid := by
  have hbase := length_base e
  have hlt := length_body_lt e
  constructor
  · rintro ⟨t,ht,heq⟩
    obtain ⟨c,p,m,rfl,hpm⟩ := tail_of_one ht.pmkidList
    have hlen := congrArg List.length heq
    simp only [RsnTail.bytes, List.length_append, List.length_take, length_le16Bytes, length_pmkidsBytes,
      length_mgmtBytes, c.property, hp, List.length_singleton, Nat.min_eq_left hlong.le] at hlen
    have hcaps := ht.capabilities
    have hmgmt := ht.groupMgmt
    cases hetail : e.tail with
    | none =>
      rw [hetail] at hcaps
      cases hcaps
    | caps c' =>
      have := c'.property
      have hbody := congrArg List.length (body_eq e)
      rw [hetail] at hmgmt hbody
      obtain rfl : m = none := hmgmt
      simp only [RsnTail.bytes, List.length_append, Option.toList_none, List.length_nil] at hbody hlen
      omega
    | pmkids c' ps m' =>
      have hbody := length_body_pmkids hetail
      rw [hetail] at hcaps hmgmt
      obtain rfl : c = c' := Subtype.ext (Option.some.inj hcaps)
      obtain rfl : m = m' := hmgmt
      cases m with
      | none =>
        rw [Option.toList_none, List.length_nil] at hlen
        exact Or.inl ⟨by omega,c,ps,hetail⟩
      | some g =>
        rw [Option.toList_some, List.length_singleton] at hlen hbody
        have hs : e.suites = 1 := by omega
        have hk : ps.length = le16At (e.body ++ behind) 20 := by omega
        obtain ⟨htake,-⟩ := one_suite behind hs hetail
        rw [htake, List.append_assoc, List.append_assoc, List.append_assoc] at heq
        have hrest := List.append_cancel_left (List.append_cancel_left heq)
        obtain ⟨hnum,hps⟩ := List.append_inj hrest (by rw [length_le16Bytes, length_le16Bytes])
        have hone : ps.length = 1 := le16Bytes_one_eq (by omega) hnum
        obtain ⟨q,rfl⟩ := List.length_eq_one_iff.mp hone
        have hq := q.property
        have hqtwo : q.val.take 4 = q.val.take 2 ++ le16Bytes 1 := by
          rw [← hone, hk, ← slice_eq_le16Bytes (by rw [List.length_append]; omega),
            number_of_first behind hs hetail, ← List.take_add]
        rw [pmkidsBytes_one, pmkidsBytes_one, hpm, mgmtBytes_some, List.take_append_of_le_length (by omega),
          ← List.append_assoc, ← hqtwo] at hps
        obtain ⟨hg,hfour⟩ := four_times (by rw [List.length_take]; omega) g.property hp hps.symm
        refine Or.inr ⟨hs,c,q,g,hetail,hg,?_,hfour⟩
        rw [← hg, hqtwo, List.drop_append_of_le_length (by rw [List.length_take]; omega), List.drop_take,
          Nat.sub_self, List.take_zero, List.nil_append]
  · rintro (⟨hs,c,ps,ht⟩ | ⟨hs,c,q,g,ht,hqg,hg,hfour⟩)
    · refine ⟨.pmkids c [⟨pmkid,hp⟩] none,⟨by rw [ht]; rfl,by rw [ht]; rfl,rfl⟩,?_⟩
      rw [(drop_twenty [] hs ht).1, RsnTail.bytes, pmkidsBytes_one, List.append_assoc]
      exact congrArg (fun l => e.base ++ (c.val ++ (le16Bytes 1 ++ l))) (List.append_nil pmkid)
    · have hq := q.property
      have htwo : q.val.take 2 ++ le16Bytes 1 = g.val := by
        rw [← hg, ← hqg, List.drop_take, ← List.take_add]
      refine ⟨.pmkids c [⟨pmkid,hp⟩] (some g),⟨by rw [ht]; rfl,by rw [ht]; rfl,rfl⟩,?_⟩
      rw [(one_suite [] hs ht).1, RsnTail.bytes, pmkidsBytes_one, pmkidsBytes_one, mgmtBytes_some,
        List.take_append_of_le_length (by omega)]
      simp only [List.append_assoc, List.append_cancel_left_eq]
      change le16Bytes 1 ++ (pmkid ++ g.val) = le16Bytes 1 ++ (q.val.take 2 ++ (le16Bytes 1 ++ pmkid))
      rw [← List.append_assoc (q.val.take 2), htwo, hfour]
      simp only [List.append_assoc]

/-- The length byte and the length returned of a rewritten element settle where the PMKID was put. -/
theorem put_place {t : RsnTail} {n : ℕ} {reads : List ℕ} {rest : List UInt8} (hfixed : fixed.length = 12)
    (hn : n < 2 ^ 32)
    (ht : TailFor e [pmkid] t) (hout : OutputIs e fixed (putPmkid pmkid (secBuf fixed 20 rest) n reads) t) :
    n = 34 := by
  obtain ⟨c,p,m,rfl,-⟩ := tail_of_one ht.pmkidList
  have hbase := length_base e
  have hshort := hout.short
  have hie : (n + 18) % 2 ^ 32 = 14 + (e.base ++ (RsnTail.pmkids c [p] m).bytes).length := hout.ielength
  have hlen : 30 ≤ (e.base ++ (RsnTail.pmkids c [p] m).bytes).length := by
    simp only [RsnTail.bytes, List.length_append, length_le16Bytes, length_pmkidsBytes, c.property,
      List.length_singleton]
    omega
  have hbyte := hout.byte hfixed
  rw [putPmkid_byte (by rw [secBuf, List.length_append, List.length_cons, List.length_cons]; omega) (by omega)
    (by omega), secBuf_byte hfixed, show ((20 : UInt8) + 18).toNat = 38 from rfl] at hbyte
  omega

/-- Where the PMKID list is as long as the bytes at the place say -/
theorem count_of_ok (behind : List UInt8) (h : TwoSuitesCounted e ∨ FourTimesMgmt e pmkid) :
    20 < e.body.length ∧ e.body.length = 22 + 16 * le16At (e.body ++ behind) 20 := by
  have hlt := length_body_lt e
  rcases h with ⟨hs,c,ps,ht⟩ | ⟨hs,c,q,g,ht,hqg,hg,-⟩
  · have hlen := length_body_pmkids ht
    rw [hs, Option.toList_none, List.length_nil] at hlen
    rw [le16At_of_drop (drop_twenty _ hs ht).2 (by omega)]
    omega
  · have hlen := length_body_pmkids ht
    rw [hs, Option.toList_some, List.length_singleton, List.length_singleton] at hlen
    have hnum := slice_eq_le16Bytes (y := e.body ++ behind) (i := 20) (by rw [List.length_append]; omega)
    rw [number_of_first behind hs ht, show (q.val.drop 2).take 2 = le16Bytes 1 by rw [← hg, ← hqg, List.drop_take]]
      at hnum
    rw [le16Bytes_one_eq (le16At_lt _ _) hnum]
    omega

theorem CachedInPlace.compared (h : CachedInPlace e pmkid) (hp : pmkid.length = 16) (behind : List UInt8) :
    38 ≤ e.body.length ∧ le16At (e.body ++ behind) 20 = 1 ∧ slice (e.body ++ behind) 22 16 = pmkid := by
  obtain ⟨-,-,-,-,-,hslice⟩ := h
  have hlen := congrArg List.length hslice
  rw [length_slice, List.length_append, length_le16Bytes, hp] at hlen
  have hfar : 38 ≤ e.body.length := by omega
  rw [← slice_append_left (b := behind) (by omega : 20 + 18 ≤ e.body.length), ← slice_append_slice _ 20 2 16]
    at hslice
  have hnum := slice_eq_le16Bytes (y := e.body ++ behind) (i := 20) (by rw [List.length_append]; omega)
  obtain ⟨hone,hpmkid⟩ := List.append_inj hslice (by rw [hnum, length_le16Bytes, length_le16Bytes])
  exact ⟨hfar,le16Bytes_one_eq (le16At_lt _ _) (hone.symm.trans hnum),hpmkid⟩

/-- With an entry, for an element that is long enough for a number of PMKIDs at the place -/
theorem append_long_iff (hfixed : fixed.length = 12) (hp : pmkid.length = 16) (hbehind : 499 ≤ behind.length)
    (hlong : 20 < e.body.length) :
    RsnRewritten e (some pmkid) fixed
      (rtwAppendPmkid pmkid (secBuf fixed (UInt8.ofNat e.body.length) (e.body ++ behind)) (14 + e.body.length)) ↔
        TwoSuitesCounted e ∨ CachedInPlace e pmkid ∨ FourTimesMgmt e pmkid := by
  have hinside := length_fixed_bytes (e := e) hfixed
  have hlt := length_body_lt e
  constructor
  · intro h
    obtain ⟨t,ht,hout⟩ := (element_iff hfixed).mp h.element
    have hreads := h.reads
    by_cases hcount : e.body.length = 22 + 16 * le16At (e.body ++ behind) 20 ∧
        ¬(le16At (e.body ++ behind) 20 = 1 ∧ slice (e.body ++ behind) 22 16 = pmkid)
    · obtain ⟨hbuf,-,-⟩ := append_twenty hfixed hp hbehind hlong hcount.1
      obtain ⟨hlen,htake⟩ := hout.parts hfixed hbuf
      rw [← hlen] at htake
      have hbase : e.base ++ t.bytes = e.body.take 20 ++ (le16Bytes 1 ++ pmkid) := by
        rw [← htake]
        apply List.take_left'
        rw [List.length_append, List.length_append, List.length_take, length_le16Bytes, hp, Nat.min_eq_left hlong.le]
        rfl
      rcases (base_output_iff hp hlong hcount.1).mp ⟨t,ht,hbase⟩ with h2 | h4
      · exact Or.inl h2
      · exact Or.inr (Or.inr h4)
    · rw [rtwAppendPmkid, secBuf_byte hfixed, secBuf_le16At hfixed, secBuf_patch_len hfixed, toNat_body_length,
        if_pos hlong]
        at hout hreads
      dsimp only at hout hreads
      rw [show 14 + 20 + 2 = 14 + 22 from rfl, secBuf_slice hfixed] at hout hreads
      by_cases hsame : le16At (e.body ++ behind) 20 = 1 ∧ slice (e.body ++ behind) 22 16 = pmkid
      · rw [if_pos hsame] at hout hreads
        have h51 := hreads 51 (by simp)
        exact Or.inr (Or.inl ((same_output_iff hfixed hsame (by omega)).mp ⟨t,ht,hout⟩))
      · rw [if_neg hsame] at hout
        have hplace : withoutPmkids (14 + e.body.length) (le16At (e.body ++ behind) 20) = 34 :=
          put_place hfixed (Nat.mod_lt _ (by decide)) ht hout
        have hk := le16At_lt (e.body ++ behind) 20
        unfold withoutPmkids at hplace
        exact absurd ⟨by omega,hsame⟩ hcount
  · intro h
    by_cases hbase : TwoSuitesCounted e ∨ FourTimesMgmt e pmkid
    · obtain ⟨-,hcount⟩ := count_of_ok behind hbase
      obtain ⟨hbuf,hie,hreads⟩ := append_twenty hfixed hp hbehind hlong hcount
      obtain ⟨t,ht,heq⟩ := (base_output_iff hp hlong hcount).mpr hbase
      have hlen : (e.body.take 20 ++ (le16Bytes 1 ++ pmkid)).length = 38 := by
        rw [List.length_append, List.length_append, List.length_take, length_le16Bytes, hp, Nat.min_eq_left hlong.le]
      refine ⟨(element_iff hfixed).mpr ⟨t,ht,outputIs_of_parts hfixed hbuf ?_ hie ?_⟩,?_⟩
      · rw [heq, hlen]
        rfl
      · rw [heq]
        exact List.take_left' hlen
      · rw [hinside, hfixed]
        exact hreads
    · have hcached : CachedInPlace e pmkid := by tauto
      obtain ⟨hfar,hsame⟩ := hcached.compared hp behind
      rw [rtwAppendPmkid, secBuf_byte hfixed, secBuf_le16At hfixed, secBuf_patch_len hfixed, toNat_body_length,
        if_pos hlong]
      dsimp only
      rw [show 14 + 20 + 2 = 14 + 22 from rfl, secBuf_slice hfixed, if_pos hsame]
      refine ⟨(element_iff hfixed).mpr ((same_output_iff hfixed hsame hfar).mpr hcached),?_⟩
      intro i hi
      rw [hinside, hfixed]
      rcases List.mem_append.mp hi with hi | hi
      · have : i = 13 ∨ i = 34 ∨ i = 35 := by simpa using hi
        omega
      · have := List.mem_range'_1.mp hi
        omega

end Element

/-- What is left of the output buffer behind the element -/
def behindElem (outIe : List UInt8) (e : RsnIe) : List UInt8 := outIe.drop (14 + e.body.length)

/-- Either function finds the fixed bytes, the element and the rest of the buffer. -/
theorem restruct_eq {sec : SecPriv} {inIe outIe : List UInt8} {e : RsnIe} (h : RsnJoin sec inIe outIe e)
    (assocBssid : MacAddr) :
    rtwRestructSecIe sec false assocBssid inIe outIe =
      let ie := secBuf (slice inIe 0 12) (UInt8.ofNat e.body.length) (e.body ++ behindElem outIe e)
      match pmkidFor sec assocBssid with
      | none => rtwRemovePmkid ie (14 + e.body.length)
      | some pmkid => rtwAppendPmkid pmkid ie (14 + e.body.length) := by
  obtain ⟨rest,hrest⟩ := h.stored
  have hlt := length_body_lt e
  have hfixed : (slice inIe 0 12).length = 12 := by rw [length_slice, h.inIe]; rfl
  have hbyte : byteAt sec.supplicantIe 1 = UInt8.ofNat e.body.length := by
    rw [← hrest, bytes_eq]
    rfl
  have hn : (byteAt sec.supplicantIe 1).toNat + 2 = e.bytes.length := by
    rw [hbyte, toNat_body_length, bytes_eq]
    rfl
  have helem : slice sec.supplicantIe 0 e.bytes.length = e.bytes := by
    rw [← hrest]
    exact List.take_left
  have hbytes : e.bytes.length = e.body.length + 2 := rfl
  have hbuf : ∀ fixed : List UInt8, fixed.length = 12 → patch (patch outIe 0 fixed) 12 e.bytes =
      secBuf fixed (UInt8.ofNat e.body.length) (e.body ++ behindElem outIe e) := by
    intro fixed hfixed
    have hboth : (fixed ++ e.bytes).take (outIe.length - 0) = fixed ++ e.bytes := by
      apply List.take_of_length_le
      rw [List.length_append, hfixed, hbytes, h.outIe, MAX_IE_SZ]
      omega
    rw [show 12 = 0 + fixed.length by rw [hfixed], patch_patch_append, patch, hboth, List.length_append, hfixed, hbytes,
      behindElem, secBuf, bytes_eq, show 0 + (12 + (e.body.length + 2)) = 14 + e.body.length by omega]
    simp
  rw [rtwRestructSecIe, h.auth, if_pos rfl, if_neg Bool.false_ne_true, if_pos (Or.inr rfl), hn]
  dsimp only
  rw [helem, hbuf _ hfixed, hbytes, show 12 + (e.body.length + 2) = 14 + e.body.length by omega]

theorem pmkidFor_length {sec : SecPriv} {inIe outIe : List UInt8} {e : RsnIe} (h : RsnJoin sec inIe outIe e)
    {assocBssid : MacAddr} {pmkid : List UInt8} (hp : pmkidFor sec assocBssid = some pmkid) : pmkid.length = 16 := by
  obtain ⟨i,-,hi⟩ := Option.bind_eq_some_iff.mp hp
  obtain ⟨entry,hentry,rfl⟩ := Option.map_eq_some_iff.mp hi
  exact h.pmkids entry (List.mem_of_getElem? hentry)

/-- The join request carries the supplicant's element with the cached PMKID exactly where the twenty bytes are right. -/
theorem restruct_sec_ie_iff {sec : SecPriv} {inIe outIe : List UInt8} {e : RsnIe} (h : RsnJoin sec inIe outIe e)
    (assocBssid : MacAddr) :
    RsnRewritten e (pmkidFor sec assocBssid) (slice inIe 0 12) (rtwRestructSecIe sec false assocBssid inIe outIe) ↔
      RsnOk e (pmkidFor sec assocBssid) := by
  have hfixed : (slice inIe 0 12).length = 12 := by rw [length_slice, h.inIe]; rfl
  have hlt := length_body_lt e
  rw [restruct_eq h]
  cases hp : pmkidFor sec assocBssid with
  | none => exact remove_iff hfixed
  | some pmkid =>
    have hp16 := pmkidFor_length h hp
    have hbehind : 499 ≤ (behindElem outIe e).length := by
      rw [behindElem, List.length_drop, h.outIe, MAX_IE_SZ]
      omega
    by_cases hlong : 20 < e.body.length
    · refine (append_long_iff hfixed hp16 hbehind hlong).trans (or_iff_right ?_).symm
      rintro ⟨hs,c,ht⟩
      have hbase := length_base e
      have hc := c.property
      have hbody := congrArg List.length (body_eq e)
      rw [List.length_append, ht] at hbody
      simp only [RsnTail.bytes] at hbody
      omega
    · refine (append_short_iff hfixed hp16 hbehind (not_lt.mp hlong)).trans (or_iff_left ?_).symm
      rintro (h2 | hc | h4)
      · exact hlong (@count_of_ok e pmkid [] (Or.inl h2)).1
      · have := (hc.compared hp16 []).1
        omega
      · exact hlong (count_of_ok [] (Or.inr h4)).1

/-- The supplicant's element in a station without PMKIDs -/
def joinSec (e : RsnIe) : SecPriv :=
  { SecPriv.zero with ndisauthtype := .wpa2Psk, supplicantIe := e.bytes ++ List.replicate (254 - e.body.length) 0 }

theorem rsnJoin_joinSec (e : RsnIe) : RsnJoin (joinSec e) (List.replicate MAX_IE_SZ 0)
    (List.replicate MAX_IE_SZ 0) e where
  auth := rfl
  stored := ⟨_,rfl⟩
  pmkids p hp := by
    obtain rfl := List.eq_of_mem_replicate hp
    rfl
  inIe := List.length_replicate
  outIe := List.length_replicate

theorem length_ccmp : ([0x00,0x0f,0xac,4] : List UInt8).length = 4 := rfl

theorem length_psk : ([0x00,0x0f,0xac,2] : List UInt8).length = 4 := rfl

/-- CCMP, and the PSK as the AKM -/
def pskRsn (t : RsnTail) (short : (18 + t.bytes.length) < 256) : RsnIe where
  elem :=
    ⟨⟨1,⟨[0x00,0x0f,0xac,4],length_ccmp⟩,[⟨[0x00,0x0f,0xac,4],length_ccmp⟩],
      [⟨[0x00,0x0f,0xac,2],length_psk⟩],t.bytes⟩,by
    rw [wpa2_bytes_eq, List.length_append]
    exact short⟩
  tail := t
  rest_eq := rfl

theorem pskRsn_rewritten :
    let e := pskRsn (.pmkids ⟨[0x00,0x00],rfl⟩ [] none) (by decide)
    RsnRewritten e (pmkidFor (joinSec e) [2,0,0,0,0,2]) (slice (List.replicate MAX_IE_SZ 0) 0 12)
      (rtwRestructSecIe (joinSec e) false [2,0,0,0,0,2] (List.replicate MAX_IE_SZ 0) (List.replicate MAX_IE_SZ 0)) := by
  intro e
  have hnone : pmkidFor (joinSec e) [2,0,0,0,0,2] = none := rfl
  refine (restruct_sec_ie_iff (rsnJoin_joinSec e) _).mpr ?_
  rw [hnone]
  exact ⟨rfl,_,_,rfl⟩

/-- With protected management frames the length of the element is not that of what is left. -/
theorem group_mgmt_not_rewritten :
    ¬∀ (sec : SecPriv) (inIe outIe : List UInt8) (e : RsnIe), RsnJoin sec inIe outIe e → ∀ assocBssid : MacAddr,
      RsnRewritten e (pmkidFor sec assocBssid) (slice inIe 0 12)
      (rtwRestructSecIe sec false assocBssid inIe outIe) := by
  intro hall
  let e := pskRsn (.pmkids ⟨[0x80,0x00],rfl⟩ [] (some ⟨[0x00,0x0f,0xac,6],rfl⟩)) (by decide)
  have hbad := hall _ _ _ e (rsnJoin_joinSec e) [2,0,0,0,0,2]
  have hnone : pmkidFor (joinSec e) [2,0,0,0,0,2] = none := rfl
  rw [restruct_eq (rsnJoin_joinSec e), hnone] at hbad
  obtain ⟨-,c,ps,ht⟩ := (remove_iff (by rw [length_slice, List.length_replicate]; rfl)).mp hbad
  cases ht

end Rtl8188fu
