import Rtl8188fu.Cfg80211.Connect
import Rtl8188fu.Xmit.WlanHdr

/-! # Decoding WPA and RSN elements

`rtw_parse_wpa_ie` and `rtw_parse_wpa2_ie` with `is_8021x` and the bytes that they read. The
offsets count from the element's number.
-/
namespace Rtl8188fu
open Bytes

/-- The value returned, the outputs (`is8021x` is `none` when the caller passes no place for it), and what
has been read -/
structure SecParse where
  ok : Bool
  ciphers : Ciphers
  is8021x : Option Bool
  reads : List ℕ

/-- Where one parser differs from the other: `ouiType` is empty when no OUI is compared. -/
structure SecKind where
  id : UInt8
  ouiType : List UInt8
  start : ℕ
  suite : List UInt8 → ℕ
  suite1x : List UInt8
  /-- The version stands in between. -/
  start_eq : start = ouiType.length + 4
  suite_append : ∀ s rest : List UInt8, s.length = 4 → suite (s ++ rest) = suite s
  length_suite1x : suite1x.length = 4

theorem cipherSuite_append {oui s : List UInt8} (rest : List UInt8) (h : s.length = 4) :
    cipherSuite oui (s ++ rest) = cipherSuite oui s := by
  unfold cipherSuite
  simp only [slice_append_left (show 0 + 4 ≤ s.length by omega)]

def wpaKind : SecKind where
  id := WPA_IE_ID
  ouiType := wpaOuiType
  start := 8
  suite := rtwGetWpaCipherSuite
  suite1x := [0x00,0x50,0xf2,1]
  start_eq := rfl
  suite_append _ rest h := cipherSuite_append rest h
  length_suite1x := rfl

def wpa2Kind : SecKind where
  id := WPA2_IE_ID
  ouiType := []
  start := 4
  suite := rtwGetWpa2CipherSuite
  suite1x := [0x00,0x0f,0xac,1]
  start_eq := rfl
  suite_append _ rest h := cipherSuite_append rest h
  length_suite1x := rfl

/-- The loop over the pairwise ciphers -/
def pairwiseLoop (suite : List UInt8 → ℕ) (ie : List UInt8) : ℕ → ℕ → ℕ → ℕ × List ℕ
  | 0, _, cipher => (cipher,[])
  | count + 1, pos, cipher =>
    let r := pairwiseLoop suite ie count (pos + 4) (cipher ||| suite (ie.drop pos))
    (r.1,List.range' pos 4 ++ r.2)

/-- `if (is_8021x)` to the end -/
def parseAkm (k : SecKind) (ie : List UInt8) (pos left : ℕ) (c : Ciphers) (x : Option Bool) : SecParse :=
  match x with
  | none => ⟨true,c,none,[]⟩
  | some v =>
    if 6 ≤ left then ⟨true,c,some (v || slice ie (pos + 2) 4 = k.suite1x),List.range' (pos + 2) 4⟩
    else ⟨true,c,some v,[]⟩

/-- From the number of pairwise ciphers on -/
def parsePairwise (k : SecKind) (ie : List UInt8) (pos left : ℕ) (c : Ciphers) (x : Option Bool) : SecParse :=
  if 2 ≤ left then
    let count := le16At ie pos
    if count = 0 ∨ left - 2 < count * 4 then ⟨false,c,x,[pos,pos + 1]⟩
    else
      let loop := pairwiseLoop k.suite ie count (pos + 2) c.pairwise
      let r := parseAkm k ie (pos + 2 + count * 4) (left - 2 - count * 4) { c with pairwise := loop.1 } x
      { r with reads := [pos,pos + 1] ++ loop.2 ++ r.reads }
  else if left = 1 then ⟨false,c,x,[]⟩
  else parseAkm k ie pos left c x

/-- From the group cipher on; a negative `left` passes the same tests as zero. -/
def parseGroup (k : SecKind) (ie : List UInt8) (left : ℕ) (c : Ciphers) (x : Option Bool) : SecParse :=
  if 4 ≤ left then
    let r := parsePairwise k ie (k.start + 4) (left - 4) { c with group := k.suite (ie.drop k.start) } x
    { r with reads := List.range' k.start 4 ++ r.reads }
  else if 0 < left then ⟨false,c,x,[]⟩
  else parsePairwise k ie k.start 0 c x

def parseSecIe (k : SecKind) (ie : List UInt8) (ieLen : ℕ) (c : Ciphers) (x : Option Bool) : SecParse :=
  if ieLen = 0 then ⟨false,c,x,[]⟩
  else if byteAt ie 0 ≠ k.id then ⟨false,c,x,[0]⟩
  -- the cast of `ieLen - 2`
  else if (byteAt ie 1).toNat ≠ (ieLen + 254) % 256 then ⟨false,c,x,[0,1]⟩
  else
    let compared := [0,1] ++ List.range' 2 k.ouiType.length
    if slice ie 2 k.ouiType.length ≠ k.ouiType then ⟨false,c,x,compared⟩
    else
      let r := parseGroup k ie (ieLen - k.start) c x
      { r with reads := compared ++ r.reads }

namespace SecParse

def rtwParseWpaIe := parseSecIe wpaKind
def rtwParseWpa2Ie := parseSecIe wpa2Kind

end SecParse

section Reads
variable {k : SecKind} {ie : List UInt8} {suite : List UInt8 → ℕ} {pos left count cipher ieLen r : ℕ}
  {c : Ciphers} {x : Option Bool}

theorem pairwiseLoop_reads (h : r ∈ (pairwiseLoop suite ie count pos cipher).2) :
    pos ≤ r ∧ r < pos + count * 4 := by
  induction count generalizing pos cipher with
  | zero => cases h
  | succ count ih =>
    rcases List.mem_append.mp h with h | h
    · have := List.mem_range'_1.mp h
      omega
    · have := ih h
      omega

theorem parseAkm_reads (h : r ∈ (parseAkm k ie pos left c x).reads) : pos ≤ r ∧ r < pos + left := by
  unfold parseAkm at h
  split at h
  · cases h
  · split at h
    · have := List.mem_range'_1.mp h
      omega
    · cases h

theorem parsePairwise_reads (h : r ∈ (parsePairwise k ie pos left c x).reads) : pos ≤ r ∧ r < pos + left := by
  unfold parsePairwise at h
  split at h
  · rename_i hleft
    dsimp only at h
    split at h
    · have : r = pos ∨ r = pos + 1 := by simpa using h
      omega
    · rename_i hcount
      simp only [List.cons_append, List.nil_append, List.mem_cons, List.mem_append] at h
      rcases h with rfl | rfl | h | h
      · omega
      · omega
      · have := pairwiseLoop_reads h
        omega
      · have := parseAkm_reads h
        omega
  · split at h
    · cases h
    · exact parseAkm_reads h

theorem parseGroup_reads (h : r ∈ (parseGroup k ie left c x).reads) : k.start ≤ r ∧ r < k.start + left := by
  unfold parseGroup at h
  split at h
  · rcases List.mem_append.mp h with h | h
    · have := List.mem_range'_1.mp h
      omega
    · have := parsePairwise_reads h
      omega
  · split at h
    · cases h
    · have := parsePairwise_reads h
      omega

/-- The number, the length byte and the OUI are inside, as far as they are looked at. -/
def HeaderInside (k : SecKind) (ie : List UInt8) (ieLen : ℕ) : Prop :=
  ieLen ≠ 0 → byteAt ie 0 = k.id →
    2 ≤ ieLen ∧ ((byteAt ie 1).toNat = (ieLen + 254) % 256 → 2 + k.ouiType.length ≤ ieLen)

theorem parseSecIe_inside_iff :
    (∀ r ∈ (parseSecIe k ie ieLen c x).reads, r < ieLen) ↔ HeaderInside k ie ieLen := by
  unfold parseSecIe HeaderInside
  by_cases hlen : ieLen = 0
  · simp [hlen]
  by_cases hid : byteAt ie 0 = k.id
  · by_cases hbyte : (byteAt ie 1).toNat = (ieLen + 254) % 256
    · have hheader : (∀ r ∈ [0,1] ++ List.range' 2 k.ouiType.length, r < ieLen) ↔
          2 + k.ouiType.length ≤ ieLen := by
        constructor
        · intro h
          have h1 := h 1 (by simp)
          by_cases hoo : k.ouiType.length = 0
          · omega
          · have := h (2 + (k.ouiType.length - 1)) (by simp [List.mem_range'_1]; omega)
            omega
        · intro h r hr
          have : r = 0 ∨ r = 1 ∨ 2 ≤ r ∧ r < 2 + k.ouiType.length := by simpa [List.mem_range'_1] using hr
          omega
      by_cases houi : slice ie 2 k.ouiType.length = k.ouiType
      · simp only [hlen, hid, hbyte, houi, ne_eq, not_true_eq_false, not_false_eq_true, if_false, forall_const]
        constructor
        · intro h
          have := hheader.mp fun r hr => h r (List.mem_append_left _ hr)
          exact ⟨by omega,this⟩
        · rintro ⟨-,h⟩ r hr
          rcases List.mem_append.mp hr with hr | hr
          · exact hheader.mpr h r hr
          · have := parseGroup_reads hr
            omega
      · simp only [hlen, hid, hbyte, houi, ne_eq, not_true_eq_false, not_false_eq_true, if_false, if_true,
          forall_const]
        rw [hheader]
        omega
    · simp [hlen, hid, hbyte]
      omega
  · simp [hlen, hid]
    omega

/-- No array that an element can be has another length than its length byte says, when more is read than that. -/
theorem parseSecIe_declared (hlen : ieLen ≤ 257) (hr : r ∈ (parseSecIe k ie ieLen c x).reads) (h : r < ieLen) :
    r < (byteAt ie 1).toNat + 2 := by
  unfold parseSecIe at hr
  split at hr
  · cases hr
  split at hr
  · have : r = 0 := by simpa using hr
    omega
  split at hr
  · have : r = 0 ∨ r = 1 := by simpa using hr
    omega
  · omega

end Reads

/-- The four bytes of a cipher suite or an AKM suite -/
abbrev Suite := { s : List UInt8 // s.length = 4 }

def suitesBytes (ss : List Suite) : List UInt8 := ss.flatMap Subtype.val

/-- What the body of an element encodes; `rest` is what stands behind the AKM suites. -/
structure SecBody where
  version : ℕ
  group : Suite
  pairwise : List Suite
  akms : List Suite
  rest : List UInt8

/-- From the AKM suites' number on -/
def SecBody.akmBytes (b : SecBody) : List UInt8 := le16Bytes b.akms.length ++ (suitesBytes b.akms ++ b.rest)

def SecBody.pairwiseBytes (b : SecBody) : List UInt8 :=
  le16Bytes b.pairwise.length ++ (suitesBytes b.pairwise ++ b.akmBytes)

def SecBody.bytes (k : SecKind) (b : SecBody) : List UInt8 :=
  k.ouiType ++ le16Bytes b.version ++ (b.group ++ b.pairwiseBytes)

structure SecElem (k : SecKind) extends SecBody where
  short : (toSecBody.bytes k).length < 256

def SecElem.tlv {k : SecKind} (e : SecElem k) : Tlv := ⟨k.id,e.toSecBody.bytes k,e.short⟩

/-- The result is what the element encodes. -/
structure DecodesTo (k : SecKind) (e : SecElem k) (res : SecParse) : Prop where
  ok : res.ok = true
  group : res.ciphers.group = k.suite e.group
  pairwise : ∀ i, res.ciphers.pairwise.testBit i ↔ ∃ s ∈ e.pairwise, (k.suite s).testBit i
  is8021x : res.is8021x = some true ↔ ∃ s ∈ e.akms, s.val = k.suite1x

/-- Only the first AKM suite counts, and without one what follows the number is taken for it. -/
def OneXInFront (k : SecKind) (e : SecElem k) : Prop :=
  match e.akms with
  | [] => ¬k.suite1x <+: e.rest
  | s :: akms => (∃ s ∈ akms, s.val = k.suite1x) → s.val = k.suite1x

/-- The same apart from what has been read -/
def SecParse.Like (r r' : SecParse) : Prop := r.ok = r'.ok ∧ r.ciphers = r'.ciphers ∧ r.is8021x = r'.is8021x

section Decode
variable {k : SecKind} {ie rest : List UInt8} {suite : List UInt8 → ℕ} {pos left cipher n : ℕ} {c : Ciphers}
  {ss : List Suite}

theorem length_suitesBytes : (suitesBytes ss).length = 4 * ss.length := by
  induction ss with
  | nil => rfl
  | cons s ss ih =>
    have : suitesBytes (s :: ss) = s.val ++ suitesBytes ss := rfl
    rw [this, List.length_append, s.property, ih, List.length_cons]
    omega

theorem drop_behind {a b : List UInt8} {i j : ℕ} (h : ie.drop i = a ++ b) (hj : j = i + a.length) :
    ie.drop j = b := by
  subst hj
  rw [← List.drop_drop, h, List.drop_left]

theorem le16At_of_drop (h : ie.drop pos = le16Bytes n ++ rest) (hn : n < 65536) : le16At ie pos = n := by
  have h0 : byteAt ie pos = UInt8.ofNat n := by
    have := byteAt_drop ie pos 0
    rw [h] at this
    exact this.symm
  have h1 : byteAt ie (pos + 1) = UInt8.ofNat (n / 256) := by
    have := byteAt_drop ie pos 1
    rw [h] at this
    exact this.symm
  unfold le16At
  simp only [h0, h1, UInt8.toNat_ofNat']
  omega

theorem pairwiseLoop_suites (hsuite : ∀ s rest : List UInt8, s.length = 4 → suite (s ++ rest) = suite s)
    (h : ie.drop pos = suitesBytes ss ++ rest) (i : ℕ) :
    (pairwiseLoop suite ie ss.length pos cipher).1.testBit i ↔
      cipher.testBit i ∨ ∃ s ∈ ss, (suite s.val).testBit i := by
  induction ss generalizing pos cipher with
  | nil => simp [pairwiseLoop]
  | cons s ss ih =>
    have hs : ie.drop pos = s.val ++ (suitesBytes ss ++ rest) := by
      rw [h, ← List.append_assoc]
      rfl
    have hnext := drop_behind hs (show pos + 4 = pos + s.val.length by rw [s.property])
    have hloop := @ih (pos + 4) (cipher ||| suite s.val) hnext
    simp only [List.length_cons, pairwiseLoop, hs, hsuite _ _ s.property, hloop, Nat.testBit_or, Bool.or_eq_true,
      List.exists_mem_cons_iff, or_assoc]

theorem oneX_prefix (s : Suite) : k.suite1x <+: s.val ++ rest ↔ s.val = k.suite1x := by
  constructor
  · intro h
    exact (List.prefix_of_prefix_length_le h (List.prefix_append _ _)
      (by rw [k.length_suite1x, s.property])).eq_of_length
      (by rw [k.length_suite1x, s.property]) |>.symm
  · intro h
    exact h ▸ List.prefix_append _ _

/-- The comparison, when all that is left is `bs` behind the AKM suites' number -/
theorem parseAkm_suites {bs : List UInt8} (h : ie.drop (pos + 2) = bs) (hleft : left = 2 + bs.length) :
    (parseAkm k ie pos left c (some false)).is8021x = some true ↔ k.suite1x <+: bs := by
  have hslice : slice ie (pos + 2) 4 = bs.take 4 := by rw [slice, h]
  have htake : k.suite1x <+: bs ↔ bs.take 4 = k.suite1x := by
    rw [List.prefix_iff_eq_take, k.length_suite1x, eq_comm]
  unfold parseAkm
  by_cases hlong : 6 ≤ left
  · simp [hlong, hslice, htake]
  · have hno : ¬k.suite1x <+: bs := by
      intro hp
      have := hp.length_le
      rw [k.length_suite1x] at this
      omega
    simp [hlong, hno]

theorem parseAkm_ok {x : Option Bool} : (parseAkm k ie pos left c x).ok = true ∧
    (parseAkm k ie pos left c x).ciphers = c := by
  unfold parseAkm
  split
  · exact ⟨rfl,rfl⟩
  · split
    · exact ⟨rfl,rfl⟩
    · exact ⟨rfl,rfl⟩

/-- What is left of the pairwise part when it has suites that are all there -/
theorem parsePairwise_suites {m : ℕ} {x : Option Bool} (hcount : le16At ie pos = n) (hn : n ≠ 0)
    (hleft : left = 2 + (n * 4 + m)) :
    (parsePairwise k ie pos left c x).Like
      (parseAkm k ie (pos + 2 + n * 4) m
      { c with pairwise := (pairwiseLoop k.suite ie n (pos + 2) c.pairwise).1 } x) := by
  unfold parsePairwise
  rw [if_pos (show 2 ≤ left by omega), hcount, if_neg (by omega), show left - 2 - n * 4 = m by omega]
  exact ⟨rfl,rfl,rfl⟩

theorem parseGroup_suites {x : Option Bool} (h : 4 ≤ left) :
    (parseGroup k ie left c x).Like
      (parsePairwise k ie (k.start + 4) (left - 4) { c with group := k.suite (ie.drop k.start) } x) := by
  unfold parseGroup
  rw [if_pos h]
  exact ⟨rfl,rfl,rfl⟩

variable {e : SecElem k}

theorem oneXInFront_iff :
    (k.suite1x <+: suitesBytes e.akms ++ e.rest ↔ ∃ s ∈ e.akms, s.val = k.suite1x) ↔ OneXInFront k e := by
  unfold OneXInFront
  cases e.akms with
  | nil => simp [suitesBytes]
  | cons s akms =>
    have : suitesBytes (s :: akms) ++ e.rest = s.val ++ (suitesBytes akms ++ e.rest) := by
      rw [← List.append_assoc]
      rfl
    rw [this, oneX_prefix, List.exists_mem_cons_iff]
    constructor
    · exact fun h hin => h.mpr (.inr hin)
    · exact fun h => ⟨.inl,fun hin => hin.elim id h⟩

theorem SecElem.length_bytes (e : SecElem k) :
    e.tlv.bytes.length = k.start + 4 + (2 + (4 * e.pairwise.length + (2 + (suitesBytes e.akms ++ e.rest).length))) := by
  have hstart := k.start_eq
  have hgroup := e.group.property
  simp only [tlv, SecBody.bytes, SecBody.pairwiseBytes, SecBody.akmBytes, Tlv.length_bytes, List.length_append,
    length_le16Bytes, length_suitesBytes] at *
  omega

theorem DecodesTo.congr {r r' : SecParse} (h : r.Like r') : DecodesTo k e r ↔ DecodesTo k e r' := by
  obtain ⟨hok,hc,hx⟩ := h
  constructor
  · exact fun h => ⟨hok ▸ h.ok,hc ▸ h.group,hc ▸ h.pairwise,hx ▸ h.is8021x⟩
  · exact fun h => ⟨hok ▸ h.ok,hc ▸ h.group,hc ▸ h.pairwise,hx ▸ h.is8021x⟩

theorem parseSecIe_tlv (e : SecElem k) (x : Option Bool) :
    (parseSecIe k e.tlv.bytes e.tlv.bytes.length c x).Like
      (parseGroup k e.tlv.bytes (e.tlv.bytes.length - k.start) c x) := by
  have hshort := e.tlv.short
  have hid : byteAt e.tlv.bytes 0 = k.id := rfl
  have hlen : (byteAt e.tlv.bytes 1).toNat = (e.tlv.bytes.length + 254) % 256 := by
    have : (byteAt e.tlv.bytes 1).toNat = e.tlv.body.length := e.tlv.toNat_length
    rw [this, Tlv.length_bytes]
    omega
  have houi : slice e.tlv.bytes 2 k.ouiType.length = k.ouiType := by
    have : e.tlv.bytes = [k.id,UInt8.ofNat e.tlv.body.length] ++ k.ouiType ++
        (le16Bytes e.version ++ (e.group ++ e.pairwiseBytes)) := by
      simp [Tlv.bytes, SecElem.tlv, SecBody.bytes]
    rw [this]
    exact slice_middle rfl rfl
  unfold parseSecIe
  rw [if_neg (by rw [Tlv.length_bytes]; omega), if_neg (by simp [hid]), if_neg (by simp [hlen]),
    if_neg (by simp [houi])]
  exact ⟨rfl,rfl,rfl⟩

theorem decodesTo_iff :
    DecodesTo k e (parseSecIe k e.tlv.bytes e.tlv.bytes.length ⟨0,0⟩ (some false)) ↔
      e.pairwise ≠ [] ∧ OneXInFront k e := by
  have hlen := e.length_bytes
  have hshort := e.tlv.short
  have hstart := k.start_eq
  have hleft : e.tlv.bytes.length - k.start - 4 =
      2 + (e.pairwise.length * 4 + (2 + (suitesBytes e.akms ++ e.rest).length)) := by omega
  have hgroup : e.tlv.bytes.drop k.start = e.group ++ e.pairwiseBytes := by
    refine @drop_behind _ ([k.id,UInt8.ofNat e.tlv.body.length] ++ k.ouiType ++ le16Bytes e.version) _ 0 _ ?_ ?_
    · simp [Tlv.bytes, SecElem.tlv, SecBody.bytes]
    · simp only [List.length_append, length_le16Bytes, List.length_cons, List.length_nil]
      omega
  have hpairwise := drop_behind hgroup (show k.start + 4 = k.start + e.group.val.length by rw [e.group.property])
  have hcount : le16At e.tlv.bytes (k.start + 4) = e.pairwise.length :=
    le16At_of_drop hpairwise (by rw [Tlv.length_bytes] at hlen; omega)
  have hsuites := drop_behind hpairwise (show k.start + 4 + 2 = _ from rfl)
  have hakms := drop_behind hsuites (show k.start + 4 + 2 + e.pairwise.length * 4 = _ by rw [length_suitesBytes]; omega)
  have hbs := drop_behind hakms (show k.start + 4 + 2 + e.pairwise.length * 4 + 2 = _ from rfl)
  rw [DecodesTo.congr (parseSecIe_tlv e _), DecodesTo.congr (parseGroup_suites (by omega)), hleft]
  by_cases hnone : e.pairwise = []
  · refine iff_of_false (fun h => ?_) fun h => h.1 hnone
    have hok := h.ok
    rw [hnone] at hcount
    simp [parsePairwise, hcount] at hok
  · rw [DecodesTo.congr (parsePairwise_suites hcount (by simpa using hnone) rfl), ← oneXInFront_iff,
      and_iff_right hnone]
    constructor
    · exact fun h => (parseAkm_suites hbs rfl).symm.trans h.is8021x
    · intro h
      refine ⟨parseAkm_ok.1,?_,fun i => ?_,(parseAkm_suites hbs rfl).trans h⟩
      · simp only [parseAkm_ok.2, hgroup]
        exact k.suite_append _ _ e.group.property
      · simp only [parseAkm_ok.2]
        exact (pairwiseLoop_suites k.suite_append hsuites i).trans (by simp)

end Decode

section Connect
variable {k : SecKind} {ie : List UInt8} {suite : List UInt8 → ℕ} {pos left count cipher ieLen : ℕ} {c : Ciphers}
  {x : Option Bool}

theorem pairwiseLoop_foldl :
    (pairwiseLoop suite ie count pos cipher).1 =
      (List.range count).foldl (fun m i => m ||| suite (ie.drop (pos + 4 * i))) cipher := by
  induction count generalizing pos cipher with
  | zero => rfl
  | succ count ih =>
    rw [pairwiseLoop, ih, List.range_succ_eq_map, List.foldl_cons, List.foldl_map]
    congr 1
    funext m i
    rw [show pos + 4 + 4 * i = pos + 4 * (i + 1) by omega]

/-- What setting up a connection takes from an element is what the whole parser gives. -/
theorem parseGroup_suiteList :
    ((parseGroup k ie left c x).ok,(parseGroup k ie left c x).ciphers) =
      parseSuites k.suite (ie.drop k.start) left c := by
  have hcount : ∀ i, le16At (ie.drop i) 0 = le16At ie i := fun i => by simp only [le16At, byteAt_drop, Nat.add_zero]
  unfold parseGroup parseSuites
  by_cases hleft : 4 ≤ left
  · simp only [hleft, if_true, List.drop_drop, hcount, show ¬(0 < left ∧ left < 4) by omega, if_false]
    unfold parsePairwise
    by_cases htwo : 2 ≤ left - 4
    · simp only [htwo, if_true]
      split
      · rfl
      · simp only [parseAkm_ok.1, parseAkm_ok.2, pairwiseLoop_foldl, Nat.add_assoc]
    · simp only [htwo, if_false]
      by_cases hone : left - 4 = 1
      · simp [hone]
      · simp [hone, parseAkm_ok.1, parseAkm_ok.2]
  · by_cases hpos : 0 < left
    · simp [hleft, hpos, show left < 4 by omega]
    · obtain rfl : left = 0 := by omega
      simp [parsePairwise, parseAkm_ok.1, parseAkm_ok.2]

theorem parseSecIe_suiteList (hlen : 2 ≤ ieLen) :
    ((parseSecIe k ie ieLen c x).ok,(parseSecIe k ie ieLen c x).ciphers) =
      if byteAt ie 0 ≠ k.id ∨ (byteAt ie 1).toNat ≠ (ieLen - 2) % 256 ∨
      slice ie 2 k.ouiType.length ≠ k.ouiType then (false,c)
      else parseSuites k.suite (ie.drop k.start) (ieLen - k.start) c := by
  have hcast : (ieLen + 254) % 256 = (ieLen - 2) % 256 := by omega
  unfold parseSecIe
  rw [← @parseGroup_suiteList k ie _ c x, if_neg (by omega), hcast]
  by_cases hid : byteAt ie 0 = k.id
  · by_cases hbyte : (byteAt ie 1).toNat = (ieLen - 2) % 256
    · by_cases houi : slice ie 2 k.ouiType.length = k.ouiType
      · simp [hid, hbyte, houi]
      · simp [hid, hbyte, houi]
    · simp [hid, hbyte]
  · simp [hid]

end Connect

namespace SecParse
variable {ie : List UInt8} {ieLen : ℕ} {c : Ciphers} {x : Option Bool}

theorem rtwParseWpaIe_eq (hlen : 2 ≤ ieLen) :
    ((rtwParseWpaIe ie ieLen c x).ok,(rtwParseWpaIe ie ieLen c x).ciphers) = Rtl8188fu.rtwParseWpaIe ie ieLen c :=
  parseSecIe_suiteList hlen

theorem rtwParseWpa2Ie_eq (hlen : 2 ≤ ieLen) :
    ((rtwParseWpa2Ie ie ieLen c x).ok,(rtwParseWpa2Ie ie ieLen c x).ciphers) = Rtl8188fu.rtwParseWpa2Ie ie ieLen c := by
  refine (parseSecIe_suiteList hlen).trans ?_
  simp [wpa2Kind, Rtl8188fu.rtwParseWpa2Ie]

end SecParse

/-- Every byte that is read is inside the array; and inside the element by its length byte, when the
array is no longer than an element can be. -/
def ReadsInside (ie : List UInt8) (ieLen : ℕ) (res : SecParse) : Prop :=
  ∀ r ∈ res.reads, r < ieLen ∧ (ieLen ≤ 257 → r < (byteAt ie 1).toNat + 2)

theorem readsInside_iff {k : SecKind} {ie : List UInt8} {ieLen : ℕ} {c : Ciphers} {x : Option Bool} :
    ReadsInside ie ieLen (parseSecIe k ie ieLen c x) ↔ HeaderInside k ie ieLen := by
  rw [← @parseSecIe_inside_iff k ie ieLen c x]
  exact ⟨fun h r hr => (h r hr).1,fun h r hr => ⟨h r hr,fun hlen => parseSecIe_declared hlen hr (h r hr)⟩⟩

/-- The parsers stay inside exactly when the header is inside as far as it is looked at. An element is
decoded exactly when it has a pairwise cipher and the 802.1X suite, if any, is the first AKM suite. -/
theorem sec_ies_decoded_iff (ie : List UInt8) (ieLen : ℕ) (c : Ciphers) (x : Option Bool) (wpa : SecElem wpaKind)
    (rsn : SecElem wpa2Kind) :
    (ReadsInside ie ieLen (SecParse.rtwParseWpaIe ie ieLen c x) ↔ HeaderInside wpaKind ie ieLen) ∧
    (ReadsInside ie ieLen (SecParse.rtwParseWpa2Ie ie ieLen c x) ↔ HeaderInside wpa2Kind ie ieLen) ∧
    (DecodesTo wpaKind wpa (SecParse.rtwParseWpaIe wpa.tlv.bytes wpa.tlv.bytes.length ⟨0,0⟩ (some false)) ↔
      wpa.pairwise ≠ [] ∧ OneXInFront wpaKind wpa) ∧
    (DecodesTo wpa2Kind rsn (SecParse.rtwParseWpa2Ie rsn.tlv.bytes rsn.tlv.bytes.length ⟨0,0⟩ (some false)) ↔
      rsn.pairwise ≠ [] ∧ OneXInFront wpa2Kind rsn) :=
  ⟨readsInside_iff,readsInside_iff,decodesTo_iff,decodesTo_iff⟩

/-- An element with CCMP and the AKM suites PSK and 802.1X, in this order -/
def pskOneXElem : SecElem wpa2Kind where
  version := 1
  group := ⟨[0x00,0x0f,0xac,4],rfl⟩
  pairwise := [⟨[0x00,0x0f,0xac,4],rfl⟩]
  akms := [⟨[0x00,0x0f,0xac,2],rfl⟩,⟨[0x00,0x0f,0xac,1],rfl⟩]
  rest := [0,0]
  short := by decide

theorem oneX_behind_psk_missed :
    ¬∀ e : SecElem wpa2Kind,
      DecodesTo wpa2Kind e (SecParse.rtwParseWpa2Ie e.tlv.bytes e.tlv.bytes.length ⟨0,0⟩ (some false)) := by
  intro h
  exact absurd ((h pskOneXElem).is8021x.mpr ⟨_,List.mem_cons_of_mem _ List.mem_cons_self,rfl⟩) (by decide)

end Rtl8188fu
