import Rtl8188fu.Ieee80211.DelVendorIe
import Rtl8188fu.Library.Logged
import Rtl8188fu.Library.Records
import Rtl8188fu.Xmit.WlanHdr

/-! # Taking an attribute out of the P2P elements of a network

`rtw_bss_ex_del_p2p_attr` with `rtw_del_p2p_attr`. The places are offsets into `IEs`; what is logged are all
places that are read or written.
-/
namespace Rtl8188fu
open Bytes

/-- What these functions use of a `WLAN_BSSID_EX` -/
structure BssIes where
  /-- `Reserved[0]` -/
  reserved0 : UInt8
  ieLength : ℕ
  ies : List UInt8
deriving DecidableEq

def bssExFixedIeOffset (bssEx : BssIes) : ℕ := if bssEx.reserved0 = 2 then 0 else 12

def bssExTlvIesLen (bssEx : BssIes) : ℕ := uintSub bssEx.ieLength (bssExFixedIeOffset bssEx)

/-- The places that the loop of `rtw_get_p2p_ie` reads -/
def getP2pIeReads (inIe : List UInt8) (inLen : ℕ) : ℕ → ℕ → List ℕ
  | 0, _ => []
  | fuel + 1, cnt =>
    if cnt + 1 + 4 < inLen then
      if MAX_IE_SZ ≤ cnt + 1 + 4 then [cnt]
      else [cnt,cnt + 1] ++ (if byteAt inIe cnt = 0xdd then List.range' (cnt + 2) 4 else []) ++
        if byteAt inIe cnt = 0xdd ∧ slice inIe (cnt + 2) 4 = P2P_OUI then []
        else getP2pIeReads inIe inLen fuel (elemEnd inIe cnt)
    else []

/-- `rtw_get_p2p_ie(ies, ies_len, NULL, &ie_len_ori)`: the offset from `ies` on, and the length -/
def p2pIeFrom (m : List UInt8) (ies iesLen : ℕ) : Logged ℕ (Option (ℕ × ℕ)) :=
  ⟨(getP2pIeReads (m.drop ies) iesLen (iesLen + 1) 0).map (ies + ·),some (rtwGetP2pIe (m.drop ies) iesLen)⟩

/-- `rtw_get_p2p_attr(ie, ielen, attr_id, NULL, &target_attr_len)`: the offset from `ie` on -/
def p2pAttrFrom (m : List UInt8) (ie ielen : ℕ) (attrId : UInt8) : Logged ℕ (Option ℕ) :=
  ⟨((rtwGetP2pAttr (ielen + 1) false (m.drop ie) ielen attrId).map fun r => r.2.map (ie + ·)).getD [],
    (rtwGetP2pAttr (ielen + 1) false (m.drop ie) ielen attrId).map Prod.fst⟩

/-- `_rtw_memmove(dst, src, n)` and `_rtw_memset(dst + n, 0, gone)` -/
def moveDown (m : List UInt8) (dst src n gone : ℕ) : Logged ℕ (List UInt8) :=
  ⟨List.range' src n ++ List.range' dst n ++ List.range' (dst + n) gone,
    some (patch (patch m dst (slice m src n)) (dst + n) (List.replicate gone 0))⟩

def delP2pAttrLoop (ie : ℕ) (attrId : UInt8) : ℕ → List UInt8 → ℕ → Logged ℕ (List UInt8 × ℕ)
  | 0, _, _ => .stop
  | fuel + 1, m, ielen =>
    (p2pAttrFrom m ie ielen attrId).andThen fun
    | none => .ret (m,ielen)
    | some targetAttr =>
      let targetAttrLen := attrTotal 3 (le16At m (ie + targetAttr + 1))
      if targetAttrLen = 0 then .ret (m,ielen)
      else
        (moveDown m (ie + targetAttr) (ie + targetAttr + targetAttrLen) (uintSub ielen (targetAttr + targetAttrLen))
            targetAttrLen).andThen fun m =>
          (Logged.emit [ie + 1]).andThen fun _ =>
            delP2pAttrLoop ie attrId fuel (patch m (ie + 1) [byteAt m (ie + 1) - UInt8.ofNat targetAttrLen])
              (uintSub ielen targetAttrLen)

def rtwDelP2pAttr (m : List UInt8) (ie ielenOri : ℕ) (attrId : UInt8) : Logged ℕ (List UInt8 × ℕ) :=
  delP2pAttrLoop ie attrId (ielenOri + 1) m ielenOri

def bssExDelP2pAttrLoop (attrId : UInt8) : ℕ → BssIes → ℕ → ℕ → Logged ℕ BssIes
  | 0, _, _, _ => .stop
  | fuel + 1, bssEx, ies, iesLen =>
    (p2pIeFrom bssEx.ies ies iesLen).andThen fun
    | none => .ret bssEx
    | some (ie, ieLenOri) =>
      let ie := ies + ie
      let nextIeOri := ie + ieLenOri
      let remainLen := uintSub bssEx.ieLength nextIeOri
      (rtwDelP2pAttr bssEx.ies ie ieLenOri attrId).andThen fun (m, ieLen) =>
        if ieLen ≠ ieLenOri then
          (moveDown m (ie + ieLen) nextIeOri remainLen (uintSub ieLenOri ieLen)).andThen fun m =>
            bssExDelP2pAttrLoop attrId fuel
              { bssEx with ies := m, ieLength := uintSub bssEx.ieLength (uintSub ieLenOri ieLen) }
                (ie + ieLen) remainLen
        else bssExDelP2pAttrLoop attrId fuel { bssEx with ies := m } nextIeOri remainLen

def rtwBssExDelP2pAttr (bssEx : BssIes) (attrId : UInt8) : Logged ℕ BssIes :=
  bssExDelP2pAttrLoop attrId (bssEx.ieLength + 1) bssEx (bssExFixedIeOffset bssEx) (bssExTlvIesLen bssEx)

/-- An attribute of a P2P element -/
structure P2pAttr where
  id : UInt8
  body : List UInt8
  short : body.length < 65536

namespace P2pAttr

def bytes (a : P2pAttr) : List UInt8 := a.id :: (le16Bytes a.body.length ++ a.body)

def read (bs : List UInt8) : Option (P2pAttr × List UInt8) :=
  if 3 + le16At bs 1 ≤ bs.length then
    some (⟨byteAt bs 0,slice bs 3 (le16At bs 1),by have := le16At_lt bs 1; rw [length_slice]; omega⟩,
      bs.drop (3 + le16At bs 1))
  else none

theorem length_bytes (a : P2pAttr) : a.bytes.length = 3 + a.body.length := by
  simp only [bytes, List.length_cons, List.length_append, length_le16Bytes]
  omega

theorem le16At_bytes (a : P2pAttr) (rest : List UInt8) : le16At (a.bytes ++ rest) 1 = a.body.length := by
  have hlen := a.short
  rw [bytes, List.cons_append, List.append_assoc]
  simp only [le16At, byteAt, le16Bytes, List.cons_append, List.nil_append, List.getD_cons_succ, List.getD_cons_zero,
    UInt8.toNat_ofNat']
  omega

theorem read_bytes (a : P2pAttr) (rest : List UInt8) : read (a.bytes ++ rest) = some (a,rest) := by
  have hl := a.le16At_bytes rest
  have hlen := a.length_bytes
  have hslice : slice (a.bytes ++ rest) 3 a.body.length = a.body := List.take_left
  have hdrop : (a.bytes ++ rest).drop (3 + a.body.length) = rest := by rw [← hlen, List.drop_left]
  rw [read, if_pos (by rw [hl, List.length_append]; omega)]
  simp only [hl, hslice, hdrop]
  rfl

theorem bytes_of_read {bs rest : List UInt8} {a : P2pAttr} (h : read bs = some (a,rest)) : bs = a.bytes ++ rest := by
  rw [read] at h
  split at h
  · rename_i hle
    cases h
    match bs with
    | id :: bs =>
      have h2 : 2 ≤ bs.length := by rw [List.length_cons] at hle; omega
      have hdrop := @List.take_append_drop UInt8 2 bs
      have hl := @slice_eq_le16Bytes bs 0 h2
      rw [slice, List.drop_zero] at hl
      rw [hl] at hdrop
      change 3 + le16At bs 0 ≤ bs.length + 1 at hle
      have hbody : (slice (id :: bs) 3 (le16At bs 0)).length = le16At bs 0 :=
        length_slice_of_le (by rw [List.length_cons]; omega)
      have hrest : slice (id :: bs) 3 (le16At bs 0) ++ (id :: bs).drop (3 + le16At bs 0) = bs.drop 2 := by
        rw [slice, ← List.drop_drop]
        exact List.take_append_drop ..
      change id :: bs = id :: (le16Bytes (slice (id :: bs) 3 (le16At bs 0)).length ++ slice (id :: bs) 3
        (le16At bs 0)) ++
        (id :: bs).drop (3 + le16At bs 0)
      rw [hbody, List.cons_append, List.append_assoc, hrest, hdrop]
  · cases h

end P2pAttr

def p2pAttrFormat : RecordFormat UInt8 P2pAttr where
  bytes := P2pAttr.bytes
  read := P2pAttr.read
  read_bytes := P2pAttr.read_bytes
  bytes_of_read := P2pAttr.bytes_of_read
  pos := fun _ => Nat.succ_pos _

/-- No header in the element announces more than 65532 bytes. Those of the complete attributes cannot. -/
def HeadersShort (t : Tlv) : Prop :=
  ∀ as rest, p2pAttrFormat.Reads (t.body.drop 4) as rest → 3 ≤ rest.length → le16At rest 1 ≤ 65532

/-- `t'` is `t`, which loses the complete attributes with this number when it is a P2P element. -/
inductive AttrRemoved (attrId : UInt8) (t : Tlv) : Tlv → Prop
  | other (h : ¬IsVendor P2P_OUI t) : AttrRemoved attrId t t
  | p2p {t' : Tlv} {as : List P2pAttr} {rest : List UInt8} (h : IsVendor P2P_OUI t)
      (hreads : p2pAttrFormat.Reads (t.body.drop 4) as rest) (hid : t'.id = t.id)
      (hbody : t'.body = P2P_OUI ++ (p2pAttrFormat.flat (as.filter (·.id ≠ attrId)) ++ rest)) :
        AttrRemoved attrId t t'

/-- The information elements are these, behind the fixed fields. -/
structure BssIes.WellFormed (bssEx : BssIes) (fixed : List UInt8) (ts : List Tlv) (beyond : List UInt8) : Prop where
  ies : bssEx.ies = fixed ++ Tlv.flat ts ++ beyond
  size : bssEx.ies.length = MAX_IE_SZ
  ieLength : bssEx.ieLength = (fixed ++ Tlv.flat ts).length
  fixed : fixed.length = bssExFixedIeOffset bssEx
  headers : ∀ t ∈ ts, IsVendor P2P_OUI t → HeadersShort t

section Attr
variable {m ys rest : List UInt8} {p ielen fuel : ℕ} {attrId : UInt8} {a : P2pAttr} {as : List P2pAttr}

theorem attr_at (h : m.drop p = a.bytes ++ ys) : byteAt m p = a.id ∧ le16At m (p + 1) = a.body.length := by
  have h0 := byteAt_drop m p 0
  have h1 := byteAt_drop m p 1
  have h2 := byteAt_drop m p 2
  have hl := a.le16At_bytes ys
  rw [h] at h0 h1 h2
  rw [le16At] at hl ⊢
  exact ⟨h0.symm,by rw [← hl, h1, show byteAt m (p + 1 + 1) = _ from h2.symm]⟩

theorem attrTotal_attr (a : P2pAttr) (h : a.bytes.length < 65536) : attrTotal 3 a.body.length = a.bytes.length := by
  rw [a.length_bytes] at h ⊢
  rw [attrTotal, Nat.mod_eq_of_lt (by omega), Nat.add_comm]

theorem attrWalker_pass (h : m.drop p = a.bytes ++ ys) (hin : p + a.bytes.length ≤ ielen) (hlen : ielen < 65536)
    (hid : a.id ≠ attrId) : (attrWalker le16At false m ielen attrId).turn p = .goOn (p + a.bytes.length) := by
  obtain ⟨h0,h1⟩ := attr_at h
  have htotal := attrTotal_attr a (by omega)
  have h3 := a.length_bytes
  rw [attrWalker_goOn, h0, h1, htotal]
  exact ⟨⟨⟨by omega,hin⟩,hid⟩,rfl⟩

theorem attrWalker_found (h : m.drop p = a.bytes ++ ys) (hin : p + a.bytes.length ≤ ielen) (hlen : ielen < 65536)
    (hid : a.id = attrId) : (attrWalker le16At false m ielen attrId).turn p = .hit := by
  obtain ⟨h0,h1⟩ := attr_at h
  have htotal := attrTotal_attr a (by omega)
  have h3 := a.length_bytes
  rw [attrWalker_hit, h0, h1, htotal]
  exact ⟨⟨by omega,hin⟩,hid⟩

theorem attrWalker_reads_lt : ∀ o ∈ (attrWalker le16At false m ielen attrId).reads p, o < ielen := by
  intro o ho
  simp only [attrWalker] at ho
  split at ho
  · simp only [Bool.false_eq_true, and_false, if_false, List.append_nil, List.mem_range'_1] at ho
    omega
  · cases ho

theorem attrWalker_reach (h : m.drop p = p2pAttrFormat.flat as ++ ys)
    (hin : p + (p2pAttrFormat.flat as).length ≤ ielen)
    (hlen : ielen < 65536) (hids : ∀ a ∈ as, a.id ≠ attrId) :
    (attrWalker le16At false m ielen attrId).Reach p (p + (p2pAttrFormat.flat as).length) := by
  induction as generalizing p with
  | nil => exact .start
  | cons a as ih =>
    have hbytes : (p2pAttrFormat.flat (a :: as)).length = a.bytes.length + (p2pAttrFormat.flat as).length := by
      rw [RecordFormat.flat_cons, List.length_append]
      rfl
    rw [RecordFormat.flat_cons, List.append_assoc] at h
    have hnext : m.drop (p + a.bytes.length) = p2pAttrFormat.flat as ++ ys := by
      rw [← List.drop_drop, h]
      exact List.drop_left
    have hturn := attrWalker_pass h (by omega) hlen (hids a List.mem_cons_self)
    have hreach := ih hnext (by omega) fun b hb => hids b (List.mem_cons_of_mem _ hb)
    rw [hbytes, ← Nat.add_assoc]
    exact hreach.head hturn

/-- Behind the last complete attribute the walk stops. -/
theorem attrWalker_end (h : m.drop p = rest ++ ys) (hp : p + rest.length = ielen) (hstop : P2pAttr.read rest = none)
    (hshort : 3 ≤ rest.length → le16At rest 1 ≤ 65532) :
    (attrWalker le16At false m ielen attrId).turn p = .stop := by
  simp only [attrWalker]
  split
  · have hrest : 3 ≤ rest.length := by omega
    have hle : ¬3 + le16At rest 1 ≤ rest.length := by
      intro hle
      rw [P2pAttr.read, if_pos hle] at hstop
      cases hstop
    have hat : le16At m (p + 1) = le16At rest 1 := by
      have h1 := byteAt_drop m p 1
      have h2 := byteAt_drop m p 2
      rw [h, byteAt_append, if_pos (by omega)] at h1 h2
      rw [le16At, le16At, h1, h2]
    have htotal : attrTotal 3 (le16At rest 1) = le16At rest 1 + 3 := by
      have := hshort hrest
      rw [attrTotal, Nat.mod_eq_of_lt (by omega)]
    rw [hat, htotal, if_pos (by omega)]
  · rfl

/-- The bytes of a P2P element with any byte for its length -/
def p2pElemBytes (len : UInt8) (attrs : List UInt8) : List UInt8 := 0xdd :: len :: (P2P_OUI ++ attrs)

theorem length_p2pElemBytes (len : UInt8) (attrs : List UInt8) :
    (p2pElemBytes len attrs).length = 6 + attrs.length := by
  simp only [p2pElemBytes, P2P_OUI, List.length_cons, List.length_append, List.length_nil]
  omega

theorem drop_p2pElemBytes (len : UInt8) (attrs ys : List UInt8) :
    (p2pElemBytes len attrs ++ ys).drop 6 = attrs ++ ys := rfl

theorem rtwGetP2pAttr_run {len : UInt8} {attrs : List UInt8} {res : Option ℕ} (hm : m = p2pElemBytes len attrs ++ ys)
    (h6 : 6 < ielen)
    (h : (attrWalker le16At false m ielen attrId).Finds 6 res) :
    (rtwGetP2pAttr (ielen + 1) false m ielen attrId).map Prod.fst = some res := by
  have h0 : byteAt m 0 = 0xdd := by rw [hm]; rfl
  have houi : slice m 2 4 = P2P_OUI := by rw [hm]; rfl
  obtain ⟨reads,hr⟩ := @Walker.Finds.run _ 6 (ielen + 1) ielen _ h
    (fun b c hc => by have := (attrWalker_goOn b c).mp hc; omega) (Nat.succ_pos _) (by omega)
  rw [rtwGetP2pAttr, getAttr, if_neg (Nat.not_le.mpr h6), vendorAttr, if_neg (not_not_intro h0),
    if_neg (not_not_intro houi), hr]
  rfl

theorem p2pAttrFrom_reads (m : List UInt8) (ie ielen : ℕ) (attrId : UInt8) :
    (p2pAttrFrom m ie ielen attrId).All (· < ie + ielen) := by
  intro o ho
  simp only [p2pAttrFrom] at ho
  cases hr : rtwGetP2pAttr (ielen + 1) false (m.drop ie) ielen attrId with
  | none =>
    rw [hr] at ho
    cases ho
  | some r =>
    rw [hr] at ho
    obtain ⟨i,hi,rfl⟩ := List.mem_map.mp ho
    suffices hlt : i < ielen by omega
    rw [rtwGetP2pAttr, getAttr] at hr
    split at hr
    · cases hr
      cases hi
    · rename_i h6
      rw [vendorAttr] at hr
      split at hr
      · cases hr
        rw [List.mem_singleton] at hi
        omega
      · split at hr
        · cases hr
          simp only [List.mem_cons, List.mem_range'_1] at hi
          omega
        · obtain ⟨r',hr',rfl⟩ := Option.map_eq_some_iff.mp hr
          rcases List.mem_append.mp hi with hi | hi
          · simp only [List.mem_cons, List.mem_range'_1] at hi
            omega
          · exact Walker.reads_of_run (fun _ => attrWalker_reads_lt) hr' i hi

end Attr

section Search
variable {m ys rest : List UInt8} {ie ielen : ℕ} {attrId len : UInt8} {a : P2pAttr} {as bs : List P2pAttr}

theorem p2pAttrFrom_none (hm : m.drop ie = p2pElemBytes len (p2pAttrFormat.flat as ++ rest) ++ ys)
    (hie : ielen = 6 + (p2pAttrFormat.flat as ++ rest).length) (hlen : ielen < 65536) (hstop : P2pAttr.read rest = none)
    (hshort : 3 ≤ rest.length → le16At rest 1 ≤ 65532) (hids : ∀ a ∈ as, a.id ≠ attrId) :
    (p2pAttrFrom m ie ielen attrId).result = some none := by
  by_cases h6 : ielen ≤ 6
  · simp only [p2pAttrFrom, rtwGetP2pAttr, getAttr, if_pos h6]
    rfl
  · have hdrop : (m.drop ie).drop 6 = p2pAttrFormat.flat as ++ (rest ++ ys) := by
      rw [hm, drop_p2pElemBytes, List.append_assoc]
    rw [List.length_append] at hie
    have hreach := @attrWalker_reach (m.drop ie) (rest ++ ys) 6 ielen attrId as hdrop (by omega) hlen hids
    have hend : (m.drop ie).drop (6 + (p2pAttrFormat.flat as).length) = rest ++ ys := by
      rw [← List.drop_drop, hdrop, List.drop_left]
    apply rtwGetP2pAttr_run hm (Nat.lt_of_not_le h6)
    exact hreach.finds (.of_stop (attrWalker_end hend (by omega) hstop hshort))

theorem p2pAttrFrom_some (hm : m.drop ie = p2pElemBytes len (p2pAttrFormat.flat (as ++ a :: bs) ++ rest) ++ ys)
    (hie : ielen = 6 + (p2pAttrFormat.flat (as ++ a :: bs) ++ rest).length) (hlen : ielen < 65536) (hid : a.id = attrId)
    (hids : ∀ a ∈ as, a.id ≠ attrId) :
    (p2pAttrFrom m ie ielen attrId).result = some (some (6 + (p2pAttrFormat.flat as).length)) := by
  have h3 := a.length_bytes
  have hsplit : p2pAttrFormat.flat (as ++ a :: bs) ++ rest =
      p2pAttrFormat.flat as ++ (a.bytes ++ (p2pAttrFormat.flat bs ++ rest)) := by
    rw [RecordFormat.flat_append, RecordFormat.flat_cons, List.append_assoc, List.append_assoc]
    rfl
  rw [hsplit] at hm hie
  simp only [List.length_append] at hie
  have hdrop : (m.drop ie).drop 6 = p2pAttrFormat.flat as ++ (a.bytes ++ (p2pAttrFormat.flat bs ++ rest ++ ys)) := by
    rw [hm, drop_p2pElemBytes, List.append_assoc, List.append_assoc]
  have hreach := @attrWalker_reach (m.drop ie) _ 6 ielen attrId as hdrop (by omega) hlen hids
  have hend :
      (m.drop ie).drop (6 + (p2pAttrFormat.flat as).length) = a.bytes ++ (p2pAttrFormat.flat bs ++ rest ++ ys) := by
    rw [← List.drop_drop, hdrop, List.drop_left]
  apply rtwGetP2pAttr_run hm (by omega)
  exact hreach.finds (.of_hit (attrWalker_found hend (by omega) hlen hid))

end Search

def attrsKept (attrId : UInt8) (as : List P2pAttr) : List P2pAttr := as.filter (·.id ≠ attrId)

section Element
variable {pre rest beyond attrs more : List UInt8} {attrId len : UInt8} {a : P2pAttr} {as bs : List P2pAttr}
  {fuel : ℕ}

theorem p2pElemBytes_append (len : UInt8) (attrs more : List UInt8) :
    p2pElemBytes len (attrs ++ more) = p2pElemBytes len attrs ++ more := rfl

theorem patch_len (pre beyond attrs : List UInt8) (len n : UInt8) :
    patch (pre ++ p2pElemBytes len attrs ++ beyond) (pre.length + 1)
        [byteAt (pre ++ p2pElemBytes len attrs ++ beyond) (pre.length + 1) - n] =
      pre ++ p2pElemBytes (len - n) attrs ++ beyond := by
  have hat : byteAt (pre ++ p2pElemBytes len attrs ++ beyond) (pre.length + 1) = len := by
    rw [List.append_assoc, byteAt_append, if_neg (by omega), Nat.add_sub_cancel_left]
    rfl
  have hsplit :
      ∀ l, pre ++ p2pElemBytes l attrs ++ beyond = pre ++ [0xdd] ++ [l] ++ (P2P_OUI ++ attrs ++ beyond) := by
    intro l
    simp [p2pElemBytes]
  have hlen : (pre ++ [0xdd]).length = pre.length + 1 := by rw [List.length_append, List.length_singleton]
  rw [hat, hsplit, hsplit, ← hlen]
  exact patch_middle rfl

theorem moveDown_yields (a b c d : List UInt8) :
    (moveDown (a ++ (b ++ c) ++ d) a.length (a.length + b.length) c.length b.length).Yields
      (· < (a ++ (b ++ c)).length) (a ++ c ++ (List.replicate b.length 0 ++ d)) := by
  constructor
  · rw [moveDown, patch_cut]
  · intro o ho
    simp only [moveDown, List.mem_append, List.mem_range'_1] at ho
    simp only [List.length_append]
    omega

/-- The attribute that was found is taken out, and the element is that much shorter. -/
theorem delP2pAttrLoop_take {ielen : ℕ} (hie : ielen = 6 + (p2pAttrFormat.flat (as ++ a :: bs) ++ rest).length)
    (hlen : ielen < 258) (hid : a.id = attrId) (hids : ∀ a ∈ as, a.id ≠ attrId) {r : List UInt8 × ℕ}
    (h : (delP2pAttrLoop pre.length attrId fuel
        (pre ++ p2pElemBytes (len - UInt8.ofNat a.bytes.length) (p2pAttrFormat.flat (as ++ bs) ++ rest) ++
          (List.replicate a.bytes.length 0 ++ beyond)) (ielen - a.bytes.length)).Yields (· < pre.length + ielen) r) :
    (delP2pAttrLoop pre.length attrId (fuel + 1)
        (pre ++ p2pElemBytes len (p2pAttrFormat.flat (as ++ a :: bs) ++ rest) ++ beyond) ielen).Yields
      (· < pre.length + ielen) r := by
  have h3 := a.length_bytes
  let front := pre ++ p2pElemBytes len (p2pAttrFormat.flat as)
  let behind := p2pAttrFormat.flat bs ++ rest
  have hfront : front.length = pre.length + (6 + (p2pAttrFormat.flat as).length) := by
    rw [List.length_append, length_p2pElemBytes]
  have hsplit : p2pAttrFormat.flat (as ++ a :: bs) ++ rest = p2pAttrFormat.flat as ++ (a.bytes ++ behind) := by
    rw [RecordFormat.flat_append, RecordFormat.flat_cons, List.append_assoc, List.append_assoc]
    rfl
  have htotal : ielen = 6 + (p2pAttrFormat.flat as).length + (a.bytes.length + behind.length) := by
    rw [hie, hsplit, List.length_append, List.length_append, Nat.add_assoc]
  have hm : pre ++ p2pElemBytes len (p2pAttrFormat.flat (as ++ a :: bs) ++ rest) ++ beyond =
      front ++ (a.bytes ++ behind) ++ beyond := by
    rw [hsplit, p2pElemBytes_append, ← List.append_assoc pre]
  have hcut :
      pre ++ p2pElemBytes len (p2pAttrFormat.flat (as ++ bs) ++ rest) ++ (List.replicate a.bytes.length 0 ++ beyond) =
      front ++ behind ++ (List.replicate a.bytes.length 0 ++ beyond) := by
    rw [RecordFormat.flat_append, List.append_assoc (p2pAttrFormat.flat as), p2pElemBytes_append,
      ← List.append_assoc pre]
  have hfound :=
    @p2pAttrFrom_some (pre ++ p2pElemBytes len (p2pAttrFormat.flat (as ++ a :: bs) ++ rest) ++ beyond) beyond rest
    pre.length ielen attrId len a as bs (by rw [List.append_assoc, List.drop_left]) hie (by omega) hid hids
  have hat : le16At (front ++ (a.bytes ++ behind) ++ beyond) (front.length + 1) = a.body.length := by
    apply (@attr_at _ (behind ++ beyond) _ _ _).2
    rw [List.append_assoc, List.drop_left, List.append_assoc]
  have hlog :=
    p2pAttrFrom_reads (pre ++ p2pElemBytes len (p2pAttrFormat.flat (as ++ a :: bs) ++ rest) ++ beyond) pre.length ielen
    attrId
  rw [delP2pAttrLoop]
  apply Logged.Yields.andThen ⟨hfound,hlog⟩
  simp only []
  rw [hm, ← hfront, hat, attrTotal_attr a (by omega), if_neg (by omega), uintSub_of_le (by omega) (by omega),
    uintSub_of_le (by omega) (by omega), show ielen - (6 + (p2pAttrFormat.flat as).length + a.bytes.length) =
      behind.length by omega]
  have hmove := moveDown_yields front a.bytes behind beyond
  have hend : (front ++ (a.bytes ++ behind)).length = pre.length + ielen := by
    rw [List.length_append, hfront, List.length_append]
    omega
  rw [hend] at hmove
  apply hmove.andThen
  apply Logged.Yields.andThen (Logged.yields_emit (by simp; omega))
  rw [← hcut, patch_len]
  exact h

theorem exists_first_attr (h : ¬∀ a ∈ as, a.id ≠ attrId) :
    ∃ as' a bs, as = as' ++ a :: bs ∧ a.id = attrId ∧ ∀ b ∈ as', b.id ≠ attrId := by
  cases hf : as.find? (·.id = attrId) with
  | none => exact absurd (by simpa using hf) h
  | some a =>
    obtain ⟨ha,as',bs,rfl,has'⟩ := List.find?_eq_some_iff_append.mp hf
    exact ⟨as',a,bs,rfl,by simpa using ha,fun b hb => by simpa using has' b hb⟩

theorem attrsKept_remove (h : a.id = attrId) : attrsKept attrId (as ++ a :: bs) = attrsKept attrId (as ++ bs) := by
  simp [attrsKept, h]

theorem attrsKept_eq_self (h : ∀ a ∈ as, a.id ≠ attrId) : attrsKept attrId as = as :=
  List.filter_eq_self.mpr fun a ha => by simpa using h a ha

/-- The number of bytes that go -/
def attrsGone (attrId : UInt8) (as : List P2pAttr) : ℕ := (p2pAttrFormat.flat (as.filter (·.id = attrId))).length

theorem attrsGone_remove (h : a.id = attrId) :
    attrsGone attrId (as ++ a :: bs) = attrsGone attrId (as ++ bs) + a.bytes.length := by
  rw [attrsGone, attrsGone, List.filter_append, List.filter_append, List.filter_cons_of_pos (by simpa using h)]
  simp only [RecordFormat.flat_append, RecordFormat.flat_cons, List.length_append]
  change _ + (a.bytes.length + _) = _
  omega

theorem attrsGone_eq_zero (h : ∀ a ∈ as, a.id ≠ attrId) : attrsGone attrId as = 0 := by
  rw [attrsGone, List.filter_eq_nil_iff.mpr fun a ha => by simpa using h a ha]
  rfl

/-- `rtw_del_p2p_attr` takes out all complete attributes with the number. -/
theorem delP2pAttrLoop_yields (hlen : 6 + (p2pAttrFormat.flat as ++ rest).length < 258)
    (hstop : P2pAttr.read rest = none)
    (hshort : 3 ≤ rest.length → le16At rest 1 ≤ 65532) (hfuel : as.length < fuel) :
    (delP2pAttrLoop pre.length attrId fuel
        (pre ++ p2pElemBytes (UInt8.ofNat (4 + (p2pAttrFormat.flat as ++ rest).length))
        (p2pAttrFormat.flat as ++ rest) ++ beyond)
        (6 + (p2pAttrFormat.flat as ++ rest).length)).Yields
        (· < pre.length + (6 + (p2pAttrFormat.flat as ++ rest).length))
      (pre ++ p2pElemBytes (UInt8.ofNat (4 + (p2pAttrFormat.flat (attrsKept attrId as) ++ rest).length))
          (p2pAttrFormat.flat (attrsKept attrId as) ++ rest) ++ (List.replicate (attrsGone attrId as) 0 ++ beyond),
        6 + (p2pAttrFormat.flat (attrsKept attrId as) ++ rest).length) := by
  induction fuel generalizing as beyond with
  | zero => omega
  | succ fuel ih =>
    by_cases hids : ∀ a ∈ as, a.id ≠ attrId
    · have hnone := @p2pAttrFrom_none
        (pre ++ p2pElemBytes (UInt8.ofNat (4 + (p2pAttrFormat.flat as ++ rest).length))
          (p2pAttrFormat.flat as ++ rest) ++ beyond) beyond
        rest pre.length _ attrId _ as (by rw [List.append_assoc, List.drop_left]) rfl (by omega) hstop hshort hids
      rw [delP2pAttrLoop, attrsGone_eq_zero hids, attrsKept_eq_self hids]
      apply Logged.Yields.andThen ⟨hnone,p2pAttrFrom_reads _ _ _ _⟩
      exact Logged.yields_ret _
    · obtain ⟨as',a,bs,rfl,ha,has'⟩ := exists_first_attr hids
      have hflat : (p2pAttrFormat.flat (as' ++ a :: bs) ++ rest).length =
          (p2pAttrFormat.flat (as' ++ bs) ++ rest).length + a.bytes.length := by
        simp only [RecordFormat.flat_append, RecordFormat.flat_cons, List.length_append]
        change _ + (a.bytes.length + _) + _ = _
        omega
      have hstep := @ih (List.replicate a.bytes.length 0 ++ beyond) (as' ++ bs) (by omega) (by simp at hfuel ⊢; omega)
      have hbyte : UInt8.ofNat (4 + (p2pAttrFormat.flat (as' ++ a :: bs) ++ rest).length) - UInt8.ofNat a.bytes.length =
          UInt8.ofNat (4 + (p2pAttrFormat.flat (as' ++ bs) ++ rest).length) := by
        rw [hflat, ← Nat.add_assoc, UInt8.ofNat_add, UInt8.add_sub_cancel]
      have hrest : 6 + (p2pAttrFormat.flat (as' ++ a :: bs) ++ rest).length - a.bytes.length =
          6 + (p2pAttrFormat.flat (as' ++ bs) ++ rest).length := by
        omega
      have hzeros : List.replicate (attrsGone attrId (as' ++ bs))
          (0 : UInt8) ++ (List.replicate a.bytes.length 0 ++ beyond) =
          List.replicate (attrsGone attrId (as' ++ a :: bs)) 0 ++ beyond := by
        rw [attrsGone_remove ha, ← List.append_assoc, List.replicate_append_replicate]
      apply delP2pAttrLoop_take rfl hlen ha has'
      rw [hbyte, hrest, attrsKept_remove ha, ← hzeros]
      exact hstep.mono fun o ho => by omega

end Element

section Elem
variable {pre beyond : List UInt8} {attrId : UInt8} {t : Tlv}

theorem bytes_of_vendor (h : IsVendor P2P_OUI t) :
    t.body = P2P_OUI ++ t.body.drop 4 ∧ t.bytes = p2pElemBytes (UInt8.ofNat (4 + (t.body.drop 4).length))
    (t.body.drop 4) := by
  obtain ⟨hid,more,hbody⟩ := h
  have hdrop : t.body.drop 4 = more := by rw [← hbody]; rfl
  have hlen : t.body.length = 4 + more.length := by rw [← hbody, List.length_append]; rfl
  rw [hdrop]
  refine ⟨hbody.symm,?_⟩
  rw [Tlv.bytes, hid, hlen, ← hbody]
  rfl

theorem length_attrsKept (attrId : UInt8) (as : List P2pAttr) :
    (p2pAttrFormat.flat as).length = (p2pAttrFormat.flat (attrsKept attrId as)).length + attrsGone attrId as := by
  induction as with
  | nil => rfl
  | cons a as ih =>
    by_cases ha : a.id = attrId
    · have hkept := @attrsKept_remove attrId a [] as ha
      have hgone := @attrsGone_remove attrId a [] as ha
      simp only [List.nil_append] at hkept hgone
      rw [hkept, hgone, RecordFormat.flat_cons, List.length_append, ih]
      change a.bytes.length + _ = _
      omega
    · have hkept : attrsKept attrId (a :: as) = a :: attrsKept attrId as := List.filter_cons_of_pos (by simpa using ha)
      have hgone : attrsGone attrId (a :: as) = attrsGone attrId as := by
        rw [attrsGone, List.filter_cons_of_neg (by simpa using ha)]
        rfl
      rw [hkept, hgone, RecordFormat.flat_cons, RecordFormat.flat_cons, List.length_append, List.length_append, ih,
        Nat.add_assoc]

/-- What `rtw_del_p2p_attr` makes of an element that the search for P2P elements finds -/
theorem rtwDelP2pAttr_elem (attrId : UInt8) (pre beyond : List UInt8)
    (hfound : IsVendor P2P_OUI t ∨ t.body.length < 4)
    (hheaders : IsVendor P2P_OUI t → HeadersShort t) :
    ∃ t' gone, AttrRemoved attrId t t' ∧ t.bytes.length = t'.bytes.length + gone ∧
      (rtwDelP2pAttr (pre ++ t.bytes ++ beyond) pre.length t.bytes.length attrId).Yields
        (· < pre.length + t.bytes.length) (pre ++ t'.bytes ++ (List.replicate gone 0 ++ beyond),t'.bytes.length) := by
  by_cases ht : IsVendor P2P_OUI t
  · obtain ⟨as,rest,hreads⟩ := p2pAttrFormat.exists_reads (t.body.drop 4)
    obtain ⟨hbody,hbytes⟩ := bytes_of_vendor ht
    have hshort := hheaders ht as rest hreads
    have hlen := t.short
    rw [hreads.bytes] at hbody hbytes
    rw [hbody, List.length_append] at hlen
    change 4 + _ < 256 at hlen
    have hkept := length_attrsKept attrId as
    have hfew := p2pAttrFormat.length_le_flat as
    simp only [List.length_append] at hlen
    let t' : Tlv := ⟨0xdd,P2P_OUI ++ (p2pAttrFormat.flat (attrsKept attrId as) ++ rest),by
      rw [List.length_append, List.length_append]
      change 4 + _ < 256
      omega⟩
    have hbytes' : t'.bytes = p2pElemBytes (UInt8.ofNat (4 + (p2pAttrFormat.flat (attrsKept attrId as) ++ rest).length))
        (p2pAttrFormat.flat (attrsKept attrId as) ++ rest) := by
      have ht' : IsVendor P2P_OUI t' := ⟨rfl,List.prefix_append ..⟩
      exact (bytes_of_vendor ht').2
    refine ⟨t',attrsGone attrId as,.p2p ht hreads ht.1.symm rfl,?_,?_⟩
    · rw [hbytes, hbytes', length_p2pElemBytes, length_p2pElemBytes, List.length_append, List.length_append]
      omega
    · rw [hbytes, hbytes', length_p2pElemBytes, length_p2pElemBytes, rtwDelP2pAttr]
      apply delP2pAttrLoop_yields _ hreads.stops hshort
      · rw [List.length_append]
        omega
      · rw [List.length_append]
        omega
  · have hlt : t.body.length < 4 := hfound.resolve_left ht
    have hlen := t.length_bytes
    refine ⟨t,0,.other ht,rfl,?_⟩
    have hnone : (p2pAttrFrom (pre ++ t.bytes ++ beyond) pre.length t.bytes.length attrId).result = some none := by
      simp only [p2pAttrFrom, rtwGetP2pAttr, getAttr]
      rw [if_pos (by omega)]
      rfl
    rw [rtwDelP2pAttr, delP2pAttrLoop]
    apply Logged.Yields.andThen ⟨hnone,p2pAttrFrom_reads _ _ _ _⟩
    exact Logged.yields_ret _

end Elem

theorem getP2pIeReads_lt {inIe : List UInt8} {inLen fuel cnt : ℕ} :
    ∀ o ∈ getP2pIeReads inIe inLen fuel cnt, o < inLen := by
  induction fuel generalizing cnt with
  | zero => exact List.forall_mem_nil _
  | succ fuel ih =>
    intro o ho
    rw [getP2pIeReads] at ho
    split at ho
    · split at ho
      · rw [List.mem_singleton] at ho
        omega
      · rcases List.mem_append.mp ho with ho | ho
        · rcases List.mem_append.mp ho with ho | ho
          · simp only [List.mem_cons, List.not_mem_nil, or_false] at ho
            omega
          · split at ho
            · rw [List.mem_range'_1] at ho
              omega
            · cases ho
        · split at ho
          · cases ho
          · exact ih o ho
    · cases ho

theorem p2pIeFrom_reads (m : List UInt8) (ies iesLen : ℕ) : (p2pIeFrom m ies iesLen).All (· < ies + iesLen) := by
  intro o ho
  obtain ⟨i,hi,rfl⟩ := List.mem_map.mp ho
  have hlt : i < iesLen := getP2pIeReads_lt i hi
  omega

/-- The elements in front of the found one are not of P2P, and of the found one the whole is there. -/
theorem p2pIe_found {ts : List Tlv} {beyond : List UInt8} (hsize : (Tlv.flat ts).length ≤ MAX_IE_SZ) :
    (rtwGetP2pIe (Tlv.flat ts ++ beyond) (Tlv.flat ts).length = none ∧ ∀ t ∈ ts, ¬IsVendor P2P_OUI t) ∨
      ∃ pre t post, ts = pre ++ t :: post ∧ (∀ u ∈ pre, ¬IsVendor P2P_OUI u) ∧
        (IsVendor P2P_OUI t ∨ t.body.length < 4) ∧
        rtwGetP2pIe (Tlv.flat ts ++ beyond) (Tlv.flat ts).length = some ((Tlv.flat pre).length,t.bytes.length) := by
  have hfound :=
    @getVendorIe_flat P2P_OUI [] beyond ts rfl (by rw [List.append_nil]; exact Nat.lt_of_le_of_lt hsize (by decide))
  rw [List.append_nil] at hfound
  cases hget : getVendorIe P2P_OUI (Tlv.flat ts ++ beyond) (Tlv.flat ts).length with
  | none =>
    rw [hget] at hfound
    refine .inl ⟨hget,?_⟩
    by_contra h
    obtain ⟨pre,t,post,rfl,ht,-⟩ := exists_first_vendor h
    have hruns : RunsOui P2P_OUI (Tlv.flat (t :: post) ++ []) := by
      rw [Tlv.flat_cons, List.append_assoc]
      exact .of_vendor rfl ht _
    have h6 := hruns.1
    refine hfound pre (t :: post) rfl ?_ hruns
    rw [List.append_nil] at h6
    rw [Tlv.flat_append, List.length_append] at hsize
    omega
  | some r =>
    obtain ⟨p,n⟩ := r
    rw [hget] at hfound
    obtain ⟨pre,post,rfl,rfl,-,hruns,rfl,hfirst⟩ := hfound
    cases post with
    | nil => exact absurd hruns.1 (by decide)
    | cons t post =>
      refine .inr ⟨pre,t,post,rfl,not_vendor_of_first rfl hfirst,?_,?_⟩
      · by_cases ht : IsVendor P2P_OUI t
        · exact .inl ht
        · rw [Tlv.flat_cons, List.append_assoc] at hruns
          exact .inr (hruns.short ht).2.1
      · rw [byteAt_one, Nat.zero_add] at hget
        exact hget

section Bss
variable {attrId reserved0 : UInt8} {fuel : ℕ} {t t' : Tlv} {ts : List Tlv} {pre beyond : List UInt8}

/-- The network with these elements behind `pre` -/
def bssOf (reserved0 : UInt8) (pre : List UInt8) (ts : List Tlv) (beyond : List UInt8) : BssIes :=
  ⟨reserved0,(pre ++ Tlv.flat ts).length,pre ++ Tlv.flat ts ++ beyond⟩

/-- What comes behind the found element moves up when the element got shorter. -/
theorem bssExDelP2pAttrLoop_turn {front : List UInt8} {post : List Tlv} {gone : ℕ} {r : BssIes}
    (hsize : (front ++ t.bytes ++ Tlv.flat post).length ≤ MAX_IE_SZ) (hgone : t.bytes.length = t'.bytes.length + gone)
    (h : (bssExDelP2pAttrLoop attrId fuel (bssOf reserved0 (front ++ t'.bytes) post (List.replicate gone 0 ++ beyond))
      (front ++ t'.bytes).length (Tlv.flat post).length).Yields (· < (front ++ t.bytes ++ Tlv.flat post).length) r) :
    (if t'.bytes.length ≠ t.bytes.length then
        (moveDown (front ++ t'.bytes ++ (List.replicate gone 0 ++ (Tlv.flat post ++ beyond)))
        (front.length + t'.bytes.length)
            (front.length + t.bytes.length)
            (Tlv.flat post).length (uintSub t.bytes.length t'.bytes.length)).andThen fun m =>
          bssExDelP2pAttrLoop attrId fuel
            ⟨reserved0,uintSub (front ++ t.bytes ++ Tlv.flat post).length
            (uintSub t.bytes.length t'.bytes.length),m⟩
            (front.length + t'.bytes.length) (Tlv.flat post).length
      else
        bssExDelP2pAttrLoop attrId fuel
          ⟨reserved0,(front ++ t.bytes ++ Tlv.flat post).length,
            front ++ t'.bytes ++ (List.replicate gone 0 ++ (Tlv.flat post ++ beyond))⟩
          (front.length + t.bytes.length) (Tlv.flat post).length).Yields
      (· < (front ++ t.bytes ++ Tlv.flat post).length) r := by
  have hmax : MAX_IE_SZ = 768 := rfl
  have htotal :
      (front ++ t.bytes ++ Tlv.flat post).length = front.length + t.bytes.length + (Tlv.flat post).length := by
    rw [List.length_append, List.length_append]
  have hkept :
      (front ++ t'.bytes ++ Tlv.flat post).length = front.length + t'.bytes.length + (Tlv.flat post).length := by
    rw [List.length_append, List.length_append]
  have hfront : (front ++ t'.bytes).length = front.length + t'.bytes.length := List.length_append
  have hbuf : front ++ t'.bytes ++ (List.replicate gone 0 ++ Tlv.flat post) ++ beyond =
      front ++ t'.bytes ++ (List.replicate gone 0 ++ (Tlv.flat post ++ beyond)) := by
    simp only [List.append_assoc]
  rw [bssOf, hkept, hfront] at h
  split
  · have hmove := moveDown_yields (front ++ t'.bytes) (List.replicate gone 0) (Tlv.flat post) beyond
    have hend : (front ++ t'.bytes ++ (List.replicate gone 0 ++ Tlv.flat post)).length =
        (front ++ t.bytes ++ Tlv.flat post).length := by
      simp only [List.length_append, List.length_replicate]
      omega
    rw [hend, hbuf, hfront, List.length_replicate, Nat.add_assoc, ← hgone] at hmove
    rw [uintSub_of_le (by omega) (by omega), uintSub_of_le (by omega) (by omega), hgone,
      Nat.add_sub_cancel_left, ← hgone]
    apply hmove.andThen
    rw [htotal, show front.length + t.bytes.length + (Tlv.flat post).length - gone =
      front.length + t'.bytes.length + (Tlv.flat post).length by omega, ← htotal]
    exact h
  · rename_i hsame
    have hzero : gone = 0 := by omega
    subst hzero
    have hlen : t.bytes.length = t'.bytes.length := by omega
    rw [List.replicate_zero, List.nil_append] at h ⊢
    rw [htotal, hlen] at h ⊢
    rw [← List.append_assoc]
    exact h

theorem bssExDelP2pAttrLoop_yields (hsize : (pre ++ Tlv.flat ts).length ≤ MAX_IE_SZ)
    (hheaders : ∀ t ∈ ts, IsVendor P2P_OUI t → HeadersShort t) (hfuel : ts.length < fuel) :
    ∃ ts' gone, List.Forall₂ (AttrRemoved attrId) ts ts' ∧ (Tlv.flat ts).length = (Tlv.flat ts').length + gone ∧
      (bssExDelP2pAttrLoop attrId fuel (bssOf reserved0 pre ts beyond) pre.length (Tlv.flat ts).length).Yields
        (· < (pre ++ Tlv.flat ts).length) (bssOf reserved0 pre ts' (List.replicate gone 0 ++ beyond)) := by
  induction fuel generalizing pre ts beyond with
  | zero => omega
  | succ fuel ih =>
    have hmax : MAX_IE_SZ = 768 := rfl
    have hdrop : (bssOf reserved0 pre ts beyond).ies.drop pre.length = Tlv.flat ts ++ beyond := by
      rw [bssOf, List.append_assoc, List.drop_left]
    have hlog : (p2pIeFrom (bssOf reserved0 pre ts beyond).ies pre.length (Tlv.flat ts).length).All
        (· < (pre ++ Tlv.flat ts).length) := by
      rw [List.length_append]
      exact p2pIeFrom_reads _ _ _
    rcases @p2pIe_found ts beyond (by rw [List.length_append] at hsize; omega)
      with ⟨hnone,hother⟩ | ⟨pre',t,post,rfl,hother,ht,hsome⟩
    · refine ⟨ts,0,List.forall₂_same.mpr fun t ht => .other (hother t ht),rfl,?_⟩
      rw [bssExDelP2pAttrLoop]
      apply Logged.Yields.andThen ⟨by rw [p2pIeFrom, hdrop, hnone],hlog⟩
      exact Logged.yields_ret _
    · let front := pre ++ Tlv.flat pre'
      have hflat : pre ++ Tlv.flat (pre' ++ t :: post) = front ++ t.bytes ++ Tlv.flat post := by
        simp only [front, Tlv.flat_append, Tlv.flat_cons, List.append_assoc]
      obtain ⟨t',gone,hremoved,hgone,hdel⟩ := rtwDelP2pAttr_elem attrId front (Tlv.flat post ++ beyond) ht
        (hheaders t (by simp))
      have hsize' : (front ++ t'.bytes ++ Tlv.flat post).length ≤ MAX_IE_SZ := by
        rw [hflat] at hsize
        simp only [List.length_append] at hsize ⊢
        omega
      obtain ⟨post',gone',hpost,hgone',hrest⟩ :=
        @ih post (front ++ t'.bytes) (List.replicate gone 0 ++ beyond) hsize'
        (fun u hu => hheaders u (by simp [hu])) (by simp at hfuel; omega)
      refine ⟨pre' ++ t' :: post',gone + gone',?_,?_,?_⟩
      · exact List.rel_append (List.forall₂_same.mpr fun u hu => .other (hother u hu)) (.cons hremoved hpost)
      · simp only [Tlv.flat_append, Tlv.flat_cons, List.length_append]
        omega
      · have hbss : bssOf reserved0 pre (pre' ++ t :: post) beyond =
            ⟨reserved0,(front ++ t.bytes ++ Tlv.flat post).length,front ++ t.bytes ++
              (Tlv.flat post ++ beyond)⟩ := by
          rw [bssOf, hflat, ← List.append_assoc (front ++ t.bytes)]
        have hresult : bssOf reserved0 pre (pre' ++ t' :: post') (List.replicate (gone + gone') 0 ++ beyond) =
            bssOf reserved0 (front ++ t'.bytes) post'
              (List.replicate gone' 0 ++ (List.replicate gone 0 ++ beyond)) := by
          rw [bssOf, bssOf, ← List.append_assoc (List.replicate gone' 0), List.replicate_append_replicate,
            Nat.add_comm gone]
          simp only [front, Tlv.flat_append, Tlv.flat_cons, List.append_assoc]
        have hfront : pre.length + (Tlv.flat pre').length = front.length := List.length_append.symm
        have hlen :
            (front ++ t.bytes ++ Tlv.flat post).length = front.length + t.bytes.length + (Tlv.flat post).length := by
          rw [List.length_append, List.length_append]
        rw [hflat] at hsize hlog ⊢
        rw [hresult]
        rw [bssExDelP2pAttrLoop]
        apply Logged.Yields.andThen ⟨by rw [p2pIeFrom, hdrop, hsome],hlog⟩
        rw [hbss]
        simp only []
        rw [hfront]
        apply (hdel.mono fun o ho => by omega).andThen
        simp only []
        have hremain : uintSub (front ++ t.bytes ++ Tlv.flat post).length (front.length + t.bytes.length) =
            (Tlv.flat post).length := by
          rw [uintSub_of_le (by omega) (by omega)]
          omega
        rw [hremain]
        apply bssExDelP2pAttrLoop_turn hsize hgone
        apply hrest.mono
        intro o ho
        simp only [List.length_append] at ho hgone ⊢
        omega

variable {t'' : Tlv} {ts' ts'' : List Tlv}

/-- What can be read of a P2P element without the attributes -/
theorem reads_removed {as : List P2pAttr} {rest : List UInt8} (hreads : p2pAttrFormat.Reads (t.body.drop 4) as rest)
    (hbody : t'.body = P2P_OUI ++ (p2pAttrFormat.flat (attrsKept attrId as) ++ rest)) :
    p2pAttrFormat.Reads (t'.body.drop 4) (attrsKept attrId as) rest :=
  ⟨by rw [hbody]; rfl,hreads.stops⟩

theorem AttrRemoved.headers (h : AttrRemoved attrId t t') (hshort : IsVendor P2P_OUI t → HeadersShort t)
    (ht' : IsVendor P2P_OUI t') : HeadersShort t' := by
  cases h with
  | other ht => exact absurd ht' ht
  | p2p ht hreads hid hbody =>
    intro as rest has h3
    obtain ⟨-,rfl⟩ := has.unique (reads_removed hreads hbody)
    exact hshort ht _ _ hreads h3

theorem AttrRemoved.again (h : AttrRemoved attrId t t') (h' : AttrRemoved attrId t' t'') : t'' = t' := by
  cases h with
  | other ht =>
    cases h' with
    | other => rfl
    | p2p ht' => exact absurd ht' ht
  | @p2p _ as rest ht hreads hid hbody =>
    cases h' with
    | other => rfl
    | p2p ht' hreads' hid' hbody' =>
      obtain ⟨rfl,rfl⟩ := hreads'.unique (reads_removed hreads hbody)
      have htwice : (attrsKept attrId as).filter (·.id ≠ attrId) = attrsKept attrId as := by
        rw [attrsKept, List.filter_filter]
        simp
      rw [htwice] at hbody'
      have hsame : t''.body = t'.body := hbody'.trans hbody.symm
      cases t''
      cases t'
      cases hid'
      cases hsame
      rfl

theorem removed_again (h : List.Forall₂ (AttrRemoved attrId) ts ts')
    (h' : List.Forall₂ (AttrRemoved attrId) ts' ts'') :
    ts'' = ts' := by
  induction h generalizing ts'' with
  | nil =>
    cases h'
    rfl
  | cons hhead _ ih =>
    cases h' with
    | cons hhead' htail' => rw [hhead.again hhead', ih htail']

theorem removed_headers (h : List.Forall₂ (AttrRemoved attrId) ts ts')
    (hheaders : ∀ t ∈ ts, IsVendor P2P_OUI t → HeadersShort t) :
    ∀ t ∈ ts', IsVendor P2P_OUI t → HeadersShort t := by
  induction h with
  | nil => exact List.forall_mem_nil _
  | cons hhead _ ih =>
    rw [List.forall_mem_cons] at hheaders ⊢
    exact ⟨hhead.headers hheaders.1,ih hheaders.2⟩

theorem rtwBssExDelP2pAttr_yields {bssEx : BssIes} (attrId : UInt8) (h : bssEx.WellFormed pre ts beyond) :
    ∃ ts' gone, List.Forall₂ (AttrRemoved attrId) ts ts' ∧ (Tlv.flat ts).length = (Tlv.flat ts').length + gone ∧
      (rtwBssExDelP2pAttr bssEx attrId).Yields (· < bssEx.ieLength)
        (bssOf bssEx.reserved0 pre ts' (List.replicate gone 0 ++ beyond)) := by
  have hmax : MAX_IE_SZ = 768 := rfl
  have hbss : bssEx = bssOf bssEx.reserved0 pre ts beyond := by
    rw [bssOf, ← h.ies, ← h.ieLength]
  have hsize : (pre ++ Tlv.flat ts).length ≤ MAX_IE_SZ := by
    have hall := h.size
    rw [h.ies, List.length_append] at hall
    omega
  have hlen := h.ieLength
  have hmany := Tlv.length_le_flat ts
  rw [List.length_append] at hlen hsize
  have htlv : bssExTlvIesLen bssEx = (Tlv.flat ts).length := by
    rw [bssExTlvIesLen, ← h.fixed, uintSub_of_le (by omega) (by omega)]
    omega
  have hyields := @bssExDelP2pAttrLoop_yields attrId bssEx.reserved0 (bssEx.ieLength + 1) ts pre beyond
    (by rw [List.length_append]; omega) h.headers (by omega)
  rw [← hbss, ← h.ieLength, h.fixed, ← htlv] at hyields
  rw [← htlv]
  exact hyields

/-- The attributes with the number are taken out of the P2P elements, and nothing else changes; taking them out
again changes nothing. -/
theorem rtwBssExDelP2pAttr_exact {bssEx : BssIes} {fixed : List UInt8} (attrId : UInt8)
    (h : bssEx.WellFormed fixed ts beyond) :
    ∃ bssEx' ts' gone, (rtwBssExDelP2pAttr bssEx attrId).Yields (· < bssEx.ieLength) bssEx' ∧
      List.Forall₂ (AttrRemoved attrId) ts ts' ∧ bssEx'.reserved0 = bssEx.reserved0 ∧
      bssEx'.WellFormed fixed ts' (List.replicate gone 0 ++ beyond) ∧
      (rtwBssExDelP2pAttr bssEx' attrId).result = some bssEx' := by
  obtain ⟨ts',gone,hremoved,hgone,hyields⟩ := rtwBssExDelP2pAttr_yields attrId h
  have hsize := h.size
  have hwell : (bssOf bssEx.reserved0 fixed ts' (List.replicate gone 0 ++ beyond)).WellFormed fixed ts'
      (List.replicate gone 0 ++ beyond) := by
    refine ⟨rfl,?_,rfl,h.fixed,removed_headers hremoved h.headers⟩
    rw [← hsize, h.ies, bssOf]
    simp only [List.length_append, List.length_replicate]
    omega
  obtain ⟨ts'',gone',hagain,hgone',hyields'⟩ := rtwBssExDelP2pAttr_yields attrId hwell
  obtain rfl := removed_again hremoved hagain
  have hzero : gone' = 0 := by omega
  subst hzero
  exact ⟨_,ts'',gone,hyields,hremoved,rfl,hwell,hyields'.result⟩

end Bss

/-- A P2P element with two attributes of the number 15, one of them behind another attribute, and the start of a third
one of 512 bytes -/
def groupInfoElem : Tlv :=
  ⟨0xdd,P2P_OUI ++ [15,1,0,7,2,2,0,37,0,15,0,0,15,0,2,9],by decide⟩

def hiddenSsid : Tlv := ⟨0,[],Nat.zero_lt_succ 255⟩

def groupInfoBss : BssIes :=
  ⟨0,36,List.replicate 12 0 ++ Tlv.flat [hiddenSsid,groupInfoElem] ++ List.replicate 732 0⟩

theorem groupInfoElem_reads : p2pAttrFormat.Reads (groupInfoElem.body.drop 4)
    [⟨15,[7],by decide⟩,⟨2,[37,0],by decide⟩,⟨15,[],by decide⟩] [15,0,2,9] :=
  ⟨rfl,rfl⟩

theorem groupInfoBss_wellFormed :
    groupInfoBss.WellFormed (List.replicate 12 0) [hiddenSsid,groupInfoElem] (List.replicate 732 0) := by
  refine ⟨rfl,?_,rfl,rfl,?_⟩
  · simp only [groupInfoBss, List.length_append, List.length_replicate]
    rfl
  · intro t ht hvendor
    rcases List.mem_cons.mp ht with rfl | ht
    · exact absurd hvendor.1 (by decide)
    · obtain rfl := List.mem_singleton.mp ht
      intro as rest hreads _
      obtain ⟨-,rfl⟩ := hreads.unique groupInfoElem_reads
      decide

theorem group_info_removed :
    ∃ bssEx' ts' gone, (rtwBssExDelP2pAttr groupInfoBss 15).Yields (· < groupInfoBss.ieLength) bssEx' ∧
      List.Forall₂ (AttrRemoved 15) [hiddenSsid,groupInfoElem] ts' ∧ bssEx'.reserved0 = groupInfoBss.reserved0 ∧
      bssEx'.WellFormed (List.replicate 12 0) ts' (List.replicate gone 0 ++ List.replicate 732 0) ∧
      (rtwBssExDelP2pAttr bssEx' 15).result = some bssEx' :=
  rtwBssExDelP2pAttr_exact 15 groupInfoBss_wellFormed

end Rtl8188fu
