import Rtl8188fu.Ieee80211.GetIe

/-! # The information element parser

`rtw_ieee802_11_parse_elems`. An element pointer is an offset from the start of the buffer.
-/
namespace Rtl8188fu
open Bytes

/-- The pointers of `struct rtw_ieee802_11_elems` -/
inductive ElemKind where
  | ssid | suppRates | fhParams | dsParams | cfParams | tim | ibssParams | challenge | erpInfo | extSuppRates
  | wpaIe | rsnIe | wme | wmeTspec | wpsIe | powerCap | suppChannels | mdie | ftie | timeoutInt
  | htCapabilities | htOperation | vendorHtCap | vhtCapabilities | vhtOperation | vhtOpModeNotify
  deriving DecidableEq

/-- Each pointer with its length; `none` for `NULL` -/
abbrev Elems := ElemKind → Option (ℕ × ℕ)

inductive ParseRes where
  | ok | unknown | failed
  deriving DecidableEq

def OUI_MICROSOFT : ℕ := 0x0050f2
def OUI_BROADCOM : ℕ := 0x00904c
def VENDOR_HT_CAPAB_OUI_TYPE : UInt8 := 0x33

def rtwGetBe24 (a : List UInt8) : ℕ :=
  (byteAt a 0).toNat * 65536 + (byteAt a 1).toNat * 256 + (byteAt a 2).toNat

/-- `rtw_ieee802_11_parse_vendor_specific`: the pointer it sets, `none` for `-1` -/
def parseVendorSpecific (pos : List UInt8) (elen : ℕ) : Option ElemKind :=
  if elen < 4 then none
  else if rtwGetBe24 pos = OUI_MICROSOFT then
    match byteAt pos 3 with
    | 1 => some .wpaIe
    | 2 =>
      if elen < 5 then none
      else
        match byteAt pos 4 with
        | 0 | 1 => some .wme
        | 2 => some .wmeTspec
        | _ => none
    | 4 => some .wpsIe
    | _ => none
  else if rtwGetBe24 pos = OUI_BROADCOM then
    if byteAt pos 3 = VENDOR_HT_CAPAB_OUI_TYPE then some .vendorHtCap else none
  else none

def WLAN_EID_VENDOR_SPECIFIC : UInt8 := 221

/-- The pointer that is set for an element; `none` when it is counted as unknown -/
def parseElem (id : UInt8) (pos : List UInt8) (elen : ℕ) : Option ElemKind :=
  match id with
  | 0 => some .ssid
  | 1 => some .suppRates
  | 2 => some .fhParams
  | 3 => some .dsParams
  | 4 => some .cfParams
  | 5 => some .tim
  | 6 => some .ibssParams
  | 16 => some .challenge
  | 42 => some .erpInfo
  | 50 => some .extSuppRates
  | 221 => parseVendorSpecific pos elen
  | 48 => some .rsnIe
  | 33 => some .powerCap
  | 36 => some .suppChannels
  | 54 => some .mdie
  | 55 => some .ftie
  | 56 => some .timeoutInt
  | 45 => some .htCapabilities
  | 61 => some .htOperation
  | 191 => some .vhtCapabilities
  | 192 => some .vhtOperation
  | 199 => some .vhtOpModeNotify
  | _ => none

/-- The loop with `left` bytes from `pos` on -/
def parseElemsLoop (start : List UInt8) (left pos unknown : ℕ) (elems : Elems) : ParseRes × Elems :=
  if _h : 2 ≤ left then
    let id := byteAt start pos
    let elen := (byteAt start (pos + 1)).toNat
    let pos := pos + 2
    let left := left - 2
    if left < elen then (.failed, elems)
    else
      match parseElem id (start.drop pos) elen with
      | some k => parseElemsLoop start (left - elen) (pos + elen) unknown (Function.update elems k (some (pos, elen)))
      | none => parseElemsLoop start (left - elen) (pos + elen) (unknown + 1) elems
  else if left ≠ 0 then (.failed, elems)
  else if unknown ≠ 0 then (.unknown, elems)
  else (.ok, elems)
termination_by left

/-- `rtw_ieee802_11_parse_elems` of the buffer `start` -/
def rtwIeee80211ParseElems (start : List UInt8) : ParseRes × Elems :=
  parseElemsLoop start start.length 0 0 fun _ => none

/-- The pointer that an element belongs to -/
def elemKind (t : Tlv) : Option ElemKind := parseElem t.id t.body t.body.length

/-- A vendor element that `rtw_ieee802_11_parse_vendor_specific` rejects -/
def VendorRejected (t : Tlv) : Prop :=
  t.id = WLAN_EID_VENDOR_SPECIFIC ∧ parseVendorSpecific t.body t.body.length = none

theorem parseVendorSpecific_append (body rest : List UInt8) :
    parseVendorSpecific (body ++ rest) body.length = parseVendorSpecific body body.length := by
  have hbyte : ∀ i < body.length, byteAt (body ++ rest) i = byteAt body i := by
    intro i hi
    rw [byteAt, byteAt, List.getD_append _ _ _ _ hi]
  unfold parseVendorSpecific
  split
  · rfl
  · rename_i h4
    have houi : rtwGetBe24 (body ++ rest) = rtwGetBe24 body := by
      simp only [rtwGetBe24, hbyte 0 (by omega), hbyte 1 (by omega), hbyte 2 (by omega)]
    rw [houi, hbyte 3 (by omega)]
    by_cases h5 : body.length < 5
    · simp only [h5, ↓reduceIte]
    · rw [hbyte 4 (by omega)]

/-- What is done with an element depends on its own bytes only. -/
theorem parseElem_append (id : UInt8) (body rest : List UInt8) :
    parseElem id (body ++ rest) body.length = parseElem id body body.length := by
  unfold parseElem
  rw [parseVendorSpecific_append]

/-- A pointer is at the body of the last element of its kind, or `NULL` when there is none. -/
def PointsToLast (ts : List Tlv) (k : ElemKind) : Option (ℕ × ℕ) → Prop
  | none => ∀ t ∈ ts, elemKind t ≠ some k
  | some (p, n) => ∃ pre t post, ts = pre ++ t :: post ∧ elemKind t = some k ∧
      (∀ u ∈ post, elemKind u ≠ some k) ∧ p = (Tlv.flat pre).length + 2 ∧ n = t.body.length

/-- The result of the parser for the elements that it finds -/
def parseRes (unknown : ℕ) (ts : List Tlv) (rest : List UInt8) : ParseRes :=
  if rest ≠ [] then .failed
  else if unknown + ts.countP (fun t => elemKind t = none) ≠ 0 then .unknown
  else .ok

section Step
variable {ts : List Tlv} {t : Tlv} {k : ElemKind} {o : Option (ℕ × ℕ)}

theorem PointsToLast.same (h : PointsToLast ts k o) (ht : elemKind t ≠ some k) : PointsToLast (ts ++ [t]) k o := by
  cases o with
  | none =>
    intro u hu
    rcases List.mem_append.mp hu with hu | hu
    · exact h u hu
    · rwa [List.mem_singleton.mp hu]
  | some r =>
    obtain ⟨pre,v,post,rfl,hv,hpost,hp,hn⟩ := h
    refine ⟨pre,v,post ++ [t],by simp,hv,?_,hp,hn⟩
    intro u hu
    rcases List.mem_append.mp hu with hu | hu
    · exact hpost u hu
    · rwa [List.mem_singleton.mp hu]

theorem pointsToLast_new (ht : elemKind t = some k) :
    PointsToLast (ts ++ [t]) k (some ((Tlv.flat ts).length + 2,t.body.length)) :=
  ⟨ts,t,[],rfl,ht,by simp,rfl,rfl⟩

theorem pointsToLast_update {elems : Elems} {j : ElemKind} (h : ∀ k, PointsToLast ts k (elems k))
    (ht : elemKind t = some j) (k : ElemKind) :
    PointsToLast (ts ++ [t]) k (Function.update elems j (some ((Tlv.flat ts).length + 2,t.body.length)) k) := by
  by_cases hk : k = j
  · rw [hk, Function.update_self]
    exact pointsToLast_new ht
  · rw [Function.update_of_ne hk]
    refine (h k).same ?_
    rw [ht]
    exact fun hj => hk (Option.some.inj hj).symm

end Step

/-- The loop from behind the elements `done` on -/
theorem parseElemsLoop_reads {ts done : List Tlv} {bs rest : List UInt8} {unknown : ℕ} {elems : Elems}
    (hr : Tlv.Reads bs ts rest) (h : ∀ k, PointsToLast done k (elems k)) :
    (parseElemsLoop (Tlv.flat done ++ bs) bs.length (Tlv.flat done).length unknown elems).1 =
      parseRes unknown ts rest ∧
      ∀ k, PointsToLast (done ++ ts) k
        ((parseElemsLoop (Tlv.flat done ++ bs) bs.length (Tlv.flat done).length unknown elems).2 k) := by
  induction ts generalizing done bs unknown elems with
  | nil =>
    obtain rfl : bs = rest := hr.bytes
    have hstop := hr.stops
    rw [parseElemsLoop, List.append_nil]
    rcases bs with _ | ⟨id,_ | ⟨len,left⟩⟩
    · rw [dif_neg (by simp), if_neg (not_not_intro List.length_nil), parseRes, if_neg (not_not_intro rfl)]
      by_cases hu : unknown = 0
      · simpa [hu] using h
      · simpa [hu] using h
    · rw [dif_neg (by simp), if_pos (by simp), parseRes, if_pos (by simp)]
      exact ⟨rfl,h⟩
    · have hlong : left.length < len.toNat := by
        rw [Tlv.read] at hstop
        split at hstop
        · cases hstop
        · omega
      have hlen : byteAt (Tlv.flat done ++ id :: len :: left) ((Tlv.flat done).length + 1) = len := by simp [byteAt]
      rw [dif_pos (by simp)]
      dsimp only
      rw [hlen, if_pos (by simpa using hlong), parseRes, if_pos (by simp)]
      exact ⟨rfl,h⟩
  | cons t ts ih =>
    obtain rfl : bs = t.bytes ++ (Tlv.flat ts ++ rest) := by rw [hr.bytes, Tlv.flat_cons, List.append_assoc]
    have hmore : Tlv.Reads (Tlv.flat ts ++ rest) ts rest := ⟨rfl,hr.stops⟩
    obtain ⟨hid,hlen,hbody⟩ := byteAt_tlv (Tlv.flat done) t (Tlv.flat ts ++ rest)
    have hleft : (t.bytes ++ (Tlv.flat ts ++ rest)).length - 2 - t.body.length = (Tlv.flat ts ++ rest).length := by
      rw [List.length_append, Tlv.length_bytes]
      omega
    have hpos : (Tlv.flat done).length + 2 + t.body.length = (Tlv.flat (done ++ [t])).length := by
      rw [Tlv.flat_append, List.length_append, Tlv.flat_cons, Tlv.flat_nil, List.append_nil, Tlv.length_bytes]
      omega
    have hbytes :
        Tlv.flat done ++ (t.bytes ++ (Tlv.flat ts ++ rest)) = Tlv.flat (done ++ [t]) ++ (Tlv.flat ts ++ rest) := by
      simp
    have hdone : done ++ t :: ts = done ++ [t] ++ ts := by simp
    rw [parseElemsLoop, dif_pos (by rw [List.length_append, Tlv.length_bytes]; omega)]
    dsimp only
    rw [hlen, hid, hbody, hleft, hpos, hbytes, if_neg (by rw [List.length_append, Tlv.length_bytes]; omega),
      parseElem_append, hdone, ← elemKind]
    cases hk : elemKind t with
    | some k =>
      obtain ⟨hres,hpts⟩ := @ih _ _ unknown _ hmore (pointsToLast_update h hk)
      refine ⟨hres.trans ?_,hpts⟩
      rw [parseRes, parseRes, List.countP_cons_of_neg (by simp [hk])]
    | none =>
      obtain ⟨hres,hpts⟩ :=
        @ih _ _ (unknown + 1) _ hmore (fun k => (h k).same (hk.trans_ne (Option.some_ne_none k).symm))
      refine ⟨hres.trans ?_,hpts⟩
      rw [parseRes, parseRes, List.countP_cons_of_pos (by simp [hk]), Nat.add_right_comm, Nat.add_assoc]

theorem parseElems_reads {start rest : List UInt8} {ts : List Tlv} (hr : Tlv.Reads start ts rest) :
    (rtwIeee80211ParseElems start).1 = parseRes 0 ts rest ∧
      ∀ k, PointsToLast ts k ((rtwIeee80211ParseElems start).2 k) :=
  @parseElemsLoop_reads ts [] start rest 0 (fun _ => none) hr (fun _ _ ht => by cases ht)

/-- The parser is exact: it records the last element of each kind among the complete elements
of the buffer, and it fails exactly when something is left behind these. -/
theorem parse_elems_exact (start : List UInt8) :
    ∃ ts rest, Tlv.Reads start ts rest ∧ (∀ k, PointsToLast ts k ((rtwIeee80211ParseElems start).2 k)) ∧
      (∀ k p n, (rtwIeee80211ParseElems start).2 k = some (p,n) → p + n ≤ start.length) ∧
      ((rtwIeee80211ParseElems start).1 = .failed ↔ ∀ us, start ≠ Tlv.flat us) ∧
      ((rtwIeee80211ParseElems start).1 = .unknown ↔ start = Tlv.flat ts ∧ ∃ t ∈ ts, elemKind t = none) := by
  obtain ⟨ts,rest,hr⟩ := Tlv.exists_reads start
  obtain ⟨hres,hpts⟩ := parseElems_reads hr
  have hcomplete : rest = [] ↔ start = Tlv.flat ts := by
    rw [hr.bytes]
    exact List.append_right_eq_self.symm
  refine ⟨ts,rest,hr,hpts,?_,?_,?_⟩
  · intro k p n hk
    have hp := hpts k
    rw [hk] at hp
    obtain ⟨pre,t,post,rfl,-,-,rfl,rfl⟩ := hp
    rw [hr.bytes, Tlv.flat_append, Tlv.flat_cons, List.length_append, List.length_append, List.length_append,
      Tlv.length_bytes]
    omega
  · rw [hres, parseRes]
    constructor
    · intro hfail us hus
      have hall : Tlv.Reads start us [] := ⟨hus.trans (List.append_nil _).symm,Tlv.read_nil⟩
      have hun := (hr.unique hall).2
      rw [if_neg (not_not_intro hun)] at hfail
      split at hfail <;> cases hfail
    · intro hus
      rw [if_pos (fun hnil => hus ts (hcomplete.mp hnil))]
  · rw [hres, parseRes, ← hcomplete]
    by_cases hrest : rest = []
    · rw [if_neg (not_not_intro hrest), Nat.zero_add]
      by_cases hc : ts.countP (fun t => elemKind t = none) = 0
      · rw [if_neg (not_not_intro hc)]
        rw [List.countP_eq_zero] at hc
        refine ⟨nofun,?_⟩
        rintro ⟨-,t,ht,hnone⟩
        exact absurd (decide_eq_true hnone) (hc t ht)
      · rw [if_pos hc]
        obtain ⟨t,ht,hnone⟩ := List.countP_pos_iff.mp (Nat.pos_of_ne_zero hc)
        exact ⟨fun _ => ⟨hrest,t,ht,of_decide_eq_true hnone⟩,fun _ => rfl⟩
    · rw [if_pos hrest]
      exact ⟨nofun,fun h => absurd h.1 hrest⟩

/-- A vendor element that is too short for its type is passed over like an unknown one. -/
theorem short_vendor_element_not_failed :
    (∃ t, [221, 0] = Tlv.flat [t] ∧ VendorRejected t) ∧ (rtwIeee80211ParseElems [221, 0]).1 ≠ .failed := by
  refine ⟨⟨⟨221,[],by decide⟩,rfl,rfl,rfl⟩,?_⟩
  have hr : Tlv.Reads [221, 0] [⟨221,[],by decide⟩] [] := ⟨rfl,rfl⟩
  rw [(parseElems_reads hr).1]
  decide

end Rtl8188fu
