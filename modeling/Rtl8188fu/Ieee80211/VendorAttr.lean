import Rtl8188fu.Include.Wifi
import Rtl8188fu.Library.Walker

/-! # Attributes of the WPS, P2P and WFD elements

`rtw_get_wps_attr`, `rtw_get_p2p_attr` and `rtw_get_wfd_attr`. The length of an attribute with
its header is an `u16` in the source, so that a long one wraps. A place is an offset from the
start of the element.
-/
namespace Rtl8188fu
open Bytes

def WPS_OUI : List UInt8 := [0x00, 0x50, 0xf2, 0x04]
def P2P_OUI : List UInt8 := [0x50, 0x6f, 0x9a, 0x09]
def WFD_OUI : List UInt8 := [0x50, 0x6f, 0x9a, 0x0a]

/-- `attr_len`, an `u16` -/
def attrTotal (header dataLen : ℕ) : ℕ := (dataLen + header) % 65536

/-- The loop of `rtw_get_wps_attr`; `copy` when `buf_attr` is given -/
def wpsAttrWalker (copy : Bool) (wpsIe : List UInt8) (wpsIelen targetAttrId : ℕ) : Walker where
  turn a :=
    if a < wpsIelen then
      if be16At wpsIe a = targetAttrId then .hit
      else .goOn (a + attrTotal 4 (be16At wpsIe (a + 2)))
    else .stop
  reads a :=
    if a < wpsIelen then
      List.range' a 4 ++
        if be16At wpsIe a = targetAttrId ∧ copy = true then List.range' a (attrTotal 4 (be16At wpsIe (a + 2))) else []
    else []

/-- What the three searches begin with: the element must be a vendor one with this OUI, and the
loop starts behind it. With the attribute comes every offset that is read. -/
def vendorAttr (oui : List UInt8) (loop : Walker) (fuel : ℕ) (ie : List UInt8) : Option (Option ℕ × List ℕ) :=
  if byteAt ie 0 ≠ 0xdd then some (none,[0])
  else if slice ie 2 4 ≠ oui then some (none,0 :: List.range' 2 4)
  else (loop.run fuel 6).map fun r => (r.1,0 :: List.range' 2 4 ++ r.2)

/-- `rtw_get_wps_attr` with at most `fuel` turns -/
def rtwGetWpsAttr (fuel : ℕ) (copy : Bool) (wpsIe : List UInt8) (wpsIelen targetAttrId : ℕ) :
    Option (Option ℕ × List ℕ) :=
  vendorAttr WPS_OUI (wpsAttrWalker copy wpsIe wpsIelen targetAttrId) fuel wpsIe

/-- The loop that `rtw_get_p2p_attr` and `rtw_get_wfd_attr` share, with how they read the length -/
def attrWalker (get16 : List UInt8 → ℕ → ℕ) (copy : Bool) (ie : List UInt8) (ielen : ℕ)
    (targetAttrId : UInt8) :
    Walker where
  turn a :=
    if a + 3 ≤ ielen then
      if ielen < a + attrTotal 3 (get16 ie (a + 1)) then .stop
      else if byteAt ie a = targetAttrId then .hit
      else .goOn (a + attrTotal 3 (get16 ie (a + 1)))
    else .stop
  reads a :=
    if a + 3 ≤ ielen then
      List.range' a 3 ++
        if a + attrTotal 3 (get16 ie (a + 1)) ≤ ielen ∧ byteAt ie a = targetAttrId ∧ copy = true then
          List.range' a (attrTotal 3 (get16 ie (a + 1)))
        else []
    else []

def getAttr (oui : List UInt8) (get16 : List UInt8 → ℕ → ℕ) (fuel : ℕ) (copy : Bool) (ie : List UInt8)
    (ielen : ℕ)
    (targetAttrId : UInt8) : Option (Option ℕ × List ℕ) :=
  if ielen ≤ 6 then some (none,[]) else vendorAttr oui (attrWalker get16 copy ie ielen targetAttrId) fuel ie

/-- `rtw_get_p2p_attr` reads the length with `RTW_GET_LE16`. -/
def rtwGetP2pAttr := getAttr P2P_OUI le16At

/-- `rtw_get_wfd_attr` reads the length with `RTW_GET_BE16`. -/
def rtwGetWfdAttr := getAttr WFD_OUI be16At

/-- An attribute search returns, reads inside the element only, and what it returns is inside. -/
def AttrContained (search : ℕ → Option (Option ℕ × List ℕ)) (ielen header : ℕ)
    (dataLen : ℕ → ℕ) : Prop :=
  ∃ fuel r, search fuel = some r ∧ (∀ o ∈ r.2, o < ielen) ∧
    ∀ p, r.1 = some p → p + header + dataLen p ≤ ielen

/-- Every WPS attribute up to the one that is looked for has its header inside the element and
no length of 65532, and that one is inside. -/
def WpsAttrsFit (wpsIe : List UInt8) (wpsIelen targetAttrId : ℕ) : Prop :=
  ∀ a, Walker.Passed (fun a => a + attrTotal 4 (be16At wpsIe (a + 2)))
      (fun a => a < wpsIelen ∧ be16At wpsIe a ≠ targetAttrId) 6 a →
    a < wpsIelen → a + 4 ≤ wpsIelen ∧
      if be16At wpsIe a = targetAttrId then a + 4 + be16At wpsIe (a + 2) ≤ wpsIelen
        else be16At wpsIe (a + 2) ≠ 65532

/-- No attribute before the one that is looked for has a length of 65533, and that one is
inside although its length may wrap. -/
def AttrsFit (get16 : List UInt8 → ℕ → ℕ) (ie : List UInt8) (ielen : ℕ) (targetAttrId : UInt8) : Prop :=
  ∀ a, Walker.Passed (fun a => a + attrTotal 3 (get16 ie (a + 1)))
      (fun a => (a + 3 ≤ ielen ∧ a + attrTotal 3 (get16 ie (a + 1)) ≤ ielen) ∧
        byteAt ie a ≠ targetAttrId) 6 a →
    a + 3 ≤ ielen → a + attrTotal 3 (get16 ie (a + 1)) ≤ ielen →
      if byteAt ie a = targetAttrId then a + 3 + get16 ie (a + 1) ≤ ielen else get16 ie (a + 1) ≠ 65533

theorem attrTotal_eq_zero_iff {header dataLen : ℕ} (h : 0 < header) (hle : header < 65536) (hlen : dataLen < 65536) :
    attrTotal header dataLen = 0 ↔ dataLen = 65536 - header := by
  rw [attrTotal]
  omega

theorem attrTotal_le (header dataLen : ℕ) : attrTotal header dataLen ≤ header + dataLen := by
  rw [attrTotal, Nat.add_comm]
  exact Nat.mod_le _ _

/-- What stands before the loop needs the first byte and, in a vendor element, the OUI. -/
theorem vendorAttr_contained_iff {oui : List UInt8} {loop : Walker} {ie : List UInt8} {ielen header : ℕ}
    {dataLen : ℕ → ℕ} :
    AttrContained (fun fuel => vendorAttr oui loop fuel ie) ielen header dataLen ↔
      0 < ielen ∧ (byteAt ie 0 = 0xdd → 6 ≤ ielen ∧
        (slice ie 2 4 = oui → loop.Contained ielen (fun p => p + header + dataLen p ≤ ielen) 6)) := by
  by_cases h0 : byteAt ie 0 = 0xdd
  · by_cases houi : slice ie 2 4 = oui
    · have heq : ∀ fuel, vendorAttr oui loop fuel ie =
          (loop.run fuel 6).map fun r => (r.1,0 :: List.range' 2 4 ++ r.2) := by
        intro fuel
        rw [vendorAttr, if_neg (not_not_intro h0), if_neg (not_not_intro houi)]
      simp only [AttrContained, heq]
      constructor
      · rintro ⟨n,r,hr,hreads,hgood⟩
        obtain ⟨r',hr',rfl⟩ := Option.map_eq_some_iff.mp hr
        have h5 := hreads 5 (List.mem_append_left _ (by decide))
        refine ⟨by omega,fun _ => ⟨h5,fun _ => ⟨n,r',hr',?_,hgood⟩⟩⟩
        exact fun o ho => hreads o (List.mem_append_right _ ho)
      · rintro ⟨-,h⟩
        obtain ⟨h6,hloop⟩ := h h0
        obtain ⟨n,r,hr,hreads,hgood⟩ := hloop houi
        refine ⟨n,(r.1,0 :: List.range' 2 4 ++ r.2),Option.map_eq_some_iff.mpr ⟨r,hr,rfl⟩,?_,hgood⟩
        intro o ho
        rcases List.mem_append.mp ho with ho | ho
        · simp only [List.mem_cons, List.mem_range'_1] at ho
          omega
        · exact hreads o ho
    · have heq : ∀ fuel, vendorAttr oui loop fuel ie = some (none,0 :: List.range' 2 4) := by
        intro fuel
        rw [vendorAttr, if_neg (not_not_intro h0), if_pos houi]
      simp only [AttrContained, heq]
      constructor
      · rintro ⟨n,r,⟨⟩,hreads,-⟩
        have h5 := hreads 5 (by decide)
        exact ⟨by omega,fun _ => ⟨h5,fun h => absurd h houi⟩⟩
      · rintro ⟨-,h⟩
        have h6 := (h h0).1
        refine ⟨0,_,rfl,?_,nofun⟩
        intro o ho
        simp only [List.mem_cons, List.mem_range'_1] at ho
        omega
  · have heq : ∀ fuel, vendorAttr oui loop fuel ie = some (none,[0]) := by
      intro fuel
      rw [vendorAttr, if_pos h0]
    simp only [AttrContained, heq]
    constructor
    · rintro ⟨n,r,⟨⟩,hreads,-⟩
      exact ⟨hreads 0 List.mem_cons_self,fun h => absurd h h0⟩
    · rintro ⟨hpos,-⟩
      refine ⟨0,_,rfl,?_,nofun⟩
      intro o ho
      rw [List.mem_singleton] at ho
      omega

section Wps
variable {copy : Bool} {wpsIe : List UInt8} {wpsIelen targetAttrId : ℕ}

theorem wpsAttrWalker_goOn (b c : ℕ) :
    (wpsAttrWalker copy wpsIe wpsIelen targetAttrId).turn b = .goOn c ↔
      (b < wpsIelen ∧ be16At wpsIe b ≠ targetAttrId) ∧ c = b + attrTotal 4 (be16At wpsIe (b + 2)) := by
  simp only [wpsAttrWalker]
  split_ifs with hb ht
  · simp [ht]
  · simp [hb, ht, eq_comm]
  · simp [hb]

theorem wpsAttrWalker_sound_iff (a : ℕ) :
    (wpsAttrWalker copy wpsIe wpsIelen targetAttrId).Sound wpsIelen
        (fun p => p + 4 + be16At wpsIe (p + 2) ≤ wpsIelen) a ↔
      (a < wpsIelen → a + 4 ≤ wpsIelen ∧
        if be16At wpsIe a = targetAttrId then a + 4 + be16At wpsIe (a + 2) ≤ wpsIelen
        else be16At wpsIe (a + 2) ≠ 65532) := by
  have hlen := be16At_lt wpsIe (a + 2)
  have hzero := attrTotal_eq_zero_iff (show 0 < 4 by decide) (by decide) hlen
  have hle := attrTotal_le 4 (be16At wpsIe (a + 2))
  by_cases ha : a < wpsIelen
  · by_cases ht : be16At wpsIe a = targetAttrId
    · have hturn : (wpsAttrWalker copy wpsIe wpsIelen targetAttrId).turn a = .hit := by
        simp only [wpsAttrWalker, if_pos ha, if_pos ht]
      constructor
      · intro h _
        have hread := h.reads_lt (a + 3) (by simp [wpsAttrWalker, ha, List.mem_range'_1])
        rw [if_pos ht]
        exact ⟨hread,h.good hturn⟩
      · intro h
        obtain ⟨h4,hin⟩ := h ha
        rw [if_pos ht] at hin
        apply Walker.Sound.of_hit hturn _ hin
        intro o ho
        simp only [wpsAttrWalker, if_pos ha, List.mem_append, List.mem_range'_1] at ho
        split at ho
        · simp only [List.mem_range'_1] at ho
          omega
        · simp only [List.not_mem_nil, or_false] at ho
          omega
    · have hturn := (@wpsAttrWalker_goOn copy wpsIe wpsIelen targetAttrId a _).mpr ⟨⟨ha,ht⟩,rfl⟩
      constructor
      · intro h _
        have hread := h.reads_lt (a + 3) (by simp [wpsAttrWalker, ha, List.mem_range'_1])
        have hfwd := h.forward _ hturn
        rw [if_neg ht]
        exact ⟨hread,by omega⟩
      · intro h
        obtain ⟨h4,hne⟩ := h ha
        rw [if_neg ht] at hne
        apply Walker.Sound.of_goOn hturn
        · intro o ho
          simp only [wpsAttrWalker, if_pos ha, ht, false_and, if_false, List.append_nil, List.mem_range'_1] at ho
          omega
        · omega
  · have hturn : (wpsAttrWalker copy wpsIe wpsIelen targetAttrId).turn a = .stop := by
      simp only [wpsAttrWalker, if_neg ha]
    refine iff_of_true ?_ fun h => absurd h ha
    apply Walker.Sound.of_stop hturn
    intro o ho
    simp [wpsAttrWalker, ha] at ho

/-- `rtw_get_wps_attr` returns and stays inside exactly when the element has its first byte and,
being one of WPS, its OUI, and its attributes fit. -/
theorem rtwGetWpsAttr_contained_iff :
    AttrContained (fun fuel => rtwGetWpsAttr fuel copy wpsIe wpsIelen targetAttrId) wpsIelen 4
        (fun p => be16At wpsIe (p + 2)) ↔
      0 < wpsIelen ∧ (byteAt wpsIe 0 = 0xdd → 6 ≤ wpsIelen ∧
        (slice wpsIe 2 4 = WPS_OUI → WpsAttrsFit wpsIe wpsIelen targetAttrId)) := by
  have hcont := @Walker.contained_iff (wpsAttrWalker copy wpsIe wpsIelen targetAttrId) wpsIelen wpsIelen
    (fun p => p + 4 + be16At wpsIe (p + 2) ≤ wpsIelen)
    (fun b c hc => by have := (wpsAttrWalker_goOn b c).mp hc; omega) 6
  simp only [wpsAttrWalker_sound_iff, Walker.reach_iff_passed wpsAttrWalker_goOn] at hcont
  rw [WpsAttrsFit, ← hcont]
  exact vendorAttr_contained_iff

end Wps

section P2p
variable {get16 : List UInt8 → ℕ → ℕ} {oui : List UInt8} {copy : Bool} {ie : List UInt8} {ielen : ℕ}
variable {targetAttrId : UInt8}

theorem attrWalker_goOn (b c : ℕ) :
    (attrWalker get16 copy ie ielen targetAttrId).turn b = .goOn c ↔
      ((b + 3 ≤ ielen ∧ b + attrTotal 3 (get16 ie (b + 1)) ≤ ielen) ∧ byteAt ie b ≠ targetAttrId) ∧
        c = b + attrTotal 3 (get16 ie (b + 1)) := by
  simp only [attrWalker]
  split_ifs with hb hin ht
  · simp [Nat.not_le.mpr hin]
  · simp [ht]
  · simp [hb, ht, Nat.le_of_not_lt hin, eq_comm]
  · simp [hb]

theorem attrWalker_hit (b : ℕ) :
    (attrWalker get16 copy ie ielen targetAttrId).turn b = .hit ↔
      (b + 3 ≤ ielen ∧ b + attrTotal 3 (get16 ie (b + 1)) ≤ ielen) ∧ byteAt ie b = targetAttrId := by
  simp only [attrWalker]
  split_ifs with hb hin ht
  · simp [Nat.not_le.mpr hin]
  · simp [hb, ht, Nat.le_of_not_lt hin]
  · simp [ht]
  · simp [hb]

theorem attrWalker_sound_iff (hlen : ∀ p i, get16 p i < 65536) (a : ℕ) :
    (attrWalker get16 copy ie ielen targetAttrId).Sound ielen (fun p => p + 3 + get16 ie (p + 1) ≤ ielen) a ↔
      (a + 3 ≤ ielen → a + attrTotal 3 (get16 ie (a + 1)) ≤ ielen →
        if byteAt ie a = targetAttrId then a + 3 + get16 ie (a + 1) ≤ ielen else get16 ie (a + 1) ≠ 65533) := by
  have hzero := attrTotal_eq_zero_iff (show 0 < 3 by decide) (by decide) (hlen ie (a + 1))
  by_cases ha : a + 3 ≤ ielen
  · have hreads : ∀ o ∈ (attrWalker get16 copy ie ielen targetAttrId).reads a, o < ielen := by
      intro o ho
      simp only [attrWalker, if_pos ha, List.mem_append, List.mem_range'_1] at ho
      split at ho
      · simp only [List.mem_range'_1] at ho
        omega
      · simp only [List.not_mem_nil, or_false] at ho
        omega
    by_cases hin : a + attrTotal 3 (get16 ie (a + 1)) ≤ ielen
    · by_cases ht : byteAt ie a = targetAttrId
      · have hturn : (attrWalker get16 copy ie ielen targetAttrId).turn a = .hit := by
          simp only [attrWalker, if_pos ha, if_neg (Nat.not_lt.mpr hin), if_pos ht]
        rw [if_pos ht]
        exact ⟨fun h _ _ => h.good hturn,fun h => .of_hit hturn hreads (h ha hin)⟩
      · have hturn := (@attrWalker_goOn get16 copy ie ielen targetAttrId a _).mpr ⟨⟨⟨ha,hin⟩,ht⟩,rfl⟩
        rw [if_neg ht]
        constructor
        · intro h _ _
          have hfwd := h.forward _ hturn
          omega
        · intro h
          have hne := h ha hin
          exact .of_goOn hturn hreads (by omega)
    · have hturn : (attrWalker get16 copy ie ielen targetAttrId).turn a = .stop := by
        simp only [attrWalker, if_pos ha, if_pos (Nat.lt_of_not_le hin)]
      exact iff_of_true (.of_stop hturn hreads) fun _ h => absurd h hin
  · have hturn : (attrWalker get16 copy ie ielen targetAttrId).turn a = .stop := by
      simp only [attrWalker, if_neg ha]
    refine iff_of_true (.of_stop hturn ?_) fun h => absurd h ha
    intro o ho
    simp [attrWalker, ha] at ho

theorem getAttr_contained_iff (hlen : ∀ p i, get16 p i < 65536) :
    AttrContained (fun fuel => getAttr oui get16 fuel copy ie ielen targetAttrId) ielen 3
      (fun p => get16 ie (p + 1)) ↔
      (6 < ielen → byteAt ie 0 = 0xdd → slice ie 2 4 = oui → AttrsFit get16 ie ielen targetAttrId) := by
  have hcont := @Walker.contained_iff (attrWalker get16 copy ie ielen targetAttrId) ielen ielen
    (fun p => p + 3 + get16 ie (p + 1) ≤ ielen)
    (fun b c hc => by have := (attrWalker_goOn b c).mp hc; omega) 6
  simp only [attrWalker_sound_iff hlen, Walker.reach_iff_passed attrWalker_goOn] at hcont
  rw [AttrsFit, ← hcont]
  by_cases h6 : ielen ≤ 6
  · refine iff_of_true ⟨0,_,if_pos h6,nofun,nofun⟩ fun h => absurd h (Nat.not_lt.mpr h6)
  · have heq : ∀ fuel, getAttr oui get16 fuel copy ie ielen targetAttrId =
        vendorAttr oui (attrWalker get16 copy ie ielen targetAttrId) fuel ie := fun fuel => if_neg h6
    simp only [heq]
    rw [vendorAttr_contained_iff]
    constructor
    · exact fun h _ h0 houi => (h.2 h0).2 houi
    · exact fun h => ⟨by omega,fun h0 => ⟨by omega,h (by omega) h0⟩⟩

end P2p

/-- The three searches come back and stay inside exactly when no length on the way makes the
16-bit total zero, every header is inside, and so is the attribute that is found. -/
theorem attr_searches_contained_iff (copy : Bool) (ie : List UInt8) (ielen wpsAttrId : ℕ) (attrId : UInt8) :
    (AttrContained (fun fuel => rtwGetWpsAttr fuel copy ie ielen wpsAttrId) ielen 4 (fun p => be16At ie (p + 2)) ↔
      0 < ielen ∧ (byteAt ie 0 = 0xdd → 6 ≤ ielen ∧
        (slice ie 2 4 = WPS_OUI → WpsAttrsFit ie ielen wpsAttrId))) ∧
    (AttrContained (fun fuel => rtwGetP2pAttr fuel copy ie ielen attrId) ielen 3 (fun p => le16At ie (p + 1)) ↔
      (6 < ielen → byteAt ie 0 = 0xdd → slice ie 2 4 = P2P_OUI → AttrsFit le16At ie ielen attrId)) ∧
    (AttrContained (fun fuel => rtwGetWfdAttr fuel copy ie ielen attrId) ielen 3 (fun p => be16At ie (p + 1)) ↔
      (6 < ielen → byteAt ie 0 = 0xdd → slice ie 2 4 = WFD_OUI → AttrsFit be16At ie ielen attrId)) :=
  ⟨rtwGetWpsAttr_contained_iff,getAttr_contained_iff le16At_lt,getAttr_contained_iff be16At_lt⟩

/-- A P2P element with one attribute of the announced length 65533 -/
def p2pIeOfLongAttr : List UInt8 := [0xdd,7,0x50,0x6f,0x9a,0x09,2,0xfd,0xff]

theorem p2p_attr_search_never_returns :
    ¬∀ (copy : Bool) (ie : List UInt8) (ielen wpsAttrId : ℕ) (attrId : UInt8),
      AttrContained (fun fuel => rtwGetWpsAttr fuel copy ie ielen wpsAttrId) ielen 4 (fun p => be16At ie (p + 2)) ∧
      AttrContained (fun fuel => rtwGetP2pAttr fuel copy ie ielen attrId) ielen 3 (fun p => le16At ie (p + 1)) ∧
      AttrContained (fun fuel => rtwGetWfdAttr fuel copy ie ielen attrId) ielen 3 (fun p => be16At ie (p + 1)) := by
  intro h
  obtain ⟨-,⟨n,r,hr,-⟩,-⟩ := h false p2pIeOfLongAttr 9 0x1001 12
  have hstuck : (attrWalker le16At false p2pIeOfLongAttr 9 12).turn 6 = .goOn 6 := by decide
  have hnone : rtwGetP2pAttr n false p2pIeOfLongAttr 9 12 = none := by
    rw [rtwGetP2pAttr, getAttr, if_neg (by decide), vendorAttr, if_neg (by decide), if_neg (by decide),
      Walker.run_stuck hstuck n]
    rfl
  cases hnone.symm.trans hr

end Rtl8188fu
