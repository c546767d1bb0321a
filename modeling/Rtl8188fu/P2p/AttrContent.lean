import Rtl8188fu.Library.Logged
import Rtl8188fu.P2p.PsSchedule

/-! # Copying the content of WPS and P2P attributes

`rtw_get_wps_attr_content` and `rtw_get_p2p_attr_content` copy as many bytes as the attribute announces; the
number of bytes is an `uint` that they make of an `u16`.
-/
namespace Rtl8188fu
open Bytes

def P2P_ATTR_STATUS : UInt8 := 0x00
def P2P_ATTR_CAPABILITY : UInt8 := 0x02
def P2P_ATTR_DEVICE_ID : UInt8 := 0x03
def P2P_ATTR_GO_INTENT : UInt8 := 0x04
def P2P_ATTR_LISTEN_CH : UInt8 := 0x06
def P2P_ATTR_INTENTED_IF_ADDR : UInt8 := 0x09
def P2P_ATTR_MANAGEABILITY : UInt8 := 0x0a
def P2P_ATTR_CH_LIST : UInt8 := 0x0b
def P2P_ATTR_DEVICE_INFO : UInt8 := 0x0d
def P2P_ATTR_GROUP_ID : UInt8 := 0x0f
def P2P_ATTR_OPERATING_CH : UInt8 := 0x11

def WPS_ATTR_CONF_METHOD : ℕ := 0x1008
def WPS_ATTR_DEVICE_NAME : ℕ := 0x1011
def WPS_ATTR_DEVICE_PWID : ℕ := 0x1012

/-- The memory from a vendor element on, and the length that its header announces -/
structure VendorElem where
  mem : List UInt8
  len : ℕ

/-- `attr_len - header` as an `uint` -/
def contentLen (header dataLen : ℕ) : ℕ := (attrTotal header dataLen + 2 ^ 32 - header) % 2 ^ 32

/-- What a search for an attribute comes to: `none` when it never returns -/
def attrContent (mem : List UInt8) (header : ℕ) (dataLen : ℕ → ℕ) (search : Option (Option ℕ × List ℕ)) :
    Option (Option (List UInt8)) :=
  search.map fun r => r.1.bind fun p =>
    if attrTotal header (dataLen p) = 0 then none else some (readBytes mem (p + header) (contentLen header (dataLen p)))

/-- The content that `rtw_get_p2p_attr_content` copies -/
def p2pContent (e : VendorElem) (id : UInt8) : Option (Option (List UInt8)) :=
  attrContent e.mem 3 (fun p => le16At e.mem (p + 1)) (rtwGetP2pAttr (e.len + 1) false e.mem e.len id)

/-- The content that `rtw_get_wps_attr_content` copies -/
def wpsContent (e : VendorElem) (id : ℕ) : Option (Option (List UInt8)) :=
  attrContent e.mem 4 (fun p => be16At e.mem (p + 2)) (rtwGetWpsAttr (e.len + 1) false e.mem e.len id)

/-- The first attribute with this number is at `p`. -/
def P2pAttrAt (e : VendorElem) (id : UInt8) (p : ℕ) : Prop :=
  (6 < e.len ∧ byteAt e.mem 0 = 0xdd ∧ slice e.mem 2 4 = P2P_OUI) ∧
    Walker.Passed (fun a => a + attrTotal 3 (le16At e.mem (a + 1)))
      (fun a => (a + 3 ≤ e.len ∧ a + attrTotal 3 (le16At e.mem (a + 1)) ≤ e.len) ∧
        byteAt e.mem a ≠ id) 6 p ∧
    (p + 3 ≤ e.len ∧ p + attrTotal 3 (le16At e.mem (p + 1)) ≤ e.len) ∧ byteAt e.mem p = id

def WpsAttrAt (e : VendorElem) (id p : ℕ) : Prop :=
  (byteAt e.mem 0 = 0xdd ∧ slice e.mem 2 4 = WPS_OUI) ∧
    Walker.Passed (fun a => a + attrTotal 4 (be16At e.mem (a + 2)))
      (fun a => a < e.len ∧ be16At e.mem a ≠ id) 6 p ∧
    p < e.len ∧ be16At e.mem p = id

/-- The attribute, where there is one, announces `lo` to `hi` bytes. One of 65533 bytes counts as absent. -/
def P2pAttrLens (e : VendorElem) (id : UInt8) (lo hi : ℕ) : Prop :=
  ∀ p, P2pAttrAt e id p → le16At e.mem (p + 1) = 65533 ∨ lo ≤ le16At e.mem (p + 1) ∧
    le16At e.mem (p + 1) ≤ hi

/-- One of 65532 bytes counts as absent. -/
def WpsAttrLens (e : VendorElem) (id lo hi : ℕ) : Prop :=
  ∀ p, WpsAttrAt e id p → be16At e.mem (p + 2) = 65532 ∨ lo ≤ be16At e.mem (p + 2) ∧
    be16At e.mem (p + 2) ≤ hi

section
variable {e : VendorElem} {lo hi : ℕ}

theorem contentLen_between {header d : ℕ} (hheader : 0 < header) (hd : d < 65536)
    (hhi : hi + header < 65536) : lo ≤ contentLen header d ∧ contentLen header d ≤ hi ↔
    lo ≤ d ∧ d ≤ hi := by
  unfold contentLen attrTotal
  omega

theorem vendorAttr_found_iff {oui : List UInt8} {loop : Walker} {fuel p : ℕ} :
    (∃ reads, vendorAttr oui loop fuel e.mem = some (some p,reads)) ↔
      (byteAt e.mem 0 = 0xdd ∧ slice e.mem 2 4 = oui) ∧ ∃ reads, loop.run fuel 6 = some (some p,reads) := by
  unfold vendorAttr
  split_ifs with h0 houi
  · simp [h0]
  · simp [houi]
  · rw [not_not] at h0 houi
    simp [h0, houi, Option.map_eq_some_iff]

theorem rtwGetP2pAttr_found_iff {id : UInt8} {p : ℕ} :
    (∃ reads, rtwGetP2pAttr (e.len + 1) false e.mem e.len id = some (some p,reads)) ↔ P2pAttrAt e id p := by
  have hrun := @Walker.run_found_iff (attrWalker le16At false e.mem e.len id) 6 (e.len + 1) p e.len
    (fun b c hc => by have := (attrWalker_goOn b c).mp hc; omega) (Nat.succ_pos _) (by omega)
  unfold P2pAttrAt rtwGetP2pAttr getAttr
  rw [← Walker.reach_iff_passed attrWalker_goOn, ← attrWalker_hit, ← hrun]
  split
  · rename_i h6
    simp [Nat.not_lt.mpr h6]
  · rename_i h6
    rw [vendorAttr_found_iff, and_iff_right (Nat.lt_of_not_le h6)]

theorem rtwGetWpsAttr_found_iff {id p : ℕ} :
    (∃ reads, rtwGetWpsAttr (e.len + 1) false e.mem e.len id = some (some p,reads)) ↔ WpsAttrAt e id p := by
  have hrun := @Walker.run_found_iff (wpsAttrWalker false e.mem e.len id) 6 (e.len + 1) p e.len
    (fun b c hc => by have := (wpsAttrWalker_goOn b c).mp hc; omega) (Nat.succ_pos _) (by omega)
  have hhit : (wpsAttrWalker false e.mem e.len id).turn p = .hit ↔ p < e.len ∧ be16At e.mem p = id := by
    unfold wpsAttrWalker
    dsimp only
    split_ifs with hlt hid <;> simp [*]
  unfold WpsAttrAt rtwGetWpsAttr
  rw [← Walker.reach_iff_passed wpsAttrWalker_goOn, ← hhit, ← hrun, vendorAttr_found_iff]

/-- The content has `lo` to `hi` bytes exactly when the attribute says so. -/
theorem attrContent_between {mem : List UInt8} {header : ℕ} {dataLen : ℕ → ℕ}
    {search : Option (Option ℕ × List ℕ)}
    {At : ℕ → Prop} (hat : ∀ p, (∃ reads, search = some (some p,reads)) ↔ At p) (hheader : 0 < header)
    (hdata : ∀ p, dataLen p < 65536) (hhi : hi + header < 65536) :
    (∀ c, attrContent mem header dataLen search = some (some c) → lo ≤ c.length ∧ c.length ≤ hi) ↔
      ∀ p, At p → dataLen p = 65536 - header ∨ lo ≤ dataLen p ∧ dataLen p ≤ hi := by
  have hlen : ∀ p n, (readBytes mem p n).length = n := fun p n => by simp [readBytes]
  constructor
  · intro h p hp
    obtain ⟨reads,rfl⟩ := (hat p).mpr hp
    by_cases hzero : attrTotal header (dataLen p) = 0
    · exact .inl ((attrTotal_eq_zero_iff hheader (by omega) (hdata p)).mp hzero)
    · have hbetween := h (readBytes mem (p + header) (contentLen header (dataLen p))) (by simp [attrContent, hzero])
      rw [hlen] at hbetween
      exact .inr ((contentLen_between hheader (hdata p) hhi).mp hbetween)
  · intro h c hc
    obtain ⟨⟨found,reads⟩,hsearch,hfound⟩ := Option.map_eq_some_iff.mp hc
    obtain ⟨p,hp,hcontent⟩ := Option.bind_eq_some_iff.mp hfound
    obtain rfl : found = some p := hp
    by_cases hzero : attrTotal header (dataLen p) = 0
    · rw [if_pos hzero] at hcontent
      cases hcontent
    · rw [if_neg hzero, Option.some.injEq] at hcontent
      rcases h p ((hat p).mp ⟨reads,hsearch⟩) with habsent | hbetween
      · exact absurd ((attrTotal_eq_zero_iff hheader (by omega) (hdata p)).mpr habsent) hzero
      · rw [← hcontent, hlen]
        exact (contentLen_between hheader (hdata p) hhi).mpr hbetween

theorem p2pContent_between {id : UInt8} (hhi : hi + 3 < 65536) :
    (∀ c, p2pContent e id = some (some c) → lo ≤ c.length ∧ c.length ≤ hi) ↔ P2pAttrLens e id lo hi :=
  attrContent_between (fun _ => rtwGetP2pAttr_found_iff) (by decide) (fun p => le16At_lt e.mem (p + 1)) hhi

theorem wpsContent_between {id : ℕ} (hhi : hi + 4 < 65536) :
    (∀ c, wpsContent e id = some (some c) → lo ≤ c.length ∧ c.length ≤ hi) ↔ WpsAttrLens e id lo hi :=
  attrContent_between (fun _ => rtwGetWpsAttr_found_iff) (by decide) (fun p => be16At_lt e.mem (p + 2)) hhi

/-- The getter with a buffer copies this content where it fits the buffer. -/
theorem rtwGetP2pAttrContent_eq {id : UInt8} {bufSize : ℕ} (hsize : bufSize < 65536) :
    rtwGetP2pAttrContent e.mem e.len id bufSize =
      (p2pContent e id).bind fun c => if ∀ bs ∈ c, bs.length ≤ bufSize then some c else none := by
  unfold rtwGetP2pAttrContent p2pContent attrContent
  rcases rtwGetP2pAttr (e.len + 1) false e.mem e.len id with _ | ⟨_ | p,reads⟩
  · rfl
  · simp
  · have hlt : attrTotal 3 (le16At e.mem (p + 1)) < 65536 := Nat.mod_lt _ (by decide)
    have hlen : ∀ p n, (readBytes e.mem p n).length = n := fun p n => by simp [readBytes]
    have hdef : contentLen 3 (le16At e.mem (p + 1)) = (attrTotal 3 (le16At e.mem (p + 1)) + 2 ^ 32 - 3) % 2 ^ 32 := rfl
    dsimp only [Option.map_some, Option.bind_some]
    generalize contentLen 3 (le16At e.mem (p + 1)) = n at hdef ⊢
    generalize attrTotal 3 (le16At e.mem (p + 1)) = total at hlt hdef ⊢
    by_cases hzero : total = 0
    · rw [if_pos hzero, if_pos hzero]
      simp
    · rw [if_neg hzero, if_neg hzero]
      by_cases hover : total < 3 ∨ bufSize < total - 3
      · have hlong : ¬n ≤ bufSize := by omega
        simp [hover, hlen, hlong]
      · have hn : n = total - 3 := by omega
        have hfits : total - 3 ≤ bufSize := by omega
        simp [hover, hlen, hn, hfits]

end

end Rtl8188fu
