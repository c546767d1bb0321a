import Rtl8188fu.Ieee80211.ElemSearch
import Rtl8188fu.Ieee80211.VendorAttr

/-! # Taking the P2P and WFD elements out of a buffer

`rtw_del_p2p_ie` and `rtw_del_wfd_ie` with the searches that they call. The buffer is the bytes
that the length covers, with more memory behind them.
-/
namespace Rtl8188fu
open Bytes

def MAX_IE_SZ : ℕ := 768
def MAX_P2P_IE_LEN : ℕ := 256

/-- `a - b` as an `uint` -/
def uintSub (a b : ℕ) : ℕ := (a + 2 ^ 32 - b) % 2 ^ 32

theorem uintSub_of_le {a b : ℕ} (h : b ≤ a) (ha : a < 2 ^ 32) : uintSub a b = a - b := by
  unfold uintSub
  omega

/-- The loop of `rtw_get_p2p_ie` and `rtw_get_wfd_ie` -/
def getVendorIeLoop (oui inIe : List UInt8) (inLen : ℕ) : ℕ → ℕ → Option (ℕ × ℕ)
  | 0, _ => none
  | fuel + 1, cnt =>
    if cnt + 1 + 4 < inLen then
      if MAX_IE_SZ ≤ cnt + 1 + 4 then none
      else if byteAt inIe cnt = 0xdd ∧ slice inIe (cnt + 2) 4 = oui then some (cnt,(byteAt inIe (cnt + 1)).toNat + 2)
      else getVendorIeLoop oui inIe inLen fuel (elemEnd inIe cnt)
    else none

/-- Their length argument is an `int`. -/
def getVendorIe (oui inIe : List UInt8) (inLen : ℕ) : Option (ℕ × ℕ) :=
  if 2 ^ 31 ≤ inLen then none else getVendorIeLoop oui inIe inLen (inLen + 1) 0

def rtwGetP2pIe := getVendorIe P2P_OUI
def rtwGetWfdIe := getVendorIe WFD_OUI

/-- The loop of `rtw_del_p2p_ie` and `rtw_del_wfd_ie`; `none` when `remain_len` wraps, for then
`_rtw_memmove` leaves the buffer. -/
def delVendorIeLoop (getIe : List UInt8 → ℕ → Option (ℕ × ℕ)) :
    ℕ → List UInt8 → ℕ → Option (List UInt8 × ℕ)
  | 0, _, _ => none
  | fuel + 1, ies, iesLen =>
    match getIe ies iesLen with
    | some (targetIe, targetIeLen) =>
      let nextIe := targetIe + targetIeLen
      if nextIe ≤ iesLen then
        let remainLen := iesLen - nextIe
        let ies := patch ies targetIe (slice ies nextIe remainLen)
        let ies := patch ies (targetIe + remainLen) (List.replicate targetIeLen 0)
        delVendorIeLoop getIe fuel ies (iesLen - targetIeLen)
      else none
    | none => some (ies,iesLen)

def rtwDelP2pIe (ies : List UInt8) (iesLenOri : ℕ) : Option (List UInt8 × ℕ) :=
  delVendorIeLoop rtwGetP2pIe (iesLenOri + 1) ies iesLenOri

def rtwDelWfdIe (ies : List UInt8) (iesLenOri : ℕ) : Option (List UInt8 × ℕ) :=
  delVendorIeLoop rtwGetWfdIe (iesLenOri + 1) ies iesLenOri

/-- A vendor element of the OUI -/
def IsVendor (oui : List UInt8) (t : Tlv) : Prop := t.id = 0xdd ∧ oui <+: t.body

instance (oui : List UInt8) : DecidablePred (IsVendor oui) := fun t => by
  delta IsVendor
  infer_instance

/-- The elements that are to stay -/
def kept (oui : List UInt8) (ts : List Tlv) : List Tlv := ts.filter fun t => ¬IsVendor oui t

/-- The bytes look like the start of a vendor element of the OUI, whatever its length byte says. -/
def RunsOui (oui ys : List UInt8) : Prop := 6 ≤ ys.length ∧ byteAt ys 0 = 0xdd ∧ slice ys 2 4 = oui

instance (oui ys : List UInt8) : Decidable (RunsOui oui ys) := by
  delta RunsOui
  infer_instance

/-- What the searches tell about the elements from offset `o` on -/
def VendorFound (oui : List UInt8) (o : ℕ) (ts : List Tlv) (rest : List UInt8) : Option (ℕ × ℕ) → Prop
  | none => ∀ pre post, ts = pre ++ post → o + (Tlv.flat pre).length + 5 < MAX_IE_SZ →
      ¬RunsOui oui (Tlv.flat post ++ rest)
  | some (p, n) => ∃ pre post, ts = pre ++ post ∧ p = o + (Tlv.flat pre).length ∧ p + 5 < MAX_IE_SZ ∧
      RunsOui oui (Tlv.flat post ++ rest) ∧ n = (byteAt (Tlv.flat post ++ rest) 1).toNat + 2 ∧
      ∀ pre' t mid, pre = pre' ++ t :: mid → ¬RunsOui oui (Tlv.flat (t :: mid ++ post) ++ rest)

section Search
variable {oui rest beyond : List UInt8} {o : ℕ} {t : Tlv} {ts : List Tlv} {r : Option (ℕ × ℕ)}

theorem VendorFound.cons (h : VendorFound oui (o + t.bytes.length) ts rest r)
    (ht : ¬RunsOui oui (Tlv.flat (t :: ts) ++ rest)) : VendorFound oui o (t :: ts) rest r := by
  have hlen : ∀ pre : List Tlv, o + (Tlv.flat (t :: pre)).length = o + t.bytes.length + (Tlv.flat pre).length := by
    intro pre
    rw [Tlv.flat_cons, List.length_append, Nat.add_assoc]
  match r with
  | none =>
    intro pre post hsplit hnear
    cases pre with
    | nil =>
      rw [List.nil_append] at hsplit
      rwa [← hsplit]
    | cons u pre =>
      obtain ⟨rfl,hts⟩ := List.cons.inj hsplit
      exact h pre post hts (by rw [← hlen]; exact hnear)
  | some (p,n) =>
    obtain ⟨pre,post,rfl,hp,hnear,hruns,hn,hfirst⟩ := h
    refine ⟨t :: pre,post,rfl,by rw [hp, hlen],hnear,hruns,hn,?_⟩
    intro pre' u mid hsplit
    cases pre' with
    | nil =>
      obtain ⟨rfl,rfl⟩ := List.cons.inj hsplit
      exact ht
    | cons v pre' => exact hfirst pre' u mid (List.cons.inj hsplit).2

theorem byteAt_flat (done : List Tlv) (ys : List UInt8) (i : ℕ) :
    byteAt (Tlv.flat done ++ ys) ((Tlv.flat done).length + i) = byteAt ys i := by
  rw [byteAt_append, if_neg (by omega), Nat.add_sub_cancel_left]

theorem slice_flat (done : List Tlv) (ys : List UInt8) (i n : ℕ) :
    slice (Tlv.flat done ++ ys) ((Tlv.flat done).length + i) n = slice ys i n := by
  rw [slice_append_right (by omega), Nat.add_sub_cancel_left]

/-- The searches read an element and the six bytes of it only. -/
theorem runsOui_iff {ys : List UInt8} (beyond : List UInt8) (h6 : 6 ≤ ys.length) :
    RunsOui oui ys ↔ byteAt (ys ++ beyond) 0 = 0xdd ∧ slice (ys ++ beyond) 2 4 = oui := by
  rw [RunsOui, and_iff_right h6, byteAt_append, if_pos (by omega), slice_append_left (by omega)]

/-- One turn of the search in front of the bytes `ys` -/
theorem getVendorIeLoop_turn (done : List Tlv) (ys : List UInt8) (fuel : ℕ) :
    getVendorIeLoop oui (Tlv.flat done ++ (ys ++ beyond)) ((Tlv.flat done).length + ys.length) (fuel + 1)
        (Tlv.flat done).length =
      if ys.length < 6 ∨ MAX_IE_SZ ≤ (Tlv.flat done).length + 5 then none
      else if RunsOui oui ys then some ((Tlv.flat done).length,(byteAt ys 1).toNat + 2)
      else getVendorIeLoop oui (Tlv.flat done ++ (ys ++ beyond)) ((Tlv.flat done).length + ys.length) fuel
        ((Tlv.flat done).length + ((byteAt ys 1).toNat + 2)) := by
  rw [getVendorIeLoop]
  by_cases hshort : ys.length < 6
  · rw [if_neg (by omega), if_pos (.inl hshort)]
  · rw [if_pos (by omega)]
    by_cases hfar : MAX_IE_SZ ≤ (Tlv.flat done).length + 5
    · rw [if_pos (by omega), if_pos (.inr hfar)]
    · have h0 := byteAt_flat done (ys ++ beyond) 0
      have h1 := byteAt_flat done (ys ++ beyond) 1
      have hs := slice_flat done (ys ++ beyond) 2 4
      have hy : byteAt (ys ++ beyond) 1 = byteAt ys 1 := by rw [byteAt_append, if_pos (by omega)]
      rw [Nat.add_zero] at h0
      rw [if_neg (by omega), if_neg (not_or.mpr ⟨hshort,hfar⟩), elemEnd, h0, h1, hs, hy]
      simp only [runsOui_iff beyond (Nat.le_of_not_lt hshort)]

theorem not_runsOui_of_short {ys : List UInt8} (h : ys.length < 6) : ¬RunsOui oui ys :=
  fun hr => absurd hr.1 (Nat.not_le.mpr h)

/-- Nothing is found in front of less than six bytes, or far from the start. -/
theorem VendorFound.of_end (h : (Tlv.flat ts ++ rest).length < 6 ∨ MAX_IE_SZ ≤ o + 5) :
    VendorFound oui o ts rest none := by
  rintro pre post rfl hnear
  rcases h with h | h
  · apply not_runsOui_of_short
    rw [Tlv.flat_append, List.append_assoc, List.length_append] at h
    omega
  · omega

/-- In the bytes behind the last complete element the length leads out of them. -/
theorem length_of_read_none {ys : List UInt8} (h : Tlv.read ys = none) (h2 : 2 ≤ ys.length) :
    ys.length < (byteAt ys 1).toNat + 2 := by
  match ys with
  | id :: len :: ys =>
    rw [Tlv.read] at h
    split at h
    · cases h
    · rename_i hlt
      simp only [List.length_cons, byteAt, List.getD_cons_succ, List.getD_cons_zero]
      omega

theorem getVendorIeLoop_flat (done : List Tlv) (hread : Tlv.read rest = none) {fuel : ℕ}
    (hfuel : (Tlv.flat ts ++ rest).length < fuel) :
    VendorFound oui (Tlv.flat done).length ts rest
      (getVendorIeLoop oui (Tlv.flat done ++ (Tlv.flat ts ++ rest ++ beyond))
        ((Tlv.flat done).length + (Tlv.flat ts ++ rest).length) fuel (Tlv.flat done).length) := by
  induction ts generalizing done fuel with
  | nil =>
    obtain ⟨fuel,rfl⟩ : ∃ n, fuel = n + 1 := ⟨fuel - 1,by omega⟩
    rw [Tlv.flat_nil, List.nil_append, getVendorIeLoop_turn]
    split
    · rename_i hend
      exact .of_end hend
    · rename_i hend
      split
      · rename_i hruns
        exact ⟨[],[],rfl,rfl,by omega,hruns,rfl,by simp⟩
      · rename_i hruns
        have hlong := length_of_read_none hread (by omega)
        have hnone : getVendorIeLoop oui (Tlv.flat done ++ (rest ++ beyond)) ((Tlv.flat done).length + rest.length) fuel
            ((Tlv.flat done).length + ((byteAt rest 1).toNat + 2)) = none := by
          cases fuel with
          | zero => rfl
          | succ fuel => rw [getVendorIeLoop, if_neg (by omega)]
        rw [hnone]
        intro pre post hsplit _
        obtain ⟨rfl,rfl⟩ := List.append_eq_nil_iff.mp hsplit.symm
        exact hruns
  | cons t ts ih =>
    obtain ⟨fuel,rfl⟩ : ∃ n, fuel = n + 1 := ⟨fuel - 1,by omega⟩
    rw [getVendorIeLoop_turn]
    split
    · rename_i hend
      exact .of_end hend
    · rename_i hend
      split
      · rename_i hruns
        exact ⟨[],t :: ts,rfl,rfl,by omega,hruns,rfl,by simp⟩
      · rename_i hruns
        have hlen : (byteAt (Tlv.flat (t :: ts) ++ rest) 1).toNat = t.body.length := by
          have := (byteAt_tlv [] t (Tlv.flat ts ++ rest)).2.1
          rwa [List.nil_append, ← List.append_assoc] at this
        have hsnoc : (Tlv.flat (done ++ [t])).length = (Tlv.flat done).length + t.bytes.length := by
          rw [Tlv.flat_append, List.length_append, Tlv.flat_cons, Tlv.flat_nil, List.append_nil]
        have hless : (Tlv.flat ts ++ rest).length < fuel := by
          rw [Tlv.flat_cons, List.append_assoc, List.length_append, Tlv.length_bytes] at hfuel
          omega
        have hnext := ih (done ++ [t]) hless
        have hbuf : Tlv.flat (done ++ [t]) ++ (Tlv.flat ts ++ rest ++ beyond) =
            Tlv.flat done ++ (Tlv.flat (t :: ts) ++ rest ++ beyond) := by
          simp
        have htotal : (Tlv.flat (done ++ [t])).length + (Tlv.flat ts ++ rest).length =
            (Tlv.flat done).length + (Tlv.flat (t :: ts) ++ rest).length := by
          simp
          omega
        rw [hbuf, htotal, hsnoc] at hnext
        rw [hlen, ← Tlv.length_bytes]
        exact hnext.cons hruns

theorem getVendorIe_flat (hread : Tlv.read rest = none) (hlen : (Tlv.flat ts ++ rest).length < 2 ^ 31) :
    VendorFound oui 0 ts rest (getVendorIe oui (Tlv.flat ts ++ rest ++ beyond) (Tlv.flat ts ++ rest).length) := by
  rw [getVendorIe, if_neg (Nat.not_le.mpr hlen)]
  have := @getVendorIeLoop_flat oui rest beyond ts [] hread _ (Nat.lt_succ_self _)
  rwa [Tlv.flat_nil, List.nil_append, List.length_nil, Nat.zero_add] at this

end Search

section Vendor
variable {oui ys rest : List UInt8} {t : Tlv} {ts pre post : List Tlv}

theorem slice_body (t : Tlv) (ys : List UInt8) : slice (t.bytes ++ ys) 2 4 = (t.body ++ ys).take 4 := rfl

theorem RunsOui.of_vendor (h4 : oui.length = 4) (h : IsVendor oui t) (ys : List UInt8) :
    RunsOui oui (t.bytes ++ ys) := by
  obtain ⟨hid,more,hbody⟩ := h
  have hlen := congrArg List.length hbody
  rw [List.length_append] at hlen
  refine ⟨?_,hid,?_⟩
  · rw [List.length_append, Tlv.length_bytes]
    omega
  · rw [slice_body, ← hbody, List.append_assoc, ← h4, List.take_left]

/-- Another element that runs like one of the OUI is short, and the OUI goes on behind it. -/
theorem RunsOui.short (h : RunsOui oui (t.bytes ++ ys)) (hn : ¬IsVendor oui t) :
    t.id = 0xdd ∧ t.body.length < 4 ∧ t.body ++ ys.take (4 - t.body.length) = oui := by
  obtain ⟨-,hid,hs⟩ := h
  rw [slice_body, List.take_append] at hs
  have hid : t.id = 0xdd := hid
  by_cases hb : t.body.length < 4
  · rw [List.take_of_length_le (by omega)] at hs
    exact ⟨hid,hb,hs⟩
  · rw [Nat.sub_eq_zero_of_le (by omega), List.take_zero, List.append_nil] at hs
    exact absurd ⟨hid,hs ▸ List.take_prefix 4 t.body⟩ hn

/-- What follows such an element does not begin like a vendor element. -/
theorem RunsOui.behind (h4 : oui.length = 4) (hdd : (0xdd : UInt8) ∉ oui) (h : RunsOui oui (t.bytes ++ ys))
    (hn : ¬IsVendor oui t) : ∃ x ys', ys = x :: ys' ∧ x ≠ 0xdd := by
  obtain ⟨-,hb,hs⟩ := h.short hn
  match ys with
  | [] =>
    rw [List.take_nil, List.append_nil] at hs
    rw [hs, h4] at hb
    exact absurd hb (Nat.lt_irrefl 4)
  | x :: ys' =>
    refine ⟨x,ys',rfl,?_⟩
    rintro rfl
    apply hdd
    rw [← hs]
    apply List.mem_append_right
    rw [show 4 - t.body.length = (3 - t.body.length) + 1 by omega, List.take_succ_cons]
    exact List.mem_cons_self

/-- Bytes without the number of a vendor element are not changed by taking vendor elements out
behind them. -/
theorem take_kept {w : List UInt8} (hw : (0xdd : UInt8) ∉ w) {k : ℕ} (h : (Tlv.flat ts ++ rest).take k = w) :
    (Tlv.flat (kept oui ts) ++ rest).take k = w := by
  induction ts generalizing k w with
  | nil => exact h
  | cons t ts ih =>
    by_cases ht : IsVendor oui t
    · have hk : kept oui (t :: ts) = kept oui ts := List.filter_cons_of_neg (by simpa using ht)
      cases k with
      | zero => rw [← h, List.take_zero, List.take_zero]
      | succ k =>
        apply absurd _ hw
        rw [← h, ← ht.1]
        exact List.mem_cons_self
    · have hk : kept oui (t :: ts) = t :: kept oui ts := List.filter_cons_of_pos (by simpa using ht)
      rw [Tlv.flat_cons, List.append_assoc, List.take_append] at h
      rw [hk, Tlv.flat_cons, List.append_assoc, List.take_append]
      have hw' : (0xdd : UInt8) ∉ (Tlv.flat ts ++ rest).take (k - t.bytes.length) := by
        intro hm
        apply hw
        rw [← h]
        exact List.mem_append_right _ hm
      rw [ih hw' rfl, h]

theorem RunsOui.kept (h4 : oui.length = 4) (hdd : (0xdd : UInt8) ∉ oui) (hn : ¬IsVendor oui t)
    (h : RunsOui oui (Tlv.flat (t :: ts) ++ rest)) : RunsOui oui (Tlv.flat (t :: kept oui ts) ++ rest) := by
  rw [Tlv.flat_cons, List.append_assoc] at h ⊢
  obtain ⟨hid,hb,hs⟩ := h.short hn
  have hw : (0xdd : UInt8) ∉ (Tlv.flat ts ++ rest).take (4 - t.body.length) := by
    intro hm
    apply hdd
    rw [← hs]
    exact List.mem_append_right _ hm
  rw [← @take_kept oui rest ts _ hw _ rfl] at hs
  have hlen := congrArg List.length hs
  rw [List.length_append, List.length_take, h4] at hlen
  refine ⟨?_,hid,?_⟩
  · rw [List.length_append, Tlv.length_bytes]
    omega
  · rw [slice_body, List.take_append, List.take_of_length_le (by omega)]
    exact hs

theorem kept_append : kept oui (ts ++ post) = kept oui ts ++ kept oui post := List.filter_append ..

theorem kept_cons_of_vendor (h : IsVendor oui t) : kept oui (t :: ts) = kept oui ts :=
  List.filter_cons_of_neg (by simpa using h)

theorem kept_cons (h : ¬IsVendor oui t) : kept oui (t :: ts) = t :: kept oui ts :=
  List.filter_cons_of_pos (by simpa using h)

theorem kept_eq_self (h : ∀ t ∈ ts, ¬IsVendor oui t) : kept oui ts = ts :=
  List.filter_eq_self.mpr fun t ht => by simpa using h t ht

theorem length_flat_kept_le (oui : List UInt8) (ts : List Tlv) :
    (Tlv.flat (kept oui ts)).length ≤ (Tlv.flat ts).length := by
  induction ts with
  | nil => exact Nat.le_refl _
  | cons t ts ih =>
    by_cases ht : IsVendor oui t
    · rw [kept_cons_of_vendor ht, Tlv.flat_cons, List.length_append]
      omega
    · rw [kept_cons ht, Tlv.flat_cons, Tlv.flat_cons, List.length_append, List.length_append]
      omega

/-- Nothing shorter is left exactly when there is no vendor element. -/
theorem length_flat_kept_eq (h : (Tlv.flat (kept oui ts)).length = (Tlv.flat ts).length) :
    ∀ t ∈ ts, ¬IsVendor oui t := by
  induction ts with
  | nil => exact nofun
  | cons t ts ih =>
    by_cases ht : IsVendor oui t
    · have := length_flat_kept_le oui ts
      rw [kept_cons_of_vendor ht, Tlv.flat_cons, List.length_append, Tlv.length_bytes] at h
      omega
    · rw [kept_cons ht, Tlv.flat_cons, Tlv.flat_cons, List.length_append, List.length_append] at h
      intro u hu
      rcases List.mem_cons.mp hu with rfl | hu
      · exact ht
      · exact ih (by omega) u hu

end Vendor

section Loop
variable {getIe : List UInt8 → ℕ → Option (ℕ × ℕ)} {fuel : ℕ}

/-- A part is taken out: what is behind it moves up, and zeros come in. -/
theorem patch_cut (a b c d : List UInt8) :
    patch (patch (a ++ (b ++ c) ++ d) a.length (slice (a ++ (b ++ c) ++ d) (a.length + b.length) c.length))
      (a.length + c.length) (List.replicate b.length 0) = a ++ c ++ (List.replicate b.length 0 ++ d) := by
  have hslice : slice (a ++ (b ++ c) ++ d) (a.length + b.length) c.length = c := by
    rw [← List.append_assoc a b c]
    exact slice_middle (List.length_append ..) rfl
  have hmove : patch (a ++ (b ++ c) ++ d) a.length c = a ++ c ++ ((b ++ c).drop c.length ++ d) := by
    have hsplit : a ++ (b ++ c) ++ d = a ++ (b ++ c).take c.length ++ ((b ++ c).drop c.length ++ d) := by
      rw [← List.append_assoc (a ++ _), List.append_assoc a (List.take _ _), List.take_append_drop]
    rw [hsplit]
    exact patch_middle (by simp)
  rw [hslice, hmove, ← List.append_assoc, ← List.length_append, patch_middle (by simp), List.append_assoc]

theorem delVendorIeLoop_step {a b c d : List UInt8}
    (h : getIe (a ++ (b ++ c) ++ d) (a ++ (b ++ c)).length = some (a.length,b.length)) :
    delVendorIeLoop getIe (fuel + 1) (a ++ (b ++ c) ++ d) (a ++ (b ++ c)).length =
      delVendorIeLoop getIe fuel (a ++ c ++ (List.replicate b.length 0 ++ d)) (a ++ c).length := by
  have hlen : (a ++ (b ++ c)).length = a.length + b.length + c.length := by
    simp only [List.length_append, Nat.add_assoc]
  have hremain : a.length + b.length + c.length - (a.length + b.length) = c.length := by omega
  rw [delVendorIeLoop, h]
  simp only []
  rw [hlen, if_pos (by omega), hremain, patch_cut]
  congr 1
  rw [List.length_append]
  omega

theorem delVendorIeLoop_none {ies : List UInt8} {iesLen : ℕ} (h : getIe ies iesLen = none) :
    delVendorIeLoop getIe (fuel + 1) ies iesLen = some (ies,iesLen) := by
  rw [delVendorIeLoop, h]

theorem delVendorIeLoop_fault {ies : List UInt8} {iesLen p n : ℕ} (h : getIe ies iesLen = some (p,n))
    (hn : iesLen < p + n) :
    delVendorIeLoop getIe (fuel + 1) ies iesLen = none := by
  rw [delVendorIeLoop, h]
  simp only []
  rw [if_neg (Nat.not_le.mpr hn)]

end Loop
/-- Where the search stops for an element of the OUI: the bytes of the elements that stay count. -/
def VendorsNear (oui : List UInt8) : ℕ → List Tlv → Prop
  | _, [] => True
  | o, t :: ts =>
    if IsVendor oui t then o + 5 < MAX_IE_SZ ∧ VendorsNear oui o ts else VendorsNear oui (o + t.bytes.length) ts

/-- Neither an element that stays nor the bytes behind the last one run like one of the OUI,
as far as the search looks. -/
def KeptClear (oui : List UInt8) (ts : List Tlv) (rest : List UInt8) : Prop :=
  ∀ pre post, kept oui ts = pre ++ post → (Tlv.flat pre).length + 5 < MAX_IE_SZ →
    ¬RunsOui oui (Tlv.flat post ++ rest)

/-- The elements of the OUI can be taken out. -/
def Removable (oui : List UInt8) (ts : List Tlv) (rest : List UInt8) : Prop :=
  if (Tlv.flat ts ++ rest).length < 2 ^ 31 then VendorsNear oui 0 ts ∧ KeptClear oui ts rest
  else ∀ t ∈ ts, ¬IsVendor oui t

/-- What is to be left: the other elements, zeros for those taken out, and the memory behind -/
def delResult (oui : List UInt8) (ts : List Tlv) (rest beyond : List UInt8) : List UInt8 × ℕ :=
  (Tlv.flat (kept oui ts) ++ rest ++
      (List.replicate ((Tlv.flat ts).length - (Tlv.flat (kept oui ts)).length) 0 ++ beyond),
    (Tlv.flat (kept oui ts) ++ rest).length)

section Del
variable {oui rest beyond : List UInt8} {t : Tlv} {ts pre post : List Tlv} {fuel o : ℕ}

theorem vendorsNear_append (h : ∀ t ∈ pre, ¬IsVendor oui t) :
    VendorsNear oui o (pre ++ ts) ↔ VendorsNear oui (o + (Tlv.flat pre).length) ts := by
  induction pre generalizing o with
  | nil => rfl
  | cons u pre ih =>
    rw [List.cons_append, VendorsNear, if_neg (h u List.mem_cons_self),
      ih fun v hv => h v (List.mem_cons_of_mem _ hv), Tlv.flat_cons, List.length_append, Nat.add_assoc]

theorem kept_remove (h : IsVendor oui t) : kept oui (pre ++ t :: post) = kept oui (pre ++ post) := by
  rw [kept_append, kept_append, kept_cons_of_vendor h]

theorem delResult_remove (h : IsVendor oui t) :
    delResult oui (pre ++ post) rest (List.replicate t.bytes.length 0 ++ beyond) =
      delResult oui (pre ++ t :: post) rest beyond := by
  have hle := length_flat_kept_le oui (pre ++ post)
  have hlen : (Tlv.flat (pre ++ t :: post)).length = (Tlv.flat (pre ++ post)).length + t.bytes.length := by
    simp only [Tlv.flat_append, Tlv.flat_cons, List.length_append]
    omega
  rw [delResult, delResult, kept_remove h, hlen, ← List.append_assoc (List.replicate _ _),
    List.replicate_append_replicate]
  congr 5
  omega

theorem delResult_of_kept (h : ∀ t ∈ ts, ¬IsVendor oui t) :
    delResult oui ts rest beyond = (Tlv.flat ts ++ rest ++ beyond,(Tlv.flat ts ++ rest).length) := by
  rw [delResult, kept_eq_self h, Nat.sub_self]
  rfl

/-- The elements in front of the one that the search finds are not of the OUI. -/
theorem not_vendor_of_first (h4 : oui.length = 4)
    (hfirst : ∀ pre' t mid, pre = pre' ++ t :: mid → ¬RunsOui oui (Tlv.flat (t :: mid ++ post) ++ rest)) :
    ∀ t ∈ pre, ¬IsVendor oui t := by
  intro t ht hv
  obtain ⟨pre',mid,hsplit⟩ := List.append_of_mem ht
  apply hfirst pre' t mid hsplit
  rw [List.cons_append, Tlv.flat_cons, List.append_assoc]
  exact .of_vendor h4 hv _

theorem flat_append_rest (pre post : List Tlv) (rest : List UInt8) :
    Tlv.flat (pre ++ post) ++ rest = Tlv.flat pre ++ (Tlv.flat post ++ rest) := by
  rw [Tlv.flat_append, List.append_assoc]

/-- The search finds a complete element, and it is taken out. -/
theorem del_take
    (h : getVendorIe oui (Tlv.flat (pre ++ t :: post) ++ rest ++ beyond) (Tlv.flat (pre ++ t :: post) ++ rest).length =
      some ((Tlv.flat pre).length,t.bytes.length)) :
    delVendorIeLoop (getVendorIe oui) (fuel + 1) (Tlv.flat (pre ++ t :: post) ++ rest ++ beyond)
        (Tlv.flat (pre ++ t :: post) ++ rest).length =
      delVendorIeLoop (getVendorIe oui) fuel
        (Tlv.flat (pre ++ post) ++ rest ++ (List.replicate t.bytes.length 0 ++ beyond))
        (Tlv.flat (pre ++ post) ++ rest).length := by
  have hsplit : Tlv.flat (pre ++ t :: post) ++ rest = Tlv.flat pre ++ (t.bytes ++ (Tlv.flat post ++ rest)) := by
    rw [flat_append_rest, Tlv.flat_cons, List.append_assoc]
  rw [hsplit] at h ⊢
  rw [flat_append_rest]
  exact delVendorIeLoop_step h

theorem byteAt_one (t : Tlv) (ts : List Tlv) (rest : List UInt8) :
    (byteAt (Tlv.flat (t :: ts) ++ rest) 1).toNat + 2 = t.bytes.length := by
  have := (byteAt_tlv [] t (Tlv.flat ts ++ rest)).2.1
  rw [List.nil_append] at this
  rw [Tlv.flat_cons, List.append_assoc, Tlv.length_bytes, ← this]
  rfl

/-- The search takes the bytes behind the last complete element for one of the OUI, whose length
leads out of the buffer. -/
theorem del_fault (hread : Tlv.read rest = none) (hruns : RunsOui oui rest) {n : ℕ}
    (hn : n = (byteAt rest 1).toNat + 2)
    (h : getVendorIe oui (Tlv.flat ts ++ rest ++ beyond) (Tlv.flat ts ++ rest).length = some ((Tlv.flat ts).length,n)) :
    delVendorIeLoop (getVendorIe oui) (fuel + 1) (Tlv.flat ts ++ rest ++ beyond)
    (Tlv.flat ts ++ rest).length = none := by
  have hlong := length_of_read_none hread (Nat.le_trans (by decide) hruns.1)
  apply delVendorIeLoop_fault h
  rw [List.length_append]
  omega

theorem exists_first_vendor (h : ¬∀ t ∈ ts, ¬IsVendor oui t) :
    ∃ pre t post, ts = pre ++ t :: post ∧ IsVendor oui t ∧ ∀ u ∈ pre, ¬IsVendor oui u := by
  cases hf : ts.find? fun t => IsVendor oui t with
  | none => exact absurd (by simpa using hf) h
  | some t =>
    obtain ⟨ht,pre,post,rfl,hpre⟩ := List.find?_eq_some_iff_append.mp hf
    exact ⟨pre,t,post,rfl,by simpa using ht,fun u hu => by simpa using hpre u hu⟩

/-- Of a first element of the OUI that is near, the search says nothing wrong when it finds none. -/
theorem not_vendor_of_none (h4 : oui.length = 4) (hfound : VendorFound oui 0 ts rest none)
    (hnear : VendorsNear oui 0 ts) :
    ∀ t ∈ ts, ¬IsVendor oui t := by
  by_contra h
  obtain ⟨pre,t,post,rfl,ht,hpre⟩ := exists_first_vendor h
  have hn := (vendorsNear_append hpre).mp hnear
  rw [VendorsNear, if_pos ht] at hn
  apply hfound pre (t :: post) rfl hn.1
  rw [Tlv.flat_cons, List.append_assoc]
  exact .of_vendor h4 ht _

theorem kept_split (hpre : ∀ u ∈ pre, ¬IsVendor oui u) : kept oui (pre ++ post) = pre ++ kept oui post := by
  rw [kept_append, kept_eq_self hpre]

theorem removable_remove (hpre : ∀ u ∈ pre, ¬IsVendor oui u) (ht : IsVendor oui t)
    (hlen : (Tlv.flat (pre ++ t :: post) ++ rest).length < 2 ^ 31) :
    Removable oui (pre ++ t :: post) rest ↔ (Tlv.flat pre).length + 5 < MAX_IE_SZ ∧
    Removable oui (pre ++ post) rest := by
  have hlen' : (Tlv.flat (pre ++ post) ++ rest).length < 2 ^ 31 := by
    simp only [Tlv.flat_append, Tlv.flat_cons, List.length_append] at hlen ⊢
    omega
  rw [Removable, Removable, if_pos hlen, if_pos hlen', vendorsNear_append hpre, vendorsNear_append hpre, VendorsNear,
    if_pos ht, Nat.zero_add, KeptClear, KeptClear, kept_remove ht, and_assoc]

/-- The elements of the OUI are taken out one after the other. -/
theorem del_of_removable (h4 : oui.length = 4) (hdd : (0xdd : UInt8) ∉ oui) (hread : Tlv.read rest = none)
    (h : Removable oui ts rest)
    (hfuel : (Tlv.flat ts ++ rest).length < fuel) :
    delVendorIeLoop (getVendorIe oui) fuel (Tlv.flat ts ++ rest ++ beyond) (Tlv.flat ts ++ rest).length =
      some (delResult oui ts rest beyond) := by
  induction fuel generalizing ts beyond with
  | zero => omega
  | succ fuel ih =>
    by_cases hlen : (Tlv.flat ts ++ rest).length < 2 ^ 31
    · have hboth := h
      rw [Removable, if_pos hlen] at hboth
      obtain ⟨hnear,hclear⟩ := hboth
      have hfound := @getVendorIe_flat oui rest beyond ts hread hlen
      cases hget : getVendorIe oui (Tlv.flat ts ++ rest ++ beyond) (Tlv.flat ts ++ rest).length with
      | none =>
        rw [hget] at hfound
        rw [delVendorIeLoop_none hget, delResult_of_kept (not_vendor_of_none h4 hfound hnear)]
      | some r =>
        obtain ⟨p,n⟩ := r
        rw [hget] at hfound
        obtain ⟨pre,post,rfl,rfl,hp,hruns,rfl,hfirst⟩ := hfound
        have hpre := not_vendor_of_first h4 hfirst
        rw [Nat.zero_add] at hget hp
        cases post with
        | nil => exact absurd hruns (hclear pre [] (kept_split hpre) hp)
        | cons t post =>
          by_cases ht : IsVendor oui t
          · rw [byteAt_one] at hget
            rw [del_take hget, ih ((removable_remove hpre ht hlen).mp h).2, delResult_remove ht]
            simp only [Tlv.flat_append, Tlv.flat_cons, List.length_append, Tlv.length_bytes] at hfuel ⊢
            omega
          · exact absurd (hruns.kept h4 hdd ht) (hclear pre _ ((kept_split hpre).trans (by rw [kept_cons ht])) hp)
    · rw [Removable, if_neg hlen] at h
      have hget : getVendorIe oui (Tlv.flat ts ++ rest ++ beyond) (Tlv.flat ts ++ rest).length = none :=
        if_pos (Nat.le_of_not_lt hlen)
      rw [delVendorIeLoop_none hget, delResult_of_kept h]

/-- Once an element that is not of the OUI was taken out, the element in its place is another one
in every buffer that the loop can end with. -/
theorem false_removal (h4 : oui.length = 4) (hdd : (0xdd : UInt8) ∉ oui) {x : UInt8} {ys out : List UInt8} {l : ℕ}
    (hpre : ∀ t ∈ pre, ¬IsVendor oui t) (hx : x ≠ 0xdd)
    (h : delVendorIeLoop (getVendorIe oui) fuel (Tlv.flat pre ++ x :: ys ++ beyond) (Tlv.flat pre ++ x :: ys).length =
      some (out,l)) : ¬Tlv.flat pre ++ [0xdd] <+: out := by
  induction fuel generalizing pre x ys beyond with
  | zero => cases h
  | succ fuel ih =>
    obtain ⟨fs,rest,hfs⟩ := Tlv.exists_reads (x :: ys)
    have hbytes : Tlv.flat pre ++ x :: ys = Tlv.flat (pre ++ fs) ++ rest := by
      rw [hfs.bytes, flat_append_rest]
    cases hget : getVendorIe oui (Tlv.flat pre ++ x :: ys ++ beyond) (Tlv.flat pre ++ x :: ys).length with
    | none =>
      rw [delVendorIeLoop_none hget] at h
      cases h
      rintro ⟨more,hmore⟩
      rw [List.append_assoc, List.append_assoc] at hmore
      exact hx (List.cons.inj (List.append_cancel_left hmore)).1.symm
    | some r =>
      obtain ⟨p,n⟩ := r
      have hlen : (Tlv.flat (pre ++ fs) ++ rest).length < 2 ^ 31 := by
        rw [← hbytes]
        by_contra hge
        rw [getVendorIe, if_pos (Nat.le_of_not_lt hge)] at hget
        cases hget
      have hfound := @getVendorIe_flat oui rest beyond (pre ++ fs) hfs.stops hlen
      rw [hbytes] at hget h
      rw [hget] at hfound
      obtain ⟨a,b,hsplit,rfl,hp,hruns,rfl,hfirst⟩ := hfound
      rw [hsplit] at hget h
      rw [Nat.zero_add] at hget
      match b, hruns with
      | [], hruns =>
        rw [List.append_nil] at hget h
        rw [del_fault hfs.stops hruns rfl hget] at h
        cases h
      | t :: post, hruns =>
        rw [byteAt_one] at hget
        rw [del_take hget] at h
        have hsame : fs ≠ t :: post := by
          rintro rfl
          exact hx ((List.cons.inj hfs.bytes).1.trans hruns.2.1)
        rcases List.append_eq_append_iff.mp hsplit with ⟨c,rfl,hc⟩ | ⟨c,rfl,hc⟩
        · cases c with
          | nil => exact absurd hc hsame
          | cons v c =>
            -- the element taken out is behind the wrong one, which stays in its place
            have hv : x = v.id := (List.cons.inj (hc ▸ hfs.bytes)).1
            have hleft : Tlv.flat (pre ++ v :: c ++ post) ++ rest =
                Tlv.flat pre ++ x :: (UInt8.ofNat v.body.length :: v.body ++ (Tlv.flat (c ++ post) ++ rest)) := by
              rw [hv, List.append_assoc, List.cons_append, Tlv.flat_append, Tlv.flat_cons, Tlv.bytes]
              simp only [List.append_assoc, List.cons_append]
            rw [hleft] at h
            exact ih hpre hx h
        · cases c with
          | nil => exact absurd hc.symm hsame
          | cons u c =>
            -- an element in front of the wrong one is taken out too, and was none of the OUI either
            obtain ⟨rfl,rfl⟩ := List.cons.inj hc
            have ht : ¬IsVendor oui t := hpre t (List.mem_append_right _ List.mem_cons_self)
            rw [Tlv.flat_cons, List.append_assoc] at hruns
            obtain ⟨x',ys',hbehind,hx'⟩ := hruns.behind h4 hdd ht
            rw [flat_append_rest, hbehind] at h
            have hno := ih (fun v hv => hpre v (List.mem_append_left _ hv)) hx' h
            intro hout
            apply hno
            refine List.IsPrefix.trans ⟨UInt8.ofNat t.body.length :: t.body ++ Tlv.flat c ++ [0xdd],?_⟩ hout
            rw [Tlv.flat_append, Tlv.flat_cons, Tlv.bytes, ← (hruns.short ht).1]
            simp only [List.append_assoc, List.cons_append, List.nil_append]

/-- What is left as it should be was left so by taking out the elements of the OUI only. -/
theorem removable_of_del (h4 : oui.length = 4) (hdd : (0xdd : UInt8) ∉ oui) (hread : Tlv.read rest = none)
    (h : delVendorIeLoop (getVendorIe oui) fuel (Tlv.flat ts ++ rest ++ beyond) (Tlv.flat ts ++ rest).length =
      some (delResult oui ts rest beyond)) : Removable oui ts rest := by
  induction fuel generalizing ts beyond with
  | zero => cases h
  | succ fuel ih =>
    cases hget : getVendorIe oui (Tlv.flat ts ++ rest ++ beyond) (Tlv.flat ts ++ rest).length with
    | none =>
      rw [delVendorIeLoop_none hget] at h
      have hlen := congrArg Prod.snd (Option.some.inj h)
      simp only [delResult, List.length_append] at hlen
      have hno : ∀ t ∈ ts, ¬IsVendor oui t := length_flat_kept_eq (by omega)
      rw [Removable]
      split
      · rename_i hlen
        have hfound := @getVendorIe_flat oui rest beyond ts hread hlen
        rw [hget] at hfound
        refine ⟨?_,?_⟩
        · rw [← List.append_nil ts]
          exact (vendorsNear_append hno).mpr trivial
        · intro pre post hsplit hnear
          rw [kept_eq_self hno] at hsplit
          exact hfound pre post hsplit (by rw [Nat.zero_add]; exact hnear)
      · exact hno
    | some r =>
      obtain ⟨p,n⟩ := r
      have hlen : (Tlv.flat ts ++ rest).length < 2 ^ 31 := by
        by_contra hge
        rw [getVendorIe, if_pos (Nat.le_of_not_lt hge)] at hget
        cases hget
      have hfound := @getVendorIe_flat oui rest beyond ts hread hlen
      rw [hget] at hfound
      obtain ⟨pre,post,rfl,rfl,hp,hruns,rfl,hfirst⟩ := hfound
      have hpre := not_vendor_of_first h4 hfirst
      rw [Nat.zero_add] at hget hp
      match post, hruns with
      | [], hruns =>
        rw [List.append_nil] at hget h
        rw [del_fault hread hruns rfl hget] at h
        cases h
      | t :: post, hruns =>
        rw [byteAt_one] at hget
        rw [del_take hget] at h
        by_cases ht : IsVendor oui t
        · rw [← delResult_remove ht] at h
          exact (removable_remove hpre ht hlen).mpr ⟨hp,ih h⟩
        · rw [Tlv.flat_cons, List.append_assoc] at hruns
          obtain ⟨x,ys,hbehind,hx⟩ := hruns.behind h4 hdd ht
          rw [flat_append_rest pre post, hbehind] at h
          apply absurd _ (false_removal h4 hdd hpre hx h)
          rw [kept_split hpre, kept_cons ht, Tlv.flat_append, Tlv.flat_cons, Tlv.bytes, (hruns.short ht).1]
          simp only [List.append_assoc, List.cons_append]
          exact List.prefix_append_right_inj _ |>.mpr (List.prefix_append [0xdd] _)

end Del

/-- A removal comes back with a length that is not larger. It leaves the other elements and the
bytes behind the last one, zeros in the freed tail, and the memory behind as it was. -/
def DelExact (oui : List UInt8) (del : List UInt8 → ℕ → Option (List UInt8 × ℕ))
    (ies beyond : List UInt8) : Prop :=
  ∃ out iesLen, del (ies ++ beyond) ies.length = some (out,iesLen) ∧ iesLen ≤ ies.length ∧
    out = Tlv.flat (kept oui (Tlv.readAll ies).1) ++ (Tlv.readAll ies).2 ++
      (List.replicate (ies.length - iesLen) 0 ++ beyond) ∧
    iesLen = (Tlv.flat (kept oui (Tlv.readAll ies).1) ++ (Tlv.readAll ies).2).length

theorem delExact_iff {oui : List UInt8} (h4 : oui.length = 4) (hdd : (0xdd : UInt8) ∉ oui) (ies beyond : List UInt8) :
    DelExact oui (fun m n => delVendorIeLoop (getVendorIe oui) (n + 1) m n) ies beyond ↔
      Removable oui (Tlv.readAll ies).1 (Tlv.readAll ies).2 := by
  obtain ⟨hbytes,hread⟩ := Tlv.reads_readAll ies
  have hkept := length_flat_kept_le oui (Tlv.readAll ies).1
  have hlen := congrArg List.length hbytes
  rw [List.length_append] at hlen
  have hzeros : ies.length - (Tlv.flat (kept oui (Tlv.readAll ies).1) ++ (Tlv.readAll ies).2).length =
      (Tlv.flat (Tlv.readAll ies).1).length - (Tlv.flat (kept oui (Tlv.readAll ies).1)).length := by
    rw [List.length_append]
    omega
  constructor
  · rintro ⟨out,iesLen,hdel,-,rfl,rfl⟩
    rw [hzeros] at hdel
    have hdel' : delVendorIeLoop (getVendorIe oui) (ies.length + 1)
        (Tlv.flat (Tlv.readAll ies).1 ++ (Tlv.readAll ies).2 ++ beyond)
        (Tlv.flat (Tlv.readAll ies).1 ++ (Tlv.readAll ies).2).length =
        some (delResult oui (Tlv.readAll ies).1 (Tlv.readAll ies).2 beyond) := by
      rw [← hbytes]
      exact hdel
    exact removable_of_del h4 hdd hread hdel'
  · intro h
    have hdel := @del_of_removable _ _ beyond _ _ h4 hdd hread h (Nat.lt_succ_self _)
    rw [← hbytes] at hdel
    refine ⟨_,_,hdel,?_,?_,rfl⟩
    · simp only [List.length_append]
      omega
    · rw [hzeros]

/-- The two removals are exact exactly when every element to be taken out is near enough, in front
of it counted only what stays, and nothing that stays runs like one of them. -/
theorem del_vendor_ies_exact_iff (ies beyond : List UInt8) :
    (DelExact P2P_OUI rtwDelP2pIe ies beyond ↔ Removable P2P_OUI (Tlv.readAll ies).1 (Tlv.readAll ies).2) ∧
    (DelExact WFD_OUI rtwDelWfdIe ies beyond ↔ Removable WFD_OUI (Tlv.readAll ies).1 (Tlv.readAll ies).2) :=
  ⟨delExact_iff (by decide) (by decide) ies beyond,delExact_iff (by decide) (by decide) ies beyond⟩

/-- A P2P element with a length of 40, cut off behind its OUI -/
def cutP2pIe : List UInt8 := [0xdd,40,0x50,0x6f,0x9a,0x09]

theorem cut_p2p_ie_moves_four_gigabytes : ¬∀ ies beyond, DelExact P2P_OUI rtwDelP2pIe ies beyond ∧
    DelExact WFD_OUI rtwDelWfdIe ies beyond := by
  intro h
  obtain ⟨⟨out,n,hdel,-⟩,-⟩ := h cutP2pIe []
  have hnone : rtwDelP2pIe (cutP2pIe ++ []) cutP2pIe.length = none := by decide
  cases hnone.symm.trans hdel

end Rtl8188fu
