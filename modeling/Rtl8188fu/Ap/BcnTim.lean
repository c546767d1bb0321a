import Rtl8188fu.Ieee80211.GetIe

/-! # The TIM element of the beacon

`update_BCNTIM` on the memory from `pnetwork_mlmeext->IEs` on, on a little-endian host.
-/
namespace Rtl8188fu
open Bytes

def TIM_IE : UInt8 := 5
def SSID_IE : UInt8 := 0
def SUPPORTEDRATES_IE : UInt8 := 1
/-- `_FIXED_IE_LENGTH_` and `_BEACON_IE_OFFSET_` -/
def BEACON_IE_OFFSET : ℕ := 12

/-- The bitmap control of the element -/
def timCtrl (timBitmap : ℕ) : UInt8 := if timBitmap &&& 1 ≠ 0 then 1 else 0

/-- The element that is written for a map -/
def timIe (timBitmap : ℕ) : List UInt8 :=
  let timIelen := if timBitmap &&& 0xff00 ≠ 0 ∧ timBitmap &&& 0x00fe ≠ 0 then 5 else 4
  [TIM_IE, UInt8.ofNat timIelen, 0, 1, timCtrl timBitmap] ++
    if timIelen = 4 then
      if timBitmap &&& 0x00fe ≠ 0 then [UInt8.ofNat timBitmap]
      else if timBitmap &&& 0xff00 ≠ 0 then [UInt8.ofNat (timBitmap / 256)]
      else [UInt8.ofNat timBitmap]
    else [UInt8.ofNat timBitmap, UInt8.ofNat (timBitmap / 256)]

/-- The length of an element that was looked for, with its header -/
def foundLen : Option (ℕ × ℕ) → ℕ
  | some r => r.2 + 2
  | none => 0

/-- Where the element goes, and the length of the one that is there -/
def timPlace (pie : List UInt8) (ieLength : ℕ) : ℕ × ℕ :=
  let get := fun index => rtwGetIe (pie.drop BEACON_IE_OFFSET) index (ieLength - BEACON_IE_OFFSET)
  match get TIM_IE with
  | some (p, timIelen) =>
    if timIelen > 0 then (BEACON_IE_OFFSET + p, timIelen + 2)
    else (BEACON_IE_OFFSET + foundLen (get SSID_IE) + foundLen (get SUPPORTEDRATES_IE) + 3, 0)
  -- three bytes are left for the DS parameter set
  | none => (BEACON_IE_OFFSET + foundLen (get SSID_IE) + foundLen (get SUPPORTEDRATES_IE) + 3, 0)

/-- `rtw_malloc` of a size that became negative fails; it is taken to succeed for others. -/
def mallocFits (size : ℕ) : Bool := size < 2 ^ 31

/-- `update_BCNTIM`: the memory and `IELength` -/
def updateBcnTim (timBitmap : ℕ) (pie : List UInt8) (ieLength : ℕ) : List UInt8 × ℕ :=
  let (dst, timIelen) := timPlace pie ieLength
  let remainderIelen := (((ieLength : ℤ) - dst - timIelen) % 2 ^ 32).toNat
  let remainder := if mallocFits remainderIelen then slice pie (dst + timIelen) remainderIelen else []
  let tim := timIe timBitmap
  (patch (patch pie dst tim) (dst + tim.length) remainder, (dst + tim.length + remainderIelen) % 2 ^ 32)

/-- A traffic indication map: group traffic is bit 0 of the bitmap control, the first octet of
the partial virtual bitmap has twice the number of the other bits. -/
def timGroup (t : Tlv) : Bool := (byteAt t.body 2).toNat.testBit 0

def timTraffic (t : Tlv) (aid : ℕ) : Bool :=
  let n1 := (byteAt t.body 2).toNat / 2 * 2
  n1 ≤ aid / 8 && aid / 8 - n1 < t.body.length - 3 && (byteAt t.body (3 + (aid / 8 - n1))).toNat.testBit (aid % 8)

/-- The element says what the map says. -/
structure Indicates (t : Tlv) (timBitmap : ℕ) : Prop where
  length : 4 ≤ t.body.length
  group : timGroup t = timBitmap.testBit 0
  traffic : ∀ aid, 0 < aid → timTraffic t aid = timBitmap.testBit aid

/-- One TIM element at most, and no incomplete one -/
structure BeaconIes (ies : List Tlv) : Prop where
  one : (ies.filter fun t => t.id = TIM_IE).length ≤ 1
  complete : ∀ t ∈ ies, t.id = TIM_IE → 4 ≤ t.body.length

/-- The buffer holds the other elements as before and one TIM element, which is right. -/
def TimUpdated (fixed : List UInt8) (ies : List Tlv) (timBitmap : ℕ) (r : List UInt8 × ℕ) : Prop :=
  ∃ ies' t, r.1.take r.2 = fixed ++ Tlv.flat ies' ∧ r.2 = fixed.length + (Tlv.flat ies').length ∧
    (ies'.filter fun t => t.id = TIM_IE) = [t] ∧ Indicates t timBitmap ∧
    (ies'.filter fun t => t.id ≠ TIM_IE) = ies.filter fun t => t.id ≠ TIM_IE

/-- The map can be told by the form that is chosen for it: the high part is never alone. -/
def TimFits (timBitmap : ℕ) : Prop := timBitmap &&& 0xff00 = 0 ∨ timBitmap &&& 0x00fe ≠ 0

instance (timBitmap : ℕ) : Decidable (TimFits timBitmap) := by
  delta TimFits
  infer_instance

section Bits
variable {b : ℕ}

theorem and_eq_zero_iff (b m : ℕ) : b &&& m = 0 ↔ ∀ k, m.testBit k = true → b.testBit k = false := by
  constructor
  · intro h k hk
    have := congrArg (fun n => n.testBit k) h
    simpa [Nat.testBit_and, hk] using this
  · intro h
    apply Nat.eq_of_testBit_eq
    intro k
    rw [Nat.testBit_and, Nat.zero_testBit]
    cases hk : m.testBit k with
    | true => rw [h k hk, Bool.false_and]
    | false => rw [Bool.and_false]

theorem testBit_low (k : ℕ) : (0x00fe : ℕ).testBit k = true ↔ 0 < k ∧ k < 8 := by
  by_cases hk : k < 8
  · interval_cases k <;> decide
  · rw [Nat.testBit_lt_two_pow (Nat.lt_of_lt_of_le (by decide : 0xfe < 2 ^ 8)
      (Nat.pow_le_pow_right (by decide) (by omega)))]
    simp [hk]

theorem testBit_high (k : ℕ) : (0xff00 : ℕ).testBit k = true ↔ 8 ≤ k ∧ k < 16 := by
  by_cases hk : k < 16
  · interval_cases k <;> decide
  · rw [Nat.testBit_lt_two_pow
      (Nat.lt_of_lt_of_le (by decide : 0xff00 < 2 ^ 16) (Nat.pow_le_pow_right (by decide) (by omega)))]
    simp [hk]

theorem and_low_eq_zero : b &&& 0x00fe = 0 ↔ ∀ k, 0 < k → k < 8 → b.testBit k = false := by
  simp only [and_eq_zero_iff, testBit_low, and_imp]

theorem and_high_eq_zero (hb : b < 65536) : b &&& 0xff00 = 0 ↔ ∀ k, 8 ≤ k → b.testBit k = false := by
  rw [and_eq_zero_iff]
  constructor
  · intro h k hk
    by_cases h16 : k < 16
    · exact h k ((testBit_high k).mpr ⟨hk,h16⟩)
    · have hpow : 2 ^ 16 ≤ 2 ^ k := Nat.pow_le_pow_right (by decide) (by omega)
      exact Nat.testBit_lt_two_pow (Nat.lt_of_lt_of_le hb hpow)
  · intro h k hk
    exact h k ((testBit_high k).mp hk).1

theorem testBit_ofNat (k : ℕ) (hk : k < 8) : (UInt8.ofNat b).toNat.testBit k = b.testBit k := by
  rw [UInt8.toNat_ofNat', Nat.testBit_mod_two_pow]
  simp [hk]

theorem testBit_ofNat_high (k : ℕ) (hk : k < 8) : (UInt8.ofNat (b / 256)).toNat.testBit k = b.testBit (8 + k) := by
  rw [testBit_ofNat k hk, show (256 : ℕ) = 2 ^ 8 from rfl, Nat.testBit_div_two_pow, Nat.add_comm]

end Bits

section Forms
variable {b : ℕ}

theorem timIe_long (hh : b &&& 0xff00 ≠ 0) (hl : b &&& 0x00fe ≠ 0) :
    timIe b = [TIM_IE, 5, 0, 1, timCtrl b, UInt8.ofNat b, UInt8.ofNat (b / 256)] := by
  simp [timIe, hh, hl]

theorem timIe_low (hh : b &&& 0xff00 = 0) : timIe b = [TIM_IE, 4, 0, 1, timCtrl b, UInt8.ofNat b] := by
  simp [timIe, hh]

theorem timIe_high (hh : b &&& 0xff00 ≠ 0) (hl : b &&& 0x00fe = 0) :
    timIe b = [TIM_IE, 4, 0, 1, timCtrl b, UInt8.ofNat (b / 256)] := by
  simp [timIe, hh, hl]

theorem timIe_cases (b : ℕ) :
    (b &&& 0xff00 ≠ 0 ∧ b &&& 0x00fe ≠ 0 ∧
      timIe b = [TIM_IE, 5, 0, 1, timCtrl b, UInt8.ofNat b, UInt8.ofNat (b / 256)]) ∨
    (b &&& 0xff00 = 0 ∧ timIe b = [TIM_IE, 4, 0, 1, timCtrl b, UInt8.ofNat b]) ∨
    (b &&& 0xff00 ≠ 0 ∧ b &&& 0x00fe = 0 ∧ timIe b = [TIM_IE, 4, 0, 1, timCtrl b, UInt8.ofNat (b / 256)]) := by
  by_cases hh : b &&& 0xff00 = 0
  · exact Or.inr (Or.inl ⟨hh,timIe_low hh⟩)
  · by_cases hl : b &&& 0x00fe = 0
    · exact Or.inr (Or.inr ⟨hh,hl,timIe_high hh hl⟩)
    · exact Or.inl ⟨hh,hl,timIe_long hh hl⟩

theorem timIe_short (b : ℕ) : ((timIe b).drop 2).length < 256 := by
  rcases timIe_cases b with ⟨-,-,h⟩ | ⟨-,h⟩ | ⟨-,-,h⟩ <;> simp [h]

/-- The element that is written for a map, as a record -/
def timTlv (b : ℕ) : Tlv := ⟨TIM_IE,(timIe b).drop 2,timIe_short b⟩

theorem bytes_timTlv (b : ℕ) : (timTlv b).bytes = timIe b := by
  rcases timIe_cases b with ⟨-,-,h⟩ | ⟨-,h⟩ | ⟨-,-,h⟩ <;> simp only [Tlv.bytes, timTlv, h] <;> rfl

theorem timCtrl_group (b : ℕ) : (timCtrl b).toNat.testBit 0 = b.testBit 0 ∧ (timCtrl b).toNat / 2 * 2 = 0 := by
  have h1 : b &&& 1 = b % 2 := Nat.and_one_is_mod b
  rw [timCtrl, h1, Nat.testBit_zero b]
  rcases Nat.mod_two_eq_zero_or_one b with h | h <;> rw [h] <;> exact ⟨by decide,by decide⟩

theorem byteAt_timTlv (b i : ℕ) : byteAt (timTlv b).body i = byteAt (timIe b) (2 + i) := byteAt_drop _ _ _

theorem timTlv_ctrl (b : ℕ) : byteAt (timTlv b).body 2 = timCtrl b := by
  rw [byteAt_timTlv]
  rcases timIe_cases b with ⟨-,-,h⟩ | ⟨-,h⟩ | ⟨-,-,h⟩ <;> rw [h] <;> rfl

theorem timTraffic_timTlv (b aid : ℕ) : timTraffic (timTlv b) aid =
    (decide (aid / 8 < (timIe b).length - 5) && (byteAt (timIe b) (5 + aid / 8)).toNat.testBit (aid % 8)) := by
  have hlen : (timTlv b).body.length - 3 = (timIe b).length - 5 := by
    rw [timTlv, List.length_drop]
    omega
  have hat : 2 + (3 + (aid / 8 - 0)) = 5 + aid / 8 := by omega
  rw [timTraffic, timTlv_ctrl, (timCtrl_group b).2, byteAt_timTlv, hlen, hat]
  simp

/-- The element is right exactly when there is a station in the low part of the map or none in
the high part. -/
theorem indicates_timTlv (hb : b < 65536) : Indicates (timTlv b) b ↔ TimFits b := by
  have hgroup : timGroup (timTlv b) = b.testBit 0 := by rw [timGroup, timTlv_ctrl, (timCtrl_group b).1]
  have hlen : 4 ≤ (timTlv b).body.length := by
    rw [timTlv, List.length_drop]
    rcases timIe_cases b with ⟨-,-,h⟩ | ⟨-,h⟩ | ⟨-,-,h⟩ <;> simp [h]
  have habove : ∀ aid, 16 ≤ aid → b.testBit aid = false := by
    intro aid h16
    have hpow : 2 ^ 16 ≤ 2 ^ aid := Nat.pow_le_pow_right (by decide) h16
    exact Nat.testBit_lt_two_pow (Nat.lt_of_lt_of_le hb hpow)
  rcases timIe_cases b with ⟨hh,hl,h⟩ | ⟨hh,h⟩ | ⟨hh,hl,h⟩
  · refine ⟨fun _ => Or.inr hl,fun _ => ⟨hlen,hgroup,?_⟩⟩
    intro aid h0
    rw [timTraffic_timTlv, h]
    rcases (by omega : aid / 8 = 0 ∨ aid / 8 = 1 ∨ 2 ≤ aid / 8) with h8 | h8 | h8
    · simp only [h8]
      rw [show aid % 8 = aid by omega]
      simpa [byteAt] using testBit_ofNat aid (by omega)
    · simp only [h8]
      have := @testBit_ofNat_high b (aid % 8) (by omega)
      rw [show 8 + aid % 8 = aid by omega] at this
      simpa [byteAt] using this
    · rw [habove aid (by omega), decide_eq_false (by simp; omega), Bool.false_and]
  · refine ⟨fun _ => Or.inl hh,fun _ => ⟨hlen,hgroup,?_⟩⟩
    intro aid h0
    rw [timTraffic_timTlv, h]
    rcases (by omega : aid / 8 = 0 ∨ 1 ≤ aid / 8) with h8 | h8
    · simp only [h8]
      rw [show aid % 8 = aid by omega]
      simpa [byteAt] using testBit_ofNat aid (by omega)
    · rw [(and_high_eq_zero hb).mp hh aid (by omega), decide_eq_false (by simp; omega), Bool.false_and]
  · refine ⟨fun hind => ?_,fun hfit => ?_⟩
    · -- no station of the high part is told
      refine absurd ((and_high_eq_zero hb).mpr ?_) hh
      intro k hk
      rw [← hind.traffic k (by omega), timTraffic_timTlv, h, decide_eq_false (by simp; omega), Bool.false_and]
    · rcases hfit with hfit | hfit
      · exact absurd hfit hh
      · exact absurd hl hfit

end Forms

/-- A list that can change sides with another one is turned around by it. -/
theorem exists_rotate {α : Type*} {u v w : List α} (h : u ++ w = w ++ v) : ∃ i < u.length + 1, v = u.rotate i := by
  induction hn : w.length using Nat.strong_induction_on generalizing w with
  | _ n ih =>
    rcases List.append_eq_append_iff.mp h with ⟨z,rfl,hz⟩ | ⟨z,rfl,hz⟩
    · -- `w` starts with `u`
      by_cases hu : u = []
      · subst hu
        exact ⟨0,Nat.zero_lt_succ _,by simpa using h.symm⟩
      · have hpos := List.length_pos_iff.mpr hu
        have hrest : u ++ z = z ++ v := by
          rw [List.append_assoc] at h
          exact List.append_cancel_left h
        exact ih z.length (by rw [← hn, List.length_append]; omega) hrest rfl
    · refine ⟨w.length,by rw [List.length_append]; omega,?_⟩
      rw [List.rotate_append_length_eq, ← hz]

theorem patch_append_left {m a bs : List UInt8} (hfit : bs.length ≤ m.length) :
    patch (a ++ m) a.length bs = a ++ bs ++ m.drop bs.length := by
  rw [patch, List.take_left, List.length_append, List.take_of_length_le (by omega), List.drop_append,
    List.drop_eq_nil_of_le (by omega), List.nil_append, Nat.add_sub_cancel_left]

theorem length_timIe_le (b : ℕ) : 6 ≤ (timIe b).length ∧ (timIe b).length ≤ 7 := by
  rcases timIe_cases b with ⟨-,-,h⟩ | ⟨-,h⟩ | ⟨-,-,h⟩ <;> simp [h]

/-- The memory after an element has been put in place of `old` -/
theorem updateBcnTim_write {b : ℕ} {pie a old rem junk : List UInt8} {ieLength : ℕ}
    (hplace : timPlace pie ieLength = (a.length,old.length)) (hpie : pie = a ++ old ++ rem ++ junk)
    (hlen : ieLength = a.length + old.length + rem.length) (hroom : (timIe b).length ≤ old.length + junk.length)
    (hsize : pie.length + 7 < 2 ^ 31) :
    (updateBcnTim b pie ieLength).2 = a.length + (timIe b).length + rem.length ∧
      (updateBcnTim b pie ieLength).1.take (updateBcnTim b pie ieLength).2 = a ++ timIe b ++ rem := by
  have h7 := (length_timIe_le b).2
  have hplen := congrArg List.length hpie
  simp only [List.length_append] at hplen
  have hrem : (((ieLength : ℤ) - a.length - old.length) % 2 ^ 32).toNat = rem.length := by omega
  have hcopy : slice pie (a.length + old.length) rem.length = rem := by
    rw [hpie, slice, ← List.length_append, List.append_assoc, List.drop_left, List.take_left]
  have hfits : mallocFits rem.length = true := decide_eq_true (by omega)
  have hfirst : patch pie a.length (timIe b) = a ++ timIe b ++ (old ++ rem ++ junk).drop (timIe b).length := by
    rw [hpie, List.append_assoc, List.append_assoc, patch_append_left (by simp only [List.length_append]; omega),
      ← List.append_assoc old]
  have hsecond : patch (patch pie a.length (timIe b)) (a.length + (timIe b).length) rem =
      a ++ timIe b ++ rem ++ ((old ++ rem ++ junk).drop (timIe b).length).drop rem.length := by
    rw [hfirst, ← List.length_append,
      patch_append_left (by rw [List.length_drop]; simp only [List.length_append]; omega)]
  rw [updateBcnTim, hplace]
  dsimp only
  rw [hrem, hfits, if_pos rfl, hcopy, hsecond, Nat.mod_eq_of_lt (by omega)]
  refine ⟨rfl,?_⟩
  rw [← List.length_append, ← List.length_append, List.take_left]

/-- Nothing is copied when the place is behind the end of the sequence. -/
theorem updateBcnTim_gap {b dst : ℕ} {a junk : List UInt8} (hplace : timPlace (a ++ junk) a.length = (dst,0))
    (hgap : a.length < dst) (hle : dst ≤ a.length + 3) (hroom : 10 ≤ junk.length) (hsize : a.length + 10 < 2 ^ 31) :
    (updateBcnTim b (a ++ junk) a.length).2 = a.length + (timIe b).length ∧
      (updateBcnTim b (a ++ junk) a.length).1.take (updateBcnTim b (a ++ junk) a.length).2 =
        a ++ junk.take (dst - a.length) ++ (timIe b).take ((timIe b).length - (dst - a.length)) := by
  obtain ⟨h6,h7⟩ := length_timIe_le b
  obtain ⟨g,hg⟩ : ∃ g, dst = a.length + g := ⟨dst - a.length,by omega⟩
  have hrem : (((a.length : ℤ) - dst - (0 : ℕ)) % 2 ^ 32).toNat = 2 ^ 32 - g := by omega
  have hfits : mallocFits (2 ^ 32 - g) = false := decide_eq_false (by omega)
  have hfirst :
      patch (a ++ junk) dst (timIe b) = a ++ junk.take g ++ timIe b ++ (junk.drop g).drop (timIe b).length := by
    have hsplit : a ++ junk = (a ++ junk.take g) ++ junk.drop g := by rw [List.append_assoc, List.take_append_drop]
    have hat : dst = (a ++ junk.take g).length := by
      rw [List.length_append, List.length_take]
      omega
    rw [hsplit, hat, patch_append_left (by rw [List.length_drop]; omega)]
  have hnil : ∀ (m : List UInt8) i, patch m i [] = m := by
    intro m i
    rw [patch, List.take_nil, List.append_nil, List.length_nil, Nat.add_zero, List.take_append_drop]
  rw [updateBcnTim, hplace]
  dsimp only
  rw [hrem, hfits]
  rw [if_neg (by decide), hnil, hfirst]
  have hlen : (dst + (timIe b).length + (2 ^ 32 - g)) % 2 ^ 32 = a.length + (timIe b).length := by omega
  have hback : dst - a.length = g := by omega
  have hcut : (timIe b).length = (junk.take g).length + ((timIe b).length - g) := by
    rw [List.length_take]
    omega
  rw [hlen, hback, List.append_assoc, List.append_assoc, List.take_length_add_append]
  refine ⟨rfl,?_⟩
  rw [hcut, List.take_length_add_append, ← hcut, List.take_append_of_le_length (by omega), List.append_assoc]

/-- The room of the first element with a number -/
def ieRoom (index : UInt8) (ies : List Tlv) : ℕ :=
  ((ies.find? fun t => t.id = index).map fun t => t.body.length + 2).getD 0

/-- Where the element goes when there was none, from the first element on -/
def newTimPlace (ies : List Tlv) : ℕ := ieRoom SSID_IE ies + ieRoom SUPPORTEDRATES_IE ies + 3

theorem firstIe_room {index : UInt8} {ies : List Tlv} {o : Option (ℕ × ℕ)} (h : FirstIe index ies o) :
    foundLen o = ieRoom index ies := by
  cases h with
  | none h =>
    have hfind : ies.find? (fun t => t.id = index) = none := by
      rw [List.find?_eq_none]
      intro t ht
      simpa using h t ht
    rw [ieRoom, hfind]
    rfl
  | some hpre ht hts =>
    rename_i pre post t
    have hfind : pre.find? (fun t => t.id = index) = none := by
      rw [List.find?_eq_none]
      intro u hu
      simpa using hpre u hu
    rw [ieRoom, hts, List.find?_append, hfind, Option.none_or, List.find?_cons_of_pos (by simpa using ht)]
    rfl

theorem ieRoom_cons (index : UInt8) (t : Tlv) (ies : List Tlv) :
    ieRoom index (t :: ies) = if t.id = index then t.body.length + 2 else ieRoom index ies := by
  rw [ieRoom, List.find?_cons]
  split
  · rename_i h
    rw [if_pos (of_decide_eq_true h)]
    rfl
  · rename_i h
    rw [if_neg (of_decide_eq_false h), ieRoom]

theorem ieRoom_le (index : UInt8) (ies : List Tlv) : ieRoom index ies ≤ (Tlv.flat ies).length := by
  induction ies with
  | nil => exact Nat.le_refl 0
  | cons t ies ih =>
    rw [ieRoom_cons, Tlv.flat_cons, List.length_append, Tlv.length_bytes]
    split <;> omega

theorem ieRoom_add_le {i j : UInt8} (hij : i ≠ j) (ies : List Tlv) :
    ieRoom i ies + ieRoom j ies ≤ (Tlv.flat ies).length := by
  induction ies with
  | nil => exact Nat.le_refl 0
  | cons t ies ih =>
    have hi := ieRoom_le i ies
    have hj := ieRoom_le j ies
    rw [ieRoom_cons, ieRoom_cons, Tlv.flat_cons, List.length_append, Tlv.length_bytes]
    by_cases h : t.id = i
    · rw [if_pos h, if_neg (fun h' => hij (h.symm.trans h'))]
      omega
    · rw [if_neg h]
      split <;> omega

section Place
variable {fixed junk : List UInt8} {ies : List Tlv} (hfixed : fixed.length = BEACON_IE_OFFSET)
include hfixed

theorem firstIe_beacon (index : UInt8) :
    FirstIe index ies (rtwGetIe ((fixed ++ Tlv.flat ies ++ junk).drop BEACON_IE_OFFSET) index
      (fixed.length + (Tlv.flat ies).length - BEACON_IE_OFFSET)) := by
  rw [← hfixed, List.append_assoc, List.drop_left, Nat.add_sub_cancel_left]
  exact rtwGetIe_flat index ies junk

theorem timPlace_new (hno : ∀ t ∈ ies, t.id ≠ TIM_IE) :
    timPlace (fixed ++ Tlv.flat ies ++ junk)
    (fixed.length + (Tlv.flat ies).length) = (fixed.length + newTimPlace ies,0) := by
  have hssid := firstIe_room (@firstIe_beacon fixed junk ies hfixed SSID_IE)
  have hrates := firstIe_room (@firstIe_beacon fixed junk ies hfixed SUPPORTEDRATES_IE)
  have htim := @firstIe_beacon fixed junk ies hfixed TIM_IE
  rw [timPlace]
  dsimp only
  rw [hssid, hrates]
  cases hget : rtwGetIe ((fixed ++ Tlv.flat ies ++ junk).drop BEACON_IE_OFFSET) TIM_IE
      (fixed.length + (Tlv.flat ies).length - BEACON_IE_OFFSET) with
  | none =>
    rw [newTimPlace, hfixed]
    dsimp only
    simp only [Nat.add_assoc]
  | some r =>
    rw [hget] at htim
    cases htim with
    | some hpre ht hts => exact absurd ht (hno _ (hts ▸ List.mem_append_right _ List.mem_cons_self))

theorem timPlace_old {t : Tlv} (hmem : t ∈ ies) (ht : t.id = TIM_IE)
    (hbody : ∀ u ∈ ies, u.id = TIM_IE → 4 ≤ u.body.length) :
    ∃ pre t post, ies = pre ++ t :: post ∧ t.id = TIM_IE ∧
      timPlace (fixed ++ Tlv.flat ies ++ junk) (fixed.length + (Tlv.flat ies).length) =
        ((fixed ++ Tlv.flat pre).length,t.bytes.length) := by
  have htim := @firstIe_beacon fixed junk ies hfixed TIM_IE
  rw [timPlace]
  dsimp only
  cases hget : rtwGetIe ((fixed ++ Tlv.flat ies ++ junk).drop BEACON_IE_OFFSET) TIM_IE
      (fixed.length + (Tlv.flat ies).length - BEACON_IE_OFFSET) with
  | none =>
    rw [hget] at htim
    cases htim with
    | none h => exact absurd ht (h t hmem)
  | some r =>
    rw [hget] at htim
    cases htim with
    | some hpre hu hts =>
      rename_i pre post u
      have hlong := hbody u (hts ▸ List.mem_append_right _ List.mem_cons_self) hu
      refine ⟨pre,u,post,hts,hu,?_⟩
      dsimp only
      rw [if_pos (by omega), List.length_append, hfixed, Tlv.length_bytes]

end Place

section Exact
variable {t : Tlv} {b : ℕ}

/-- What keeps an element from telling any station of the low part -/
theorem Indicates.low (h : Indicates t b)
    (hbody : (byteAt t.body 2).toNat / 2 ≠ 0 ∨ (byteAt t.body 3).toNat ≤ 1) :
    b &&& 0x00fe = 0 := by
  rw [and_low_eq_zero]
  intro k h0 h8
  rw [← h.traffic k h0, timTraffic]
  rcases hbody with hoff | hbyte
  · rw [decide_eq_false (by omega), Bool.false_and, Bool.false_and]
  · have hk : k / 8 - (byteAt t.body 2).toNat / 2 * 2 = 0 := by omega
    have hbit : (byteAt t.body 3).toNat.testBit k = false :=
      Nat.testBit_lt_two_pow (Nat.lt_of_le_of_lt hbyte (Nat.one_lt_two_pow (by omega)))
    rw [hk, Nat.mod_eq_of_lt h8, Nat.add_zero, hbit, Bool.and_false]

theorem timCtrl_le (b : ℕ) : (timCtrl b).toNat ≤ 1 := by
  rw [timCtrl]
  split <;> decide

theorem rotate_short {c v : UInt8} (hc : c.toNat ≤ 1) {i : ℕ} (hi : i < 7)
    (h0 : byteAt ([TIM_IE, 4, 0, 1, c, v].rotate i) 0 = 5) (h1 : byteAt ([TIM_IE, 4, 0, 1, c, v].rotate i) 1 = 4) :
    [TIM_IE, 4, 0, 1, c, v].rotate i = [TIM_IE, 4, 0, 1, c, v] := by
  have hc5 : c ≠ 5 := by
    rintro rfl
    exact absurd hc (by decide)
  interval_cases i <;> simp_all [byteAt, TIM_IE]

theorem rotate_long {c lo hi : UInt8} (hc : c.toNat ≤ 1) {i : ℕ} (hi' : i < 8)
    (h0 : byteAt ([TIM_IE, 5, 0, 1, c, lo, hi].rotate i) 0 = 5)
    (h1 : byteAt ([TIM_IE, 5, 0, 1, c, lo, hi].rotate i) 1 = 5) :
    [TIM_IE, 5, 0, 1, c, lo, hi].rotate i = [TIM_IE, 5, 0, 1, c, lo, hi] ∨
      (byteAt ([TIM_IE, 5, 0, 1, c, lo, hi].rotate i) 5).toNat ≤ 1 := by
  have hc5 : c ≠ 5 := by
    rintro rfl
    exact absurd hc (by decide)
  interval_cases i <;> simp_all [byteAt, TIM_IE]

/-- Turned around, the element that is written is not a right one any more. -/
theorem Indicates.rotate {i : ℕ} (h : Indicates t b) (ht : t.id = TIM_IE) (hi : i < (timIe b).length + 1)
    (hrot : t.bytes = (timIe b).rotate i) : t.bytes = timIe b := by
  have hlen := congrArg List.length hrot
  rw [List.length_rotate, Tlv.length_bytes] at hlen
  have h0 : byteAt t.bytes 0 = 5 := ht
  have h1 : byteAt t.bytes 1 = UInt8.ofNat ((timIe b).length - 2) := by
    rw [← hlen]
    rfl
  have hc := timCtrl_le b
  rcases timIe_cases b with ⟨hh,hl,heq⟩ | ⟨hh,heq⟩ | ⟨hh,hl,heq⟩
  · rw [heq] at h1 hrot hi ⊢
    rw [hrot] at h0 h1
    rcases rotate_long hc hi h0 h1 with hsame | hbyte
    · exact hrot.trans hsame
    · rw [← hrot] at hbyte
      exact absurd (h.low (Or.inr hbyte)) hl
  · rw [heq] at h1 hrot hi ⊢
    rw [hrot] at h0 h1
    exact hrot.trans (rotate_short hc hi h0 h1)
  · rw [heq] at h1 hrot hi ⊢
    rw [hrot] at h0 h1
    exact hrot.trans (rotate_short hc hi h0 h1)

end Exact

/-- A new element goes between two others: the computed place is the end of an element, or the
bytes from there to the end of an element only repeat what is written. When the place is behind
the last element, bytes that were left there may happen to be the beginning of an empty map. -/
def TimPlaceOk (b : ℕ) (ies : List Tlv) (junk : List UInt8) : Prop :=
  (∃ x y, ies = x ++ y ∧ newTimPlace ies ≤ (Tlv.flat x).length ∧
    timIe b ++ (Tlv.flat x).drop (newTimPlace ies) = (Tlv.flat x).drop (newTimPlace ies) ++ timIe b) ∨
  ((Tlv.flat ies).length + 1 < newTimPlace ies ∧ b = 0 ∧ junk.take 2 = [TIM_IE, 4])

/-- A sequence with one TIM element, taken apart there -/
theorem exists_tim {ies : List Tlv} {t : Tlv} (h : (ies.filter fun t => t.id = TIM_IE) = [t]) :
    ∃ x y, ies = x ++ t :: y ∧ t.id = TIM_IE ∧ (∀ u ∈ x ++ y, u.id ≠ TIM_IE) ∧
      (ies.filter fun t => t.id ≠ TIM_IE) = x ++ y := by
  obtain ⟨x,y,rfl,hx,ht,hy⟩ := List.filter_eq_cons_iff.mp h
  have hno : ∀ u ∈ x ++ y, u.id ≠ TIM_IE := by
    intro u hu
    rcases List.mem_append.mp hu with hu | hu
    · simpa using hx u hu
    · simpa using List.filter_eq_nil_iff.mp hy u hu
  have ht' : t.id = TIM_IE := by simpa using ht
  refine ⟨x,y,rfl,ht',hno,?_⟩
  rw [List.filter_append, List.filter_cons_of_neg (by simpa using ht'), ← List.filter_append, List.filter_eq_self]
  intro u hu
  simpa using hno u hu

theorem filter_tim {x y : List Tlv} {t : Tlv} (ht : t.id = TIM_IE) (hno : ∀ u ∈ x ++ y, u.id ≠ TIM_IE) :
    ((x ++ t :: y).filter fun t => t.id = TIM_IE) = [t] ∧
    ((x ++ t :: y).filter fun t => t.id ≠ TIM_IE) = x ++ y := by
  have hx : (x.filter fun t => t.id = TIM_IE) = [] := by
    rw [List.filter_eq_nil_iff]
    intro u hu
    simpa using hno u (List.mem_append_left _ hu)
  have hy : (y.filter fun t => t.id = TIM_IE) = [] := by
    rw [List.filter_eq_nil_iff]
    intro u hu
    simpa using hno u (List.mem_append_right _ hu)
  have h : ((x ++ t :: y).filter fun t => t.id = TIM_IE) = [t] := by
    rw [List.filter_append, List.filter_cons_of_pos (by simpa using ht), hx, hy, List.nil_append]
  refine ⟨h,?_⟩
  rw [List.filter_append, List.filter_cons_of_neg (by simpa using ht), ← List.filter_append, List.filter_eq_self]
  intro u hu
  simpa using hno u hu

section Updated
variable {b : ℕ} {fixed junk : List UInt8} {ies : List Tlv}

theorem timUpdated_iff {new : List UInt8} {r : List UInt8 × ℕ} (hlen : r.2 = fixed.length + new.length)
    (htake : r.1.take r.2 = fixed ++ new) :
    TimUpdated fixed ies b r ↔ ∃ x y t, new = Tlv.flat (x ++ t :: y) ∧ t.id = TIM_IE ∧
      (∀ u ∈ x ++ y, u.id ≠ TIM_IE) ∧ Indicates t b ∧ x ++ y = ies.filter fun t => t.id ≠ TIM_IE := by
  constructor
  · rintro ⟨ies',t,hbytes,-,hone,hind,hrest⟩
    obtain ⟨x,y,rfl,ht,hno,hxy⟩ := exists_tim hone
    rw [htake] at hbytes
    exact ⟨x,y,t,List.append_cancel_left hbytes,ht,hno,hind,hxy.symm.trans hrest⟩
  · rintro ⟨x,y,t,rfl,ht,hno,hind,hxy⟩
    obtain ⟨h1,h2⟩ := filter_tim ht hno
    exact ⟨x ++ t :: y,t,htake,hlen,h1,hind,h2.trans hxy⟩

/-- The element that is written goes in the place of one that was there, or between others. -/
theorem updated_between {x y : List Tlv} (hb : b < 65536) (hno : ∀ u ∈ x ++ y, u.id ≠ TIM_IE)
    (hxy : x ++ y = ies.filter fun t => t.id ≠ TIM_IE) {r : List UInt8 × ℕ}
    (hlen : r.2 = fixed.length + (Tlv.flat x ++ timIe b ++ Tlv.flat y).length)
    (htake : r.1.take r.2 = fixed ++ (Tlv.flat x ++ timIe b ++ Tlv.flat y)) :
    TimUpdated fixed ies b r ↔ TimFits b := by
  rw [timUpdated_iff hlen htake, ← indicates_timTlv hb]
  have hflat : Tlv.flat x ++ timIe b ++ Tlv.flat y = Tlv.flat (x ++ timTlv b :: y) := by
    rw [Tlv.flat_append, Tlv.flat_cons, bytes_timTlv, List.append_assoc]
  constructor
  · rintro ⟨x',y',t,hnew,ht,hno',hind,-⟩
    have hsame := Tlv.flat_inj (hflat.symm.trans hnew)
    have h1 := (filter_tim (t := timTlv b) rfl hno).1
    rw [hsame, (filter_tim ht hno').1] at h1
    rw [← List.singleton_inj.mp h1]
    exact hind
  · intro hind
    exact ⟨x,y,timTlv b,hflat,rfl,hno,hind,hxy⟩

theorem tim_eq {t : Tlv} (h : t.bytes = timIe b) : t = timTlv b := by
  have hflat : Tlv.flat [t] = Tlv.flat [timTlv b] := by
    rw [Tlv.flat_cons, Tlv.flat_cons, h, bytes_timTlv]
  exact List.singleton_inj.mp (Tlv.flat_inj hflat)

/-- A TIM element does not begin where another element does. -/
theorem not_tim_first {t : Tlv} {y : List Tlv} {z z' : List UInt8} {m : ℕ} (ht : t.id = TIM_IE)
    (hno : ∀ u ∈ y, u.id ≠ TIM_IE) (hm : 0 < m) (hy : y ≠ [])
    (h : (Tlv.flat y).take m ++ z = t.bytes ++ z') : False := by
  obtain ⟨u,y,rfl⟩ := List.exists_cons_of_ne_nil hy
  obtain ⟨m,rfl⟩ : ∃ n, m = n + 1 := ⟨m - 1,by omega⟩
  have hid : u.id = t.id := List.head_eq_of_cons_eq h
  exact hno u List.mem_cons_self (hid.trans ht)

theorem filter_others (hno : ∀ t ∈ ies, t.id ≠ TIM_IE) : (ies.filter fun t => t.id ≠ TIM_IE) = ies := by
  rw [List.filter_eq_self]
  intro t ht
  simpa using hno t ht

theorem new_within {off : ℕ} (hb : b < 65536) (hno : ∀ t ∈ ies, t.id ≠ TIM_IE)
    (hoff : off ≤ (Tlv.flat ies).length)
    {r : List UInt8 × ℕ}
    (hlen : r.2 = fixed.length + ((Tlv.flat ies).take off ++ timIe b ++ (Tlv.flat ies).drop off).length)
    (htake : r.1.take r.2 = fixed ++ ((Tlv.flat ies).take off ++ timIe b ++ (Tlv.flat ies).drop off)) :
    TimUpdated fixed ies b r ↔ TimFits b ∧ ∃ x y, ies = x ++ y ∧ off ≤ (Tlv.flat x).length ∧
      timIe b ++ (Tlv.flat x).drop off = (Tlv.flat x).drop off ++ timIe b := by
  have hall := filter_others hno
  have hsplit : ∀ {x y : List Tlv}, ies = x ++ y → off ≤ (Tlv.flat x).length →
      (Tlv.flat ies).take off = (Tlv.flat x).take off ∧
        (Tlv.flat ies).drop off = (Tlv.flat x).drop off ++ Tlv.flat y := by
    rintro x y rfl hx
    rw [Tlv.flat_append]
    exact ⟨List.take_append_of_le_length hx,List.drop_append_of_le_length hx⟩
  constructor
  · intro hup
    obtain ⟨x,y,t,hnew,ht,hno',hind,hxy⟩ := (timUpdated_iff hlen htake).mp hup
    rw [hall] at hxy
    rw [Tlv.flat_append, Tlv.flat_cons] at hnew
    by_cases hx : off ≤ (Tlv.flat x).length
    · obtain ⟨h1,h2⟩ := hsplit hxy.symm hx
      have hx' : Tlv.flat x = (Tlv.flat x).take off ++ (Tlv.flat x).drop off := (List.take_append_drop _ _).symm
      rw [h1, h2] at hnew
      have hfull : (Tlv.flat x).take off ++ (timIe b ++ (Tlv.flat x).drop off) ++ Tlv.flat y =
          (Tlv.flat x).take off ++ ((Tlv.flat x).drop off ++ t.bytes) ++ Tlv.flat y := by
        calc (Tlv.flat x).take off ++ (timIe b ++ (Tlv.flat x).drop off) ++ Tlv.flat y
            = (Tlv.flat x).take off ++ timIe b ++ ((Tlv.flat x).drop off ++ Tlv.flat y) := by
              simp only [List.append_assoc]
          _ = Tlv.flat x ++ (t.bytes ++ Tlv.flat y) := hnew
          _ = (Tlv.flat x).take off ++ ((Tlv.flat x).drop off ++ t.bytes) ++ Tlv.flat y := by
            rw [← List.append_assoc ((Tlv.flat x).take off), ← hx', List.append_assoc]
      have hcomm := List.append_cancel_left (List.append_cancel_right hfull)
      obtain ⟨i,hi,hrot⟩ := exists_rotate hcomm
      have hbytes := hind.rotate ht hi hrot
      rw [hbytes] at hcomm
      rw [tim_eq hbytes] at hind
      exact ⟨(indicates_timTlv hb).mp hind,x,y,hxy.symm,hx,hcomm⟩
    · have hy : y ≠ [] := by
        rintro rfl
        rw [List.append_nil] at hxy
        rw [hxy] at hx
        exact hx hoff
      have htk : (Tlv.flat ies).take off = Tlv.flat x ++ (Tlv.flat y).take (off - (Tlv.flat x).length) := by
        rw [← hxy, Tlv.flat_append, List.take_append, List.take_of_length_le (by omega)]
      rw [htk, List.append_assoc, List.append_assoc] at hnew
      exact absurd (List.append_cancel_left hnew)
        (not_tim_first ht (fun u hu => hno' u (List.mem_append_right _ hu)) (by omega) hy)
  · rintro ⟨hfit,x,y,hxy,hx,hcomm⟩
    obtain ⟨h1,h2⟩ := hsplit hxy hx
    have hnew :
        (Tlv.flat ies).take off ++ timIe b ++ (Tlv.flat ies).drop off = Tlv.flat x ++ timIe b ++ Tlv.flat y := by
      calc (Tlv.flat ies).take off ++ timIe b ++ (Tlv.flat ies).drop off
          = (Tlv.flat x).take off ++ (timIe b ++ (Tlv.flat x).drop off) ++ Tlv.flat y := by
            rw [h1, h2]
            simp only [List.append_assoc]
        _ = Tlv.flat x ++ timIe b ++ Tlv.flat y := by
            rw [hcomm, ← List.append_assoc ((Tlv.flat x).take off), List.take_append_drop]
    rw [hnew] at hlen htake
    exact (updated_between hb (hxy ▸ hno) (hxy ▸ hall.symm) hlen htake).mpr hfit

theorem Indicates.zero {t : Tlv} (h : Indicates t b) (hgroup : timGroup t = false)
    (htraffic : ∀ aid, 0 < aid → timTraffic t aid = false) : b = 0 := by
  apply Nat.eq_of_testBit_eq
  intro k
  rw [Nat.zero_testBit]
  rcases Nat.eq_zero_or_pos k with rfl | hk
  · rw [← h.group, hgroup]
  · rw [← h.traffic k hk, htraffic k hk]

/-- An element with one octet in its bitmap tells a station by that octet. -/
theorem timTraffic_octet {t : Tlv} (hlen : t.body.length = 4)
    (hbyte : ∀ k, 0 < k + (byteAt t.body 2).toNat / 2 → (byteAt t.body 3).toNat.testBit k = false) {aid : ℕ}
    (h0 : 0 < aid) : timTraffic t aid = false := by
  rw [timTraffic]
  by_cases hin : aid / 8 - (byteAt t.body 2).toNat / 2 * 2 < t.body.length - 3
  · by_cases hle : (byteAt t.body 2).toNat / 2 * 2 ≤ aid / 8
    · have hat : 3 + (aid / 8 - (byteAt t.body 2).toNat / 2 * 2) = 3 := by omega
      rw [hat, hbyte (aid % 8) (by omega), Bool.and_false]
    · rw [decide_eq_false hle, Bool.false_and, Bool.false_and]
  · rw [decide_eq_false hin, Bool.and_false, Bool.false_and]

theorem Indicates.behind_short {t : Tlv} {j0 j1 j2 v : UInt8} {rest : List UInt8} {g : ℕ} (h : Indicates t b)
    (hg : g = 1 ∨ g = 2 ∨ g = 3) (h0 : byteAt t.bytes 0 = TIM_IE)
    (h1 : byteAt t.bytes 1 = UInt8.ofNat ((timIe b).length - 2))
    (hbytes : t.bytes = (j0 :: j1 :: j2 :: rest).take g ++ (timIe b).take ((timIe b).length - g))
    (heq : timIe b = [TIM_IE, 4, 0, 1, timCtrl b, v]) : 1 < g ∧ b = 0 ∧ j0 = TIM_IE ∧ j1 = 4 := by
  have hbody : ∀ k, byteAt t.body k = byteAt t.bytes (k + 2) := fun _ => rfl
  have hlen := congrArg List.length hbytes
  rw [heq] at hbytes h1 hlen
  rcases hg with rfl | rfl | rfl
  · rw [hbytes] at h1
    exact absurd (show (5 : UInt8) = 4 from h1) (by decide)
  · have hb2 : byteAt t.body 2 = 0 := by rw [hbody, hbytes]; rfl
    have hb3 : byteAt t.body 3 = 1 := by rw [hbody, hbytes]; rfl
    rw [hbytes] at h0 h1
    refine ⟨by decide,h.zero (by rw [timGroup, hb2]; rfl) (fun aid => timTraffic_octet ?_ ?_),h0,h1⟩
    · simpa using hlen
    · intro k hk
      rw [hb2] at hk
      rw [hb3]
      exact Nat.testBit_lt_two_pow (Nat.one_lt_two_pow (by have : (0 : UInt8).toNat / 2 = 0 := rfl; omega))
  · have hb2 : byteAt t.body 2 = 4 := by rw [hbody, hbytes]; rfl
    have hb3 : byteAt t.body 3 = 0 := by rw [hbody, hbytes]; rfl
    rw [hbytes] at h0 h1
    refine ⟨by decide,h.zero (by rw [timGroup, hb2]; rfl) (fun aid => timTraffic_octet ?_ ?_),h0,h1⟩
    · simpa using hlen
    · intro k _
      rw [hb3]
      exact Nat.zero_testBit k

/-- What stands behind the sequence when the place is behind its end: the bytes that were left
there, with the beginning of the element in the room of its end -/
theorem Indicates.behind {t : Tlv} {j0 j1 j2 : UInt8} {rest : List UInt8} {g : ℕ} (h : Indicates t b)
    (hg : g = 1 ∨ g = 2 ∨ g = 3) (ht : t.id = TIM_IE)
    (hbytes : t.bytes = (j0 :: j1 :: j2 :: rest).take g ++ (timIe b).take ((timIe b).length - g)) :
    1 < g ∧ b = 0 ∧ j0 = TIM_IE ∧ j1 = 4 := by
  have h6 := length_timIe_le b
  have hlen := congrArg List.length hbytes
  rw [List.length_append, List.length_take, List.length_take, Tlv.length_bytes, List.length_cons, List.length_cons,
    List.length_cons] at hlen
  have h1 : byteAt t.bytes 1 = UInt8.ofNat ((timIe b).length - 2) := by
    rw [show (timIe b).length - 2 = t.body.length by omega]
    rfl
  have h0 : byteAt t.bytes 0 = TIM_IE := ht
  have hbody : ∀ k, byteAt t.body k = byteAt t.bytes (k + 2) := fun _ => rfl
  have hc := timCtrl_le b
  have hlow := h.low
  rw [hbody, hbody] at hlow
  rcases timIe_cases b with ⟨-,hl,heq⟩ | ⟨-,heq⟩ | ⟨-,-,heq⟩
  · -- the long form tells no station of the low part
    refine absurd (hlow ?_) hl
    rw [hbytes, heq]
    rcases hg with rfl | rfl | rfl
    · exact Or.inr hc
    · exact Or.inr (show (1 : UInt8).toNat ≤ 1 by decide)
    · exact Or.inl (show (5 : UInt8).toNat / 2 ≠ 0 by decide)
  · exact h.behind_short hg h0 h1 hbytes heq
  · exact h.behind_short hg h0 h1 hbytes heq

/-- An empty map behind bytes that look like the beginning of an element -/
theorem indicates_left {t : Tlv} (c : UInt8) (ht : t.body = [c, 5, 4, 0] ∨ t.body = [5, 4, 0, 1]) :
    Indicates t 0 := by
  have hgroup : timGroup t = false := by
    rcases ht with h | h
    · rw [timGroup, h]
      exact (by decide : (4 : UInt8).toNat.testBit 0 = false)
    · rw [timGroup, h]
      rfl
  have hlen : t.body.length = 4 := by
    rcases ht with h | h <;> rw [h] <;> rfl
  refine ⟨Nat.le_of_eq hlen.symm,by rw [hgroup, Nat.zero_testBit],?_⟩
  intro aid h0
  rw [Nat.zero_testBit]
  apply timTraffic_octet hlen _ h0
  intro k hk
  rcases ht with h | h
  · rw [h]
    exact Nat.zero_testBit k
  · rw [h] at hk ⊢
    have hk' : 0 < k := hk
    exact Nat.testBit_lt_two_pow (Nat.one_lt_two_pow (by omega))

theorem new_behind {off : ℕ} (hno : ∀ t ∈ ies, t.id ≠ TIM_IE) (hoff : (Tlv.flat ies).length < off)
    (hle : off ≤ (Tlv.flat ies).length + 3) (hroom : 10 ≤ junk.length) {r : List UInt8 × ℕ}
    (hlen : r.2 = fixed.length + (Tlv.flat ies ++ (junk.take (off - (Tlv.flat ies).length) ++
      (timIe b).take ((timIe b).length - (off - (Tlv.flat ies).length)))).length)
    (htake : r.1.take r.2 = fixed ++ (Tlv.flat ies ++ (junk.take (off - (Tlv.flat ies).length) ++
      (timIe b).take ((timIe b).length - (off - (Tlv.flat ies).length))))) :
    TimUpdated fixed ies b r ↔ (Tlv.flat ies).length + 1 < off ∧ b = 0 ∧ junk.take 2 = [TIM_IE, 4] := by
  have hall := filter_others hno
  obtain ⟨j0,j1,j2,rest,rfl⟩ : ∃ j0 j1 j2 rest, junk = j0 :: j1 :: j2 :: rest := by
    match junk with
    | j0 :: j1 :: j2 :: rest => exact ⟨j0,j1,j2,rest,rfl⟩
    | [_, _] | [_] | [] => exact absurd hroom (by simp)
  obtain ⟨g,hg⟩ : ∃ g, off - (Tlv.flat ies).length = g := ⟨_,rfl⟩
  rw [hg] at hlen htake
  rw [timUpdated_iff hlen htake, hall]
  constructor
  · rintro ⟨x,y,t,hnew,ht,hno',hind,hxy⟩
    rw [← hxy, Tlv.flat_append, Tlv.flat_append, Tlv.flat_cons, List.append_assoc] at hnew
    have hrest := List.append_cancel_left hnew
    by_cases hy : y = []
    · rw [hy, Tlv.flat_nil, List.nil_append, List.append_nil] at hrest
      obtain ⟨h1,h2,h3,h4⟩ := hind.behind (by omega) ht hrest.symm
      exact ⟨by omega,h2,by rw [h3, h4]; rfl⟩
    · have hpos : 0 < (Tlv.flat y).length := by
        obtain ⟨u,y,rfl⟩ := List.exists_cons_of_ne_nil hy
        rw [Tlv.flat_cons, List.length_append, Tlv.length_bytes]
        omega
      nth_rewrite 1 [← List.take_length (l := Tlv.flat y)] at hrest
      exact absurd hrest (not_tim_first ht (fun u hu => hno' u (List.mem_append_right _ hu)) hpos hy)
  · rintro ⟨hlong,rfl,hjunk⟩
    obtain ⟨rfl,rfl⟩ : j0 = 5 ∧ j1 = 4 := by
      have h := List.cons_eq_cons.mp hjunk
      exact ⟨h.1,(List.cons_eq_cons.mp h.2).1⟩
    have hno' : ∀ u ∈ ies ++ [], u.id ≠ TIM_IE := by
      rw [List.append_nil]
      exact hno
    rcases (by omega : g = 2 ∨ g = 3) with rfl | rfl
    · exact ⟨ies,[],⟨TIM_IE,[5, 4, 0, 1],by decide⟩,by rw [Tlv.flat_append]; rfl,rfl,hno',indicates_left 0
        (Or.inr rfl), List.append_nil ies⟩
    · exact ⟨ies,[],⟨TIM_IE,[j2, 5, 4, 0],by simp⟩,by rw [Tlv.flat_append]; rfl,rfl,hno',indicates_left j2
        (Or.inl rfl), List.append_nil ies⟩

end Updated

/-- After `update_BCNTIM` the buffer says what the map says exactly when the map has a station
in its low part or none in its high part, and there was a TIM element or the place that is
computed for a new one is between two elements. -/
theorem bcntim_updated_iff {fixed junk : List UInt8} {ies : List Tlv} {b : ℕ}
    (hfixed : fixed.length = BEACON_IE_OFFSET)
    (hb : b < 65536) (hies : BeaconIes ies) (hroom : 10 ≤ junk.length)
    (hsize : (fixed ++ Tlv.flat ies ++ junk).length + 10 < 2 ^ 31) :
    TimUpdated fixed ies b (updateBcnTim b (fixed ++ Tlv.flat ies ++ junk) (fixed.length + (Tlv.flat ies).length)) ↔
      TimFits b ∧ ((∃ t ∈ ies, t.id = TIM_IE) ∨ TimPlaceOk b ies junk) := by
  obtain ⟨h6,h7⟩ := length_timIe_le b
  simp only [List.length_append] at hsize
  by_cases htim : ∃ t ∈ ies, t.id = TIM_IE
  · obtain ⟨t,hmem,ht⟩ := htim
    obtain ⟨pre,u,post,hsplit,hu,hplace⟩ := @timPlace_old fixed junk ies hfixed t hmem ht hies.complete
    have hno : ∀ v ∈ pre ++ post, v.id ≠ TIM_IE := by
      have hfew := hies.one
      rw [hsplit, List.filter_append, List.filter_cons_of_pos (by simpa using hu), List.length_append,
        List.length_cons] at hfew
      have hnil : ((pre ++ post).filter fun t => t.id = TIM_IE) = [] := by
        rw [List.filter_append]
        exact List.eq_nil_of_length_eq_zero (by rw [List.length_append]; omega)
      intro v hv
      simpa using List.filter_eq_nil_iff.mp hnil v hv
    have hlong : 6 ≤ u.bytes.length := by
      have := hies.complete u (hsplit ▸ List.mem_append_right _ List.mem_cons_self) hu
      rw [Tlv.length_bytes]
      omega
    have hpie : fixed ++ Tlv.flat ies ++ junk = (fixed ++ Tlv.flat pre) ++ u.bytes ++ Tlv.flat post ++ junk := by
      rw [hsplit, Tlv.flat_append, Tlv.flat_cons]
      simp only [List.append_assoc]
    have hrest : pre ++ post = ies.filter fun t => t.id ≠ TIM_IE := by
      rw [hsplit, (filter_tim hu hno).2]
    obtain ⟨hlen,htake⟩ :=
      @updateBcnTim_write b _ (fixed ++ Tlv.flat pre) u.bytes (Tlv.flat post) junk _ hplace hpie
      (by rw [hsplit, Tlv.flat_append, Tlv.flat_cons]; simp only [List.length_append]; omega) (by omega)
      (by simp only [List.length_append]; omega)
    rw [updated_between hb hno hrest (by rw [hlen]; simp only [List.length_append]; omega)
      (by rw [htake]; simp only [List.append_assoc])]
    exact ⟨fun h => ⟨h,Or.inl ⟨t,hmem,ht⟩⟩,fun h => h.1⟩
  · have hno : ∀ t ∈ ies, t.id ≠ TIM_IE := fun t ht hid => htim ⟨t,ht,hid⟩
    have hplace := @timPlace_new fixed junk ies hfixed hno
    have hle : newTimPlace ies ≤ (Tlv.flat ies).length + 3 := by
      have := @ieRoom_add_le SSID_IE SUPPORTEDRATES_IE (by decide) ies
      rw [newTimPlace]
      omega
    rw [or_iff_right htim, TimPlaceOk]
    by_cases hoff : newTimPlace ies ≤ (Tlv.flat ies).length
    · have hbytes : Tlv.flat ies = (Tlv.flat ies).take (newTimPlace ies) ++ (Tlv.flat ies).drop (newTimPlace ies) :=
        (List.take_append_drop _ _).symm
      have hcut : ((Tlv.flat ies).take (newTimPlace ies)).length = newTimPlace ies := by
        rw [List.length_take, Nat.min_eq_left hoff]
      obtain ⟨hlen,htake⟩ := @updateBcnTim_write b (fixed ++ Tlv.flat ies ++ junk)
        (fixed ++ (Tlv.flat ies).take (newTimPlace ies)) [] ((Tlv.flat ies).drop (newTimPlace ies)) junk
        (fixed.length + (Tlv.flat ies).length) (by rw [hplace, List.length_append, hcut]; rfl)
        (by rw [List.append_nil, List.append_assoc fixed ((Tlv.flat ies).take _), ← hbytes])
        (by rw [List.length_append, hcut, List.length_drop, List.length_nil]; omega) (by rw [List.length_nil]; omega)
        (by simp only [List.length_append]; omega)
      rw [new_within hb hno hoff (by rw [hlen]; simp only [List.length_append]; omega)
        (by rw [htake]; simp only [List.append_assoc])]
      refine and_congr_right fun _ => ⟨Or.inl,?_⟩
      rintro (h | ⟨h,-,-⟩)
      · exact h
      · omega
    · obtain ⟨hlen,htake⟩ := @updateBcnTim_gap b (fixed.length + newTimPlace ies) (fixed ++ Tlv.flat ies) junk
        (by rw [List.length_append]; exact hplace) (by rw [List.length_append]; omega)
          (by rw [List.length_append]; omega)
        hroom (by rw [List.length_append]; omega)
      rw [List.length_append] at hlen htake
      have hback : fixed.length + newTimPlace ies - (fixed.length + (Tlv.flat ies).length) =
          newTimPlace ies - (Tlv.flat ies).length := by omega
      rw [hback] at htake
      rw [new_behind hno (by omega) hle hroom (by rw [hlen]; simp only [List.length_append, List.length_take]; omega)
        (by rw [htake]; simp only [List.append_assoc])]
      constructor
      · rintro ⟨hlong,rfl,hjunk⟩
        exact ⟨Or.inl (by decide),Or.inr ⟨hlong,rfl,hjunk⟩⟩
      · rintro ⟨-,⟨x,y,rfl,hx,-⟩ | h⟩
        · rw [Tlv.flat_append, List.length_append] at hoff
          omega
        · exact h

/-- A beacon with an SSID, rates and a channel, and a TIM element of four bytes -/
def beaconIes : List Tlv :=
  [⟨SSID_IE,[97, 112],by decide⟩, ⟨SUPPORTEDRATES_IE,[130, 132],by decide⟩, ⟨3,[6],by decide⟩,
    ⟨TIM_IE,[0, 1, 0, 0],by decide⟩, ⟨42,[0],by decide⟩]

theorem bcntim_updated_two_stations :
    TimUpdated (List.replicate 12 0) beaconIes 0x0102 (updateBcnTim 0x0102
      (List.replicate 12 0 ++ Tlv.flat beaconIes ++ List.replicate 10 0) (12 + (Tlv.flat beaconIes).length)) :=
  (@bcntim_updated_iff (List.replicate 12 0) (List.replicate 10 0) beaconIes 0x0102 rfl (by decide)
    ⟨by decide,by decide⟩ (by decide) (by decide)).mpr ⟨by decide,Or.inl (by decide)⟩

/-- The station with AID 8 alone is told by the octet of the stations up to 7. -/
theorem high_station_lost :
    ¬ TimUpdated (List.replicate 12 0) beaconIes 0x0100 (updateBcnTim 0x0100
      (List.replicate 12 0 ++ Tlv.flat beaconIes ++ List.replicate 10 0) (12 + (Tlv.flat beaconIes).length)) := by
  rintro ⟨ies',t,hbytes,-,hone,hind,-⟩
  have hnew : Tlv.flat ies' = Tlv.flat (beaconIes.set 3 (timTlv 0x0100)) :=
    List.append_cancel_left (hbytes.symm.trans (by decide +kernel))
  rw [Tlv.flat_inj hnew] at hone
  have ht : t = timTlv 0x0100 := (List.singleton_inj.mp ((by decide +kernel :
    ((beaconIes.set 3 (timTlv 0x0100)).filter fun t => t.id = TIM_IE) = [timTlv 0x0100]).symm.trans hone)).symm
  rw [ht] at hind
  exact absurd (hind.traffic 8 (by decide)) (by decide +kernel)

end Rtl8188fu
