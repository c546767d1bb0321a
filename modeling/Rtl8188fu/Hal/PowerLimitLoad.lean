import Rtl8188fu.Hal.PowerLimitText

/-! # Loading power limits

What `phy_ParsePowerLimitTableFile` makes of each line of a text of power limits, and when the tables that it fills
are the limits that the text gives.
-/
namespace Rtl8188fu
open Bytes Logged

/-- The qualifier of `ParseQualifiedString` is the first of the blanks. -/
def LabelField.SpaceFirst (f : LabelField) : Prop := f.before.bytes.head? = some (chr ' ')

/-- What the parser takes for the label -/
def LabelField.text (f : LabelField) : List UInt8 := f.before.bytes.tail ++ f.label ++ f.after.bytes

def LabelField.Short (f : LabelField) : Prop := f.text.length ≤ TOKEN_LEN

instance : DecidablePred LabelField.Short := fun f => Nat.decLe f.text.length TOKEN_LEN

def Blanks.space : Blanks := ⟨[chr ' '],List.forall_mem_singleton.mpr rfl⟩

/-- All labels of a table; the parser puts a space in front of the band. -/
def LimitTable.allFields (t : LimitTable) : List LabelField :=
  ⟨.space,ascii "2.4G",t.bandAfter⟩ :: t.fields

def LimitTable.Reads (t : LimitTable) : Prop := ∀ f ∈ t.allFields, f.SpaceFirst ∧ f.Short

/-- The first label that is not read has no space in front of it. -/
def LimitTable.Refused (t : LimitTable) : Prop :=
  ∃ pre f post, t.allFields = pre ++ f :: post ∧ (∀ g ∈ pre, g.SpaceFirst ∧ g.Short) ∧ ¬f.SpaceFirst

/-- In front of each label behind the band is one space and nothing else. -/
def LimitTable.Plain (t : LimitTable) : Prop := ∀ f ∈ t.fields, f.before.bytes = [chr ' ']

/-- A label that can be written -/
def IsToken (s : List UInt8) : Prop := s ≠ [] ∧ ∀ c ∈ s, isBlank c = false ∧ c ≠ chr ',' ∧ c ≠ 0

instance : DecidablePred IsToken :=
  fun s => inferInstanceAs (Decidable (s ≠ [] ∧ ∀ c ∈ s, isBlank c = false ∧ c ≠ chr ',' ∧ c ≠ 0))

section Labels
variable {mem rest s : List UInt8} {i k : ℕ} {f : LabelField} {fs pre post : List LabelField} {t : LimitTable}
  {c : UInt8}

theorem isBlank_iff : isBlank c = true ↔ c = chr ' ' ∨ c = 9 := by simp [isBlank]

theorem blank_ne (hc : isBlank c = true) : c ≠ chr ',' ∧ c ≠ 0 ∧ isDigit c = false ∧ c ≠ chr '.' ∧
    c ≠ chr '#' := by
  rcases isBlank_iff.mp hc with rfl | rfl <;> decide

theorem bandwidth_isToken (b : ChannelWidth) : IsToken b.name := by
  cases b <;> decide +kernel

theorem section_isToken (b : LimitSection) : IsToken b.name := by
  cases b <;> decide +kernel

theorem band_isToken : IsToken (ascii "2.4G") := by decide +kernel

theorem path_isToken : IsToken (ascii "1T") := by decide +kernel

theorem allFields_isToken (hf : f ∈ t.allFields) : IsToken f.label := by
  simp only [LimitTable.allFields, LimitTable.fields, List.mem_cons, List.not_mem_nil, or_false] at hf
  rcases hf with rfl | rfl | rfl | rfl
  · exact band_isToken
  · exact bandwidth_isToken _
  · exact path_isToken
  · exact section_isToken _

theorem text_ne (hf : IsToken f.label) (hc : c ∈ f.text) : c ≠ chr ',' ∧ c ≠ 0 := by
  rcases List.mem_append.mp hc with hc | hc
  · rcases List.mem_append.mp hc with hc | hc
    · have hne := blank_ne (f.before.blank c (List.mem_of_mem_tail hc))
      exact ⟨hne.1,hne.2.1⟩
    · exact (hf.2 c hc).2
  · have hne := blank_ne (f.after.blank c hc)
    exact ⟨hne.1,hne.2.1⟩

theorem bytes_of_spaceFirst (hf : f.SpaceFirst) : f.bytes = chr ' ' :: (f.text ++ [chr ',']) := by
  rw [LabelField.SpaceFirst] at hf
  rw [LabelField.bytes, LabelField.text]
  cases hb : f.before.bytes with
  | nil =>
    rw [hb] at hf
    cases hf
  | cons b bs =>
    rw [hb] at hf
    cases hf
    simp

theorem slice_of_drop (h : mem.drop i = s ++ rest) : slice mem i s.length = s := by
  rw [slice, h, List.take_left]

/-- A string between its qualifiers, when it fits the array -/
theorem result_parseQualified {left right : UInt8} (h : mem.drop i = left :: (s ++ right :: rest))
    (hs : ∀ a ∈ s, a ≠ right)
    (hzero : ∀ a ∈ s, a ≠ 0) : (parseQualifiedString mem i left right).result =
      if s.length ≤ TOKEN_LEN then some (some (s,i + s.length + 2)) else none := by
  have hdrop : mem.drop (i + 1) = s ++ right :: rest := by rw [← List.drop_drop, h]; rfl
  have hscan := result_scanWhile (p := (· != right)) hdrop (fun a ha => by simpa using hs a ha) (by simp)
  have htext : (s.takeWhile (· != 0)) = s := List.takeWhile_eq_self_iff.mpr fun a ha => by simpa using hzero a ha
  have hlen : i + 1 + s.length - (i + 1) = s.length := by omega
  rw [parseQualifiedString, result_andThen, readAt, Option.bind_some, if_neg (not_not_intro (byteAt_of_drop h)),
    result_andThen, hscan, Option.bind_some, result_andThen, hlen, slice_of_drop hdrop, htext, storeToken,
    result_andThen]
  split
  · change some (some (s,i + 1 + s.length + 1)) = _
    rw [show i + 1 + s.length + 1 = i + s.length + 2 by omega]
  · rfl

theorem result_parseQualified_refused {left right : UInt8} (h : mem.drop i = c :: rest) (hc : c ≠ left) :
    (parseQualifiedString mem i left right).result = some none := by
  rw [parseQualifiedString, result_andThen, readAt, Option.bind_some, byteAt_of_drop h, if_pos hc]
  rfl

theorem labelFields_cons (h : mem.drop i = f.bytes ++ rest) (hf : IsToken f.label) (hspace : f.SpaceFirst) :
    (labelFields mem (k + 1) i).result =
      if f.Short then (labelFields mem k (i + f.bytes.length)).result.map fun labels => labels.map (f.text :: ·)
      else none := by
  rw [bytes_of_spaceFirst hspace] at h ⊢
  have hparse := @result_parseQualified _ rest f.text _ _ (chr ',') (by simpa using h)
    (fun a ha => (text_ne hf ha).1) (fun a ha => (text_ne hf ha).2)
  rw [labelFields, result_andThen, hparse]
  by_cases hshort : f.Short
  · rw [if_pos hshort, if_pos (show f.text.length ≤ TOKEN_LEN from hshort), Option.bind_some, result_andThen,
      show i + f.text.length + 2 = i + (chr ' ' :: (f.text ++ [chr ','])).length by simp; omega]
    cases (labelFields mem k (i + (chr ' ' :: (f.text ++ [chr ','])).length)).result <;> rfl
  · rw [if_neg hshort, if_neg (show ¬f.text.length ≤ TOKEN_LEN from hshort)]
    rfl

theorem labelFields_refused (h : mem.drop i = f.bytes ++ rest) (hf : IsToken f.label) (hspace : ¬f.SpaceFirst) :
    (labelFields mem (k + 1) i).result = some none := by
  have hfirst : ∃ c s, f.bytes = c :: s ∧ c ≠ chr ' ' := by
    rw [LabelField.SpaceFirst] at hspace
    rw [LabelField.bytes]
    cases hb : f.before.bytes with
    | nil =>
      obtain ⟨c,s,hlabel⟩ := List.exists_cons_of_ne_nil hf.1
      refine ⟨c,s ++ f.after.bytes ++ [chr ','],by simp [hlabel],?_⟩
      rintro rfl
      have := (hf.2 (chr ' ') (by simp [hlabel])).1
      revert this
      decide
    | cons b bs =>
      rw [hb] at hspace
      exact ⟨b,bs ++ f.label ++ f.after.bytes ++ [chr ','],by simp,fun hbs => hspace (by rw [hbs]; rfl)⟩
  obtain ⟨c,s,hbytes,hc⟩ := hfirst
  rw [hbytes, List.cons_append] at h
  rw [labelFields, result_andThen, result_parseQualified_refused h hc]
  rfl

theorem labelFields_reads (h : mem.drop i = fs.flatMap LabelField.bytes ++ rest) (hfs : ∀ f ∈ fs, IsToken f.label)
    (hreads : ∀ f ∈ fs, f.SpaceFirst ∧ f.Short) :
    (labelFields mem fs.length i).result = some (some (fs.map LabelField.text)) := by
  induction fs generalizing i with
  | nil => rfl
  | cons f fs ih =>
    rw [List.flatMap_cons, List.append_assoc] at h
    obtain ⟨hspace,hshort⟩ := hreads f List.mem_cons_self
    have hnext : mem.drop (i + f.bytes.length) = fs.flatMap LabelField.bytes ++ rest := by
      rw [← List.drop_drop, h, List.drop_left]
    rw [List.length_cons, labelFields_cons h (hfs f List.mem_cons_self) hspace, if_pos hshort,
      ih hnext (fun g hg => hfs g (List.mem_cons_of_mem _ hg)) (fun g hg => hreads g (List.mem_cons_of_mem _ hg))]
    rfl

theorem labelFields_first (h : mem.drop i = (pre ++ f :: post).flatMap LabelField.bytes ++ rest)
    (hfs : ∀ g ∈ pre ++ f :: post, IsToken g.label) (hpre : ∀ g ∈ pre, g.SpaceFirst ∧ g.Short) :
    (¬f.SpaceFirst → (labelFields mem (pre ++ f :: post).length i).result = some none) ∧
      (f.SpaceFirst → ¬f.Short → (labelFields mem (pre ++ f :: post).length i).result = none) := by
  induction pre generalizing i with
  | nil =>
    rw [List.nil_append, List.flatMap_cons, List.append_assoc] at h
    have hf := hfs f List.mem_cons_self
    rw [List.nil_append, List.length_cons]
    refine ⟨labelFields_refused h hf,fun hspace hlong => ?_⟩
    rw [labelFields_cons h hf hspace, if_neg hlong]
  | cons g pre ih =>
    rw [List.cons_append, List.flatMap_cons, List.append_assoc] at h
    obtain ⟨hspace,hshort⟩ := hpre g List.mem_cons_self
    have hnext : mem.drop (i + g.bytes.length) = (pre ++ f :: post).flatMap LabelField.bytes ++ rest := by
      rw [← List.drop_drop, h, List.drop_left]
    obtain ⟨hrefused,hlong⟩ := ih hnext (fun u hu => hfs u (List.mem_cons_of_mem _ hu))
        (fun u hu => hpre u (List.mem_cons_of_mem _ hu))
    rw [List.cons_append, List.length_cons, labelFields_cons h (hfs g (by simp)) hspace, if_pos hshort]
    exact ⟨fun hf => by rw [hrefused hf]; rfl,fun hf hl => by rw [hlong hf hl]; rfl⟩

end Labels

/-- A blank or the end of the line -/
def Stops (s : List UInt8) : Prop := ∃ c rest, s = c :: rest ∧ (isBlank c = true ∨ c = 0)

section Numbers
variable {s rest mem : List UInt8} {n : Numeral} {c : UInt8}

theorem isDigit_iff : isDigit c = true ↔ 48 ≤ c.toNat ∧ c.toNat ≤ 57 := by
  have h0 : (chr '0').toNat = 48 := rfl
  have h9 : (chr '9').toNat = 57 := rfl
  simp only [isDigit, Bool.and_eq_true, decide_eq_true_eq, UInt8.le_iff_toNat_le, h0, h9]

theorem foldl_decimalStep (hs : ∀ c ∈ s, isDigit c = true) (v : ℕ) :
    s.foldl decimalStep (UInt8.ofNat v) = UInt8.ofNat (s.foldl (fun v c => v * 10 + (c.toNat - 48)) v) := by
  induction s generalizing v with
  | nil => rfl
  | cons c s ih =>
    have hc := isDigit_iff.mp (hs c List.mem_cons_self)
    have hsub : c - chr '0' = UInt8.ofNat (c.toNat - 48) := by
      apply UInt8.toNat_inj.mp
      rw [UInt8.toNat_sub, UInt8.toNat_ofNat']
      have h0 : (chr '0').toNat = 48 := rfl
      omega
    have hstep : decimalStep (UInt8.ofNat v) c = UInt8.ofNat (v * 10 + (c.toNat - 48)) := by
      rw [decimalStep, hsub, UInt8.ofNat_add, UInt8.ofNat_mul]
      rfl
    rw [List.foldl_cons, List.foldl_cons, hstep]
    exact ih (fun a ha => hs a (List.mem_cons_of_mem _ ha)) _

theorem result_getU1 (hs : ∀ c ∈ s, isDigit c = true) :
    (getU1ByteInteger s).result = some (some (UInt8.ofNat (digitsValue s))) := by
  rw [getU1ByteInteger, if_pos (List.all_eq_true.mpr hs), digitsValue, ← foldl_decimalStep hs 0]
  rfl

theorem limitText_isDigits : ∀ v : UInt8, (limitText v).all isDigit = true ∧
    (limitText v).foldl decimalStep 0 = v := by
  have h : ∀ n : Fin 256, (limitText (UInt8.ofNat n)).all isDigit = true ∧
      (limitText (UInt8.ofNat n)).foldl decimalStep 0 = UInt8.ofNat n := by decide +kernel
  intro v
  have := h ⟨v.toNat,v.toNat_lt⟩
  rwa [UInt8.ofNat_toNat] at this

/-- The text that the parser makes of a value is read back. -/
theorem result_getU1_limitText (v : UInt8) : (getU1ByteInteger (limitText v)).result = some (some v) := by
  obtain ⟨hdigits,hvalue⟩ := limitText_isDigits v
  rw [getU1ByteInteger, if_pos hdigits, hvalue]

end Numbers

/-- What `PHY_SetTxPowerLimit` makes of a number -/
def clampLimit (v : UInt8) : Int8 := if MAX_POWER_INDEX < v.toInt8 then MAX_POWER_INDEX else v.toInt8

namespace LimitMark

def fraction : Option Bool → UInt8
  | none => 0
  | some false => chr '0'
  | some true => chr '5'

/-- The text that goes to `PHY_SetTxPowerLimit` -/
def text : LimitMark → List UInt8
  | na => ascii "63"
  | dbm n half _ => limitText (limitValueOf (UInt8.ofNat n.value) (fraction half))

/-- What is compared with the table -/
def limit (m : LimitMark) : Int8 :=
  match m.value with
  | none => MAX_POWER_INDEX
  | some v => clampLimit (UInt8.ofNat v)

theorem getU1_text (m : LimitMark) : ∃ v, (getU1ByteInteger m.text).result = some (some v) ∧
    clampLimit v = m.limit := by
  cases m with
  | na => exact ⟨63,by decide +kernel,by decide +kernel⟩
  | dbm n half h =>
    refine ⟨_,result_getU1_limitText _,?_⟩
    have hvalue : limitValueOf (UInt8.ofNat n.value) (fraction half) =
        UInt8.ofNat (2 * n.value + if half = some true then 1 else 0) := by
      rcases half with _ | _ | _
      · rw [limitValueOf, if_neg (by decide), if_neg (by simp), Nat.add_zero, Nat.mul_comm, UInt8.ofNat_mul]
        rfl
      · rw [limitValueOf, if_neg (by decide), if_neg (by simp), Nat.add_zero, Nat.mul_comm, UInt8.ofNat_mul]
        rfl
      · rw [limitValueOf, if_pos (by decide), if_pos rfl, UInt8.ofNat_add, Nat.mul_comm, UInt8.ofNat_mul]
        rfl
    rw [hvalue]
    rfl

end LimitMark

namespace LimitTable
variable (t : LimitTable)

/-- The labels that the parser has after the lines in front of the rows -/
def parsed (colNum : ℕ) (names : List (List UInt8)) : LimitLabels where
  band := ascii "2.4G" ++ t.bandAfter.bytes
  bandwidth := (⟨t.bandwidthBefore,t.bandwidth.name,t.bandwidthAfter⟩ : LabelField).text
  rfPath := (⟨t.pathBefore,ascii "1T",t.pathAfter⟩ : LabelField).text
  rateSection := (⟨t.sectionBefore,t.rateSection.name,t.sectionAfter⟩ : LabelField).text
  regulation := names
  colNum := colNum

end LimitTable

section Set
variable {t : LimitTable} {n : Numeral} {colNum : ℕ} {names : List (List UInt8)} {limits : TxPwrLimits}
  {m : LimitMark}
  {reg : TxPwrLmt} {b : UInt8} {s s' : List UInt8}

theorem regulationOf_name (reg : TxPwrLmt) : regulationOf reg.name = some reg.idx := by
  cases reg <;> rfl

theorem bandwidthOf_name (bw : ChannelWidth) (s : List UInt8) : bandwidthOf (bw.name ++ s) = some bw.idx := by
  cases bw <;> rfl

theorem rateSectionOf_name (sec : LimitSection) (s s' : List UInt8) :
    rateSectionOf (sec.name ++ s) (ascii "1T" ++ s') = some sec.idx := by
  cases sec <;> rfl

theorem bandwidthOf_blank (hb : isBlank b = true) : bandwidthOf (b :: s) = none := by
  rcases isBlank_iff.mp hb with rfl | rfl <;> rfl

theorem rateSectionOf_blank (hb : isBlank b = true) : rateSectionOf (b :: s) s' = none := by
  rcases isBlank_iff.mp hb with rfl | rfl <;> rfl

theorem rateSectionOf_blank_path (hb : isBlank b = true) : rateSectionOf s' (b :: s) = none := by
  rw [rateSectionOf, Option.map_eq_none_iff, List.find?_eq_none]
  intro l hl
  rw [Bool.and_eq_true]
  rintro ⟨-,hpath⟩
  simp only [List.mem_cons, List.not_mem_nil, or_false] at hl
  rcases hl with rfl | rfl | rfl | rfl | rfl | rfl | rfl | rfl | rfl | rfl
    <;> rcases isBlank_iff.mp hb with rfl | rfl <;>
    exact Bool.noConfusion (show false = true from hpath)

theorem text_of_spaceFirst {f : LabelField} (h : f.SpaceFirst) :
    f.before.bytes = [chr ' '] ∧ f.text = f.label ++ f.after.bytes ∨
      f.before.bytes ≠ [chr ' '] ∧ ∃ b s, f.text = b :: s ∧ isBlank b = true := by
  rw [LabelField.SpaceFirst] at h
  cases hb : f.before.bytes with
  | nil =>
    rw [hb] at h
    cases h
  | cons b bs =>
    rw [hb] at h
    cases h
    cases bs with
    | nil => exact .inl ⟨rfl,by rw [LabelField.text, hb]; rfl⟩
    | cons c bs =>
      refine .inr ⟨by simp,c,bs ++ f.label ++ f.after.bytes,by rw [LabelField.text, hb]; simp,?_⟩
      exact f.before.blank c (by simp [hb])

/-- The cell of the 2.4 GHz table that a channel of the table is about -/
def LimitTable.cellOf (t : LimitTable) (reg : TxPwrLmt) (channel : ℕ) : ℕ × ℕ × ℕ × ℕ :=
  (reg.idx,t.bandwidth.idx,channel - 1,t.rateSection.idx)

theorem channel_index (hn : 1 ≤ n.value ∧ n.value ≤ 14) :
    (phyGetChannelIndex .on24G (UInt8.ofNat n.value)).toInt = n.value - 1 := by
  obtain ⟨h1,h14⟩ := hn
  generalize n.value = v at h1 h14
  interval_cases v <;> rfl

theorem result_phySet_plain (hn : 1 ≤ n.value ∧ n.value ≤ 14) (hplain : t.Plain) :
    (phySetTxPowerLimit limits (t.parsed colNum names) reg.name n.bytes m.text).result =
      some { limits with limit24G := lowerLimit limits.limit24G (t.cellOf reg n.value) m.limit } := by
  obtain ⟨v,hv,hclamp⟩ := m.getU1_text
  have hindex := channel_index hn
  have hfield : ∀ f ∈ t.fields, f.text = f.label ++ f.after.bytes := fun f hf => by
    rw [LabelField.text, hplain f hf]
    rfl
  have hbw := hfield ⟨t.bandwidthBefore,t.bandwidth.name,t.bandwidthAfter⟩ (by simp [LimitTable.fields])
  have hpath := hfield ⟨t.pathBefore,ascii "1T",t.pathAfter⟩ (by simp [LimitTable.fields])
  have hsec := hfield ⟨t.sectionBefore,t.rateSection.name,t.sectionAfter⟩ (by simp [LimitTable.fields])
  have hband : limitBandOf (ascii "2.4G" ++ t.bandAfter.bytes) = some .on24G := rfl
  have hne : phyGetChannelIndex .on24G (UInt8.ofNat n.value) ≠ -1 := by
    intro h
    rw [h] at hindex
    have : (-1 : Int8).toInt = -1 := rfl
    omega
  have hwide : ¬MAX_2_4G_BANDWIDTH_NUM ≤ t.bandwidth.idx := by
    cases t.bandwidth <;> decide
  have hin : 0 ≤ (phyGetChannelIndex .on24G (UInt8.ofNat n.value)).toInt ∧
      (phyGetChannelIndex .on24G (UInt8.ofNat n.value)).toInt < CENTER_CH_2G_NUM := by
    have hsize : CENTER_CH_2G_NUM = 14 := rfl
    omega
  have hnat : (phyGetChannelIndex .on24G (UInt8.ofNat n.value)).toInt.toNat = n.value - 1 := by omega
  have hnum : (getU1ByteInteger n.bytes).result = some (some (UInt8.ofNat n.value)) := result_getU1 n.digits
  rw [phySetTxPowerLimit, result_andThen, hnum, Option.bind_some, result_andThen, hv, Option.bind_some]
  simp only [LimitTable.parsed, hbw, hpath, hsec, regulationOf_name, bandwidthOf_name, rateSectionOf_name, hband]
  rw [if_neg (by rintro (h | h); exacts [hne h,hwide h]), atChannel, result_andThen, result_emit, Option.bind_some,
    if_pos hin, hnat, ← hclamp]
  rfl

/-- With more blanks in front of a label nothing is stored. -/
theorem result_phySet_lost (hspace : ∀ f ∈ t.fields, f.SpaceFirst) (hplain : ¬t.Plain) :
    (phySetTxPowerLimit limits (t.parsed colNum names) reg.name n.bytes m.text).result = some limits := by
  obtain ⟨v,hv,-⟩ := m.getU1_text
  have hnone : rateSectionOf (t.parsed colNum names).rateSection (t.parsed colNum names).rfPath = none ∨
      bandwidthOf (t.parsed colNum names).bandwidth = none := by
    obtain ⟨f,hf,hne⟩ := not_forall₂.mp hplain
    obtain ⟨b,s,htext,hb⟩ := ((text_of_spaceFirst (hspace f hf)).resolve_left fun h => hne h.1).2
    simp only [LimitTable.fields, List.mem_cons, List.not_mem_nil, or_false] at hf
    rcases hf with rfl | rfl | rfl
    · exact .inr (by rw [LimitTable.parsed, htext]; exact bandwidthOf_blank hb)
    · exact .inl (by rw [LimitTable.parsed, htext]; exact rateSectionOf_blank_path hb)
    · exact .inl (by rw [LimitTable.parsed, htext]; exact rateSectionOf_blank hb)
  rw [phySetTxPowerLimit, result_andThen, result_getU1 n.digits, Option.bind_some, result_andThen, hv, Option.bind_some]
  dsimp only
  split
  · rename_i hsec hbw _
    rcases hnone with h | h
    · cases h.symm.trans hsec
    · cases h.symm.trans hbw
  · rename_i hsec hbw _
    rcases hnone with h | h
    · cases h.symm.trans hsec
    · cases h.symm.trans hbw
  · rfl

end Set

instance (t : LimitTable) : Decidable t.Plain :=
  inferInstanceAs (Decidable (∀ f ∈ t.fields, f.before.bytes = [chr ' ']))

def LimitTable.store (t : LimitTable) (channel : ℕ) (limits : TxPwrLimits) (c : (Blanks × TxPwrLmt) × LimitCell) :
    TxPwrLimits :=
  if t.Plain then { limits with limit24G := lowerLimit limits.limit24G (t.cellOf c.1.2 channel) c.2.mark.limit }
    else limits

section Columns
variable {t : LimitTable} {l : LimitLabels} {n : Numeral} {limits : TxPwrLimits} {mem rest channel : List UInt8}
  {i k f : ℕ}
  {cols : List ℕ} {names : List (List UInt8)} {m : LimitMark}

theorem result_phySet (hspace : ∀ f ∈ t.fields, f.SpaceFirst) (hn : 1 ≤ n.value ∧ n.value ≤ 14)
    (c : (Blanks × TxPwrLmt) × LimitCell) :
    (phySetTxPowerLimit limits (t.parsed k names) c.1.2.name n.bytes c.2.mark.text).result =
      some (t.store n.value limits c) := by
  rw [LimitTable.store]
  split
  · rename_i hplain
    exact result_phySet_plain hn hplain
  · rename_i hplain
    exact result_phySet_lost hspace hplain

theorem result_storeToken (n : ℕ) : (storeToken n).result = if n ≤ TOKEN_LEN then some () else none := by
  rw [storeToken, result_andThen, result_emit, Option.bind_some]
  split <;> rfl

theorem stops_char (h : Stops rest) : ∃ c s, rest = c :: s ∧ isDigit c = false ∧ c ≠ chr '.' := by
  obtain ⟨c,s,rfl,hc⟩ := h
  refine ⟨c,s,rfl,?_⟩
  rcases hc with hc | rfl
  · exact ⟨(blank_ne hc).2.2.1,(blank_ne hc).2.2.2.1⟩
  · decide

theorem digit_char {c : UInt8} (hc : isDigit c = true) : isBlank c = false ∧ c ≠ chr '#' ∧ c ≠ 0 := by
  have h := isDigit_iff.mp hc
  have hne : ∀ d : UInt8, d.toNat < 48 → c ≠ d := by
    rintro d hd rfl
    omega
  refine ⟨?_,hne _ (by decide),hne _ (by decide)⟩
  rw [Bool.eq_false_iff, Ne, isBlank_iff, not_or]
  exact ⟨hne _ (by decide),hne _ (by decide)⟩

theorem mark_head (m : LimitMark) : ∃ c s, m.bytes = c :: s ∧ isBlank c = false := by
  cases m with
  | na => exact ⟨_,_,rfl,by decide⟩
  | dbm n half h =>
    obtain ⟨c,s,hs⟩ := List.exists_cons_of_ne_nil n.nonempty
    have hc := (digit_char (n.digits c (by simp [hs]))).1
    rcases half with _ | _ | _
    · exact ⟨c,s,hs,hc⟩
    · exact ⟨c,s ++ ascii ".0",by rw [LimitMark.bytes, hs]; rfl,hc⟩
    · exact ⟨c,s ++ ascii ".5",by rw [LimitMark.bytes, hs]; rfl,hc⟩

theorem limitColumns_cell (c : LimitCell) (h : mem.drop i = c.bytes ++ rest) (hstop : Stops rest) :
    (limitColumns l mem channel (f :: cols) i limits).result =
      (phySetTxPowerLimit limits l (l.regulation.getD f []) channel c.mark.text).result.bind fun limits =>
        (limitColumns l mem channel cols (i + c.bytes.length) limits).result := by
  rw [LimitCell.bytes, List.append_assoc] at h
  obtain ⟨d,s,hd,hblank⟩ := mark_head c.mark
  have hmark : mem.drop (i + c.before.bytes.length) = c.mark.bytes ++ rest := by
    rw [← List.drop_drop, h, List.drop_left]
  have hscan := @result_scanWhile _ (s ++ rest) _ isBlank _ d (by rw [h, hd]; rfl) c.before.blank hblank
  rw [limitColumns, result_andThen, hscan, Option.bind_some, LimitCell.bytes, List.length_append, ← Nat.add_assoc]
  generalize i + c.before.bytes.length = j at hmark
  generalize c.mark = m at hmark
  cases m with
  | na =>
    have hdigits := @result_scanWhile mem (chr 'A' :: rest) [] isDigit j (chr 'N') hmark
      (List.forall_mem_nil _) (by decide)
    rw [result_andThen, hdigits, Option.bind_some, List.length_nil, Nat.add_zero, Nat.sub_self, result_andThen,
      result_storeToken,
      if_pos (Nat.zero_le _), Option.bind_some, result_andThen, if_neg (by rw [byteAt_of_drop hmark]; decide),
      result_ret, Option.bind_some]
    dsimp only
    rw [if_pos rfl, result_andThen]
    rfl
  | dbm n half hn =>
    have hlen : j + n.bytes.length - j = n.bytes.length := by omega
    have hne : j ≠ j + n.bytes.length := by
      have := List.length_pos_iff.mpr n.nonempty
      omega
    have hnum : (getU1ByteInteger n.bytes).result = some (some (UInt8.ofNat n.value)) := result_getU1 n.digits
    -- the point comes with one digit behind it, or there is no point
    have hpoint : ∀ (e : UInt8) (tail : List UInt8), isDigit e = true →
        mem.drop j = n.bytes ++ chr '.' :: e :: tail →
        (scanWhile isDigit mem j).result = some (j + n.bytes.length) ∧ byteAt mem (j + n.bytes.length) = chr '.' ∧
          byteAt mem (j + n.bytes.length + 1) = e ∧ slice mem j n.bytes.length = n.bytes := by
      intro e tail he hdrop
      have hafter : mem.drop (j + n.bytes.length) = chr '.' :: e :: tail := by
        rw [← List.drop_drop, hdrop, List.drop_left]
      have hafter' : mem.drop (j + n.bytes.length + 1) = e :: tail := by rw [← List.drop_drop, hafter]; rfl
      exact ⟨result_scanWhile hdrop n.digits (by decide),byteAt_of_drop hafter,byteAt_of_drop
        hafter',slice_of_drop hdrop⟩
    cases half with
    | none =>
      obtain ⟨e,tail,rfl,he,hdot⟩ := stops_char hstop
      have hdrop : mem.drop j = n.bytes ++ e :: tail := hmark
      have hafter : mem.drop (j + n.bytes.length) = e :: tail := by rw [← List.drop_drop, hdrop, List.drop_left]
      rw [result_andThen, result_scanWhile hdrop n.digits he, Option.bind_some, hlen, result_andThen, result_storeToken,
        if_pos (Nat.le_of_lt n.short), Option.bind_some, result_andThen, if_neg (by rwa [byteAt_of_drop hafter]),
        result_ret, Option.bind_some]
      dsimp only
      rw [if_neg hne, slice_of_drop hdrop, result_andThen, hnum, Option.bind_some]
      dsimp only
      rw [result_andThen]
      rfl
    | some half =>
      have hbytes : (LimitMark.dbm n (some half) hn).bytes = n.bytes ++ [chr '.',LimitMark.fraction (some half)] := by
        cases half <;> rfl
      have he : isDigit (LimitMark.fraction (some half)) = true := by
        cases half <;> decide
      rw [hbytes, List.append_assoc] at hmark
      obtain ⟨hdigits,hat,hat',hslice⟩ := hpoint _ rest he hmark
      rw [result_andThen, hdigits, Option.bind_some, hlen, result_andThen, result_storeToken,
        if_pos (Nat.le_of_lt n.short),
        Option.bind_some, result_andThen, if_pos hat, result_andThen, readAt, Option.bind_some, hat', if_pos he,
        result_ret, Option.bind_some]
      dsimp only
      rw [if_neg hne, hslice, result_andThen, hnum, Option.bind_some]
      dsimp only
      rw [result_andThen, hbytes, List.length_append, ← Nat.add_assoc]
      rfl

theorem stops_cells {cells : List LimitCell} (hstop : Stops rest) : Stops (cells.flatMap LimitCell.bytes ++ rest) := by
  cases cells with
  | nil => exact hstop
  | cons c cells =>
    obtain ⟨b,s,hb⟩ := List.exists_cons_of_ne_nil c.separated
    refine ⟨b,s ++ (c.mark.bytes ++ (cells.flatMap LimitCell.bytes ++ rest)),?_,.inl
      (c.before.blank b (by simp [hb]))⟩
    rw [List.flatMap_cons, LimitCell.bytes, hb]
    simp

theorem result_limitColumns {all cols : List (Blanks × TxPwrLmt)} {cells : List LimitCell}
    (h : mem.drop i = cells.flatMap LimitCell.bytes ++ rest) (hstop : Stops rest)
    (hspace : ∀ f ∈ t.fields, f.SpaceFirst)
    (hn : 1 ≤ n.value ∧ n.value ≤ 14) (hcells : cells.length = cols.length) (hcols : all.drop f = cols) :
    (limitColumns (t.parsed k (all.map fun c => c.2.name)) mem n.bytes (List.range' f cols.length) i limits).result =
      some (some ((cols.zip cells).foldl (t.store n.value) limits)) := by
  induction cols generalizing f i limits cells with
  | nil => rfl
  | cons col cols ih =>
    obtain ⟨c,cells,rfl⟩ := List.exists_cons_of_length_eq_add_one hcells
    rw [List.flatMap_cons, List.append_assoc] at h
    have hname : (all.map fun c => c.2.name).getD f [] = col.2.name := by
      have hat : all[f]? = some col := by rw [← List.head?_drop, hcols]; rfl
      rw [List.getD_eq_getElem?_getD, List.getElem?_map, hat]
      rfl
    have hnext : all.drop (f + 1) = cols := by rw [← List.drop_drop, hcols]; rfl
    have hmem : mem.drop (i + c.bytes.length) = cells.flatMap LimitCell.bytes ++ rest := by
      rw [← List.drop_drop, h, List.drop_left]
    rw [List.length_cons, List.range'_succ, limitColumns_cell c h (stops_cells hstop)]
    rw [show (t.parsed k (all.map fun c => c.2.name)).regulation.getD f [] = col.2.name from hname,
      result_phySet hspace hn (col,c), Option.bind_some, ih hmem (Nat.succ.inj hcells) hnext]
    rfl

end Columns

end Rtl8188fu
