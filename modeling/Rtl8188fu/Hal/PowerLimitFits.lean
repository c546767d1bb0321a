import Rtl8188fu.Hal.ParaContained
import Rtl8188fu.Hal.PowerLimitLoad

/-! # Lines that fit the parser of the power limits

For each stage, what a line has to be so that its tokens fit their arrays, its loops stop, and its channels are in the
table. A line that does not fit brings the parser out of its memory.
-/
namespace Rtl8188fu
open Bytes Logged

/-- The line is a blank, an empty line or a comment. -/
def Skipped (mem : List UInt8) : Prop :=
  isBlank (byteAt mem 0) = true ∨ byteAt mem 0 = 0 ∨ byteAt mem 0 = chr '/' ∧ byteAt mem 1 = chr '/'

def DoubleHash (mem : List UInt8) : Prop := byteAt mem 0 = chr '#' ∧ byteAt mem 1 = chr '#'

/-- The line begins with `ch`. -/
def ChannelFirst (mem : List UInt8) : Prop :=
  (byteAt mem 0 = chr 'c' ∨ byteAt mem 0 = chr 'C') ∧ (byteAt mem 1 = chr 'h' ∨ byteAt mem 1 = chr 'H')

instance : DecidablePred Skipped := fun mem => inferInstanceAs
  (Decidable (isBlank (byteAt mem 0) = true ∨ byteAt mem 0 = 0 ∨ byteAt mem 0 = chr '/' ∧ byteAt mem 1 = chr '/'))

instance : DecidablePred DoubleHash := fun mem => inferInstanceAs
  (Decidable (byteAt mem 0 = chr '#' ∧ byteAt mem 1 = chr '#'))

instance : DecidablePred ChannelFirst := fun mem => inferInstanceAs
  (Decidable ((byteAt mem 0 = chr 'c' ∨ byteAt mem 0 = chr 'C') ∧
    (byteAt mem 1 = chr 'h' ∨ byteAt mem 1 = chr 'H')))

/-- What is behind `##` and the blanks -/
def behindHashes (mem : List UInt8) : ℕ := scanEnd isBlank mem 2

/-- The byte behind the token from `i` on, and its qualifier -/
def behindToken (mem : List UInt8) (i : ℕ) (right : UInt8) : ℕ := scanEnd (· != right) mem i + 1

/-- The string that is stored of it -/
def tokenAt (mem : List UInt8) (i : ℕ) (right : UInt8) : List UInt8 :=
  (slice mem i (scanEnd (· != right) mem i - i)).takeWhile (· != 0)

/-- Each label that begins with a space has its comma in time, up to the first one that does not begin so. -/
def LabelsFit (mem : List UInt8) : ℕ → ℕ → Prop
  | 0, _ => True
  | k + 1, i => i < mem.length ∧
      (byteAt mem i = chr ' ' → TokenIn mem (i + 1) (chr ',') ∧ LabelsFit mem k (behindToken mem (i + 1) (chr ',')))

def isNameChar (c : UInt8) : Bool := !isBlank c && c != 0

/-- The names of the columns end in the buffer, and each of them fits. -/
def NamesFit (mem : List UInt8) : ℕ → ℕ → Prop
  | 0, _ => True
  | cols + 1, i =>
    let first := scanEnd isBlank mem i
    let last := scanEnd isNameChar mem first
    StopsIn isBlank mem i ∧ StopsIn isNameChar mem first ∧ last - first ≤ TOKEN_LEN ∧
      (first ≠ last → NamesFit mem cols last)

/-- The channel has room for a zero behind it, and one of the 2.4 GHz band is not above 14 when there is a limit to
store. -/
def ChannelFits (l : LimitLabels) (regulation channel : List UInt8) : Prop :=
  channel.length < TOKEN_LEN ∧
    ((regulationOf regulation).isSome → (rateSectionOf l.rateSection l.rfPath).isSome →
      (∃ b, bandwidthOf l.bandwidth = some b ∧ b < MAX_2_4G_BANDWIDTH_NUM) → limitBandOf l.band = some .on24G →
      (channel.foldl decimalStep 0).toNat ≤ CENTER_CH_2G_NUM)

/-- Where it goes on behind the digits; `none` for a point without a digit behind it -/
def behindDigits (mem : List UInt8) (last : ℕ) : Option ℕ :=
  if byteAt mem last = chr '.' then if isDigit (byteAt mem (last + 1)) then some (last + 2) else none else some last

/-- The limits of a row. Behind a limit that has no digits two bytes are passed over. -/
def ColumnsFit (l : LimitLabels) (mem channel : List UInt8) : List ℕ → ℕ → Prop
  | [], _ => True
  | forCnt :: cols, i =>
    let first := scanEnd isBlank mem i
    let last := scanEnd isDigit mem first
    StopsIn isBlank mem i ∧ StopsIn isDigit mem first ∧ last - first ≤ TOKEN_LEN ∧
      (byteAt mem last = chr '.' → last + 1 < mem.length) ∧
      ∀ k, behindDigits mem last = some k → (first ≠ last → last - first < TOKEN_LEN) ∧
        ChannelFits l (l.regulation.getD forCnt []) channel ∧
        ColumnsFit l mem channel cols (if first = last then k + 2 else k)

section Stages
variable (p : LimitParser) (mem : List UInt8)

def LabelLineFits : Prop :=
  DoubleHash mem → LabelsFit (mem.set (behindHashes mem - 1) (chr ' ')) 4 (behindHashes mem - 1)

def StartLineFits : Prop := DoubleHash mem → behindHashes mem + 5 ≤ mem.length

def ColumnsLineFits : Prop :=
  DoubleHash mem → byteAt mem (behindHashes mem) = chr '#' →
    let colNumBuf := tokenAt mem (behindHashes mem + 1) (chr '#')
    TokenIn mem (behindHashes mem + 1) (chr '#') ∧ (colNumBuf.takeWhile isDigit).length < TOKEN_LEN ∧
      (colNumBuf.all isDigit = true → (colNumBuf.foldl decimalStep 0).toNat ≤ TXPWR_LMT_MAX_REGULATION_NUM →
        NamesFit mem (colNumBuf.foldl decimalStep 0).toNat (behindToken mem (behindHashes mem + 1) (chr '#')))

def RowLineFits : Prop :=
  (DoubleHash mem → behindHashes mem + 3 ≤ mem.length) ∧
    (¬DoubleHash mem → ChannelFirst mem → scanEnd isDigit mem 2 - 2 ≤ TOKEN_LEN ∧
      ColumnsFit p.labels mem (slice mem 2 (scanEnd isDigit mem 2 - 2)) (List.range p.labels.colNum)
        (scanEnd isDigit mem 2))

/-- The line fits the stage that the parser is in. -/
def LimitLineFits : Prop :=
  ¬Skipped mem →
    match p.loadingStage with
    | .label => LabelLineFits mem
    | .start => StartLineFits mem
    | .columns => ColumnsLineFits mem
    | .rows => RowLineFits p mem

end Stages

section Tokens
variable {α : Type} {mem : List UInt8} {i k : ℕ} {l : LimitLabels} {channel regulation : List UInt8}

theorem contained_labelFields_iff : Contained (labelFields mem k i) ↔ LabelsFit mem k i := by
  induction k generalizing i with
  | zero => exact iff_of_true (completes_ret _) trivial
  | succ k ih =>
    rw [labelFields, contained_parseQualifiedString_andThen, LabelsFit]
    refine and_congr_right fun _ => ?_
    by_cases hspace : byteAt mem i = chr ' '
    · rw [if_pos hspace, contained_andThen_of_all fun a => completes_ret _, ih, imp_iff_right hspace, behindToken]
    · rw [if_neg hspace]
      exact iff_of_true (completes_ret _) fun h => absurd h hspace

theorem contained_columnNames_iff : Contained (columnNames mem k i) ↔ NamesFit mem k i := by
  induction k generalizing i with
  | zero => exact iff_of_true (completes_ret _) trivial
  | succ k ih =>
    rw [columnNames, contained_scanWhile_andThen, contained_scanWhile_andThen, contained_storeToken_andThen, NamesFit]
    refine and_congr_right fun _ => and_congr_right fun _ => and_congr_right fun _ => ?_
    change Contained (if scanEnd isBlank mem i = scanEnd isNameChar mem (scanEnd isBlank mem i) then _ else _) ↔ _
    split_ifs with hempty
    · exact iff_of_true (completes_ret _) fun h => absurd hempty h
    · rw [contained_andThen_of_all fun a => completes_ret _, ih]
      exact (imp_iff_right hempty).symm

/-- Every channel of the 5 GHz band that is found is in its table. -/
theorem on5G_index (c : UInt8) : phyGetChannelIndex .on5G c = -1 ∨
    0 ≤ (phyGetChannelIndex .on5G c).toInt ∧ (phyGetChannelIndex .on5G c).toInt < centerCh5gAll.length := by
  have h : ∀ n : Fin 256, phyGetChannelIndex .on5G (UInt8.ofNat n) = -1 ∨
      0 ≤ (phyGetChannelIndex .on5G (UInt8.ofNat n)).toInt ∧
        (phyGetChannelIndex .on5G (UInt8.ofNat n)).toInt < centerCh5gAll.length := by decide +kernel
  have hc := h ⟨c.toNat,c.toNat_lt⟩
  rwa [UInt8.ofNat_toNat] at hc

theorem on24G_index (c : UInt8) : (phyGetChannelIndex .on24G c = -1 ∨
    0 ≤ (phyGetChannelIndex .on24G c).toInt ∧ (phyGetChannelIndex .on24G c).toInt < CENTER_CH_2G_NUM) ↔
      c.toNat ≤ CENTER_CH_2G_NUM := by
  have h : ∀ n : Fin 256, (phyGetChannelIndex .on24G (UInt8.ofNat n) = -1 ∨
      0 ≤ (phyGetChannelIndex .on24G (UInt8.ofNat n)).toInt ∧
        (phyGetChannelIndex .on24G (UInt8.ofNat n)).toInt < CENTER_CH_2G_NUM) ↔
          (UInt8.ofNat n).toNat ≤ CENTER_CH_2G_NUM := by decide +kernel
  have hc := h ⟨c.toNat,c.toNat_lt⟩
  rwa [UInt8.ofNat_toNat] at hc

theorem contained_atChannel_iff {channelIndex : Int8} {size : ℕ} {store : ℕ → TxPwrLimits} :
    Contained (atChannel channelIndex size store) ↔ 0 ≤ channelIndex.toInt ∧ channelIndex.toInt < size := by
  rw [atChannel, Contained, completes_emit_andThen]
  constructor
  · intro h
    exact h.1 _ (List.mem_singleton_self _)
  · intro h
    refine ⟨List.forall_mem_singleton.mpr h,?_⟩
    rw [if_pos h]
    exact completes_ret _

theorem contained_getU1_digits_andThen {str : List UInt8} (hdigits : str.all isDigit = true)
    {f : Option UInt8 → Logged ParaAccess α} : Contained ((getU1ByteInteger str).andThen f) ↔
      str.length < TOKEN_LEN ∧ Contained (f (some (str.foldl decimalStep 0))) := by
  rw [contained_getU1ByteInteger_andThen, List.takeWhile_eq_self_iff.mpr (List.all_eq_true.mp hdigits), if_pos hdigits]

/-- Of the labels, only those that are known come to the table. -/
theorem contained_phySetTxPowerLimit_iff {t : TxPwrLimits} {powerLimit : List UInt8}
    (hchannel : channel.all isDigit = true)
    (hlimit : powerLimit.all isDigit = true) (hlen : powerLimit.length < TOKEN_LEN) :
    Contained (phySetTxPowerLimit t l regulation channel powerLimit) ↔ ChannelFits l regulation channel := by
  rw [phySetTxPowerLimit, contained_getU1_digits_andThen hchannel, ChannelFits]
  refine and_congr_right fun _ => ?_
  dsimp only
  rw [contained_getU1_digits_andThen hlimit, and_iff_right hlen]
  dsimp only
  cases hr : regulationOf regulation with
  | none => exact iff_of_true (completes_ret _) (by simp)
  | some r =>
    cases hs : rateSectionOf l.rateSection l.rfPath with
    | none => exact iff_of_true (completes_ret _) (by simp)
    | some s =>
      cases hb : bandwidthOf l.bandwidth with
      | none => exact iff_of_true (completes_ret _) (by simp)
      | some b =>
        cases hband : limitBandOf l.band with
        | none => exact iff_of_true (completes_ret _) (by simp)
        | some band =>
          cases band with
          | on24G =>
            dsimp only
            by_cases hnone : phyGetChannelIndex .on24G (channel.foldl decimalStep 0) = -1 ∨
              MAX_2_4G_BANDWIDTH_NUM ≤ b
            · rw [if_pos hnone]
              refine iff_of_true (completes_ret _) ?_
              rintro - - ⟨b',⟨⟩,hlt⟩ -
              exact (on24G_index _).mp (.inl (hnone.resolve_right hlt.not_ge))
            · obtain ⟨hindex,hwidth⟩ := not_or.mp hnone
              rw [if_neg hnone, contained_atChannel_iff]
              constructor
              · intro hin _ _ _ _
                exact (on24G_index _).mp (.inr hin)
              · intro h
                exact ((on24G_index _).mpr (h rfl rfl ⟨b,rfl,not_le.mp hwidth⟩ rfl)).resolve_left hindex
          | on5G =>
            dsimp only
            refine iff_of_true ?_ (by simp)
            by_cases hnone : phyGetChannelIndex .on5G (channel.foldl decimalStep 0) = -1
            · rw [if_pos hnone]
              exact completes_ret _
            · rw [if_neg hnone]
              exact contained_atChannel_iff.mpr ((on5G_index _).resolve_left hnone)

theorem contained_phySetTxPowerLimit_andThen {t : TxPwrLimits} {powerLimit : List UInt8}
    {f : TxPwrLimits → Logged ParaAccess α}
    {q : Prop} (hchannel : channel.all isDigit = true) (hlimit : powerLimit.all isDigit = true)
    (hlen : powerLimit.length < TOKEN_LEN) (hf : ∀ t, Contained (f t) ↔ q) :
    Contained ((phySetTxPowerLimit t l regulation channel powerLimit).andThen f) ↔
    ChannelFits l regulation channel ∧ q := by
  rw [Contained, completes_andThen_const hf]
  exact and_congr_left fun _ => contained_phySetTxPowerLimit_iff hchannel hlimit hlen

theorem length_limitText (v : UInt8) : (limitText v).length < TOKEN_LEN := by
  rw [limitText]
  split_ifs
  · exact (by decide : 3 < TOKEN_LEN)
  · exact (by decide : 2 < TOKEN_LEN)
  · exact (by decide : 1 < TOKEN_LEN)

theorem slice_scanEnd (p : UInt8 → Bool) (mem : List UInt8) (i : ℕ) :
    slice mem i (scanEnd p mem i - i) = (mem.drop i).takeWhile p := by
  rw [scanEnd, Nat.add_sub_cancel_left, slice]
  exact ((List.prefix_iff_eq_take.mp (List.takeWhile_prefix p)).symm)

theorem slice_scanEnd_all (p : UInt8 → Bool) (mem : List UInt8) (i : ℕ) :
    (slice mem i (scanEnd p mem i - i)).all p = true := by
  rw [slice_scanEnd, List.all_eq_true]
  exact fun c hc => List.mem_takeWhile_imp hc

theorem length_slice_scanEnd (p : UInt8 → Bool) (mem : List UInt8) (i : ℕ) :
    (slice mem i (scanEnd p mem i - i)).length = scanEnd p mem i - i := by
  rw [slice_scanEnd, scanEnd, Nat.add_sub_cancel_left]

/-- A limit without digits, or with digits that fit into their array -/
theorem contained_column_iff {k : ℕ} {x : Logged ParaAccess α} {f : Option UInt8 → Logged ParaAccess α} {q : Prop}
    {fits : ℕ → Prop} (hx : Contained x ↔ q ∧ fits (k + 2))
    (hf : ∀ v, Contained (f (some v)) ↔ q ∧ fits k) :
    Contained (if i = scanEnd isDigit mem i then x
      else (getU1ByteInteger (slice mem i (scanEnd isDigit mem i - i))).andThen f) ↔
        (i ≠ scanEnd isDigit mem i → scanEnd isDigit mem i - i < TOKEN_LEN) ∧ q ∧
          fits (if i = scanEnd isDigit mem i then k + 2 else k) := by
  by_cases hempty : i = scanEnd isDigit mem i
  · rw [if_pos hempty, if_pos hempty, hx]
    exact (and_iff_right fun h => absurd hempty h).symm
  · rw [if_neg hempty, if_neg hempty, contained_getU1_digits_andThen (slice_scanEnd_all isDigit mem i),
      length_slice_scanEnd, hf, imp_iff_right hempty]

theorem contained_limitColumns_iff {cols : List ℕ} {t : TxPwrLimits} (hchannel : channel.all isDigit = true) :
    Contained (limitColumns l mem channel cols i t) ↔ ColumnsFit l mem channel cols i := by
  induction cols generalizing i t with
  | nil => exact iff_of_true (completes_ret _) trivial
  | cons forCnt cols ih =>
    rw [limitColumns, contained_scanWhile_andThen, contained_scanWhile_andThen, contained_storeToken_andThen,
      ColumnsFit]
    refine and_congr_right fun _ => and_congr_right fun _ => and_congr_right fun _ => ?_
    set first := scanEnd isBlank mem i with hfirst
    set last := scanEnd isDigit mem first with hlast
    -- a limit that has been read, whatever its fraction is
    have hno :
        ∀ k, Contained ((phySetTxPowerLimit t l (l.regulation.getD forCnt []) channel (ascii "63")).andThen fun t =>
        limitColumns l mem channel cols k t) ↔
          ChannelFits l (l.regulation.getD forCnt []) channel ∧ ColumnsFit l mem channel cols k := fun k =>
      contained_phySetTxPowerLimit_andThen hchannel (by decide +kernel) (by decide) fun t => ih
    have hvalue : ∀ (v : UInt8) k, Contained ((phySetTxPowerLimit t l (l.regulation.getD forCnt []) channel
        (limitText v)).andThen fun t => limitColumns l mem channel cols k t) ↔
          ChannelFits l (l.regulation.getD forCnt []) channel ∧ ColumnsFit l mem channel cols k := fun v k =>
      contained_phySetTxPowerLimit_andThen hchannel (limitText_isDigits _).1 (length_limitText _) fun t => ih
    by_cases hpoint : byteAt mem last = chr '.'
    · rw [if_pos hpoint, andThen_assoc, contained_readAt_andThen, imp_iff_right hpoint, ret_andThen, behindDigits,
        if_pos hpoint]
      refine and_congr_right fun _ => ?_
      by_cases hdigit : isDigit (byteAt mem (last + 1)) = true
      · rw [if_pos hdigit, if_pos hdigit]
        refine (contained_column_iff (hno (last + 2 + 2)) fun v => hvalue _ (last + 2)).trans ⟨?_,fun h => h _ rfl⟩
        rintro h _ ⟨⟩
        exact h
      · rw [if_neg hdigit, if_neg hdigit]
        exact iff_of_true (completes_ret _) (by simp)
    · rw [if_neg hpoint, ret_andThen, behindDigits, if_neg hpoint]
      refine (contained_column_iff (hno (last + 2)) fun v => hvalue _ last).trans
        ⟨fun h => ⟨fun h' => absurd h' hpoint,?_⟩,fun h => h.2 _ rfl⟩
      rintro _ ⟨⟩
      exact h

end Tokens

section Lines
variable {α : Type} {p : LimitParser} {mem : List UInt8}

/-- There is a byte behind the first one, unless the line is empty. -/
theorem one_lt_length (h : 0 ∈ mem) (hne : byteAt mem 0 ≠ 0) : 1 < mem.length :=
  lt_length_of_zero_mem (@zero_mem_drop_succ mem 0 h hne)

theorem zero_mem_drop_two (h : 0 ∈ mem) (hzero : byteAt mem 0 ≠ 0) (hone : byteAt mem 1 ≠ 0) : 0 ∈ mem.drop 2 :=
  zero_mem_drop_succ (@zero_mem_drop_succ mem 0 h hzero) hone

theorem contained_skipsLine_andThen (h : 0 ∈ mem) {f : Bool → Logged ParaAccess α} :
    Contained ((skipsLine mem).andThen f) ↔ Contained (f (decide (Skipped mem))) := by
  rw [skipsLine, andThen_assoc, contained_readAt_andThen, and_iff_right (List.length_pos_of_mem h)]
  by_cases hempty : isBlank (byteAt mem 0) = true ∨ byteAt mem 0 = 0
  · have hskip : Skipped mem := hempty.elim .inl fun h => .inr (.inl h)
    rw [if_pos hempty, ret_andThen, decide_eq_true hskip]
  · rw [if_neg hempty]
    obtain ⟨hblank,hne⟩ := not_or.mp hempty
    by_cases hslash : byteAt mem 0 = chr '/'
    · have hskip : (byteAt mem 1 = chr '/') = Skipped mem := by
        rw [Skipped, eq_iff_iff]
        tauto
      rw [if_pos hslash, andThen_assoc, contained_readAt_andThen, and_iff_right (one_lt_length h hne), ret_andThen]
      simp only [hskip]
    · have hskip : ¬Skipped mem := by simp [Skipped, hblank, hne, hslash]
      rw [if_neg hslash, ret_andThen, decide_eq_false hskip]

theorem contained_doubleHash_andThen (h : 0 ∈ mem) {f : Bool → Logged ParaAccess α} :
    Contained ((doubleHash mem).andThen f) ↔ Contained (f (decide (DoubleHash mem))) := by
  rw [doubleHash, andThen_assoc, contained_readAt_andThen, and_iff_right (List.length_pos_of_mem h)]
  by_cases hfirst : byteAt mem 0 = chr '#'
  · have hne : byteAt mem 0 ≠ 0 := by
      rw [hfirst]
      decide
    have hhash : (byteAt mem 1 = chr '#') = DoubleHash mem := by simp [DoubleHash, hfirst]
    rw [if_pos hfirst, andThen_assoc, contained_readAt_andThen, and_iff_right (one_lt_length h hne), ret_andThen]
    simp only [hhash]
  · have hhash : ¬DoubleHash mem := by simp [DoubleHash, hfirst]
    rw [if_neg hfirst, ret_andThen, decide_eq_false hhash]

theorem contained_isChannel_andThen (h : 0 ∈ mem) {f : Bool → Logged ParaAccess α} :
    Contained ((isChannel mem).andThen f) ↔ Contained (f (decide (ChannelFirst mem))) := by
  rw [isChannel, andThen_assoc, contained_readAt_andThen, and_iff_right (List.length_pos_of_mem h)]
  by_cases hfirst : byteAt mem 0 = chr 'c' ∨ byteAt mem 0 = chr 'C'
  · have hne : byteAt mem 0 ≠ 0 := by
      rcases hfirst with hfirst | hfirst <;> rw [hfirst] <;> decide
    have hchannel :
        (decide (byteAt mem 1 = chr 'h') || decide (byteAt mem 1 = chr 'H')) = decide (ChannelFirst mem) := by
      simp [ChannelFirst, hfirst]
    rw [if_pos hfirst, andThen_assoc, contained_readAt_andThen, and_iff_right (one_lt_length h hne),
      ret_andThen, hchannel]
  · have hchannel : ¬ChannelFirst mem := by simp [ChannelFirst, hfirst]
    rw [if_neg hfirst, ret_andThen, decide_eq_false hchannel]

/-- Behind `##` the end of the line is still to come. -/
theorem DoubleHash.zero_mem (hhash : DoubleHash mem) (h : 0 ∈ mem) : 0 ∈ mem.drop 2 := by
  obtain ⟨hzero,hone⟩ := hhash
  refine zero_mem_drop_two h ?_ ?_
  · rw [hzero]
    decide
  · rw [hone]
    decide

theorem ChannelFirst.zero_mem (hchannel : ChannelFirst mem) (h : 0 ∈ mem) : 0 ∈ mem.drop 2 := by
  obtain ⟨hzero,hone⟩ := hchannel
  refine zero_mem_drop_two h ?_ ?_
  · rcases hzero with hzero | hzero <;> rw [hzero] <;> decide
  · rcases hone with hone | hone <;> rw [hone] <;> decide

/-- The loop over the blanks behind `##` stops. -/
theorem contained_blanks_andThen (hhash : DoubleHash mem) (h : 0 ∈ mem) {f : ℕ → Logged ParaAccess α} :
    Contained ((scanWhile isBlank mem 2).andThen f) ↔ Contained (f (behindHashes mem)) := by
  rw [contained_scanWhile_andThen, and_iff_right (stopsIn_of_zero_mem (by decide) (hhash.zero_mem h)), behindHashes]

theorem behindHashes_lt (hhash : DoubleHash mem) (h : 0 ∈ mem) : behindHashes mem < mem.length :=
  stopsIn_iff.mp (stopsIn_of_zero_mem (by decide) (hhash.zero_mem h))

theorem contained_labelLine_iff (h : 0 ∈ mem) : Contained (labelLine p mem) ↔ LabelLineFits mem := by
  rw [labelLine, contained_doubleHash_andThen h]
  by_cases hhash : DoubleHash mem
  · have hlt := behindHashes_lt hhash h
    have hbefore : ∀ e ∈ [ParaAccess.buffer (behindHashes mem - 1) mem.length], e.Inside := by
      refine List.forall_mem_singleton.mpr ?_
      show behindHashes mem - 1 < mem.length
      omega
    rw [decide_eq_true hhash, if_neg Bool.noConfusion, contained_blanks_andThen hhash h, Contained,
      completes_emit_andThen, and_iff_right hbefore, LabelLineFits, imp_iff_right hhash, ← contained_labelFields_iff]
    refine contained_andThen_of_all fun labels => ?_
    cases labels <;> exact completes_ret _
  · rw [decide_eq_false hhash, if_pos rfl]
    exact iff_of_true (completes_ret _) fun h => absurd h hhash

theorem contained_startLine_iff (h : 0 ∈ mem) : Contained (startLine p mem) ↔ StartLineFits mem := by
  have hstr : ascii "START" ≠ [] := by decide
  rw [startLine, contained_doubleHash_andThen h]
  by_cases hhash : DoubleHash mem
  · rw [decide_eq_true hhash, if_neg Bool.noConfusion, contained_blanks_andThen hhash h,
      contained_eqNByte_andThen hstr, StartLineFits, imp_iff_right hhash]
    refine and_iff_left ?_
    split_ifs <;> exact completes_ret _
  · rw [decide_eq_false hhash, if_pos rfl]
    exact iff_of_true (completes_ret _) fun h => absurd h hhash

theorem contained_columnsLine_iff (h : 0 ∈ mem) : Contained (columnsLine p mem) ↔ ColumnsLineFits mem := by
  rw [columnsLine, contained_doubleHash_andThen h]
  by_cases hhash : DoubleHash mem
  · rw [decide_eq_true hhash, if_neg Bool.noConfusion, contained_blanks_andThen hhash h,
      contained_parseQualifiedString_andThen,
      and_iff_right (behindHashes_lt hhash h), ColumnsLineFits, imp_iff_right hhash]
    by_cases hfirst : byteAt mem (behindHashes mem) = chr '#'
    · rw [if_pos hfirst, imp_iff_right hfirst]
      refine and_congr_right fun _ => ?_
      dsimp only
      rw [contained_getU1ByteInteger_andThen]
      refine and_congr_right fun _ => ?_
      rw [← tokenAt]
      by_cases hdigits : (tokenAt mem (behindHashes mem + 1) (chr '#')).all isDigit = true
      · rw [if_pos hdigits, imp_iff_right hdigits]
        dsimp only
        split_ifs with hmany
        · exact iff_of_true (completes_ret _) fun h => absurd hmany h.not_gt
        · rw [imp_iff_right (not_lt.mp hmany), ← contained_columnNames_iff]
          refine contained_andThen_of_all fun names => ?_
          cases names <;> exact completes_ret _
      · rw [if_neg hdigits]
        exact iff_of_true (completes_ret _) fun h => absurd h hdigits
    · rw [if_neg hfirst]
      exact iff_of_true (completes_ret _) fun h => absurd h hfirst
  · rw [decide_eq_false hhash, if_pos rfl]
    exact iff_of_true (completes_ret _) fun h => absurd h hhash

theorem contained_rowLine_iff (h : 0 ∈ mem) : Contained (rowLine p mem) ↔ RowLineFits p mem := by
  have hstr : ascii "END" ≠ [] := by decide
  rw [rowLine, contained_doubleHash_andThen h, RowLineFits]
  by_cases hhash : DoubleHash mem
  · rw [decide_eq_true hhash, if_pos rfl, contained_blanks_andThen hhash h, contained_eqNByte_andThen hstr,
      imp_iff_right hhash]
    refine and_congr Iff.rfl (iff_of_true ?_ fun h => absurd hhash h)
    split_ifs <;> exact completes_ret _
  · rw [decide_eq_false hhash, if_neg Bool.noConfusion, contained_isChannel_andThen h, imp_iff_right hhash,
      and_iff_right fun h => absurd h hhash]
    by_cases hchannel : ChannelFirst mem
    · have hdigits := slice_scanEnd_all isDigit mem 2
      have hstops := stopsIn_of_zero_mem (p := isDigit) (by decide) (hchannel.zero_mem h)
      rw [decide_eq_true hchannel, if_neg Bool.noConfusion, contained_scanWhile_andThen, and_iff_right hstops,
        contained_storeToken_andThen, imp_iff_right hchannel, ← contained_limitColumns_iff hdigits]
      refine and_congr_right fun _ => contained_andThen_of_all fun limits => ?_
      cases limits <;> exact completes_ret _
    · rw [decide_eq_false hchannel, if_pos rfl]
      exact iff_of_true (completes_ret _) fun h => absurd h hchannel

/-- A line keeps the parser inside exactly when it fits. -/
theorem contained_limitLine_iff (h : 0 ∈ mem) : Contained (limitLine p mem) ↔ LimitLineFits p mem := by
  rw [limitLine, contained_skipsLine_andThen h, LimitLineFits]
  by_cases hskip : Skipped mem
  · rw [decide_eq_true hskip, if_pos rfl]
    exact iff_of_true (completes_ret _) fun h => absurd hskip h
  · rw [decide_eq_false hskip, if_neg Bool.noConfusion, imp_iff_right hskip, stageLine]
    cases p.loadingStage with
    | label => exact contained_labelLine_iff h
    | start => exact contained_startLine_iff h
    | columns => exact contained_columnsLine_iff h
    | rows => exact contained_rowLine_iff h

end Lines

end Rtl8188fu
