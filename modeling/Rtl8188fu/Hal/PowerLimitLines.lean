import Rtl8188fu.Hal.PowerLimitLoad

/-! # The lines of a table

One lemma for each kind of line, and from them what a whole table leaves behind.
-/
namespace Rtl8188fu
open Bytes Logged

section Skipped
variable {line mem rest s : List UInt8} {c : UInt8} {p : LimitParser}

theorem result_skipsLine (h : mem = c :: s) (hblank : isBlank c = false) (hzero : c ≠ 0) (hslash : c ≠ chr '/') :
    (skipsLine mem).result = some false := by
  subst h
  have hat : byteAt (c :: s) 0 = c := @byteAt_of_drop _ s _ _ rfl
  rw [skipsLine, result_andThen, readAt, Option.bind_some, hat, if_neg (by simp [hblank, hzero]), if_neg hslash]
  rfl

theorem result_skipsLine_blank (h : mem = c :: s) (hblank : isBlank c = true ∨ c = 0) :
    (skipsLine mem).result = some true := by
  subst h
  have hat : byteAt (c :: s) 0 = c := @byteAt_of_drop _ s _ _ rfl
  rw [skipsLine, result_andThen, readAt, Option.bind_some, hat, if_pos hblank]
  rfl

theorem result_skipsLine_filler (h : IsFiller line = true) : (skipsLine (line ++ 0 :: rest)).result = some true := by
  cases line with
  | nil => exact result_skipsLine_blank rfl (.inr rfl)
  | cons c s =>
    by_cases hc : isBlank c = true
    · exact result_skipsLine_blank rfl (.inl hc)
    · rw [IsFiller, List.dropWhile_cons_of_neg hc, Bool.or_eq_true] at h
      obtain ⟨s,hs⟩ := List.isPrefixOf_iff_prefix.mp (h.resolve_left (by simp))
      rw [← hs]
      rfl

theorem limitLine_skipped (h : (skipsLine mem).result = some true) : (limitLine p mem).result = some (.inr p) := by
  rw [limitLine, result_andThen, h]
  rfl

theorem result_doubleHash : (doubleHash (ascii "##" ++ s)).result = some true := rfl

theorem limitLine_hash : (limitLine p (ascii "##" ++ s)).result = (stageLine p (ascii "##" ++ s)).result := by
  have hskip : (skipsLine (ascii "##" ++ s)).result = some false :=
    result_skipsLine (c := chr '#') (s := chr '#' :: s) rfl (by decide) (by decide) (by decide)
  rw [limitLine, result_andThen, hskip, Option.bind_some, if_neg (by decide)]

theorem stops_of_isRest (h : IsRest s) : Stops (s ++ 0 :: rest) := by
  cases s with
  | nil => exact ⟨0,rest,rfl,.inr rfl⟩
  | cons c s => exact ⟨c,s ++ 0 :: rest,rfl,.inl (h.2 c rfl)⟩

end Skipped

section Lead
variable {mem s : List UInt8} {c : UInt8} {b : Blanks}

/-- The blanks behind the two characters of a label line -/
theorem result_lead (hc : isBlank c = false) :
    (scanWhile isBlank (ascii "##" ++ (b.bytes ++ c :: s)) 2).result = some (2 + b.bytes.length) :=
  @result_scanWhile (ascii "##" ++ (b.bytes ++ c :: s)) _ _ _ _ _ rfl b.blank hc

theorem result_lead_word {str : List UInt8} (hstr : ∃ c s, str = c :: s ∧ isBlank c = false) :
    (scanWhile isBlank (ascii "##" ++ (b.bytes ++ (str ++ s))) 2).result = some (2 + b.bytes.length) := by
  obtain ⟨c,str,rfl,hc⟩ := hstr
  exact result_lead hc

theorem drop_lead : (ascii "##" ++ (b.bytes ++ s)).drop (2 + b.bytes.length) = s := by
  rw [← List.drop_drop]
  exact List.drop_left

theorem result_eqNByte {str : List UInt8} :
    (eqNByte (ascii "##" ++ (b.bytes ++ (str ++ s))) (2 + b.bytes.length) str).result = some true := by
  rw [eqNByte, slice_of_drop drop_lead, decide_eq_true rfl]

end Lead

theorem drop_set_self {mem : List UInt8} {i : ℕ} (h : i < mem.length) (c : UInt8) :
    (mem.set i c).drop i = c :: mem.drop (i + 1) := by
  rw [List.drop_set, if_neg (lt_irrefl i), Nat.sub_self, List.drop_eq_getElem_cons h]
  rfl

section Label
variable {t : LimitTable} {p : LimitParser} {labels : LimitLabels} {limits : TxPwrLimits} {rest : List UInt8}

/-- The labels as the parser has them, with the space that it writes in front of the band -/
theorem label_drop :
    ((t.labelLine ++ 0 :: rest).set (2 + t.lead.bytes.length - 1) (chr ' ')).drop (2 + t.lead.bytes.length - 1) =
    t.allFields.flatMap LabelField.bytes ++ (t.labelRest ++ 0 :: rest) := by
  have hsplit : t.labelLine ++ 0 :: rest = ascii "##" ++ (t.lead.bytes ++ (ascii "2.4G" ++ (t.bandAfter.bytes ++
      (chr ',' :: (t.fields.flatMap LabelField.bytes ++ (t.labelRest ++ 0 :: rest)))))) := by
    simp only [LimitTable.labelLine, List.append_assoc, List.cons_append]
  have hlen : 2 + t.lead.bytes.length - 1 < (t.labelLine ++ 0 :: rest).length := by
    have htwo : (ascii "##").length = 2 := rfl
    rw [hsplit, List.length_append, List.length_append, htwo]
    omega
  have hat : 2 + t.lead.bytes.length - 1 + 1 = 2 + t.lead.bytes.length := by omega
  rw [drop_set_self hlen, hat, hsplit, drop_lead]
  simp [LimitTable.allFields, LabelField.bytes, Blanks.space]

theorem labelLine_split : ∃ s, t.labelLine ++ 0 :: rest = ascii "##" ++ (t.lead.bytes ++ chr '2' :: s) :=
  ⟨ascii ".4G" ++ (t.bandAfter.bytes ++ (chr ',' :: (t.fields.flatMap LabelField.bytes ++ t.labelRest))) ++ 0 :: rest,
    by simp [LimitTable.labelLine, ascii]⟩

theorem limitLine_label : (limitLine ⟨.label,labels,limits⟩ (t.labelLine ++ 0 :: rest)).result =
    (labelFields ((t.labelLine ++ 0 :: rest).set (2 + t.lead.bytes.length - 1)
      (chr ' ')) 4 (2 + t.lead.bytes.length - 1)).result.map
      fun
      | none => .inl (false,limits)
      | some found => .inr ⟨.start,{ LimitLabels.init with
          band := found.getD 0 []
          bandwidth := found.getD 1 []
          rfPath := found.getD 2 []
          rateSection := found.getD 3 []
          colNum := labels.colNum },limits⟩ := by
  obtain ⟨s,hs⟩ := @labelLine_split t rest
  have hlead : (scanWhile isBlank (t.labelLine ++ 0 :: rest) 2).result = some (2 + t.lead.bytes.length) := by
    rw [hs]
    exact result_lead (by decide)
  have hline : (limitLine ⟨.label,labels,limits⟩ (t.labelLine ++ 0 :: rest)).result =
      (labelLine ⟨.label,labels,limits⟩ (t.labelLine ++ 0 :: rest)).result := by
    rw [hs]
    exact limitLine_hash
  have hhash : (doubleHash (t.labelLine ++ 0 :: rest)).result = some true := by
    rw [hs]
    rfl
  rw [hline, labelLine, result_andThen, hhash, Option.bind_some, if_neg (by decide), result_andThen, hlead,
    Option.bind_some, result_andThen, result_emit, Option.bind_some, result_andThen]
  cases (labelFields ((t.labelLine ++ 0 :: rest).set (2 + t.lead.bytes.length - 1) (chr ' ')) 4
    (2 + t.lead.bytes.length - 1)).result with
  | none => rfl
  | some found => cases found <;> rfl

theorem limitLine_label_reads (h : t.Reads) : (limitLine ⟨.label,labels,limits⟩ (t.labelLine ++ 0 :: rest)).result =
    some (.inr ⟨.start,t.parsed labels.colNum [],limits⟩) := by
  have hfields := labelFields_reads (@label_drop t rest) (fun f hf => allFields_isToken hf) h
  rw [limitLine_label, show 4 = t.allFields.length from rfl, hfields]
  rfl

theorem limitLine_label_refused (h : t.Refused) :
    (limitLine ⟨.label,labels,limits⟩ (t.labelLine ++ 0 :: rest)).result =
    some (.inl (false,limits)) := by
  obtain ⟨pre,f,post,hall,hpre,hf⟩ := h
  have hdrop := @label_drop t rest
  rw [hall] at hdrop
  have hfields := (labelFields_first hdrop (fun g hg => allFields_isToken (t := t) (by rwa [hall])) hpre).1 hf
  rw [limitLine_label, show 4 = (pre ++ f :: post).length by rw [← hall]; rfl, hfields]
  rfl

/-- A label that does not fit its array -/
def LimitTable.Overflows (t : LimitTable) : Prop :=
  ∃ pre f post, t.allFields = pre ++ f :: post ∧ (∀ g ∈ pre, g.SpaceFirst ∧ g.Short) ∧
    f.SpaceFirst ∧ ¬f.Short

theorem limitLine_label_overflows (h : t.Overflows) :
    (limitLine ⟨.label,labels,limits⟩ (t.labelLine ++ 0 :: rest)).result = none := by
  obtain ⟨pre,f,post,hall,hpre,hf,hlong⟩ := h
  have hdrop := @label_drop t rest
  rw [hall] at hdrop
  have hfields := (labelFields_first hdrop (fun g hg => allFields_isToken (t := t) (by rwa [hall])) hpre).2 hf hlong
  rw [limitLine_label, show 4 = (pre ++ f :: post).length by rw [← hall]; rfl, hfields]
  rfl

end Label

section Head
variable {t : LimitTable} {p : LimitParser} {labels : LimitLabels} {limits : TxPwrLimits}
  {mem rest : List UInt8} {i : ℕ}
  {cols : List (Blanks × TxPwrLmt)}

theorem limitLine_start : (limitLine ⟨.start,labels,limits⟩ (t.startLine ++ 0 :: rest)).result =
    some (.inr ⟨.columns,labels,limits⟩) := by
  have hsplit :
      t.startLine ++ 0 :: rest = ascii "##" ++
        (t.startLead.bytes ++ (ascii "START" ++ (t.startRest ++ 0 :: rest))) := by
    simp only [LimitTable.startLine, List.append_assoc]
  have hword : ∃ c s, ascii "START" = c :: s ∧ isBlank c = false := ⟨_,_,rfl,by decide⟩
  have hstarts := @result_eqNByte (t.startRest ++ 0 :: rest) t.startLead (ascii "START")
  rw [hsplit, limitLine_hash, stageLine, startLine, result_andThen, result_doubleHash, Option.bind_some,
    if_neg (by decide),
    result_andThen, result_lead_word hword, Option.bind_some, result_andThen, hstarts, Option.bind_some,
    if_neg (by decide)]
  rfl

theorem name_isText (reg : TxPwrLmt) : (∀ c ∈ reg.name, (!isBlank c && c != 0) = true) ∧ reg.name ≠ [] ∧
    reg.name.length ≤ TOKEN_LEN := by
  cases reg <;> decide +kernel

theorem name_head (reg : TxPwrLmt) : ∃ c s, reg.name = c :: s ∧ isBlank c = false := by
  cases reg <;> exact ⟨_,_,rfl,by decide⟩

theorem stops_columns (hcols : ∀ c ∈ cols, c.1.bytes ≠ []) (hstop : Stops rest) :
    Stops (cols.flatMap LimitTable.columnBytes ++ rest) := by
  cases cols with
  | nil => exact hstop
  | cons c cols =>
    obtain ⟨b,s,hb⟩ := List.exists_cons_of_ne_nil (hcols c List.mem_cons_self)
    refine ⟨b,s ++ (c.2.name ++ (cols.flatMap LimitTable.columnBytes ++ rest)),?_,.inl (c.1.blank b (by simp [hb]))⟩
    rw [List.flatMap_cons, LimitTable.columnBytes, hb]
    simp

theorem result_columnNames (h : mem.drop i = cols.flatMap LimitTable.columnBytes ++ rest) (hstop : Stops rest)
    (hcols : ∀ c ∈ cols.tail, c.1.bytes ≠ []) :
    (columnNames mem cols.length i).result = some (some (cols.map fun c => c.2.name)) := by
  induction cols generalizing i with
  | nil => rfl
  | cons col cols ih =>
    obtain ⟨hname,hne,hshort⟩ := name_isText col.2
    obtain ⟨c,s,hc,hblank⟩ := name_head col.2
    rw [List.flatMap_cons, LimitTable.columnBytes, List.append_assoc, List.append_assoc] at h
    have hdrop : mem.drop (i + col.1.bytes.length) = col.2.name ++ (cols.flatMap LimitTable.columnBytes ++ rest) := by
      rw [← List.drop_drop, h, List.drop_left]
    have hnext :
        mem.drop (i + col.1.bytes.length + col.2.name.length) = cols.flatMap LimitTable.columnBytes ++ rest := by
      rw [← List.drop_drop, hdrop, List.drop_left]
    have hbefore := @result_scanWhile _ (s ++ (cols.flatMap LimitTable.columnBytes ++ rest)) _ isBlank _ c
      (by rw [h, hc]; rfl) col.1.blank hblank
    obtain ⟨d,tail,htail,hd⟩ := @stops_columns _ cols hcols hstop
    have hstops : (!isBlank d && d != 0) = false := by
      rcases hd with hd | rfl
      · rw [hd]
        rfl
      · decide
    have hafter := result_scanWhile (p := fun c => !isBlank c && c != 0) (hdrop.trans (by rw [htail])) hname hstops
    have hpos := List.length_pos_iff.mpr hne
    rw [List.length_cons, columnNames, result_andThen, hbefore, Option.bind_some, result_andThen, hafter,
      Option.bind_some,
      Nat.add_sub_cancel_left, result_andThen, result_storeToken, if_pos hshort, Option.bind_some, if_neg (by omega),
      result_andThen, ih hnext fun u hu => hcols u (List.mem_of_mem_tail hu), Option.bind_some, slice_of_drop hdrop]
    rfl

theorem limitLine_columns {k : ℕ} :
    (limitLine ⟨.columns,t.parsed k [],limits⟩ (t.columnsLine ++ 0 :: rest)).result =
    some (.inr ⟨.rows,t.parsed t.columns.length (t.columns.map fun c => c.2.name),limits⟩) := by
  have hsplit : t.columnsLine ++ 0 :: rest = ascii "##" ++ (t.columnsLead.bytes ++ (chr '#' :: (t.colNum.bytes ++
      (chr '#' :: (t.columns.flatMap LimitTable.columnBytes ++ (t.columnsRest ++ 0 :: rest)))))) := by
    simp only [LimitTable.columnsLine, List.append_assoc, List.cons_append]
  have hdigit : ∀ a ∈ t.colNum.bytes, a ≠ chr '#' ∧ a ≠ 0 := fun a ha => (digit_char (t.colNum.digits a ha)).2
  have hparse := result_parseQualified (drop_lead (b := t.columnsLead) (s := chr '#' :: (t.colNum.bytes ++
    (chr '#' :: (t.columns.flatMap LimitTable.columnBytes ++ (t.columnsRest ++ 0 :: rest))))))
    (fun a ha => (hdigit a ha).1) (fun a ha => (hdigit a ha).2)
  rw [if_pos (Nat.le_of_lt t.colNum.short)] at hparse
  have hnum : (getU1ByteInteger t.colNum.bytes).result = some (some (UInt8.ofNat t.columns.length)) := by
    rw [← t.colNumIs]
    exact result_getU1 t.colNum.digits
  have hfew := t.fewColumns
  have hmax : TXPWR_LMT_MAX_REGULATION_NUM = 4 := rfl
  have hnat : (UInt8.ofNat t.columns.length).toNat = t.columns.length := by
    rw [UInt8.toNat_ofNat']
    omega
  have hdrop : (t.columnsLine ++ 0 :: rest).drop (2 + t.columnsLead.bytes.length + t.colNum.bytes.length + 2) =
      t.columns.flatMap LimitTable.columnBytes ++ (t.columnsRest ++ 0 :: rest) := by
    have hlen : (chr '#' :: (t.colNum.bytes ++ [chr '#'])).length = t.colNum.bytes.length + 2 := by simp
    have hcons :
        chr '#' :: (t.colNum.bytes ++ chr '#' ::
        (t.columns.flatMap LimitTable.columnBytes ++ (t.columnsRest ++ 0 :: rest))) =
        (chr '#' :: (t.colNum.bytes ++ [chr '#'])) ++
          (t.columns.flatMap LimitTable.columnBytes ++ (t.columnsRest ++ 0 :: rest)) := by
      simp
    rw [hsplit, Nat.add_assoc, ← List.drop_drop, drop_lead, hcons, ← hlen, List.drop_left]
  have hnames := result_columnNames hdrop (stops_of_isRest t.columnsRestText) t.separated
  rw [hsplit] at hnames ⊢
  rw [limitLine_hash, stageLine, columnsLine, result_andThen, result_doubleHash, Option.bind_some, if_neg (by decide),
    result_andThen, result_lead (by decide), Option.bind_some, result_andThen, hparse, Option.bind_some]
  dsimp only
  rw [result_andThen, hnum, Option.bind_some]
  dsimp only
  rw [hnat, if_neg (by omega), result_andThen, hnames, Option.bind_some]
  rfl

theorem limitLine_end : (limitLine ⟨.rows,labels,limits⟩ (t.endLine ++ 0 :: rest)).result =
    some (.inr ⟨.label,labels,limits⟩) := by
  have hsplit :
      t.endLine ++ 0 :: rest = ascii "##" ++ (t.endLead.bytes ++ (ascii "END" ++ (t.endRest ++ 0 :: rest))) := by
    simp only [LimitTable.endLine, List.append_assoc]
  have hword : ∃ c s, ascii "END" = c :: s ∧ isBlank c = false := ⟨_,_,rfl,by decide⟩
  have hends := @result_eqNByte (t.endRest ++ 0 :: rest) t.endLead (ascii "END")
  rw [hsplit, limitLine_hash, stageLine, rowLine, result_andThen, result_doubleHash, Option.bind_some, if_pos rfl,
    result_andThen, result_lead_word hword, Option.bind_some, result_andThen, hends, Option.bind_some, if_pos rfl]
  rfl

end Head

section Rows
variable {t : LimitTable} {r : LimitRow} {labels : LimitLabels} {limits : TxPwrLimits} {rest : List UInt8} {k : ℕ}

def LimitTable.storeRow (t : LimitTable) (limits : TxPwrLimits) (r : LimitRow) : TxPwrLimits :=
  if r.indent.bytes = [] then (t.columns.zip r.cells).foldl (t.store r.channel.value) limits else limits

theorem isRow_head (r : LimitRow) : isBlank r.c = false ∧ r.c ≠ 0 ∧ r.c ≠ chr '/' ∧ r.c ≠ chr '#' ∧
    isDigit r.h = false := by
  obtain hc | hc := r.isC <;> obtain hh | hh := r.isH <;> rw [hc, hh] <;> decide

theorem limitLine_row_indented (h : r.indent.bytes ≠ []) :
    (limitLine ⟨.rows,labels,limits⟩ (r.line ++ 0 :: rest)).result = some (.inr ⟨.rows,labels,limits⟩) := by
  obtain ⟨b,s,hb⟩ := List.exists_cons_of_ne_nil h
  have hblank : isBlank b = true := r.indent.blank b (by simp [hb])
  apply limitLine_skipped
  rw [LimitRow.line, hb]
  exact result_skipsLine_blank rfl (.inl hblank)

theorem limitLine_row (hr : r ∈ t.rows) (hspace : ∀ f ∈ t.fields, f.SpaceFirst) (h : r.indent.bytes = []) :
    (limitLine ⟨.rows,t.parsed t.columns.length (t.columns.map fun c => c.2.name),limits⟩
      (r.line ++ 0 :: rest)).result =
      some (.inr ⟨.rows,t.parsed t.columns.length (t.columns.map fun c => c.2.name),
        (t.columns.zip r.cells).foldl (t.store r.channel.value) limits⟩) := by
  obtain ⟨hblank,hzero,hslash,hhash,hh⟩ := isRow_head r
  have hsplit :
      r.line ++ 0 :: rest = r.c :: r.h ::
      (r.channel.bytes ++ (r.cells.flatMap LimitCell.bytes ++ (r.rest ++ 0 :: rest))) := by
    rw [LimitRow.line, h, LimitRow.body]
    simp
  have hstop := @stops_of_isRest rest _ r.isRest
  obtain ⟨d,tail,htail,hd,-⟩ := stops_char (@stops_cells _ r.cells hstop)
  have hdrop :
      (r.line ++ 0 :: rest).drop 2 = r.channel.bytes ++ (r.cells.flatMap LimitCell.bytes ++ (r.rest ++ 0 :: rest)) := by
    rw [hsplit]
    rfl
  have hdrop' : (r.line ++ 0 :: rest).drop (2 + r.channel.bytes.length) = r.cells.flatMap LimitCell.bytes ++
      (r.rest ++ 0 :: rest) := by
    rw [← List.drop_drop, hdrop, List.drop_left]
  have hscan := result_scanWhile (p := isDigit) (hdrop.trans (by rw [htail])) r.channel.digits hd
  have hcolumns := @result_limitColumns _ _ limits _ _ _ t.columns.length _ _ _ _ hdrop' hstop hspace r.channelOk
    (t.rowsFull r hr) (List.drop_zero (l := t.columns))
  have hskip : (skipsLine (r.line ++ 0 :: rest)).result = some false := result_skipsLine hsplit hblank hzero hslash
  have hat : byteAt (r.line ++ 0 :: rest) 0 = r.c := byteAt_of_drop (by rw [hsplit, List.drop_zero])
  have hat' : byteAt (r.line ++ 0 :: rest) 1 = r.h := byteAt_of_drop (by rw [hsplit]; rfl)
  have hdouble : (doubleHash (r.line ++ 0 :: rest)).result = some false := by
    rw [doubleHash, result_andThen, readAt, Option.bind_some, hat, if_neg hhash]
    rfl
  have hisRow : (isChannel (r.line ++ 0 :: rest)).result = some true := by
    rw [isChannel, result_andThen, readAt, Option.bind_some, hat, if_pos r.isC, result_andThen, readAt,
      Option.bind_some, hat', result_ret]
    rcases r.isH with hh | hh <;> rw [hh] <;> rfl
  rw [limitLine, result_andThen, hskip, Option.bind_some, if_neg (by decide), stageLine]
  dsimp only
  rw [rowLine, result_andThen, hdouble, Option.bind_some, if_neg (by decide), result_andThen, hisRow, Option.bind_some,
    if_neg (by decide), result_andThen, hscan, Option.bind_some, Nat.add_sub_cancel_left, result_andThen,
    result_storeToken,
    if_pos (Nat.le_of_lt r.channel.short), Option.bind_some, slice_of_drop hdrop, result_andThen, List.range_eq_range']
  rw [show (t.parsed t.columns.length (t.columns.map fun c => c.2.name)).colNum = t.columns.length from rfl, hcolumns]
  rfl

theorem linesTo_rows {rows : List LimitRow} (hrows : ∀ r ∈ rows, r ∈ t.rows)
    (hspace : ∀ f ∈ t.fields, f.SpaceFirst) :
    LinesTo limitLine ⟨.rows,t.parsed t.columns.length (t.columns.map fun c => c.2.name),limits⟩
    (rows.map LimitRow.line)
      (some (.inr ⟨.rows,t.parsed t.columns.length (t.columns.map fun c => c.2.name),rows.foldl t.storeRow
      limits⟩)) := by
  induction rows generalizing limits with
  | nil => exact .done _
  | cons r rows ih =>
    have hnext := @ih (t.storeRow limits r) fun u hu => hrows u (List.mem_cons_of_mem _ hu)
    refine .next (fun rest => ?_) hnext
    rw [LimitTable.storeRow]
    split
    · rename_i hindent
      exact limitLine_row (hrows r List.mem_cons_self) hspace hindent
    · rename_i hindent
      exact limitLine_row_indented hindent

def LimitTable.storeAll (limits : TxPwrLimits) (t : LimitTable) : TxPwrLimits := t.rows.foldl t.storeRow limits

theorem fields_spaceFirst (h : t.Reads) : ∀ f ∈ t.fields, f.SpaceFirst :=
  fun f hf => (h f (List.mem_cons_of_mem _ hf)).1

theorem linesTo_table (h : t.Reads) : ∃ labels', LinesTo limitLine ⟨.label,labels,limits⟩ t.lines
    (some (.inr ⟨.label,labels',t.storeAll limits⟩)) := by
  refine ⟨t.parsed t.columns.length (t.columns.map fun c => c.2.name),?_⟩
  refine .next (fun _ => limitLine_label_reads h)
    (.next (fun _ => limitLine_start) (.next (fun _ => limitLine_columns) ?_))
  refine (linesTo_rows (fun _ hr => hr) (fields_spaceFirst h)).append (.next (fun _ => limitLine_end) (.done _))

theorem linesTo_table_refused (h : t.Refused) :
    LinesTo limitLine ⟨.label,labels,limits⟩ t.lines ((some (false,limits)).map .inl) :=
  .out _ fun _ => limitLine_label_refused h

theorem linesTo_table_overflows (h : t.Overflows) :
    LinesTo limitLine ⟨.label,labels,limits⟩ t.lines (Option.map .inl none) :=
  .out _ fun _ => limitLine_label_overflows h

end Rows

end Rtl8188fu
