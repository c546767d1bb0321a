import Rtl8188fu.Hal.PowerLimitLines

/-! # When a text of power limits is loaded exactly

An entry of path A only goes down while a file is loaded. So it is described by what is below it: below the entry as
it was, and below every limit that has been stored at its place.
-/
namespace Rtl8188fu
open Bytes Logged

/-- A place of the table, and what is stored there -/
abbrev StoredLimit := (ℕ × ℕ × ℕ × ℕ) × Int8

/-- From `limits` to `limits'` exactly the limits `stored` have gone into path A of the 2.4 GHz table. -/
structure Lowered (limits limits' : TxPwrLimits) (stored : List StoredLimit) : Prop where
  same5G : limits'.limit5G = limits.limit5G
  otherPaths : ∀ cell path, path ≠ 0 → limits'.limit24G cell path = limits.limit24G cell path
  entry : ∀ cell (x : ℤ), x ≤ (limits'.limit24G cell 0).toInt ↔
    x ≤ (limits.limit24G cell 0).toInt ∧ ∀ s ∈ stored, s.1 = cell → x ≤ s.2.toInt

section Lowered
variable {α : Type} {limits limits' limits'' : TxPwrLimits} {stored stored' : List StoredLimit}
  {store : TxPwrLimits → α → TxPwrLimits}
  {of : α → List StoredLimit}

theorem Lowered.refl : Lowered limits limits [] := ⟨rfl,fun _ _ _ => rfl,by simp⟩

theorem Lowered.trans (h : Lowered limits limits' stored) (h' : Lowered limits' limits'' stored') :
    Lowered limits limits'' (stored ++ stored') where
  same5G := h'.same5G.trans h.same5G
  otherPaths cell path hpath := (h'.otherPaths cell path hpath).trans (h.otherPaths cell path hpath)
  entry cell x := by
    rw [h'.entry, h.entry, List.forall_mem_append, and_assoc]

theorem lowered_foldl (h : ∀ limits a, Lowered limits (store limits a) (of a)) (l : List α) (limits : TxPwrLimits) :
    Lowered limits (l.foldl store limits) (l.flatMap of) := by
  induction l generalizing limits with
  | nil => exact .refl
  | cons a l ih => exact (h limits a).trans (ih (store limits a))

theorem lowered_lowerLimit (cell : ℕ × ℕ × ℕ × ℕ) (v : Int8) :
    Lowered limits { limits with limit24G := lowerLimit limits.limit24G cell v } [(cell,v)] where
  same5G := rfl
  otherPaths cell' path hpath := by
    dsimp only
    rw [lowerLimit]
    split
    · by_cases hcell : cell' = cell
      · rw [hcell, Function.update_self, Function.update_of_ne hpath]
      · rw [Function.update_of_ne hcell]
    · rfl
  entry cell' x := by
    dsimp only
    rw [lowerLimit, List.forall_mem_singleton]
    split
    · rename_i hlt
      have hlt := Int8.lt_iff_toInt_lt.mp hlt
      by_cases hcell : cell' = cell
      · subst hcell
        rw [Function.update_self, Function.update_self]
        exact ⟨fun h => ⟨by omega,fun _ => h⟩,fun h => h.2 rfl⟩
      · rw [Function.update_of_ne hcell]
        exact ⟨fun h => ⟨h,fun hc => absurd hc.symm hcell⟩,fun h => h.1⟩
    · rename_i hle
      have hle : (limits.limit24G cell 0).toInt ≤ v.toInt := Int.not_lt.mp fun h => hle (Int8.lt_iff_toInt_lt.mpr h)
      exact ⟨fun h => ⟨h,fun hcell => le_trans h (hcell ▸ hle)⟩,fun h => h.1⟩

end Lowered

namespace LimitTable
variable (t : LimitTable)

def storedIn (r : LimitRow) : List StoredLimit :=
  if r.indent.bytes = [] ∧ t.Plain then
    (t.columns.zip r.cells).map fun c => (t.cellOf c.1.2 r.channel.value,c.2.mark.limit)
  else []

def stored : List StoredLimit := t.rows.flatMap t.storedIn

/-- The limits of the table that are not passed over -/
def kept : List GivenLimit := (t.rows.filter fun r => r.indent.bytes = [] ∧ t.Plain).flatMap t.givenIn

theorem lowered_storeRow (limits : TxPwrLimits) (r : LimitRow) : Lowered limits (t.storeRow limits r)
    (t.storedIn r) := by
  rw [storeRow, storedIn]
  by_cases hindent : r.indent.bytes = []
  · by_cases hplain : t.Plain
    · rw [if_pos hindent, if_pos ⟨hindent,hplain⟩, List.map_eq_flatMap]
      refine lowered_foldl (fun limits c => ?_) _ limits
      rw [store, if_pos hplain]
      exact lowered_lowerLimit _ _
    · rw [if_pos hindent, if_neg fun h => hplain h.2]
      have hsame := @lowered_foldl _ (t.store r.channel.value) (fun _ => [])
        (fun limits c => by rw [store, if_neg hplain]; exact .refl) (t.columns.zip r.cells) limits
      rwa [List.flatMap_eq_nil_iff.mpr fun _ _ => rfl] at hsame
  · rw [if_neg hindent, if_neg fun h => hindent h.1]
    exact .refl

theorem lowered_storeAll (limits : TxPwrLimits) : Lowered limits (t.storeAll limits) t.stored :=
  lowered_foldl t.lowered_storeRow t.rows limits

end LimitTable

namespace LimitFile
variable (f : LimitFile)

def stored : List StoredLimit := f.tables.flatMap LimitTable.stored

def kept : List GivenLimit := f.tables.flatMap LimitTable.kept

/-- The entry of path A that the text asks for -/
def exactEntry (cell : ℕ × ℕ × ℕ × ℕ) : ℤ :=
  ((f.given.filter fun g => g.cell = cell).map fun g => (g.value : ℤ)).foldl min MAX_POWER_INDEX.toInt

/-- The parser keeps inside its arrays, and when it succeeds the entries of path A are those that the text asks for and
all others are as they were. -/
def LoadsExactly : Prop :=
  ∃ r, (phyParsePowerLimitTableFile phyInitTxPowerLimit f.buffer).result = some r ∧
    (r.1 = true → (∀ cell, (r.2.limit24G cell 0).toInt = f.exactEntry cell) ∧
      (∀ cell path, path ≠ 0 → r.2.limit24G cell path = MAX_POWER_INDEX) ∧
      ∀ cell path, r.2.limit5G cell path = MAX_POWER_INDEX)

end LimitFile

section Entries
variable {f : LimitFile} {t : LimitTable} {r : LimitRow} {s : StoredLimit} {g : GivenLimit}
  {cell : ℕ × ℕ × ℕ × ℕ} {x : ℤ}

theorem le_foldl_min {l : List ℤ} {a : ℤ} : x ≤ l.foldl min a ↔ x ≤ a ∧ ∀ y ∈ l, x ≤ y := by
  induction l generalizing a with
  | nil => simp
  | cons b l ih => rw [List.foldl_cons, ih, le_min_iff, List.forall_mem_cons, and_assoc]

theorem le_exactEntry : x ≤ f.exactEntry cell ↔ x ≤ 63 ∧ ∀ g ∈ f.given, g.cell = cell →
    x ≤ g.value := by
  rw [LimitFile.exactEntry, le_foldl_min, List.forall_mem_map]
  simp only [List.mem_filter, decide_eq_true_eq, and_imp]
  rfl

/-- A limit below 64 dBm is stored as it is, up to the largest index; from there on the sign changes. -/
theorem clampLimit_ofNat {v : ℕ} (hv : v < 256) :
    (clampLimit (UInt8.ofNat v)).toInt = if v < 128 then min 63 (v : ℤ) else v - 256 := by
  have h : ∀ n : Fin 256, (clampLimit (UInt8.ofNat n)).toInt = if n.1 < 128 then min 63 (n.1 : ℤ)
      else n.1 - 256 := by
    decide +kernel
  exact h ⟨v,hv⟩

theorem mark_value {m : LimitMark} {v : ℕ} (h : m.value = some v) :
    v < 256 ∧ m.limit = clampLimit (UInt8.ofNat v) := by
  refine ⟨?_,by rw [LimitMark.limit, h]⟩
  cases m with
  | na => cases h
  | dbm n half hn =>
    have hv : 2 * n.value + (if half = some true then 1 else 0) = v := Option.some.inj h
    split at hv <;> omega

theorem mem_givenIn : g ∈ t.givenIn r ↔ ∃ c ∈ t.columns.zip r.cells, ∃ v, c.2.mark.value = some v ∧
    g = ⟨t.cellOf c.1.2 r.channel.value,v⟩ := by
  simp only [LimitTable.givenIn, List.mem_filterMap, Option.map_eq_some_iff, LimitTable.cellOf]
  refine exists_congr fun c => and_congr_right fun _ => exists_congr fun v => and_congr_right fun _ => eq_comm

theorem mem_given : g ∈ f.given ↔ ∃ t ∈ f.tables, ∃ r ∈ t.rows, g ∈ t.givenIn r := by
  simp only [LimitFile.given, LimitTable.given, List.mem_flatMap]

theorem mem_kept : g ∈ f.kept ↔ ∃ t ∈ f.tables, ∃ r ∈ t.rows, (r.indent.bytes = [] ∧ t.Plain) ∧
    g ∈ t.givenIn r := by
  simp only [LimitFile.kept, LimitTable.kept, List.mem_flatMap, List.mem_filter, decide_eq_true_eq, and_assoc]

theorem mem_stored : s ∈ f.stored ↔ ∃ t ∈ f.tables, ∃ r ∈ t.rows, (r.indent.bytes = [] ∧ t.Plain) ∧
    ∃ c ∈ t.columns.zip r.cells, (t.cellOf c.1.2 r.channel.value,c.2.mark.limit) = s := by
  simp only [LimitFile.stored, LimitTable.stored, List.mem_flatMap, LimitTable.storedIn]
  refine exists_congr fun t => and_congr_right fun _ => exists_congr fun r => and_congr_right fun _ => ?_
  split
  · rename_i hkept
    rw [List.mem_map, and_iff_right hkept]
  · rename_i hkept
    simp only [List.not_mem_nil, false_iff, not_and]
    exact fun h => absurd h hkept

theorem given_of_kept (h : g ∈ f.kept) : g ∈ f.given := by
  obtain ⟨t,ht,r,hr,-,hg⟩ := mem_kept.mp h
  exact mem_given.mpr ⟨t,ht,r,hr,hg⟩

theorem given_lt (h : g ∈ f.given) : g.value < 256 := by
  obtain ⟨t,-,r,-,hg⟩ := mem_given.mp h
  obtain ⟨c,-,v,hv,rfl⟩ := mem_givenIn.mp hg
  exact (mark_value hv).1

theorem stored_of_kept (h : g ∈ f.kept) : (g.cell,clampLimit (UInt8.ofNat g.value)) ∈ f.stored := by
  obtain ⟨t,ht,r,hr,hkept,hg⟩ := mem_kept.mp h
  obtain ⟨c,hc,v,hv,rfl⟩ := mem_givenIn.mp hg
  exact mem_stored.mpr ⟨t,ht,r,hr,hkept,c,hc,by rw [(mark_value hv).2]⟩

/-- What is stored is the largest index or a limit that is kept. -/
theorem kept_of_stored (h : s ∈ f.stored) :
    s.2 = MAX_POWER_INDEX ∨ ∃ g ∈ f.kept, g.cell = s.1 ∧ s.2 = clampLimit (UInt8.ofNat g.value) := by
  obtain ⟨t,ht,r,hr,hkept,c,hc,rfl⟩ := mem_stored.mp h
  cases hv : c.2.mark.value with
  | none => exact .inl (by rw [LimitMark.limit, hv])
  | some v =>
    exact .inr ⟨⟨t.cellOf c.1.2 r.channel.value,v⟩,mem_kept.mpr
      ⟨t,ht,r,hr,hkept,mem_givenIn.mpr ⟨c,hc,v,hv,rfl⟩⟩,rfl, (mark_value hv).2⟩

/-- The limits that are kept are below 64 dBm, and no limit that is passed over was lower than they are. -/
structure LimitFile.KeptSuffice (f : LimitFile) : Prop where
  low : ∀ g ∈ f.kept, g.value < 128
  matched : ∀ g ∈ f.given, g.value < 63 → ∃ k ∈ f.kept, k.cell = g.cell ∧ k.value ≤ g.value

/-- The entries are those that the text asks for exactly when the limits that are kept suffice. -/
theorem entries_iff {limits : TxPwrLimits} (h : Lowered phyInitTxPowerLimit limits f.stored) :
    (∀ cell, (limits.limit24G cell 0).toInt = f.exactEntry cell) ↔ f.KeptSuffice := by
  have hmax : MAX_POWER_INDEX.toInt = 63 := rfl
  have hentry : ∀ cell (x : ℤ), x ≤ (limits.limit24G cell 0).toInt ↔
      x ≤ 63 ∧ ∀ s ∈ f.stored, s.1 = cell → x ≤ s.2.toInt := h.entry
  constructor
  · intro hexact
    -- an entry that the text asks for is never negative
    have hlow : ∀ g ∈ f.kept, g.value < 128 := by
      intro g hg
      by_contra hhigh
      have hlt := given_lt (given_of_kept hg)
      have hbelow := ((hentry g.cell _).mp (le_refl _)).2 _ (stored_of_kept hg) rfl
      have habove : 0 ≤ f.exactEntry g.cell := le_exactEntry.mpr ⟨by decide,fun _ _ _ => Int.natCast_nonneg _⟩
      have hclamp := clampLimit_ofNat hlt
      rw [if_neg hhigh] at hclamp
      rw [hexact] at hbelow
      dsimp only at hbelow
      omega
    refine ⟨hlow,fun g hg hsmall => ?_⟩
    have hbelow : ¬((g.value : ℤ) + 1 ≤ (limits.limit24G g.cell 0).toInt) := by
      rw [hexact, le_exactEntry]
      intro hle
      have := hle.2 g hg rfl
      omega
    rw [hentry, not_and] at hbelow
    have hlower := hbelow (by omega)
    push Not at hlower
    obtain ⟨s,hs,hcell,hlt⟩ := hlower
    rcases kept_of_stored hs with hs | ⟨k,hk,hkcell,hs⟩
    · rw [hs, hmax] at hlt
      omega
    · have hclamp := clampLimit_ofNat (given_lt (given_of_kept hk))
      rw [if_pos (hlow k hk)] at hclamp
      rw [hs] at hlt
      exact ⟨k,hk,hkcell.trans hcell,by omega⟩
  · intro hsuffice cell
    apply le_antisymm
    · refine le_exactEntry.mpr ⟨((hentry cell _).mp (le_refl _)).1,fun g hg hcell => ?_⟩
      have hmost := (hentry cell _).mp (le_refl _)
      by_cases hlow : g.value < 63
      · obtain ⟨k,hk,hkcell,hle⟩ := hsuffice.matched g hg hlow
        have hbelow := hmost.2 _ (stored_of_kept hk) (hkcell.trans hcell)
        have hclamp := clampLimit_ofNat (given_lt (given_of_kept hk))
        rw [if_pos (hsuffice.low k hk)] at hclamp
        dsimp only at hbelow
        omega
      · have := hmost.1
        omega
    · rw [hentry]
      have hmost := le_exactEntry.mp (le_refl (f.exactEntry cell))
      refine ⟨hmost.1,fun s hs hcell => ?_⟩
      rcases kept_of_stored hs with hs | ⟨k,hk,hkcell,hs⟩
      · rw [hs, hmax]
        exact hmost.1
      · have hclamp := clampLimit_ofNat (given_lt (given_of_kept hk))
        rw [if_pos (hsuffice.low k hk)] at hclamp
        rw [hs, hclamp]
        exact le_min hmost.1 (hmost.2 k (given_of_kept hk) (hkcell.trans hcell))

end Entries

section Files
variable {f : LimitFile} {t : LimitTable} {ts : List LimitTable} {labels : LimitLabels} {limits : TxPwrLimits}
  {r : Option (LimitResult ⊕ LimitParser)}

theorem exists_first_not {α : Type} (p : α → Prop) (l : List α) :
    (∀ x ∈ l, p x) ∨ ∃ pre x post, l = pre ++ x :: post ∧ (∀ y ∈ pre, p y) ∧ ¬p x := by
  induction l with
  | nil => exact .inl (List.forall_mem_nil p)
  | cons a l ih =>
    by_cases ha : p a
    · rcases ih with h | ⟨pre,x,post,rfl,hpre,hx⟩
      · exact .inl (List.forall_mem_cons.mpr ⟨ha,h⟩)
      · exact .inr ⟨a :: pre,x,post,rfl,List.forall_mem_cons.mpr ⟨ha,hpre⟩,hx⟩
    · exact .inr ⟨[],a,l,rfl,List.forall_mem_nil p,ha⟩

/-- What becomes of a table is decided by the first label that is not read. -/
theorem reads_or_not (t : LimitTable) : t.Reads ∨ t.Refused ∨ t.Overflows := by
  rcases exists_first_not (fun f : LabelField => f.SpaceFirst ∧
    f.Short) t.allFields with h | ⟨pre,f,post,hall,hpre,hf⟩
  · exact .inl h
  · by_cases hspace : f.SpaceFirst
    · exact .inr (.inr ⟨pre,f,post,hall,hpre,hspace,fun hshort => hf ⟨hspace,hshort⟩⟩)
    · exact .inr (.inl ⟨pre,f,post,hall,hpre,hspace⟩)

theorem linesTo_tables (h : ∀ t ∈ ts, t.Reads) :
    ∃ labels', LinesTo limitLine ⟨.label,labels,limits⟩ (ts.flatMap LimitTable.lines)
    (some (.inr ⟨.label,labels',ts.foldl (fun limits t => t.storeAll limits) limits⟩)) := by
  induction ts generalizing labels limits with
  | nil => exact ⟨labels,.done _⟩
  | cons t ts ih =>
    obtain ⟨labels',htable⟩ := @linesTo_table _ labels limits (h t List.mem_cons_self)
    obtain ⟨labels'',hrest⟩ := @ih labels' (t.storeAll limits) fun u hu => h u (List.mem_cons_of_mem _ hu)
    exact ⟨labels'',htable.append hrest⟩

/-- The lines of the tables decide what becomes of the file. -/
theorem result_file (h : LinesTo limitLine ⟨.label,.init,limits⟩ (f.tables.flatMap LimitTable.lines) r) :
    (phyParsePowerLimitTableFile limits f.buffer).result = r.map (Sum.elim id fun p => (true,p.limits)) := by
  rw [← f.ofTables] at h
  have hlines :=
    LinesTo.of_filter (fun l _ hl s rest => limitLine_skipped (result_skipsLine_filler (by simpa using hl))) h
  have hshort := f.short
  have hzeros : f.buffer = f.lines.flatMap (fun l => l.1 ++ [l.2]) ++ f.last ++
      0 :: List.replicate (MAX_PARA_FILE_BUF_LEN - f.content.length - 1) 0 := by
    rw [LimitFile.buffer, LimitFile.content, ← List.replicate_succ, Nat.sub_add_cancel (Nat.sub_pos_of_lt hshort)]
  have hmany : f.lines.length ≤ (f.lines.flatMap fun l => l.1 ++ [l.2]).length := by
    rw [List.length_flatMap, ← List.length_map fun l : List UInt8 × UInt8 => (l.1 ++ [l.2]).length]
    apply List.length_le_sum_of_one_le
    rw [List.forall_mem_map]
    intro l _
    rw [List.length_append]
    exact Nat.le_add_left _ _
  have hfuel : f.lines.length < f.buffer.length + 1 := by
    rw [hzeros, List.append_assoc, List.length_append]
    omega
  rw [phyParsePowerLimitTableFile, hzeros] at *
  exact result_overLines f.isText f.isEnd hfuel hlines

theorem result_file_reads (h : ∀ t ∈ f.tables, t.Reads) : (phyParsePowerLimitTableFile limits f.buffer).result =
    some (true,f.tables.foldl (fun limits t => t.storeAll limits) limits) := by
  obtain ⟨labels,hlines⟩ := @linesTo_tables _ .init limits h
  exact result_file hlines

/-- Some table in front is refused, behind tables that are read. -/
def LimitFile.Refused (f : LimitFile) : Prop :=
  ∃ pre t post, f.tables = pre ++ t :: post ∧ (∀ u ∈ pre, u.Reads) ∧ t.Refused

theorem result_file_refused (h : f.Refused) :
    ∃ limits', (phyParsePowerLimitTableFile limits f.buffer).result = some (false,limits') := by
  obtain ⟨pre,t,post,htables,hpre,ht⟩ := h
  obtain ⟨labels,hlines⟩ := @linesTo_tables _ .init limits hpre
  have hall := hlines.append ((linesTo_table_refused ht).append_out (post.flatMap LimitTable.lines))
  rw [← List.flatMap_cons, ← List.flatMap_append, ← htables] at hall
  exact ⟨_,result_file hall⟩

theorem result_file_overflows {pre post : List LimitTable} (htables : f.tables = pre ++ t :: post)
    (hpre : ∀ u ∈ pre, u.Reads)
    (ht : t.Overflows) : (phyParsePowerLimitTableFile limits f.buffer).result = none := by
  obtain ⟨labels,hlines⟩ := @linesTo_tables _ .init limits hpre
  have hall := hlines.append ((linesTo_table_overflows ht).append_out (post.flatMap LimitTable.lines))
  rw [← List.flatMap_cons, ← List.flatMap_append, ← htables] at hall
  exact result_file hall

theorem loadsExactly_of_reads (h : ∀ t ∈ f.tables, t.Reads) : f.LoadsExactly ↔ f.KeptSuffice := by
  have hresult := @result_file_reads _ phyInitTxPowerLimit h
  have hlowered :
      Lowered phyInitTxPowerLimit (f.tables.foldl (fun limits t => t.storeAll limits) phyInitTxPowerLimit) f.stored :=
    lowered_foldl (fun limits t => t.lowered_storeAll limits) f.tables phyInitTxPowerLimit
  rw [← entries_iff hlowered]
  constructor
  · rintro ⟨r,hr,hexact⟩
    rw [hresult] at hr
    cases hr
    exact (hexact rfl).1
  · exact fun hexact => ⟨_,hresult,fun _ =>
      ⟨hexact,hlowered.otherPaths,fun cell path => by rw [hlowered.same5G]; rfl⟩⟩

/-- A text of power limits is loaded exactly when it is refused, or when all its labels are read, no limit that is kept
is 64 dBm or more, and every low limit that is passed over is kept elsewhere. -/
theorem power_limits_loaded_iff (f : LimitFile) :
    f.LoadsExactly ↔ f.Refused ∨ (∀ t ∈ f.tables, t.Reads) ∧ f.KeptSuffice := by
  constructor
  · intro hloads
    rcases exists_first_not LimitTable.Reads f.tables with hreads | ⟨pre,t,post,htables,hpre,ht⟩
    · exact .inr ⟨hreads,(loadsExactly_of_reads hreads).mp hloads⟩
    · rcases (reads_or_not t).resolve_left ht with hrefused | hlong
      · exact .inl ⟨pre,t,post,htables,hpre,hrefused⟩
      · obtain ⟨r,hr,-⟩ := hloads
        rw [result_file_overflows htables hpre hlong] at hr
        cases hr
  · rintro (hrefused | ⟨hreads,hsuffice⟩)
    · obtain ⟨limits,hresult⟩ := @result_file_refused _ phyInitTxPowerLimit hrefused
      exact ⟨_,hresult,fun h => by cases h⟩
    · exact (loadsExactly_of_reads hreads).mpr hsuffice

end Files

def noBlanks : Blanks := ⟨[],List.forall_mem_nil _⟩

def numeralOne : Numeral := ⟨ascii "1",by decide +kernel,by decide +kernel,by decide +kernel⟩

/-- 64 dBm for the first channel -/
def limit64 : LimitCell :=
  ⟨.space,by decide,.dbm ⟨ascii "64",by decide +kernel,by decide +kernel,by decide +kernel⟩ none
  (by decide +kernel)⟩

def limit64Table : LimitTable where
  lead := noBlanks
  bandAfter := noBlanks
  bandwidth := .w20
  bandwidthBefore := .space
  bandwidthAfter := noBlanks
  pathBefore := .space
  pathAfter := noBlanks
  rateSection := .cck
  sectionBefore := .space
  sectionAfter := noBlanks
  labelRest := []
  startLead := noBlanks
  startRest := []
  columnsLead := noBlanks
  colNum := numeralOne
  columns := [(.space,.fcc)]
  columnsRest := []
  rows :=
    [⟨noBlanks,chr 'C',chr 'H',numeralOne,[limit64],[],.inr rfl,.inr rfl,by decide,⟨by simp [IsText],by simp⟩⟩]
  endLead := noBlanks
  endRest := []
  labelRestText := by simp [IsText]
  startRestText := by simp [IsText]
  columnsRestText := ⟨by simp [IsText],by simp⟩
  endRestText := by simp [IsText]
  colNumIs := by decide
  fewColumns := by decide
  separated := by simp
  rowsFull := by simp

def limit64File : LimitFile where
  tables := [limit64Table]
  lines := limit64Table.lines.map fun l => (l,10)
  last := []
  isText := by
    unfold IsText
    decide +kernel
  isEnd := by decide +kernel
  ofTables := by decide +kernel
  short := by decide +kernel

/-- The text is taken, and the entry becomes -128 where 63 is the least of its limits. -/
theorem limit_64_stored_negative : ∃ limits,
    (phyParsePowerLimitTableFile phyInitTxPowerLimit limit64File.buffer).result = some (true,limits) ∧
      (limits.limit24G (0,0,0,0) 0).toInt = -128 ∧ limit64File.exactEntry (0,0,0,0) = 63 ∧
      ¬limit64File.LoadsExactly := by
  have hreads : ∀ t ∈ limit64File.tables, t.Reads := by
    rw [show limit64File.tables = [limit64Table] from rfl, List.forall_mem_singleton]
    unfold LimitTable.Reads LabelField.SpaceFirst
    decide +kernel
  have hresult := @result_file_reads _ phyInitTxPowerLimit hreads
  have hstored :
      ((limit64File.tables.foldl (fun limits t => t.storeAll limits) phyInitTxPowerLimit).limit24G (0,0,0,0) 0).toInt =
      -128 := by decide +kernel
  have hexact : limit64File.exactEntry (0,0,0,0) = 63 := by decide +kernel
  refine ⟨_,hresult,hstored,hexact,?_⟩
  rintro ⟨r,hr,h⟩
  rw [hresult] at hr
  cases hr
  have hsame := (h rfl).1 (0,0,0,0)
  rw [hstored, hexact] at hsame
  cases hsame

end Rtl8188fu
