import Rtl8188fu.Efuse.EfuseWrite

/-! # A packet behind the others

What the reader makes of an efuse that has got one more packet.
-/
namespace Rtl8188fu

def wordRank (wordEn : UInt8) (i : ℕ) : ℕ := (List.range i).countP (wordEnabled wordEn)

theorem wordRank_succ (wordEn : UInt8) (i : ℕ) :
    wordRank wordEn (i + 1) = wordRank wordEn i + if wordEnabled wordEn i then 1 else 0 := by
  rw [wordRank, List.range_succ, List.countP_append, List.countP_singleton, wordRank]

theorem wordRank_mono (wordEn : UInt8) {i j : ℕ} (h : i ≤ j) : wordRank wordEn i ≤ wordRank wordEn j :=
  (List.range_sublist.mpr h).countP_le

/-- An enabled word has its own two bytes before those of the next. -/
theorem wordRank_lt {wordEn : UInt8} {i j : ℕ} (h : i < j) (hi : wordEnabled wordEn i = true) :
    wordRank wordEn i + 1 ≤ wordRank wordEn j := by
  have hle := wordRank_mono wordEn (show i + 1 ≤ j from h)
  rwa [wordRank_succ, if_pos hi] at hle

theorem efuseCalculateWordCnts_eq (wordEn : UInt8) : efuseCalculateWordCnts wordEn = wordRank wordEn 4 := rfl

/-- The words of a map with those of a section that are enabled from `data` -/
def putWords (tbl : ℕ → UInt8) (offset : ℕ) (wordEn : UInt8) (data : ℕ → UInt8) (a : ℕ) : UInt8 :=
  if a / 8 = offset ∧ wordEnabled wordEn (a % 8 / 2) = true then data (a % 8) else tbl a

section Words
variable (e : Efuse) (wordEn : UInt8)

theorem readWords_range (base addr : ℕ) (tbl : ℕ → UInt8) (n : ℕ) :
    (List.range n).foldl (readWord e wordEn base) (addr,tbl) = (addr + 2 * wordRank wordEn n,fun a =>
      if base ≤ a ∧ (a - base) / 2 < n ∧ wordEnabled wordEn ((a - base) / 2) = true then
        e (addr + 2 * wordRank wordEn ((a - base) / 2) + (a - base) % 2) else tbl a) := by
  induction n with
  | zero => simp [wordRank]
  | succ n ih =>
    rw [List.range_succ, List.foldl_append, ih, List.foldl_cons, List.foldl_nil, readWord, wordRank_succ]
    by_cases hen : wordEnabled wordEn n = true
    · rw [if_pos hen, if_pos hen]
      refine Prod.ext (by ring) ?_
      funext a
      dsimp only
      by_cases h1 : a = base + 2 * n + 1
      · subst h1
        have hword : (base + 2 * n + 1 - base) / 2 = n := by omega
        have hbyte : (base + 2 * n + 1 - base) % 2 = 1 := by omega
        rw [Function.update_self, hword, hbyte, if_pos ⟨by omega,by omega,hen⟩]
      · rw [Function.update_of_ne h1]
        by_cases h0 : a = base + 2 * n
        · subst h0
          have hword : (base + 2 * n - base) / 2 = n := by omega
          have hbyte : (base + 2 * n - base) % 2 = 0 := by omega
          rw [Function.update_self, hword, hbyte, if_pos ⟨by omega,by omega,hen⟩, Nat.add_zero]
        · rw [Function.update_of_ne h0]
          have hiff : base ≤ a ∧ (a - base) / 2 < n + 1 ∧ wordEnabled wordEn ((a - base) / 2) = true ↔
              base ≤ a ∧ (a - base) / 2 < n ∧ wordEnabled wordEn ((a - base) / 2) = true := by
            constructor
            · exact fun h => ⟨h.1,by omega,h.2.2⟩
            · exact fun h => ⟨h.1,by omega,h.2.2⟩
          simp only [hiff]
    · rw [if_neg hen, if_neg hen]
      refine Prod.ext rfl ?_
      funext a
      dsimp only
      have hiff : base ≤ a ∧ (a - base) / 2 < n + 1 ∧ wordEnabled wordEn ((a - base) / 2) = true ↔
          base ≤ a ∧ (a - base) / 2 < n ∧ wordEnabled wordEn ((a - base) / 2) = true := by
        constructor
        · rintro ⟨hle,hlt,h⟩
          refine ⟨hle,?_,h⟩
          have hne : (a - base) / 2 ≠ n := by
            intro hn
            rw [hn] at h
            exact hen h
          omega
        · exact fun h => ⟨h.1,by omega,h.2.2⟩
      simp only [hiff]

theorem readWords_snd (offset addr : ℕ) (tbl : ℕ → UInt8) :
    (readWords e wordEn (offset * 8) (addr,tbl)).2 =
      putWords tbl offset wordEn fun j => e (addr + 2 * wordRank wordEn (j / 2) + j % 2) := by
  rw [readWords, readWords_range]
  funext a
  dsimp only [putWords]
  by_cases h : a / 8 = offset
  · have hsub : a - offset * 8 = a % 8 := by omega
    have hiff : offset * 8 ≤ a ∧ a % 8 / 2 < 4 ∧ wordEnabled wordEn (a % 8 / 2) = true ↔
        a / 8 = offset ∧ wordEnabled wordEn (a % 8 / 2) = true :=
      ⟨fun hw => ⟨h,hw.2.2⟩,fun hw => ⟨by omega,by omega,hw.2⟩⟩
    simp only [hsub, hiff]
  · rw [if_neg (by omega), if_neg fun hw => h hw.1]

theorem readWords_congr {f : Efuse} (base addr : ℕ) (tbl : ℕ → UInt8)
    (hf : ∀ x < addr + 2 * efuseCalculateWordCnts wordEn, f x = e x) :
    readWords f wordEn base (addr,tbl) = readWords e wordEn base (addr,tbl) := by
  rw [readWords, readWords, readWords_range, readWords_range]
  refine Prod.ext rfl ?_
  funext a
  dsimp only
  by_cases h : base ≤ a ∧ (a - base) / 2 < 4 ∧ wordEnabled wordEn ((a - base) / 2) = true
  · have hrank := wordRank_lt h.2.1 h.2.2
    rw [if_pos h, if_pos h]
    refine hf _ ?_
    rw [efuseCalculateWordCnts_eq]
    omega
  · rw [if_neg h, if_neg h]

end Words

/-- The header of a section with its words begins at `a`, and `d` is the first byte of its data. -/
structure HeaderAt (e : Efuse) (a offset : ℕ) (wordEn : UInt8) (d : ℕ) : Prop where
  next : readNext e a = some (d + 2 * efuseCalculateWordCnts wordEn)
  notEmpty : ¬ EmptyHeader e a
  reads : ∀ tbl b, readPkt e tbl (a,b) = (readWords e wordEn (offset * 8) (d,tbl)).2

theorem readPkt_congr {e f : Efuse} {p : ℕ × ℕ} (h : readNext e p.1 = some p.2) (hf : ∀ x < p.2, f x = e x)
    (tbl : ℕ → UInt8) : readPkt f tbl p = readPkt e tbl p := by
  rw [readNext] at h
  have h0 : p.1 < p.2 → f p.1 = e p.1 := hf p.1
  have h1 : p.1 + 1 < p.2 → f (p.1 + 1) = e (p.1 + 1) := hf (p.1 + 1)
  split_ifs at h with hlt hff hext hall
  · have hend := Option.some.inj h
    simp only [readPkt, h0 (by omega), h1 (by omega), hext, hall, if_true]
  · have hend := Option.some.inj h
    simp only [readPkt, h0 (by omega), h1 (by omega), hext, hall, if_true]
    rw [readWords_congr e _ _ _ _ fun x hx => hf x (by omega)]
  · have hend := Option.some.inj h
    simp only [readPkt, h0 (by omega), hext, Bool.false_eq_true, if_false]
    rw [readWords_congr e _ _ _ _ fun x hx => hf x (by omega)]

/-- The packets are as the measuring function takes them, and behind them the efuse is blank. -/
structure TidyCells (e : Efuse) : Prop where
  notEmpty : ∀ p ∈ (readScanner e).records 0, ¬ EmptyHeader e p.1
  blank : ∀ a, (readScanner e).stop 0 ≤ a → a < efuseRealContentLen → e a = 0xFF

/-- A tidy efuse with one more packet -/
structure PacketAppended (e f : Efuse) (offset : ℕ) (wordEn : UInt8) (d : ℕ) : Prop where
  header : HeaderAt f ((readScanner e).stop 0) offset wordEn d
  before : ∀ x < (readScanner e).stop 0, f x = e x
  behind : ∀ x, d + 2 * efuseCalculateWordCnts wordEn ≤ x → f x = e x

section Append
variable {e f : Efuse} {offset : ℕ} {wordEn : UInt8} {d : ℕ}

theorem PacketAppended.records (h : PacketAppended e f offset wordEn d) (he : TidyCells e) :
    (readScanner f).records 0 = (readScanner e).records 0 ++
      [((readScanner e).stop 0,d + 2 * efuseCalculateWordCnts wordEn)] := by
  have hmore : (readScanner f).next ((readScanner e).stop 0) = some (d + 2 * efuseCalculateWordCnts wordEn) :=
    h.header.next
  have hle := ((readScanner f).forward hmore).1
  have hlast : (readScanner f).next (d + 2 * efuseCalculateWordCnts wordEn) = none := by
    refine readNext_none_iff.mpr fun hlt => ?_
    rw [h.behind _ le_rfl]
    exact he.blank _ hle.le hlt
  have hall : ∀ r ∈ (readScanner e).records 0, (readScanner f).next r.1 = some r.2 := by
    intro r hr
    obtain ⟨hr,-,hstop⟩ := Scanner.mem_records hr
    exact readNext_congr hr fun x hx => h.before x (by omega)
  rw [Scanner.records_append hall hmore, Scanner.records_of_none hlast]

theorem PacketAppended.stop (h : PacketAppended e f offset wordEn d) (he : TidyCells e) :
    (readScanner f).stop 0 = d + 2 * efuseCalculateWordCnts wordEn := by
  rw [Scanner.stop_eq, h.records he, List.getLast?_append_of_ne_nil _ (List.cons_ne_nil _ _)]
  rfl

theorem PacketAppended.stop_lt (h : PacketAppended e f offset wordEn d) (he : TidyCells e) :
    (readScanner e).stop 0 < (readScanner f).stop 0 := by
  rw [h.stop he]
  exact ((readScanner f).forward h.header.next).1

theorem PacketAppended.tidy (h : PacketAppended e f offset wordEn d) (he : TidyCells e) : TidyCells f := by
  constructor
  · intro p hp
    rw [h.records he, List.mem_append, List.mem_singleton] at hp
    rcases hp with hp | rfl
    · have hsame : EmptyHeader f p.1 ↔ EmptyHeader e p.1 := by
        obtain ⟨hnext,-,hstop⟩ := Scanner.mem_records hp
        have h0 : f p.1 = e p.1 := h.before p.1 (((readScanner e).forward hnext).1.trans_le hstop)
        by_cases hext : extHeader (e p.1) = true
        · have h1 : f (p.1 + 1) = e (p.1 + 1) := by
            refine h.before _ (Nat.lt_of_lt_of_le ?_ hstop)
            change readNext e p.1 = some p.2 at hnext
            rw [readNext] at hnext
            split_ifs at hnext with hlt hff hall <;> have hend := Option.some.inj hnext <;> omega
          simp only [EmptyHeader, h0, h1]
        · simp [EmptyHeader, h0, hext]
      exact hsame.not.mpr (he.notEmpty p hp)
    · exact h.header.notEmpty
  · intro a ha hlt
    have hle := h.stop_lt he
    rw [h.stop he] at ha hle
    rw [h.behind a ha]
    exact he.blank a (by omega) hlt

theorem PacketAppended.tbl (h : PacketAppended e f offset wordEn d) (he : TidyCells e) :
    (halReadEFuseWiFi f).efuseTbl = putWords (halReadEFuseWiFi e).efuseTbl offset wordEn
      fun j => f (d + 2 * wordRank wordEn (j / 2) + j % 2) := by
  have hprefix : ∀ ps : List (ℕ × ℕ), (∀ p ∈ ps, p ∈ (readScanner e).records 0) → ∀ tbl,
      ps.foldl (readPkt f) tbl = ps.foldl (readPkt e) tbl := by
    intro ps
    induction ps with
    | nil => exact fun _ _ => rfl
    | cons p ps ih =>
      intro hps tbl
      obtain ⟨hnext,-,hstop⟩ := Scanner.mem_records (hps p List.mem_cons_self)
      have hp := readPkt_congr (f := f) hnext (fun x hx => h.before x (by omega)) tbl
      rw [List.foldl_cons, List.foldl_cons, hp, ih fun q hq => hps q (List.mem_cons_of_mem p hq)]
  have hf : (halReadEFuseWiFi f).efuseTbl = ((readScanner f).records 0).foldl (readPkt f) fun _ => 0xFF := by
    rw [halReadEFuseWiFi, readEFuseLoop_eq]
  have he' : (halReadEFuseWiFi e).efuseTbl = ((readScanner e).records 0).foldl (readPkt e) fun _ => 0xFF := by
    rw [halReadEFuseWiFi, readEFuseLoop_eq]
  rw [hf, he', h.records he, List.foldl_append, List.foldl_cons, List.foldl_nil, hprefix _ fun _ hp => hp,
    h.header.reads, readWords_snd]

end Append
end Rtl8188fu
