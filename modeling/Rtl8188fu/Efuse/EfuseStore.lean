import Rtl8188fu.Library.Run
import Rtl8188fu.Efuse.EfuseAppend

/-! # What is written to the efuse is read back

Whatever the efuse makes of the writes, a write that reports success is one that is read back.
-/
namespace Rtl8188fu

/-- What `rtw_efuse_map_read` reads of an efuse -/
def EfuseHal.map (s : EfuseHal) : ℕ → UInt8 := (halReadEFuseWiFi s.cells).efuseTbl

/-- Where the packets of an efuse end -/
def EfuseHal.stop (s : EfuseHal) : ℕ := (readScanner s.cells).stop 0

/-- Only cells from `a` on and before `b` differ, and the stored size not at all. -/
structure Within (a b : ℕ) (s t : EfuseHal) : Prop where
  below : ∀ x < a, t.cells x = s.cells x
  above : ∀ x, b ≤ x → t.cells x = s.cells x
  used : t.used = s.used

section Writes
variable {burn : Burn} {a b c : ℕ} {s t u : EfuseHal}

theorem Within.refl (a b : ℕ) (s : EfuseHal) : Within a b s s := ⟨fun _ _ => rfl,fun _ _ => rfl,rfl⟩

theorem Within.trans (h : Within a b s t) (g : Within b c t u) (hab : a ≤ b) (hbc : b ≤ c) : Within a c s u where
  below x hx := (g.below x (by omega)).trans (h.below x hx)
  above x hx := (g.above x hx).trans (h.above x (by omega))
  used := g.used.trans h.used

theorem Within.widen {a' b' : ℕ} (h : Within a b s t) (ha : a' ≤ a) (hb : b ≤ b') : Within a' b' s t where
  below x hx := h.below x (by omega)
  above x hx := h.above x (by omega)
  used := h.used

theorem oneByteWrite_within (burn : Burn) (a : ℕ) (d : UInt8) (s : EfuseHal) :
    Within a (a + 1) s (oneByteWrite burn a d s) where
  below x hx := Function.update_of_ne (by omega) _ _
  above x hx := Function.update_of_ne (by omega) _ _
  used := rfl

theorem Within.then_same (h : Within a b s t) (g : Within a b t u) : Within a b s u where
  below x hx := (g.below x hx).trans (h.below x hx)
  above x hx := (g.above x hx).trans (h.above x hx)
  used := g.used.trans h.used

theorem retryHeader_within (burn : Burn) (a : ℕ) (h : UInt8) (tries : ℕ) (s : EfuseHal) :
    Within a (a + 1) s (retryHeader burn a h tries s).1 := by
  induction tries generalizing s with
  | zero =>
    rw [retryHeader]
    split_ifs
    · exact .refl _ _ s
    · exact .refl _ _ s
  | succ n ih =>
    rw [retryHeader]
    split_ifs
    · exact (oneByteWrite_within burn a h s).then_same (ih _)
    · exact .refl _ _ s

theorem retryHeader_some {h : UInt8} {tries left : ℕ} (hr : (retryHeader burn a h tries s).2 = some left) :
    (retryHeader burn a h tries s).1.cells a = h ∧ h ≠ 0xFF := by
  induction tries generalizing s with
  | zero =>
    rw [retryHeader] at hr ⊢
    split_ifs at hr ⊢ with hcell
    push Not at hcell
    exact ⟨hcell.2.symm,hcell.2 ▸ hcell.1⟩
  | succ n ih =>
    rw [retryHeader] at hr ⊢
    split_ifs at hr ⊢ with hcell
    · exact ih hr
    · push Not at hcell
      exact ⟨hcell.2.symm,hcell.2 ▸ hcell.1⟩

theorem writeHeader_within (burn : Burn) (a : ℕ) (h : UInt8) (tries : ℕ) (s : EfuseHal) :
    Within a (a + 1) s (writeHeader burn a h tries s).1 :=
  (oneByteWrite_within burn a h s).then_same (retryHeader_within burn a h tries _)

end Writes

theorem header_bits : ∀ o < 16, ∀ w < 15,
    let h := (UInt8.ofNat o <<< 4 &&& 0xF0) ||| UInt8.ofNat w
    h ≠ 0xFF ∧ extHeader h = false ∧ hdrOffset1 h = o ∧ hdrWden1 h = UInt8.ofNat w := by
  decide +kernel

theorem extHeader_bits : ∀ o < 64, ∀ w < 15,
    let h := (UInt8.ofNat o &&& 0x07) <<< 5 ||| 0x0F
    let ext := (UInt8.ofNat o &&& 0x78) <<< 1 ||| UInt8.ofNat w
    h ≠ 0xFF ∧ extHeader h = true ∧ allWordsDisabled ext = false ∧ ext &&& 0x0F ≠ 0x0F ∧
      hdrOffset2 h ext = o ∧
      hdrWden2 ext = UInt8.ofNat w := by
  decide +kernel

theorem word_bits : ∀ b < 16, ∀ i < 4,
    (UInt8.ofNat b &&& ~~~((1 : UInt8) <<< UInt8.ofNat i)).toNat < 16 ∧ ∀ j < 4,
      wordEnabled (UInt8.ofNat b &&& ~~~((1 : UInt8) <<< UInt8.ofNat i)) j =
        (wordEnabled (UInt8.ofNat b) j || decide (j = i)) := by
  decide +kernel

theorem noWord_bits : ∀ b < 16, UInt8.ofNat b = 0x0F ↔ ∀ j < 4, wordEnabled (UInt8.ofNat b) j = false := by
  decide +kernel

theorem eq_noWord_iff {bad : UInt8} (h : bad.toNat < 16) : bad = 0x0F ↔ ∀ j < 4, wordEnabled bad j = false := by
  have hb := noWord_bits bad.toNat h
  rwa [UInt8.ofNat_toNat] at hb

theorem lt_of_ne_noWord {bad : UInt8} (h : bad.toNat < 16) (hne : bad ≠ 0x0F) : bad.toNat < 15 := by
  have h15 : bad.toNat ≠ 15 := fun heq => hne (UInt8.toNat_inj.mp heq)
  omega

theorem clearWord {bad : UInt8} (h : bad.toNat < 16) {i : ℕ} (hi : i < 4) :
    (bad &&& ~~~((1 : UInt8) <<< UInt8.ofNat i)).toNat < 16 ∧ ∀ j < 4,
      wordEnabled (bad &&& ~~~((1 : UInt8) <<< UInt8.ofNat i)) j = (wordEnabled bad j || decide (j = i)) := by
  have hb := word_bits bad.toNat h i hi
  rwa [UInt8.ofNat_toNat] at hb

section Headers
variable {burn : Burn} {offset wordEn : UInt8} {a addr : ℕ} {s : EfuseHal}

theorem headerAt_one {f : Efuse} (ha : a < efuseRealContentLen) (ho : offset.toNat < 16) (hw : wordEn.toNat < 15)
    (hf : f a = ((offset <<< 4 &&& 0xF0) ||| wordEn)) : HeaderAt f a offset.toNat wordEn (a + 1) := by
  have hbits := header_bits offset.toNat ho wordEn.toNat hw
  simp only [UInt8.ofNat_toNat, ← hf] at hbits
  obtain ⟨hff,hext,hoff,hwden⟩ := hbits
  have hsection : offset.toNat < efuseMaxSection := ho.trans (by decide)
  refine ⟨?_,?_,?_⟩
  · simp [readNext, ha, hff, hext, hwden]
  · simp [EmptyHeader, hext]
  · simp [readPkt, hext, hoff, hwden, hsection]

theorem headerAt_two {f : Efuse} (ha : a < efuseRealContentLen) (ho : offset.toNat < 64) (hw : wordEn.toNat < 15)
    (hf : f a = ((offset &&& 0x07) <<< 5 ||| 0x0F)) (hf1 : f (a + 1) = ((offset &&& 0x78) <<< 1 ||| wordEn)) :
    HeaderAt f a offset.toNat wordEn (a + 2) := by
  have hbits := extHeader_bits offset.toNat ho wordEn.toNat hw
  simp only [UInt8.ofNat_toNat, ← hf, ← hf1] at hbits
  obtain ⟨hff,hext,hall,-,hoff,hwden⟩ := hbits
  refine ⟨?_,?_,?_⟩
  · simp [readNext, ha, hff, hext, hall, hwden]
  · simp [EmptyHeader, hall]
  · simp [readPkt, hext, hall, hoff, hwden, show offset.toNat < efuseMaxSection from ho]

/-- A header is written from its address on, and is there when it is reported. -/
theorem pgPacketWriteHeader_spec (burn : Burn) (ho : offset.toNat < 64) (hw : wordEn.toNat < 15)
    (ha : a < availableEfuseBytesTotal) (s : EfuseHal) :
    Within a (a + 2) s (pgPacketWriteHeader burn offset wordEn a s).1 ∧
      ∀ addr, (pgPacketWriteHeader burn offset wordEn a s).2 = some addr →
        a ≤ addr ∧ Within a (addr + 1) s (pgPacketWriteHeader burn offset wordEn a s).1 ∧
        ∀ f : Efuse, (∀ x < addr + 1, f x = (pgPacketWriteHeader burn offset wordEn a s).1.cells x) →
          HeaderAt f a offset.toNat wordEn (addr + 1) := by
  have hlen : a < efuseRealContentLen := ha.trans (by decide)
  unfold pgPacketWriteHeader
  split_ifs with hbase
  · unfold pgPacketWrite2ByteHeader
    rw [if_neg (by omega), write2ByteLoop, if_pos ha]
    dsimp only
    have hfirst := writeHeader_within burn a ((offset &&& 0x07) <<< 5 ||| 0x0F) (EFUSE_REPEAT_THRESHOLD + 1) s
    cases hone : (writeHeader burn a ((offset &&& 0x07) <<< 5 ||| 0x0F) (EFUSE_REPEAT_THRESHOLD + 1) s).2 with
    | none => exact ⟨hfirst.widen le_rfl (by omega),by simp⟩
    | some tries =>
      dsimp only
      generalize hs1 : (writeHeader burn a ((offset &&& 0x07) <<< 5 ||| 0x0F) (EFUSE_REPEAT_THRESHOLD + 1) s).1 = s1
        at hfirst
      have hcell := (retryHeader_some hone).1
      change (writeHeader burn a _ _ s).1.cells a = _ at hcell
      rw [hs1] at hcell
      have hsecond := writeHeader_within burn (a + 1) ((offset &&& 0x78) <<< 1 ||| wordEn) tries s1
      have hboth := hfirst.trans hsecond (by omega) (by omega)
      cases htwo : (writeHeader burn (a + 1) ((offset &&& 0x78) <<< 1 ||| wordEn) tries s1).2 with
      | none => exact ⟨hboth,by simp⟩
      | some left =>
        have hbits := extHeader_bits offset.toNat ho wordEn.toNat hw
        simp only [UInt8.ofNat_toNat] at hbits
        dsimp only
        rw [if_neg hbits.2.2.2.1]
        refine ⟨hboth,?_⟩
        rintro addr ⟨rfl⟩
        refine ⟨Nat.le_succ a,hboth,fun f hf => ?_⟩
        refine headerAt_two hlen ho hw ?_ ?_
        · rw [hf a (by omega), hsecond.below a (by omega), hcell]
        · rw [hf (a + 1) (by omega)]
          exact (retryHeader_some htwo).1
  · unfold pgPacketWrite1ByteHeader
    dsimp only
    have hfirst := writeHeader_within burn a ((offset <<< 4 &&& 0xF0) ||| wordEn) (EFUSE_REPEAT_THRESHOLD + 1) s
    refine ⟨hfirst.widen le_rfl (by omega),fun addr haddr => ?_⟩
    obtain ⟨left,hleft,rfl⟩ := Option.map_eq_some_iff.mp haddr
    refine ⟨le_rfl,hfirst,fun f hf => headerAt_one hlen (not_le.mp hbase) hw ?_⟩
    rw [hf a (by omega)]
    exact (retryHeader_some hleft).1

end Headers

/-- What `Hal_EfuseWordEnableDataWrite` has done after some of the words: a word is bad when it is not read back. -/
structure WordsWritten (start : ℕ) (wordEn : UInt8) (data : ℕ → UInt8) (s : EfuseHal) (n : ℕ) (r : DataWrite) :
    Prop where
  addr : r.addr = start + 2 * wordRank wordEn n
  within : Within start r.addr s r.hal
  small : r.bad.toNat < 16
  bad : ∀ j < 4, wordEnabled r.bad j = true ↔ j < n ∧ wordEnabled wordEn j = true ∧
    ¬ (r.hal.cells (start + 2 * wordRank wordEn j) = data (2 * j) ∧
      r.hal.cells (start + 2 * wordRank wordEn j + 1) = data (2 * j + 1))

theorem writeWord_written {burn : Burn} {addr : ℕ} {wordEn : UInt8} {data : ℕ → UInt8} {s : EfuseHal} {n : ℕ}
    {r : DataWrite}
    (h : WordsWritten addr wordEn data s n r) (hn : n < 4) :
    WordsWritten addr wordEn data s (n + 1) (writeWord burn wordEn data r n) := by
  unfold writeWord
  by_cases hen : wordEnabled wordEn n = true
  · rw [if_pos hen]
    dsimp only
    have hfirst := oneByteWrite_within burn r.addr (data (2 * n)) r.hal
    have hsecond := oneByteWrite_within burn (r.addr + 1) (data (2 * n + 1))
        (oneByteWrite burn r.addr (data (2 * n)) r.hal)
    have hpair := hfirst.trans hsecond (by omega) (by omega)
    generalize oneByteWrite burn (r.addr + 1) (data (2 * n + 1))
      (oneByteWrite burn r.addr (data (2 * n)) r.hal) = hal at hpair
    have hclear := clearWord h.small hn
    have haddr := h.addr
    refine ⟨?_,?_,?_,?_⟩
    · rw [wordRank_succ, if_pos hen]
      dsimp only
      omega
    · change Within addr (r.addr + 2) s hal
      exact h.within.trans hpair (by omega) (by omega)
    · dsimp only
      split_ifs
      · exact hclear.1
      · exact h.small
    · intro j hj
      dsimp only
      by_cases hjn : j = n
      · subst hjn
        have hnot : wordEnabled r.bad j = false := by
          rw [← Bool.not_eq_true, h.bad j hj]
          omega
        have hcell : addr + 2 * wordRank wordEn j = r.addr := haddr.symm
        rw [hcell]
        split_ifs with hfails
        · rw [hclear.2 j hj]
          simp only [decide_true, Bool.or_true, true_iff]
          refine ⟨Nat.lt_succ_self j,hen,fun hgood => ?_⟩
          rcases hfails with hne | hne
          · exact hne hgood.1.symm
          · exact hne hgood.2.symm
        · push Not at hfails
          simp only [hnot, Bool.false_eq_true, false_iff, not_and]
          exact fun _ _ hne => hne hfails.1.symm hfails.2.symm
      · have hsame :
            (wordEnabled (if data (2 * n) ≠ hal.cells r.addr ∨ data (2 * n + 1) ≠ hal.cells (r.addr + 1) then
            r.bad &&& ~~~((1 : UInt8) <<< UInt8.ofNat n) else r.bad) j) = wordEnabled r.bad j := by
          split_ifs
          · rw [hclear.2 j hj, decide_eq_false hjn, Bool.or_false]
          · rfl
        rw [hsame, h.bad j hj]
        have hlt : j < n + 1 ↔ j < n := by omega
        rw [hlt]
        refine and_congr_right fun hjlt => and_congr_right fun henj => ?_
        have hrank := wordRank_lt hjlt henj
        rw [hpair.below _ (by omega), hpair.below _ (by omega)]
  · rw [if_neg hen]
    refine ⟨?_,h.within,h.small,fun j hj => ?_⟩
    · rw [wordRank_succ, if_neg hen]
      exact h.addr
    · rw [h.bad j hj]
      refine and_congr_left fun hw => ?_
      have hjn : j ≠ n := by
        rintro rfl
        exact hen hw.1
      omega

theorem wordEnableDataWrite_written (burn : Burn) (addr : ℕ) (wordEn : UInt8) (data : ℕ → UInt8) (s : EfuseHal) :
    WordsWritten addr wordEn data s 4 (wordEnableDataWrite burn addr wordEn data s) := by
  have hrange :
      ∀ n ≤ 4, WordsWritten addr wordEn data s n
      ((List.range n).foldl (writeWord burn wordEn data) ⟨addr,0x0F,s⟩) := by
    intro n
    induction n with
    | zero =>
      intro _
      refine ⟨rfl,.refl _ _ _,show (0x0F : UInt8).toNat < 16 by decide,fun j hj => ?_⟩
      have hnone : wordEnabled (0x0F : UInt8) j = false := (eq_noWord_iff (by decide)).mp rfl j hj
      simp [hnone]
    | succ n ih =>
      intro hn
      rw [List.range_succ, List.foldl_append, List.foldl_cons, List.foldl_nil]
      exact writeWord_written (ih (by omega)) hn
  exact hrange 4 le_rfl

/-- The stored size is where the packets end, or at a byte that is not blank. -/
def EfuseHal.Stored (s : EfuseHal) : Prop := s.used = s.stop ∨ s.used < efuseRealContentLen ∧
    s.cells s.used ≠ 0xFF

theorem getCurrentSize_used {s : EfuseHal} (ht : TidyCells s.cells) (hs : s.Stored) :
    (getCurrentSize s).used = s.stop := by
  have hpkts := (sizePkts_iff s.cells).mpr ht.notEmpty
  have hzero : (halEfuseGetCurrentSizeWiFi s.cells 0).1 = s.stop := by
    rw [halEfuseGetCurrentSizeWiFi_zero, Scanner.stop_eq, hpkts, ← Scanner.stop_eq]
    rfl
  change (halEfuseGetCurrentSizeWiFi s.cells s.used).1 = s.stop
  rcases hs with hused | ⟨hlt,hff⟩
  · rw [hused]
    exact halEfuseGetCurrentSizeWiFi_blank s.cells fun hlt => ht.blank _ le_rfl hlt
  · by_cases h0 : s.used = 0
    · rw [h0]
      exact hzero
    · rw [halEfuseGetCurrentSizeWiFi_retry s.cells hlt h0 hff]
      exact hzero

/-- What a write of a section has to do -/
structure SectionWritten (s t : EfuseHal) (offset : ℕ) (wordEn : UInt8) (data : ℕ → UInt8) : Prop where
  tidy : TidyCells t.cells
  stored : t.Stored
  stop : s.stop ≤ t.stop
  map : t.map = putWords s.map offset wordEn data

theorem putWords_congr {tbl : ℕ → UInt8} {offset : ℕ} {w : UInt8} {data pData : ℕ → UInt8}
    (h : ∀ k < 8, wordEnabled w (k / 2) = true → data k = pData k) :
    putWords tbl offset w data = putWords tbl offset w pData := by
  funext a
  unfold putWords
  split_ifs with hw
  · exact h _ (Nat.mod_lt _ (by decide)) hw.2
  · rfl

theorem putWords_again {tbl : ℕ → UInt8} {offset : ℕ} {w bad : UInt8} {first data pData : ℕ → UInt8}
    (hbad : ∀ j < 4, wordEnabled bad j = true → wordEnabled w j = true)
    (hgood : ∀ k < 8, wordEnabled w (k / 2) = true → wordEnabled bad (k / 2) = false → first k = data k)
    (hdata : ∀ k < 8, wordEnabled w (k / 2) = true → data k = pData k) :
    putWords (putWords tbl offset w first) offset bad data = putWords tbl offset w pData := by
  funext a
  have hk : a % 8 < 8 := Nat.mod_lt _ (by decide)
  have hj : a % 8 / 2 < 4 := by omega
  unfold putWords
  by_cases hoff : a / 8 = offset
  · by_cases hb : wordEnabled bad (a % 8 / 2) = true
    · have hw := hbad _ hj hb
      rw [if_pos ⟨hoff,hb⟩, if_pos ⟨hoff,hw⟩]
      exact hdata _ hk hw
    · rw [if_neg fun h => hb h.2]
      by_cases hw : wordEnabled w (a % 8 / 2) = true
      · rw [if_pos ⟨hoff,hw⟩, if_pos ⟨hoff,hw⟩, hgood _ hk hw (Bool.eq_false_of_not_eq_true hb)]
        exact hdata _ hk hw
      · rw [if_neg fun h => hw h.2, if_neg fun h => hw h.2]
  · rw [if_neg fun h => hoff h.1, if_neg fun h => hoff h.1, if_neg fun h => hoff h.1]

/-- One packet, from a header that is there and words that are written: it is the next one, and the words that are not
bad are read as they were meant. -/
theorem packet_written {s t : EfuseHal} {a addr offset : ℕ} {w : UInt8} {data : ℕ → UInt8} {r : DataWrite}
    (ha : a = s.stop) (hle : a ≤ addr) (hlt : a < efuseRealContentLen)
    (hused : s.used = s.stop) (hwithin : Within a (addr + 1) s t)
    (hheader : ∀ f : Efuse, (∀ x < addr + 1, f x = t.cells x) → HeaderAt f a offset w (addr + 1))
    (hr : WordsWritten (addr + 1) w data t 4 r) :
    PacketAppended s.cells r.hal.cells offset w (addr + 1) ∧ r.hal.Stored := by
  subst ha
  have hboth := hwithin.trans hr.within (by omega) (by rw [hr.addr]; omega)
  have happ : PacketAppended s.cells r.hal.cells offset w (addr + 1) := by
    refine ⟨hheader _ fun x hx => hr.within.below x hx,hboth.below,fun x hx => hboth.above x ?_⟩
    rw [hr.addr]
    exact hx
  refine ⟨happ,Or.inr ?_⟩
  have hstored : r.hal.used = s.stop := hboth.used.trans hused
  rw [hstored]
  refine ⟨hlt,fun hff => ?_⟩
  have hnone : readNext r.hal.cells s.stop = none := readNext_none_iff.mpr fun _ => hff
  have hsome := happ.header.next
  change readNext r.hal.cells s.stop = _ at hsome
  rw [hnone] at hsome
  cases hsome

theorem WordsWritten.good {start : ℕ} {w : UInt8} {data : ℕ → UInt8} {s : EfuseHal} {r : DataWrite}
    (h : WordsWritten start w data s 4 r) {k : ℕ} (hk : k < 8) (hw : wordEnabled w (k / 2) = true)
    (hbad : wordEnabled r.bad (k / 2) = false) : r.hal.cells (start + 2 * wordRank w (k / 2) + k % 2) = data k := by
  have hj : k / 2 < 4 := by omega
  have hnot := (h.bad _ hj).not.mp (by simp [hbad])
  have hpair : r.hal.cells (start + 2 * wordRank w (k / 2)) = data (2 * (k / 2)) ∧
      r.hal.cells (start + 2 * wordRank w (k / 2) + 1) = data (2 * (k / 2) + 1) := by
    by_contra hfail
    exact hnot ⟨hj,hw,hfail⟩
  rcases Nat.mod_two_eq_zero_or_one k with hmod | hmod
  · have hk2 : 2 * (k / 2) = k := by omega
    rw [hmod, Nat.add_zero]
    rw [hk2] at hpair
    exact hpair.1
  · have hk2 : 2 * (k / 2) + 1 = k := by omega
    rw [hmod]
    rw [hk2] at hpair
    exact hpair.2

/-- What comes of a packet of `Efuse_PgPacketWrite`, however many may follow -/
inductive PacketOutcome (burn : Burn) (offset w : UInt8) (pData : ℕ → UInt8) (s : EfuseHal) : Prop
  | stops (t : EfuseHal) : (∀ fuel, pgPacketWrite burn (fuel + 1) offset w pData s = (t,false)) →
      (∀ x < s.stop, t.cells x = s.cells x) → PacketOutcome burn offset w pData s
  | done (t : EfuseHal) : (∀ fuel, pgPacketWrite burn (fuel + 1) offset w pData s = (t,true)) →
      (∀ x < s.stop, t.cells x = s.cells x) → SectionWritten s t offset.toNat w pData →
        PacketOutcome burn offset w pData s
  /-- The bad words are written once more. -/
  | again (t : EfuseHal) (bad : UInt8) (data : ℕ → UInt8) :
      (∀ fuel, pgPacketWrite burn (fuel + 1) offset w pData s = pgPacketWrite burn fuel offset bad data t) →
      (∀ x < s.stop, t.cells x = s.cells x) → bad.toNat < 15 → TidyCells t.cells → t.Stored →
        s.stop < t.stop →
      s.stop < availableEfuseBytesTotal →
      putWords t.map offset.toNat bad data = putWords s.map offset.toNat w pData → PacketOutcome burn offset w pData s

theorem pgPacketWrite_outcome (burn : Burn) {offset : UInt8} (ho : offset.toNat < 64) {w : UInt8} (hw : w.toNat < 15)
    (pData : ℕ → UInt8) {s : EfuseHal} (ht : TidyCells s.cells) (hs : s.Stored) :
    PacketOutcome burn offset w pData s := by
  have hused := getCurrentSize_used ht hs
  by_cases hfull : availableEfuseBytesTotal ≤ s.stop
  · refine .stops (getCurrentSize s) (fun fuel => ?_) fun _ _ => rfl
    rw [pgPacketWrite]
    exact if_pos (hused.symm ▸ hfull)
  rw [not_le] at hfull
  have hlen : s.stop < efuseRealContentLen := hfull.trans (by decide)
  have hblank : s.cells s.stop = 0xFF := ht.blank _ le_rfl hlen
  have hcheck : partialWriteCheck (getCurrentSize s) = some s.stop := by
    unfold partialWriteCheck
    dsimp only
    rw [hused, Nat.mod_eq_of_lt hlen, if_neg (not_le.mpr hfull)]
    exact if_neg (not_not.mpr hblank)
  obtain ⟨hframe,hdone⟩ := pgPacketWriteHeader_spec burn ho hw hfull (getCurrentSize s)
  cases haddr : (pgPacketWriteHeader burn offset w s.stop (getCurrentSize s)).2 with
  | none =>
    refine .stops _ (fun fuel => ?_) hframe.below
    rw [pgPacketWrite]
    simp only [hused, not_le.mpr hfull, if_false, hcheck, haddr]
  | some addr =>
    obtain ⟨hle,hwithin,hheader⟩ := hdone addr haddr
    have hr := wordEnableDataWrite_written burn (addr + 1) w (wordEnableDataRead w pData)
      (pgPacketWriteHeader burn offset w s.stop (getCurrentSize s)).1
    have hnext : ∀ fuel, pgPacketWrite burn (fuel + 1) offset w pData s =
        if (wordEnableDataWrite burn (addr + 1) w (wordEnableDataRead w pData)
            (pgPacketWriteHeader burn offset w s.stop (getCurrentSize s)).1).bad = 0x0F then
          ((wordEnableDataWrite burn (addr + 1) w (wordEnableDataRead w pData)
            (pgPacketWriteHeader burn offset w s.stop (getCurrentSize s)).1).hal,true)
        else pgPacketWrite burn fuel offset (wordEnableDataWrite burn (addr + 1) w (wordEnableDataRead w pData)
            (pgPacketWriteHeader burn offset w s.stop (getCurrentSize s)).1).bad (wordEnableDataRead w pData)
          (wordEnableDataWrite burn (addr + 1) w (wordEnableDataRead w pData)
            (pgPacketWriteHeader burn offset w s.stop (getCurrentSize s)).1).hal := by
      intro fuel
      rw [pgPacketWrite]
      simp only [hused, not_le.mpr hfull, if_false, hcheck, haddr]
    generalize wordEnableDataWrite burn (addr + 1) w (wordEnableDataRead w pData)
      (pgPacketWriteHeader burn offset w s.stop (getCurrentSize s)).1 = r at hr hnext
    obtain ⟨happ,hstored⟩ := packet_written (s := getCurrentSize s) rfl hle hlen hused hwithin hheader hr
    have hmap : r.hal.map = _ := happ.tbl ht
    have hdata : ∀ k < 8, wordEnabled w (k / 2) = true → wordEnableDataRead w pData k = pData k :=
      fun k _ hk => if_pos hk
    by_cases hbad : r.bad = 0x0F
    · have hnone := (eq_noWord_iff hr.small).mp hbad
      refine .done r.hal (fun fuel => (hnext fuel).trans (if_pos hbad)) happ.before
        ⟨happ.tidy ht,hstored,(happ.stop_lt ht).le,?_⟩
      rw [hmap]
      exact putWords_congr fun k hk hwk => (hr.good hk hwk (hnone _ (by omega))).trans (hdata k hk hwk)
    · refine .again r.hal r.bad (wordEnableDataRead w pData) (fun fuel => (hnext fuel).trans (if_neg hbad)) happ.before
        (lt_of_ne_noWord hr.small hbad) (happ.tidy ht) hstored (happ.stop_lt ht) hfull ?_
      rw [hmap]
      exact putWords_again (fun j hj hb => ((hr.bad j hj).mp hb).2.1) (fun k hk => hr.good hk) hdata

/-- `Efuse_PgPacketWrite` writes behind the packets only, and has written the section when it reports success. -/
theorem pgPacketWrite_spec (burn : Burn) {offset : UInt8} (ho : offset.toNat < 64) (fuel : ℕ) {w : UInt8}
    (hw : w.toNat < 15) (pData : ℕ → UInt8) {s : EfuseHal} (ht : TidyCells s.cells) (hs : s.Stored) :
    (∀ x < s.stop, (pgPacketWrite burn fuel offset w pData s).1.cells x = s.cells x) ∧
      ((pgPacketWrite burn fuel offset w pData s).2 = true →
        SectionWritten s (pgPacketWrite burn fuel offset w pData s).1 offset.toNat w pData) := by
  induction fuel generalizing w pData s with
  | zero => exact ⟨fun _ _ => rfl,by simp [pgPacketWrite]⟩
  | succ fuel ih =>
    cases pgPacketWrite_outcome burn ho hw pData ht hs with
    | stops t heq hkeep =>
      rw [heq]
      exact ⟨hkeep,by simp⟩
    | done t heq hkeep hwritten =>
      rw [heq]
      exact ⟨hkeep,fun _ => hwritten⟩
    | again t bad data heq hkeep hbad htidy hstored hlater _ hput =>
      obtain ⟨hkeep',hwritten⟩ := ih hbad data htidy hstored
      rw [heq]
      refine ⟨fun x hx => (hkeep' x (hx.trans hlater)).trans (hkeep x hx),fun hok => ?_⟩
      obtain ⟨htidy',hstored',hstop',hmap'⟩ := hwritten hok
      exact ⟨htidy',hstored',hlater.le.trans hstop',hmap'.trans hput⟩

/-- Each packet takes some of the room, so that there are never more of them than there is room. -/
theorem pgPacketWrite_fuel (burn : Burn) {offset : UInt8} (ho : offset.toNat < 64) (fuel : ℕ) {w : UInt8}
    (hw : w.toNat < 15) (pData : ℕ → UInt8) {s : EfuseHal} (ht : TidyCells s.cells) (hs : s.Stored)
    (hroom : availableEfuseBytesTotal ≤ fuel + s.stop) :
    pgPacketWrite burn (fuel + 2) offset w pData s = pgPacketWrite burn (fuel + 1) offset w pData s := by
  induction fuel generalizing w pData s with
  | zero =>
    cases pgPacketWrite_outcome burn ho hw pData ht hs with
    | stops t heq => rw [heq, heq]
    | done t heq => rw [heq, heq]
    | again t bad data _ _ _ _ _ _ hlt => omega
  | succ fuel ih =>
    cases pgPacketWrite_outcome burn ho hw pData ht hs with
    | stops t heq => rw [heq, heq]
    | done t heq => rw [heq, heq]
    | again t bad data heq _ hbad htidy hstored hlater =>
      rw [heq, heq]
      exact ih hbad data htidy hstored (by omega)

/-- The map with the bytes from `addr` on that are to be written -/
def overwrite (map : ℕ → UInt8) (addr cnts : ℕ) (data : ℕ → UInt8) (a : ℕ) : UInt8 :=
  if addr ≤ a ∧ a < addr + cnts then data (a - addr) else map a

/-- What the loop over a section has found out about its first `i` bytes -/
structure Scanned (map new : ℕ → UInt8) (offset i : ℕ) (r : SectionScan) : Prop where
  newdata : ∀ k < 8, r.newdata k = if k < i then new (8 * offset + k) else map (8 * offset + k)
  small : r.wordEn.toNat < 16
  wordEn : ∀ j < 4, wordEnabled r.wordEn j = true ↔ ∃ k < i, k / 2 = j ∧
    new (8 * offset + k) ≠ map (8 * offset + k)

section Sections
variable {map data : ℕ → UInt8} {addr cnts offset : ℕ}

theorem scanSection_scanned (i : ℕ) (r : SectionScan) (hi : i ≤ 8) (hplace : 8 * offset + i = addr + r.idx)
    (hr : Scanned map (overwrite map addr cnts data) offset i r) :
    Scanned map (overwrite map addr cnts data) offset 8 (scanSection map addr cnts data i r) := by
  fun_induction scanSection map addr cnts data i r with
  | case1 i r h hne ih =>
    have hnew : overwrite map addr cnts data (8 * offset + i) = data r.idx := by
      rw [hplace, overwrite, if_pos ⟨by omega,by omega⟩, Nat.add_sub_cancel_left]
    have hclear := clearWord hr.small (show i / 2 < 4 by omega)
    refine ih (by omega) (by dsimp only; omega) ⟨fun k hk => ?_,hclear.1,fun j hj => ?_⟩
    · dsimp only
      by_cases hki : k = i
      · subst hki
        rw [Function.update_self, if_pos (Nat.lt_succ_self k), hnew]
      · rw [Function.update_of_ne hki, hr.newdata k hk]
        have hlt : k < i + 1 ↔ k < i := by omega
        simp only [hlt]
    · dsimp only
      rw [hclear.2 j hj, Bool.or_eq_true, hr.wordEn j hj, decide_eq_true_eq]
      constructor
      · rintro (⟨k,hk,hword⟩ | rfl)
        · exact ⟨k,by omega,hword⟩
        · refine ⟨i,Nat.lt_succ_self i,rfl,?_⟩
          rw [hnew, hplace]
          exact hne
      · rintro ⟨k,hk,hword,hdiff⟩
        by_cases hki : k = i
        · right
          rw [← hword, hki]
        · exact Or.inl ⟨k,by omega,hword,hdiff⟩
  | case2 i r h heq ih =>
    rw [not_not] at heq
    have hnew : overwrite map addr cnts data (8 * offset + i) = map (8 * offset + i) := by
      rw [hplace, overwrite, if_pos ⟨by omega,by omega⟩, Nat.add_sub_cancel_left, heq]
    refine ih (by omega) (by dsimp only; omega) ⟨fun k hk => ?_,hr.small,fun j hj => ?_⟩
    · dsimp only
      rw [hr.newdata k hk]
      by_cases hki : k = i
      · subst hki
        rw [if_neg (lt_irrefl k), if_pos (Nat.lt_succ_self k), hnew]
      · have hlt : k < i + 1 ↔ k < i := by omega
        simp only [hlt]
    · dsimp only
      rw [hr.wordEn j hj]
      constructor
      · rintro ⟨k,hk,hword⟩
        exact ⟨k,by omega,hword⟩
      · rintro ⟨k,hk,hword,hdiff⟩
        refine ⟨k,?_,hword,hdiff⟩
        have hki : k ≠ i := by
          rintro rfl
          exact hdiff hnew
        omega
  | case3 i r h =>
    have hsame : ∀ k, i ≤ k → k < 8 → overwrite map addr cnts data (8 * offset + k) = map (8 * offset + k) := by
      intro k hik hk
      exact if_neg (by omega)
    refine ⟨fun k hk => ?_,hr.small,fun j hj => ?_⟩
    · rw [hr.newdata k hk, if_pos hk]
      split_ifs with hki
      · rfl
      · exact (hsame k (by omega) hk).symm
    · rw [hr.wordEn j hj]
      constructor
      · rintro ⟨k,hk,hword⟩
        exact ⟨k,by omega,hword⟩
      · rintro ⟨k,hk,hword,hdiff⟩
        refine ⟨k,?_,hword,hdiff⟩
        by_contra hki
        exact hdiff (hsame k (by omega) hk)

/-- Where the loop over the sections stands: at the byte `idx` of section `offset`, or at the end -/
structure AtSection (addr cnts offset idx : ℕ) : Prop where
  le : idx ≤ cnts
  inside : idx < cnts → offset = (addr + idx) / 8 ∧ (idx = 0 ∨ (addr + idx) % 8 = 0)
  done : idx = cnts → cnts = 0 ∨ addr + cnts ≤ 8 * offset

theorem startSection_scanned {idx : ℕ} (h : AtSection addr cnts offset idx) (hlt : idx < cnts) :
    Scanned map (overwrite map addr cnts data) offset 8 (startSection map addr cnts data offset idx) := by
  obtain ⟨hoffset,hstart⟩ := h.inside hlt
  have hbefore : ∀ k < (addr + idx) % 8, overwrite map addr cnts data (8 * offset + k) = map (8 * offset + k) := by
    intro k hk
    exact if_neg (by omega)
  have hmod : (addr + idx) % 8 < 8 := Nat.mod_lt _ (by decide)
  refine scanSection_scanned _ _ hmod.le (by dsimp only; omega)
    ⟨fun k hk => ?_,show (0x0F : UInt8).toNat < 16 by decide,fun j hj => ?_⟩
  · dsimp only
    rw [Nat.mul_comm offset 8]
    split_ifs with hk'
    · exact (hbefore k hk').symm
    · rfl
  · have hnone : wordEnabled (0x0F : UInt8) j = false := (eq_noWord_iff (by decide)).mp rfl j hj
    simp only [hnone, Bool.false_eq_true, false_iff, not_exists, not_and, not_not]
    exact fun k hk _ => hbefore k hk

theorem AtSection.offset_lt {idx : ℕ} (h : AtSection addr cnts offset idx) (hlt : idx < cnts)
    (hmap : addr + cnts ≤ efuseMapLen) : offset < 64 := by
  have hinside := (h.inside hlt).1
  simp only [efuseMapLen] at hmap
  omega

/-- The number of a section fits the byte it is handed on in. -/
theorem AtSection.toNat_offset {idx : ℕ} (h : AtSection addr cnts offset idx) (hlt : idx < cnts)
    (hmap : addr + cnts ≤ efuseMapLen) : (UInt8.ofNat offset).toNat = offset := by
  have hoff := h.offset_lt hlt hmap
  rw [UInt8.toNat_ofNat']
  omega

theorem AtSection.next {idx : ℕ} (h : AtSection addr cnts offset idx) (hlt : idx < cnts) :
    AtSection addr cnts (offset + 1) (startSection map addr cnts data offset idx).idx := by
  obtain ⟨hoffset,hstart⟩ := h.inside hlt
  have hidx : (startSection map addr cnts data offset idx).idx = idx + min (8 - (addr + idx) % 8) (cnts - idx) := by
    rw [startSection, scanSection_idx]
  rw [hidx]
  constructor <;> omega

/-- The map during the loop: the sections before `offset` are written. -/
theorem writeSections_spec (burn : Burn) (fuel : ℕ) (hmap : addr + cnts ≤ efuseMapLen) (idx : ℕ) {s : EfuseHal}
    (h : AtSection addr cnts offset idx) (ht : TidyCells s.cells) (hs : s.Stored) :
    (∀ x < s.stop, (writeSections burn fuel map addr cnts data offset idx s).1.cells x = s.cells x) ∧
      ((writeSections burn fuel map addr cnts data offset idx s).2 = true →
        (∀ a, s.map a = if a / 8 < offset then overwrite map addr cnts data a else map a) →
        TidyCells (writeSections burn fuel map addr cnts data offset idx s).1.cells ∧
          (writeSections burn fuel map addr cnts data offset idx s).1.map = overwrite map addr cnts data) := by
  fun_induction writeSections burn fuel map addr cnts data offset idx s with
  | case1 offset idx s hlt r hnone ih =>
    have hscan : Scanned map (overwrite map addr cnts data) offset 8 r := startSection_scanned h hlt
    obtain ⟨hkeep,hdone⟩ := ih (h.next hlt) ht hs
    refine ⟨hkeep,fun hok hprev => hdone hok fun a => ?_⟩
    have hquiet := (eq_noWord_iff hscan.small).mp hnone
    rw [hprev a]
    by_cases ha : a / 8 = offset
    · have hsame : overwrite map addr cnts data a = map a := by
        by_contra hdiff
        have hplace : 8 * offset + a % 8 = a := by omega
        have hword := (hscan.wordEn (a % 8 / 2) (by omega)).mpr ⟨a % 8,by omega,rfl,by rwa [hplace]⟩
        rw [hquiet _ (by omega)] at hword
        cases hword
      rw [hsame]
      split_ifs <;> rfl
    · have hiff : a / 8 < offset + 1 ↔ a / 8 < offset := by omega
      simp only [hiff]
  | case2 offset idx s hlt r hsome w hw ih =>
    have hscan : Scanned map (overwrite map addr cnts data) offset 8 r := startSection_scanned h hlt
    have hoff := h.offset_lt hlt hmap
    have hnat := h.toNat_offset hlt hmap
    have hwords := lt_of_ne_noWord hscan.small hsome
    obtain ⟨hkeep,hwritten⟩ := pgPacketWrite_spec burn (hnat.symm ▸ hoff) fuel hwords r.newdata ht hs
    obtain ⟨htidy,hstored,hstop,hput⟩ := hwritten hw
    rw [hnat] at hput
    obtain ⟨hkeep',hdone⟩ := ih (h.next hlt) htidy hstored
    refine ⟨fun x hx => (hkeep' x (hx.trans_le hstop)).trans (hkeep x hx),fun hok hprev => hdone hok fun a => ?_⟩
    rw [hput, putWords, hprev a]
    by_cases ha : a / 8 = offset
    · have hplace : 8 * offset + a % 8 = a := by omega
      rw [if_pos (show a / 8 < offset + 1 by omega), if_neg (show ¬ a / 8 < offset by omega)]
      split_ifs with hword
      · rw [hscan.newdata _ (by omega), if_pos (by omega), hplace]
      · by_contra hdiff
        refine hword ⟨ha,(hscan.wordEn (a % 8 / 2) (by omega)).mpr ⟨a % 8,by omega,rfl,?_⟩⟩
        rw [hplace]
        exact fun heq => hdiff heq.symm
    · have hiff : a / 8 < offset + 1 ↔ a / 8 < offset := by omega
      rw [if_neg fun hword => ha hword.1]
      simp only [hiff]
  | case3 offset idx s hlt r hsome w hw =>
    have hscan : Scanned map (overwrite map addr cnts data) offset 8 r := startSection_scanned h hlt
    have hoff := h.offset_lt hlt hmap
    have hnat := h.toNat_offset hlt hmap
    have hwords := lt_of_ne_noWord hscan.small hsome
    have hkeep := (pgPacketWrite_spec burn (hnat.symm ▸ hoff) fuel hwords r.newdata ht hs).1
    exact ⟨hkeep,fun hok => absurd hok hw⟩
  | case4 offset idx s hlt =>
    refine ⟨fun _ _ => rfl,fun _ hprev => ⟨ht,?_⟩⟩
    funext a
    rw [hprev a]
    split_ifs with ha
    · rfl
    · have hdone := h.done (by have := h.le; omega)
      exact (if_neg (by omega)).symm

theorem writeSections_fuel (burn : Burn) {fuel : ℕ} (hfuel : availableEfuseBytesTotal ≤ fuel)
    (hmap : addr + cnts ≤ efuseMapLen) (idx : ℕ) {s : EfuseHal} (h : AtSection addr cnts offset idx)
    (ht : TidyCells s.cells) (hs : s.Stored) :
    writeSections burn (fuel + 2) map addr cnts data offset idx s =
      writeSections burn (fuel + 1) map addr cnts data offset idx s := by
  induction hn : cnts - idx using Nat.strong_induction_on generalizing offset idx s with
  | _ n ih =>
    unfold writeSections
    by_cases hlt : idx < cnts
    · have hscan : Scanned map (overwrite map addr cnts data) offset 8 (startSection map addr cnts data offset idx) :=
        startSection_scanned h hlt
      have hstep := lt_startSection_idx map addr data offset hlt
      have hnext : AtSection addr cnts (offset + 1) (startSection map addr cnts data offset idx).idx := h.next hlt
      rw [dif_pos hlt, dif_pos hlt]
      dsimp only
      by_cases hnone : (startSection map addr cnts data offset idx).wordEn = 0x0F
      · rw [if_pos hnone, if_pos hnone]
        exact ih _ (by omega) _ hnext ht hs rfl
      · have hoff : (UInt8.ofNat offset).toNat < 64 := by
          rw [h.toNat_offset hlt hmap]
          exact h.offset_lt hlt hmap
        have hwords := lt_of_ne_noWord hscan.small hnone
        have hwrite :=
          pgPacketWrite_fuel burn hoff fuel hwords (startSection map addr cnts data offset idx).newdata ht hs
          (hfuel.trans (Nat.le_add_right _ _))
        have hwritten := (pgPacketWrite_spec burn hoff (fuel + 1) hwords
          (startSection map addr cnts data offset idx).newdata ht hs).2
        rw [if_neg hnone, if_neg hnone, hwrite]
        split_ifs with hok
        · exact ih _ (by omega) _ hnext (hwritten hok).tidy (hwritten hok).stored rfl
        · rfl
    · rw [dif_neg hlt, dif_neg hlt]

end Sections

section MapWrite
variable {s : EfuseHal} (burn : Burn) (masked : ℕ → Bool) (addr cnts : ℕ) (data : ℕ → UInt8)

/-- What the sections are written to: the efuse that was read, with its size -/
theorem mapWrite_cases (ht : TidyCells s.cells) :
    (∃ t : EfuseHal, t.cells = s.cells ∧ ∀ fuel, mapWrite burn fuel masked addr cnts data s = (t,false)) ∨
      ∃ t : EfuseHal, addr + cnts ≤ efuseMapLen ∧ t.cells = s.cells ∧ t.Stored ∧
        ∀ fuel, mapWrite burn fuel masked addr cnts data s =
          writeSections burn fuel s.map addr cnts (maskData masked s.map addr data) (addr / 8) 0 t := by
  unfold mapWrite
  by_cases hlen : efuseMapLen < addr + cnts
  · exact Or.inl ⟨s,rfl,fun _ => if_pos hlen⟩
  simp only [if_neg hlen]
  have hused : (halReadEFuseWiFi s.cells).used = s.stop ∨
      availableEfuseBytesTotal ≤ (halReadEFuseWiFi s.cells).used ∧ (halReadEFuseWiFi s.cells).used ≠ 0 := by
    have hread := halReadEFuseWiFi_used s.cells
    split_ifs at hread with hlt
    · exact Or.inl hread
    · right
      rw [hread]
      simp only [efuseRealContentLen, availableEfuseBytesTotal] at hlt ⊢
      omega
  have hread : mapRead s = (s.map,{ s with used := (halReadEFuseWiFi s.cells).used }) := rfl
  simp only [hread]
  generalize chkTotalByte s.map addr cnts (maskData masked s.map addr data) (addr / 8) 0 = total
  by_cases hzero : (halReadEFuseWiFi s.cells).used = 0
  · have hstored : EfuseHal.Stored { s with used := (halReadEFuseWiFi s.cells).used } :=
      Or.inl (hused.resolve_right fun h => h.2 hzero)
    simp only [if_pos hzero]
    by_cases hfull : availableEfuseBytesTotal ≤
        (getCurrentSize { s with used := (halReadEFuseWiFi s.cells).used }).used + total
    · exact Or.inl ⟨getCurrentSize { s with used := (halReadEFuseWiFi s.cells).used },rfl,fun _ => if_pos hfull⟩
    · exact Or.inr ⟨getCurrentSize { s with used := (halReadEFuseWiFi s.cells).used },not_lt.mp hlen,rfl,
        Or.inl (getCurrentSize_used ht hstored),fun _ => if_neg hfull⟩
  · simp only [if_neg hzero]
    by_cases hfull : availableEfuseBytesTotal ≤ (halReadEFuseWiFi s.cells).used + total
    · exact Or.inl ⟨{ s with used := (halReadEFuseWiFi s.cells).used },rfl,fun _ => if_pos hfull⟩
    · refine Or.inr ⟨{ s with used := (halReadEFuseWiFi s.cells).used },not_lt.mp hlen,rfl,Or.inl ?_,fun _ =>
        if_neg hfull⟩
      exact hused.resolve_right fun h => hfull (h.1.trans (Nat.le_add_right _ _))

theorem atSection_first (addr cnts : ℕ) : AtSection addr cnts (addr / 8) 0 :=
  ⟨Nat.zero_le _,fun _ => ⟨rfl,Or.inl rfl⟩,fun h => Or.inl h.symm⟩

/-- The efuse has no room for more packets than `fuel` allows. -/
theorem mapWrite_fuel {fuel : ℕ} (hfuel : availableEfuseBytesTotal ≤ fuel) (ht : TidyCells s.cells) :
    mapWrite burn (fuel + 1) masked addr cnts data s =
      mapWrite burn (availableEfuseBytesTotal + 1) masked addr cnts data s := by
  induction fuel, hfuel using Nat.le_induction with
  | base => rfl
  | succ fuel hfuel ih =>
    rw [← ih]
    rcases mapWrite_cases burn masked addr cnts data ht with ⟨t,-,heq⟩ | ⟨t,hlen,hcells,hstored,heq⟩
    · rw [heq, heq]
    · rw [heq, heq]
      exact writeSections_fuel burn hfuel hlen 0 (atSection_first addr cnts) (hcells.symm ▸ ht) hstored

/-- `rtw_efuse_map_write` writes behind the packets only; when it reports success the bytes that are not masked are read
back and all others are as before. -/
theorem mapWrite_spec (fuel : ℕ) (ht : TidyCells s.cells) :
    (∀ x < s.stop, (mapWrite burn fuel masked addr cnts data s).1.cells x = s.cells x) ∧
      ((mapWrite burn fuel masked addr cnts data s).2 = true →
        TidyCells (mapWrite burn fuel masked addr cnts data s).1.cells ∧
          (mapWrite burn fuel masked addr cnts data s).1.map =
            overwrite s.map addr cnts (maskData masked s.map addr data)) := by
  rcases mapWrite_cases burn masked addr cnts data ht with ⟨t,hcells,heq⟩ | ⟨t,hlen,hcells,hstored,heq⟩
  · rw [heq]
    refine ⟨fun x _ => by rw [hcells],fun hok => ?_⟩
    cases hok
  · have hmap : t.map = s.map := by rw [EfuseHal.map, hcells, EfuseHal.map]
    have hstop : t.stop = s.stop := by rw [EfuseHal.stop, hcells, EfuseHal.stop]
    obtain ⟨hkeep,hdone⟩ :=
      @writeSections_spec s.map (maskData masked s.map addr data) addr cnts (addr / 8) burn fuel hlen
      0 t (atSection_first addr cnts) (hcells.symm ▸ ht) hstored
    rw [heq, ← hstop, ← hcells]
    refine ⟨hkeep,fun hok => hdone hok fun a => ?_⟩
    rw [hmap, overwrite]
    split_ifs with hbefore hin
    · omega
    · rfl
    · rfl

end MapWrite

/-- A call of `rtw_efuse_map_write` -/
structure MapWrite where
  masked : ℕ → Bool
  addr : ℕ
  cnts : ℕ
  data : ℕ → UInt8

def MapWrite.step (burn : Burn) (fuel : ℕ) (s : EfuseHal) (w : MapWrite) : EfuseHal :=
  (mapWrite burn fuel w.masked w.addr w.cnts w.data s).1

def MapWrite.Succeeds (burn : Burn) (fuel : ℕ) (s : EfuseHal) (w : MapWrite) : Prop :=
  (mapWrite burn fuel w.masked w.addr w.cnts w.data s).2 = true

/-- What a call is for: the bytes that are not masked get new values. -/
def MapWrite.apply (map : ℕ → UInt8) (w : MapWrite) (a : ℕ) : UInt8 :=
  if w.addr ≤ a ∧ a < w.addr + w.cnts ∧ w.masked a = false then w.data (a - w.addr) else map a

theorem overwrite_maskData (map : ℕ → UInt8) (w : MapWrite) :
    overwrite map w.addr w.cnts (maskData w.masked map w.addr w.data) = w.apply map := by
  funext a
  unfold overwrite maskData MapWrite.apply
  by_cases hin : w.addr ≤ a ∧ a < w.addr + w.cnts
  · have hplace : w.addr + (a - w.addr) = a := by omega
    rw [if_pos hin, hplace]
    cases hm : w.masked a <;> simp [hin]
  · rw [if_neg hin, if_neg fun h => hin ⟨h.1,h.2.1⟩]

/-- In every run of calls that report success, whatever the efuse makes of single writes in between, the efuse reads as
the calls were meant, one after the other, and is fit for the next. -/
theorem efuse_reads_back (burn : Burn) (fuel : ℕ) {s : EfuseHal} (ht : TidyCells s.cells) (writes : List MapWrite)
    (h : Run.Safe (MapWrite.step burn fuel) (MapWrite.Succeeds burn fuel) s writes) :
    TidyCells (Run.run (MapWrite.step burn fuel) s writes).cells ∧
      (Run.run (MapWrite.step burn fuel) s writes).map = writes.foldl MapWrite.apply s.map := by
  have hkeep : ∀ (past : List MapWrite) (t : EfuseHal) (w : MapWrite), MapWrite.Succeeds burn fuel t w →
      TidyCells t.cells ∧ t.map = past.foldl MapWrite.apply s.map →
      TidyCells (MapWrite.step burn fuel t w).cells ∧
        (MapWrite.step burn fuel t w).map = (past ++ [w]).foldl MapWrite.apply s.map := by
    rintro past t w hok ⟨htidy,hmap⟩
    obtain ⟨htidy',hmap'⟩ := (mapWrite_spec burn w.masked w.addr w.cnts w.data fuel htidy).2 hok
    refine ⟨htidy',?_⟩
    rw [List.foldl_append, List.foldl_cons, List.foldl_nil, ← hmap, ← overwrite_maskData]
    exact hmap'
  have hinit : TidyCells s.cells ∧ s.map = ([] : List MapWrite).foldl MapWrite.apply s.map := ⟨ht,rfl⟩
  exact h.history (fun past (t : EfuseHal) => TidyCells t.cells ∧ t.map = past.foldl MapWrite.apply s.map) hkeep hinit

section TwoWrites

theorem tidy_blank : TidyCells fun _ => 0xFF := by
  have hnone : (readScanner fun _ => 0xFF).next 0 = none := by
    change readNext (fun _ => 0xFF) 0 = none
    exact readNext_none_iff.mpr fun _ => rfl
  refine ⟨?_,fun _ _ _ => rfl⟩
  rw [Scanner.records_of_none hnone]
  exact List.forall_mem_nil _

theorem startSection_byte {map : ℕ → UInt8} {d : UInt8} (h : d ≠ map 3) :
    startSection map 3 1 (fun _ => d) 0 0 = ⟨1,0x0D,Function.update (fun i => map (0 * 8 + i)) 3 d⟩ := by
  have hone : (3 + 0) % 8 < 8 ∧ 0 < 1 := by decide
  have hend : ¬ ((3 + 0) % 8 + 1 < 8 ∧ 0 + 1 < 1) := by decide
  rw [startSection, scanSection]
  dsimp only
  rw [if_pos hone, if_pos h, scanSection]
  exact if_neg hend

theorem chkTotalByte_byte {map : ℕ → UInt8} {d : UInt8} (h : d ≠ map 3) :
    chkTotalByte map 3 1 (fun _ => d) (3 / 8) 0 = 3 := by
  have hfirst : 3 / 8 = 0 := rfl
  unfold chkTotalByte
  rw [dif_pos (by decide), hfirst, startSection_byte h]
  dsimp only
  unfold chkTotalByte
  rw [dif_neg (by decide)]
  rfl

theorem writeSections_byte (burn : Burn) (fuel : ℕ) {map : ℕ → UInt8} {d : UInt8} (h : d ≠ map 3)
    (s : EfuseHal) :
    writeSections burn fuel map 3 1 (fun _ => d) (3 / 8) 0 s =
      pgPacketWrite burn fuel 0 0x0D (Function.update (fun i => map (0 * 8 + i)) 3 d) s := by
  have hfirst : 3 / 8 = 0 := rfl
  have hword : ¬ (0x0D : UInt8) = 0x0F := by decide
  have hoffset : UInt8.ofNat 0 = 0 := rfl
  unfold writeSections
  rw [dif_pos (by decide), hfirst, startSection_byte h]
  dsimp only
  rw [if_neg hword, hoffset]
  split_ifs with hok
  · unfold writeSections
    rw [dif_neg (by decide), ← hok]
  · rfl

theorem mapWrite_byte (burn : Burn) (fuel : ℕ) {d : UInt8} {s t : EfuseHal} {r : ReadState}
    (hr : halReadEFuseWiFi s.cells = r) (hd : d ≠ r.efuseTbl 3)
    (hsize : (if r.used = 0 then getCurrentSize { s with used := r.used } else { s with used := r.used }) = t)
    (hroom : t.used + 3 < availableEfuseBytesTotal) :
    mapWrite burn fuel (fun _ => false) 3 1 (fun _ => d) s =
      pgPacketWrite burn fuel 0 0x0D (Function.update (fun i => r.efuseTbl (0 * 8 + i)) 3 d) t := by
  have hmask : maskData (fun _ => false) r.efuseTbl 3 (fun _ => d) = fun _ => d := rfl
  have hread : mapRead s = (r.efuseTbl,{ s with used := r.used }) := by rw [mapRead, hr]
  unfold mapWrite
  rw [if_neg (by decide), hread]
  dsimp only
  rw [hmask, chkTotalByte_byte hd, hsize, if_neg (not_le.mpr hroom), writeSections_byte burn fuel hd]

/-- The third write of all fails. -/
def weakBurn : Burn := fun n d => if n = 2 then 0xFF else d

def onePacket : Efuse := Function.update (Function.update (Function.update (fun _ => 0xFF) 0 0x0D) 1 0xFF) 2 0xFF
def twoPackets : Efuse := Function.update (Function.update (Function.update onePacket 3 0x0D) 4 0xFF) 5 7

theorem halReadEFuseWiFi_blank : (halReadEFuseWiFi fun _ => 0xFF) = ⟨1,fun _ => 0xFF,[]⟩ := by
  rw [halReadEFuseWiFi, readEFuseLoop]
  rfl

theorem getCurrentSize_blank : getCurrentSize ⟨fun _ => 0xFF,0,0⟩ = ⟨fun _ => 0xFF,0,0⟩ := by
  rw [getCurrentSize, halEfuseGetCurrentSizeWiFi, getCurrentSizeLoop]
  rfl

theorem getCurrentSize_onePacket : getCurrentSize ⟨onePacket,0,3⟩ = ⟨onePacket,3,3⟩ := by
  have hstep : getCurrentSizeLoop onePacket 0 0 0 =
      ((getCurrentSizeLoop onePacket 3 0 0).1,(0,3) :: (getCurrentSizeLoop onePacket 3 0 0).2) := by
    rw [getCurrentSizeLoop]
    rfl
  have hend : getCurrentSizeLoop onePacket 3 0 0 = (3,[]) := by
    rw [getCurrentSizeLoop]
    rfl
  rw [getCurrentSize, halEfuseGetCurrentSizeWiFi, hstep, hend]

theorem getCurrentSize_twoPackets : getCurrentSize ⟨twoPackets,6,6⟩ = ⟨twoPackets,6,6⟩ := by
  rw [getCurrentSize, halEfuseGetCurrentSizeWiFi, getCurrentSizeLoop]
  rfl

def twoPacketsMap : ℕ → UInt8 :=
  (readWords twoPackets 0x0D 0 (4,(readWords twoPackets 0x0D 0 (1,fun _ => 0xFF)).2)).2

theorem halReadEFuseWiFi_twoPackets : halReadEFuseWiFi twoPackets = ⟨7,twoPacketsMap,[(0,3),(3,6)]⟩ := by
  have hfirst : ∀ tbl, readEFuseLoop twoPackets 0 tbl =
      (readEFuseLoop twoPackets 3 (readWords twoPackets 0x0D 0 (1,tbl)).2).take 0 3 := by
    intro tbl
    rw [readEFuseLoop]
    rfl
  have hsecond : ∀ tbl, readEFuseLoop twoPackets 3 tbl =
      (readEFuseLoop twoPackets 6 (readWords twoPackets 0x0D 0 (4,tbl)).2).take 3 6 := by
    intro tbl
    rw [readEFuseLoop]
    rfl
  have hend : ∀ tbl, readEFuseLoop twoPackets 6 tbl = ⟨7,tbl,[]⟩ := by
    intro tbl
    rw [readEFuseLoop]
    rfl
  rw [halReadEFuseWiFi, hfirst, hsecond, hend]
  rfl

/-- The word that is not read back goes into a packet of its own. -/
theorem mapWrite_blank :
    mapWrite weakBurn 3 (fun _ => false) 3 1 (fun _ => 7) ⟨fun _ => 0xFF,0,0⟩ = (⟨twoPackets,3,6⟩,true) := by
  rw [mapWrite_byte weakBurn 3 halReadEFuseWiFi_blank (by decide) ((if_pos rfl).trans getCurrentSize_blank) (by decide)]
  have hagain : pgPacketWrite weakBurn 3 0 0x0D (Function.update (fun _ => 0xFF) 3 7) ⟨fun _ => 0xFF,0,0⟩ =
      pgPacketWrite weakBurn 2 0 0x0D (wordEnableDataRead 0x0D (Function.update (fun _ => 0xFF) 3 7))
        ⟨onePacket,0,3⟩ := by
    rw [pgPacketWrite]
    simp only [getCurrentSize_blank]
    rfl
  rw [hagain, pgPacketWrite]
  simp only [getCurrentSize_onePacket]
  rfl

theorem mapWrite_twoPackets :
    (mapWrite weakBurn 3 (fun _ => false) 3 1 (fun _ => 9) ⟨twoPackets,3,6⟩).2 = true := by
  rw [mapWrite_byte weakBurn 3 halReadEFuseWiFi_twoPackets (by decide) (if_neg (by decide)) (by decide), pgPacketWrite]
  simp only [ReadState.used, Nat.reduceSub, getCurrentSize_twoPackets]
  rfl

theorem tidy_twoPackets : TidyCells twoPackets := by
  have hdone := (mapWrite_spec weakBurn (fun _ => false) 3 1 (fun _ => 7) 3 (s := ⟨fun _ => 0xFF,0,0⟩) tidy_blank).2
  rw [mapWrite_blank] at hdone
  exact (hdone rfl).1

end TwoWrites

/-- A byte is written into a blank efuse, with a word that is not read back, and once more with another value. -/
theorem efuse_reads_back_twice :
    let s : EfuseHal := ⟨fun _ => 0xFF,0,0⟩
    let first : MapWrite := ⟨fun _ => false,3,1,fun _ => 7⟩
    let second : MapWrite := ⟨fun _ => false,3,1,fun _ => 9⟩
    let t := second.step weakBurn 3 (first.step weakBurn 3 s)
    TidyCells t.cells ∧ t.map = second.apply (first.apply s.map) := by
  refine efuse_reads_back weakBurn 3 tidy_blank
    [⟨fun _ => false,3,1,fun _ => 7⟩,⟨fun _ => false,3,1,fun _ => 9⟩] ?_
  refine ⟨congrArg Prod.snd mapWrite_blank,?_,trivial⟩
  rw [MapWrite.step, mapWrite_blank]
  exact mapWrite_twoPackets

/-- Whatever comes of a call, and whatever the efuse makes of its writes: no byte of a packet that was there is written,
and the packets that were there are the first of those that are read afterwards. -/
theorem packets_kept (burn : Burn) (fuel : ℕ) (w : MapWrite) {s : EfuseHal} (ht : TidyCells s.cells) :
    (∀ x < (halReadEFuseWiFi s.cells).pktsEnd, (MapWrite.step burn fuel s w).cells x = s.cells x) ∧
      (halReadEFuseWiFi s.cells).pkts <+: (halReadEFuseWiFi (MapWrite.step burn fuel s w).cells).pkts := by
  have hkeep := (mapWrite_spec burn w.masked w.addr w.cnts w.data fuel ht).1
  have hcells : ∀ x < (readScanner s.cells).stop 0, (MapWrite.step burn fuel s w).cells x = s.cells x := hkeep
  rw [halReadEFuseWiFi_pktsEnd, halReadEFuseWiFi_pkts, halReadEFuseWiFi_pkts]
  refine ⟨hcells,?_⟩
  generalize (MapWrite.step burn fuel s w).cells = f at hcells
  have hall : ∀ r ∈ (readScanner s.cells).records 0, (readScanner f).next r.1 = some r.2 := by
    intro r hr
    obtain ⟨hnext,-,hstop⟩ := Scanner.mem_records hr
    exact readNext_congr hnext fun x hx => hcells x (by omega)
  cases hmore : (readScanner f).next ((readScanner s.cells).stop 0) with
  | none =>
    rw [Scanner.records_eq_iff.mpr ⟨hall,hmore⟩]
  | some c =>
    rw [Scanner.records_append hall hmore]
    exact List.prefix_append _ _

/-- A call on an efuse that holds two packets -/
theorem packets_kept_two :
    let s : EfuseHal := ⟨twoPackets,3,6⟩
    let t := MapWrite.step weakBurn 3 s ⟨fun _ => false,3,1,fun _ => 9⟩
    (∀ x < 6, t.cells x = twoPackets x) ∧ [(0,3),(3,6)] <+: (halReadEFuseWiFi t.cells).pkts := by
  have hkept := packets_kept (s := ⟨twoPackets,3,6⟩) weakBurn 3 ⟨fun _ => false,3,1,fun _ => 9⟩ tidy_twoPackets
  rw [halReadEFuseWiFi_twoPackets] at hkept
  exact hkept

end Rtl8188fu
