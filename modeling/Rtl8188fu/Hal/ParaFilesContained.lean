import Rtl8188fu.Hal.BbPgFits

/-! # Parsers of parameter files and the memory that they are given

A parameter file lies in a buffer of fixed size with zeros behind it, encrypted or not. Each parser comes to its end
inside of its memory exactly when the lines that it comes to fit.
-/
namespace Rtl8188fu
open Bytes Logged

/-- A file that leaves room for a zero -/
structure ParaFile where
  content : List UInt8
  short : content.length < MAX_PARA_FILE_BUF_LEN

/-- `para_file_buf`, which is cleared before the file is read -/
def ParaFile.buffer (file : ParaFile) : List UInt8 :=
  file.content ++ List.replicate (MAX_PARA_FILE_BUF_LEN - file.content.length) 0

/-- A parser, with `RegDecryptCustomFile` or without it -/
def parseParaFile {ρ : Type} (regDecryptCustomFile : Bool) (parse : List UInt8 → Logged ParaAccess ρ)
    (buf : List UInt8) :
    Logged ParaAccess ρ :=
  if regDecryptCustomFile then (phyDecryptBBPgParaFile buf).andThen parse else parse buf

/-- The character that the map is asked for, with the places of line and character added up -/
def currentChar (k : ℕ) (c : UInt8) : UInt8 := c - UInt8.ofNat (k * 3 % 128)

/-- The map has an entry for it. -/
def InMap (k : ℕ) (c : UInt8) : Prop := 32 ≤ currentChar k c ∧ currentChar k c ≤ 126

/-- All characters up to the first zero are in the map, from character `j` of line `i` on. -/
def DecryptFits : ℕ → ℕ → List UInt8 → Prop
  | _, _, [] => False
  | i, j, c :: cs =>
    if c = 0 then True else if isLineEnd c = true then DecryptFits (if j ≠ 0 then i + 1 else i) 0 cs
    else InMap (i + j) c ∧ DecryptFits i (j + 1) cs

/-- What decryption leaves in the buffer: line feeds where lines end, also in the place of the first zero -/
def decrypted : ℕ → ℕ → List UInt8 → List UInt8
  | _, _, [] => []
  | i, j, c :: cs =>
    if c = 0 then 10 :: cs else if isLineEnd c = true then 10 :: decrypted (if j ≠ 0 then i + 1 else i) 0 cs
    else (94 - (currentChar (i + j) c - 32) + 32) :: decrypted i (j + 1) cs

/-- Decryption, when there is one, finds all characters in its map, and each line that the parser comes to ends in the
buffer and fits the state that the parser is in. -/
def ParaFile.Fits {σ ρ : Type} (file : ParaFile) (line : σ → List UInt8 → Logged ParaAccess (ρ ⊕ σ))
    (fits : σ → List UInt8 → Prop) (s : σ) (regDecryptCustomFile : Bool) : Prop :=
  if regDecryptCustomFile then DecryptFits 0 0 file.buffer ∧ EachLine line fits s (decrypted 0 0 file.buffer)
  else EachLine line fits s file.buffer

section Decryption
variable {α : Type} {buf l rest : List UInt8} {i j fuel : ℕ} {c : UInt8}

theorem contained_decryptChar_andThen {f : UInt8 → Logged ParaAccess α} :
    Contained ((decryptChar i j c).andThen f) ↔
    InMap (i + j) c ∧ Contained (f (94 - (currentChar (i + j) c - 32) + 32)) := by
  rw [decryptChar, andThen_assoc, Contained, completes_emit_andThen, ← currentChar]
  have hmap : (∀ e ∈ [ParaAccess.array ((currentChar (i + j) c).toNat - 32 : ℤ) DECRYPT_MAP_LEN], e.Inside) ↔
      InMap (i + j) c := by
    rw [List.forall_mem_singleton, ParaAccess.Inside, InMap, UInt8.le_iff_toNat_le, UInt8.le_iff_toNat_le]
    show _ ↔ 32 ≤ _ ∧ _ ≤ 126
    rw [DECRYPT_MAP_LEN]
    omega
  rw [hmap]
  refine and_congr_right fun h => ?_
  have hin : 32 ≤ currentChar (i + j) c ∧ currentChar (i + j) c ≤ 126 := h
  rw [if_pos hin, ret_andThen]

/-- Characters of one line in front of what is left of it -/
theorem contained_decryptChars_andThen (hl : ∀ a ∈ l, isLineEnd a = false ∧ a ≠ 0)
    {f : List UInt8 → Logged ParaAccess α} :
    Contained ((decryptChars i j l).andThen fun line => f (line ++ decrypted i (j + l.length) rest)) ∧
        DecryptFits i (j + l.length) rest ↔
      DecryptFits i j (l ++ rest) ∧ Contained (f (decrypted i j (l ++ rest))) := by
  induction l generalizing j f with
  | nil => exact and_comm
  | cons c l ih =>
    obtain ⟨hend,hzero⟩ := hl c List.mem_cons_self
    have hcons : DecryptFits i j (c :: l ++ rest) ↔ InMap (i + j) c ∧ DecryptFits i (j + 1) (l ++ rest) := by
      rw [List.cons_append, DecryptFits, if_neg hzero, if_neg (Bool.not_eq_true _ ▸ hend)]
    have hline : decrypted i j (c :: l ++ rest) =
        (94 - (currentChar (i + j) c - 32) + 32) :: decrypted i (j + 1) (l ++ rest) := by
      rw [List.cons_append, decrypted, if_neg hzero, if_neg (Bool.not_eq_true _ ▸ hend)]
    have hrest := @ih (j + 1) (fun a ha => hl a (List.mem_cons_of_mem _ ha))
      (fun line => f ((94 - (currentChar (i + j) c - 32) + 32) :: line))
    have hlength : j + (c :: l).length = j + 1 + l.length := by
      rw [List.length_cons]
      omega
    rw [hcons, hline, decryptChars, andThen_assoc, contained_decryptChar_andThen, hlength, and_assoc,
      and_assoc, ← hrest, andThen_assoc]
    rfl

theorem DecryptFits.lineEnds (h : DecryptFits i j buf) : LineEnds buf := by
  induction buf generalizing i j with
  | nil => exact h.elim
  | cons c cs ih =>
    by_cases hzero : c = 0
    · exact ⟨c,List.mem_cons_self,.inr hzero⟩
    · by_cases hend : isLineEnd c = true
      · exact ⟨c,List.mem_cons_self,.inl hend⟩
      · rw [DecryptFits, if_neg hzero, if_neg hend] at h
        obtain ⟨a,ha,haEnd⟩ := ih h.2
        exact ⟨a,List.mem_cons_of_mem c ha,haEnd⟩

theorem exists_line (h : LineEnds buf) : ∃ l c rest, buf = l ++ c :: rest ∧
    (∀ a ∈ l, isLineEnd a = false ∧ a ≠ 0) ∧
    (isLineEnd c = true ∨ c = 0) := by
  induction buf with
  | nil =>
    obtain ⟨a,ha,-⟩ := h
    cases ha
  | cons c cs ih =>
    by_cases hc : isLineEnd c = true ∨ c = 0
    · exact ⟨[],c,cs,rfl,List.forall_mem_nil _,hc⟩
    · have hrest : LineEnds cs := by
        obtain ⟨a,ha,haEnd⟩ := h
        rcases List.mem_cons.mp ha with rfl | ha
        · exact absurd haEnd hc
        · exact ⟨a,ha,haEnd⟩
      obtain ⟨l,d,rest,rfl,hl,hd⟩ := ih hrest
      obtain ⟨hend,hzero⟩ := not_or.mp hc
      exact ⟨c :: l,d,rest,rfl,List.forall_mem_cons.mpr ⟨⟨Bool.not_eq_true _ ▸ hend,hzero⟩,hl⟩,hd⟩

theorem scanEnd_of_append {p : UInt8 → Bool} (hl : ∀ a ∈ l, p a = true) (hc : p c = false) :
    scanEnd p (l ++ c :: rest) 0 = l.length := by
  have htake : (l ++ c :: rest).takeWhile p = l := by
    rw [List.takeWhile_append_of_pos hl, List.takeWhile_cons_of_neg (by rw [hc]; decide), List.append_nil]
  rw [scanEnd, List.drop_zero, htake, Nat.zero_add]

theorem byteAt_length (l rest : List UInt8) (c : UInt8) : byteAt (l ++ c :: rest) l.length = c := by
  rw [byteAt, List.getD_append_right _ _ _ _ le_rfl, Nat.sub_self]
  rfl

theorem lineEnd_append (hl : ∀ a ∈ l, isLineEnd a = false ∧ a ≠ 0) (hc : isLineEnd c = true ∨ c = 0) :
    lineEnd (l ++ c :: rest) = l.length := by
  refine scanEnd_of_append (fun a ha => ?_) ?_
  · obtain ⟨hend,hzero⟩ := hl a ha
    simp [hend, hzero]
  · rcases hc with hc | hc <;> simp [hc]

theorem lineMem_append (hl : ∀ a ∈ l, isLineEnd a = false ∧ a ≠ 0) (hc : isLineEnd c = true ∨ c = 0) :
    lineMem (l ++ c :: rest) = l ++ 0 :: rest := by
  rw [lineMem, lineEnd_append hl hc, List.set_append_right _ _ le_rfl, Nat.sub_self]
  rfl

theorem behindLine_append (hl : ∀ a ∈ l, isLineEnd a = false ∧ a ≠ 0) (hc : isLineEnd c = true ∨ c = 0) :
    behindLine (l ++ c :: rest) = if c = 0 then none else some rest := by
  rw [behindLine, lineEnd_append hl hc, byteAt_length, List.drop_append, List.drop_eq_nil_of_le (by omega)]
  simp

theorem contained_andThen_and {β : Type} {x : Logged ParaAccess β} {g h : β → Logged ParaAccess α} {q : Prop}
    (hg : ∀ a, Contained (g a) ↔ q ∧ Contained (h a)) : Contained (x.andThen g) ↔
    q ∧ Contained (x.andThen h) := by
  rw [Contained, Contained, completes_andThen, completes_andThen]
  constructor
  · rintro ⟨hx,hall⟩
    obtain ⟨a,ha⟩ := hx
    exact ⟨((hg a).mp (hall a ha.result)).1,⟨a,ha⟩,fun b hb => ((hg b).mp (hall b hb)).2⟩
  · rintro ⟨hq,hx,hall⟩
    exact ⟨hx,fun b hb => (hg b).mpr ⟨hq,hall b hb⟩⟩

/-- Decryption comes to its end exactly when all characters are in the map, and then it has decrypted them. -/
theorem contained_decryptLines_andThen (hfuel : buf.length < fuel) {f : List UInt8 → Logged ParaAccess α} :
    Contained ((decryptLines fuel i buf).andThen f) ↔ DecryptFits i 0 buf ∧ Contained (f (decrypted i 0 buf)) := by
  induction fuel generalizing i buf f with
  | zero => omega
  | succ fuel ih =>
    rw [decryptLines, andThen_assoc, contained_getLineFromBuffer_andThen]
    by_cases hends : LineEnds buf
    · obtain ⟨l,c,rest,rfl,hl,hc⟩ := exists_line hends
      have hlength : scanEnd (· != 0) (l ++ 0 :: rest) 0 = l.length :=
        scanEnd_of_append (fun a ha => bne_iff_ne.mpr (hl a ha).2) (bne_self_eq_false _)
      have hstops : StopsIn (· != 0) (l ++ 0 :: rest) 0 :=
        stopsIn_of_zero_mem (bne_self_eq_false _) (List.mem_append_right l List.mem_cons_self)
      have hline : (l ++ 0 :: rest).take l.length = l := List.take_left
      have hbehind : (l ++ 0 :: rest).drop (l.length + 1) = rest := by simp [List.drop_append]
      rw [and_iff_right hends, lineMem_append hl hc, behindLine_append hl hc]
      dsimp only
      rw [lineLength, andThen_assoc, contained_scanWhile_andThen, and_iff_right hstops, hlength, hline, hbehind,
        andThen_assoc, ← contained_decryptChars_andThen hl, Nat.zero_add]
      by_cases hzero : c = 0
      · subst hzero
        have hfits : DecryptFits i l.length (0 :: rest) := by
          rw [DecryptFits, if_pos rfl]
          trivial
        rw [if_pos rfl, and_iff_left hfits, decrypted, if_pos rfl]
        rfl
      · have hend := hc.resolve_right hzero
        rw [List.length_append, List.length_cons] at hfuel
        rw [if_neg hzero, DecryptFits, if_neg hzero, if_pos hend, decrypted, if_neg hzero, if_pos hend, and_comm]
        refine contained_andThen_and fun line => ?_
        dsimp only
        rw [andThen_assoc, ih (by omega), ret_andThen]
    · exact iff_of_false (fun h => hends h.1) fun h => hends h.1.lineEnds

end Decryption

/-- Lines that are treated one by one, over the whole file -/
theorem contained_parseParaFile_iff {σ ρ : Type} {line : σ → List UInt8 → Logged ParaAccess (ρ ⊕ σ)}
    {fits : σ → List UInt8 → Prop} (hline : ∀ s mem, 0 ∈ mem → (Contained (line s mem) ↔ fits s mem))
    (last : σ → ρ) (s : σ)
    (regDecryptCustomFile : Bool) (file : ParaFile) :
    Contained (parseParaFile regDecryptCustomFile (fun buf => overLines line last (buf.length + 1) s buf)
      file.buffer) ↔
      file.Fits line fits s regDecryptCustomFile := by
  rw [parseParaFile, ParaFile.Fits]
  cases regDecryptCustomFile with
  | false =>
    rw [if_neg Bool.noConfusion, if_neg Bool.noConfusion]
    exact contained_overLines_iff hline (Nat.lt_succ_self _)
  | true =>
    rw [if_pos rfl, if_pos rfl, phyDecryptBBPgParaFile, contained_decryptLines_andThen (Nat.lt_succ_self _)]
    exact and_congr_right fun _ => contained_overLines_iff hline (Nat.lt_succ_self _)

/-- Both parsers stay inside exactly on files that fit them. -/
theorem paraFiles_contained_iff (limits : TxPwrLimits) (regDecryptCustomFile : Bool) (file : ParaFile) :
    (Contained (parseParaFile regDecryptCustomFile (phyParsePowerLimitTableFile limits) file.buffer) ↔
      file.Fits limitLine LimitLineFits ⟨.label,.init,limits⟩ regDecryptCustomFile) ∧
    (Contained (parseParaFile regDecryptCustomFile phyParseBBPgParaFile file.buffer) ↔
      file.Fits pgLine PgLineFits .init regDecryptCustomFile) :=
  ⟨contained_parseParaFile_iff (fun _ _ h => contained_limitLine_iff h) _ _ _ _,
    contained_parseParaFile_iff (fun _ _ h => contained_pgLine_iff h) _ _ _ _⟩

/-- A file that ends behind `##` -/
def hashesOnly : ParaFile := ⟨ascii "##",by decide +kernel⟩

/-- Where the band of a table is missing, the parser looks for its comma behind the buffer. -/
theorem comma_behind_buffer : ¬∀ (limits : TxPwrLimits) (regDecryptCustomFile : Bool) (file : ParaFile),
    Contained (parseParaFile regDecryptCustomFile (phyParsePowerLimitTableFile limits) file.buffer) ∧
      Contained (parseParaFile regDecryptCustomFile phyParseBBPgParaFile file.buffer) := by
  intro h
  obtain ⟨zeros,hzeros,hbuf⟩ : ∃ zeros, (∀ c ∈ zeros, c = 0) ∧
      hashesOnly.buffer = ascii "##" ++ 0 :: zeros :=
    ⟨List.replicate 25597 0,fun c hc => List.eq_of_mem_replicate hc,
      congrArg (ascii "##" ++ ·) (@List.replicate_succ UInt8 0 25597)⟩
  have hmem : lineMem hashesOnly.buffer = ascii "##" ++ 0 :: zeros := by
    rw [hbuf]
    exact lineMem_append (by decide +kernel) (.inr rfl)
  have hparse := (h phyInitTxPowerLimit false hashesOnly).1
  have hfits := ((contained_parseParaFile_iff (fun _ _ h => contained_limitLine_iff h) _ _ _ _).mp hparse _ .refl).2
  dsimp only at hfits
  rw [hmem] at hfits
  have hskip : ¬Skipped (ascii "##" ++ 0 :: zeros) := by
    rintro (h | h | ⟨h,-⟩) <;> cases h
  have hlabels := hfits hskip ⟨rfl,rfl⟩
  have hband : behindHashes (ascii "##" ++ 0 :: zeros) = 2 := rfl
  rw [hband] at hlabels
  have hcomma := (hlabels.2 rfl).1
  have hin := List.mem_of_mem_drop (List.mem_of_mem_take hcomma)
  rcases List.mem_or_eq_of_mem_set hin with hin | heq
  · rcases List.mem_append.mp hin with hin | hin
    · revert hin
      decide
    · rcases List.mem_cons.mp hin with heq | hin
      · cases heq
      · cases hzeros _ hin
  · cases heq

end Rtl8188fu
