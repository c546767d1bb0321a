import Rtl8188fu.Hal.ParaFile

/-! # When what is done to a parameter file stays inside

Each of the shared programs in terms of the memory that it is given: a loop has to find the character that it stops at,
a
token its array, and a comparison its bytes. Over the lines of a file, each line that is come to has to end and to fit.
-/
namespace Rtl8188fu
open Bytes Logged

/-- The loop comes to a character that it does not pass over. -/
def StopsIn (p : UInt8 → Bool) (mem : List UInt8) (i : ℕ) : Prop := ∃ c ∈ mem.drop i, p c = false

/-- Where it comes to it -/
def scanEnd (p : UInt8 → Bool) (mem : List UInt8) (i : ℕ) : ℕ := i + ((mem.drop i).takeWhile p).length

/-- The token in front of `right` fits into its array. -/
def TokenIn (mem : List UInt8) (i : ℕ) (right : UInt8) : Prop := right ∈ (mem.drop i).take (TOKEN_LEN + 1)

/-- The program comes to its end, and all its accesses are inside. -/
abbrev Contained {α : Type} (x : Logged ParaAccess α) : Prop := Completes ParaAccess.Inside x

section Programs
variable {α : Type} {mem str : List UInt8} {p : UInt8 → Bool} {i n : ℕ} {left right c : UInt8}

theorem stopsIn_iff : StopsIn p mem i ↔ scanEnd p mem i < mem.length := by
  have hlen : (mem.drop i).length = mem.length - i := List.length_drop
  have hle : ((mem.drop i).takeWhile p).length ≤ (mem.drop i).length := (List.takeWhile_sublist p).length_le
  have hall : (∀ c ∈ mem.drop i, p c = true) ↔ ((mem.drop i).takeWhile p).length = (mem.drop i).length := by
    rw [← List.takeWhile_eq_self_iff]
    exact ⟨congrArg List.length,fun h => (List.takeWhile_sublist p).eq_of_length h⟩
  have hnot : ¬StopsIn p mem i ↔ ∀ c ∈ mem.drop i, p c = true := by simp [StopsIn]
  rw [← not_iff_not, hnot, hall, scanEnd]
  omega

theorem contained_scanWhile : Contained (scanWhile p mem i) ↔ StopsIn p mem i := by
  rw [stopsIn_iff, scanEnd]
  constructor
  · rintro ⟨a,h⟩
    exact h.all _ (List.mem_map.mpr ⟨i + ((mem.drop i).takeWhile p).length,List.mem_range'_1.mpr (by omega),rfl⟩)
  · intro h
    refine ⟨_,rfl,fun e he => ?_⟩
    obtain ⟨k,hk,rfl⟩ := List.mem_map.mp he
    have hlt := List.mem_range'_1.mp hk
    show k < mem.length
    omega

theorem contained_scanWhile_andThen {f : ℕ → Logged ParaAccess α} :
    Contained ((scanWhile p mem i).andThen f) ↔ StopsIn p mem i ∧ Contained (f (scanEnd p mem i)) := by
  rw [Contained, completes_andThen, ← contained_scanWhile]
  refine and_congr_right fun _ => ⟨fun h => h _ rfl,?_⟩
  rintro h _ ⟨⟩
  exact h

theorem contained_readAt_andThen {f : UInt8 → Logged ParaAccess α} :
    Contained ((readAt mem i).andThen f) ↔ i < mem.length ∧ Contained (f (byteAt mem i)) := by
  rw [Contained, completes_andThen]
  constructor
  · rintro ⟨⟨a,h⟩,hf⟩
    exact ⟨h.all _ List.mem_cons_self,hf _ rfl⟩
  · rintro ⟨h,hf⟩
    refine ⟨⟨_,rfl,List.forall_mem_singleton.mpr h⟩,?_⟩
    rintro _ ⟨⟩
    exact hf

theorem contained_storeToken_andThen {f : Unit → Logged ParaAccess α} :
    Contained ((storeToken n).andThen f) ↔ n ≤ TOKEN_LEN ∧ Contained (f ()) := by
  have hstore : Completes ParaAccess.Inside (storeToken n) ↔ n ≤ TOKEN_LEN := by
    rw [storeToken, completes_emit_andThen]
    by_cases hn : n ≤ TOKEN_LEN
    · rw [if_pos hn]
      refine iff_of_true ⟨fun e he => ?_,completes_ret ()⟩ hn
      obtain ⟨k,hk,rfl⟩ := List.mem_map.mp he
      have hlt := List.mem_range.mp hk
      exact ⟨Int.natCast_nonneg k,by exact_mod_cast hlt.trans_le hn⟩
    · rw [if_neg hn]
      refine iff_of_false ?_ hn
      rintro ⟨-,a,h⟩
      cases h.result
  rw [Contained, completes_andThen, ← hstore]
  refine and_congr_right ?_
  rintro ⟨a,ha⟩
  exact ⟨fun h => h a ha.result,fun h _ _ => h⟩

theorem contained_eqNByte_andThen (hstr : str ≠ []) {f : Bool → Logged ParaAccess α} :
    Contained ((eqNByte mem i str).andThen f) ↔ i + str.length ≤ mem.length ∧
    Contained (f (slice mem i str.length = str)) := by
  have hpos := List.length_pos_iff.mpr hstr
  have hcompare : Completes ParaAccess.Inside (eqNByte mem i str) ↔ i + str.length ≤ mem.length := by
    constructor
    · rintro ⟨a,h⟩
      have hlast := h.all (.buffer (i + str.length - 1) mem.length)
        (List.mem_map.mpr ⟨i + str.length - 1,List.mem_range'_1.mpr (by omega),rfl⟩)
      have hlt : i + str.length - 1 < mem.length := hlast
      omega
    · intro h
      refine ⟨_,rfl,fun e he => ?_⟩
      obtain ⟨k,hk,rfl⟩ := List.mem_map.mp he
      have hlt := List.mem_range'_1.mp hk
      show k < mem.length
      omega
  rw [Contained, completes_andThen, hcompare]
  refine and_congr_right fun _ => ⟨fun h => h _ rfl,?_⟩
  rintro h _ ⟨⟩
  exact h

theorem mem_take_succ_iff {l : List UInt8} : right ∈ l.take (n + 1) ↔ (∃ c ∈ l, (c != right) = false) ∧
    (l.takeWhile (· != right)).length ≤ n := by
  induction l generalizing n with
  | nil => simp
  | cons c l ih =>
    by_cases hc : c = right
    · subst hc
      simp
    · have hne : (c != right) = true := bne_iff_ne.mpr hc
      have htake : (c :: l).takeWhile (· != right) = c :: l.takeWhile (· != right) := List.takeWhile_cons_of_pos hne
      rw [List.take_succ_cons, htake]
      cases n with
      | zero => simp [Ne.symm hc]
      | succ n =>
        have hrest := @ih n
        simp [Ne.symm hc] at hrest ⊢
        exact hrest

/-- The token is there with its qualifier exactly when the loop stops and the token fits. -/
theorem tokenIn_iff : TokenIn mem i right ↔
    StopsIn (· != right) mem i ∧ scanEnd (· != right) mem i - i ≤ TOKEN_LEN := by
  rw [TokenIn, mem_take_succ_iff, StopsIn, scanEnd, Nat.add_sub_cancel_left]

/-- Where the token ends, or `none` when the left qualifier is not there -/
theorem contained_parseQualifiedString_andThen {start : ℕ} {f : Option (List UInt8 × ℕ) → Logged ParaAccess α} :
    Contained ((parseQualifiedString mem start left right).andThen f) ↔ start < mem.length ∧
      if byteAt mem start = left then TokenIn mem (start + 1) right ∧
          Contained (f (some ((slice mem (start + 1)
            (scanEnd (· != right) mem (start + 1) - (start + 1))).takeWhile (· != 0),
            scanEnd (· != right) mem (start + 1) + 1)))
      else Contained (f none) := by
  rw [parseQualifiedString, andThen_assoc, contained_readAt_andThen]
  refine and_congr_right fun _ => ?_
  by_cases hleft : byteAt mem start = left
  · rw [if_neg (not_not_intro hleft), if_pos hleft, tokenIn_iff, andThen_assoc, contained_scanWhile_andThen,
      andThen_assoc, contained_storeToken_andThen, ret_andThen, and_assoc]
  · rw [if_pos hleft, if_neg hleft, ret_andThen]

theorem contained_getU1ByteInteger_andThen {f : Option UInt8 → Logged ParaAccess α} :
    Contained ((getU1ByteInteger str).andThen f) ↔ (str.takeWhile isDigit).length < TOKEN_LEN ∧
      Contained (f (if str.all isDigit then some (str.foldl decimalStep 0) else none)) := by
  have hdigits : Completes ParaAccess.Inside (getU1ByteInteger str) ↔ (str.takeWhile isDigit).length < TOKEN_LEN := by
    constructor
    · rintro ⟨a,h⟩
      have hlast := h.all (.array ((str.takeWhile isDigit).length : ℕ) TOKEN_LEN)
        (List.mem_map.mpr ⟨_,List.mem_range.mpr (Nat.lt_succ_self _),rfl⟩)
      exact_mod_cast hlast.2
    · intro h
      refine ⟨_,rfl,fun e he => ?_⟩
      obtain ⟨k,hk,rfl⟩ := List.mem_map.mp he
      have hlt := List.mem_range.mp hk
      exact ⟨Int.natCast_nonneg k,by exact_mod_cast (by omega : k < TOKEN_LEN)⟩
  rw [Contained, completes_andThen, hdigits]
  refine and_congr_right fun _ => ⟨fun h => h _ rfl,?_⟩
  rintro h _ ⟨⟩
  exact h

theorem contained_andThen_of_all {β : Type} {x : Logged ParaAccess β} {f : β → Logged ParaAccess α}
    (hf : ∀ a, Contained (f a)) : Contained (x.andThen f) ↔ Contained x := by
  rw [Contained, completes_andThen]
  exact and_iff_left fun a _ => hf a

/-- A zero ends a loop that does not pass over it, and it is still to come then. -/
theorem stopsIn_of_zero_mem (hp : p 0 = false) (h : 0 ∈ mem.drop i) : StopsIn p mem i := ⟨0,h,hp⟩

theorem lt_length_of_zero_mem (h : 0 ∈ mem.drop i) : i < mem.length := by
  by_contra hge
  rw [List.drop_eq_nil_of_le (by omega)] at h
  cases h

theorem zero_mem_drop_succ (h : 0 ∈ mem.drop i) (hne : byteAt mem i ≠ 0) : 0 ∈ mem.drop (i + 1) := by
  have hlt := lt_length_of_zero_mem h
  rw [List.drop_eq_getElem_cons hlt, List.mem_cons] at h
  rw [byteAt, List.getD_eq_getElem _ _ hlt] at hne
  exact h.resolve_left fun heq => hne heq.symm

end Programs

def LineEnds (buf : List UInt8) : Prop := ∃ c ∈ buf, isLineEnd c = true ∨ c = 0

def lineEnd (buf : List UInt8) : ℕ := scanEnd (fun c => !isLineEnd c && c != 0) buf 0

/-- The memory from the line on, with the zero where the line ends -/
def lineMem (buf : List UInt8) : List UInt8 := buf.set (lineEnd buf) 0

def behindLine (buf : List UInt8) : Option (List UInt8) :=
  if byteAt buf (lineEnd buf) = 0 then none else some (buf.drop (lineEnd buf + 1))

/-- A run goes on from a line to the next one. -/
def LineStep {σ ρ : Type} (line : σ → List UInt8 → Logged ParaAccess (ρ ⊕ σ))
    (a b : σ × List UInt8) : Prop :=
  behindLine a.2 = some b.2 ∧ (line a.1 (lineMem a.2)).result = some (.inr b.1)

/-- Each line that the run comes to ends in the buffer, and it fits what the parser is about to do with it. -/
def EachLine {σ ρ : Type} (line : σ → List UInt8 → Logged ParaAccess (ρ ⊕ σ))
    (fits : σ → List UInt8 → Prop) (s : σ)
    (buf : List UInt8) : Prop :=
  ∀ a, Relation.ReflTransGen (LineStep line) (s,buf) a → LineEnds a.2 ∧ fits a.1 (lineMem a.2)

section Lines
variable {σ ρ : Type} {line : σ → List UInt8 → Logged ParaAccess (ρ ⊕ σ)} {last : σ → ρ}
  {fits : σ → List UInt8 → Prop}
  {s : σ} {buf : List UInt8}

theorem lineEnds_iff : LineEnds buf ↔ lineEnd buf < buf.length := by
  rw [lineEnd, ← stopsIn_iff, StopsIn, LineEnds, List.drop_zero]
  refine exists_congr fun c => and_congr_right fun _ => ?_
  by_cases hc : isLineEnd c = true <;> simp [hc]

theorem contained_getLineFromBuffer_andThen {α : Type}
    {f : List UInt8 × Option (List UInt8) → Logged ParaAccess α} :
    Contained ((getLineFromBuffer buf).andThen f) ↔ LineEnds buf ∧ Contained (f (lineMem buf,behindLine buf)) := by
  have hends : StopsIn (fun c => !isLineEnd c && c != 0) buf 0 ↔ LineEnds buf := stopsIn_iff.trans lineEnds_iff.symm
  rw [getLineFromBuffer, andThen_assoc, contained_scanWhile_andThen, hends]
  refine and_congr_right fun h => ?_
  have hlt := lineEnds_iff.mp h
  change Contained ((if byteAt buf (lineEnd buf) = 0 then _ else _ : Logged ParaAccess _).andThen f) ↔ _
  rw [lineMem, behindLine]
  by_cases hzero : byteAt buf (lineEnd buf) = 0
  · have hget : buf[lineEnd buf] = 0 := by
      rw [← hzero, byteAt, List.getD_eq_getElem _ _ hlt]
    have hsame : buf.set (lineEnd buf) 0 = buf := by
      rw [← hget, List.set_getElem_self]
    rw [if_pos hzero, if_pos hzero, ret_andThen, hsame]
  · rw [if_neg hzero, if_neg hzero, andThen_assoc, Contained, completes_emit_andThen, ret_andThen]
    exact and_iff_right (List.forall_mem_singleton.mpr hlt)

/-- The end of the line is in the memory of the line. -/
theorem zero_mem_lineMem (h : LineEnds buf) : 0 ∈ lineMem buf := by
  rw [lineMem]
  exact List.mem_set (lineEnds_iff.mp h) 0

theorem length_behindLine {rest : List UInt8} (h : behindLine buf = some rest) (hends : LineEnds buf) :
    rest.length < buf.length := by
  have hlt := lineEnds_iff.mp hends
  rw [behindLine] at h
  split at h
  · cases h
  · cases h
    rw [List.length_drop]
    omega

/-- The loop over the lines is contained exactly when it is on each line that it comes to. -/
theorem contained_overLines_iff (hline : ∀ s mem, 0 ∈ mem → (Contained (line s mem) ↔ fits s mem)) {fuel : ℕ}
    (hfuel : buf.length < fuel) : Contained (overLines line last fuel s buf) ↔ EachLine line fits s buf := by
  induction fuel generalizing s buf with
  | zero => omega
  | succ fuel ih =>
    rw [overLines, contained_getLineFromBuffer_andThen]
    dsimp only
    constructor
    · rintro ⟨hends,hrun⟩ a ha
      obtain ⟨hfit,hrest⟩ := completes_andThen.mp hrun
      rcases ha.cases_head with rfl | ⟨b,hab,hb⟩
      · exact ⟨hends,(hline _ _ (zero_mem_lineMem hends)).mp hfit⟩
      · have hnext := hrest _ hab.2
        dsimp only at hnext
        rw [hab.1] at hnext
        have hlt : b.2.length < buf.length := length_behindLine hab.1 hends
        exact (ih (by omega)).mp hnext a hb
    · intro h
      obtain ⟨hends,hfit⟩ := h _ .refl
      refine ⟨hends,completes_andThen.mpr ⟨(hline _ _ (zero_mem_lineMem hends)).mpr hfit,?_⟩⟩
      intro r hr
      cases r with
      | inl r => exact completes_ret r
      | inr s' =>
        cases hrest : behindLine buf with
        | none => exact completes_ret _
        | some rest =>
          have hlt := length_behindLine hrest hends
          exact (ih (by omega)).mpr fun a ha => h a (.head ⟨hrest,hr⟩ ha)

end Lines

end Rtl8188fu
