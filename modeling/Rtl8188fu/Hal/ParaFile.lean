import Rtl8188fu.Include.Wifi
import Rtl8188fu.Library.Logged

/-! # Parameter files in their buffer

What the parsers of the power files share: lines, tokens and numbers. A line is given as the memory from its start to
the end of the buffer, with a zero where it ends. Every access is logged with the size of what it has to stay in.
-/
namespace Rtl8188fu
open Bytes Logged

def MAX_PARA_FILE_BUF_LEN : ℕ := 25600

/-- The size of the arrays for labels, regulations, channels and limits -/
def TOKEN_LEN : ℕ := 10

def chr (c : Char) : UInt8 := UInt8.ofNat c.toNat

def ascii (s : String) : List UInt8 := s.toList.map chr

inductive ParaAccess
  /-- a byte of the memory from a line to the end of the buffer -/
  | buffer (i size : ℕ)
  /-- an element of an array -/
  | array (i : ℤ) (size : ℕ)

def ParaAccess.Inside : ParaAccess → Prop
  | .buffer i size => i < size
  | .array i size => 0 ≤ i ∧ i < size

def isBlank (c : UInt8) : Bool := c = chr ' ' || c = 9

def isDigit (c : UInt8) : Bool := chr '0' ≤ c && c ≤ chr '9'

def readAt (mem : List UInt8) (i : ℕ) : Logged ParaAccess UInt8 := ⟨[.buffer i mem.length],some (byteAt mem i)⟩

/-- `while (p(szLine[i])) ++i;` -/
def scanWhile (p : UInt8 → Bool) (mem : List UInt8) (i : ℕ) : Logged ParaAccess ℕ :=
  let n := ((mem.drop i).takeWhile p).length
  ⟨(List.range' i (n + 1)).map (.buffer · mem.length),some (i + n)⟩

/-- `n` bytes go to an array, one behind the other. What happens behind the array is not followed. -/
def storeToken (n : ℕ) : Logged ParaAccess Unit :=
  (emit ((List.range n).map fun i => .array i TOKEN_LEN)).andThen fun _ => if n ≤ TOKEN_LEN then ret () else stop

/-- `eqNByte` at `i`, which compares from the last byte on -/
def eqNByte (mem : List UInt8) (i : ℕ) (str : List UInt8) : Logged ParaAccess Bool :=
  let fromLast := ((List.range str.length).map fun k => byteAt mem (i + k)).reverse.zip str.reverse
  let n := min str.length ((fromLast.takeWhile fun c => c.1 = c.2).length + 1)
  ⟨(List.range' (i + str.length - n) n).map (.buffer · mem.length),some (slice mem i str.length = str)⟩

def isLineEnd (c : UInt8) : Bool := c = 13 || c = 10

/-- `GetLineFromBuffer`, that is `strsep(&buffer, "\r\n")`: the line, and what is left when a line follows -/
def getLineFromBuffer (buf : List UInt8) : Logged ParaAccess (List UInt8 × Option (List UInt8)) :=
  (scanWhile (fun c => !isLineEnd c && c != 0) buf 0).andThen fun n =>
  if byteAt buf n = 0 then ret (buf,none)
  else (emit [.buffer n buf.length]).andThen fun _ => ret (buf.set n 0,some (buf.drop (n + 1)))

/-- `isAllSpaceOrTab(szLine, sizeof(*szLine))`, which looks at one character, or `IsCommentString(szLine)` -/
def skipsLine (mem : List UInt8) : Logged ParaAccess Bool :=
  (readAt mem 0).andThen fun c =>
  if isBlank c = true ∨ c = 0 then ret true
  else if c = chr '/' then (readAt mem 1).andThen fun c => ret (c = chr '/')
  else ret false

/-- `ParseQualifiedString`: the string between the qualifiers, and where it goes on -/
def parseQualifiedString (mem : List UInt8) (start : ℕ) (left right : UInt8) :
    Logged ParaAccess (Option (List UInt8 × ℕ)) :=
  (readAt mem start).andThen fun c =>
  if c ≠ left then ret none
  else
    (scanWhile (· != right) mem (start + 1)).andThen fun stop =>
    (storeToken (stop - (start + 1))).andThen fun _ =>
    -- `strncpy` stops at a zero
    ret (some ((slice mem (start + 1) (stop - (start + 1))).takeWhile (· != 0),stop + 1))

/-- `*pInt *= 10; *pInt += Str[i] - '0'` -/
def decimalStep (v c : UInt8) : UInt8 := v * 10 + (c - chr '0')

/-- `GetU1ByteIntegerFromStringInDecimal` of what is in an array -/
def getU1ByteInteger (str : List UInt8) : Logged ParaAccess (Option UInt8) :=
  ⟨(List.range ((str.takeWhile isDigit).length + 1)).map fun (i : ℕ) => .array i TOKEN_LEN,
    some (if str.all isDigit then some (str.foldl decimalStep 0) else none)⟩

/-- The loop over the lines. A line ends it with a result, or leaves a state for the next line. -/
def overLines {σ ρ : Type} (line : σ → List UInt8 → Logged ParaAccess (ρ ⊕ σ)) (last : σ → ρ) :
    ℕ → σ → List UInt8 → Logged ParaAccess ρ
  | 0, _, _ => stop
  | fuel + 1, s, buf =>
    (getLineFromBuffer buf).andThen fun (mem, rest) =>
    (line s mem).andThen fun
    | .inl r => ret r
    | .inr s =>
      match rest with
      | none => ret (last s)
      | some rest => overLines line last fuel s rest

/-- What the loop comes to on these lines, whatever is behind each of them in the buffer -/
inductive LinesTo {σ ρ : Type} (line : σ → List UInt8 → Logged ParaAccess (ρ ⊕ σ)) :
    σ → List (List UInt8) → Option (ρ ⊕ σ) → Prop
  | done (s : σ) : LinesTo line s [] (some (.inr s))
  | next {s s' : σ} {l : List UInt8} {ls : List (List UInt8)} {r : Option (ρ ⊕ σ)}
      (h : ∀ rest, (line s (l ++ 0 :: rest)).result = some (.inr s')) (hls : LinesTo line s' ls r) :
        LinesTo line s (l :: ls) r
  | out {s : σ} {l : List UInt8} {r : Option ρ} (ls : List (List UInt8))
      (h : ∀ rest, (line s (l ++ 0 :: rest)).result = r.map .inl) : LinesTo line s (l :: ls) (r.map .inl)

section Lines
variable {σ ρ : Type} {line : σ → List UInt8 → Logged ParaAccess (ρ ⊕ σ)} {last : σ → ρ} {s s' : σ}
  {mem rest l : List UInt8}
  {ls ls' : List (List UInt8)} {r : Option (ρ ⊕ σ)} {p : UInt8 → Bool} {i : ℕ} {c : UInt8}

theorem LinesTo.append (h : LinesTo line s ls (some (.inr s'))) (h' : LinesTo line s' ls' r) :
    LinesTo line s (ls ++ ls') r := by
  generalize hr : some (Sum.inr s') = o at h
  induction h with
  | done s =>
    cases hr
    exact h'
  | next hl _ ih => exact .next hl (ih hr)
  | @out s l r ls hl =>
    cases r <;> cases hr

theorem LinesTo.append_out {r : Option ρ} (h : LinesTo line s ls (r.map .inl)) (ls' : List (List UInt8)) :
    LinesTo line s (ls ++ ls') (r.map .inl) := by
  generalize hr : Option.map Sum.inl r = o at h
  induction h with
  | done s => cases r <;> cases hr
  | next hl _ ih => exact .next hl (ih hr)
  | out ls hl => exact .out (ls ++ ls') hl

/-- Lines that leave the state as it is can stand anywhere. -/
theorem LinesTo.of_filter {keep : List UInt8 → Bool}
    (hskip : ∀ l ∈ ls, keep l = false → ∀ s rest, (line s (l ++ 0 :: rest)).result = some (.inr s))
    (h : LinesTo line s (ls.filter keep) r) : LinesTo line s ls r := by
  induction ls generalizing s with
  | nil => exact h
  | cons l ls ih =>
    have hrest := fun l' hl' => hskip l' (List.mem_cons_of_mem _ hl')
    by_cases hl : keep l = true
    · rw [List.filter_cons_of_pos hl] at h
      cases h with
      | next hl' h => exact .next hl' (ih hrest h)
      | out _ hl' => exact .out ls hl'
    · rw [List.filter_cons_of_neg hl] at h
      exact .next (hskip l List.mem_cons_self (Bool.not_eq_true _ ▸ hl) s) (ih hrest h)

theorem byteAt_of_drop (h : mem.drop i = c :: rest) : byteAt mem i = c := by
  have h0 := byteAt_drop mem i 0
  rw [h] at h0
  exact h0.symm

/-- The loop stops in front of the first character that it does not pass over. -/
theorem result_scanWhile (h : mem.drop i = l ++ c :: rest) (hl : ∀ a ∈ l, p a = true) (hc : p c = false) :
    (scanWhile p mem i).result = some (i + l.length) := by
  have htake : (mem.drop i).takeWhile p = l := by
    rw [h, List.takeWhile_append_of_pos hl, List.takeWhile_cons_of_neg (by rw [hc]; decide), List.append_nil]
  rw [scanWhile, htake]

theorem result_getLine_end (hl : ∀ a ∈ l, isLineEnd a = false ∧ a ≠ 0) :
    (getLineFromBuffer (l ++ 0 :: rest)).result = some (l ++ 0 :: rest,none) := by
  have hdrop : (l ++ 0 :: rest).drop 0 = l ++ 0 :: rest := rfl
  have hscan := result_scanWhile (p := fun c => !isLineEnd c && c != 0) hdrop
    (fun a ha => by simp [(hl a ha).1, (hl a ha).2]) (by simp)
  have hat : byteAt (l ++ 0 :: rest) (0 + l.length) = 0 := by
    rw [byteAt_append, if_neg (by omega)]
    simp [byteAt]
  rw [getLineFromBuffer, result_andThen, hscan, Option.bind_some, if_pos hat]
  rfl

theorem result_getLine_next (hl : ∀ a ∈ l, isLineEnd a = false ∧ a ≠ 0) (hc : isLineEnd c = true) :
    (getLineFromBuffer (l ++ c :: rest)).result = some (l ++ 0 :: rest,some rest) := by
  have hdrop : (l ++ c :: rest).drop 0 = l ++ c :: rest := rfl
  have hscan := result_scanWhile (p := fun c => !isLineEnd c && c != 0) hdrop
    (fun a ha => by simp [(hl a ha).1, (hl a ha).2]) (by simp [hc])
  have hzero : c ≠ 0 := by
    rintro rfl
    cases hc
  have hat : byteAt (l ++ c :: rest) (0 + l.length) = c := by
    rw [byteAt_append, if_neg (by omega)]
    simp [byteAt]
  rw [getLineFromBuffer, result_andThen, hscan, Option.bind_some, hat, if_neg hzero]
  simp [List.drop_append]

theorem result_overLines {lines : List (List UInt8 × UInt8)} {text : List UInt8} {fuel : ℕ}
    (hlines : ∀ l ∈ lines.map Prod.fst ++ [text], ∀ a ∈ l, isLineEnd a = false ∧ a ≠ 0)
    (hends : ∀ l ∈ lines, isLineEnd l.2 = true) (hfuel : lines.length < fuel)
    (h : LinesTo line s (lines.map Prod.fst ++ [text]) r) :
    (overLines line last fuel s (lines.flatMap (fun l => l.1 ++ [l.2]) ++ text ++ 0 :: rest)).result =
      r.map (Sum.elim id last) := by
  induction lines generalizing fuel s with
  | nil =>
    obtain ⟨fuel,rfl⟩ : ∃ k, fuel = k + 1 := ⟨fuel - 1,by simp only [List.length_nil] at hfuel; omega⟩
    have hline := @result_getLine_end rest _ (hlines text (by simp))
    rw [overLines, List.flatMap_nil, List.nil_append, result_andThen, hline, Option.bind_some, result_andThen]
    cases h with
    | next hl hls =>
      cases hls
      rw [hl]
      rfl
    | @out s l r ls hl =>
      rw [hl]
      cases r <;> rfl
  | cons l lines ih =>
    obtain ⟨fuel,rfl⟩ : ∃ k, fuel = k + 1 := ⟨fuel - 1,by omega⟩
    rw [List.length_cons] at hfuel
    have hsplit : (l :: lines).flatMap (fun l => l.1 ++ [l.2]) ++ text ++ 0 :: rest =
        l.1 ++ l.2 :: (lines.flatMap (fun l => l.1 ++ [l.2]) ++ text ++ 0 :: rest) := by simp
    have hline := @result_getLine_next (lines.flatMap (fun l => l.1 ++ [l.2]) ++ text ++ 0 :: rest) _ _
      (hlines l.1 (by simp)) (hends l List.mem_cons_self)
    rw [hsplit, overLines, result_andThen, hline, Option.bind_some, result_andThen]
    rw [List.map_cons, List.cons_append] at h
    cases h with
    | next hl hls =>
      rw [hl, Option.bind_some]
      exact ih (fun l' hl' => hlines l' (List.mem_cons_of_mem _ hl'))
        (fun l' hl' => hends l' (List.mem_cons_of_mem _ hl'))
        (by omega) hls
    | @out s l r ls hl =>
      rw [hl]
      cases r <;> rfl

end Lines

end Rtl8188fu
