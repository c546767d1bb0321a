import Rtl8188fu.Ieee80211.ElemSearch

/-! # Taking the security elements out of a beacon

`rtw_get_sec_ie`, `rtw_get_wapi_ie` and `iwe_stream_wpa_wpa2_process`. The loop that dumps an
element has an 8-bit counter, and the buffers of the last function have sizes of their own.
-/
namespace Rtl8188fu
open Bytes

/-- `wpa_oui`, `wapi_oui1` and `wapi_oui2` of the two functions -/
def secWpaOui : List UInt8 := [0x00, 0x50, 0xf2, 0x01]
def wapiOui1 : List UInt8 := [0x00, 0x14, 0x72, 0x01]
def wapiOui2 : List UInt8 := [0x00, 0x14, 0x72, 0x02]

/-- The buffers that elements are copied to -/
inductive SecBuf where
  | rsnIe | wpaIe | wapiIe
  deriving DecidableEq

/-- A copy: the buffer, where the bytes come from, and how many there are -/
abbrev SecCopy := SecBuf × ℕ × ℕ

/-- The copies that were made, and the lengths reported -/
structure SecIeOut where
  copies : List SecCopy
  len : SecBuf → ℕ

def SecIeOut.copy (out : SecIeOut) (c : SecCopy) : SecIeOut :=
  ⟨out.copies ++ [c],Function.update out.len c.1 c.2.2⟩

/-- `for(i=0;i<n;i=i+8)` with an `u8` -/
def dumpLoop (n : ℕ) : ℕ → ℕ → Option Unit
  | 0, _ => none
  | fuel + 1, i => if i < n then dumpLoop n fuel ((i + 8) % 256) else some ()

/-- The loop over the elements; `kind` tells the buffer that an element is copied to. -/
def secIeLoop (kind : ℕ → Option SecBuf) (inIe : List UInt8) (inLen : ℕ) :
    ℕ → ℕ → SecIeOut → Option SecIeOut
  | 0, _, _ => none
  | fuel + 1, cnt, out =>
    if cnt < inLen then
      match kind cnt with
      | some b =>
        match dumpLoop ((byteAt inIe (cnt + 1)).toNat + 2) fuel 0 with
        | some _ =>
          secIeLoop kind inIe inLen fuel (elemEnd inIe cnt) (out.copy (b,cnt,(byteAt inIe (cnt + 1)).toNat + 2))
        | none => none
      | none => secIeLoop kind inIe inLen fuel (elemEnd inIe cnt) out
    else some out

/-- `_TIMESTAMP_ + _BEACON_ITERVAL_ + _CAPABILITY_` -/
def FIXED_IE_LENGTH : ℕ := 12

def secIeKind (inIe : List UInt8) (cnt : ℕ) : Option SecBuf :=
  if byteAt inIe cnt = 0xdd ∧ slice inIe (cnt + 2) 4 = secWpaOui then some .wpaIe
  else if byteAt inIe cnt = 0x30 then some .rsnIe
  else none

def wapiIeKind (inIe : List UInt8) (cnt : ℕ) : Option SecBuf :=
  if byteAt inIe cnt = 68 ∧ (slice inIe (cnt + 6) 4 = wapiOui1 ∨ slice inIe (cnt + 6) 4 = wapiOui2)
    then some .wapiIe
  else none

/-- `rtw_get_sec_ie` with both buffers; `len` are the values of `*rsn_len` and `*wpa_len` before. -/
def rtwGetSecIe (fuel : ℕ) (inIe : List UInt8) (inLen : ℕ) (len : SecBuf → ℕ) : Option SecIeOut :=
  secIeLoop (secIeKind inIe) inIe inLen fuel FIXED_IE_LENGTH ⟨[],len⟩

/-- `rtw_get_wapi_ie` with a buffer; it clears `*wapi_len` first. -/
def rtwGetWapiIe (fuel : ℕ) (inIe : List UInt8) (inLen : ℕ) : Option SecIeOut :=
  secIeLoop (wapiIeKind inIe) inIe inLen fuel FIXED_IE_LENGTH ⟨[],fun _ => 0⟩

/-- The elements that start below the limit, complete or not -/
def startedElems (inIe : List UInt8) (inLen : ℕ) : Scanner where
  next a := if a < inLen then some (elemEnd inIe a) else none
  limit := inLen
  forward := by
    intro a b h
    split at h
    · rename_i hlt
      cases h
      have := lt_elemEnd inIe a
      exact ⟨by omega,hlt⟩
    · cases h

/-- The copies that are due: each element of a kind, whole -/
def dueCopies (kind : ℕ → Option SecBuf) (inIe : List UInt8) (rs : List (ℕ × ℕ)) : List SecCopy :=
  rs.filterMap fun r => (kind r.1).map fun b => (b,r.1,(byteAt inIe (r.1 + 1)).toNat + 2)

/-- The length of the last copy to a buffer -/
def lastCopied (init : ℕ) (b : SecBuf) (cs : List SecCopy) : ℕ :=
  ((cs.filter (·.1 = b)).getLast?.map fun c => c.2.2).getD init

/-- An extractor comes back, has copied each element whole, and reports what it copied last. -/
def SecIeExact (kind : ℕ → Option SecBuf) (inIe : List UInt8) (inLen : ℕ) (init : SecBuf → ℕ)
    (get : ℕ → Option SecIeOut) : Prop :=
  ∃ fuel out, get fuel = some out ∧
    out.copies = dueCopies kind inIe ((startedElems inIe inLen).records FIXED_IE_LENGTH) ∧
    ∀ b, out.len b = lastCopied (init b) b out.copies

/-- No element that is copied has a body of more than 246 bytes. -/
def SecIesShort (kind : ℕ → Option SecBuf) (inIe : List UInt8) (inLen a : ℕ) : Prop :=
  ∀ r ∈ (startedElems inIe inLen).records a, kind r.1 ≠ none → (byteAt inIe (r.1 + 1)).toNat ≤ 246

theorem dumpLoop_stuck {n i : ℕ} (hn : 248 < n) (hi : i ≤ 248) (h8 : i % 8 = 0) (fuel : ℕ) :
    dumpLoop n fuel i = none := by
  induction fuel generalizing i with
  | zero => rfl
  | succ fuel ih =>
    rw [dumpLoop, if_pos (by omega)]
    exact ih (by omega) (by omega)

theorem dumpLoop_done {n i fuel : ℕ} (hn : n ≤ 248) (hi : i ≤ 248) (h8 : i % 8 = 0) (hf : 248 - i < 8 * fuel) :
    dumpLoop n fuel i = some () := by
  induction fuel generalizing i with
  | zero => omega
  | succ fuel ih =>
    rw [dumpLoop]
    split
    · have hmod : (i + 8) % 256 = i + 8 := Nat.mod_eq_of_lt (by omega)
      rw [hmod]
      exact ih (by omega) (by omega) (by omega)
    · rfl

section Loop
variable {kind : ℕ → Option SecBuf} {inIe : List UInt8} {inLen a : ℕ} {out : SecIeOut} {init : SecBuf → ℕ}

theorem copies_foldl (cs : List SecCopy) (out : SecIeOut) : (cs.foldl SecIeOut.copy out).copies = out.copies ++ cs := by
  induction cs generalizing out with
  | nil => simp
  | cons c cs ih => simp [ih, SecIeOut.copy]

theorem len_foldl (cs : List SecCopy) (len : SecBuf → ℕ) (b : SecBuf) :
    (cs.foldl SecIeOut.copy ⟨[],len⟩).len b = lastCopied (len b) b cs := by
  induction cs using List.reverseRecOn with
  | nil => rfl
  | append_singleton cs c ih =>
    rw [List.foldl_append, lastCopied, List.filter_append]
    by_cases hb : c.1 = b
    · simp [SecIeOut.copy, hb]
    · simp only [List.foldl_cons, List.foldl_nil, SecIeOut.copy]
      rw [Function.update_of_ne (Ne.symm hb), ih, lastCopied]
      simp [hb]

/-- When the loop comes to its end, it has made every copy. -/
theorem secIeLoop_result {fuel : ℕ} {out' : SecIeOut} (h : secIeLoop kind inIe inLen fuel a out = some out') :
    out' = (dueCopies kind inIe ((startedElems inIe inLen).records a)).foldl SecIeOut.copy out := by
  induction fuel generalizing a out with
  | zero => cases h
  | succ fuel ih =>
    rw [secIeLoop] at h
    by_cases ha : a < inLen
    · have hnext : (startedElems inIe inLen).next a = some (elemEnd inIe a) := if_pos ha
      rw [if_pos ha] at h
      rw [Scanner.records_of_some hnext, dueCopies, List.filterMap_cons]
      cases hk : kind a with
      | none =>
        rw [hk] at h
        exact ih h
      | some b =>
        rw [hk] at h
        dsimp only at h
        split at h
        · exact ih h
        · cases h
    · have hnext : (startedElems inIe inLen).next a = none := if_neg ha
      rw [if_neg ha] at h
      cases h
      rw [Scanner.records_of_none hnext]
      rfl

theorem secIeLoop_done (h : SecIesShort kind inIe inLen a) (out : SecIeOut) :
    ∃ n, ∀ fuel ≥ n, (secIeLoop kind inIe inLen fuel a out).isSome = true := by
  induction a using (startedElems inIe inLen).induction generalizing out with
  | stop a hn =>
    have ha : ¬a < inLen := by
      intro ha
      simp [startedElems, ha] at hn
    refine ⟨1,fun fuel hf => ?_⟩
    obtain ⟨fuel,rfl⟩ : ∃ k, fuel = k + 1 := ⟨fuel - 1,by omega⟩
    rw [secIeLoop, if_neg ha]
    rfl
  | step a b hn ih =>
    have ha : a < inLen := ((startedElems inIe inLen).forward hn).2
    obtain rfl : elemEnd inIe a = b := by simpa [startedElems, ha] using hn
    rw [SecIesShort, Scanner.records_of_some hn] at h
    have hrest := ih fun r hr => h r (List.mem_cons_of_mem _ hr)
    cases hk : kind a with
    | none =>
      obtain ⟨n,hn⟩ := hrest out
      refine ⟨n + 1,fun fuel hf => ?_⟩
      obtain ⟨fuel,rfl⟩ : ∃ k, fuel = k + 1 := ⟨fuel - 1,by omega⟩
      rw [secIeLoop, if_pos ha, hk]
      exact hn fuel (by omega)
    | some b =>
      have hshort : (byteAt inIe (a + 1)).toNat ≤ 246 := h (a,elemEnd inIe a) List.mem_cons_self (by simp [hk])
      obtain ⟨n,hn⟩ := hrest (out.copy (b,a,(byteAt inIe (a + 1)).toNat + 2))
      refine ⟨n + 33,fun fuel hf => ?_⟩
      obtain ⟨fuel,rfl⟩ : ∃ k, fuel = k + 1 := ⟨fuel - 1,by omega⟩
      rw [secIeLoop, if_pos ha, hk]
      simp only [dumpLoop_done (show (byteAt inIe (a + 1)).toNat + 2 ≤ 248 by omega) (show 0 ≤ 248 by decide) rfl
        (show 248 - 0 < 8 * fuel by omega), hn fuel (by omega)]

/-- An element of more than 246 bytes is dumped for ever. -/
theorem secIeLoop_stuck (h : ¬SecIesShort kind inIe inLen a) (fuel : ℕ) (out : SecIeOut) :
    secIeLoop kind inIe inLen fuel a out = none := by
  induction fuel generalizing a out with
  | zero => rfl
  | succ fuel ih =>
    by_cases ha : a < inLen
    · have hnext : (startedElems inIe inLen).next a = some (elemEnd inIe a) := if_pos ha
      rw [secIeLoop, if_pos ha]
      rw [SecIesShort, Scanner.records_of_some hnext, List.forall_mem_cons, not_and_or] at h
      cases hk : kind a with
      | none =>
        rcases h with h | h
        · exact absurd (fun hne => absurd hk hne) h
        · exact ih h out
      | some b =>
        rcases h with h | h
        · have hlong : 248 < (byteAt inIe (a + 1)).toNat + 2 := by
            by_contra hle
            exact h fun _ => show (byteAt inIe (a + 1)).toNat ≤ 246 by omega
          simp only [dumpLoop_stuck hlong (Nat.zero_le _) rfl]
        · simp only [ih h]
          split <;> rfl
    · have hnext : (startedElems inIe inLen).next a = none := if_neg ha
      rw [SecIesShort, Scanner.records_of_none hnext] at h
      exact absurd nofun h

/-- An extractor is exact exactly when no element that it copies has more than 246 bytes. -/
theorem secIeExact_iff :
    SecIeExact kind inIe inLen init (fun fuel => secIeLoop kind inIe inLen fuel FIXED_IE_LENGTH ⟨[],init⟩) ↔
      SecIesShort kind inIe inLen FIXED_IE_LENGTH := by
  constructor
  · rintro ⟨fuel,out,hout,-⟩
    by_contra h
    have hnone := secIeLoop_stuck h fuel ⟨[],init⟩
    cases hnone.symm.trans hout
  · intro h
    obtain ⟨n,hn⟩ := secIeLoop_done h ⟨[],init⟩
    obtain ⟨out,hout⟩ := Option.isSome_iff_exists.mp (hn n le_rfl)
    obtain rfl := secIeLoop_result hout
    refine ⟨n,_,hout,?_,?_⟩
    · rw [copies_foldl, List.nil_append]
    · intro b
      rw [len_foldl, copies_foldl, List.nil_append]

end Loop

def MAX_WPA_IE_LEN : ℕ := 256

/-- The buffers of `iwe_stream_wpa_wpa2_process` -/
inductive IweBuf where
  | rsnIe | wpaIe | pbuf
  deriving DecidableEq

def IweBuf.size : IweBuf → ℕ
  | .rsnIe | .wpaIe => 255
  | .pbuf => MAX_WPA_IE_LEN * 2

/-- A write: the buffer, the offset, and the number of bytes -/
abbrev IweWrite := IweBuf × ℕ × ℕ

/-- The text of an element at `p`: the name with its `=`, then two digits for each of the bytes.
Each `sprintf` writes a zero behind its text. -/
def textWrites (p n : ℕ) : List IweWrite :=
  (.pbuf,p,8) :: (List.range n).map fun i => (.pbuf,p + 7 + 2 * i,3)

/-- Where `p` is after the text -/
def textEnd (p n : ℕ) : ℕ := p + 7 + 2 * n

/-- The buffer that a copy of `rtw_get_sec_ie` goes to -/
def SecBuf.iwe : SecBuf → IweBuf
  | .rsnIe => .rsnIe
  | .wpaIe | .wapiIe => .wpaIe

/-- The writes for the lengths that were reported. `p` is not set back to the start of the buffer
between the two texts. -/
def iweTextWrites (wpaLen rsnLen : ℕ) : List IweWrite :=
  (if 0 < wpaLen then (.pbuf,0,IweBuf.pbuf.size) :: textWrites 0 wpaLen else []) ++
    if 0 < rsnLen then
      (.pbuf,0,IweBuf.pbuf.size) :: textWrites (if 0 < wpaLen then textEnd 0 wpaLen else 0) rsnLen
    else []

/-- `iwe_stream_wpa_wpa2_process`: its writes. `alloc` when `rtw_zmalloc` gives `pbuf`, `reserved` is
`Reserved[0]`. -/
def iweStreamWpaWpa2Process (fuel : ℕ) (alloc : Bool) (reserved : ℕ) (ies : List UInt8) (ieLength : ℕ) :
    Option (List IweWrite) :=
  if alloc = true ∧ reserved ≠ 2 then
    match rtwGetSecIe fuel ies ieLength fun _ => 0 with
    | some out =>
      some (out.copies.map (fun c => (c.1.iwe,0,c.2.2)) ++ iweTextWrites (out.len .wpaIe) (out.len .rsnIe))
    | none => none
  else some []

/-- The function comes back and writes inside its buffers only. -/
def IweContained (process : ℕ → Option (List IweWrite)) : Prop :=
  ∃ fuel ws, process fuel = some ws ∧ ∀ w ∈ ws, w.2.1 + w.2.2 ≤ w.1.size

/-- The length of the last element of a kind, with its header; 0 when there is none -/
def lastSecLen (b : SecBuf) (ies : List UInt8) (ieLength : ℕ) : ℕ :=
  lastCopied 0 b (dueCopies (secIeKind ies) ies ((startedElems ies ieLength).records FIXED_IE_LENGTH))

theorem mem_textWrites {p n : ℕ} {w : IweWrite} (h : w ∈ textWrites p n) :
    w.1 = .pbuf ∧ w.2.1 + w.2.2 ≤ textEnd p n + 1 := by
  rw [textWrites, List.mem_cons, List.mem_map] at h
  rw [textEnd]
  rcases h with rfl | ⟨i,hi,rfl⟩
  · exact ⟨rfl,by simp only []; omega⟩
  · rw [List.mem_range] at hi
    exact ⟨rfl,by simp only []; omega⟩

theorem exists_textWrites {p n : ℕ} (hn : 0 < n) :
    ∃ w ∈ textWrites p n, w.1 = .pbuf ∧ w.2.1 + w.2.2 = textEnd p n + 1 := by
  refine ⟨(.pbuf,p + 7 + 2 * (n - 1),3),?_,rfl,?_⟩
  · rw [textWrites, List.mem_cons, List.mem_map]
    exact .inr ⟨n - 1,List.mem_range.mpr (by omega),rfl⟩
  · simp only [textEnd]
    omega

/-- For elements that fit the small buffers the texts fit together or one of them is missing. -/
theorem iweTextWrites_fit_iff {wpaLen rsnLen : ℕ} (hwpa : wpaLen ≤ 248) (hrsn : rsnLen ≤ 248) :
    (∀ w ∈ iweTextWrites wpaLen rsnLen, w.2.1 + w.2.2 ≤ w.1.size) ↔
      (0 < wpaLen → 0 < rsnLen → wpaLen + rsnLen ≤ 248) := by
  constructor
  · intro h hw hr
    obtain ⟨w,hmem,hbuf,hend⟩ := @exists_textWrites (textEnd 0 wpaLen) rsnLen hr
    have hfit := h w (by
      rw [iweTextWrites, if_pos hr, if_pos hw, if_pos hw]
      exact List.mem_append_right _ (List.mem_cons_of_mem _ hmem))
    rw [hbuf, hend] at hfit
    simp only [textEnd, IweBuf.size, MAX_WPA_IE_LEN] at hfit
    omega
  · intro h w hw
    have hsize : IweBuf.pbuf.size = 512 := rfl
    rw [iweTextWrites, List.mem_append] at hw
    rcases hw with hw | hw
    · split at hw
      · rcases List.mem_cons.mp hw with rfl | hw
        · simp
        · obtain ⟨hbuf,hend⟩ := mem_textWrites hw
          rw [hbuf, hsize]
          rw [textEnd] at hend
          omega
      · cases hw
    · split at hw
      · rename_i hr
        rcases List.mem_cons.mp hw with rfl | hw
        · simp
        · obtain ⟨hbuf,hend⟩ := mem_textWrites hw
          rw [hbuf, hsize]
          by_cases hp : 0 < wpaLen
          · have := h hp hr
            rw [if_pos hp, textEnd, textEnd] at hend
            omega
          · rw [if_neg hp, textEnd] at hend
            omega
      · cases hw

theorem lastCopied_le {b : SecBuf} {cs : List SecCopy} {bound : ℕ} (h : ∀ c ∈ cs, c.2.2 ≤ bound) :
    lastCopied 0 b cs ≤ bound := by
  rw [lastCopied]
  cases hl : (cs.filter (·.1 = b)).getLast? with
  | none => exact Nat.zero_le _
  | some c => exact h c (List.mem_of_mem_filter (List.mem_of_getLast? hl))

theorem iwe_contained_iff (alloc : Bool) (reserved : ℕ) (ies : List UInt8) (ieLength : ℕ) :
    IweContained (fun fuel => iweStreamWpaWpa2Process fuel alloc reserved ies ieLength) ↔
      (alloc = true → reserved ≠ 2 → SecIesShort (secIeKind ies) ies ieLength FIXED_IE_LENGTH ∧
        (0 < lastSecLen .wpaIe ies ieLength → 0 < lastSecLen .rsnIe ies ieLength →
          lastSecLen .wpaIe ies ieLength + lastSecLen .rsnIe ies ieLength ≤ 248)) := by
  by_cases hrun : alloc = true ∧ reserved ≠ 2
  · obtain ⟨ha,hr⟩ := hrun
    simp only [ha, hr, IweContained, iweStreamWpaWpa2Process, forall_const, ne_eq, not_false_eq_true, and_self, if_true]
    by_cases hshort : SecIesShort (secIeKind ies) ies ieLength FIXED_IE_LENGTH
    · have hle : ∀ c ∈ dueCopies (secIeKind ies) ies ((startedElems ies ieLength).records FIXED_IE_LENGTH),
          c.2.2 ≤ 248 := by
        intro c hc
        obtain ⟨r,hr,hc⟩ := List.mem_filterMap.mp hc
        obtain ⟨b,hb,rfl⟩ := Option.map_eq_some_iff.mp hc
        have := hshort r hr (by rw [hb]; exact Option.some_ne_none b)
        simp only []
        omega
      rw [and_iff_right hshort, lastSecLen, lastSecLen, ← iweTextWrites_fit_iff (lastCopied_le hle)
        (lastCopied_le hle)]
      constructor
      · rintro ⟨fuel,ws,hws,hall⟩ w hw
        split at hws
        · rename_i out hget
          cases hws
          obtain rfl := secIeLoop_result hget
          rw [len_foldl, len_foldl] at hall
          exact hall w (List.mem_append_right _ hw)
        · cases hws
      · intro h
        obtain ⟨n,hn⟩ := secIeLoop_done hshort ⟨[],fun _ => 0⟩
        obtain ⟨out,hout⟩ := Option.isSome_iff_exists.mp (hn n le_rfl)
        refine ⟨n,_,by rw [rtwGetSecIe, hout],?_⟩
        obtain rfl := secIeLoop_result hout
        intro w hw
        rw [len_foldl, len_foldl, copies_foldl, List.nil_append] at hw
        rcases List.mem_append.mp hw with hw | hw
        · obtain ⟨c,hc,rfl⟩ := List.mem_map.mp hw
          have hsize : 255 ≤ c.1.iwe.size := by cases c.1 <;> decide
          have := hle c hc
          simp only []
          omega
        · exact h w hw
    · refine iff_of_false ?_ fun h => hshort h.1
      rintro ⟨fuel,ws,hws,-⟩
      rw [rtwGetSecIe, secIeLoop_stuck hshort] at hws
      cases hws
  · exact iff_of_true ⟨0,[],if_neg hrun,nofun⟩ fun ha hr => absurd ⟨ha,hr⟩ hrun

/-- The extractors are exact exactly when no element that they copy has more than 246 bytes, and
the scan result is rendered inside its buffers exactly when, further, its WPA and RSN elements
have at most 248 bytes together. -/
theorem sec_ie_exact_iff (alloc : Bool) (reserved : ℕ) (ies : List UInt8) (ieLength : ℕ) (len : SecBuf → ℕ) :
    (SecIeExact (secIeKind ies) ies ieLength len (fun fuel => rtwGetSecIe fuel ies ieLength len) ↔
      SecIesShort (secIeKind ies) ies ieLength FIXED_IE_LENGTH) ∧
    (SecIeExact (wapiIeKind ies) ies ieLength (fun _ => 0) (fun fuel => rtwGetWapiIe fuel ies ieLength) ↔
      SecIesShort (wapiIeKind ies) ies ieLength FIXED_IE_LENGTH) ∧
    (IweContained (fun fuel => iweStreamWpaWpa2Process fuel alloc reserved ies ieLength) ↔
      (alloc = true → reserved ≠ 2 → SecIesShort (secIeKind ies) ies ieLength FIXED_IE_LENGTH ∧
        (0 < lastSecLen .wpaIe ies ieLength → 0 < lastSecLen .rsnIe ies ieLength →
          lastSecLen .wpaIe ies ieLength + lastSecLen .rsnIe ies ieLength ≤ 248))) :=
  ⟨secIeExact_iff,secIeExact_iff,iwe_contained_iff alloc reserved ies ieLength⟩

/-- An RSN element of 247 bytes behind the fixed fields -/
def iesOfLongRsn : List UInt8 := List.replicate 12 0 ++ 48 :: 247 :: List.replicate 247 0

theorem long_rsn_ie_dumped_for_ever :
    ¬∀ (alloc : Bool) (reserved : ℕ) (ies : List UInt8) (ieLength : ℕ) (len : SecBuf → ℕ),
      SecIeExact (secIeKind ies) ies ieLength len (fun fuel => rtwGetSecIe fuel ies ieLength len) ∧
      SecIeExact (wapiIeKind ies) ies ieLength (fun _ => 0) (fun fuel => rtwGetWapiIe fuel ies ieLength) ∧
      IweContained fun fuel => iweStreamWpaWpa2Process fuel alloc reserved ies ieLength := by
  intro h
  obtain ⟨⟨n,out,hout,-⟩,-⟩ := h true 0 iesOfLongRsn 261 fun _ => 0
  have hnone : rtwGetSecIe n iesOfLongRsn 261 (fun _ => 0) = none := by
    match n with
    | 0 => rfl
    | n + 1 =>
      have hkind : secIeKind iesOfLongRsn FIXED_IE_LENGTH = some .rsnIe := by decide
      rw [rtwGetSecIe, secIeLoop, if_pos (by decide), hkind]
      simp only [dumpLoop_stuck (show 248 < (byteAt iesOfLongRsn (FIXED_IE_LENGTH + 1)).toNat + 2 by decide)
        (Nat.zero_le _) rfl n]
  cases hnone.symm.trans hout

end Rtl8188fu
