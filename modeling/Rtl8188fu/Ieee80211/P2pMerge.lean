import Rtl8188fu.Ieee80211.RemoveIe

/-! # Merging the P2P elements of a frame into one

`rtw_get_p2p_merged_ies_len` counts in an `int`, `rtw_p2p_merge_ies` in an `u8`; both take an
element for a P2P one by its first bytes, whatever its length is.
-/
namespace Rtl8188fu
open Bytes

def mergedIesLenLoop (inIe : List UInt8) (inLen : ℕ) : ℕ → ℕ → ℤ → ℤ
  | 0, _, len => len
  | fuel + 1, i, len =>
    if i < inLen then
      let len := if byteAt inIe i = 0xdd ∧
        slice inIe (i + 2) 4 = P2P_OUI then len + (byteAt inIe (i + 1)).toNat - 4 else len
      mergedIesLenLoop inIe inLen fuel (elemEnd inIe i) len
    else len

/-- `rtw_get_p2p_merged_ies_len`; the result is an `u32`. -/
def rtwGetP2pMergedIesLen (inIe : List UInt8) (inLen : ℕ) : ℕ :=
  ((mergedIesLenLoop inIe inLen (inLen + 1) 0 0 + 4) % 2 ^ 32).toNat

/-- The loop of `rtw_p2p_merge_ies`; `none` when the size of a copy is negative, for then
`_rtw_memcpy` takes it for almost 4 GiB -/
def mergeIesLoop (inIe : List UInt8) (inLen : ℕ) : ℕ → ℕ → List UInt8 × ℕ → Option (List UInt8 × ℕ)
  | 0, _, _ => none
  | fuel + 1, i, (mergeIe,len) =>
    if i < inLen then
      if byteAt inIe i = 0xdd ∧ slice inIe (i + 2) 4 = P2P_OUI then
        let n := (byteAt inIe (i + 1)).toNat
        if n < 4 then none
        else mergeIesLoop inIe inLen fuel (elemEnd inIe i) (mergeIe ++ slice inIe (i + 6) (n - 4),(len + (n - 4)) % 256)
      else mergeIesLoop inIe inLen fuel (elemEnd inIe i) (mergeIe,len)
    else some (mergeIe,len)

def ELOUI : List UInt8 := [0xdd,0x00,0x50,0x6f,0x9a,0x09]

/-- `rtw_p2p_merge_ies` with a buffer to write to: what it writes, and the value returned. The length
byte of `ELOUI` is written as it is. -/
def rtwP2pMergeIes (inIe : List UInt8) (inLen : ℕ) : Option (List UInt8 × ℕ) :=
  (mergeIesLoop inIe inLen (inLen + 1) 0 (ELOUI,0)).map fun r => (r.1,r.2 + 4)

/-- The attribute bytes of the P2P elements in order -/
def p2pAttrs (ts : List Tlv) : List UInt8 := (ts.filter fun t => IsVendor P2P_OUI t).flatMap (·.body.drop 4)

/-- No other element begins like a P2P element together with what follows it. -/
def P2pIesClear (beyond : List UInt8) : List Tlv → Prop
  | [] => True
  | t :: ts => (RunsMatch 0xdd (some P2P_OUI) t (Tlv.flat ts ++ beyond) → IsVendor P2P_OUI t) ∧
    P2pIesClear beyond ts

section Loop
variable {beyond out : List UInt8} {t : Tlv} {ts done : List Tlv} {fuel len : ℕ} {acc : ℤ}

theorem p2pAttrs_cons (h : IsVendor P2P_OUI t) : p2pAttrs (t :: ts) = t.body.drop 4 ++ p2pAttrs ts := by
  unfold p2pAttrs
  rw [List.filter_cons_of_pos (by simpa using h), List.flatMap_cons]

theorem p2pAttrs_cons_of_not (h : ¬IsVendor P2P_OUI t) : p2pAttrs (t :: ts) = p2pAttrs ts := by
  unfold p2pAttrs
  rw [List.filter_cons_of_neg (by simpa using h)]

theorem IsVendor.runs (h : IsVendor P2P_OUI t) (ys : List UInt8) : RunsMatch 0xdd (some P2P_OUI) t ys := by
  obtain ⟨hid,hbody⟩ := h
  refine ⟨hid,?_⟩
  rintro _ ⟨⟩
  exact hbody.trans (List.prefix_append _ _)

theorem IsVendor.four_le (h : IsVendor P2P_OUI t) : 4 ≤ t.body.length := h.2.length_le

/-- What runs like a P2P element and is none is too short for the OUI. -/
theorem short_of_runs {ys : List UInt8} (h : RunsMatch 0xdd (some P2P_OUI) t ys) (hn : ¬IsVendor P2P_OUI t) :
    t.body.length < 4 := by
  by_contra hlen
  exact hn ⟨h.1,List.prefix_of_prefix_length_le (h.2 P2P_OUI rfl) (List.prefix_append _ _) (Nat.le_of_not_lt hlen)⟩

/-- What both loops read of the element behind `done` -/
theorem read_elem (done : List Tlv) (t : Tlv) (ys : List UInt8) :
    (byteAt (Tlv.flat done ++ (t.bytes ++ ys)) (Tlv.flat done).length = 0xdd ∧
        slice (Tlv.flat done ++ (t.bytes ++ ys)) ((Tlv.flat done).length + 2) 4 = P2P_OUI ↔
        RunsMatch 0xdd (some P2P_OUI) t ys) ∧
      (byteAt (Tlv.flat done ++ (t.bytes ++ ys)) ((Tlv.flat done).length + 1)).toNat = t.body.length ∧
      elemEnd (Tlv.flat done ++ (t.bytes ++ ys)) (Tlv.flat done).length = (Tlv.flat (done ++ [t])).length := by
  obtain ⟨hid,hlen,-⟩ := byteAt_tlv (Tlv.flat done) t ys
  refine ⟨?_,hlen,?_⟩
  · have hruns := @runsMatch_iff 0xdd (some P2P_OUI) t ys
    simp only [ouiMatches, decide_eq_true_eq] at hruns
    rw [hruns, slice_flat, hid]
    rfl
  · unfold elemEnd
    rw [hlen]
    simp

theorem mergedIesLenLoop_flat (h : P2pIesClear beyond ts) (hfuel : ts.length < fuel) :
    mergedIesLenLoop (Tlv.flat done ++ (Tlv.flat ts ++ beyond))
      (Tlv.flat (done ++ ts)).length fuel (Tlv.flat done).length acc = acc + (p2pAttrs ts).length := by
  induction ts generalizing done fuel acc with
  | nil =>
    obtain ⟨fuel,rfl⟩ : ∃ n, fuel = n + 1 := ⟨fuel - 1,by omega⟩
    simp [mergedIesLenLoop, p2pAttrs]
  | cons t ts ih =>
    obtain ⟨fuel,rfl⟩ : ∃ n, fuel = n + 1 := ⟨fuel - 1,by omega⟩
    obtain ⟨hruns,hlen,hend⟩ := read_elem done t (Tlv.flat ts ++ beyond)
    have hmem :
        Tlv.flat done ++ (t.bytes ++ (Tlv.flat ts ++ beyond)) = Tlv.flat (done ++ [t]) ++ (Tlv.flat ts ++ beyond) := by
      simp
    have hall : done ++ t :: ts = done ++ [t] ++ ts := by simp
    unfold mergedIesLenLoop
    rw [if_pos (by simp), Tlv.flat_cons, List.append_assoc, hend, hlen, hall, hmem,
      ih h.2 (Nat.lt_of_succ_lt_succ hfuel), ← hmem]
    by_cases ht : IsVendor P2P_OUI t
    · have h4 := ht.four_le
      rw [if_pos (hruns.mpr (ht.runs _)), p2pAttrs_cons ht, List.length_append, List.length_drop]
      omega
    · rw [if_neg fun hc => ht (h.1 (hruns.mp hc)), p2pAttrs_cons_of_not ht]

/-- The merge copies the attribute bytes, unless it comes to an element that only runs like a P2P one. -/
theorem mergeIesLoop_flat (hlen : len < 256) (hfuel : ts.length < fuel) :
    (P2pIesClear beyond ts →
      mergeIesLoop (Tlv.flat done ++ (Tlv.flat ts ++ beyond))
        (Tlv.flat (done ++ ts)).length fuel (Tlv.flat done).length (out,len) =
        some (out ++ p2pAttrs ts,(len + (p2pAttrs ts).length) % 256)) ∧
    (¬P2pIesClear beyond ts →
      mergeIesLoop (Tlv.flat done ++ (Tlv.flat ts ++ beyond))
        (Tlv.flat (done ++ ts)).length fuel (Tlv.flat done).length (out,len) = none) := by
  induction ts generalizing done fuel out len with
  | nil =>
    obtain ⟨fuel,rfl⟩ : ∃ n, fuel = n + 1 := ⟨fuel - 1,by omega⟩
    simp [mergeIesLoop, p2pAttrs, P2pIesClear, Nat.mod_eq_of_lt hlen]
  | cons t ts ih =>
    obtain ⟨fuel,rfl⟩ : ∃ n, fuel = n + 1 := ⟨fuel - 1,by omega⟩
    obtain ⟨hruns,hbody,hend⟩ := read_elem done t (Tlv.flat ts ++ beyond)
    have hmem :
        Tlv.flat done ++ (t.bytes ++ (Tlv.flat ts ++ beyond)) = Tlv.flat (done ++ [t]) ++ (Tlv.flat ts ++ beyond) := by
      simp
    have hall : done ++ t :: ts = done ++ [t] ++ ts := by simp
    have hin : (Tlv.flat done).length < (Tlv.flat (done ++ t :: ts)).length := by simp
    unfold mergeIesLoop P2pIesClear
    rw [if_pos hin, Tlv.flat_cons, List.append_assoc, hend, hbody]
    by_cases ht : IsVendor P2P_OUI t
    · have h4 := ht.four_le
      have hcopy : slice (Tlv.flat done ++ (t.bytes ++ (Tlv.flat ts ++ beyond))) ((Tlv.flat done).length + 6)
          (t.body.length - 4) = t.body.drop 4 := by
        rw [slice_flat, show t.bytes = [t.id,UInt8.ofNat t.body.length] ++ t.body.take 4 ++
          t.body.drop 4 by simp [Tlv.bytes]]
        exact slice_middle (by simp; omega) (by simp)
      have hnext := @ih (out ++ t.body.drop 4) (done ++ [t]) fuel ((len + (t.body.length - 4)) % 256)
        (Nat.mod_lt _ (by decide)) (Nat.lt_of_succ_lt_succ hfuel)
      rw [if_pos (hruns.mpr (ht.runs _)), if_neg (Nat.not_lt.mpr h4), hcopy, hmem, hall, p2pAttrs_cons ht]
      simp only [ht, implies_true, true_and, List.append_assoc, List.length_append, List.length_drop, Nat.mod_add_mod,
        Nat.add_assoc] at hnext ⊢
      exact hnext
    · have hnext := @ih out (done ++ [t]) fuel len hlen (Nat.lt_of_succ_lt_succ hfuel)
      by_cases hr : RunsMatch 0xdd (some P2P_OUI) t (Tlv.flat ts ++ beyond)
      · rw [if_pos (hruns.mpr hr), if_pos (short_of_runs hr ht)]
        exact ⟨fun h => absurd (h.1 hr) ht,fun _ => rfl⟩
      · rw [if_neg (mt hruns.mp hr), hmem, hall, p2pAttrs_cons_of_not ht]
        simp only [hr, false_implies, true_and]
        exact hnext

end Loop

/-- The element that the merge writes is a sequence of complete elements as long as the other pass
says, with the attribute bytes of the P2P elements behind the OUI. -/
def MergeExact (ts : List Tlv) (beyond : List UInt8) : Prop :=
  ∃ out n, rtwP2pMergeIes (Tlv.flat ts ++ beyond) (Tlv.flat ts).length = some (out,n) ∧
    (∃ us, out = Tlv.flat us) ∧
    out.length = rtwGetP2pMergedIesLen (Tlv.flat ts ++ beyond) (Tlv.flat ts).length ∧ out.drop 6 = p2pAttrs ts

/-- The merge writes the attribute bytes, and the lengths that both passes return are the same. -/
def PassesAgree (ts : List Tlv) (beyond : List UInt8) : Prop :=
  ∃ out n, rtwP2pMergeIes (Tlv.flat ts ++ beyond) (Tlv.flat ts).length = some (out,n) ∧
    n = rtwGetP2pMergedIesLen (Tlv.flat ts ++ beyond) (Tlv.flat ts).length ∧ out.drop 6 = p2pAttrs ts

section Merge
variable {ts : List Tlv} {beyond out : List UInt8} {n : ℕ}

theorem rtwGetP2pMergedIesLen_flat (h : P2pIesClear beyond ts) :
    rtwGetP2pMergedIesLen (Tlv.flat ts ++ beyond) (Tlv.flat ts).length = ((p2pAttrs ts).length + 4) % 2 ^ 32 := by
  have hloop := @mergedIesLenLoop_flat beyond ts []
      ((Tlv.flat ts).length + 1) 0 h (Nat.lt_succ_of_le (Tlv.length_le_flat ts))
  simp only [Tlv.flat_nil, List.nil_append, List.length_nil] at hloop
  unfold rtwGetP2pMergedIesLen
  rw [hloop]
  omega

theorem rtwP2pMergeIes_flat (h : P2pIesClear beyond ts) :
    rtwP2pMergeIes (Tlv.flat ts ++ beyond)
    (Tlv.flat ts).length = some (ELOUI ++ p2pAttrs ts,(p2pAttrs ts).length % 256 + 4) := by
  have hloop := (@mergeIesLoop_flat beyond ELOUI ts [] ((Tlv.flat ts).length + 1) 0 (by decide)
    (Nat.lt_succ_of_le (Tlv.length_le_flat ts))).1 h
  simp only [Tlv.flat_nil, List.nil_append, List.length_nil, Nat.zero_add] at hloop
  simp [rtwP2pMergeIes, hloop]

/-- Where the merge comes back, what it wrote is known. -/
theorem clear_of_merge (h : rtwP2pMergeIes (Tlv.flat ts ++ beyond) (Tlv.flat ts).length = some (out,n)) :
    P2pIesClear beyond ts ∧ out = ELOUI ++ p2pAttrs ts ∧ n = (p2pAttrs ts).length % 256 + 4 := by
  by_cases hclear : P2pIesClear beyond ts
  · rw [rtwP2pMergeIes_flat hclear] at h
    cases h
    exact ⟨hclear,rfl,rfl⟩
  · have hloop := (@mergeIesLoop_flat beyond ELOUI ts [] ((Tlv.flat ts).length + 1) 0 (by decide)
      (Nat.lt_succ_of_le (Tlv.length_le_flat ts))).2 hclear
    simp only [Tlv.flat_nil, List.nil_append, List.length_nil] at hloop
    simp [rtwP2pMergeIes, hloop] at h

/-- What is written is two bytes longer than the other pass says. -/
theorem not_mergeExact (ts : List Tlv) (beyond : List UInt8) : ¬MergeExact ts beyond := by
  rintro ⟨out,n,hmerge,-,hlen,-⟩
  obtain ⟨hclear,rfl,-⟩ := clear_of_merge hmerge
  have hmod := Nat.mod_le ((p2pAttrs ts).length + 4) (2 ^ 32)
  rw [rtwGetP2pMergedIesLen_flat hclear, List.length_append, show ELOUI.length = 6 from rfl] at hlen
  omega

/-- The length byte stays zero, so what is written is not one element either. -/
theorem merged_not_element (h : rtwP2pMergeIes (Tlv.flat ts ++ beyond) (Tlv.flat ts).length = some (out,n)) (t : Tlv) :
    out ≠ t.bytes := by
  obtain ⟨-,rfl,-⟩ := clear_of_merge h
  intro heq
  obtain ⟨-,hlen,hbody⟩ : 0xdd = t.id ∧ 0x00 = UInt8.ofNat t.body.length ∧ _ = t.body := by
    simpa only [ELOUI, Tlv.bytes, List.cons_append, List.cons.injEq] using heq
  have hzero := t.toNat_length
  rw [← hlen, ← hbody] at hzero
  cases hzero

theorem passesAgree_iff (ts : List Tlv) (beyond : List UInt8) :
    PassesAgree ts beyond ↔ P2pIesClear beyond ts ∧ (p2pAttrs ts).length % 2 ^ 32 < 256 := by
  constructor
  · rintro ⟨out,n,hmerge,hn,-⟩
    obtain ⟨hclear,-,rfl⟩ := clear_of_merge hmerge
    rw [rtwGetP2pMergedIesLen_flat hclear] at hn
    exact ⟨hclear,by omega⟩
  · rintro ⟨hclear,hlen⟩
    refine ⟨_,_,rtwP2pMergeIes_flat hclear,?_,rfl⟩
    rw [rtwGetP2pMergedIesLen_flat hclear]
    omega

end Merge

/-- The merge never writes a sequence of elements of the length that the other pass returns, nor an
element with its length in it. The two values returned agree, and the attribute bytes are right,
exactly when no element only runs like a P2P one and the attributes have less than 256 bytes. -/
theorem p2p_merge_passes (ts : List Tlv) (beyond : List UInt8) :
    ¬MergeExact ts beyond ∧
    (∀ out n t, rtwP2pMergeIes (Tlv.flat ts ++ beyond) (Tlv.flat ts).length = some (out,n) →
      out ≠ Tlv.bytes t) ∧
    (PassesAgree ts beyond ↔ P2pIesClear beyond ts ∧ (p2pAttrs ts).length % 2 ^ 32 < 256) :=
  ⟨not_mergeExact ts beyond,fun _ _ t h => merged_not_element h t,passesAgree_iff ts beyond⟩

/-- A P2P element with one attribute, the invitation flags -/
def invitationIe : List Tlv := [⟨0xdd,P2P_OUI ++ [18,1,0,1],by decide⟩]

theorem merged_ie_has_no_length : ¬∀ ts beyond, MergeExact ts beyond := by
  intro h
  obtain ⟨out,n,hmerge,-,hlen,-⟩ := h invitationIe []
  have hout : rtwP2pMergeIes (Tlv.flat invitationIe ++ [])
      (Tlv.flat invitationIe).length = some (ELOUI ++ [18,1,0,1],8) := by
    decide
  rw [hout] at hmerge
  cases hmerge
  exact absurd hlen (by decide)

end Rtl8188fu
