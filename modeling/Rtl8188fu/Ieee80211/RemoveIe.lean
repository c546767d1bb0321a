import Rtl8188fu.Ieee80211.DelVendorIe

/-! # Taking elements with a number and an OUI out of a buffer

`rtw_ies_remove_ie` on a sequence of complete elements, with more memory behind it. An element
that is shorter than the OUI is compared with what follows it as well, at the end of the buffer
with what earlier removals left there.
-/
namespace Rtl8188fu
open Bytes

/-- The buffer, `*ies_len` and the value returned -/
structure Removal where
  ies : List UInt8
  iesLen : ℕ
  ret : Status

/-- The loop of `rtw_ies_remove_ie` from `start` on; `none` when `remain_len` wraps, for then
`_rtw_memmove` leaves the buffer -/
def iesRemoveIeLoop (eid : UInt8) (oui : Option (List UInt8)) : ℕ → ℕ → ℕ → Removal → Option Removal
  | 0, _, _, _ => none
  | fuel + 1, start, searchLen, r =>
    match rtwGetIeEx (r.ies.drop start) searchLen eid oui with
    | some (target, targetIelen) =>
      if target + targetIelen ≤ searchLen then
        let remainLen := searchLen - (target + targetIelen)
        let remainIes := start + target + targetIelen
        iesRemoveIeLoop eid oui fuel (start + target) remainLen
          ⟨patch r.ies (start + target) (slice r.ies remainIes remainLen),r.iesLen - targetIelen,.success⟩
      else none
    | none => some r

def rtwIesRemoveIe (ies : List UInt8) (iesLen offset : ℕ) (eid : UInt8) (oui : Option (List UInt8)) :
    Option Removal :=
  if iesLen ≤ offset then some ⟨ies,iesLen,.fail⟩
  else iesRemoveIeLoop eid oui (iesLen + 1) offset (iesLen - offset) ⟨ies,iesLen,.fail⟩

/-- The element has the number, and its body starts with the OUI when one is given. -/
def IeMatches (eid : UInt8) (oui : Option (List UInt8)) (t : Tlv) : Prop := t.id = eid ∧ ∀ o ∈ oui, o <+: t.body

/-- The same as the search sees it, with the bytes `ys` behind the element -/
def RunsMatch (eid : UInt8) (oui : Option (List UInt8)) (t : Tlv) (ys : List UInt8) : Prop :=
  t.id = eid ∧ ∀ o ∈ oui, o <+: t.body ++ ys

instance (eid : UInt8) (oui : Option (List UInt8)) : DecidablePred (IeMatches eid oui) := fun t => by
  delta IeMatches
  infer_instance

instance (eid : UInt8) (oui : Option (List UInt8)) (t : Tlv) (ys : List UInt8) :
    Decidable (RunsMatch eid oui t ys) := by
  delta RunsMatch
  infer_instance

def unmatched (eid : UInt8) (oui : Option (List UInt8)) (ts : List Tlv) : List Tlv :=
  ts.filter fun t => ¬IeMatches eid oui t

/-- What `_rtw_memmove` leaves behind the elements `ts` when they take the place of `t` -/
def freed (t : Tlv) (ts : List Tlv) : List UInt8 := (t.bytes ++ Tlv.flat ts).drop (Tlv.flat ts).length

/-- The elements that the loop leaves, and the memory behind them -/
def afterRemoval (eid : UInt8) (oui : Option (List UInt8)) : List Tlv → List UInt8 → List Tlv × List UInt8
  | [], behind => ([],behind)
  | t :: ts, behind =>
    if RunsMatch eid oui t (Tlv.flat ts ++ behind) then afterRemoval eid oui ts (freed t ts ++ behind)
    else (t :: (afterRemoval eid oui ts behind).1,(afterRemoval eid oui ts behind).2)

/-- No element that is to stay looks like a match together with what follows it at its turn. -/
def RunsClear (eid : UInt8) (oui : Option (List UInt8)) : List Tlv → List UInt8 → Prop
  | [], _ => True
  | t :: ts, behind =>
    if IeMatches eid oui t then RunsClear eid oui ts (freed t ts ++ behind)
    else ¬RunsMatch eid oui t (Tlv.flat ts ++ behind) ∧ RunsClear eid oui ts behind

section Search
variable {eid : UInt8} {oui : Option (List UInt8)} {inIe ys : List UInt8} {inLen fuel fuel' cnt a : ℕ} {t : Tlv}

theorem rtwGetIeExLoop_fuel (h : inLen - cnt < fuel) (h' : inLen - cnt < fuel') :
    rtwGetIeExLoop inIe inLen eid oui fuel cnt = rtwGetIeExLoop inIe inLen eid oui fuel' cnt := by
  induction fuel generalizing fuel' cnt with
  | zero => omega
  | succ fuel ih =>
    obtain ⟨fuel',rfl⟩ : ∃ n, fuel' = n + 1 := ⟨fuel' - 1,by omega⟩
    unfold rtwGetIeExLoop
    split
    · split
      · rfl
      · exact ih (by omega) (by omega)
    · rfl

theorem ouiMatches_drop : ouiMatches (inIe.drop a) oui cnt = ouiMatches inIe oui (a + cnt) := by
  cases oui with
  | none => rfl
  | some o => simp only [ouiMatches, slice, List.drop_drop, Nat.add_assoc]

/-- The search behind a place is the search on what is behind it. -/
theorem rtwGetIeExLoop_drop (a : ℕ) :
    rtwGetIeExLoop inIe (a + inLen) eid oui fuel (a + cnt) =
      (rtwGetIeExLoop (inIe.drop a) inLen eid oui fuel cnt).map fun r => (a + r.1,r.2) := by
  induction fuel generalizing cnt with
  | zero => rfl
  | succ fuel ih =>
    simp only [rtwGetIeExLoop, byteAt_drop, ouiMatches_drop, Nat.add_lt_add_iff_left, Nat.add_assoc]
    split
    · split
      · rfl
      · exact ih
    · rfl

theorem runsMatch_iff (t : Tlv) (ys : List UInt8) :
    RunsMatch eid oui t ys ↔ byteAt (t.bytes ++ ys) 0 = eid ∧ ouiMatches (t.bytes ++ ys) oui 0 = true := by
  refine and_congr_right fun _ => ?_
  cases oui with
  | none => simp [ouiMatches]
  | some o =>
    simp only [Option.mem_def, Option.some.injEq, forall_eq', ouiMatches, decide_eq_true_eq]
    exact ⟨fun h => (List.prefix_iff_eq_take.mp h).symm,fun h => h ▸ List.take_prefix _ _⟩

theorem rtwGetIeEx_match (h : RunsMatch eid oui t ys) (n : ℕ) :
    rtwGetIeEx (t.bytes ++ ys) (t.bytes.length + n) eid oui = some (0,t.bytes.length) := by
  have hlen := (byteAt_tlv [] t ys).2.1
  simp only [rtwGetIeEx, rtwGetIeExLoop]
  rw [if_pos (by rw [Tlv.length_bytes]; omega), if_pos ((runsMatch_iff t ys).mp h)]
  exact congrArg (fun k => some (0,k + 2)) hlen

theorem rtwGetIeEx_pass (h : ¬RunsMatch eid oui t ys) (n : ℕ) :
    rtwGetIeEx (t.bytes ++ ys) (t.bytes.length + n) eid oui =
      (rtwGetIeEx ys n eid oui).map fun r => (t.bytes.length + r.1,r.2) := by
  have hlen : (byteAt (t.bytes ++ ys) (0 + 1)).toNat = t.body.length := (byteAt_tlv [] t ys).2.1
  have hpass : rtwGetIeEx (t.bytes ++ ys) (t.bytes.length + n) eid oui =
      rtwGetIeExLoop (t.bytes ++ ys) (t.bytes.length + n) eid oui (t.bytes.length + n) (t.bytes.length + 0) := by
    conv_lhs => unfold rtwGetIeEx rtwGetIeExLoop
    rw [if_pos (by rw [Tlv.length_bytes]; omega), if_neg (mt (runsMatch_iff t ys).mpr h), hlen, Tlv.length_bytes]
    congr 1
    omega
  rw [hpass, rtwGetIeExLoop_drop, List.drop_left, rtwGetIeEx]
  congr 1
  exact rtwGetIeExLoop_fuel (by rw [Tlv.length_bytes]; omega) (by omega)

theorem rtwGetIeEx_nil : rtwGetIeEx inIe 0 eid oui = none := rfl

end Search

section Loop
variable {eid : UInt8} {oui : Option (List UInt8)} {behind ies : List UInt8} {fuel iesLen : ℕ} {ret : Status}
variable {t : Tlv} {ts done : List Tlv}

/-- An element that the search passes is left where it is. -/
theorem iesRemoveIeLoop_pass (h : ¬RunsMatch eid oui t (Tlv.flat ts ++ behind)) :
    iesRemoveIeLoop eid oui (fuel + 1) (Tlv.flat done).length (Tlv.flat (t :: ts)).length
        ⟨Tlv.flat done ++ (Tlv.flat (t :: ts) ++ behind),iesLen,ret⟩ =
      iesRemoveIeLoop eid oui (fuel + 1) (Tlv.flat (done ++ [t])).length (Tlv.flat ts).length
        ⟨Tlv.flat (done ++ [t]) ++ (Tlv.flat ts ++ behind),iesLen,ret⟩ := by
  have hmem : Tlv.flat done ++ (Tlv.flat (t :: ts) ++ behind) = Tlv.flat (done ++ [t]) ++ (Tlv.flat ts ++ behind) := by
    simp
  have hdone : (Tlv.flat (done ++ [t])).length = (Tlv.flat done).length + t.bytes.length := by simp
  have hsearch : (Tlv.flat (t :: ts)).length = t.bytes.length + (Tlv.flat ts).length := List.length_append
  rw [iesRemoveIeLoop, iesRemoveIeLoop, List.drop_left, List.drop_left, ← hmem, Tlv.flat_cons, List.append_assoc,
    List.length_append, rtwGetIeEx_pass h]
  cases rtwGetIeEx (Tlv.flat ts ++ behind) (Tlv.flat ts).length eid oui with
  | none => rfl
  | some r =>
    obtain ⟨p,n⟩ := r
    have hplace : (Tlv.flat done).length + (t.bytes.length + p) = (Tlv.flat (done ++ [t])).length + p := by omega
    have hremain :
        t.bytes.length + (Tlv.flat ts).length - (t.bytes.length + (p + n)) = (Tlv.flat ts).length - (p + n) := by
      omega
    simp only [Option.map_some, hplace, hremain, Nat.add_assoc, Nat.add_le_add_iff_left]

/-- An element that the search takes is overwritten by what is behind it. -/
theorem iesRemoveIeLoop_take (h : RunsMatch eid oui t (Tlv.flat ts ++ behind)) :
    iesRemoveIeLoop eid oui (fuel + 1) (Tlv.flat done).length (Tlv.flat (t :: ts)).length
        ⟨Tlv.flat done ++ (Tlv.flat (t :: ts) ++ behind),(Tlv.flat done).length + (Tlv.flat (t :: ts)).length,ret⟩ =
      iesRemoveIeLoop eid oui fuel (Tlv.flat done).length (Tlv.flat ts).length
        ⟨Tlv.flat done ++ (Tlv.flat ts ++ (freed t ts ++ behind)),(Tlv.flat done).length +
          (Tlv.flat ts).length,.success⟩ := by
  have hsearch : (Tlv.flat (t :: ts)).length = t.bytes.length + (Tlv.flat ts).length := List.length_append
  have hremain : t.bytes.length + (Tlv.flat ts).length - t.bytes.length = (Tlv.flat ts).length :=
    Nat.add_sub_cancel_left _ _
  have hslice : slice (Tlv.flat done ++ (Tlv.flat (t :: ts) ++ behind)) ((Tlv.flat done).length + t.bytes.length)
      (Tlv.flat ts).length = Tlv.flat ts := by
    have := @slice_middle _ (Tlv.flat done ++ t.bytes) (Tlv.flat ts) behind _ _ rfl rfl
    simpa only [List.length_append, Tlv.flat_cons, List.append_assoc] using this
  have hmove : patch (Tlv.flat done ++ (Tlv.flat (t :: ts) ++ behind)) (Tlv.flat done).length (Tlv.flat ts) =
      Tlv.flat done ++ (Tlv.flat ts ++ (freed t ts ++ behind)) := by
    have hsplit : Tlv.flat done ++ (Tlv.flat (t :: ts) ++ behind) =
        Tlv.flat done ++ (Tlv.flat (t :: ts)).take (Tlv.flat ts).length ++ (freed t ts ++ behind) := by
      rw [freed, ← Tlv.flat_cons, List.append_assoc, ← List.append_assoc (List.take _ _), List.take_append_drop]
    rw [hsplit, patch_middle (by simp), List.append_assoc]
  rw [iesRemoveIeLoop]
  simp only [List.drop_left]
  rw [hsearch, Tlv.flat_cons, List.append_assoc, rtwGetIeEx_match h]
  simp only [Nat.zero_add, Nat.add_zero, Nat.le_add_right, if_true, hremain]
  rw [← List.append_assoc t.bytes, ← Tlv.flat_cons, hslice, hmove]
  congr 2
  omega

theorem IeMatches.runs (h : IeMatches eid oui t) (ys : List UInt8) : RunsMatch eid oui t ys :=
  ⟨h.1,fun o ho => (h.2 o ho).trans (List.prefix_append _ _)⟩

theorem unmatched_cons (h : ¬IeMatches eid oui t) : unmatched eid oui (t :: ts) = t :: unmatched eid oui ts :=
  List.filter_cons_of_pos (by simpa using h)

theorem unmatched_cons_of_match (h : IeMatches eid oui t) : unmatched eid oui (t :: ts) = unmatched eid oui ts :=
  List.filter_cons_of_neg (by simpa using h)

theorem length_afterRemoval_le (eid : UInt8) (oui : Option (List UInt8)) (ts : List Tlv) (behind : List UInt8) :
    (Tlv.flat (afterRemoval eid oui ts behind).1).length ≤ (Tlv.flat (unmatched eid oui ts)).length := by
  induction ts generalizing behind with
  | nil => exact Nat.le_refl _
  | cons t ts ih =>
    unfold afterRemoval
    by_cases ht : IeMatches eid oui t
    · rw [if_pos (ht.runs _), unmatched_cons_of_match ht]
      exact ih _
    · rw [unmatched_cons ht]
      split
      · exact (ih _).trans (by simp)
      · simpa using ih behind

theorem afterRemoval_of_clear (h : RunsClear eid oui ts behind) :
    (afterRemoval eid oui ts behind).1 = unmatched eid oui ts := by
  induction ts generalizing behind with
  | nil => rfl
  | cons t ts ih =>
    unfold RunsClear at h
    unfold afterRemoval
    by_cases ht : IeMatches eid oui t
    · rw [if_pos ht] at h
      rw [if_pos (ht.runs _), unmatched_cons_of_match ht]
      exact ih h
    · rw [if_neg ht] at h
      rw [if_neg h.1, unmatched_cons ht, ih h.2]

/-- When as much is left as should be, nothing wrong was taken. -/
theorem clear_of_length (h : (Tlv.flat (afterRemoval eid oui ts behind).1).length =
      (Tlv.flat (unmatched eid oui ts)).length) :
    RunsClear eid oui ts behind := by
  induction ts generalizing behind with
  | nil => trivial
  | cons t ts ih =>
    unfold afterRemoval at h
    unfold RunsClear
    by_cases ht : IeMatches eid oui t
    · rw [if_pos (ht.runs _), unmatched_cons_of_match ht] at h
      rw [if_pos ht]
      exact ih h
    · rw [unmatched_cons ht] at h
      rw [if_neg ht]
      by_cases hr : RunsMatch eid oui t (Tlv.flat ts ++ behind)
      · rw [if_pos hr] at h
        have hle := length_afterRemoval_le eid oui ts (freed t ts ++ behind)
        simp only [Tlv.flat_cons, List.length_append, Tlv.length_bytes] at h
        omega
      · rw [if_neg hr] at h
        simp only [Tlv.flat_cons, List.length_append, Nat.add_left_cancel_iff] at h
        exact ⟨hr,ih h⟩

/-- The freed bytes fill the buffer up, and what was behind it stays. -/
theorem afterRemoval_behind (eid : UInt8) (oui : Option (List UInt8)) (ts : List Tlv) (behind : List UInt8) :
    ∃ tail, (afterRemoval eid oui ts behind).2 = tail ++ behind ∧
      (Tlv.flat (afterRemoval eid oui ts behind).1).length + tail.length = (Tlv.flat ts).length := by
  induction ts generalizing behind with
  | nil => exact ⟨[],rfl,rfl⟩
  | cons t ts ih =>
    unfold afterRemoval
    split
    · obtain ⟨tail,htail,hlen⟩ := ih (freed t ts ++ behind)
      refine ⟨tail ++ freed t ts,by rw [htail, List.append_assoc],?_⟩
      simp only [freed, Tlv.flat_cons, List.length_append, List.length_drop] at hlen ⊢
      omega
    · obtain ⟨tail,htail,hlen⟩ := ih behind
      refine ⟨tail,htail,?_⟩
      simp only [Tlv.flat_cons, List.length_append]
      omega

/-- The value returned when something was taken out, or not -/
def removalStatus (ret : Status) (ts left : List Tlv) : Status :=
  if (Tlv.flat left).length < (Tlv.flat ts).length then .success else ret

theorem iesRemoveIeLoop_flat (hfuel : ts.length < fuel) :
    iesRemoveIeLoop eid oui fuel (Tlv.flat done).length (Tlv.flat ts).length
        ⟨Tlv.flat done ++ (Tlv.flat ts ++ behind),(Tlv.flat done).length + (Tlv.flat ts).length,ret⟩ =
      some ⟨Tlv.flat done ++ (Tlv.flat (afterRemoval eid oui ts behind).1 ++ (afterRemoval eid oui ts behind).2),
        (Tlv.flat done).length + (Tlv.flat (afterRemoval eid oui ts behind).1).length,
        removalStatus ret ts (afterRemoval eid oui ts behind).1⟩ := by
  induction ts generalizing done behind fuel ret with
  | nil =>
    obtain ⟨fuel,rfl⟩ : ∃ n, fuel = n + 1 := ⟨fuel - 1,by omega⟩
    rw [iesRemoveIeLoop, Tlv.flat_nil, List.length_nil, rtwGetIeEx_nil]
    rfl
  | cons t ts ih =>
    obtain ⟨fuel,rfl⟩ : ∃ n, fuel = n + 1 := ⟨fuel - 1,by omega⟩
    unfold afterRemoval
    by_cases ht : RunsMatch eid oui t (Tlv.flat ts ++ behind)
    · have hle := length_afterRemoval_le eid oui ts (freed t ts ++ behind)
      obtain ⟨tail,-,htail⟩ := afterRemoval_behind eid oui ts (freed t ts ++ behind)
      rw [iesRemoveIeLoop_take ht, ih (Nat.lt_of_succ_lt_succ hfuel), if_pos ht]
      have hret : removalStatus ret (t :: ts) (afterRemoval eid oui ts (freed t ts ++ behind)).1 = .success := by
        apply if_pos
        simp only [Tlv.flat_cons, List.length_append, Tlv.length_bytes]
        omega
      rw [hret, removalStatus, ite_self]
    · have hsnoc := @ih behind (fuel + 1) ret (done ++ [t]) (Nat.lt_of_succ_lt hfuel)
      have htotal : (Tlv.flat (done ++ [t])).length + (Tlv.flat ts).length =
          (Tlv.flat done).length + (Tlv.flat (t :: ts)).length := by
        simp
        omega
      rw [iesRemoveIeLoop_pass ht, ← htotal, hsnoc, if_neg ht]
      simp [removalStatus, Nat.add_assoc]

end Loop

/-- A removal comes back with the elements before the offset and those behind it that do not match,
and with their total length. It tells whether anything was taken out, and what is behind the
buffer stays. -/
def RemovalExact (eid : UInt8) (oui : Option (List UInt8)) (pre ts : List Tlv) (beyond : List UInt8) : Prop :=
  ∃ out n ret, rtwIesRemoveIe (Tlv.flat (pre ++ ts) ++ beyond)
      (Tlv.flat (pre ++ ts)).length (Tlv.flat pre).length eid oui = some ⟨out,n,ret⟩ ∧
    n = (Tlv.flat (pre ++ unmatched eid oui ts)).length ∧ out.take n = Tlv.flat (pre ++ unmatched eid oui ts) ∧
    (ret = .success ↔ ∃ t ∈ ts, IeMatches eid oui t) ∧ out.drop (Tlv.flat (pre ++ ts)).length = beyond

theorem rtwIesRemoveIe_flat (eid : UInt8) (oui : Option (List UInt8)) (pre ts : List Tlv) (beyond : List UInt8) :
    rtwIesRemoveIe (Tlv.flat (pre ++ ts) ++ beyond) (Tlv.flat (pre ++ ts)).length (Tlv.flat pre).length eid oui =
      some ⟨Tlv.flat pre ++ (Tlv.flat (afterRemoval eid oui ts beyond).1 ++ (afterRemoval eid oui ts beyond).2),
        (Tlv.flat pre).length + (Tlv.flat (afterRemoval eid oui ts beyond).1).length,
        removalStatus .fail ts (afterRemoval eid oui ts beyond).1⟩ := by
  unfold rtwIesRemoveIe
  simp only [Tlv.flat_append, List.length_append, List.append_assoc, Nat.add_sub_cancel_left]
  cases ts with
  | nil => simp [afterRemoval, removalStatus]
  | cons t ts =>
    have hlen := Tlv.length_le_flat (t :: ts)
    rw [if_neg (by simp)]
    exact iesRemoveIeLoop_flat (by omega)

theorem exists_match_iff (eid : UInt8) (oui : Option (List UInt8)) (ts : List Tlv) :
    (∃ t ∈ ts, IeMatches eid oui t) ↔ (Tlv.flat (unmatched eid oui ts)).length < (Tlv.flat ts).length := by
  induction ts with
  | nil => simp [unmatched]
  | cons t ts ih =>
    by_cases ht : IeMatches eid oui t
    · have hle : (Tlv.flat (unmatched eid oui ts)).length ≤ (Tlv.flat ts).length :=
        (List.filter_sublist.flatMap Tlv.bytes).length_le
      refine iff_of_true ⟨t,List.mem_cons_self,ht⟩ ?_
      rw [unmatched_cons_of_match ht, Tlv.flat_cons, List.length_append, Tlv.length_bytes]
      omega
    · simp [unmatched_cons ht, ← ih, ht]

/-- A removal is exact exactly when no element that is to stay runs like a match. -/
theorem ies_remove_exact_iff (eid : UInt8) (oui : Option (List UInt8)) (pre ts : List Tlv) (beyond : List UInt8) :
    RemovalExact eid oui pre ts beyond ↔ RunsClear eid oui ts beyond := by
  unfold RemovalExact
  rw [rtwIesRemoveIe_flat]
  constructor
  · rintro ⟨_,_,_,⟨⟩,hn,-⟩
    simp only [Tlv.flat_append, List.length_append, Nat.add_left_cancel_iff] at hn
    exact clear_of_length hn
  · intro h
    obtain ⟨tail,htail,hlen⟩ := afterRemoval_behind eid oui ts beyond
    rw [afterRemoval_of_clear h] at hlen ⊢
    refine ⟨_,_,_,rfl,by simp,?_,?_,?_⟩
    · rw [← List.append_assoc, ← List.length_append, List.take_left, Tlv.flat_append]
    · rw [exists_match_iff, removalStatus]
      simp
    · have htotal :
          (Tlv.flat (pre ++ ts)).length = (Tlv.flat pre ++ (Tlv.flat (unmatched eid oui ts) ++ tail)).length := by
        simp only [Tlv.flat_append, List.length_append, hlen]
      rw [htail, ← List.append_assoc (Tlv.flat _) tail, ← List.append_assoc, htotal, List.drop_left]

/-- A vendor element without a body, and one behind it with the number and the length that the OUI
of WPA begins with -/
def emptyVendorIe : List Tlv := [⟨0xdd,[],by decide⟩,⟨0x00,[0xf2,0x01] ++ List.replicate 78 0,by decide⟩]

theorem empty_vendor_ie_removed : ¬∀ eid oui pre ts beyond, RemovalExact eid oui pre ts beyond := by
  intro h
  obtain ⟨_,_,_,hres,hn,-⟩ := h 0xdd (some wpaOuiType) [] emptyVendorIe []
  rw [rtwIesRemoveIe_flat] at hres
  cases hres
  simp only [Tlv.flat_append, List.length_append, Nat.add_left_cancel_iff] at hn
  exact absurd (clear_of_length hn).1 (by decide)

end Rtl8188fu
