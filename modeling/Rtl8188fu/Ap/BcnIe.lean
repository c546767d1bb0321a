import Rtl8188fu.Ap.BcnTim
import Rtl8188fu.Ieee80211.DelVendorIe

/-! # Putting an element into the beacon, and taking one out

`rtw_add_bcn_ie` and `rtw_remove_bcn_ie` on `pnetwork->IEs`: twelve fixed bytes and a sequence of
elements, with room behind it.
-/
namespace Rtl8188fu
open Bytes

/-- The scan of `rtw_add_bcn_ie`: the element that `p` points to with its length, and `bmatch` -/
def addBcnIeScan (pie : List UInt8) (ieLength : ℕ) (index : UInt8) :
    ℕ → ℕ → Option (ℕ × ℕ) → Option (ℕ × ℕ) × Bool
  | 0, _, p => (p,false)
  | fuel + 1, i, p =>
    if i < ieLength then
      let ielen := (byteAt pie (i + 1)).toNat
      if index < byteAt pie i then (p,false)
      else if byteAt pie i = index then (some (i,ielen),true)
      else addBcnIeScan pie ieLength index fuel (elemEnd pie i) (some (i,ielen))
    else (p,false)

/-- What both functions end with: `ie` is written at `dst`, and what was behind `premainder` follows it.
The result is the memory and `IELength`. -/
def putBcnIe (pie : List UInt8) (ieLength dst premainder : ℕ) (ie : List UInt8) : List UInt8 × ℕ :=
  let remainderIelen := (((ieLength : ℤ) - premainder) % 2 ^ 32).toNat
  let remainder := if mallocFits remainderIelen then slice pie premainder remainderIelen else []
  (patch (patch pie dst ie) (dst + ie.length) remainder,(dst + ie.length + remainderIelen) % 2 ^ 32)

def rtwAddBcnIe (pie : List UInt8) (ieLength : ℕ) (index : UInt8) (data : List UInt8) : List UInt8 × ℕ :=
  match addBcnIeScan pie ieLength index (ieLength + 1) BEACON_IE_OFFSET none with
  | (some (p,ielen),bmatch) =>
    if 0 < ielen then
      putBcnIe pie ieLength (if bmatch then p else p + (ielen + 2)) (p + (ielen + 2))
        (index :: UInt8.ofNat data.length :: data)
    else (pie,ieLength)
  | (none,_) => (pie,ieLength)

def rtwRemoveBcnIe (pie : List UInt8) (ieLength : ℕ) (index : UInt8) : List UInt8 × ℕ :=
  match rtwGetIe (pie.drop BEACON_IE_OFFSET) index (ieLength - BEACON_IE_OFFSET) with
  | some (p,ielen) =>
    if 0 < ielen then putBcnIe pie ieLength (BEACON_IE_OFFSET + p) (BEACON_IE_OFFSET + p + (ielen + 2)) []
      else (pie,ieLength)
  | none => (pie,ieLength)

/-- The elements in front of the first one with this number or a larger one -/
def passedIes (index : UInt8) (ts : List Tlv) : List Tlv := ts.takeWhile fun u => u.id < index

/-- That one, if it has the number -/
def sameIe (index : UInt8) (ts : List Tlv) : List Tlv :=
  match ts.dropWhile fun u => u.id < index with
  | u :: _ => if u.id = index then [u] else []
  | [] => []

def restIes (index : UInt8) (ts : List Tlv) : List Tlv :=
  (ts.dropWhile fun u => u.id < index).drop (sameIe index ts).length

/-- The scan ends with `p` at an element that is not empty. -/
def PutsBcnIe (index : UInt8) (ts : List Tlv) : Prop := ∃ u ∈ (passedIes index ts ++ sameIe index ts).getLast?,
    u.body ≠ []

/-- With such an element there is no other one with the number; without, the sequence is already as
it should be. -/
def AddsOnce (t : Tlv) (ts : List Tlv) : Prop :=
  (PutsBcnIe t.id ts → ∀ u ∈ restIes t.id ts, u.id ≠ t.id) ∧
    (¬PutsBcnIe t.id ts → (ts.filter fun u => u.id = t.id) = [t])

/-- The memory begins with these elements, and `IELength` is their length. -/
def HoldsIes (fixed : List UInt8) (ts : List Tlv) (r : List UInt8 × ℕ) : Prop :=
  r.1.take r.2 = fixed ++ Tlv.flat ts ∧ r.2 = fixed.length + (Tlv.flat ts).length

/-- One element with the number, with the data, and the others as they were -/
def AddExact (fixed : List UInt8) (t : Tlv) (ts : List Tlv) (r : List UInt8 × ℕ) : Prop :=
  ∃ ts', HoldsIes fixed ts' r ∧ (ts'.filter fun u => u.id = t.id) = [t] ∧
    (ts'.filter fun u => u.id ≠ t.id) = ts.filter fun u => u.id ≠ t.id

section Place
variable {index : UInt8} {ts : List Tlv} {u : Tlv}

theorem place_split (index : UInt8) (ts : List Tlv) :
    ts = passedIes index ts ++ (sameIe index ts ++ restIes index ts) := by
  have hsame : ts.dropWhile (fun u => u.id < index) = sameIe index ts ++ restIes index ts := by
    unfold restIes sameIe
    cases ts.dropWhile fun u => u.id < index with
    | nil => rfl
    | cons u us =>
      by_cases hu : u.id = index
      · simp [hu]
      · simp [hu]
  rw [← hsame]
  exact List.takeWhile_append_dropWhile.symm

theorem passedIes_lt (h : u ∈ passedIes index ts) : u.id < index := by simpa using List.mem_takeWhile_imp h

theorem sameIe_cases (index : UInt8) (ts : List Tlv) :
    (∃ u, sameIe index ts = [u] ∧ u.id = index) ∨
      sameIe index ts = [] ∧ ∀ u us, restIes index ts = u :: us → index < u.id := by
  cases hd : ts.dropWhile fun u => u.id < index with
  | nil => exact .inr (by simp [sameIe, restIes, hd])
  | cons u us =>
    have hu : ¬u.id < index := by
      have := List.head_dropWhile_not (fun u : Tlv => decide (u.id < index)) (by simp [hd] : ts.dropWhile _ ≠ [])
      simpa [hd] using this
    by_cases hid : u.id = index
    · exact .inl ⟨u,by simp [sameIe, hd, hid],hid⟩
    · refine .inr ⟨by simp [sameIe, hd, hid],?_⟩
      intro v vs hv
      have hv' : u :: us = v :: vs := by simpa [restIes, sameIe, hd, hid] using hv
      obtain ⟨rfl,-⟩ := List.cons.inj hv'
      exact UInt8.lt_of_le_of_ne (UInt8.not_lt.mp hu) (Ne.symm hid)

end Place

section Scan
variable {fixed room : List UInt8} {index : UInt8} {ts pre post : List Tlv} {fuel : ℕ}

/-- Where the last of some elements behind the fixed bytes is, and its length -/
def lastIe (fixed : List UInt8) (l : List Tlv) : Option (ℕ × ℕ) :=
  l.getLast?.map fun w => ((fixed ++ Tlv.flat l.dropLast).length,w.body.length)

theorem lastIe_concat (fixed : List UInt8) (l : List Tlv) (w : Tlv) :
    lastIe fixed (l ++ [w]) = some ((fixed ++ Tlv.flat l).length,w.body.length) := by
  simp [lastIe]

theorem read_bcnIe (fixed : List UInt8) (pre : List Tlv) (w : Tlv) (ys : List UInt8) :
    byteAt (fixed ++ (Tlv.flat pre ++ (w.bytes ++ ys))) (fixed ++ Tlv.flat pre).length = w.id ∧
      (byteAt (fixed ++ (Tlv.flat pre ++ (w.bytes ++ ys))) ((fixed ++ Tlv.flat pre).length + 1)).toNat =
        w.body.length ∧
      elemEnd (fixed ++ (Tlv.flat pre ++ (w.bytes ++ ys))) (fixed ++ Tlv.flat pre).length =
        (fixed ++ Tlv.flat (pre ++ [w])).length := by
  obtain ⟨hid,hlen,-⟩ := byteAt_tlv (fixed ++ Tlv.flat pre) w ys
  rw [List.append_assoc] at hid hlen
  refine ⟨hid,hlen,?_⟩
  unfold elemEnd
  rw [hlen]
  simp [Nat.add_assoc]

theorem addBcnIeScan_pass (hpre : ∀ u ∈ pre, u.id < index) :
    addBcnIeScan (fixed ++ (Tlv.flat (pre ++ post) ++ room))
        (fixed ++ Tlv.flat (pre ++ post)).length index (fuel + pre.length) fixed.length none =
      addBcnIeScan (fixed ++ (Tlv.flat (pre ++ post) ++ room)) (fixed ++ Tlv.flat (pre ++ post)).length index fuel
        (fixed ++ Tlv.flat pre).length (lastIe fixed pre) := by
  induction pre using List.reverseRecOn generalizing post fuel with
  | nil => simp [lastIe]
  | append_singleton pre w ih =>
    have hw := hpre w (by simp)
    have hstep := @ih (w :: post) (fuel + 1) fun u hu => hpre u (List.mem_append_left _ hu)
    obtain ⟨hid,hlen,hend⟩ := read_bcnIe fixed pre w (Tlv.flat post ++ room)
    have hmem : fixed ++ (Tlv.flat (pre ++ [w] ++ post) ++ room) =
        fixed ++ (Tlv.flat pre ++ (w.bytes ++ (Tlv.flat post ++ room))) := by simp
    have hall : pre ++ w :: post = pre ++ [w] ++ post := by simp
    have hfuel : fuel + (pre ++ [w]).length = fuel + 1 + pre.length := by simp; omega
    have hin : (fixed ++ Tlv.flat pre).length < (fixed ++ Tlv.flat (pre ++ [w] ++ post)).length := by simp
    rw [hall] at hstep
    rw [hfuel, hstep, lastIe_concat, addBcnIeScan, if_pos hin, hmem, hid, hlen, hend,
      if_neg (UInt8.not_lt.mpr (UInt8.le_of_lt hw)), if_neg (UInt8.ne_of_lt hw)]

theorem addBcnIeScan_flat (hfuel : ts.length < fuel) :
    addBcnIeScan (fixed ++ (Tlv.flat ts ++ room)) (fixed ++ Tlv.flat ts).length index fuel fixed.length none =
      (lastIe fixed (passedIes index ts ++ sameIe index ts),decide (sameIe index ts ≠ [])) := by
  have hlen := congrArg List.length (place_split index ts)
  have hflat := congrArg Tlv.flat (place_split index ts)
  rw [List.length_append] at hlen
  obtain ⟨k,rfl⟩ : ∃ k, fuel = k + 1 + (passedIes index ts).length :=
    ⟨fuel - 1 - (passedIes index ts).length,by omega⟩
  rw [hflat, addBcnIeScan_pass fun u hu => passedIes_lt hu]
  rcases sameIe_cases index ts with ⟨u,hsame,hid⟩ | ⟨hsame,hrest⟩
  · obtain ⟨hbyte,hbody,-⟩ := read_bcnIe fixed (passedIes index ts) u (Tlv.flat (restIes index ts) ++ room)
    have hmem : fixed ++ (Tlv.flat (passedIes index ts ++ (sameIe index ts ++ restIes index ts)) ++ room) =
        fixed ++ (Tlv.flat (passedIes index ts) ++ (u.bytes ++ (Tlv.flat (restIes index ts) ++ room))) := by
          simp [hsame]
    unfold addBcnIeScan
    rw [if_pos (by simp [hsame]), hmem, hbyte, hbody, if_neg (by rw [hid]; exact UInt8.lt_irrefl _), if_pos hid, hsame,
      lastIe_concat]
    rfl
  · rw [hsame, List.nil_append, List.append_nil]
    unfold addBcnIeScan
    cases hr : restIes index ts with
    | nil =>
      rw [List.append_nil, if_neg (Nat.lt_irrefl _)]
      rfl
    | cons u us =>
      obtain ⟨hbyte,-,-⟩ := read_bcnIe fixed (passedIes index ts) u (Tlv.flat us ++ room)
      have hmem : fixed ++ (Tlv.flat (passedIes index ts ++ u :: us) ++ room) =
          fixed ++ (Tlv.flat (passedIes index ts) ++ (u.bytes ++ (Tlv.flat us ++ room))) := by simp
      rw [if_pos (by simp), hmem, hbyte, if_pos (hrest u us hr)]
      rfl

end Scan

section Put
variable {fixed room a old rem junk ie : List UInt8} {index : UInt8} {t : Tlv} {ts ts' : List Tlv}
  {r : List UInt8 × ℕ}

/-- One part of the sequence is replaced by another one, for which there is room. -/
theorem putBcnIe_write (hroom : ie.length ≤ old.length + junk.length)
    (hsize : (a ++ old ++ rem ++ junk).length < 2 ^ 31) :
    ∃ junk', putBcnIe (a ++ old ++ rem ++ junk) (a ++ old ++ rem).length a.length (a ++ old).length ie =
        (a ++ ie ++ rem ++ junk',(a ++ ie ++ rem).length) ∧ junk'.length + ie.length = old.length + junk.length := by
  have hlen : (a ++ old ++ rem ++ junk).length = a.length + old.length + rem.length + junk.length := by
    simp [Nat.add_assoc]
  have hrem : ((((a ++ old ++ rem).length : ℤ) - (a ++ old).length) % 2 ^ 32).toNat = rem.length := by
    simp only [List.length_append]
    omega
  have hcopy : slice (a ++ old ++ rem ++ junk) (a ++ old).length rem.length = rem := slice_middle rfl rfl
  have hfirst : patch (a ++ old ++ rem ++ junk) a.length ie = a ++ ie ++ (old ++ rem ++ junk).drop ie.length := by
    have hsplit : a ++ old ++ rem ++ junk = a ++ (old ++ rem ++ junk) := by simp
    rw [hsplit, patch_append_left (by simp only [List.length_append]; omega)]
  have hsecond : patch (patch (a ++ old ++ rem ++ junk) a.length ie) (a.length + ie.length) rem =
      a ++ ie ++ rem ++ ((old ++ rem ++ junk).drop ie.length).drop rem.length := by
    rw [hfirst, ← List.length_append,
      patch_append_left (by rw [List.length_drop]; simp only [List.length_append]; omega)]
  refine ⟨((old ++ rem ++ junk).drop ie.length).drop rem.length,?_,?_⟩
  · unfold putBcnIe
    have hfits : mallocFits rem.length = true := decide_eq_true (by omega)
    have hmod : (a.length + ie.length + rem.length) % 2 ^ 32 = (a ++ ie ++ rem).length := by
      simp only [List.length_append]
      omega
    simp only [hrem, hfits, if_true, hcopy, hsecond, hmod]
  · simp only [List.length_drop, List.length_append]
    omega

theorem HoldsIes.of_eq {junk : List UInt8} {n : ℕ} (h : r = (fixed ++ Tlv.flat ts ++ junk,n))
    (hn : n = (fixed ++ Tlv.flat ts).length) : HoldsIes fixed ts r := by
  subst h hn
  exact ⟨List.take_left,List.length_append⟩

theorem HoldsIes.unique (h : HoldsIes fixed ts r) (h' : HoldsIes fixed ts' r) : ts = ts' :=
  Tlv.flat_inj (List.append_cancel_left (h.1.symm.trans h'.1))

theorem passed_filter (t : Tlv) (ts : List Tlv) :
    ((passedIes t.id ts).filter fun u => u.id = t.id) = [] ∧
    ((sameIe t.id ts).filter fun u => u.id ≠ t.id) = [] := by
  refine ⟨List.filter_eq_nil_iff.mpr fun u hu => by simpa using UInt8.ne_of_lt (passedIes_lt hu),?_⟩
  rcases sameIe_cases t.id ts with ⟨u,hsame,hid⟩ | ⟨hsame,-⟩
  · simp [hsame, hid]
  · simp [hsame]

/-- The sequence with the element in its place has it once when no other one with the number follows. -/
theorem filter_added (t : Tlv) (ts : List Tlv) :
    (((passedIes t.id ts ++ t :: restIes t.id ts).filter fun u => u.id = t.id) = [t] ↔
      ∀ u ∈ restIes t.id ts, u.id ≠ t.id) ∧
      ((passedIes t.id ts ++ t :: restIes t.id ts).filter fun u => u.id ≠ t.id) =
        ts.filter fun u => u.id ≠ t.id := by
  obtain ⟨hpass,hsame⟩ := passed_filter t ts
  refine ⟨?_,?_⟩
  · rw [List.filter_append, hpass, List.nil_append, List.filter_cons_of_pos (by simp), List.cons.injEq,
      and_iff_right rfl, List.filter_eq_nil_iff]
    simp
  · conv_rhs => rw [place_split t.id ts]
    rw [List.filter_append, List.filter_append, List.filter_append, hsame, List.nil_append,
      List.filter_cons_of_neg (by simp)]

/-- What `rtw_add_bcn_ie` leaves -/
def addedIes (t : Tlv) (ts : List Tlv) : List Tlv := passedIes t.id ts ++ t :: restIes t.id ts

theorem rtwAddBcnIe_put (hfixed : fixed.length = BEACON_IE_OFFSET) (hput : PutsBcnIe t.id ts)
    (hroom : (Tlv.flat (addedIes t ts)).length ≤ (Tlv.flat ts).length + room.length)
    (hsize : (fixed ++ Tlv.flat ts ++ room).length < 2 ^ 31) :
    ∃ junk, rtwAddBcnIe (fixed ++ Tlv.flat ts ++ room) (fixed ++ Tlv.flat ts).length t.id t.body =
        (fixed ++ Tlv.flat (addedIes t ts) ++ junk,(fixed ++ Tlv.flat (addedIes t ts)).length) ∧
      (Tlv.flat (addedIes t ts)).length + junk.length = (Tlv.flat ts).length + room.length := by
  obtain ⟨w,hw,hbody⟩ := hput
  obtain ⟨l,hl⟩ := List.getLast?_eq_some_iff.mp hw
  have hpos : 0 < w.body.length := List.length_pos_of_ne_nil hbody
  have hsplit := congrArg Tlv.flat (place_split t.id ts)
  have hscan := @addBcnIeScan_flat fixed room t.id ts ((fixed ++ Tlv.flat ts).length + 1)
    (Nat.lt_succ_of_le ((Tlv.length_le_flat ts).trans (by simp)))
  rw [hl, lastIe_concat, hfixed] at hscan
  -- the place is behind the elements that the scan passed, whether the last one is replaced or not
  have hend : (fixed ++ Tlv.flat l).length + (w.body.length + 2) =
      (fixed ++ Tlv.flat (passedIes t.id ts) ++ Tlv.flat (sameIe t.id ts)).length := by
    have := congrArg (fun m => (Tlv.flat m).length) hl
    simp only [Tlv.flat_append, Tlv.flat_cons, Tlv.flat_nil, List.append_nil, List.length_append, Tlv.length_bytes]
      at this ⊢
    omega
  have hdst : (if decide (sameIe t.id ts ≠ []) then (fixed ++ Tlv.flat l).length else
      (fixed ++ Tlv.flat l).length + (w.body.length + 2)) = (fixed ++ Tlv.flat (passedIes t.id ts)).length := by
    rcases sameIe_cases t.id ts with ⟨u,hsame,-⟩ | ⟨hsame,-⟩
    · rw [hsame] at hl
      obtain ⟨hpass,-⟩ := List.append_inj' hl rfl
      simp [hsame, hpass]
    · simp only [hsame, ne_eq, not_true_eq_false, decide_false, Bool.false_eq_true, if_false, hend, Tlv.flat_nil,
        List.append_nil]
  have hmem : fixed ++ Tlv.flat ts =
      fixed ++ Tlv.flat (passedIes t.id ts) ++ Tlv.flat (sameIe t.id ts) ++ Tlv.flat (restIes t.id ts) := by
    conv_lhs => rw [hsplit]
    simp
  have hadded : fixed ++ Tlv.flat (addedIes t ts) =
      fixed ++ Tlv.flat (passedIes t.id ts) ++ t.bytes ++ Tlv.flat (restIes t.id ts) := by
    simp [addedIes]
  have hlens := congrArg List.length hmem
  have hlens' := congrArg List.length hadded
  simp only [List.length_append] at hlens hlens'
  obtain ⟨junk,hres,hjunk⟩ := @putBcnIe_write (fixed ++ Tlv.flat (passedIes t.id ts)) (Tlv.flat (sameIe t.id ts))
    (Tlv.flat (restIes t.id ts)) room t.bytes (by omega) (by rw [← hmem]; exact hsize)
  refine ⟨junk,?_,by omega⟩
  unfold rtwAddBcnIe
  rw [List.append_assoc fixed, hscan]
  simp only [hpos, if_true]
  rw [hdst, hend, ← List.append_assoc fixed, hadded, hmem]
  exact hres

theorem rtwAddBcnIe_same (hfixed : fixed.length = BEACON_IE_OFFSET) (hput : ¬PutsBcnIe t.id ts) :
    rtwAddBcnIe (fixed ++ Tlv.flat ts ++ room) (fixed ++ Tlv.flat ts).length t.id t.body =
      (fixed ++ Tlv.flat ts ++ room,(fixed ++ Tlv.flat ts).length) := by
  have hscan := @addBcnIeScan_flat fixed room t.id ts ((fixed ++ Tlv.flat ts).length + 1)
    (Nat.lt_succ_of_le ((Tlv.length_le_flat ts).trans (by simp)))
  rw [hfixed, ← List.append_assoc] at hscan
  unfold rtwAddBcnIe
  rw [hscan]
  unfold lastIe
  cases hl : (passedIes t.id ts ++ sameIe t.id ts).getLast? with
  | none => rfl
  | some w =>
    have hempty : w.body = [] := by
      by_contra hne
      exact hput ⟨w,hl,hne⟩
    simp [hempty]

theorem addExact_iff (hfixed : fixed.length = BEACON_IE_OFFSET)
    (hroom : (Tlv.flat (addedIes t ts)).length ≤ (Tlv.flat ts).length + room.length)
    (hsize : (fixed ++ Tlv.flat ts ++ room).length < 2 ^ 31) :
    AddExact fixed t ts (rtwAddBcnIe (fixed ++ Tlv.flat ts ++ room) (fixed ++ Tlv.flat ts).length t.id t.body) ↔
      AddsOnce t ts := by
  obtain ⟨honce,hothers⟩ := filter_added t ts
  by_cases hput : PutsBcnIe t.id ts
  · obtain ⟨junk,hres,-⟩ := rtwAddBcnIe_put hfixed hput hroom hsize
    have hholds := HoldsIes.of_eq hres rfl
    simp only [AddsOnce, hput, true_implies, not_true_eq_false, false_implies, and_true]
    constructor
    · rintro ⟨ts',hts',hfilter,-⟩
      rw [hts'.unique hholds] at hfilter
      exact honce.mp hfilter
    · exact fun h => ⟨_,hholds,honce.mpr h,hothers⟩
  · have hholds := HoldsIes.of_eq (@rtwAddBcnIe_same _ room _ _ hfixed hput) rfl
    simp only [AddsOnce, hput, false_implies, not_false_eq_true, true_implies, true_and]
    constructor
    · rintro ⟨ts',hts',hfilter,-⟩
      rwa [hts'.unique hholds] at hfilter
    · exact fun h => ⟨_,hholds,h,rfl⟩

end Put

/-- The first element with the number is not empty. -/
def TakesBcnIe (index : UInt8) (ts : List Tlv) : Prop := ∃ u ∈ ts.find? fun u => u.id = index, u.body ≠ []

def withoutFirst (index : UInt8) (ts : List Tlv) : List Tlv := ts.eraseP fun u => u.id = index

/-- Nothing is taken out but the first element with the number. -/
def RemovesOnly (fixed : List UInt8) (index : UInt8) (ts : List Tlv) (r : List UInt8 × ℕ) : Prop :=
  HoldsIes fixed ts r ∨ HoldsIes fixed (withoutFirst index ts) r

section Remove
variable {fixed room : List UInt8} {index : UInt8} {t : Tlv} {ts pre post : List Tlv}

theorem find_first (hpre : ∀ u ∈ pre, u.id ≠ index) (ht : t.id = index) :
    ((pre ++ t :: post).find? fun u => u.id = index) = some t ∧
    withoutFirst index (pre ++ t :: post) = pre ++ post := by
  refine ⟨?_,?_⟩
  · rw [List.find?_append, List.find?_eq_none.mpr (by simpa using hpre), List.find?_cons_of_pos (by simpa using ht)]
    rfl
  · unfold withoutFirst
    rw [List.eraseP_append_right _ (by simpa using hpre), List.eraseP_cons_of_pos (by simpa using ht)]

theorem find_none (h : ∀ u ∈ ts, u.id ≠ index) :
    (ts.find? fun u => u.id = index) = none ∧ withoutFirst index ts = ts :=
  ⟨List.find?_eq_none.mpr (by simpa using h),List.eraseP_of_forall_not (by simpa using h)⟩

/-- What the search in `rtw_remove_bcn_ie` finds -/
theorem getIe_bcn (hfixed : fixed.length = BEACON_IE_OFFSET) (index : UInt8) (ts : List Tlv) (room : List UInt8) :
    FirstIe index ts (rtwGetIe ((fixed ++ Tlv.flat ts ++ room).drop BEACON_IE_OFFSET) index
      ((fixed ++ Tlv.flat ts).length - BEACON_IE_OFFSET)) := by
  have h := rtwGetIe_flat index ts room
  rwa [← hfixed, List.append_assoc, List.drop_left, List.length_append, Nat.add_sub_cancel_left]

theorem rtwRemoveBcnIe_take (hfixed : fixed.length = BEACON_IE_OFFSET) (h : TakesBcnIe index ts)
    (hsize : (fixed ++ Tlv.flat ts ++ room).length < 2 ^ 31) :
    ∃ junk, rtwRemoveBcnIe (fixed ++ Tlv.flat ts ++ room) (fixed ++ Tlv.flat ts).length index =
      (fixed ++ Tlv.flat (withoutFirst index ts) ++ junk,(fixed ++ Tlv.flat (withoutFirst index ts)).length) := by
  have hget := getIe_bcn hfixed index ts room
  unfold rtwRemoveBcnIe
  obtain ⟨u,hu,hbody⟩ := h
  cases hres : rtwGetIe ((fixed ++ Tlv.flat ts ++ room).drop BEACON_IE_OFFSET) index
      ((fixed ++ Tlv.flat ts).length - BEACON_IE_OFFSET) with
  | none =>
    rw [hres] at hget
    cases hget with
    | none hno => rw [(find_none hno).1] at hu; cases hu
  | some r =>
    rw [hres] at hget
    cases hget with
    | @some pre post t hpre ht hts =>
      subst hts
      obtain ⟨hfind,hwithout⟩ := @find_first _ _ _ post hpre ht
      rw [hfind] at hu
      cases hu
      have hpos : 0 < u.body.length := List.length_pos_of_ne_nil hbody
      have hmem : fixed ++ Tlv.flat (pre ++ u :: post) = fixed ++ Tlv.flat pre ++ u.bytes ++ Tlv.flat post := by simp
      have hat : BEACON_IE_OFFSET + (Tlv.flat pre).length = (fixed ++ Tlv.flat pre).length := by simp [hfixed]
      have hend : (fixed ++ Tlv.flat pre).length + (u.body.length + 2) = (fixed ++ Tlv.flat pre ++ u.bytes).length := by
        simp [Nat.add_assoc]
      obtain ⟨junk,hput,-⟩ := @putBcnIe_write (fixed ++ Tlv.flat pre) u.bytes (Tlv.flat post) room []
        (Nat.zero_le _) (by rw [← hmem]; exact hsize)
      refine ⟨junk,?_⟩
      simp only [hpos, if_true]
      rw [hat, hend, hmem, hput, hwithout]
      simp

theorem rtwRemoveBcnIe_same (hfixed : fixed.length = BEACON_IE_OFFSET) (h : ¬TakesBcnIe index ts) :
    rtwRemoveBcnIe (fixed ++ Tlv.flat ts ++ room) (fixed ++ Tlv.flat ts).length index =
      (fixed ++ Tlv.flat ts ++ room,(fixed ++ Tlv.flat ts).length) := by
  have hget := getIe_bcn hfixed index ts room
  unfold rtwRemoveBcnIe
  cases hres : rtwGetIe ((fixed ++ Tlv.flat ts ++ room).drop BEACON_IE_OFFSET) index
      ((fixed ++ Tlv.flat ts).length - BEACON_IE_OFFSET) with
  | none => rfl
  | some r =>
    rw [hres] at hget
    cases hget with
    | @some pre post t hpre ht hts =>
      have hempty : t.body = [] := by
        by_contra hne
        exact h ⟨t,hts ▸ (find_first hpre ht).1,hne⟩
      simp [hempty]

theorem removesOnly (hfixed : fixed.length = BEACON_IE_OFFSET)
    (hsize : (fixed ++ Tlv.flat ts ++ room).length < 2 ^ 31) :
    RemovesOnly fixed index ts (rtwRemoveBcnIe (fixed ++ Tlv.flat ts ++ room) (fixed ++ Tlv.flat ts).length index) := by
  by_cases h : TakesBcnIe index ts
  · obtain ⟨junk,hres⟩ := rtwRemoveBcnIe_take hfixed h hsize
    exact .inr (.of_eq hres rfl)
  · exact .inl (.of_eq (rtwRemoveBcnIe_same hfixed h) rfl)

theorem removeExact_iff (hfixed : fixed.length = BEACON_IE_OFFSET)
    (hsize : (fixed ++ Tlv.flat ts ++ room).length < 2 ^ 31) :
    HoldsIes fixed (withoutFirst index ts)
        (rtwRemoveBcnIe (fixed ++ Tlv.flat ts ++ room) (fixed ++ Tlv.flat ts).length index) ↔
      ∀ u ∈ ts.find? fun u => u.id = index, u.body ≠ [] := by
  by_cases h : TakesBcnIe index ts
  · obtain ⟨junk,hres⟩ := rtwRemoveBcnIe_take hfixed h hsize
    refine iff_of_true (.of_eq hres rfl) ?_
    obtain ⟨u,hu,hbody⟩ := h
    intro v hv
    cases hu.symm.trans hv
    exact hbody
  · have hsame := HoldsIes.of_eq (@rtwRemoveBcnIe_same _ room _ _ hfixed h) rfl
    constructor
    · intro hout u hu hbody
      obtain ⟨hid,pre,post,rfl,hpre⟩ := List.find?_eq_some_iff_append.mp hu
      have hwithout := (@find_first _ _ _ post (by simpa using hpre) (by simpa using hid)).2
      rw [hwithout] at hout
      have hlen := congrArg List.length (hout.unique hsame)
      simp at hlen
    · intro hall
      have hnone : (ts.find? fun u => u.id = index) = none := by
        cases hf : ts.find? fun u => u.id = index with
        | none => rfl
        | some u => exact absurd ⟨u,hf,hall u hf⟩ h
      rw [(find_none (by simpa using hnone)).2]
      exact hsame

/-- What was added is taken out again, unless it is empty. -/
theorem restored_iff (hfixed : fixed.length = BEACON_IE_OFFSET) (habsent : ∀ u ∈ ts, u.id ≠ t.id)
    (hroom : (Tlv.flat (addedIes t ts)).length ≤ (Tlv.flat ts).length + room.length)
    (hsize : (fixed ++ Tlv.flat ts ++ room).length < 2 ^ 31) {r : List UInt8 × ℕ}
    (hr : rtwAddBcnIe (fixed ++ Tlv.flat ts ++ room) (fixed ++ Tlv.flat ts).length t.id t.body = r) :
    HoldsIes fixed ts (rtwRemoveBcnIe r.1 r.2 t.id) ↔ (PutsBcnIe t.id ts → t.body ≠ []) := by
  subst hr
  by_cases hput : PutsBcnIe t.id ts
  · obtain ⟨junk,hadd,hjunk⟩ := rtwAddBcnIe_put hfixed hput hroom hsize
    have hpass : ∀ u ∈ passedIes t.id ts, u.id ≠ t.id := fun u hu => UInt8.ne_of_lt (passedIes_lt hu)
    obtain ⟨hfind,hwithout⟩ := @find_first _ _ _ (restIes t.id ts) hpass rfl
    have hsame : passedIes t.id ts ++ restIes t.id ts = ts := by
      rcases sameIe_cases t.id ts with ⟨u,hsame,hid⟩ | ⟨hsame,-⟩
      · refine absurd hid (habsent u ?_)
        rw [place_split t.id ts, hsame]
        simp
      · conv_rhs => rw [place_split t.id ts, hsame, List.nil_append]
    have hsize' : (fixed ++ Tlv.flat (addedIes t ts) ++ junk).length < 2 ^ 31 := by
      simp only [List.length_append] at hsize ⊢
      omega
    have hremove := @removeExact_iff fixed junk t.id (addedIes t ts) hfixed hsize'
    rw [addedIes, hwithout, hsame, hfind, ← addedIes] at hremove
    rw [hadd, hremove]
    simp [hput]
  · have hno : ¬TakesBcnIe t.id ts := by
      rintro ⟨u,hu,-⟩
      rw [(find_none habsent).1] at hu
      cases hu
    rw [rtwAddBcnIe_same hfixed hput]
    exact iff_of_true (.of_eq (rtwRemoveBcnIe_same hfixed hno) rfl) fun h => absurd h hput

end Remove

/-- An added element is the only one with its number, with the others in order, exactly when the
scan ends at an element that is not empty and no later one has the number, or the sequence is
already so. A removal takes nothing else, and it takes the first element with the number exactly
when that is not empty; so it undoes adding an absent element unless that is empty. -/
theorem bcn_ies_exact_iff {fixed room : List UInt8} {ts : List Tlv} (t : Tlv) (index : UInt8)
    (hfixed : fixed.length = BEACON_IE_OFFSET) (hbuf : (fixed ++ Tlv.flat ts ++ room).length = MAX_IE_SZ)
    (hroom : (fixed ++ Tlv.flat (addedIes t ts)).length ≤ MAX_IE_SZ) :
    (AddExact fixed t ts (rtwAddBcnIe (fixed ++ Tlv.flat ts ++ room) (fixed ++ Tlv.flat ts).length t.id t.body) ↔
      AddsOnce t ts) ∧
    RemovesOnly fixed index ts (rtwRemoveBcnIe (fixed ++ Tlv.flat ts ++ room) (fixed ++ Tlv.flat ts).length index) ∧
    (HoldsIes fixed (withoutFirst index ts)
        (rtwRemoveBcnIe (fixed ++ Tlv.flat ts ++ room) (fixed ++ Tlv.flat ts).length index) ↔
      ∀ u ∈ ts.find? fun u => u.id = index, u.body ≠ []) ∧
    ((∀ u ∈ ts, u.id ≠ t.id) →
      ∀ r, rtwAddBcnIe (fixed ++ Tlv.flat ts ++ room) (fixed ++ Tlv.flat ts).length t.id t.body = r →
        (HoldsIes fixed ts (rtwRemoveBcnIe r.1 r.2 t.id) ↔ (PutsBcnIe t.id ts → t.body ≠ []))) := by
  have hsize : (fixed ++ Tlv.flat ts ++ room).length < 2 ^ 31 := by rw [hbuf]; decide
  have hfits : (Tlv.flat (addedIes t ts)).length ≤ (Tlv.flat ts).length + room.length := by
    simp only [List.length_append] at hbuf hroom
    omega
  exact ⟨addExact_iff hfixed hfits hsize,removesOnly hfixed hsize,removeExact_iff hfixed hsize,
    fun habsent r hr => restored_iff hfixed habsent hfits hsize hr⟩

def ssidTlv : Tlv := ⟨SSID_IE,[0x61],by decide⟩
def basicRates : List UInt8 := [0x82,0x84]
def ratesTlv : Tlv := ⟨SUPPORTEDRATES_IE,basicRates,by decide⟩

theorem bcn_ies_exact_rates :
    AddExact (List.replicate 12 0) ratesTlv [ssidTlv]
      (rtwAddBcnIe (List.replicate 12 0 ++ Tlv.flat [ssidTlv] ++ List.replicate 753 0)
        (List.replicate 12 0 ++ Tlv.flat [ssidTlv]).length ratesTlv.id ratesTlv.body) := by
  have h := (@bcn_ies_exact_iff (List.replicate 12 0) (List.replicate 753 0) [ssidTlv] ratesTlv 0 rfl
    (by rw [List.length_append, List.length_replicate]; rfl) (by decide)).1
  exact h.mpr ⟨fun _ => by decide,fun hput => absurd ⟨ssidTlv,rfl,by decide⟩ hput⟩

/-- A beacon with a hidden SSID: the element of length zero is where the rates would be put. -/
theorem rates_not_added_behind_hidden_ssid :
    ¬∀ (fixed room : List UInt8) (ts : List Tlv) (t : Tlv), fixed.length = BEACON_IE_OFFSET →
      (fixed ++ Tlv.flat ts ++ room).length = MAX_IE_SZ → (fixed ++ Tlv.flat (addedIes t ts)).length ≤ MAX_IE_SZ →
      AddExact fixed t ts (rtwAddBcnIe (fixed ++ Tlv.flat ts ++ room) (fixed ++ Tlv.flat ts).length t.id t.body) := by
  intro h
  have hbuf : (List.replicate 12 (0 : UInt8) ++ Tlv.flat [⟨SSID_IE,[],by decide⟩] ++ List.replicate 754 0).length =
      MAX_IE_SZ := by
    rw [List.length_append, List.length_replicate]
    rfl
  have hadd := h _ _ _ ratesTlv rfl hbuf (by decide)
  rw [addExact_iff rfl (by rw [List.length_replicate]; decide) (by rw [hbuf]; decide)] at hadd
  have hsame : [] = [ratesTlv] := hadd.2 (by
    rintro ⟨u,⟨⟩,hbody⟩
    exact hbody rfl)
  cases hsame

end Rtl8188fu
