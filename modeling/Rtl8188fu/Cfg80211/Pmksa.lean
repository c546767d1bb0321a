import Rtl8188fu.Cfg80211.SecPriv
import Rtl8188fu.Library.SlotTable
import Rtl8188fu.Library.PartialRun

/-! # The PMKID cache

`cfg80211_rtw_set_pmksa`, `cfg80211_rtw_del_pmksa`, `cfg80211_rtw_flush_pmksa` and
`SecIsInPMKIDList`. The cursor `PMKIDIndex` leaves the table when the last entry is rewritten.
-/
namespace Rtl8188fu

def strZeroMacAddress : MacAddr := List.replicate ETH_ALEN 0

/-- The loop that looks for an entry with this `Bssid`, in use or not -/
def pmksaIndex (s : SecPriv) (bssid : MacAddr) : Option ℕ := s.pmkidList.findIdx? (·.bssid = bssid)

/-- `cfg80211_rtw_set_pmksa`; `none` when the entry it writes is not one of the table. -/
def cfg80211RtwSetPmksa (linked : Bool) (s : SecPriv) (bssid : MacAddr) (pmkid : List UInt8) :
    Option (ℤ × SecPriv) :=
  if bssid = strZeroMacAddress then some (-EINVAL,s)
  else if !linked then some (-EINVAL,s)
  else
    match pmksaIndex s bssid with
    | some index =>
      some (0,{ s with
        pmkidList := s.pmkidList.modify index fun e => { e with pmkid := pmkid, bUsed := true }
        pmkidIndex := index + 1 })
    | none =>
      if s.pmkidIndex < s.pmkidList.length then
        some (0,{ s with
          pmkidList := s.pmkidList.set s.pmkidIndex ⟨true,bssid,pmkid⟩
          pmkidIndex := if s.pmkidIndex + 1 = 16 then 0 else s.pmkidIndex + 1 })
      else none

def cfg80211RtwDelPmksa (s : SecPriv) (bssid : MacAddr) : ℤ × SecPriv :=
  match pmksaIndex s bssid with
  | some index => (0,{ s with pmkidList := s.pmkidList.set index .zero })
  | none => (-EINVAL,s)

def cfg80211RtwFlushPmksa (s : SecPriv) : ℤ × SecPriv :=
  (0,{ s with pmkidList := List.replicate NUM_PMKID_CACHE .zero, pmkidIndex := 0 })

/-- `SecIsInPMKIDList`; `none` for `-1` -/
def secIsInPMKIDList (s : SecPriv) (bssid : MacAddr) : Option ℕ :=
  s.pmkidList.findIdx? fun e => e.bUsed && e.bssid = bssid

/-- The PMKID that `rtw_append_pmkid` takes for the entry found -/
def pmkidFor (s : SecPriv) (bssid : MacAddr) : Option (List UInt8) :=
  (secIsInPMKIDList s bssid).bind fun iEntry => s.pmkidList[iEntry]?.map RtPmkid.pmkid

inductive PmksaCall where
  | setPmksa (linked : Bool) (bssid : MacAddr) (pmkid : List UInt8)
  | delPmksa (bssid : MacAddr)
  | flushPmksa
  | resetSecuritypriv
  /-- other code changes `dot11AuthAlgrthm`, which the reset looks at -/
  | authAlgrthm (a : AuthAlgrthm)

/-- The PMKID that was set last for a BSSID, when it was not deleted, flushed or overwritten since -/
abbrev PmkidHistory := MacAddr → Option (List UInt8)

def pmksaNote (s : SecPriv) (latest : PmkidHistory) : PmksaCall → PmkidHistory
  | .setPmksa linked bssid pmkid =>
    if bssid = strZeroMacAddress ∨ linked = false then latest
    else
      match pmksaIndex s bssid with
      | some _ => Function.update latest bssid (some pmkid)
      | none =>
        match s.pmkidList[s.pmkidIndex]? with
        | some old => Function.update (Function.update latest old.bssid none) bssid (some pmkid)
        | none => latest
  | .delPmksa bssid => Function.update latest bssid none
  | .flushPmksa => fun _ => none
  | .resetSecuritypriv | .authAlgrthm _ => latest

def pmksaCall (s : SecPriv) : PmksaCall → Option SecPriv
  | .setPmksa linked bssid pmkid => (cfg80211RtwSetPmksa linked s bssid pmkid).map Prod.snd
  | .delPmksa bssid => some (cfg80211RtwDelPmksa s bssid).2
  | .flushPmksa => some (cfg80211RtwFlushPmksa s).2
  | .resetSecuritypriv => some (rtwResetSecuritypriv s)
  | .authAlgrthm a => some { s with dot11AuthAlgrthm := a }

/-- A call, with the history that is kept beside the state -/
def pmksaStep (s : SecPriv × PmkidHistory) (c : PmksaCall) : Option (SecPriv × PmkidHistory) :=
  (pmksaCall s.1 c).map fun t => (t,pmksaNote s.1 s.2 c)

/-- The cache stays in its table and answers with the latest entry. -/
structure PmkidOk (s : SecPriv) (latest : PmkidHistory) : Prop where
  index_lt : s.pmkidIndex < NUM_PMKID_CACHE
  length : s.pmkidList.length = NUM_PMKID_CACHE
  unique : ∀ (i j : ℕ) a b, s.pmkidList[i]? = some a → s.pmkidList[j]? = some b → a.bUsed = true →
    b.bUsed = true →
    a.bssid = b.bssid → i = j
  found_lt : ∀ bssid i, secIsInPMKIDList s bssid = some i → i < NUM_PMKID_CACHE
  found : ∀ bssid, pmkidFor s bssid = latest bssid

/-- The call finds its BSSID in the last entry of the table, and rewrites it. -/
def RewritesLast (s : SecPriv) : PmksaCall → Prop
  | .setPmksa linked bssid _ =>
    linked = true ∧ bssid ≠ strZeroMacAddress ∧ pmksaIndex s bssid = some (NUM_PMKID_CACHE - 1)
  | _ => False

structure PmkidInv (s : SecPriv) (latest : PmkidHistory) : Prop where
  index_lt : s.pmkidIndex < NUM_PMKID_CACHE
  length : s.pmkidList.length = NUM_PMKID_CACHE
  distinct : SlotTable.Distinct RtPmkid.bssid strZeroMacAddress s.pmkidList
  used : ∀ e ∈ s.pmkidList, e.bUsed = true ↔ e.bssid ≠ strZeroMacAddress
  found : ∀ bssid ≠ strZeroMacAddress, (SlotTable.lookup RtPmkid.bssid s.pmkidList bssid).map RtPmkid.pmkid =
    latest bssid
  zero : latest strZeroMacAddress = none

section Inv
variable {s : SecPriv} {latest : PmkidHistory} {bssid : MacAddr} {pmkid : List UInt8} {linked : Bool} {index : ℕ}

theorem pmkidFor_eq (s : SecPriv) (bssid : MacAddr) :
    pmkidFor s bssid = (s.pmkidList.find? fun e => e.bUsed && e.bssid = bssid).map RtPmkid.pmkid := by
  rw [pmkidFor, secIsInPMKIDList, List.find?_eq_bind_findIdx?_getElem?, Option.map_bind]
  rfl

theorem PmkidInv.pmkidFor (h : PmkidInv s latest) (bssid : MacAddr) : pmkidFor s bssid = latest bssid := by
  rw [pmkidFor_eq]
  by_cases hz : bssid = strZeroMacAddress
  · have hnone : (s.pmkidList.find? fun e => e.bUsed && e.bssid = bssid) = none := by
      rw [List.find?_eq_none]
      intro e he hp
      simp only [Bool.and_eq_true, decide_eq_true_eq] at hp
      exact (h.used e he).mp hp.1 (hp.2.trans hz)
    rw [hnone, hz, h.zero]
    rfl
  · rw [← h.found bssid hz, SlotTable.lookup]
    congr 1
    apply List.find?_congr
    intro e he
    have hu := h.used e he
    by_cases hb : e.bssid = bssid
    · simp [hb, hu.mpr (hb ▸ hz)]
    · simp [hb]

theorem PmkidInv.ok (h : PmkidInv s latest) : PmkidOk s latest where
  index_lt := h.index_lt
  length := h.length
  unique := by
    intro i j a b ha hb hua _ hab
    exact h.distinct i j a b ha hb hab ((h.used a (List.mem_of_getElem? ha)).mp hua)
  found_lt := by
    intro bssid i hi
    rw [secIsInPMKIDList, List.findIdx?_eq_some_iff_getElem] at hi
    rw [← h.length]
    exact hi.1
  found := h.pmkidFor

theorem PmkidInv.zero_state : PmkidInv SecPriv.zero fun _ => none where
  index_lt := by decide
  length := List.length_replicate
  distinct := SlotTable.distinct_replicate _ rfl
  used := by
    intro e he
    rw [(List.mem_replicate.mp he).2]
    decide
  found := by
    intro bssid hb
    rw [SlotTable.lookup_none.mpr]
    · rfl
    · intro e he
      rw [(List.mem_replicate.mp he).2]
      exact hb.symm
  zero := rfl

/-- One entry is overwritten, and the history follows. -/
theorem PmkidInv.set (h : PmkidInv s latest) {i cursor : ℕ} {old e : RtPmkid} {latest' : PmkidHistory}
    (hi : s.pmkidList[i]? = some old) (hcursor : cursor < NUM_PMKID_CACHE)
    (hnew : ∀ j a, j ≠ i → s.pmkidList[j]? = some a → a.bssid = e.bssid → e.bssid = strZeroMacAddress)
    (hused : e.bUsed = true ↔ e.bssid ≠ strZeroMacAddress) (hzero : latest' strZeroMacAddress = none)
    (hlatest : ∀ b ≠ strZeroMacAddress,
      latest' b = if e.bssid = b then some e.pmkid else if old.bssid = b then none else latest b) :
    PmkidInv { s with pmkidList := s.pmkidList.set i e, pmkidIndex := cursor } latest' where
  index_lt := hcursor
  length := by rw [List.length_set, h.length]
  distinct := h.distinct.set hnew
  used := by
    intro a ha
    rcases List.mem_or_eq_of_mem_set ha with ha | rfl
    · exact h.used a ha
    · exact hused
  found := by
    intro b hb
    rw [h.distinct.lookup_set hi hb hnew, hlatest b hb]
    split
    · rfl
    · split
      · rfl
      · exact h.found b hb
  zero := hzero

theorem pmksaIndex_some (h : pmksaIndex s bssid = some index) :
    ∃ old, s.pmkidList[index]? = some old ∧ old.bssid = bssid := by
  rw [pmksaIndex, List.findIdx?_eq_some_iff_getElem] at h
  obtain ⟨hlt,hp,-⟩ := h
  exact ⟨_,List.getElem?_eq_getElem hlt,by simpa using hp⟩

theorem pmksaIndex_none (h : pmksaIndex s bssid = none) : ∀ e ∈ s.pmkidList, e.bssid ≠ bssid := by
  rw [pmksaIndex, List.findIdx?_eq_none_iff] at h
  intro e he
  simpa using h e he

theorem PmkidInv.lt (h : PmkidInv s latest) {old : RtPmkid} (hi : s.pmkidList[index]? = some old) :
    index < NUM_PMKID_CACHE := by
  rw [← h.length]
  exact (List.getElem?_eq_some_iff.mp hi).1

/-- The entry of the BSSID is rewritten. The cursor goes behind it, which is still in the
table when the entry is not the last one. -/
theorem PmkidInv.rewrite (h : PmkidInv s latest) (hb : bssid ≠ strZeroMacAddress)
    (hi : pmksaIndex s bssid = some index) (hlast : index ≠ NUM_PMKID_CACHE - 1) :
    PmkidInv { s with
        pmkidList := s.pmkidList.modify index fun e => { e with pmkid := pmkid, bUsed := true }
        pmkidIndex := index + 1 } (Function.update latest bssid (some pmkid)) := by
  obtain ⟨old,hold,rfl⟩ := pmksaIndex_some hi
  have hlt := h.lt hold
  have hmod : (s.pmkidList.modify index fun e => { e with pmkid := pmkid, bUsed := true }) =
      s.pmkidList.set index { old with pmkid := pmkid, bUsed := true } := by
    rw [List.modify_eq_set_getElem?, hold]
    rfl
  rw [hmod]
  apply h.set hold
  · rw [NUM_PMKID_CACHE] at hlt hlast ⊢
    omega
  · intro j a hj ha hab
    exact absurd (h.distinct j index a old ha hold hab (hab ▸ hb)) hj
  · exact iff_of_true rfl hb
  · rw [Function.update_of_ne hb.symm, h.zero]
  · intro b _
    by_cases hbb : old.bssid = b
    · subst hbb
      rw [Function.update_self, if_pos rfl]
    · rw [Function.update_of_ne (Ne.symm hbb), if_neg hbb, if_neg hbb]

/-- The next entry is taken over, whatever BSSID it had. -/
theorem PmkidInv.insert (h : PmkidInv s latest) (hb : bssid ≠ strZeroMacAddress)
    (hi : pmksaIndex s bssid = none) {old : RtPmkid} (hold : s.pmkidList[s.pmkidIndex]? = some old) :
    PmkidInv { s with
        pmkidList := s.pmkidList.set s.pmkidIndex ⟨true,bssid,pmkid⟩
        pmkidIndex := if s.pmkidIndex + 1 = 16 then 0 else s.pmkidIndex + 1 }
      (Function.update (Function.update latest old.bssid none) bssid (some pmkid)) := by
  have hlt := h.index_lt
  apply h.set hold
  · rw [NUM_PMKID_CACHE] at hlt ⊢
    split <;> omega
  · intro j a _ ha hab
    exact absurd hab (pmksaIndex_none hi a (List.mem_of_getElem? ha))
  · exact iff_of_true rfl hb
  · rw [Function.update_of_ne hb.symm]
    by_cases hz : old.bssid = strZeroMacAddress
    · rw [hz, Function.update_self]
    · rw [Function.update_of_ne (Ne.symm hz), h.zero]
  · intro b _
    by_cases hbb : bssid = b
    · subst hbb
      rw [Function.update_self, if_pos rfl]
    · rw [Function.update_of_ne (Ne.symm hbb), if_neg hbb]
      by_cases ho : old.bssid = b
      · rw [ho, Function.update_self, if_pos rfl]
      · rw [Function.update_of_ne (Ne.symm ho), if_neg ho]

theorem PmkidInv.delete (h : PmkidInv s latest) (bssid : MacAddr) :
    PmkidInv (cfg80211RtwDelPmksa s bssid).2 (Function.update latest bssid none) := by
  rw [cfg80211RtwDelPmksa]
  cases hi : pmksaIndex s bssid with
  | none =>
    have hnone : latest bssid = none := by
      by_cases hb : bssid = strZeroMacAddress
      · rw [hb, h.zero]
      · rw [← h.found bssid hb, SlotTable.lookup_none.mpr (pmksaIndex_none hi)]
        rfl
    rw [← hnone, Function.update_eq_self]
    exact h
  | some index =>
    obtain ⟨old,hold,rfl⟩ := pmksaIndex_some hi
    apply h.set hold h.index_lt
    · intro _ _ _ _ _
      rfl
    · decide
    · by_cases hz : old.bssid = strZeroMacAddress
      · rw [hz, Function.update_self]
      · rw [Function.update_of_ne (Ne.symm hz), h.zero]
    · intro b hb
      rw [if_neg (show RtPmkid.zero.bssid ≠ b from hb.symm)]
      by_cases ho : old.bssid = b
      · rw [ho, Function.update_self, if_pos rfl]
      · rw [Function.update_of_ne (Ne.symm ho), if_neg ho]

theorem PmkidInv.flush (s : SecPriv) : PmkidInv (cfg80211RtwFlushPmksa s).2 fun _ => none :=
  have h := PmkidInv.zero_state
  ⟨h.index_lt,h.length,h.distinct,h.used,h.found,h.zero⟩

/-- Every call returns and keeps the cache in order, the last entry being rewritten apart. -/
theorem PmkidInv.step (h : PmkidInv s latest) {c : PmksaCall} (hc : ¬RewritesLast s c) :
    ∃ t, pmksaStep (s,latest) c = some t ∧ PmkidInv t.1 t.2 := by
  cases c with
  | setPmksa linked bssid pmkid =>
    by_cases hskip : bssid = strZeroMacAddress ∨ linked = false
    · refine ⟨(s,latest),?_,h⟩
      simp only [pmksaStep, pmksaCall, cfg80211RtwSetPmksa, pmksaNote, if_pos hskip]
      rcases hskip with hz | hl
      · rw [if_pos hz]
        rfl
      · rw [hl]
        split <;> rfl
    · have hb : bssid ≠ strZeroMacAddress := fun hb => hskip (.inl hb)
      obtain rfl : linked = true := by simpa using fun hl => hskip (.inr hl)
      simp only [pmksaStep, pmksaCall, cfg80211RtwSetPmksa, pmksaNote, if_neg hskip, if_neg hb]
      cases hi : pmksaIndex s bssid with
      | some index => exact ⟨_,rfl,h.rewrite hb hi fun hlast => hc ⟨rfl,hb,hlast ▸ hi⟩⟩
      | none =>
        have hlt : s.pmkidIndex < s.pmkidList.length := h.length ▸ h.index_lt
        have hold := List.getElem?_eq_getElem hlt
        rw [hold, if_pos hlt]
        exact ⟨_,rfl,h.insert hb hi hold⟩
  | delPmksa bssid => exact ⟨_,rfl,h.delete bssid⟩
  | flushPmksa => exact ⟨_,rfl,PmkidInv.flush s⟩
  | resetSecuritypriv =>
    refine ⟨_,rfl,?_⟩
    have hl := rtwResetSecuritypriv_pmkidList s
    have hx := rtwResetSecuritypriv_pmkidIndex s
    refine ⟨?_,?_,?_,?_,?_,h.zero⟩
    · exact hx ▸ h.index_lt
    · exact hl ▸ h.length
    · exact hl ▸ h.distinct
    · exact hl ▸ h.used
    · exact hl ▸ h.found
  | authAlgrthm a => exact ⟨_,rfl,h.index_lt,h.length,h.distinct,h.used,h.found,h.zero⟩

/-- Behind the last entry the cursor is no index of the table. -/
theorem RewritesLast.cursor {c : PmksaCall} (hc : RewritesLast s c) {t : SecPriv × PmkidHistory}
    (ht : pmksaStep (s,latest) c = some t) : t.1.pmkidIndex = NUM_PMKID_CACHE := by
  cases c with
  | setPmksa linked bssid pmkid =>
    obtain ⟨rfl,hb,hi⟩ := hc
    simp only [pmksaStep, pmksaCall, cfg80211RtwSetPmksa, if_neg hb, hi, Bool.not_true, Bool.false_eq_true, if_false,
      Option.map_some, Option.some.injEq] at ht
    rw [← ht]
    rfl
  | _ => exact hc.elim

end Inv

def pmksaInit : SecPriv × PmkidHistory := (.zero,fun _ => none)

/-- The cache is in order throughout a run exactly when no call rewrites the last entry. -/
theorem pmkid_cache_ok_iff (calls : List PmksaCall) :
    (∀ past, past <+: calls → ∃ t, PartialRun.run pmksaStep pmksaInit past = some t ∧ PmkidOk t.1 t.2) ↔
      ∀ past c, past ++ [c] <+: calls → ∀ t, PartialRun.run pmksaStep pmksaInit past = some t →
      ¬RewritesLast t.1 c := by
  constructor
  · intro h past c hpre t ht hc
    obtain ⟨u,hu,hok⟩ := h _ hpre
    rw [PartialRun.run_append_singleton, ht] at hu
    exact absurd hok.index_lt (by rw [RewritesLast.cursor hc hu]; exact Nat.lt_irrefl _)
  · intro h past hpre
    obtain ⟨t,ht,hinv⟩ := PartialRun.prefix_induction (fun t => PmkidInv t.1 t.2) PmkidInv.zero_state
      (fun past c t hpre ht hinv => hinv.step (h past c hpre t ht)) past hpre
    exact ⟨t,ht,hinv.ok⟩

/-- Sixteen access points fill the table, the last one gets a new PMKID, and the PMKID of
another one is written behind the table. -/
def pmkidsOfEighteen : List PmksaCall :=
  ((List.range 16).map fun i => .setPmksa true [2,0,0,0,0,UInt8.ofNat i] (List.replicate 16 1)) ++
    [.setPmksa true [2,0,0,0,0,15] (List.replicate 16 2), .setPmksa true [2,0,0,0,0,16] (List.replicate 16 3)]

theorem rewritten_last_pmkid_moves_cursor_out :
    ¬∀ calls past, past <+: calls → ∃ t, PartialRun.run pmksaStep pmksaInit past = some t ∧
    PmkidOk t.1 t.2 := by
  intro h
  obtain ⟨t,ht,-⟩ := h pmkidsOfEighteen pmkidsOfEighteen List.prefix_rfl
  have hnone : (PartialRun.run pmksaStep pmksaInit pmkidsOfEighteen).isNone = true := by decide +kernel
  rw [ht] at hnone
  cases hnone

end Rtl8188fu
