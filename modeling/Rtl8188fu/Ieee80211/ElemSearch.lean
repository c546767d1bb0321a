import Rtl8188fu.Ieee80211.GetIe
import Rtl8188fu.Library.Scanner
import Rtl8188fu.Library.Walker

/-! # Where the element searches read

`rtw_get_ie`, `rtw_get_ie_ex` and `rtw_get_wpa_ie` on a buffer with a limit. The buffer may go
on behind the limit. An element is complete when its header and its body are below the limit.
-/
namespace Rtl8188fu
open Bytes

/-- Where the element at `a` says that it ends -/
def elemEnd (pbuf : List UInt8) (a : ℕ) : ℕ := a + ((byteAt pbuf (a + 1)).toNat + 2)

/-- The complete elements, one behind the other -/
def elements (pbuf : List UInt8) (limit : ℕ) : Scanner where
  next a := if elemEnd pbuf a ≤ limit then some (elemEnd pbuf a) else none
  limit := limit
  forward := by
    intro a b h
    split at h
    · rename_i hle
      cases h
      rw [elemEnd] at hle ⊢
      omega
    · cases h

/-- `p` is the first of the complete elements that matches. -/
def FirstElem (pbuf : List UInt8) (limit : ℕ) (isMatch : ℕ → Prop) (p : ℕ) : Prop :=
  ∃ pre post, (elements pbuf limit).records 0 = pre ++ (p,elemEnd pbuf p) :: post ∧ isMatch p ∧
    ∀ q ∈ pre, ¬isMatch q.1

/-- A search over the elements: its test, and what it reads at an element -/
def elemWalker (pbuf : List UInt8) (limit : ℕ) (test : ℕ → Prop) [DecidablePred test] (reads : ℕ → List ℕ) :
    Walker where
  turn a := if a < limit then if test a then .hit else .goOn (elemEnd pbuf a) else .stop
  reads a := if a < limit then reads a else []

/-- `rtw_get_ie` looks at both header bytes of every element. -/
def getIeWalker (pbuf : List UInt8) (index : UInt8) (limit : ℕ) : Walker :=
  elemWalker pbuf limit (byteAt pbuf · = index) fun a => [a,a + 1]

/-- `!oui || _rtw_memcmp(&in_ie[cnt+2], oui, oui_len) == _TRUE` -/
def ouiMatches (inIe : List UInt8) (oui : Option (List UInt8)) (cnt : ℕ) : Bool :=
  match oui with
  | none => true
  | some oui => slice inIe (cnt + 2) oui.length = oui

/-- What `rtw_get_ie_ex` reads, `copy` when `ie` is given and `wantLen` when `ielen` is: the length
byte is read to go on, for the copy, and for `*ielen`. -/
def getIeExWalker (copy wantLen : Bool) (inIe : List UInt8) (inLen : ℕ) (eid : UInt8)
    (oui : Option (List UInt8)) : Walker :=
  elemWalker inIe inLen (fun cnt => byteAt inIe cnt = eid ∧ ouiMatches inIe oui cnt = true) fun cnt =>
    cnt :: (if byteAt inIe cnt = eid then List.range' (cnt + 2) (oui.getD []).length else []) ++
      if byteAt inIe cnt = eid ∧ ouiMatches inIe oui cnt = true then
        (if copy then List.range' cnt (elemEnd inIe cnt - cnt) else []) ++ if copy || wantLen then [cnt + 1] else []
      else [cnt + 1]

def rtwGetIeExLoop (inIe : List UInt8) (inLen : ℕ) (eid : UInt8) (oui : Option (List UInt8)) :
    ℕ → ℕ → Option (ℕ × ℕ)
  | 0, _ => none
  | fuel + 1, cnt =>
    if cnt < inLen then
      if byteAt inIe cnt = eid ∧ ouiMatches inIe oui cnt = true then some (cnt, (byteAt inIe (cnt + 1)).toNat + 2)
      else rtwGetIeExLoop inIe inLen eid oui fuel (cnt + ((byteAt inIe (cnt + 1)).toNat + 2))
    else none

/-- `rtw_get_ie_ex`: the element, and the length of all of it -/
def rtwGetIeEx (inIe : List UInt8) (inLen : ℕ) (eid : UInt8) (oui : Option (List UInt8)) : Option (ℕ × ℕ) :=
  rtwGetIeExLoop inIe inLen eid oui (inLen + 1) 0

def WPA_IE_ID : UInt8 := 0xdd

def wpaOuiType : List UInt8 := [0x00, 0x50, 0xf2, 0x01]

/-- The loop of `rtw_get_wpa_ie`, from `pbuf` on with `limit_new` bytes -/
def rtwGetWpaIeLoop (pie : List UInt8) (limit : ℕ) : ℕ → ℕ → ℕ → Option (ℕ × ℕ)
  | 0, _, _ => none
  | fuel + 1, pbuf, limitNew =>
    match rtwGetIe (pie.drop pbuf) WPA_IE_ID limitNew with
    | some (q, len) =>
      let pbuf := pbuf + q
      if slice pie (pbuf + 2) 4 = wpaOuiType ∧ le16At pie (pbuf + 6) = 1 then
        some (pbuf, (byteAt pie (pbuf + 1)).toNat)
      else if limit - pbuf - 2 - len = 0 then none
      else rtwGetWpaIeLoop pie limit fuel (pbuf + (2 + len)) (limit - pbuf - 2 - len)
    | none => none

/-- `rtw_get_wpa_ie`: every turn moves on by two bytes at least. -/
def rtwGetWpaIe (pie : List UInt8) (limit : ℕ) : Option (ℕ × ℕ) := rtwGetWpaIeLoop pie limit (limit + 1) 0 limit

/-- `rtw_get_wpa_ie` looks at the OUI of the vendor elements, and at the version behind the right one. -/
def getWpaIeWalker (pie : List UInt8) (limit : ℕ) : Walker :=
  elemWalker pie limit
    (fun a => byteAt pie a = WPA_IE_ID ∧ slice pie (a + 2) 4 = wpaOuiType ∧ le16At pie (a + 6) = 1) fun a =>
    [a,a + 1] ++ if byteAt pie a = WPA_IE_ID then
      List.range' (a + 2) 4 ++ if slice pie (a + 2) 4 = wpaOuiType then [a + 6,a + 7] else []
    else []

/-- A search with this result comes back, reads below the limit only, and its result is the
first element that matches, with its length and `extra`. -/
def SearchContained (w : Walker) (res : Option (ℕ × ℕ)) (extra : ℕ) (pbuf : List UInt8) (limit : ℕ)
    (isMatch : ℕ → Prop) : Prop :=
  ∃ fuel reads, w.run fuel 0 = some (res.map Prod.fst,reads) ∧ (∀ o ∈ reads, o < limit) ∧
    ∀ p len, res = some (p,len) → len = (byteAt pbuf (p + 1)).toNat + extra ∧ FirstElem pbuf limit isMatch p

section Elem
variable {pbuf : List UInt8} {limit : ℕ} {test : ℕ → Prop} [DecidablePred test] {reads : ℕ → List ℕ}
variable {isMatch : ℕ → Prop} {a b c p : ℕ}

theorem lt_elemEnd (pbuf : List UInt8) (a : ℕ) : a + 1 < elemEnd pbuf a := by
  rw [elemEnd]
  omega

theorem elemWalker_goOn (b c : ℕ) :
    (elemWalker pbuf limit test reads).turn b = .goOn c ↔ (b < limit ∧ ¬test b) ∧ c = elemEnd pbuf b := by
  simp only [elemWalker]
  split_ifs with hb ht
  · simp [ht]
  · simp [hb, ht, eq_comm]
  · simp [hb]

theorem elemWalker_hit (a : ℕ) : (elemWalker pbuf limit test reads).turn a = .hit ↔ a < limit ∧ test a := by
  simp only [elemWalker]
  split_ifs with ha ht
  · simp [ha, ht]
  · simp [ht]
  · simp [ha]

theorem elemWalker_stop (a : ℕ) : (elemWalker pbuf limit test reads).turn a = .stop ↔ limit ≤ a := by
  simp only [elemWalker]
  split_ifs with ha ht
  · simpa using ha
  · simpa using ha
  · simpa using ha

/-- What is passed over below the limit are complete elements. -/
theorem records_of_passed {passes : ℕ → Prop} (h : Walker.Passed (elemEnd pbuf) passes 0 a) (ha : a ≤ limit) :
    ∃ pre, (elements pbuf limit).records 0 = pre ++ (elements pbuf limit).records a ∧
    ∀ q ∈ pre, passes q.1 := by
  induction h with
  | first => exact ⟨[],rfl,nofun⟩
  | @next b h hp ih =>
    have hlt := lt_elemEnd pbuf b
    obtain ⟨pre,hrec,hpre⟩ := ih (by omega)
    have hnext : (elements pbuf limit).next b = some (elemEnd pbuf b) := if_pos ha
    refine ⟨pre ++ [(b,elemEnd pbuf b)],?_,?_⟩
    · rw [hrec, Scanner.records_of_some hnext, List.append_assoc]
      rfl
    · intro q hq
      rcases List.mem_append.mp hq with hq | hq
      · exact hpre q hq
      · rw [List.mem_singleton.mp hq]
        exact hp

omit [DecidablePred test] in
/-- An element that the search comes to is the first one that matches when it is complete and
matches, for the search stops at every one that matches. -/
theorem firstElem_iff (hsub : ∀ a, isMatch a → test a)
    (h : Walker.Passed (elemEnd pbuf) (fun a => a < limit ∧ ¬test a) 0 p) :
    FirstElem pbuf limit isMatch p ↔ elemEnd pbuf p ≤ limit ∧ isMatch p := by
  have hlt := lt_elemEnd pbuf p
  constructor
  · rintro ⟨pre,post,hrec,hp,-⟩
    have hmem : (p,elemEnd pbuf p) ∈ (elements pbuf limit).records 0 := by
      rw [hrec]
      exact List.mem_append_right _ List.mem_cons_self
    have hnext := (Scanner.mem_records hmem).1
    simp only [elements] at hnext
    split at hnext
    · rename_i hle
      exact ⟨hle,hp⟩
    · cases hnext
  · rintro ⟨hle,hp⟩
    obtain ⟨pre,hrec,hpre⟩ := records_of_passed h (show p ≤ limit by omega)
    have hnext : (elements pbuf limit).next p = some (elemEnd pbuf p) := if_pos hle
    rw [Scanner.records_of_some hnext] at hrec
    exact ⟨pre,_,hrec,hp,fun q hq hm => (hpre q hq).2 (hsub _ hm)⟩

/-- A search is contained exactly when every element that it comes to is read inside the limit,
and one that it takes is complete and matches. -/
theorem searchContained_iff {res : Option (ℕ × ℕ)} {extra : ℕ} (hsub : ∀ a, isMatch a → test a)
    (hres : (elemWalker pbuf limit test reads).Finds 0 (res.map Prod.fst))
    (hlen : ∀ p len, res = some (p,len) → len = (byteAt pbuf (p + 1)).toNat + extra) :
    SearchContained (elemWalker pbuf limit test reads) res extra pbuf limit isMatch ↔
      ∀ a, Walker.Passed (elemEnd pbuf) (fun a => a < limit ∧ ¬test a) 0 a → a < limit →
        (∀ o ∈ reads a, o < limit) ∧ (test a → elemEnd pbuf a ≤ limit ∧ isMatch a) := by
  have hcont := @Walker.contained_iff (elemWalker pbuf limit test reads) limit limit
    (fun p => elemEnd pbuf p ≤ limit ∧ isMatch p)
    (fun b c hc => by
      obtain ⟨⟨hb,-⟩,rfl⟩ := (elemWalker_goOn b c).mp hc
      have := lt_elemEnd pbuf b
      omega) 0
  simp only [Walker.reach_iff_passed elemWalker_goOn] at hcont
  have hsound :
      ∀ a, (elemWalker pbuf limit test reads).Sound limit (fun p => elemEnd pbuf p ≤ limit ∧ isMatch p) a ↔
      (a < limit → (∀ o ∈ reads a, o < limit) ∧ (test a → elemEnd pbuf a ≤ limit ∧ isMatch a)) := by
    intro a
    by_cases ha : a < limit
    · have hr : (elemWalker pbuf limit test reads).reads a = reads a := if_pos ha
      constructor
      · exact fun h _ => ⟨hr ▸ h.reads_lt,fun ht => h.good ((elemWalker_hit a).mpr ⟨ha,ht⟩)⟩
      · intro h
        refine ⟨hr ▸ (h ha).1,fun ht => (h ha).2 ((elemWalker_hit a).mp ht).2,?_⟩
        intro c hc
        obtain ⟨-,rfl⟩ := (elemWalker_goOn a c).mp hc
        have := lt_elemEnd pbuf a
        omega
    · have hr : (elemWalker pbuf limit test reads).reads a = [] := if_neg ha
      refine iff_of_true (.of_stop ((elemWalker_stop a).mpr (Nat.le_of_not_lt ha)) ?_) fun h => absurd h ha
      rw [hr]
      exact nofun
  simp only [hsound] at hcont
  rw [← hcont]
  constructor
  · rintro ⟨n,rd,hr,hreads,hgood⟩
    refine ⟨n,_,hr,hreads,?_⟩
    intro p hp
    obtain ⟨⟨q,len⟩,hq,rfl⟩ := Option.map_eq_some_iff.mp hp
    have hreach := (Walker.hit_of_run hr hp).1
    exact (firstElem_iff hsub ((Walker.reach_iff_passed elemWalker_goOn).mp hreach)).mp (hgood q len hq).2
  · rintro ⟨n,r,hr,hreads,hgood⟩
    have heq := hres.eq hr
    refine ⟨n,r.2,by rw [hr, ← heq],hreads,?_⟩
    intro p len hp
    have hp' : r.1 = some p := by rw [heq, hp]; rfl
    have hreach := (Walker.hit_of_run hr hp').1
    exact ⟨hlen p len hp,
      (firstElem_iff hsub ((Walker.reach_iff_passed elemWalker_goOn).mp hreach)).mpr (hgood p hp')⟩

theorem finds_hit (ha : a < limit) (ht : test a) : (elemWalker pbuf limit test reads).Finds a (some a) :=
  .of_hit ((elemWalker_hit a).mpr ⟨ha,ht⟩)

theorem finds_goOn {res : Option ℕ} (ha : a < limit) (ht : ¬test a)
    (h : (elemWalker pbuf limit test reads).Finds (elemEnd pbuf a) res) :
    (elemWalker pbuf limit test reads).Finds a res :=
  .of_goOn ((elemWalker_goOn a _).mpr ⟨⟨ha,ht⟩,rfl⟩) h

theorem finds_end (ha : limit ≤ a) : (elemWalker pbuf limit test reads).Finds a none :=
  .of_stop ((elemWalker_stop a).mpr ha)

end Elem

section GetIe
variable {pbuf : List UInt8} {index : UInt8} {limit fuel i p len : ℕ}

theorem rtwGetIeLoop_finds (hi : i < limit) (hf : limit - i ≤ fuel) :
    (getIeWalker pbuf index limit).Finds i ((rtwGetIeLoop pbuf index limit fuel i).map Prod.fst) := by
  induction fuel generalizing i with
  | zero => omega
  | succ fuel ih =>
    have hlt := lt_elemEnd pbuf i
    rw [rtwGetIeLoop]
    split
    · rename_i hid
      exact finds_hit hi hid
    · rename_i hid
      apply finds_goOn hi hid
      change (getIeWalker pbuf index limit).Finds (elemEnd pbuf i) (Option.map Prod.fst
        (if limit ≤ elemEnd pbuf i then none else rtwGetIeLoop pbuf index limit fuel (elemEnd pbuf i)))
      by_cases hend : limit ≤ elemEnd pbuf i
      · rw [if_pos hend]
        exact finds_end hend
      · rw [if_neg hend]
        exact ih (Nat.lt_of_not_le hend) (by omega)

theorem rtwGetIe_finds (pbuf : List UInt8) (index : UInt8) (limit : ℕ) :
    (getIeWalker pbuf index limit).Finds 0 ((rtwGetIe pbuf index limit).map Prod.fst) := by
  rw [rtwGetIe]
  split
  · exact finds_end (by omega)
  · exact rtwGetIeLoop_finds (by omega) (by omega)

theorem rtwGetIeLoop_len (h : rtwGetIeLoop pbuf index limit fuel i = some (p,len)) :
    len = (byteAt pbuf (p + 1)).toNat := by
  induction fuel generalizing i with
  | zero => cases h
  | succ fuel ih =>
    rw [rtwGetIeLoop] at h
    split at h
    · cases h
      rfl
    · dsimp only at h
      split at h
      · cases h
      · exact ih h

theorem rtwGetIe_len (h : rtwGetIe pbuf index limit = some (p,len)) : len = (byteAt pbuf (p + 1)).toNat := by
  rw [rtwGetIe] at h
  split at h
  · cases h
  · exact rtwGetIeLoop_len h

end GetIe

section GetIeEx
variable {inIe : List UInt8} {inLen : ℕ} {eid : UInt8} {oui : Option (List UInt8)} {fuel cnt p len : ℕ}

theorem rtwGetIeExLoop_finds (copy wantLen : Bool) (hf : inLen - cnt < fuel) :
    (getIeExWalker copy wantLen inIe inLen eid oui).Finds cnt
      ((rtwGetIeExLoop inIe inLen eid oui fuel cnt).map Prod.fst) := by
  induction fuel generalizing cnt with
  | zero => omega
  | succ fuel ih =>
    have hlt := lt_elemEnd inIe cnt
    rw [rtwGetIeExLoop]
    by_cases hcnt : cnt < inLen
    · rw [if_pos hcnt]
      split
      · rename_i ht
        exact finds_hit hcnt ht
      · rename_i ht
        exact finds_goOn hcnt ht (ih (by omega))
    · rw [if_neg hcnt]
      exact finds_end (by omega)

theorem rtwGetIeExLoop_len (h : rtwGetIeExLoop inIe inLen eid oui fuel cnt = some (p,len)) :
    len = (byteAt inIe (p + 1)).toNat + 2 := by
  induction fuel generalizing cnt with
  | zero => cases h
  | succ fuel ih =>
    rw [rtwGetIeExLoop] at h
    split at h
    · split at h
      · cases h
        rfl
      · exact ih h
    · cases h

end GetIeEx

section GetWpaIe
variable {pie : List UInt8} {limit fuel pbuf i q len p : ℕ}

/-- What `rtw_get_ie` on the bytes behind `pbuf` tells about the search of `rtw_get_wpa_ie` from
`pbuf + i` on: the search goes on at the vendor element found, or ends. -/
def NextVendor (pie : List UInt8) (limit pbuf i : ℕ) : Option (ℕ × ℕ) → Prop
  | some (q, len) => pbuf + q < limit ∧ byteAt pie (pbuf + q) = WPA_IE_ID ∧
      len = (byteAt pie (pbuf + q + 1)).toNat ∧
      ∀ res, (getWpaIeWalker pie limit).Finds (pbuf + q) res → (getWpaIeWalker pie limit).Finds (pbuf + i) res
  | none => (getWpaIeWalker pie limit).Finds (pbuf + i) none

theorem NextVendor.of_goOn {r : Option (ℕ × ℕ)} {j : ℕ} (h : NextVendor pie limit pbuf j r)
    (hgo : ∀ res, (getWpaIeWalker pie limit).Finds (pbuf + j) res →
      (getWpaIeWalker pie limit).Finds (pbuf + i) res) :
    NextVendor pie limit pbuf i r := by
  match r with
  | some (q,len) =>
    obtain ⟨h1,h2,h3,h4⟩ := h
    exact ⟨h1,h2,h3,fun res hres => hgo res (h4 res hres)⟩
  | none => exact hgo none h

theorem rtwGetIeLoop_drop (hi : pbuf + i < limit) (hf : limit - pbuf - i ≤ fuel) :
    NextVendor pie limit pbuf i (rtwGetIeLoop (pie.drop pbuf) WPA_IE_ID (limit - pbuf) fuel i) := by
  induction fuel generalizing i with
  | zero => omega
  | succ fuel ih =>
    rw [rtwGetIeLoop, byteAt_drop, byteAt_drop]
    by_cases hid : byteAt pie (pbuf + i) = WPA_IE_ID
    · rw [if_pos hid]
      exact ⟨hi,hid,rfl,fun _ h => h⟩
    · rw [if_neg hid]
      have hend : pbuf + (i + ((byteAt pie (pbuf + (i + 1))).toNat + 2)) = elemEnd pie (pbuf + i) := by
        rw [elemEnd, ← Nat.add_assoc pbuf i 1]
        omega
      have hgo :
          ∀ res, (getWpaIeWalker pie limit).Finds (pbuf + (i + ((byteAt pie (pbuf + (i + 1))).toNat + 2))) res →
          (getWpaIeWalker pie limit).Finds (pbuf + i) res := by
        rw [hend]
        exact fun res => finds_goOn hi fun ht => hid ht.1
      by_cases hle : limit - pbuf ≤ i + ((byteAt pie (pbuf + (i + 1))).toNat + 2)
      · simp only [if_pos hle]
        exact hgo none (finds_end (by omega))
      · simp only [if_neg hle]
        exact (ih (by omega) (by omega)).of_goOn hgo

theorem rtwGetWpaIeLoop_finds (hf : limit - pbuf < fuel) :
    (getWpaIeWalker pie limit).Finds pbuf ((rtwGetWpaIeLoop pie limit fuel pbuf (limit - pbuf)).map Prod.fst) := by
  induction fuel generalizing pbuf with
  | zero => omega
  | succ fuel ih =>
    rw [rtwGetWpaIeLoop, rtwGetIe]
    by_cases hpbuf : limit - pbuf < 1
    · rw [if_pos hpbuf]
      exact finds_end (by omega)
    · rw [if_neg hpbuf]
      have h := @rtwGetIeLoop_drop pie limit (limit - pbuf) pbuf 0 (by omega) (by omega)
      generalize rtwGetIeLoop (pie.drop pbuf) WPA_IE_ID (limit - pbuf) (limit - pbuf) 0 = r at h
      rcases r with _ | ⟨q,len⟩
      · exact h
      · obtain ⟨hlt,hid,rfl,hgo⟩ := h
        have hend := lt_elemEnd pie (pbuf + q)
        have hnext : pbuf + q + (2 + (byteAt pie (pbuf + q + 1)).toNat) = elemEnd pie (pbuf + q) := by
          rw [elemEnd]
          omega
        have hlim : limit - (pbuf + q) - 2 - (byteAt pie (pbuf + q + 1)).toNat = limit - elemEnd pie (pbuf + q) := by
          rw [elemEnd]
          omega
        apply hgo
        simp only [hnext, hlim]
        split
        · rename_i ht
          exact finds_hit hlt ⟨hid,ht⟩
        · rename_i ht
          apply finds_goOn hlt fun h => ht h.2
          split
          · exact finds_end (by omega)
          · exact ih (by omega)

theorem rtwGetWpaIeLoop_len {limitNew : ℕ} (h : rtwGetWpaIeLoop pie limit fuel pbuf limitNew = some (p,len)) :
    len = (byteAt pie (p + 1)).toNat := by
  induction fuel generalizing pbuf limitNew with
  | zero => cases h
  | succ fuel ih =>
    rw [rtwGetWpaIeLoop] at h
    split at h
    · dsimp only at h
      split at h
      · cases h
        rfl
      · split at h
        · cases h
        · exact ih h
    · cases h

end GetWpaIe

/-- The elements before the first one with the number, and that one, have both header bytes
below the limit, and that one is complete. -/
def GetIeFits (pbuf : List UInt8) (index : UInt8) (limit : ℕ) : Prop :=
  ∀ a, Walker.Passed (elemEnd pbuf) (fun a => a < limit ∧ byteAt pbuf a ≠ index) 0 a → a < limit →
    a + 1 < limit ∧ (byteAt pbuf a = index → elemEnd pbuf a ≤ limit)

/-- The same for `rtw_get_ie_ex`: an element with the number has as many bytes behind its header
as the OUI is long, and they are its own when they are those of the OUI. -/
def GetIeExFits (inIe : List UInt8) (inLen : ℕ) (eid : UInt8) (oui : Option (List UInt8)) : Prop :=
  ∀ a, Walker.Passed (elemEnd inIe) (fun a => a < inLen ∧
    ¬(byteAt inIe a = eid ∧ ouiMatches inIe oui a = true)) 0 a →
    a < inLen → a + 1 < inLen ∧ (byteAt inIe a = eid → a + 2 + (oui.getD []).length ≤ inLen ∧
      (ouiMatches inIe oui a = true → elemEnd inIe a ≤ inLen ∧
        (oui.getD []).length ≤ (byteAt inIe (a + 1)).toNat))

/-- The same for `rtw_get_wpa_ie`, with the OUI and the version behind it -/
def GetWpaIeFits (pie : List UInt8) (limit : ℕ) : Prop :=
  ∀ a, Walker.Passed (elemEnd pie)
      (fun a => a < limit ∧ ¬(byteAt pie a = WPA_IE_ID ∧ slice pie (a + 2) 4 = wpaOuiType ∧
        le16At pie (a + 6) = 1)) 0 a →
    a < limit → a + 1 < limit ∧ (byteAt pie a = WPA_IE_ID → a + 6 ≤ limit ∧
      (slice pie (a + 2) 4 = wpaOuiType → a + 8 ≤ limit ∧
        (le16At pie (a + 6) = 1 → elemEnd pie a ≤ limit ∧ 6 ≤ (byteAt pie (a + 1)).toNat)))

/-- What `rtw_get_ie_ex` looks for: the number, and the OUI at the start of the body -/
def IeExMatch (inIe : List UInt8) (eid : UInt8) (oui : Option (List UInt8)) (p : ℕ) : Prop :=
  byteAt inIe p = eid ∧ ouiMatches inIe oui p = true ∧ (oui.getD []).length ≤ (byteAt inIe (p + 1)).toNat

/-- A WPA element: a vendor element whose body starts with the OUI and version 1 -/
def WpaIeMatch (pie : List UInt8) (p : ℕ) : Prop :=
  byteAt pie p = WPA_IE_ID ∧ slice pie (p + 2) 4 = wpaOuiType ∧ le16At pie (p + 6) = 1 ∧
    6 ≤ (byteAt pie (p + 1)).toNat

theorem rtwGetIe_contained_iff (pbuf : List UInt8) (index : UInt8) (limit : ℕ) :
    SearchContained (getIeWalker pbuf index limit) (rtwGetIe pbuf index limit) 0 pbuf limit (byteAt pbuf · = index) ↔
      GetIeFits pbuf index limit := by
  rw [getIeWalker, searchContained_iff (fun _ h => h) (rtwGetIe_finds pbuf index limit) fun p len h => rtwGetIe_len h]
  refine forall_congr' fun a => imp_congr_right fun _ => imp_congr_right fun ha => ?_
  simp only [List.mem_cons, List.not_mem_nil, or_false, forall_eq_or_imp, forall_eq, ha, true_and]
  exact and_congr_right fun _ => forall_congr' fun h => by simp [h]

theorem rtwGetIeEx_contained_iff (copy wantLen : Bool) (inIe : List UInt8) (inLen : ℕ) (eid : UInt8)
    (oui : Option (List UInt8)) :
    SearchContained (getIeExWalker copy wantLen inIe inLen eid oui) (rtwGetIeEx inIe inLen eid oui) 2 inIe inLen
        (IeExMatch inIe eid oui) ↔ GetIeExFits inIe inLen eid oui := by
  rw [getIeExWalker, rtwGetIeEx, searchContained_iff (fun _ h => ⟨h.1,h.2.1⟩)
    (rtwGetIeExLoop_finds copy wantLen (by omega))
    fun p len h => rtwGetIeExLoop_len h]
  refine forall_congr' fun a => imp_congr_right fun _ => imp_congr_right fun ha => ?_
  have hend := lt_elemEnd inIe a
  by_cases hid : byteAt inIe a = eid
  · by_cases houi : ouiMatches inIe oui a = true
    · simp only [IeExMatch, hid, houi, and_self, true_and, if_true, forall_const]
      constructor
      · rintro ⟨hreads,hle,hlen⟩
        have helen : a + 2 + (byteAt inIe (a + 1)).toNat = elemEnd inIe a := by rw [elemEnd]; omega
        exact ⟨by omega,by omega,hle,hlen⟩
      · rintro ⟨-,hfit,hle,hlen⟩
        refine ⟨?_,hle,hlen⟩
        intro o ho
        simp only [List.cons_append, List.mem_cons, List.mem_append, List.mem_range'_1] at ho
        rcases ho with rfl | ho | ho | ho
        · exact ha
        · omega
        · split at ho
          · rw [List.mem_range'_1] at ho
            omega
          · cases ho
        · split at ho
          · rw [List.mem_singleton] at ho
            omega
          · cases ho
    · simp only [IeExMatch, hid, houi, Bool.false_eq_true, and_false, false_and, if_true, if_false, false_implies,
        and_true, forall_const]
      constructor
      · intro hreads
        have h1 := hreads (a + 1) (by simp)
        refine ⟨h1,?_⟩
        rcases Nat.eq_zero_or_pos (oui.getD []).length with hz | hpos
        · omega
        · have := hreads (a + 2 + (oui.getD []).length - 1) (by simp [List.mem_range'_1]; omega)
          omega
      · rintro ⟨h1,hfit⟩ o ho
        simp only [List.cons_append, List.mem_cons, List.mem_append, List.mem_range'_1, List.not_mem_nil,
          or_false] at ho
        omega
  · simp only [IeExMatch, hid, false_and, if_false, false_implies, and_true]
    constructor
    · exact fun hreads => hreads (a + 1) (by simp)
    · intro h1 o ho
      simp only [List.cons_append, List.nil_append, List.mem_cons, List.not_mem_nil, or_false] at ho
      omega

theorem rtwGetWpaIe_contained_iff (pie : List UInt8) (limit : ℕ) :
    SearchContained (getWpaIeWalker pie limit) (rtwGetWpaIe pie limit) 0 pie limit (WpaIeMatch pie) ↔
      GetWpaIeFits pie limit := by
  have hfinds : (getWpaIeWalker pie limit).Finds 0 ((rtwGetWpaIe pie limit).map Prod.fst) :=
    @rtwGetWpaIeLoop_finds pie limit (limit + 1) 0 (by omega)
  rw [getWpaIeWalker, searchContained_iff (fun _ h => ⟨h.1,h.2.1,h.2.2.1⟩) hfinds fun p len h =>
    rtwGetWpaIeLoop_len h]
  refine forall_congr' fun a => imp_congr_right fun _ => imp_congr_right fun ha => ?_
  by_cases hid : byteAt pie a = WPA_IE_ID
  · by_cases houi : slice pie (a + 2) 4 = wpaOuiType
    · simp only [WpaIeMatch, hid, houi, true_and, if_true, forall_const]
      constructor
      · rintro ⟨hreads,htest⟩
        have h7 := hreads (a + 7) (by simp)
        exact ⟨by omega,by omega,by omega,fun hv => ⟨(htest hv).1,(htest hv).2.2⟩⟩
      · rintro ⟨-,-,h8,hv⟩
        refine ⟨?_,fun h => ⟨(hv h).1,h,(hv h).2⟩⟩
        intro o ho
        simp only [List.cons_append, List.nil_append, List.mem_cons, List.mem_append, List.mem_range'_1,
          List.not_mem_nil, or_false] at ho
        omega
    · simp only [WpaIeMatch, hid, houi, true_and, if_true, if_false, false_and, false_implies, and_true, forall_const]
      constructor
      · intro hreads
        have h5 := hreads (a + 5) (by simp)
        omega
      · rintro ⟨-,h6⟩ o ho
        simp only [List.cons_append, List.nil_append, List.append_nil, List.mem_cons, List.mem_range'_1] at ho
        omega
  · simp only [WpaIeMatch, hid, if_false, false_and, false_implies, and_true]
    constructor
    · exact fun hreads => hreads (a + 1) (by simp)
    · intro h1 o ho
      simp only [List.append_nil, List.mem_cons, List.not_mem_nil, or_false] at ho
      omega

/-- The searches are contained exactly when the elements that they come to fit below the limit. -/
theorem elem_searches_contained_iff (copy wantLen : Bool) (pbuf : List UInt8) (limit : ℕ) (id : UInt8)
    (oui : Option (List UInt8)) :
    (SearchContained (getIeWalker pbuf id limit) (rtwGetIe pbuf id limit) 0 pbuf limit (byteAt pbuf · = id) ↔
      GetIeFits pbuf id limit) ∧
    (SearchContained (getIeExWalker copy wantLen pbuf limit id oui) (rtwGetIeEx pbuf limit id oui) 2 pbuf limit
        (IeExMatch pbuf id oui) ↔ GetIeExFits pbuf limit id oui) ∧
    (SearchContained (getWpaIeWalker pbuf limit) (rtwGetWpaIe pbuf limit) 0 pbuf limit (WpaIeMatch pbuf) ↔
      GetWpaIeFits pbuf limit) :=
  ⟨rtwGetIe_contained_iff pbuf id limit,rtwGetIeEx_contained_iff copy wantLen pbuf limit id oui,
    rtwGetWpaIe_contained_iff pbuf limit⟩

/-- A buffer of one byte, which is the number of an element: its length byte is behind the limit. -/
theorem lone_element_number_read_past_limit :
    ¬∀ (copy wantLen : Bool) (pbuf : List UInt8) (limit : ℕ) (id : UInt8) (oui : Option (List UInt8)),
      SearchContained (getIeWalker pbuf id limit) (rtwGetIe pbuf id limit) 0 pbuf limit (byteAt pbuf · = id) ∧
      SearchContained (getIeExWalker copy wantLen pbuf limit id oui) (rtwGetIeEx pbuf limit id oui) 2 pbuf limit
        (IeExMatch pbuf id oui) ∧
      SearchContained (getWpaIeWalker pbuf limit) (rtwGetWpaIe pbuf limit) 0 pbuf limit (WpaIeMatch pbuf) := by
  intro h
  obtain ⟨⟨n,reads,hr,hreads,-⟩,-⟩ := h false false [48] 1 48 none
  have hturn : (getIeWalker [48] 48 1).turn 0 = .hit := by decide
  match n with
  | 0 => cases hr
  | n + 1 =>
    rw [Walker.run_hit hturn] at hr
    cases hr
    exact absurd (hreads 1 (by decide)) (by decide)

end Rtl8188fu
