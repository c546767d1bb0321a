import Rtl8188fu.Library.Run
import Rtl8188fu.Mlme.ScanTable

/-! # The scan table in every run

The two queues always hold every object once. The count, the entries and the joined entry are right
in a run whose events meet a condition.
-/
namespace Rtl8188fu
open Bytes

/-- The count is right, and no two entries describe the same network. -/
structure QueuesOk (s : MlmePriv) : Prop where
  partition : TwoQueues.Ok (List.range MAX_BSS_CNT) s.freeBssPool s.scannedQueue
  count : s.numOfScanned = s.scannedQueue.length
  distinct : ∀ p ∈ s.scannedQueue, ∀ q ∈ s.scannedQueue, isSameNetwork (s.net p) (s.net q) = true → p = q

/-- The entry is the one of the joined network of a linked station. -/
def MlmePriv.Joined (s : MlmePriv) (p : ℕ) : Prop := s.linked = true ∧ s.curNetworkScanned = some p

/-- Besides, the entry of the joined network stays and describes it. -/
structure ScanOk (s : MlmePriv) : Prop extends QueuesOk s where
  joined : s.linked = true → ∃ p, s.curNetworkScanned = some p ∧ p ∈ s.scannedQueue ∧
    isSameNetwork (s.net p) s.curNetwork = true

theorem isSameNetwork_iff {a b : BssidEx} : isSameNetwork a b = true ↔ a.key = b.key := decide_eq_true_iff

/-! ## Copies -/

theorem cap_bits (b : BssidEx) : b.cap.testBit 0 = (byteAt b.ies 10).toNat.testBit 0 ∧
    b.cap.testBit 1 = (byteAt b.ies 10).toNat.testBit 1 := by
  rw [BssidEx.cap, le16At]
  constructor
  · rw [Nat.testBit_eq_decide_div_mod_eq, Nat.testBit_eq_decide_div_mod_eq]
    congr 2
    omega
  · rw [Nat.testBit_eq_decide_div_mod_eq, Nat.testBit_eq_decide_div_mod_eq]
    congr 2
    omega

theorem copy_byte (dst src : BssidEx) : byteAt (dst.copy src).ies 10 =
    if 10 < src.ieLength then byteAt src.ies 10 else byteAt dst.ies 10 := by
  have hfits := src.fits
  rw [byteAt, byteAt, byteAt, BssidEx.copy, List.getD_eq_getElem?_getD, List.getD_eq_getElem?_getD,
    List.getD_eq_getElem?_getD]
  dsimp only
  rw [List.getElem?_append, List.length_take, Nat.min_eq_left hfits]
  split
  · rename_i h
    rw [List.getElem?_take_of_lt h]
  · rename_i h
    rw [List.getElem?_drop, Nat.add_sub_cancel' (by omega)]

/-- A copy with the fixed elements describes the same network. -/
theorem copy_key (dst : BssidEx) {src : BssidEx} (h : 12 ≤ src.ieLength) : (dst.copy src).key = src.key := by
  have hbyte := copy_byte dst src
  rw [if_pos (by omega)] at hbyte
  rw [BssidEx.key, BssidEx.key, (cap_bits _).1, (cap_bits _).2, (cap_bits src).1, (cap_bits src).2, hbyte]
  rfl

/-- So does every copy over a description of the same network. -/
theorem copy_key_of_key {dst src : BssidEx} (h : dst.key = src.key) : (dst.copy src).key = dst.key := by
  have hbyte := copy_byte dst src
  obtain ⟨hmac,hssid,h0,h1⟩ : dst.macAddress = src.macAddress ∧ dst.ssid = src.ssid ∧
      dst.cap.testBit 0 = src.cap.testBit 0 ∧
      dst.cap.testBit 1 = src.cap.testBit 1 := by
    simpa [BssidEx.key] using h
  rw [BssidEx.key, BssidEx.key, (cap_bits (dst.copy src)).1, (cap_bits (dst.copy src)).2, hbyte]
  split
  · rw [← (cap_bits src).1, ← (cap_bits src).2, h0, h1, hmac, hssid]
    rfl
  · rw [← (cap_bits dst).1, ← (cap_bits dst).2, hmac, hssid]
    rfl

/-! ## The queues -/

section
variable {s s' : MlmePriv} {p q : ℕ}

theorem write_net (s : MlmePriv) (p q : ℕ) (f : WlanNetwork → WlanNetwork) :
    (s.write p f).net q = if q = p then (f (s.heap p)).network else s.net q := by
  change (Function.update s.heap p (f (s.heap p)) q).network = _
  by_cases h : q = p
  · rw [h, Function.update_self, if_pos rfl]
  · rw [Function.update_of_ne h, if_neg h]
    rfl

theorem takeFree_net (s : MlmePriv) (p q : ℕ) (rest : List ℕ) : (s.takeFree p rest).net q = s.net q := by
  change ((s.write p fun e => { e with fixed := false, lastScanned := s.clock.rtwGetCurrentTime }).heap q).network = _
  have h := write_net s p q fun e => { e with fixed := false, lastScanned := s.clock.rtwGetCurrentTime }
  rw [MlmePriv.net] at h
  rw [h]
  split
  · rename_i hqp
    rw [hqp]
    rfl
  · rfl

/-- The queues are as they were, and the entries describe the same networks. -/
theorem QueuesOk.congr (h : QueuesOk s) (hfree : s'.freeBssPool = s.freeBssPool)
    (hscanned : s'.scannedQueue = s.scannedQueue)
    (hcount : s'.numOfScanned = s.numOfScanned) (hkey : ∀ q ∈ s.scannedQueue, (s'.net q).key = (s.net q).key) :
    QueuesOk s' where
  partition := by
    rw [hfree, hscanned]
    exact h.partition
  count := by
    rw [hcount, hscanned]
    exact h.count
  distinct p hp q hq hsame := by
    rw [hscanned] at hp hq
    rw [isSameNetwork_iff, hkey p hp, hkey q hq, ← isSameNetwork_iff] at hsame
    exact h.distinct p hp q hq hsame

theorem ScanOk.congr (h : ScanOk s) (hfree : s'.freeBssPool = s.freeBssPool)
    (hscanned : s'.scannedQueue = s.scannedQueue)
    (hcount : s'.numOfScanned = s.numOfScanned) (hkey : ∀ q ∈ s.scannedQueue, (s'.net q).key = (s.net q).key)
    (hlinked : s'.linked = s.linked) (hcur : s'.curNetworkScanned = s.curNetworkScanned)
    (hcurKey : s'.curNetwork.key = s.curNetwork.key) : ScanOk s' where
  toQueuesOk := h.toQueuesOk.congr hfree hscanned hcount hkey
  joined hl := by
    rw [hlinked] at hl
    obtain ⟨p,hp,hmem,hsame⟩ := h.joined hl
    refine ⟨p,hcur.trans hp,?_,?_⟩
    · rw [hscanned]
      exact hmem
    · rw [isSameNetwork_iff, hkey p hmem, hcurKey]
      exact isSameNetwork_iff.mp hsame

/-- A write that leaves the description of the network alone -/
theorem ScanOk.write (h : ScanOk s) (f : WlanNetwork → WlanNetwork)
    (hf : (f (s.heap p)).network.key = (s.net p).key) :
    ScanOk (s.write p f) := by
  refine h.congr rfl rfl rfl (fun q hq => ?_) rfl rfl rfl
  rw [write_net]
  split
  · rename_i hqp
    rw [hf, hqp]
  · rfl

/-- Two lists of entries in order, when nothing is linked -/
theorem QueuesOk.unlinked (h : QueuesOk s) (hl : s.linked = false) : ScanOk s :=
  ⟨h,fun ht => absurd (hl.symm.trans ht) Bool.false_ne_true⟩

theorem QueuesOk.length_lt (h : QueuesOk s) : s.scannedQueue.length < 2 ^ 32 := by
  have hle := h.partition.used_length_le
  rw [List.length_range, MAX_BSS_CNT] at hle
  omega

theorem QueuesOk.moveToFree (h : QueuesOk s) (hp : p ∈ s.scannedQueue) : QueuesOk (s.moveToFree p) where
  partition := h.partition.give (Or.inr hp)
  count := by
    change (s.numOfScanned + 2 ^ 32 - 1) % 2 ^ 32 = (s.scannedQueue.erase p).length
    have hlen := TwoQueues.length_erase_succ hp
    have hlt := h.length_lt
    rw [h.count]
    omega
  distinct q hq r hr := h.distinct q (List.mem_of_mem_erase hq) r (List.mem_of_mem_erase hr)

/-- An entry that is not the joined one may be freed. -/
theorem ScanOk.moveToFree (h : ScanOk s) (hp : p ∈ s.scannedQueue) (hnot : ¬ s.Joined p) :
    ScanOk (s.moveToFree p) where
  toQueuesOk := h.toQueuesOk.moveToFree hp
  joined hl := by
    obtain ⟨q,hq,hmem,hsame⟩ := h.joined hl
    refine ⟨q,hq,?_,hsame⟩
    apply (List.mem_erase_of_ne ?_).mpr hmem
    rintro rfl
    exact hnot ⟨hl,hq⟩

/-- An entry may get a network that no other one describes. -/
theorem QueuesOk.relabel (h : QueuesOk s) (f : WlanNetwork → WlanNetwork)
    (hnew : ∀ q ∈ s.scannedQueue, q ≠ p → (s.net q).key ≠ (f (s.heap p)).network.key) :
    QueuesOk (s.write p f) where
  partition := h.partition
  count := h.count
  distinct q hq r hr hsame := by
    rw [isSameNetwork_iff, write_net, write_net] at hsame
    by_cases hqp : q = p
    · by_cases hrp : r = p
      · exact hqp.trans hrp.symm
      · rw [if_pos hqp, if_neg hrp] at hsame
        exact absurd hsame.symm (hnew r hr hrp)
    · by_cases hrp : r = p
      · rw [if_neg hqp, if_pos hrp] at hsame
        exact absurd hsame (hnew q hq hqp)
      · rw [if_neg hqp, if_neg hrp] at hsame
        exact h.distinct q hq r hr (isSameNetwork_iff.mpr hsame)

theorem ScanOk.relabel (h : ScanOk s) (f : WlanNetwork → WlanNetwork)
    (hnew : ∀ q ∈ s.scannedQueue, q ≠ p → (s.net q).key ≠ (f (s.heap p)).network.key) (hnot : ¬ s.Joined p) :
    ScanOk (s.write p f) where
  toQueuesOk := h.toQueuesOk.relabel f hnew
  joined hl := by
    obtain ⟨q,hq,hmem,hsame⟩ := h.joined hl
    refine ⟨q,hq,hmem,?_⟩
    rw [write_net, if_neg]
    · exact hsame
    · rintro rfl
      exact hnot ⟨hl,hq⟩

/-- A free object is taken for a network that no entry describes. -/
theorem QueuesOk.takeFree {rest : List ℕ} (h : QueuesOk s) (hfree : s.freeBssPool = p :: rest)
    (f : WlanNetwork → WlanNetwork)
    (hnew : ∀ q ∈ s.scannedQueue, (s.net q).key ≠ (f ((s.takeFree p rest).heap p)).network.key) :
    QueuesOk ((s.takeFree p rest).write p f) := by
  have hpart := h.partition
  rw [hfree] at hpart
  have hp : p ∉ s.scannedQueue := fun hmem => hpart.not_mem_free hmem List.mem_cons_self
  have hnet : ∀ q ∈ s.scannedQueue, ((s.takeFree p rest).write p f).net q = s.net q := by
    intro q hq
    have hqp : q ≠ p := fun he => hp (he ▸ hq)
    rw [write_net, if_neg hqp, takeFree_net]
  have hself : ((s.takeFree p rest).write p f).net p = (f ((s.takeFree p rest).heap p)).network := by
    rw [write_net, if_pos rfl]
  refine ⟨hpart.take,?_,?_⟩
  · change (s.numOfScanned + 1) % 2 ^ 32 = (s.scannedQueue ++ [p]).length
    have hle := hpart.take.used_length_le
    rw [List.length_range, MAX_BSS_CNT] at hle
    rw [List.length_append, List.length_singleton] at hle ⊢
    rw [h.count]
    omega
  · intro q hq r hr hsame
    rw [isSameNetwork_iff] at hsame
    rcases List.mem_append.mp hq with hq | hq
    · rcases List.mem_append.mp hr with hr | hr
      · rw [hnet q hq, hnet r hr] at hsame
        exact h.distinct q hq r hr (isSameNetwork_iff.mpr hsame)
      · rw [List.mem_singleton.mp hr, hnet q hq, hself] at hsame
        exact absurd hsame (hnew q hq)
    · rcases List.mem_append.mp hr with hr | hr
      · rw [List.mem_singleton.mp hq, hnet r hr, hself] at hsame
        exact absurd hsame.symm (hnew r hr)
      · exact (List.mem_singleton.mp hq).trans (List.mem_singleton.mp hr).symm

theorem ScanOk.takeFree {rest : List ℕ} (h : ScanOk s) (hfree : s.freeBssPool = p :: rest)
    (f : WlanNetwork → WlanNetwork)
    (hnew : ∀ q ∈ s.scannedQueue, (s.net q).key ≠ (f ((s.takeFree p rest).heap p)).network.key) :
    ScanOk ((s.takeFree p rest).write p f) where
  toQueuesOk := h.toQueuesOk.takeFree hfree f hnew
  joined hl := by
    obtain ⟨q,hq,hmem,hsame⟩ := h.joined hl
    have hpart := h.partition
    rw [hfree] at hpart
    have hqp : q ≠ p := by
      rintro rfl
      exact hpart.not_mem_free hmem List.mem_cons_self
    refine ⟨q,hq,List.mem_append_left _ hmem,?_⟩
    rw [write_net, if_neg hqp, takeFree_net]
    exact hsame

/-! ## Flushes -/

/-- The entries of a list are freed, those that are due. -/
theorem freeNetwork_foldl (all : Bool) (l : List ℕ) :
    ∀ s, ScanOk s → l.Nodup → (∀ p ∈ l, p ∈ s.scannedQueue) →
    (∀ p, s.Joined p → s.due all p = false) → ScanOk (l.foldl (MlmePriv.freeNetwork all) s) := by
  induction l with
  | nil => exact fun s h _ _ _ => h
  | cons p l ih =>
    intro s h hnodup hmem hjoined
    obtain ⟨hp,hnodup⟩ := List.nodup_cons.mp hnodup
    rw [List.foldl_cons, MlmePriv.freeNetwork]
    split
    · rename_i hdue
      apply ih _ (h.moveToFree (hmem p List.mem_cons_self) ?_) hnodup
      · intro q hq
        have hqp : q ≠ p := fun he => hp (he ▸ hq)
        exact (List.mem_erase_of_ne hqp).mpr (hmem q (List.mem_cons_of_mem p hq))
      · exact fun q hq => hjoined q hq
      · intro hj
        rw [hjoined p hj] at hdue
        cases hdue
    · exact ih s h hnodup (fun q hq => hmem q (List.mem_cons_of_mem p hq)) hjoined

theorem freeNetworkQueue_ok (h : ScanOk s) {all : Bool} (hjoined : ∀ p, s.Joined p → s.due all p = false) :
    ScanOk (s.freeNetworkQueue all) :=
  freeNetwork_foldl all s.scannedQueue s h h.partition.used_nodup (fun _ hp => hp) hjoined

theorem moveToFree_foldl (l : List ℕ) : ∀ s, ScanOk s → s.linked = false → l.Nodup →
    (∀ p ∈ l, p ∈ s.scannedQueue) →
    ScanOk (l.foldl MlmePriv.moveToFree s) := by
  induction l with
  | nil => exact fun s h _ _ _ => h
  | cons p l ih =>
    intro s h hl hnodup hmem
    obtain ⟨hp,hnodup⟩ := List.nodup_cons.mp hnodup
    rw [List.foldl_cons]
    apply ih _ (h.moveToFree (hmem p List.mem_cons_self) ?_) hl hnodup
    · intro q hq
      have hqp : q ≠ p := fun he => hp (he ▸ hq)
      exact (List.mem_erase_of_ne hqp).mpr (hmem q (List.mem_cons_of_mem p hq))
    · exact fun hj => absurd (hl.symm.trans hj.1) Bool.false_ne_true

theorem freeScanqueue_ok (h : ScanOk s) (hl : s.linked = false) : ScanOk s.freeScanqueue :=
  moveToFree_foldl s.scannedQueue s h hl h.partition.used_nodup fun _ hp => hp

/-! ## Surveys -/

/-- The entry that `rtw_update_scanned_network` recycles: the first of those scanned longest ago -/
def MlmePriv.oldest (s : MlmePriv) : Option ℕ := s.scannedQueue.foldl s.older none

theorem surveyLoop_eq (s : MlmePriv) (target : BssidEx) (l : List ℕ) : ∀ o,
    (s.surveyLoop target o l).1 = l.find? (s.surveyMatches target) ∧
      (l.find? (s.surveyMatches target) = none → (s.surveyLoop target o l).2 = l.foldl s.older o) := by
  induction l with
  | nil => exact fun o => ⟨rfl,fun _ => rfl⟩
  | cons p l ih =>
    intro o
    rw [MlmePriv.surveyLoop, List.find?_cons]
    cases hm : s.surveyMatches target p with
    | true => exact ⟨rfl,fun h => by cases h⟩
    | false => exact ih (s.older o p)

/-- The condition on a survey: the network has its fixed elements; an entry that the address alone
matches, and which takes the elements, describes the same network, or else is not the joined one
and there is no other of the new network; and the entry that is recycled is not the joined one. -/
structure SurveyOk (s : MlmePriv) (target : BssidEx) : Prop where
  complete : 12 ≤ target.ieLength
  matched : ∀ p, s.scannedQueue.find? (s.surveyMatches target) = some p → s.updateIe target p = true →
    isSameNetwork (s.net p) target = true ∨
      ¬ s.Joined p ∧ ∀ q ∈ s.scannedQueue, q ≠ p → isSameNetwork (s.net q) target = false
  recycled : s.scannedQueue.find? (s.surveyMatches target) = none → s.freeBssPool = [] → ∀ p,
    s.oldest = some p → ¬ s.Joined p

theorem updateScannedNetwork_ok (h : ScanOk s) {target : BssidEx} (hok : SurveyOk s target) :
    ScanOk (s.updateScannedNetwork target) := by
  obtain ⟨hfirst,hsecond⟩ := surveyLoop_eq s target s.scannedQueue none
  have hcopy : ∀ dst : BssidEx, (dst.copy target).key = target.key := fun dst => copy_key dst hok.complete
  rw [MlmePriv.updateScannedNetwork]
  generalize s.surveyLoop target none s.scannedQueue = r at hfirst hsecond
  obtain ⟨found,oldest⟩ := r
  dsimp only at hfirst hsecond
  cases found with
  | some p =>
    dsimp only
    cases hie : s.updateIe target p with
    | false => exact h.write _ rfl
    | true =>
      rcases hok.matched p hfirst.symm hie with hsame | ⟨hnot,hother⟩
      · apply h.write
        change ((s.net p).copy target).key = _
        rw [hcopy]
        exact (isSameNetwork_iff.mp hsame).symm
      · apply h.relabel _ _ hnot
        intro q hq hqp hkey
        change _ = ((s.net p).copy target).key at hkey
        rw [hcopy, ← isSameNetwork_iff, hother q hq hqp] at hkey
        cases hkey
  | none =>
    have hnone : ∀ q ∈ s.scannedQueue, (s.net q).key ≠ target.key := by
      intro q hq hkey
      have hm := List.find?_eq_none.mp hfirst.symm q hq
      rw [MlmePriv.surveyMatches, isSameNetwork_iff.mpr hkey, Bool.or_true] at hm
      exact hm rfl
    dsimp only
    cases hfree : s.freeBssPool with
    | nil =>
      dsimp only
      cases ho : oldest with
      | none => exact h
      | some p =>
        have hold : s.oldest = some p := by
          rw [← ho]
          exact (hsecond hfirst.symm).symm
        apply h.relabel _ _ (hok.recycled hfirst.symm hfree p hold)
        intro q hq _
        dsimp only
        rw [hcopy]
        exact hnone q hq
    | cons p rest =>
      apply h.takeFree hfree
      intro q hq
      dsimp only
      rw [hcopy]
      exact hnone q hq

theorem addNetwork_ok (h : ScanOk s) {target : BssidEx} (hok : SurveyOk s target) : ScanOk (s.addNetwork target) := by
  rw [MlmePriv.addNetwork, MlmePriv.updateCurrentNetwork]
  split
  · rename_i hsame
    rw [Bool.and_eq_true] at hsame
    have hcur : ScanOk { s with curNetwork := s.curNetwork.copy target } := by
      refine h.congr rfl rfl rfl (fun _ _ => rfl) rfl rfl ?_
      exact copy_key_of_key (isSameNetwork_iff.mp hsame.2)
    exact updateScannedNetwork_ok hcur ⟨hok.complete,hok.matched,hok.recycled⟩
  · exact updateScannedNetwork_ok h hok

/-! ## Joins -/

/-- Only the fixed flag of some entry changes. -/
structure SameNets (s s' : MlmePriv) : Prop where
  ok : ScanOk s → ScanOk s'
  scanned : s'.scannedQueue = s.scannedQueue
  net : ∀ q, s'.net q = s.net q

theorem SameNets.refl (s : MlmePriv) : SameNets s s := ⟨id,rfl,fun _ => rfl⟩

theorem SameNets.trans {s'' : MlmePriv} (h : SameNets s s') (h' : SameNets s' s'') : SameNets s s'' :=
  ⟨h'.ok ∘ h.ok,h'.scanned.trans h.scanned,fun q => (h'.net q).trans (h.net q)⟩

theorem sameNets_fixed (s : MlmePriv) (p : ℕ) (b : Bool) : SameNets s (s.write p fun e => { e with fixed := b }) where
  ok h := h.write _ rfl
  scanned := rfl
  net q := by
    rw [write_net]
    split
    · rename_i hqp
      rw [hqp]
      rfl
    · rfl

theorem findNetwork_some {addr : MacAddr} (h : s.findNetwork addr = some p) :
    p ∈ s.scannedQueue ∧ (s.net p).macAddress = addr := by
  rw [MlmePriv.findNetwork] at h
  split at h
  · cases h
  · have hmac := List.find?_some h
    exact ⟨List.mem_of_find?_eq_some h,(of_decide_eq_true hmac).symm⟩

theorem findSameNetwork_some {network : BssidEx} (h : s.findSameNetwork network = some p) :
    p ∈ s.scannedQueue ∧ network.key = (s.net p).key := by
  have hkey := List.find?_some h
  exact ⟨List.mem_of_find?_eq_some h,isSameNetwork_iff.mp hkey⟩

theorem sameNets_unfix (s : MlmePriv) (o : Option ℕ) : SameNets s (s.unfix o) := by
  cases o with
  | none => exact .refl s
  | some p => exact sameNets_fixed s p false

theorem sameNets_fixTarget (s : MlmePriv) (o : Option ℕ) : SameNets s (s.fixTarget o) := by
  cases o with
  | none => exact .refl s
  | some p =>
    rw [MlmePriv.fixTarget]
    split
    · exact sameNets_fixed s p true
    · exact .refl s

/-- The entry that is joined: of the same network, or found by its address when the station is
linked -/
theorem joinTarget_spec (s : MlmePriv) (network : BssidEx) : SameNets s (s.joinTarget network).1 ∧
    ∀ p, (s.joinTarget network).2 = some p → p ∈ s.scannedQueue ∧ (s.net p).macAddress = network.macAddress ∧
      (s.linked = false → (s.net p).ssid = network.ssid) ∧
      (s.linked = true → s.findNetwork network.macAddress = some p) := by
  rw [MlmePriv.joinTarget]
  cases hl : s.linked with
  | true =>
    rw [if_pos rfl]
    by_cases hmac : network.macAddress = s.curNetwork.macAddress
    · rw [if_pos hmac]
      refine ⟨.refl s,fun p hp => ?_⟩
      rw [← hmac] at hp
      obtain ⟨hmem,hm⟩ := findNetwork_some hp
      exact ⟨hmem,hm,fun h => absurd h (by decide),fun _ => hp⟩
    · rw [if_neg hmac]
      have hunfix := sameNets_unfix s (s.findNetwork s.curNetwork.macAddress)
      dsimp only
      generalize s.unfix (s.findNetwork s.curNetwork.macAddress) = t at hunfix
      have hfind : t.findNetwork network.macAddress = s.findNetwork network.macAddress := by
        rw [MlmePriv.findNetwork, MlmePriv.findNetwork, hunfix.scanned]
        simp only [hunfix.net]
      refine ⟨hunfix.trans (sameNets_fixTarget t _),fun p hp => ?_⟩
      rw [hfind] at hp
      obtain ⟨hmem,hm⟩ := findNetwork_some hp
      exact ⟨hmem,hm,fun h => absurd h (by decide),fun _ => hp⟩
  | false =>
    rw [if_neg Bool.false_ne_true]
    refine ⟨sameNets_fixTarget s _,fun p hp => ?_⟩
    obtain ⟨hmem,hkey⟩ := findSameNetwork_some hp
    have hparts : network.macAddress = (s.net p).macAddress ∧ network.ssid = (s.net p).ssid := by
      simp only [BssidEx.key, Prod.mk.injEq] at hkey
      exact ⟨hkey.1,hkey.2.1⟩
    exact ⟨hmem,hparts.1.symm,fun _ => hparts.2.symm,fun h => absurd h (by decide)⟩

/-- The condition on a join event: an entry that the address alone finds has the SSID. -/
def JoinOk (s : MlmePriv) (network : BssidEx) (joinRes : ℤ) : Prop :=
  0 < joinRes → s.underLinking = true → s.linked = true → ∀ p, s.findNetwork network.macAddress = some p →
    (s.net p).ssid = network.ssid

theorem joinbssEvent_ok (h : ScanOk s) {network : BssidEx} {joinRes : ℤ} (staOk : Bool)
    (hok : JoinOk s network joinRes) :
    ScanOk (s.joinbssEvent network joinRes staOk) := by
  rw [MlmePriv.joinbssEvent]
  split
  · rename_i hres
    split
    · rename_i hlinking
      obtain ⟨hsame,htarget⟩ := joinTarget_spec s network
      generalize s.joinTarget network = r at hsame htarget
      obtain ⟨t,target⟩ := r
      have ht := hsame.ok h
      cases target with
      | none => exact ht
      | some p =>
        obtain ⟨hmem,hmac,hunlinked,hlinked⟩ := htarget p rfl
        have hssid : (s.net p).ssid = network.ssid := by
          cases hl : s.linked with
          | true => exact hok hres hlinking hl p (hlinked hl)
          | false => exact hunlinked hl
        have hup : QueuesOk (t.joinUpdateNetwork p network) := ht.toQueuesOk.congr rfl rfl rfl fun _ _ => rfl
        have hkey : (t.net p).key = (t.joinUpdateNetwork p network).curNetwork.key := by
          have hnet := hsame.net p
          dsimp only at hnet
          change (t.net p).key = (network.macAddress,network.ssid,(t.net p).cap.testBit 0,(t.net p).cap.testBit 1)
          rw [hnet, BssidEx.key, hmac, hssid]
        dsimp only
        split
        · exact hup.unlinked rfl
        · split
          · refine ⟨hup.congr rfl rfl rfl fun _ _ => rfl,fun _ => ⟨p,rfl,?_,?_⟩⟩
            · change p ∈ t.scannedQueue
              have hscanned := hsame.scanned
              dsimp only at hscanned
              rw [hscanned]
              exact hmem
            · exact isSameNetwork_iff.mpr hkey
          · exact hup.unlinked rfl
    · exact h
  · exact h.congr rfl rfl rfl (fun _ _ => rfl) rfl rfl rfl

/-! ## IBSS creation and disconnects -/

/-- The condition on the creation of an IBSS: its network has the fixed elements, the station is not
linked, and no entry but the one that is used describes the network. -/
structure IbssOk (s : MlmePriv) (devNetwork : BssidEx) : Prop where
  complete : 12 ≤ devNetwork.ieLength
  unlinked : s.linked = false
  alone : ∀ q ∈ s.scannedQueue, isSameNetwork (s.net q) devNetwork = true → s.freeBssPool = [] ∧
    s.getOldestWlanNetwork = some q

theorem createIbss_ok (h : ScanOk s) {devNetwork : BssidEx} (hok : IbssOk s devNetwork) :
    ScanOk (s.createIbss devNetwork) := by
  have hcopy : ∀ dst : BssidEx, (dst.copy devNetwork).key = devNetwork.key := fun dst => copy_key dst hok.complete
  rw [MlmePriv.createIbss]
  cases hentry : s.ibssEntry with
  | none => exact h
  | some r =>
    obtain ⟨t,p⟩ := r
    dsimp only
    rw [MlmePriv.ibssEntry] at hentry
    cases hfree : s.freeBssPool with
    | cons p' rest =>
      rw [hfree] at hentry
      cases hentry
      have htake : QueuesOk ((s.takeFree p rest).write p fun e => { e with network := e.network.copy devNetwork }) := by
        apply h.toQueuesOk.takeFree hfree
        intro q hq hkey
        dsimp only at hkey
        rw [hcopy, ← isSameNetwork_iff] at hkey
        have hempty := (hok.alone q hq hkey).1
        rw [hfree] at hempty
        cases hempty
      refine QueuesOk.unlinked ?_ hok.unlinked
      exact htake.congr rfl rfl rfl fun _ _ => rfl
    | nil =>
      rw [hfree] at hentry
      obtain ⟨p',hold,heq⟩ := Option.map_eq_some_iff.mp hentry
      cases heq
      have hwrite : ScanOk (s.write p fun e => { e with lastScanned := s.clock.rtwGetCurrentTime }) := h.write _ rfl
      have hnet : ∀ q, (s.write p fun e => { e with lastScanned := s.clock.rtwGetCurrentTime }).net q = s.net q := by
        intro q
        rw [write_net]
        split
        · rename_i hqp
          rw [hqp]
          rfl
        · rfl
      have hlabel : QueuesOk ((s.write p fun e => { e with lastScanned := s.clock.rtwGetCurrentTime }).write p fun e =>
          { e with network := e.network.copy devNetwork }) := by
        apply hwrite.toQueuesOk.relabel
        intro q hq hqp hkey
        dsimp only at hkey
        rw [hcopy, hnet, ← isSameNetwork_iff] at hkey
        have hsame := (hok.alone q hq hkey).2
        rw [hold] at hsame
        exact hqp (Option.some.inj hsame).symm
      refine QueuesOk.unlinked ?_ hok.unlinked
      exact hlabel.congr rfl rfl rfl fun _ _ => rfl

/-- The condition on a disconnect: an entry of the network of an IBSS master without stations is
not freed twice. -/
def DisconnectOk (s : MlmePriv) (indicateFirst : Bool) (asocStaCount : ℕ) : Prop :=
  s.mode = .adhocMaster → asocStaCount = 1 → (s.findSameNetwork s.curNetwork).isSome →
    indicateFirst = false ∧ s.underWps = true

theorem freeNetworkNolock_ok (h : QueuesOk s) (hp : p ∈ s.scannedQueue) : QueuesOk (s.freeNetworkNolock p) := by
  rw [MlmePriv.freeNetworkNolock]
  split
  · exact h
  · exact h.moveToFree hp

theorem freeAssocResources_ok (h : QueuesOk s) {n : ℕ} (hok : s.mode = .adhocMaster → n = 1 →
    (s.findSameNetwork s.curNetwork).isSome → s.underWps = true) : QueuesOk (s.freeAssocResources n) := by
  rw [MlmePriv.freeAssocResources]
  cases hfind : s.findSameNetwork s.curNetwork with
  | none => exact h
  | some p =>
    have hp := (findSameNetwork_some hfind).1
    dsimp only
    cases hwps : s.underWps with
    | true =>
      rw [if_pos rfl]
      split
      · exact freeNetworkNolock_ok h hp
      · exact h
    | false =>
      rw [if_neg Bool.false_ne_true]
      have hw : QueuesOk (s.write p fun e => { e with fixed := false }) := by
        refine h.congr rfl rfl rfl fun q _ => ?_
        rw [(sameNets_fixed s p false).net q]
      have hfree := freeNetworkNolock_ok hw hp
      rw [if_neg]
      · exact hfree
      · intro hc
        have hmode : s.mode = .adhocMaster := by
          have hm := hc.1
          rw [MlmePriv.freeNetworkNolock] at hm
          split at hm
          · exact hm
          · exact hm
        have hbad := hok hmode hc.2 (by rw [hfind]; rfl)
        rw [hwps] at hbad
        cases hbad

theorem freeAssocResources_linked (s : MlmePriv) (n : ℕ) : (s.freeAssocResources n).linked = s.linked := by
  have hnolock : ∀ (t : MlmePriv) p, (t.freeNetworkNolock p).linked = t.linked := by
    intro t p
    rw [MlmePriv.freeNetworkNolock]
    split
    · rfl
    · rfl
  rw [MlmePriv.freeAssocResources]
  cases s.findSameNetwork s.curNetwork with
  | none => rfl
  | some p =>
    have hfirst : (if s.underWps then s else (s.write p fun e => { e with fixed := false }).freeNetworkNolock p).linked
        = s.linked := by
      split
      · rfl
      · exact hnolock _ p
    dsimp only
    generalize (if s.underWps then s else (s.write p fun e => { e with fixed := false }).freeNetworkNolock p) = t
      at hfirst ⊢
    split
    · exact (hnolock t p).trans hfirst
    · exact hfirst

theorem disconnect_ok (h : ScanOk s) {first : Bool} {n : ℕ} (hok : DisconnectOk s first n) :
    ScanOk (scanStep s (.disconnect first n)) := by
  cases first with
  | true =>
    have hind : QueuesOk s.indicateDisconnect := h.toQueuesOk.congr rfl rfl rfl fun _ _ => rfl
    have hfree : QueuesOk (s.indicateDisconnect.freeAssocResources n) := by
      apply freeAssocResources_ok hind
      intro hmode hn hfind
      exact absurd (hok hmode hn hfind).1 (by decide)
    exact hfree.unlinked (freeAssocResources_linked _ n)
  | false =>
    have hfree : QueuesOk (s.freeAssocResources n) :=
      freeAssocResources_ok h.toQueuesOk fun hmode hn hfind => (hok hmode hn hfind).2
    refine QueuesOk.unlinked ?_ rfl
    exact hfree.congr rfl rfl rfl fun _ _ => rfl

end

/-! ## Runs -/

def scanRun (clock : Clock) (es : List ScanEvent) : MlmePriv := Run.run scanStep (.init clock) es

/-- The condition on an event in the state that it meets -/
def ScanEventOk (s : MlmePriv) : ScanEvent → Prop
  | .survey target => SurveyOk s target
  | .flush isfreeall => ∀ p, s.Joined p → s.due isfreeall p = false
  | .join network joinRes _ => JoinOk s network joinRes
  | .createIbss devNetwork => IbssOk s devNetwork
  | .disconnect indicateFirst asocStaCount => DisconnectOk s indicateFirst asocStaCount
  | _ => True

theorem scanStep_ok {s : MlmePriv} (h : ScanOk s) {e : ScanEvent} (hok : ScanEventOk s e) : ScanOk (scanStep s e) := by
  cases e with
  | survey target => exact addNetwork_ok h hok
  | flush isfreeall => exact freeNetworkQueue_ok h hok
  | p2p on => exact h.congr rfl rfl rfl (fun _ _ => rfl) rfl rfl rfl
  | join network joinRes staOk => exact joinbssEvent_ok h staOk hok
  | createIbss devNetwork => exact createIbss_ok h hok
  | disconnect indicateFirst n => exact disconnect_ok h hok
  | joinTimeout roaming =>
    have hqueues : QueuesOk s.indicateDisconnect := h.toQueuesOk.congr rfl rfl rfl fun _ _ => rfl
    have hind : ScanOk s.indicateDisconnect := hqueues.unlinked rfl
    cases roaming with
    | true => exact hind
    | false => exact freeScanqueue_ok hind rfl
  | linking => exact h.congr rfl rfl rfl (fun _ _ => rfl) rfl rfl rfl
  | wps on => exact h.congr rfl rfl rfl (fun _ _ => rfl) rfl rfl rfl
  | setMode mode => exact h.congr rfl rfl rfl (fun _ _ => rfl) rfl rfl rfl
  | wait ticks => exact h.congr rfl rfl rfl (fun _ _ => rfl) rfl rfl rfl

theorem scanOk_init (clock : Clock) : ScanOk (.init clock) where
  partition := ⟨List.nodup_range,by
    change (List.range MAX_BSS_CNT ++ []).Perm (List.range MAX_BSS_CNT)
    rw [List.append_nil]⟩
  count := rfl
  distinct p hp := absurd hp List.not_mem_nil
  joined hl := by cases hl

/-- In a run whose events meet the condition, the scan table is right in every state. -/
theorem scan_table_ok (clock : Clock) (es : List ScanEvent)
    (hok : ∀ past e, past ++ [e] <+: es → ScanEventOk (scanRun clock past) e) :
    ∀ past, past <+: es → ScanOk (scanRun clock past) := by
  apply Run.prefix_induction
  · exact scanOk_init clock
  · intro past e hpre ih
    rw [scanRun, Run.run_append]
    exact scanStep_ok ih (hok past e hpre)

/-! ## Some runs -/

instance (s : MlmePriv) (p : ℕ) : Decidable (s.Joined p) := by delta MlmePriv.Joined; infer_instance

instance (s : MlmePriv) (target : BssidEx) : Decidable (SurveyOk s target) :=
  decidable_of_iff (12 ≤ target.ieLength ∧
      (∀ p ∈ s.scannedQueue.find? (s.surveyMatches target), s.updateIe target p = true →
        isSameNetwork (s.net p) target = true ∨
          ¬ s.Joined p ∧ ∀ q ∈ s.scannedQueue, q ≠ p → isSameNetwork (s.net q) target = false) ∧
      (s.scannedQueue.find? (s.surveyMatches target) = none → s.freeBssPool = [] → ∀ p ∈ s.oldest,
        ¬ s.Joined p))
    ⟨fun h => ⟨h.1,h.2.1,h.2.2⟩,fun h => ⟨h.complete,h.matched,h.recycled⟩⟩

/-- A network of which the probe response was heard, with the capabilities of an ESS -/
def someBss (n : ℕ) : BssidEx where
  macAddress := [2,0,0,0,1,UInt8.ofNat n]
  reserved := 3
  ssid := [110,101,116]
  infrastructureMode := .infrastructure
  ieLength := 12
  ies := [0,0,0,0,0,0,0,0,100,0,1,0]
  fits := by decide

/-- A kernel that was just booted -/
def bootClock : Clock := ⟨1000,64,2 ^ 32 - 300000⟩

/-- The station joins a network, and hears it and another one. -/
def joins : List ScanEvent := [.survey (someBss 1),.linking,.join (someBss 1) 1 true]

theorem scan_table_ok_joined : ScanOk (scanRun bootClock (joins ++ [.survey (someBss 1),.survey (someBss 2)])) := by
  refine scan_table_ok _ _ ?_ _ List.prefix_rfl
  intro past e hpre
  rw [joins] at hpre
  rcases past with _ | ⟨a,_ | ⟨b,_ | ⟨c,_ | ⟨d,_ | ⟨f,past⟩⟩⟩⟩⟩
  · obtain rfl : e = .survey (someBss 1) := by simpa using hpre
    change SurveyOk _ _
    decide +kernel
  · obtain ⟨rfl,rfl⟩ : a = .survey (someBss 1) ∧ e = .linking := by simpa using hpre
    trivial
  · obtain ⟨rfl,rfl,rfl⟩ : a = .survey (someBss 1) ∧ b = .linking ∧ e = .join (someBss 1) 1 true := by
      simpa using hpre
    exact fun _ _ hl => absurd hl (by decide +kernel)
  · obtain ⟨rfl,rfl,rfl,rfl⟩ : a = .survey (someBss 1) ∧ b = .linking ∧ c = .join (someBss 1) 1 true ∧
        e = .survey (someBss 1) := by simpa using hpre
    change SurveyOk _ _
    decide +kernel
  · obtain ⟨rfl,rfl,rfl,rfl,rfl⟩ : a = .survey (someBss 1) ∧ b = .linking ∧ c = .join (someBss 1) 1 true ∧
        d = .survey (someBss 1) ∧ e = .survey (someBss 2) := by simpa using hpre
    change SurveyOk _ _
    decide +kernel
  · simp at hpre

/-- 128 other networks are heard. -/
def crowded : List ScanEvent := joins ++ [.wait 1] ++ (List.range 128).map fun n => .survey (someBss (n + 2))

/-- The entry of the joined network is recycled for the last of them; and the entry of an IBSS is
freed twice. -/
theorem joined_recycled_and_ibss_freed_twice :
    ¬ ScanOk (scanRun bootClock crowded) ∧
    ¬ ScanOk (scanRun bootClock [.setMode .adhocMaster,.createIbss (someBss 1),.disconnect false 1]) := by
  constructor
  · intro h
    -- one evaluation of the run for both facts
    obtain ⟨hlinked,hother⟩ : (scanRun bootClock crowded).linked = true ∧
        ((scanRun bootClock crowded).curNetworkScanned.map fun p =>
        isSameNetwork ((scanRun bootClock crowded).net p) (scanRun bootClock crowded).curNetwork) = some false := by
          decide +kernel
    obtain ⟨p,hp,-,hsame⟩ := h.joined hlinked
    rw [hp, Option.map_some, hsame] at hother
    cases hother
  · intro h
    exact absurd h.count (by decide +kernel)

end Rtl8188fu
