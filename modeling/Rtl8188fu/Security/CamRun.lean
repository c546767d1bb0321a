import Rtl8188fu.Library.PartialRun
import Rtl8188fu.Security.Cam

/-! # Live keys and CAM entries

What every sequence of key commands keeps: each live key has an entry of its own, and the
bitmap and the search agree with the live keys.
-/
namespace Rtl8188fu

theorem camNum_eq : camNum = 16 := rfl

theorem getLsbD_secCamMapSet (map : BitVec 32) {id e : ℕ} (he : e < 32) :
    (secCamMapSet map e).getLsbD id = (map.getLsbD id || decide (id = e)) := by
  rw [secCamMapSet, if_pos he, BitVec.getLsbD_or, BitVec.getLsbD_twoPow]
  simp only [he, decide_true, Bool.true_and, eq_comm]

theorem getLsbD_secCamMapClr (map : BitVec 32) {id e : ℕ} (hid : id < 32) (he : e < 32) :
    (secCamMapClr map e).getLsbD id = (map.getLsbD id && decide (id ≠ e)) := by
  rw [secCamMapClr, if_pos he, BitVec.getLsbD_and, BitVec.getLsbD_not, BitVec.getLsbD_twoPow]
  simp [hid, he, eq_comm]

theorem secCamMapSet_of_set {map : BitVec 32} {e : ℕ} (he : e < 32) (h : map.getLsbD e = true) :
    secCamMapSet map e = map := by
  apply BitVec.eq_of_getLsbD_eq
  intro i hi
  rw [getLsbD_secCamMapSet map he]
  by_cases hie : i = e
  · rw [hie, h]
    rfl
  · simp [hie]

/-- An entry holds a key: the default keys lie at their key ids, the other keys behind them. -/
structure CamKeyAt (s : CamState) (k : CamKey) (e : ℕ) : Prop where
  entry : e < camNum
  mac : (s.camCache e).mac = k.addr
  keyid : (s.camCache e).ctrl % 4 = k.keyid
  gk : (s.camCache e).ctrl.testBit 6 = k.gk
  default : k.addr = nullAddr → k.gk = true ∧ e = k.keyid
  dynamic : k.addr ≠ nullAddr → 4 ≤ e

/-- What every safe command keeps -/
structure CamInv (s : CamState) : Prop where
  chkBmc : s.chkBmc = false
  keys : ∀ l ∈ s.live, CamKeyAt s l.1 l.2
  used : ∀ id < 32, s.used.getLsbD id = true ↔ ∃ l ∈ s.live, l.2 = id
  unused : ∀ id, s.used.getLsbD id = false → s.camCache id = .zero
  one : ∀ a ∈ s.live, ∀ b ∈ s.live, a.1.addr = b.1.addr → a.1.keyid = b.1.keyid → a.2 = b.2

theorem camCacheChk_iff {s : CamState} {id : ℕ} {addr : MacAddr} {kid : Option ℕ} {gk : Option Bool} :
    camCacheChk s id addr kid gk = true ↔
      (s.camCache id).mac = addr ∧ (∀ k ∈ kid, k = (s.camCache id).ctrl % 4) ∧
      ∀ g ∈ gk, g = camidIsGk s id := by
  rw [camCacheChk, decide_eq_true_eq]

section Invariant
variable {s : CamState} (h : CamInv s)
include h

theorem CamInv.key_eq {a b : CamKey × ℕ} (ha : a ∈ s.live) (hb : b ∈ s.live) (heq : a.2 = b.2) : a.1 = b.1 := by
  have hka := h.keys a ha
  have hkb := h.keys b hb
  rw [heq] at hka
  obtain ⟨⟨addr,keyid,gk⟩,e⟩ := a
  obtain ⟨⟨addr',keyid',gk'⟩,e'⟩ := b
  have h1 : addr = addr' := hka.mac.symm.trans hkb.mac
  have h2 : keyid = keyid' := hka.keyid.symm.trans hkb.keyid
  have h3 : gk = gk' := hka.gk.symm.trans hkb.gk
  rw [h1, h2, h3]

theorem CamInv.isUsed {l : CamKey × ℕ} (hl : l ∈ s.live) : secCamidIsUsed s l.2 = true := by
  have hlt := (h.keys l hl).entry
  have hset := (h.used l.2 (by rw [camNum_eq] at hlt; omega)).mpr ⟨l,hl,rfl⟩
  rw [secCamidIsUsed, hset, decide_eq_true hlt]
  rfl

theorem CamInv.isGk {l : CamKey × ℕ} (hl : l ∈ s.live) : camidIsGk s l.2 = l.1.gk := by
  rw [camidIsGk, h.isUsed hl, (h.keys l hl).gk]
  rfl

theorem CamInv.chk {l : CamKey × ℕ} (hl : l ∈ s.live) (kid : Option ℕ) (hkid : ∀ k ∈ kid, k = l.1.keyid) :
    camCacheChk s l.2 l.1.addr kid none = true := by
  have hk := h.keys l hl
  rw [camCacheChk_iff]
  exact ⟨hk.mac,fun k hm => (hkid k hm).trans hk.keyid.symm,nofun⟩

/-- An entry with the address of a station is that of a live key. -/
theorem CamInv.live_of_mac {i : ℕ} (hi : i < camNum) {addr : MacAddr} (haddr : addr ≠ nullAddr)
    (hmac : (s.camCache i).mac = addr) : ∃ l ∈ s.live, l.2 = i ∧ l.1.addr = addr := by
  rw [camNum_eq] at hi
  cases hused : s.used.getLsbD i with
  | false =>
    rw [h.unused i hused] at hmac
    exact absurd hmac.symm haddr
  | true =>
    obtain ⟨l,hl,rfl⟩ := (h.used i (by omega)).mp hused
    exact ⟨l,hl,rfl,(h.keys l hl).mac.symm.trans hmac⟩

theorem CamInv.search {l : CamKey × ℕ} (hl : l ∈ s.live) :
    camidSearch s l.1.addr (some l.1.keyid) (some l.1.gk) = some l.2 := by
  have hk := h.keys l hl
  have hgk := h.isGk hl
  rw [camidSearch, List.find?_range_eq_some]
  refine ⟨?_,List.mem_range.mpr hk.entry,?_⟩
  · rw [camCacheChk_iff]
    refine ⟨hk.mac,?_,?_⟩
    · rintro k ⟨⟩
      exact hk.keyid.symm
    · rintro g ⟨⟩
      exact hgk.symm
  · intro j hj
    rw [Bool.not_eq_true', Bool.eq_false_iff, Ne, camCacheChk_iff]
    rintro ⟨hmac,hkid,hg⟩
    have hjlt : j < camNum := hj.trans hk.entry
    cases hused : s.used.getLsbD j with
    | true =>
      -- a used entry is that of a key with this address and key id
      obtain ⟨b,hb,rfl⟩ := (h.used j (by rw [camNum_eq] at hjlt; omega)).mp hused
      have hkb := h.keys b hb
      have := h.one b hb l hl (hkb.mac.symm.trans hmac) (hkb.keyid.symm.trans (hkid _ rfl).symm)
      omega
    | false =>
      -- an unused one has the null address, and is not that of a group key
      rw [h.unused j hused] at hmac
      have hdefault := (hk.default hmac.symm).1
      have hnot : camidIsGk s j = false := by simp [camidIsGk, secCamidIsUsed, hused]
      have := hg _ rfl
      rw [hdefault, hnot] at this
      cases this

/-- Clearing an entry takes the key in it out of the live ones. -/
theorem CamInv.clear {e : ℕ} (he : e < camNum) : CamInv (clearCamEntry s e) := by
  have he32 : e < 32 := by rw [camNum_eq] at he; omega
  have hbit : ∀ id < 32, (clearCamEntry s e).used.getLsbD id = (s.used.getLsbD id && decide (id ≠ e)) := by
    intro id hid
    rw [clearCamEntry]
    dsimp only
    rw [if_pos he, getLsbD_secCamMapClr _ hid he32]
  have hmem : ∀ l, l ∈ (clearCamEntry s e).live ↔ l ∈ s.live ∧ l.2 ≠ e := by
    intro l
    rw [clearCamEntry, List.mem_filter, decide_eq_true_eq]
  have hcache : ∀ id, id ≠ e → (clearCamEntry s e).camCache id = s.camCache id :=
    fun id hid => Function.update_of_ne hid _ _
  refine ⟨h.chkBmc,?_,?_,?_,?_⟩
  · intro l hl
    obtain ⟨hl,hne⟩ := (hmem l).mp hl
    have hk := h.keys l hl
    exact ⟨hk.entry,by rw [hcache _ hne]; exact hk.mac,by rw [hcache _ hne]; exact hk.keyid,
      by rw [hcache _ hne]; exact hk.gk,hk.default,hk.dynamic⟩
  · intro id hid
    rw [hbit id hid, Bool.and_eq_true, decide_eq_true_eq, h.used id hid]
    constructor
    · rintro ⟨⟨l,hl,rfl⟩,hne⟩
      exact ⟨l,(hmem l).mpr ⟨hl,hne⟩,rfl⟩
    · rintro ⟨l,hl,rfl⟩
      obtain ⟨hl,hne⟩ := (hmem l).mp hl
      exact ⟨⟨l,hl,rfl⟩,hne⟩
  · intro id hid
    by_cases hie : id = e
    · rw [hie]
      exact Function.update_self ..
    · rw [hcache _ hie]
      apply h.unused
      by_cases h32 : id < 32
      · rw [hbit id h32, decide_eq_true hie, Bool.and_true] at hid
        exact hid
      · exact BitVec.getLsbD_of_ge _ _ (by omega)
  · intro a ha b hb
    exact h.one a ((hmem a).mp ha).1 b ((hmem b).mp hb).1

/-- A key is written to an entry of its own, or to one that no live key has. -/
theorem CamInv.write {e ctrl : ℕ} {k : CamKey} (bytes : Keytype) (he : e < camNum) (hkeyid : ctrl % 4 = k.keyid)
    (hgk : ctrl.testBit 6 = k.gk) (hdefault : k.addr = nullAddr → k.gk = true ∧ e = k.keyid)
    (hdynamic : k.addr ≠ nullAddr → 4 ≤ e) (hroom : ∀ l ∈ s.live, l.2 = e → l.1 = k)
    (hone : ∀ l ∈ s.live, l.1.addr = k.addr → l.1.keyid = k.keyid → l = (k,e)) :
    CamInv (writeCam (s.take e) e ctrl k bytes) := by
  have he32 : e < 32 := by rw [camNum_eq] at he; omega
  let t := writeCam (s.take e) e ctrl k bytes
  have hmem : ∀ l, l ∈ t.live ↔ l ∈ s.live ∧ l.1 ≠ k ∨ l = (k,e) := by
    intro l
    simp only [t, writeCam, CamState.take, List.mem_append, List.mem_filter, decide_eq_true_eq, List.mem_singleton]
  have hcache : ∀ id, id ≠ e → t.camCache id = s.camCache id := fun id hid => Function.update_of_ne hid _ _
  have hat : t.camCache e = ⟨ctrl,k.addr,bytes⟩ := Function.update_self ..
  have hbit : ∀ id, t.used.getLsbD id = (s.used.getLsbD id || decide (id = e)) :=
    fun id => getLsbD_secCamMapSet _ he32
  refine ⟨h.chkBmc,?_,?_,?_,?_⟩
  · intro l hl
    rcases (hmem l).mp hl with ⟨hl,hne⟩ | rfl
    · have hk := h.keys l hl
      have hle : l.2 ≠ e := fun heq => hne (hroom l hl heq)
      exact ⟨hk.entry,(congrArg SecCamEnt.mac (hcache _ hle)).trans hk.mac,
        (congrArg (fun c : SecCamEnt => c.ctrl % 4) (hcache _ hle)).trans hk.keyid,
        (congrArg (fun c : SecCamEnt => c.ctrl.testBit 6) (hcache _ hle)).trans hk.gk,hk.default,hk.dynamic⟩
    · exact ⟨he,congrArg SecCamEnt.mac hat,(congrArg (fun c : SecCamEnt => c.ctrl % 4) hat).trans hkeyid,
        (congrArg (fun c : SecCamEnt => c.ctrl.testBit 6) hat).trans hgk,hdefault,hdynamic⟩
  · intro id hid
    refine (iff_of_eq (congrArg (· = true) (hbit id))).trans ?_
    rw [Bool.or_eq_true, decide_eq_true_eq, h.used id hid]
    constructor
    · rintro (⟨l,hl,rfl⟩ | rfl)
      · by_cases hlk : l.1 = k
        · obtain rfl := hone l hl (by rw [hlk]) (by rw [hlk])
          exact ⟨(k,e),(hmem _).mpr (Or.inr rfl),rfl⟩
        · exact ⟨l,(hmem l).mpr (Or.inl ⟨hl,hlk⟩),rfl⟩
      · exact ⟨(k,id),(hmem _).mpr (Or.inr rfl),rfl⟩
    · rintro ⟨l,hl,rfl⟩
      rcases (hmem l).mp hl with ⟨hl,-⟩ | rfl
      · exact Or.inl ⟨l,hl,rfl⟩
      · exact Or.inr rfl
  · intro id hid
    have hid' := (hbit id).symm.trans hid
    rw [Bool.or_eq_false_iff, decide_eq_false_iff_not] at hid'
    exact (hcache id hid'.2).trans (h.unused id hid'.1)
  · intro a ha b hb haddr hid
    rcases (hmem a).mp ha with ⟨ha,hak⟩ | rfl
    · rcases (hmem b).mp hb with ⟨hb,hbk⟩ | rfl
      · exact h.one a ha b hb haddr hid
      · exact absurd (congrArg Prod.fst (hone a ha haddr hid)) hak
    · rcases (hmem b).mp hb with ⟨hb,hbk⟩ | rfl
      · exact absurd (congrArg Prod.fst (hone b hb haddr.symm hid.symm)) hbk
      · rfl

end Invariant

/-- How many entries have an address -/
def entriesOf (s : CamState) (addr : MacAddr) : ℕ :=
  ((Finset.range camNum).filter fun i => (s.camCache i).mac = addr).card

theorem entriesOf_le (s : CamState) (addr : MacAddr) : entriesOf s addr ≤ camNum :=
  (Finset.card_filter_le _ _).trans (Finset.card_range _).le

theorem entriesOf_clear {s : CamState} {addr : MacAddr} {e : ℕ} (he : e < camNum) (haddr : addr ≠ nullAddr)
    (hmac : (s.camCache e).mac = addr) : entriesOf (clearCamEntry s e) addr < entriesOf s addr := by
  apply Finset.card_lt_card
  rw [Finset.ssubset_iff_of_subset]
  · refine ⟨e,by simp [he, hmac],?_⟩
    have hzero : (clearCamEntry s e).camCache e = .zero := Function.update_self ..
    rw [Finset.mem_filter, hzero]
    exact fun hm => haddr hm.2.symm
  · intro i hi
    rw [Finset.mem_filter] at hi ⊢
    by_cases hie : i = e
    · rw [hie]
      exact ⟨Finset.mem_range.mpr he,hmac⟩
    · have hsame : (clearCamEntry s e).camCache i = s.camCache i := Function.update_of_ne hie _ _
      rw [hsame] at hi
      exact hi

theorem camidSearch_some {s : CamState} {addr : MacAddr} {kid : Option ℕ} {gk : Option Bool} {i : ℕ}
    (h : camidSearch s addr kid gk = some i) : i < camNum ∧ camCacheChk s i addr kid gk = true := by
  rw [camidSearch, List.find?_range_eq_some] at h
  exact ⟨List.mem_range.mp h.2.1,h.1⟩

/-- The clearing loop ends for every address but the null address. -/
theorem CamInv.clearKeysLoop {addr : MacAddr} (haddr : addr ≠ nullAddr) (gk : Option Bool) {fuel : ℕ} {s : CamState}
    (h : CamInv s) (hfuel : entriesOf s addr < fuel) : ∃ t, clearKeysLoop addr gk fuel s = some t ∧ CamInv t := by
  induction fuel generalizing s with
  | zero => omega
  | succ fuel ih =>
    rw [Rtl8188fu.clearKeysLoop]
    cases hs : camidSearch s addr none gk with
    | none => exact ⟨s,rfl,h⟩
    | some e =>
      obtain ⟨he,hchk⟩ := camidSearch_some hs
      have hless := entriesOf_clear he haddr (camCacheChk_iff.mp hchk).1
      exact ih (h.clear he) (by omega)

theorem CamInv.clearKeys {s : CamState} (h : CamInv s) {addr : MacAddr} (haddr : addr ≠ nullAddr) (gk : Option Bool) :
    ∃ t, clearKeys s addr gk = some t ∧ CamInv t :=
  h.clearKeysLoop haddr gk (Nat.lt_succ_of_le (entriesOf_le s addr))

/-- The entry that the dynamic allocation takes: that of a live key with the same address and
key id, or a free one when there is no such key. -/
theorem CamInv.taken {s : CamState} (h : CamInv s) {addr : MacAddr} (haddr : addr ≠ nullAddr) {kid i : ℕ}
    (hi : (match camidSearch s addr (some kid) none with
      | some i => some i
      | none => camidRoom s) = some i) :
    4 ≤ i ∧ i < camNum ∧ ((∃ l ∈ s.live, l.2 = i ∧ l.1.addr = addr ∧ l.1.keyid = kid) ∨
      secCamidIsUsed s i = false ∧ ∀ l ∈ s.live, l.1.addr = addr → l.1.keyid ≠ kid) := by
  cases hs : camidSearch s addr (some kid) none with
  | some e =>
    rw [hs] at hi
    cases hi
    obtain ⟨he,hchk⟩ := camidSearch_some hs
    obtain ⟨hmac,hkid,-⟩ := camCacheChk_iff.mp hchk
    obtain ⟨l,hl,rfl,hla⟩ := h.live_of_mac he haddr hmac
    have hk := h.keys l hl
    exact ⟨hk.dynamic (by rw [hla]; exact haddr),he,Or.inl ⟨l,hl,rfl,hla,hk.keyid.symm.trans (hkid _ rfl).symm⟩⟩
  | none =>
    rw [hs] at hi
    dsimp only at hi
    rw [camidRoom, List.find?_range_eq_some] at hi
    obtain ⟨hfree,hlt,-⟩ := hi
    simp only [Bool.and_eq_true, decide_eq_true_eq, Bool.not_eq_true'] at hfree
    refine ⟨hfree.1,List.mem_range.mp hlt,Or.inr ⟨hfree.2,?_⟩⟩
    intro l hl hla hid
    rw [camidSearch, List.find?_eq_none] at hs
    refine hs l.2 (List.mem_range.mpr (h.keys l hl).entry) ?_
    rw [← hla]
    exact h.chk hl _ (by rintro k ⟨⟩; exact hid.symm)

theorem groupCtrl (algorithm : EncryAlgo) {keyid : ℕ} (h : keyid ≤ 3) :
    (bit 15 ||| bit 6 ||| algorithm.code <<< 2 ||| keyid) % 4 = keyid ∧
      (bit 15 ||| bit 6 ||| algorithm.code <<< 2 ||| keyid).testBit 6 = true := by
  cases algorithm <;> interval_cases keyid <;> decide

theorem pairwiseCtrl (algorithm : EncryAlgo) :
    (bit 15 ||| algorithm.code <<< 2 ||| 0) % 4 = 0 ∧
      (bit 15 ||| algorithm.code <<< 2 ||| 0).testBit 6 = false := by
  cases algorithm <;> decide

/-- The commands that keep the live keys apart: a station's group keys have a key id of two bits, no
address is the null address, and no pairwise key is installed at an address with a group
key of id 0 or at a multicast address other than the broadcast address. -/
def CamSafe (s : CamState) : CamCmd → Prop
  | .setkey m keyid _ _ => m.apOrAdhoc = false → m.assocSuccess = true → keyid ≤ 3 ∧ m.bssid ≠ nullAddr
  | .setstakey m addr algorithm _ =>
    addr ≠ nullAddr ∧ (algorithm ≠ .noPrivacy → (rtwGetStainfo m.stapriv addr).isSome →
      staKey addr = addr ∧ ∀ l ∈ s.live, l.1 ≠ ⟨addr,0,true⟩)
  | .clearstakey addr => addr ≠ nullAddr
  | .invalidateAll => True

section Commands
variable {s : CamState} (h : CamInv s)
include h

/-- A live key with the same entry, or the same address and key id, is the key that is written. -/
theorem CamInv.rewrite {e ctrl : ℕ} {k : CamKey} (bytes : Keytype) (hkeyid : ctrl % 4 = k.keyid)
    (hgk : ctrl.testBit 6 = k.gk) {l : CamKey × ℕ} (hl : l ∈ s.live) (hle : l.2 = e) (hlk : l.1 = k) :
    CamInv (writeCam (s.take e) e ctrl k bytes) := by
  subst hle hlk
  have hk := h.keys l hl
  refine h.write bytes hk.entry hkeyid hgk hk.default hk.dynamic (fun b hb heq => h.key_eq hb hl heq) ?_
  intro b hb haddr hid
  have hentry := h.one b hb l hl haddr hid
  exact Prod.ext (h.key_eq hb hl hentry) hentry

theorem CamInv.alloc_used {l : CamKey × ℕ} (hl : l ∈ s.live) :
    s.take l.2 = s := by
  have hlt := (h.keys l hl).entry
  rw [camNum_eq] at hlt
  rw [CamState.take, secCamMapSet_of_set (by omega) ((h.used _ (by omega)).mpr ⟨l,hl,rfl⟩)]

omit h in
/-- `setkey_hdl` with an entry, without the capability that 8188F does not have -/
theorem setkeyHdl_eq (hbmc : s.chkBmc = false) {m : CamMode} {keyid e : ℕ} (algorithm : EncryAlgo) (key : Keytype)
    (hfor : camidFor m s none keyid = some e) :
    setkeyHdl m s keyid algorithm key =
      if secCamidIsUsed s e && !camidIsGk (s.take e) e then
        clearKeys (s.take e) (if 3 < e then m.bssid else nullAddr) (some true)
      else some (writeCam (s.take e) e (bit 15 ||| bit 6 ||| algorithm.code <<< 2 ||| keyid)
        ⟨if 3 < e then m.bssid else nullAddr,keyid,true⟩ key) := by
  have hnext : ∀ ctrl k, (writeCam (s.take e) e ctrl k key).chkBmc = false := fun _ _ => hbmc
  rw [setkeyHdl, rtwCamidAlloc, hfor]
  simp only [Option.map_some, hnext, Bool.false_and, Bool.false_eq_true, ↓reduceIte]

theorem CamInv.setDefaultKey {m : CamMode} {keyid : ℕ} (algorithm : EncryAlgo) (key : Keytype)
    (hmode : m.apOrAdhoc = true) : ∃ t, setkeyHdl m s keyid algorithm key = some t ∧ CamInv t := by
  by_cases hle : keyid ≤ 3
  · have hfor : camidFor m s none keyid = some keyid := by
      rw [camidFor, if_pos ⟨hmode,rfl⟩, if_neg (by omega)]
    have hctrl := groupCtrl algorithm hle
    have hdefault : ∀ l ∈ s.live, l.2 = keyid → l.1 = ⟨nullAddr,keyid,true⟩ := by
      intro l hl hentry
      have hk := h.keys l hl
      have hnull : l.1.addr = nullAddr := by
        by_contra hne
        have := hk.dynamic hne
        omega
      obtain ⟨hg,hid⟩ := hk.default hnull
      exact CamKey.ext hnull (hid.symm.trans hentry) hg
    have hgroup : ¬ (secCamidIsUsed s keyid && !camidIsGk (s.take keyid) keyid) = true := by
      cases hused : secCamidIsUsed s keyid with
      | false => simp
      | true =>
        rw [secCamidIsUsed, Bool.and_eq_true, decide_eq_true_eq] at hused
        obtain ⟨l,hl,hentry⟩ := (h.used keyid (by omega)).mp hused.2
        have hgk := h.isGk hl
        rw [hdefault l hl hentry] at hgk
        rw [← hentry, h.alloc_used hl, hgk]
        simp
    rw [setkeyHdl_eq h.chkBmc algorithm key hfor, if_neg hgroup, if_neg (by omega)]
    refine ⟨_,rfl,h.write key (by rw [camNum_eq]; omega) hctrl.1 hctrl.2 (fun _ => ⟨rfl,rfl⟩)
      (fun hne => absurd rfl hne) hdefault ?_⟩
    intro l hl haddr hid
    have hk := (h.keys l hl).default haddr
    exact Prod.ext (CamKey.ext haddr hid hk.1) (hk.2.trans hid)
  · have hfor : camidFor m s none keyid = none := by
      rw [camidFor, if_pos ⟨hmode,rfl⟩, if_pos (by omega)]
    exact ⟨s,by rw [setkeyHdl, rtwCamidAlloc, hfor]; rfl,h⟩

theorem CamInv.setkey (m : CamMode) (keyid : ℕ) (algorithm : EncryAlgo) (key : Keytype)
    (hsafe : CamSafe s (.setkey m keyid algorithm key)) :
    ∃ t, setkeyHdl m s keyid algorithm key = some t ∧ CamInv t := by
  cases hmode : m.apOrAdhoc with
  | true => exact h.setDefaultKey algorithm key hmode
  | false =>
    cases hfor : camidFor m s none keyid with
    | none => exact ⟨s,by rw [setkeyHdl, rtwCamidAlloc, hfor]; rfl,h⟩
    | some e =>
      rw [setkeyHdl_eq h.chkBmc algorithm key hfor]
      rw [camidFor, hmode, if_neg (by simp)] at hfor
      split at hfor
      · cases hfor
      · rename_i hassoc
        obtain ⟨hle,haddr⟩ := hsafe hmode (by simpa using hassoc)
        have hctrl := groupCtrl algorithm hle
        rw [h.chkBmc, if_neg (by simp)] at hfor
        obtain ⟨hlow,hlt,hcase⟩ := h.taken haddr hfor
        rw [if_pos (show 3 < e by omega)]
        rcases hcase with ⟨l,hl,rfl,hla,hid⟩ | ⟨hfree,hnone⟩
        · rw [h.isUsed hl, h.alloc_used hl, h.isGk hl]
          cases hgk : l.1.gk with
          | false => exact h.clearKeys haddr _
          | true =>
            have := h.rewrite key hctrl.1 hctrl.2 hl rfl (k := ⟨m.bssid,keyid,true⟩) (CamKey.ext hla hid hgk)
            rw [h.alloc_used hl] at this
            exact ⟨_,rfl,this⟩
        · rw [hfree]
          refine ⟨_,rfl,h.write key hlt hctrl.1 hctrl.2 (fun hnull => absurd hnull haddr) (fun _ => hlow) ?_ ?_⟩
          · rintro l hl rfl
            rw [h.isUsed hl] at hfree
            cases hfree
          · intro l hl hla hid
            exact absurd hid (hnone l hl hla)

theorem CamInv.setstakey (m : CamMode) (addr : MacAddr) (algorithm : EncryAlgo) (key : Keytype)
    (hsafe : CamSafe s (.setstakey m addr algorithm key)) :
    ∃ t, setStakeyHdl m s addr 0 algorithm key = some t ∧ CamInv t := by
  have hbmc := h.chkBmc
  obtain ⟨haddr,hgroup⟩ := hsafe
  rw [setStakeyHdl]
  split
  · exact h.clearKeys haddr _
  · rename_i halg
    split
    · exact ⟨s,rfl,h⟩
    · rename_i hsta
      obtain ⟨hkey,hnogroup⟩ := hgroup halg (by simpa [Option.isSome_iff_ne_none] using hsta)
      have hctrl := pairwiseCtrl algorithm
      rw [rtwCamidAlloc, hkey]
      cases hfor : camidFor m s (some addr) 0 with
      | none => exact ⟨s,rfl,h⟩
      | some e =>
        rw [camidFor, if_neg (by simp), if_neg (by simp), hbmc, if_neg (by simp)] at hfor
        simp only [Option.map_some]
        obtain ⟨hlow,hlt,⟨l,hl,rfl,hla,hid⟩ | ⟨hfree,hnone⟩⟩ := h.taken haddr hfor
        · have hgk : l.1.gk = false := by
            by_contra hg
            exact hnogroup l hl (CamKey.ext hla hid (by simpa using hg))
          rw [h.isUsed hl, h.alloc_used hl, h.isGk hl, hgk, if_neg (by simp)]
          have := h.rewrite key hctrl.1 hctrl.2 hl rfl (k := ⟨addr,0,false⟩) (CamKey.ext hla hid hgk)
          rw [h.alloc_used hl] at this
          exact ⟨_,rfl,this⟩
        · rw [hfree, if_neg (by simp)]
          refine ⟨_,rfl,h.write key hlt hctrl.1 hctrl.2 (fun hnull => absurd hnull haddr) (fun _ => hlow) ?_ ?_⟩
          · rintro l hl rfl
            rw [h.isUsed hl] at hfree
            cases hfree
          · intro l hl hla hid
            exact absurd hid (hnone l hl hla)

theorem CamInv.step (c : CamCmd) (hsafe : CamSafe s c) : ∃ t, camStep s c = some t ∧ CamInv t := by
  cases c with
  | setkey m keyid algorithm key => exact h.setkey m keyid algorithm key hsafe
  | setstakey m addr algorithm key => exact h.setstakey m addr algorithm key hsafe
  | clearstakey addr => exact h.clearKeys hsafe none
  | invalidateAll =>
    refine ⟨_,rfl,⟨h.chkBmc,nofun,?_,fun _ _ => rfl,nofun⟩⟩
    intro id _
    simp

end Commands

/-- What is asked of the CAM: no entry holds two live keys, a key with an address lies behind the
entries of the default keys and below the size of the CAM, a default key lies at its key id,
the bitmap has the entries of the live keys, and the search for a live key returns its entry. -/
structure CamSound (s : CamState) : Prop where
  distinct : ∀ a ∈ s.live, ∀ b ∈ s.live, a.2 = b.2 → a.1 = b.1
  dynamic : ∀ l ∈ s.live, l.1.addr ≠ nullAddr → 4 ≤ l.2 ∧ l.2 < camNum
  default : ∀ l ∈ s.live, l.1.addr = nullAddr → l.1.gk = true ∧ l.2 = l.1.keyid ∧ l.2 < 4
  bitmap : ∀ id < 32, s.used.getLsbD id = true ↔ ∃ l ∈ s.live, l.2 = id
  search : ∀ l ∈ s.live, camidSearch s l.1.addr (some l.1.keyid) (some l.1.gk) = some l.2

theorem CamInv.sound {s : CamState} (h : CamInv s) : CamSound s where
  distinct _ ha _ hb := h.key_eq ha hb
  dynamic l hl haddr := ⟨(h.keys l hl).dynamic haddr,(h.keys l hl).entry⟩
  default l hl haddr := by
    have hk := h.keys l hl
    obtain ⟨hgk,hid⟩ := hk.default haddr
    refine ⟨hgk,hid,?_⟩
    rw [hid, ← hk.keyid]
    exact Nat.mod_lt _ (by decide)
  bitmap := h.used
  search _ hl := h.search hl

theorem CamInv.init : CamInv CamState.init where
  chkBmc := rfl
  keys _ hl := absurd hl List.not_mem_nil
  used id _ := by simp [CamState.init]
  unused _ _ := rfl
  one _ ha := absurd ha List.not_mem_nil

/-- In every sequence of safe key commands each command ends, and the live keys never share
an entry. -/
theorem cam_entries_not_shared (cs : List CamCmd)
    (hsafe : ∀ past c s, past ++ [c] <+: cs → PartialRun.run camStep .init past = some s → CamSafe s c) :
    ∀ past, past <+: cs → ∃ s, PartialRun.run camStep .init past = some s ∧ CamSound s := by
  intro past hpast
  obtain ⟨s,hs,h⟩ := PartialRun.prefix_induction CamInv CamInv.init
    (fun past c t hpre ht h => h.step c (hsafe past c t hpre ht)) past hpast
  exact ⟨s,hs,h.sound⟩

/-- An access point, and a station that is associated with one -/
def apCamMode : CamMode := ⟨true,true,ownAddr,false,fun b => if b = apAddr then some ccmpPeer else none⟩
def staCamMode : CamMode := ⟨false,true,apAddr,false,fun b => if b = apAddr then some ccmpPeer else none⟩

theorem cam_entries_not_shared_ap :
    ∃ s, PartialRun.run camStep .init [.setkey apCamMode 1 .aes [],.setstakey apCamMode apAddr .aes []] = some s ∧
      CamSound s := by
  refine cam_entries_not_shared _ ?_ _ (List.prefix_refl _)
  intro past c s hpre hs
  rcases past with _ | ⟨a,_ | ⟨b,past⟩⟩
  · obtain rfl : c = .setkey apCamMode 1 .aes [] := by simpa using hpre
    exact nofun
  · obtain ⟨rfl,rfl⟩ : a = .setkey apCamMode 1 .aes [] ∧ c = .setstakey apCamMode apAddr .aes [] := by
      simpa using hpre
    have hlive := congrArg (Option.map CamState.live) hs
    have hkeys : [((⟨nullAddr,1,true⟩ : CamKey),1)] = s.live :=
      Option.some.inj ((by decide : some _ = Option.map CamState.live _).trans hlive)
    refine ⟨by decide,fun _ _ => ⟨by decide,?_⟩⟩
    rw [← hkeys]
    decide
  · simp at hpre

/-- A station has a group key with key id 0 when the pairwise key comes: the pairwise key is
written to an entry that was just freed, and the next group key gets the same entry. -/
theorem cam_entry_shared :
    ∃ s, PartialRun.run camStep .init [.setkey staCamMode 0 .aes [],.setstakey staCamMode apAddr .aes [],
        .setkey staCamMode 1 .aes []] = some s ∧
      s.live = [(⟨apAddr,0,false⟩,4),(⟨apAddr,1,true⟩,4)] ∧ ¬ CamSound s := by
  obtain ⟨s,hs⟩ :
      ∃ s, PartialRun.run camStep .init [.setkey staCamMode 0 .aes [],.setstakey staCamMode apAddr .aes [],
      .setkey staCamMode 1 .aes []] = some s := Option.isSome_iff_exists.mp (by decide)
  have hlive : [((⟨apAddr,0,false⟩ : CamKey),4),(⟨apAddr,1,true⟩,4)] = s.live :=
    Option.some.inj ((by decide : some _ = Option.map CamState.live _).trans (congrArg (Option.map CamState.live) hs))
  refine ⟨s,hs,hlive.symm,fun h => ?_⟩
  have := h.distinct (⟨apAddr,0,false⟩,4) (by rw [← hlive]; decide) (⟨apAddr,1,true⟩,4)
      (by rw [← hlive]; decide) rfl
  exact absurd this (by decide)

end Rtl8188fu
