import Rtl8188fu.Library.Run
import Rtl8188fu.Bridge.Nat25

/-! # The database of NAT2.5 bridging in every run

Every entry is in the chain of its address, which has no other, and the short cut points to an
entry or to nothing.
-/
namespace Rtl8188fu
open Bytes Chains

def brRun (c : BrEnv) (other : List UInt8 → List UInt8) (es : List BrEvent) : BrExt :=
  Run.run (brStep c other) .init es

/-- What holds of the database in every run -/
structure BrInv (s : BrExt) : Prop where
  chains : Ok networkHash s.key s.nethash
  below : ∀ p, Live s.nethash p → p < s.next
  live : ∀ p, s.scdb.entry = some p → Live s.nethash p
  timers : ∀ p, Live s.nethash p → (s.heap p).ageingTimer ≤ s.jiffies

section
variable {c : BrEnv} {s s' : BrExt} {p q : ℕ} {f : Nat25Entry → Nat25Entry} {k addr : List UInt8} {mac : MacAddr}

theorem BrInv.find_eq_some (h : BrInv s) : s.find k = some p ↔ Live s.nethash p ∧ s.key p = k :=
  Chains.find_eq_some h.chains

theorem BrInv.find_eq_none (h : BrInv s) : s.find k = none ↔ ∀ p, Live s.nethash p → s.key p ≠ k :=
  Chains.find_eq_none h.chains

theorem write_key (hf : ∀ e, (f e).networkAddr = e.networkAddr) : (s.write p f).key = s.key := by
  funext q
  change (Function.update s.heap p (f (s.heap p)) q).networkAddr = (s.heap q).networkAddr
  by_cases h : q = p
  · rw [h, Function.update_self, hf]
  · rw [Function.update_of_ne h]

theorem write_find (hf : ∀ e, (f e).networkAddr = e.networkAddr) : (s.write p f).find k = s.find k := by
  rw [BrExt.find, write_key hf]
  rfl

/-- An entry may be written when its key stays and its timer is not ahead. -/
theorem BrInv.write (h : BrInv s) (hf : ∀ e, (f e).networkAddr = e.networkAddr)
    (ht : ∀ e, e.ageingTimer ≤ s.jiffies → (f e).ageingTimer ≤ s.jiffies) : BrInv (s.write p f) where
  chains := by
    rw [write_key hf]
    exact h.chains
  below := h.below
  live := h.live
  timers q hq := by
    change (Function.update s.heap p (f (s.heap p)) q).ageingTimer ≤ s.jiffies
    by_cases hqp : q = p
    · rw [hqp, Function.update_self]
      exact ht _ (h.timers p (hqp ▸ hq))
    · rw [Function.update_of_ne hqp]
      exact h.timers q hq

theorem BrInv.insert (h : BrInv s) (hnone : s.find addr = none) : BrInv
    { s with
      heap := Function.update s.heap s.next ⟨1,mac,s.jiffies,addr⟩
      nethash := Function.update s.nethash (networkHash addr) (s.next :: s.nethash (networkHash addr))
      next := s.next + 1 } := by
  have hfresh : ¬ Live s.nethash s.next := fun hl => absurd (h.below _ hl) (lt_irrefl _)
  have hne : ∀ q, Live s.nethash q → q ≠ s.next := fun q hq => (h.below q hq).ne
  have hkey : ∀ q, Live s.nethash q → (Function.update s.heap s.next ⟨1,mac,s.jiffies,addr⟩ q).networkAddr =
      s.key q := by
    intro q hq
    rw [Function.update_of_ne (hne q hq)]
    rfl
  have hself : (Function.update s.heap s.next ⟨1,mac,s.jiffies,addr⟩ s.next).networkAddr = addr := by
    rw [Function.update_self]
  have hpush : Function.update s.nethash (networkHash addr) (s.next :: s.nethash (networkHash addr)) =
      Chains.push networkHash (fun q => (Function.update s.heap s.next ⟨1,mac,s.jiffies,addr⟩ q).networkAddr)
        s.nethash s.next := by
    rw [Chains.push, hself]
  refine ⟨?_,?_,?_,?_⟩
  · change Ok networkHash (fun q => (Function.update s.heap s.next ⟨1,mac,s.jiffies,addr⟩ q).networkAddr)
      (Function.update _ _ _)
    rw [hpush]
    apply (h.chains.congr hkey).push hfresh
    intro q hq hk
    rw [hkey q hq, hself] at hk
    exact h.find_eq_none.mp hnone q hq hk
  · intro q hq
    change q < s.next + 1
    rw [hpush, live_push] at hq
    rcases hq with rfl | hq
    · exact Nat.lt_succ_self _
    · exact (h.below q hq).trans (Nat.lt_succ_self _)
  · intro q hq
    rw [hpush, live_push]
    exact Or.inr (h.live q hq)
  · intro q hq
    change (Function.update s.heap s.next ⟨1,mac,s.jiffies,addr⟩ q).ageingTimer ≤ s.jiffies
    rw [hpush, live_push] at hq
    rcases hq with rfl | hq
    · rw [Function.update_self]
    · rw [Function.update_of_ne (hne q hq)]
      exact h.timers q hq

/-- What `__nat25_db_network_insert` does: the address has an entry with the MAC address, and all
others are as before. -/
theorem dbNetworkInsert_spec (h : BrInv s) (mac : MacAddr) (addr : List UInt8) :
    ∃ s', s.dbNetworkInsert mac addr = s' ∧ BrInv s' ∧ s'.scdb = s.scdb ∧ s'.jiffies = s.jiffies ∧
      (∀ q, Live s.nethash q → Live s'.nethash q ∧ s'.key q = s.key q) ∧
      (∃ p, s'.find addr = some p ∧ (s'.heap p).macAddr = mac ∧ (s'.heap p).ageingTimer = s.jiffies) ∧
      ∀ q, Live s.nethash q → s.key q ≠ addr → s'.heap q = s.heap q := by
  refine ⟨_,rfl,?_⟩
  rw [BrExt.dbNetworkInsert]
  cases hfind : s.find addr with
  | some p =>
    dsimp only
    have hkey : ∀ e : Nat25Entry, { e with macAddr := mac, ageingTimer := s.jiffies }.networkAddr = e.networkAddr :=
      fun _ => rfl
    have hinv : BrInv (s.write p fun db => { db with macAddr := mac, ageingTimer := s.jiffies }) :=
      h.write hkey fun _ _ => le_refl _
    have hp := h.find_eq_some.mp hfind
    refine ⟨hinv,rfl,rfl,?_,⟨p,?_,?_,?_⟩,?_⟩
    · intro q hq
      rw [write_key hkey]
      exact ⟨hq,rfl⟩
    · rw [write_find hkey]
      exact hfind
    · change (Function.update s.heap p _ p).macAddr = mac
      rw [Function.update_self]
    · change (Function.update s.heap p _ p).ageingTimer = s.jiffies
      rw [Function.update_self]
    · intro q hq hne
      change Function.update s.heap p _ q = s.heap q
      rw [Function.update_of_ne]
      rintro rfl
      exact hne hp.2
  | none =>
    dsimp only
    have hinv := @BrInv.insert s addr mac h hfind
    have hne : ∀ q, Live s.nethash q → q ≠ s.next := fun q hq => (h.below q hq).ne
    have hlive : ∀ q, q = s.next ∨ Live s.nethash q →
        Live (Function.update s.nethash (networkHash addr) (s.next :: s.nethash (networkHash addr))) q := by
      intro q hq
      exact (@live_push _ _ networkHash (fun _ => addr) s.nethash s.next q).mpr hq
    refine ⟨hinv,rfl,rfl,?_,⟨s.next,?_,?_,?_⟩,?_⟩
    · intro q hq
      refine ⟨hlive q (Or.inr hq),?_⟩
      change (Function.update s.heap s.next _ q).networkAddr = _
      rw [Function.update_of_ne (hne q hq)]
      rfl
    · apply hinv.find_eq_some.mpr
      refine ⟨hlive _ (Or.inl rfl),?_⟩
      change (Function.update s.heap s.next _ s.next).networkAddr = addr
      rw [Function.update_self]
    · change (Function.update s.heap s.next _ s.next).macAddr = mac
      rw [Function.update_self]
    · change (Function.update s.heap s.next _ s.next).ageingTimer = s.jiffies
      rw [Function.update_self]
    · intro q hq _
      change Function.update s.heap s.next _ q = s.heap q
      rw [Function.update_of_ne (hne q hq)]

/-- The step to `s'` only drops entries and the short cut, and refreshes timers. -/
structure Loses (s s' : BrExt) : Prop where
  inv : BrInv s'
  key : s'.key = s.key
  mac : ∀ p, (s'.heap p).macAddr = (s.heap p).macAddr
  timer : ∀ p, Live s.nethash p → (s.heap p).ageingTimer ≤ (s'.heap p).ageingTimer
  scdb : s'.scdb = s.scdb ∨ s'.scdb = .zero
  live : ∀ p, Live s'.nethash p → Live s.nethash p
  jiffies : s'.jiffies = s.jiffies

/-- The entries whose timer is not old stay. -/
def KeepsYoung (c : BrEnv) (s s' : BrExt) : Prop :=
  ∀ p, Live s.nethash p → s.jiffies - (s.heap p).ageingTimer < NAT25_AGEING_TIME * c.HZ → Live s'.nethash p

theorem Loses.refl (h : BrInv s) : Loses s s :=
  ⟨h,rfl,fun _ => rfl,fun _ _ => le_refl _,Or.inl rfl,fun _ hp => hp,rfl⟩

theorem Loses.trans {s'' : BrExt} (h : Loses s s') (h' : Loses s' s'')
    (ht : ∀ p, (s'.heap p).ageingTimer = (s''.heap p).ageingTimer) : Loses s s'' where
  inv := h'.inv
  key := h'.key.trans h.key
  mac p := (h'.mac p).trans (h.mac p)
  timer p hp := (h.timer p hp).trans (ht p).le
  scdb := by
    rcases h'.scdb with hs | hs
    · rw [hs]
      exact h.scdb
    · exact Or.inr hs
  live p hp := h.live p (h'.live p hp)
  jiffies := h'.jiffies.trans h.jiffies

/-- A young timer has not expired, also where the clock wraps. -/
theorem not_expired (c : BrEnv) {jiffies timer : ℕ} (hle : timer ≤ jiffies)
    (hyoung : jiffies - timer < NAT25_AGEING_TIME * c.HZ) : hasExpired c jiffies timer = false := by
  have hfits := c.fits
  obtain ⟨n,hn⟩ : ∃ n, c.bitsPerLong = n + 1 := ⟨c.bitsPerLong - 1,by have := c.pos; omega⟩
  rw [hn, Nat.add_sub_cancel] at hfits
  rw [hasExpired, hn, Nat.add_sub_cancel]
  generalize NAT25_AGEING_TIME * c.HZ = age at hyoung hfits
  have hpow : (2 : ℤ) ^ (n + 1) = 2 * ((2 ^ n : ℕ) : ℤ) := by
    push_cast
    ring
  have hpow' : (2 : ℤ) ^ n = ((2 ^ n : ℕ) : ℤ) := by push_cast; rfl
  rw [hpow, hpow']
  generalize 2 ^ n = half at hfits
  have hmod :
      ((jiffies : ℤ) - (age : ℕ) - timer) % (2 * (half : ℤ)) = (jiffies : ℤ) - age - timer + 2 * half := by
    rw [← Int.add_emod_right]
    apply Int.emod_eq_of_lt
    · omega
    · omega
  rw [hmod]
  apply decide_eq_false
  omega

/-! ## Expiry and cleanup -/

/-- What the loop of `nat25_db_expire` over a chain does -/
structure ExpireRun (c : BrEnv) (s : BrExt) (chain : List ℕ) (r : BrExt × List ℕ) : Prop where
  sub : r.2.Sublist chain
  nethash : r.1.nethash = s.nethash
  next : r.1.next = s.next
  jiffies : r.1.jiffies = s.jiffies
  entry : ∀ p, (r.1.heap p).networkAddr = (s.heap p).networkAddr ∧ (r.1.heap p).macAddr = (s.heap p).macAddr ∧
    (r.1.heap p).ageingTimer = (s.heap p).ageingTimer
  scdb : r.1.scdb = s.scdb ∨ r.1.scdb = .zero
  dropped : ∀ p ∈ chain, p ∉ r.2 → hasExpired c s.jiffies (s.heap p).ageingTimer = true ∧
    r.1.scdb.entry ≠ some p

theorem forget_scdb (s : BrExt) (f : ℕ) : (s.forget f).scdb = s.scdb ∨ (s.forget f).scdb = .zero := by
  rw [BrExt.forget]
  split
  · exact Or.inr rfl
  · exact Or.inl rfl

theorem forget_entry (s : BrExt) (f : ℕ) : (s.forget f).scdb.entry ≠ some f := by
  rw [BrExt.forget]
  split
  · exact fun h => by cases h
  · assumption

theorem forget_same (s : BrExt) (f : ℕ) : (s.forget f).nethash = s.nethash ∧ (s.forget f).heap = s.heap ∧
    (s.forget f).next = s.next ∧ (s.forget f).jiffies = s.jiffies := by
  rw [BrExt.forget]
  split
  · exact ⟨rfl,rfl,rfl,rfl⟩
  · exact ⟨rfl,rfl,rfl,rfl⟩

theorem scdb_lost {x y z : Scdb} (h : y = x ∨ y = .zero) (h' : z = y ∨ z = .zero) : z = x ∨ z = .zero := by
  rcases h' with rfl | h'
  · exact h
  · exact Or.inr h'

theorem write_same (hf : ∀ e, (f e).networkAddr = e.networkAddr ∧ (f e).macAddr = e.macAddr ∧
      (f e).ageingTimer = e.ageingTimer)
    (p q : ℕ) : ((s.write p f).heap q).networkAddr = (s.heap q).networkAddr ∧
      ((s.write p f).heap q).macAddr = (s.heap q).macAddr ∧
      ((s.write p f).heap q).ageingTimer = (s.heap q).ageingTimer := by
  change (Function.update s.heap p (f (s.heap p)) q).networkAddr = _ ∧
    (Function.update s.heap p (f (s.heap p)) q).macAddr = _ ∧
    (Function.update s.heap p (f (s.heap p)) q).ageingTimer = _
  by_cases h : q = p
  · rw [h, Function.update_self]
    exact hf _
  · rw [Function.update_of_ne h]
    exact ⟨rfl,rfl,rfl⟩

theorem expireLoop_run (c : BrEnv) (chain : List ℕ) (s : BrExt) : ExpireRun c s chain (s.expireLoop c chain) := by
  induction chain generalizing s with
  | nil =>
    exact ⟨List.Sublist.refl _,rfl,rfl,rfl,fun _ => ⟨rfl,rfl,rfl⟩,Or.inl rfl,fun _ h =>
      absurd h List.not_mem_nil⟩
  | cons f g ih =>
    have hkeep : ∀ s₁ : BrExt, s₁.nethash = s.nethash → s₁.next = s.next → s₁.jiffies = s.jiffies →
        s₁.scdb = s.scdb →
        (∀ p, (s₁.heap p).networkAddr = (s.heap p).networkAddr ∧ (s₁.heap p).macAddr = (s.heap p).macAddr ∧
          (s₁.heap p).ageingTimer = (s.heap p).ageingTimer) →
        ExpireRun c s (f :: g) ((s₁.expireLoop c g).1,f :: (s₁.expireLoop c g).2) := by
      intro s₁ h1 h2 h3 h4 h5
      have hr := ih s₁
      refine ⟨hr.sub.cons_cons f,hr.nethash.trans h1,hr.next.trans h2,hr.jiffies.trans h3,?_,?_,?_⟩
      · intro p
        obtain ⟨a1,a2,a3⟩ := hr.entry p
        obtain ⟨b1,b2,b3⟩ := h5 p
        exact ⟨a1.trans b1,a2.trans b2,a3.trans b3⟩
      · rw [← h4]
        exact hr.scdb
      · intro p hp hnot
        rw [List.mem_cons, not_or] at hnot
        rcases List.mem_cons.mp hp with hpf | hp
        · exact absurd hpf hnot.1
        · rw [← h3, ← (h5 p).2.2]
          exact hr.dropped p hp hnot.2
    rw [BrExt.expireLoop]
    split
    · rename_i hexp
      dsimp only
      have hw := @write_same s (fun db => { db with useCount := (db.useCount + 2 ^ 32 - 1) % 2 ^ 32 })
        (fun _ => ⟨rfl,rfl,rfl⟩) f
      split
      · generalize hs₁ :
          s.write f (fun db => { db with useCount := (db.useCount + 2 ^ 32 - 1) % 2 ^ 32 }) = s₁ at hw
        have hsame : s₁.nethash = s.nethash ∧ s₁.next = s.next ∧ s₁.jiffies = s.jiffies ∧
            s₁.scdb = s.scdb := by
          subst hs₁
          exact ⟨rfl,rfl,rfl,rfl⟩
        obtain ⟨h1,h2,h3,h4⟩ := hsame
        obtain ⟨g1,g2,g3,g4⟩ := forget_same s₁ f
        have hr := ih (s₁.forget f)
        have hscdb := forget_scdb s₁ f
        rw [h4] at hscdb
        refine ⟨hr.sub.cons f,hr.nethash.trans (g1.trans h1),hr.next.trans (g3.trans h2),hr.jiffies.trans
          (g4.trans h3),?_, scdb_lost hscdb hr.scdb,?_⟩
        · intro p
          obtain ⟨a1,a2,a3⟩ := hr.entry p
          rw [g2] at a1 a2 a3
          obtain ⟨b1,b2,b3⟩ := hw p
          exact ⟨a1.trans b1,a2.trans b2,a3.trans b3⟩
        · intro p hp hnot
          rcases List.mem_cons.mp hp with rfl | hp
          · refine ⟨hexp,?_⟩
            rcases hr.scdb with hs | hs
            · rw [hs]
              exact forget_entry s₁ p
            · rw [hs]
              exact fun h => by cases h
          · have hd := hr.dropped p hp hnot
            rw [g4, h3, g2, (hw p).2.2] at hd
            exact hd
      · exact hkeep _ rfl rfl rfl rfl hw
    · exact hkeep s rfl rfl rfl rfl fun _ => ⟨rfl,rfl,rfl⟩

theorem live_update {chains : ℕ → List ℕ} {i : ℕ} {kept : List ℕ} (hsub : kept.Sublist (chains i)) (j : ℕ) :
    (Function.update chains i kept j).Sublist (chains j) := by
  by_cases h : j = i
  · rw [h, Function.update_self]
    exact hsub
  · rw [Function.update_of_ne h]

/-- Some entries of a chain are unlinked, and the short cut does not point to them. -/
theorem BrInv.unlink {s₁ : BrExt} {i : ℕ} {kept : List ℕ} (h : BrInv s) (hsub : kept.Sublist (s.nethash i))
    (hnethash : s₁.nethash = s.nethash) (hnext : s₁.next = s.next) (hjiffies : s₁.jiffies = s.jiffies)
    (hentry : ∀ p, (s₁.heap p).networkAddr = (s.heap p).networkAddr ∧
      (s₁.heap p).macAddr = (s.heap p).macAddr ∧
      (s₁.heap p).ageingTimer = (s.heap p).ageingTimer)
    (hscdb : s₁.scdb = s.scdb ∨ s₁.scdb = .zero)
    (hdropped : ∀ p ∈ s.nethash i, p ∉ kept → s₁.scdb.entry ≠ some p) :
    Loses s { s₁ with nethash := Function.update s₁.nethash i kept } := by
  have hkey : s₁.key = s.key := funext fun p => (hentry p).1
  have hsub' := @live_update s.nethash i kept hsub
  have hlive : ∀ p, Live (Function.update s.nethash i kept) p → Live s.nethash p := fun p hp => hp.of_sublist hsub'
  refine ⟨⟨?_,?_,?_,?_⟩,hkey,fun p => (hentry p).2.1,fun p _ => (hentry p).2.2.ge,hscdb,?_,hjiffies⟩
  · change Ok networkHash s₁.key (Function.update s₁.nethash i kept)
    rw [hkey, hnethash]
    exact h.chains.sublist hsub'
  · intro p hp
    change Live (Function.update s₁.nethash i kept) p at hp
    rw [hnethash] at hp
    change p < s₁.next
    rw [hnext]
    exact h.below p (hlive p hp)
  · intro p hp
    change Live (Function.update s₁.nethash i kept) p
    rw [hnethash]
    have hold : s.scdb.entry = some p := by
      rcases hscdb with hs | hs
      · rw [← hs]
        exact hp
      · change s₁.scdb.entry = some p at hp
        rw [hs] at hp
        cases hp
    obtain ⟨j,hj⟩ := h.live p hold
    refine ⟨j,?_⟩
    by_cases hji : j = i
    · rw [hji, Function.update_self]
      by_contra hnot
      exact hdropped p (hji ▸ hj) hnot hp
    · rw [Function.update_of_ne hji]
      exact hj
  · intro p hp
    change Live (Function.update s₁.nethash i kept) p at hp
    rw [hnethash] at hp
    change (s₁.heap p).ageingTimer ≤ s₁.jiffies
    rw [(hentry p).2.2, hjiffies]
    exact h.timers p (hlive p hp)
  · intro p hp
    change Live (Function.update s₁.nethash i kept) p at hp
    rw [hnethash] at hp
    exact hlive p hp

theorem expireBucket_loses (c : BrEnv) (h : BrInv s) (i : ℕ) : Loses s (s.expireBucket c i) ∧
    KeepsYoung c s (s.expireBucket c i) ∧
    ∀ p, ((s.expireBucket c i).heap p).ageingTimer = (s.heap p).ageingTimer := by
  have hr := expireLoop_run c (s.nethash i) s
  refine ⟨h.unlink hr.sub hr.nethash hr.next hr.jiffies hr.entry hr.scdb
    (fun p hp hnot => (hr.dropped p hp hnot).2),?_, fun p => (hr.entry p).2.2⟩
  rintro p ⟨j,hj⟩ hyoung
  change Live (Function.update (s.expireLoop c (s.nethash i)).1.nethash i (s.expireLoop c (s.nethash i)).2) p
  rw [hr.nethash]
  refine ⟨j,?_⟩
  by_cases hji : j = i
  · rw [hji, Function.update_self]
    by_contra hnot
    have hexp := (hr.dropped p (hji ▸ hj) hnot).1
    rw [not_expired c (h.timers p ⟨j,hj⟩) hyoung] at hexp
    cases hexp
  · rw [Function.update_of_ne hji]
    exact hj

theorem dbExpire_loses (c : BrEnv) (h : BrInv s) : Loses s (s.dbExpire c) ∧ KeepsYoung c s (s.dbExpire c) := by
  suffices hall : ∀ is : List ℕ, ∀ s, BrInv s → Loses s (is.foldl (BrExt.expireBucket c) s) ∧
      KeepsYoung c s (is.foldl (BrExt.expireBucket c) s) ∧
      ∀ p, ((is.foldl (BrExt.expireBucket c) s).heap p).ageingTimer = (s.heap p).ageingTimer from
    ⟨(hall _ s h).1,(hall _ s h).2.1⟩
  intro is
  induction is with
  | nil => exact fun s h => ⟨.refl h,fun _ hp _ => hp,fun _ => rfl⟩
  | cons i is ih =>
    intro s h
    obtain ⟨h1,y1,t1⟩ := expireBucket_loses c h i
    obtain ⟨h2,y2,t2⟩ := ih _ h1.inv
    rw [List.foldl_cons]
    refine ⟨h1.trans h2 fun p => (t2 p).symm,?_,fun p => (t2 p).trans (t1 p)⟩
    intro p hp hyoung
    apply y2 p (y1 p hp hyoung)
    rw [h1.jiffies, t1 p]
    exact hyoung

theorem cleanupLoop_run (chain : List ℕ) (s : BrExt) : (s.cleanupLoop chain).nethash = s.nethash ∧
    (s.cleanupLoop chain).heap = s.heap ∧ (s.cleanupLoop chain).next = s.next ∧
    (s.cleanupLoop chain).jiffies = s.jiffies ∧
    ((s.cleanupLoop chain).scdb = s.scdb ∨ (s.cleanupLoop chain).scdb = .zero) ∧
    ∀ p ∈ chain, (s.cleanupLoop chain).scdb.entry ≠ some p := by
  induction chain generalizing s with
  | nil => exact ⟨rfl,rfl,rfl,rfl,Or.inl rfl,fun _ h => absurd h List.not_mem_nil⟩
  | cons f g ih =>
    obtain ⟨h1,h2,h3,h4,h5,h6⟩ := ih (s.forget f)
    obtain ⟨g1,g2,g3,g4⟩ := forget_same s f
    refine ⟨h1.trans g1,h2.trans g2,h3.trans g3,h4.trans g4,scdb_lost (forget_scdb s f) h5,?_⟩
    intro p hp
    rcases List.mem_cons.mp hp with rfl | hp
    · change ((s.forget p).cleanupLoop g).scdb.entry ≠ some p
      rcases h5 with h5 | h5
      · rw [h5]
        exact forget_entry s p
      · rw [h5]
        exact fun h => by cases h
    · exact h6 p hp

theorem cleanupBucket_loses (h : BrInv s) (i : ℕ) : Loses s (s.cleanupBucket i) ∧
    ∀ p, ((s.cleanupBucket i).heap p).ageingTimer = (s.heap p).ageingTimer := by
  obtain ⟨h1,h2,h3,h4,h5,h6⟩ := cleanupLoop_run (s.nethash i) s
  refine ⟨h.unlink (List.nil_sublist _) h1 h3 h4 (fun p => ?_) h5 fun p hp _ => h6 p hp,fun p => ?_⟩
  · rw [h2]
    exact ⟨rfl,rfl,rfl⟩
  · change ((s.cleanupLoop (s.nethash i)).heap p).ageingTimer = _
    rw [h2]

theorem dbCleanup_loses (h : BrInv s) : Loses s s.dbCleanup := by
  suffices hall : ∀ is : List ℕ, ∀ s, BrInv s → Loses s (is.foldl BrExt.cleanupBucket s) ∧
      ∀ p, ((is.foldl BrExt.cleanupBucket s).heap p).ageingTimer = (s.heap p).ageingTimer from (hall _ s h).1
  intro is
  induction is with
  | nil => exact fun s h => ⟨.refl h,fun _ => rfl⟩
  | cons i is ih =>
    intro s h
    obtain ⟨h1,t1⟩ := cleanupBucket_loses h i
    obtain ⟨h2,t2⟩ := ih _ h1.inv
    rw [List.foldl_cons]
    exact ⟨h1.trans h2 fun p => (t2 p).symm,fun p => (t2 p).trans (t1 p)⟩

/-! ## The steps keep the database well formed -/

theorem touch_loses (h : BrInv s) (p : ℕ) : Loses s (s.touch p) := by
  have hkey : ∀ e : Nat25Entry, { e with ageingTimer := s.jiffies }.networkAddr = e.networkAddr := fun _ => rfl
  refine ⟨h.write hkey fun _ _ => le_refl _,write_key hkey,?_,?_,Or.inl rfl,fun _ hp => hp,rfl⟩
  · intro q
    change (Function.update s.heap p _ q).macAddr = _
    by_cases hq : q = p
    · rw [hq, Function.update_self]
    · rw [Function.update_of_ne hq]
  · intro q hq
    change _ ≤ (Function.update s.heap p _ q).ageingTimer
    by_cases hqp : q = p
    · rw [hqp, Function.update_self]
      exact h.timers p (hqp ▸ hq)
    · rw [Function.update_of_ne hqp]

theorem BrInv.withScdb (h : BrInv s) (sc : Scdb) (hsc : ∀ p, sc.entry = some p → Live s.nethash p) :
    BrInv { s with scdb := sc } :=
  ⟨h.chains,h.below,hsc,h.timers⟩

theorem scdbTx_inv (h : BrInv s) (u : List UInt8) : BrInv (scdbTx s u).1 := by
  rw [scdbTx]
  split
  · split
    · split
      · rename_i p hfind
        have hp := (h.find_eq_some.mp hfind).1
        have hsc : BrInv { s with scdb := ⟨srcMac u,ipSaddr u,some p⟩ } := h.withScdb _ fun q hq => by
          cases hq; exact hp
        exact (touch_loses hsc p).inv
      · exact h.withScdb _ fun q hq => by cases hq
    · split
      · rename_i p _
        exact (touch_loses h p).inv
      · exact h.withScdb _ fun q hq => by cases hq
  · exact h

theorem dbInsert_inv (c : BrEnv) (h : BrInv s) (u : List UInt8) : BrInv (dbInsert c s u) := by
  have hins : ∀ a, BrInv (s.dbNetworkInsert (srcMac u) a) := by
    intro a
    obtain ⟨s',hs',hinv,-⟩ := dbNetworkInsert_spec h (srcMac u) a
    rw [hs']
    exact hinv
  rw [dbInsert]
  split
  · split
    · exact h
    · split
      · exact h
      · exact hins _
  · split
    · exact h
    · exact hins _

/-- The short cut before the VLAN tag does what the one behind it does. -/
theorem brClientTx_eq (c : BrEnv) (s : BrExt) (d : List UInt8) :
    brClientTx c s d =
      if (scdbTx s (untag d)).2 then dbInsert c (scdbTx s (untag d)).1 (untag d) else (scdbTx s (untag d)).1 := by
  rw [brClientTx]
  split
  · rename_i hfast
    obtain ⟨-,-,htag,hip,hmac,hentry⟩ := hfast
    obtain ⟨p,hp⟩ := Option.isSome_iff_exists.mp hentry
    have huntag : untag d = d := by rw [untag, if_neg htag]
    have hscdb : scdbTx s d = (s.touch p,false) := by
      rw [scdbTx, if_pos hip, if_neg (not_not_intro hmac), hp]
    rw [huntag, hscdb, BrExt.touchScdb, hp]
    rfl
  · rfl

theorem brClientTx_inv (c : BrEnv) (h : BrInv s) (d : List UInt8) : BrInv (brClientTx c s d) := by
  rw [brClientTx_eq]
  split
  · exact dbInsert_inv c (scdbTx_inv h _) _
  · exact scdbTx_inv h _

theorem count_loses (h : BrInv s) (p : ℕ) (n : ℕ → ℕ) :
    Loses s (s.write p fun db => { db with useCount := n db.useCount }) := by
  have hsame := @write_same s (fun db => { db with useCount := n db.useCount }) (fun _ => ⟨rfl,rfl,rfl⟩) p
  exact ⟨h.write (fun _ => rfl) fun _ ht => ht,funext fun q => (hsame q).1,fun q => (hsame q).2.1,fun q _ =>
    (hsame q).2.2.ge, Or.inl rfl,fun _ hq => hq,rfl⟩

theorem lookup_state (c : BrEnv) (h : BrInv s) (u networkAddr : List UInt8) :
    ∀ r, networkLookupAndReplace c s u networkAddr = some r → Loses s r.1 ∧ r.1.nethash = s.nethash := by
  intro r hr
  rw [networkLookupAndReplace] at hr
  obtain ⟨p,hp,rfl⟩ := Option.map_eq_some_iff.mp hr
  split
  · exact ⟨.refl h,rfl⟩
  · exact ⟨count_loses h p fun n => (n + 1) % 2 ^ 32,rfl⟩

theorem nat25HandleFrame_loses (c : BrEnv) (other : List UInt8 → List UInt8) (h : BrInv s) (d : List UInt8) :
    Loses s (nat25HandleFrame c other s d).1 ∧ (nat25HandleFrame c other s d).1.nethash = s.nethash := by
  have hsame : Loses s s ∧ s.nethash = s.nethash := ⟨.refl h,rfl⟩
  rw [nat25HandleFrame]
  split
  · exact hsame
  · dsimp only
    split
    · exact hsame
    · rw [dbLookup]
      split
      · split
        · exact hsame
        · split
          · rename_i r hr
            exact lookup_state c h _ _ r hr
          · exact hsame
      · split
        · split
          · exact hsame
          · dsimp only
            cases hr : networkLookupAndReplace c s (untag d) (generateIpv4NetworkAddr (arpTarget (untag d))) with
            | none => exact hsame
            | some r => exact lookup_state c h _ _ r hr
        · exact hsame

theorem brStep_inv (c : BrEnv) (other : List UInt8 → List UInt8) (h : BrInv s) (e : BrEvent) :
    BrInv (brStep c other s e) := by
  cases e with
  | tx f => exact brClientTx_inv c h f.data
  | rx d => exact (nat25HandleFrame_loses c other h d).1.inv
  | expire => exact (dbExpire_loses c h).1.inv
  | cleanup => exact (dbCleanup_loses h).inv
  | wait n => exact ⟨h.chains,h.below,h.live,fun p hp => (h.timers p hp).trans (Nat.le_add_right _ _)⟩

theorem brInv_init : BrInv .init := by
  have hnone : ∀ p : ℕ, ¬ Live BrExt.init.nethash p := by
    rintro p ⟨i,hi⟩
    cases hi
  exact ⟨Ok.empty _ _,fun p hp => absurd hp (hnone p),fun p hp => (by cases hp),fun p hp => absurd hp (hnone p)⟩

theorem brRun_inv (c : BrEnv) (other : List UInt8 → List UInt8) (es : List BrEvent) : BrInv (brRun c other es) :=
  Run.run_induction (fun _ => True) (fun _ s => BrInv s) brInv_init
    (fun _ _ e _ h => brStep_inv c other h e) es fun _ _ => trivial

end

end Rtl8188fu
