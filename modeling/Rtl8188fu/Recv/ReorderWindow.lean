import Rtl8188fu.Library.SerialOrder
import Rtl8188fu.Recv.Reorder

/-! # The pending queue seen from the start of its window

Positions are measured as offsets from a base `b`, the value of `indicate_seq` before
the call. Insertion and the indication loop then only compare integers.
-/
namespace Rtl8188fu
open SerialOrder

/-- How far the sequence number of `f` is ahead of `b` -/
def off (b : ℕ) (f : RecvFrame) : ℤ := offset 4096 b f.attrib.seqNum

theorem off_nonneg (b : ℕ) (f : RecvFrame) : 0 ≤ off b f := offset_nonneg (by norm_num) _ _

theorem snLess_iff_ahead (a b : ℕ) : snLess a b = true ↔ Ahead 4096 a b := by
  simp only [snLess, decide_eq_true_eq, Ahead, offset]
  omega

/-- Within half a turn from the base the driver's comparison compares offsets. -/
theorem snLess_iff_offset_lt {b x y : ℕ} (hx : offset 4096 b y - offset 4096 b x < 2048)
    (hy : offset 4096 b x - offset 4096 b y < 2048) :
    snLess x y = true ↔ offset 4096 b x < offset 4096 b y := by
  simp only [snLess, decide_eq_true_eq, offset] at *
  omega

/-- What every frame in the queue satisfies on its own -/
def Reorderable (f : RecvFrame) : Prop :=
  f.attrib.seqNum < 4096 ∧ f.attrib.qos = true ∧ f.attrib.amsdu = false

/-- A queue sorted by offset from `b`, within half a turn -/
structure Queued (b : ℕ) (q : List RecvFrame) : Prop where
  frames : ∀ f ∈ q, Reorderable f
  sorted : q.Pairwise (fun f g => off b f < off b g)
  near : ∀ f ∈ q, off b f < 2048

theorem Queued.tail {b : ℕ} {f : RecvFrame} {q : List RecvFrame} (h : Queued b (f :: q)) : Queued b q :=
  ⟨fun g hg => h.frames g (List.mem_cons_of_mem _ hg),(List.pairwise_cons.mp h.sorted).2,
    fun g hg => h.near g (List.mem_cons_of_mem _ hg)⟩

theorem Queued.head_lt {b : ℕ} {f g : RecvFrame} {q : List RecvFrame} (h : Queued b (f :: q))
    (hg : g ∈ q) : off b f < off b g := (List.pairwise_cons.mp h.sorted).1 g hg

/-- A queue sorted by offset is sorted in the driver's own comparison. -/
theorem Queued.pairwise_snLess {b : ℕ} {q : List RecvFrame} (h : Queued b q) :
    q.Pairwise (fun f g => snLess f.attrib.seqNum g.attrib.seqNum = true) := by
  refine h.sorted.imp_of_mem ?_
  intro f g hf hg hfg
  have h0 := off_nonneg b f
  have h1 := h.near g hg
  exact (snLess_iff_offset_lt (b := b) (by unfold off at *; omega) (by unfold off at *; omega)).mpr hfg

/-- The sorted insertion: the queue gains exactly the new frame and stays sorted. -/
theorem insertPending_queued {b : ℕ} {f : RecvFrame} {q r : List RecvFrame} (hq : Queued b q)
    (hf : Reorderable f) (hn : off b f < 2048) (h : insertPending f q = some r) :
    r.Perm (f :: q) ∧ Queued b r := by
  induction q generalizing r with
  | nil =>
    cases h
    refine ⟨List.Perm.refl _,⟨?_,List.pairwise_singleton _ _,?_⟩⟩
    · intro g hg
      rwa [List.mem_singleton.mp hg]
    · intro g hg
      rwa [List.mem_singleton.mp hg]
  | cons g q ih =>
    have hg := hq.near g List.mem_cons_self
    have hg0 := off_nonneg b g
    have hf0 := off_nonneg b f
    have hlt : snLess g.attrib.seqNum f.attrib.seqNum = true ↔ off b g < off b f :=
      snLess_iff_offset_lt (by unfold off at *; omega) (by unfold off at *; omega)
    unfold insertPending at h
    by_cases hless : snLess g.attrib.seqNum f.attrib.seqNum = true
    · rw [if_pos hless] at h
      obtain ⟨t,ht,rfl⟩ := Option.map_eq_some_iff.mp h
      obtain ⟨hperm,ht⟩ := ih hq.tail ht
      refine ⟨(hperm.cons g).trans (List.Perm.swap f g q),⟨?_,?_,?_⟩⟩
      · intro x hx
        rcases List.mem_cons.mp hx with rfl | hx
        · exact hq.frames _ List.mem_cons_self
        · exact ht.frames x hx
      · refine List.pairwise_cons.mpr ⟨?_,ht.sorted⟩
        intro x hx
        rcases List.mem_cons.mp (hperm.mem_iff.mp hx) with rfl | hx
        · exact hlt.mp hless
        · exact hq.head_lt hx
      · intro x hx
        rcases List.mem_cons.mp hx with rfl | hx
        · exact hg
        · exact ht.near x hx
    · rw [if_neg hless] at h
      by_cases heq : snEqual g.attrib.seqNum f.attrib.seqNum = true
      · rw [if_pos heq] at h
        cases h
      · rw [if_neg heq] at h
        cases h
        have hne : off b g ≠ off b f := by
          intro hoff
          have hseq := offset_inj (by norm_num) hoff
            ⟨by omega,by exact_mod_cast (hq.frames g List.mem_cons_self).1⟩ ⟨by omega,by exact_mod_cast hf.1⟩
          exact heq (by simpa [snEqual] using Nat.cast_injective hseq)
        have hfg : off b f < off b g := by
          have := mt hlt.mpr hless
          omega
        refine ⟨List.Perm.refl _,⟨?_,?_,?_⟩⟩
        · intro x hx
          rcases List.mem_cons.mp hx with rfl | hx
          · exact hf
          · exact hq.frames x hx
        · refine List.pairwise_cons.mpr ⟨?_,hq.sorted⟩
          intro x hx
          rcases List.mem_cons.mp hx with rfl | hx
          · exact hfg
          · exact hfg.trans (hq.head_lt hx)
        · intro x hx
          rcases List.mem_cons.mp hx with rfl | hx
          · exact hn
          · exact hq.near x hx

/-- What one run of the indication loop does, measured from `b`: the queue is cut in two,
`indicate_seq` ends strictly between the parts, and it moved only past the last frame
that left. -/
structure Indicated (b start : ℕ) (q : List RecvFrame) (r : ℕ × List RecvFrame × List RecvFrame) : Prop where
  split : q = r.2.1 ++ r.2.2
  lt : r.1 < 4096
  mono : offset 4096 b start ≤ offset 4096 b r.1
  out : ∀ f ∈ r.2.1, off b f < offset 4096 b r.1
  kept : ∀ f ∈ r.2.2, offset 4096 b r.1 < off b f
  moved : offset 4096 b r.1 = offset 4096 b start ∨
    ∃ f, r.2.1.getLast? = some f ∧ offset 4096 b r.1 = off b f + 1

theorem Indicated.mem_out {b start : ℕ} {q : List RecvFrame} {r : ℕ × List RecvFrame × List RecvFrame}
    (h : Indicated b start q r) {f : RecvFrame} (hf : f ∈ r.2.1) : f ∈ q := by
  rw [h.split]
  exact List.mem_append_left _ hf

theorem Indicated.mem_kept {b start : ℕ} {q : List RecvFrame} {r : ℕ × List RecvFrame × List RecvFrame}
    (h : Indicated b start q r) {f : RecvFrame} (hf : f ∈ r.2.2) : f ∈ q := by
  rw [h.split]
  exact List.mem_append_right _ hf

theorem Indicated.cons {b start next : ℕ} {f : RecvFrame} {q : List RecvFrame}
    {r : ℕ × List RecvFrame × List RecvFrame} (hr : Indicated b next q r)
    (hnext : offset 4096 b start ≤ offset 4096 b next) (hf : off b f < offset 4096 b r.1)
    (hmoved : r.2.1 = [] → offset 4096 b r.1 = offset 4096 b start ∨ offset 4096 b r.1 = off b f + 1)
    (hstay : r.2.1 ≠ [] → offset 4096 b r.1 = offset 4096 b next →
      offset 4096 b r.1 = offset 4096 b start) :
    Indicated b start (f :: q) (r.1, f :: r.2.1, r.2.2) := by
  obtain ⟨i,out,rest⟩ := r
  refine ⟨by rw [List.cons_append, ← hr.split],hr.lt,hnext.trans hr.mono,?_,hr.kept,?_⟩
  · intro g hg
    rcases List.mem_cons.mp hg with rfl | hg
    · exact hf
    · exact hr.out g hg
  · cases out with
    | nil =>
      rcases hmoved rfl with h | h
      · exact Or.inl h
      · exact Or.inr ⟨f,rfl,h⟩
    | cons g t =>
      rcases hr.moved with h | ⟨l,hl,h⟩
      · exact Or.inl (hstay (List.cons_ne_nil _ _) h)
      · exact Or.inr ⟨l,by rw [List.getLast?_cons, hl]; rfl,h⟩

theorem indicateLoop_indicated {b start : ℕ} {q : List RecvFrame} (hq : Queued b q)
    (hstart : start < 4096) (hnear : ∀ f ∈ q, offset 4096 b start - off b f < 2048) :
    Indicated b start q (indicateLoop start q) := by
  induction q generalizing start with
  | nil =>
    exact ⟨rfl,hstart,le_rfl,by simp [indicateLoop],by simp [indicateLoop],Or.inl rfl⟩
  | cons f q ih =>
    have hf := hq.near f List.mem_cons_self
    have hfs := hnear f List.mem_cons_self
    have hlt : snLess start f.attrib.seqNum = true ↔ offset 4096 b start < off b f := by
      have hf0 := off_nonneg b f
      have hs0 := offset_nonneg (m := 4096) (by norm_num) b start
      exact snLess_iff_offset_lt (by unfold off at *; omega) (by unfold off at *; omega)
    unfold indicateLoop
    by_cases hless : snLess start f.attrib.seqNum = true
    · have hcut := hlt.mp hless
      simp only [hless, Bool.not_true, Bool.false_eq_true, ↓reduceIte]
      refine ⟨rfl,hstart,le_rfl,by simp,?_,Or.inl rfl⟩
      intro g hg
      rcases List.mem_cons.mp hg with rfl | hg
      · exact hcut
      · exact hcut.trans (hq.head_lt hg)
    · have hpop : off b f ≤ offset 4096 b start := not_lt.mp (mt hlt.mpr hless)
      simp only [Bool.not_eq_true] at hless
      simp only [hless, Bool.not_false, ↓reduceIte]
      by_cases heq : snEqual start f.attrib.seqNum = true
      · -- the awaited frame: the window moves on by one
        have hseq : start = f.attrib.seqNum := by simpa [snEqual] using heq
        have hoff : offset 4096 b start = off b f := by rw [hseq, off]
        have hnext : offset 4096 b ((start + 1) % 4096 : ℕ) = off b f + 1 := by
          unfold off offset at *
          omega
        simp only [heq, ↓reduceIte]
        have hafter : ∀ g ∈ q, offset 4096 b ((start + 1) % 4096 : ℕ) - off b g < 2048 := by
          intro g hg
          have := hq.head_lt hg
          omega
        have hr := ih hq.tail (Nat.mod_lt _ (by norm_num)) hafter
        have hmono := hr.mono
        refine hr.cons (by omega) (by omega) ?_ ?_
        · intro hout
          rcases hr.moved with h | ⟨g,hg,_⟩
          · right
            omega
          · rw [hout] at hg
            cases hg
        · -- the frames that follow are at least at the new position, so the window moved again
          intro hout h
          obtain ⟨g,hg⟩ := List.exists_mem_of_ne_nil _ hout
          have h1 := hr.out g hg
          have h2 := hq.head_lt (hr.mem_out hg)
          omega
      · -- an older frame: indicated without moving the window
        simp only [heq, Bool.false_eq_true, ↓reduceIte]
        have hr := ih hq.tail hstart (fun g hg => hnear g (List.mem_cons_of_mem _ hg))
        have hne : off b f ≠ offset 4096 b start := by
          intro hoff
          have hseq := offset_inj (by norm_num) hoff
            ⟨by omega,by exact_mod_cast (hq.frames f List.mem_cons_self).1⟩ ⟨by omega,by exact_mod_cast hstart⟩
          exact heq (by simpa [snEqual] using (Nat.cast_injective hseq).symm)
        have hmono := hr.mono
        refine hr.cons le_rfl (by omega) ?_ (fun _ h => h)
        intro hout
        rcases hr.moved with h | ⟨g,hg,_⟩
        · exact Or.inl h
        · rw [hout] at hg
          cases hg

/-- The queue lies in the window of `w` numbers from `b`, the awaited one excluded. -/
structure Window (b w : ℕ) (q : List RecvFrame) : Prop extends Queued b q where
  base_lt : b < 4096
  inside : ∀ f ∈ q, 0 < off b f ∧ off b f < w

/-- What can be indicated next comes within half a turn after the last number indicated. -/
def Follows (last : Option ℕ) (b : ℕ) (q : List RecvFrame) : Prop :=
  ∀ p ∈ last, 0 < offset 4096 p b ∧ (q = [] → offset 4096 p b = 1) ∧
    ∀ h ∈ q.head?, offset 4096 p b + off b h ≤ 2048

theorem Queued.head_le {b : ℕ} {q : List RecvFrame} (hq : Queued b q) {h f : RecvFrame}
    (hh : h ∈ q.head?) (hf : f ∈ q) : off b h ≤ off b f := by
  cases q with
  | nil => cases hf
  | cons g q =>
    cases hh
    rcases List.mem_cons.mp hf with rfl | hf
    · exact le_rfl
    · exact (hq.head_lt hf).le

theorem Queued.le_last {b : ℕ} {q : List RecvFrame} (hq : Queued b q) {l f : RecvFrame}
    (hl : l ∈ q.getLast?) (hf : f ∈ q) : off b f ≤ off b l := by
  obtain ⟨t,rfl⟩ := List.getLast?_eq_some_iff.mp hl
  rcases List.mem_append.mp hf with hf | hf
  · exact ((List.pairwise_append.mp hq.sorted).2.2 f hf l (by simp)).le
  · rw [List.mem_singleton.mp hf]

/-- Measured from its own end the loop leaves a window behind. -/
theorem Indicated.window {b start w : ℕ} {q : List RecvFrame} {r : ℕ × List RecvFrame × List RecvFrame}
    (hr : Indicated b start q r) (hq : Queued b q) (hspan : ∀ f ∈ q, off b f < offset 4096 b start + w) :
    Window r.1 w r.2.2 := by
  have hrest : r.2.2.Sublist q := by
    rw [hr.split]
    exact List.sublist_append_right _ _
  have hoff : ∀ f ∈ r.2.2, off r.1 f = off b f - offset 4096 b r.1 :=
    fun f hf => offset_of_le (by norm_num) (hr.kept f hf).le
  refine ⟨⟨fun f hf => hq.frames f (hr.mem_kept hf),?_,?_⟩,hr.lt,?_⟩
  · refine (hq.sorted.sublist hrest).imp_of_mem ?_
    intro f g hf hg hfg
    rw [hoff f hf, hoff g hg]
    omega
  · intro f hf
    have h0 := hq.near f (hr.mem_kept hf)
    have h1 := offset_nonneg (m := 4096) (by norm_num) b r.1
    rw [hoff f hf]
    omega
  · intro f hf
    have h0 := hr.kept f hf
    have h1 := hspan f (hr.mem_kept hf)
    have h2 := hr.mono
    rw [hoff f hf]
    omega

def seqNums (q : List RecvFrame) : List ℕ := q.map (·.attrib.seqNum)

/-- The frames that leave are in order, they continue what was indicated before, and what
stays can in turn continue them. -/
theorem Indicated.follows {b start : ℕ} {q : List RecvFrame} {r : ℕ × List RecvFrame × List RecvFrame}
    {last : Option ℕ} (hr : Indicated b start q r) (hq : Queued b q) (hne : q ≠ [])
    (hlast : ∀ l ∈ q.getLast?, offset 4096 b start ≤ off b l + 1) (hF : Follows last b q) :
    (∀ p ∈ last, ∀ y ∈ (seqNums r.2.1).head?, snLess p y = true) ∧
      Follows ((seqNums r.2.1).getLast?.or last) r.1 r.2.2 := by
  obtain ⟨i,out,rest⟩ := r
  have hsplit : q = out ++ rest := hr.split
  have hoff : ∀ f ∈ rest, off i f = off b f - offset 4096 b i :=
    fun f hf => offset_of_le (by norm_num) (hr.kept f hf).le
  have hmoved := hr.moved
  dsimp only at hmoved ⊢
  rcases List.eq_nil_or_concat out with rfl | ⟨t,l,rfl⟩
  · refine ⟨by simp [seqNums],?_⟩
    obtain rfl : q = rest := hsplit
    have hi : offset 4096 b i = offset 4096 b start := by
      rcases hmoved with h | ⟨f,hf,_⟩
      · exact h
      · cases hf
    intro p hp
    obtain ⟨hpos,_,hhead⟩ := hF p (by simpa [seqNums] using hp)
    obtain ⟨h,hh⟩ := Option.isSome_iff_exists.mp (List.isSome_head?.mpr hne)
    have hmem := List.mem_of_mem_head? hh
    have hkept : offset 4096 b i < off b h := hr.kept h hmem
    have hsum := hhead h hh
    have h0 := offset_nonneg (m := 4096) (by norm_num) b i
    have hpi : offset 4096 p i = offset 4096 p b + offset 4096 b i := offset_trans (by norm_num) (by omega)
    refine ⟨by omega,fun h => absurd h hne,?_⟩
    intro g hg
    obtain rfl : h = g := Option.some.inj (hh.symm.trans hg)
    rw [hoff h hmem, hpi]
    omega
  · have hl : l ∈ q := hr.mem_out (by simp)
    have hlout : off b l < offset 4096 b i := hr.out l (by simp)
    have hl0 := off_nonneg b l
    have hli : offset 4096 l.attrib.seqNum i = offset 4096 b i - off b l :=
      offset_of_le (by norm_num) hlout.le
    constructor
    · intro p hp y hy
      obtain ⟨hpos,_,hhead⟩ := hF p hp
      obtain ⟨g,hg,rfl⟩ : ∃ g, (t.concat l).head? = some g ∧ g.attrib.seqNum = y := by
        simpa [seqNums, List.head?_map] using hy
      have hgq : q.head? = some g := by
        rw [hsplit, List.head?_append, hg]
        rfl
      have hsum := hhead g hgq
      have hg0 := off_nonneg b g
      have hpg : offset 4096 p g.attrib.seqNum = offset 4096 p b + off b g :=
        offset_trans (by norm_num) (by unfold off at *; omega)
      exact (snLess_iff_ahead _ _).mpr ⟨by omega,by omega⟩
    · intro p hp
      obtain rfl : l.attrib.seqNum = p := by simpa [seqNums] using hp
      refine ⟨by omega,?_,?_⟩
      · intro hrest
        obtain rfl : rest = [] := hrest
        have h1 := hlast l (by rw [hsplit]; simp)
        rcases hmoved with h | ⟨f,hf,h⟩
        · omega
        · obtain rfl : l = f := by simpa using hf
          omega
      · intro h hh
        have hmem := List.mem_of_mem_head? hh
        have h1 := hq.near h (hr.mem_kept hmem)
        have h2 := hoff h hmem
        omega

end Rtl8188fu
