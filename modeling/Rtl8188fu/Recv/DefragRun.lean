import Rtl8188fu.Library.Run
import Rtl8188fu.Recv.Defrag

/-! # What reassembly returns

A reassembled frame keeps header and IV of its first fragment; its body grows by the body
of every further fragment as long as each fragment holds what its header announces and the
first buffer has room. The queue of a station only ever holds fragments that arrived there.
-/
namespace Rtl8188fu
open Bytes

/-- The length of header, IV and ICV -/
def overhead (f : RecvFrame) : ℕ := f.attrib.hdrlen + f.attrib.ivLen + f.attrib.icvLen

def bodyLen (f : RecvFrame) : ℕ := f.buf.len - overhead f

/-- The payload of a fragment: header, IV and trailing ICV removed -/
def bodyOf (f : RecvFrame) : List UInt8 :=
  slice f.buf.mem (f.buf.data + (f.attrib.hdrlen + f.attrib.ivLen)) (bodyLen f)

/-- A data frame whose header was parsed -/
def Parsed (f : RecvFrame) : Prop := 24 ≤ f.attrib.hdrlen ∧ f.attrib.hdrlen + f.attrib.ivLen < 256

/-- The frame is as long as its header, IV and ICV ask for. -/
def Sized (f : RecvFrame) : Prop := overhead f ≤ f.buf.len

/-- Behind the body of `h` there is room for the bodies of the fragments of `q`, each with its
own ICV when it is the last. -/
def Room (h : RecvFrame) (q : List RecvFrame) : Prop :=
  ∀ p x r, q = p ++ x :: r → h.buf.data + (h.attrib.hdrlen + h.attrib.ivLen) + bodyLen h +
    (p.map bodyLen).sum + bodyLen x + x.attrib.icvLen ≤ h.buf.mem.length

/-- The fragments up to the first whose number is out of sequence -/
def alignedFrom (n : ℕ) : List RecvFrame → List RecvFrame
  | [] => []
  | f :: q => if n = f.attrib.fragNum then f :: alignedFrom (n + 1) q else []

theorem length_bodyOf (f : RecvFrame) : (bodyOf f).length = bodyLen f := by
  have h0 := f.buf.tail_le_end
  have h1 := f.buf.data_le_tail
  rw [bodyOf, length_slice]
  simp only [overhead, RxBuf.len, bodyLen]
  omega

theorem fragmentBody_of_sized {f : RecvFrame} (hp : Parsed f) (hs : Sized f) :
    (fragmentBody f).mem = f.buf.mem ∧ (fragmentBody f).len = bodyLen f + f.attrib.icvLen ∧
      (fragmentBody f).data = f.buf.data + (f.attrib.hdrlen + f.attrib.ivLen) := by
  have h1 := f.buf.data_le_tail
  simp only [Sized, overhead, RxBuf.len] at hs
  unfold fragmentBody
  rw [Nat.mod_eq_of_lt hp.2]
  obtain ⟨hm,hd,ht⟩ := RxBuf.pull_getD (b := f.buf) (show f.buf.data + (f.attrib.hdrlen + f.attrib.ivLen) ≤
    f.buf.tail by omega)
  refine ⟨hm,?_,hd⟩
  rw [RxBuf.len, hd, ht, bodyLen, overhead, RxBuf.len]
  omega

/-- What one turn of the loop does to a frame that has room for the next fragment -/
structure Appended (h x g : RecvFrame) : Prop where
  id : g.id = h.id
  attrib : g.attrib = { h.attrib with icvLen := x.attrib.icvLen }
  capacity : g.buf.mem.length = h.buf.mem.length
  data : g.buf.data = h.buf.data
  sized : Sized g
  bodyLen : bodyLen g = Rtl8188fu.bodyLen h + Rtl8188fu.bodyLen x
  body : bodyOf g = bodyOf h ++ bodyOf x

theorem appendFragment_appended {h x : RecvFrame} (hh : Sized h) (hp : Parsed x) (hx : Sized x)
    (hroom : h.buf.data + (h.attrib.hdrlen + h.attrib.ivLen) + bodyLen h + bodyLen x +
      x.attrib.icvLen ≤ h.buf.mem.length) :
    Appended h x (appendFragment h x).1 ∧
      (appendFragment h x).2.1 + (appendFragment h x).2.2 ≤ h.buf.mem.length := by
  obtain ⟨hsm,hsl,hsd⟩ := fragmentBody_of_sized hp hx
  have hbody : slice (fragmentBody x).payload 0 (bodyLen x) = bodyOf x := by
    rw [RxBuf.payload, slice_slice (by omega), hsm, hsd]
    rfl
  have hlen := (fragmentBody x).length_payload
  have h1 := h.buf.data_le_tail
  have hsize := hh
  simp only [Sized, overhead, RxBuf.len] at hsize
  have hbl : bodyLen h = h.buf.tail - h.buf.data - overhead h := rfl
  simp only [overhead] at hbl
  obtain ⟨htm,htd,htt⟩ := RxBuf.pullTail_getD (b := h.buf)
      (show h.buf.data + h.attrib.icvLen ≤ h.buf.tail by omega)
  have htail : h.buf.tail - h.attrib.icvLen =
      h.buf.data + (h.attrib.hdrlen + h.attrib.ivLen) + bodyLen h := by omega
  set dst := (h.buf.pullTail h.attrib.icvLen).getD h.buf with hdst
  set src := fragmentBody x with hsrc
  have hfit : dst.tail + src.len ≤ dst.mem.length := by
    rw [htt, htm, hsl]
    omega
  obtain ⟨hgm,hgd,hgt⟩ := RxBuf.put_getD (b := dst.write dst.tail src.payload)
    (by simpa using hfit)
  have hg : (appendFragment h x).1 =
      { h with
        buf := ((dst.write dst.tail src.payload).put src.len).getD (dst.write dst.tail src.payload)
        attrib := { h.attrib with icvLen := x.attrib.icvLen } } := rfl
  have hbuf : (appendFragment h x).1.buf =
      ((dst.write dst.tail src.payload).put src.len).getD (dst.write dst.tail src.payload) := rfl
  have hrange : (appendFragment h x).2 = (dst.tail,src.len) := rfl
  rw [RxBuf.write_mem] at hgm
  rw [RxBuf.write_data] at hgd
  rw [RxBuf.write_tail] at hgt
  have hglen : bodyLen (appendFragment h x).1 = bodyLen h + bodyLen x := by
    rw [hg, bodyLen, overhead, RxBuf.len]
    dsimp only
    rw [hgd, hgt, htd, htt, hsl]
    omega
  refine ⟨⟨rfl,rfl,?_,?_,?_,hglen,?_⟩,?_⟩
  · rw [hbuf, hgm, length_patch, htm]
  · rw [hbuf, hgd, htd]
  · change h.attrib.hdrlen + h.attrib.ivLen + x.attrib.icvLen ≤ RxBuf.tail _ - RxBuf.data _
    rw [hbuf, hgd, hgt, htd, htt, hsl]
    omega
  · rw [bodyOf, hglen, hbuf, hgm, hgd, htd, htt, htm]
    change slice _ (h.buf.data + (h.attrib.hdrlen + h.attrib.ivLen)) _ = _
    rw [← slice_append_slice, htail, slice_patch_below le_rfl,
      slice_patch_prefix (by omega) (by omega), hbody]
    rfl
  · rw [hrange]
    rw [htm] at hfit
    exact hfit

theorem Room.appended {h x g : RecvFrame} {q : List RecvFrame} (hroom : Room h (x :: q))
    (hg : Appended h x g) : Room g q := by
  intro p y r hq
  have := hroom (x :: p) y r (by rw [hq]; rfl)
  have hhdr : g.attrib.hdrlen + g.attrib.ivLen = h.attrib.hdrlen + h.attrib.ivLen := by rw [hg.attrib]
  rw [hg.data, hhdr, hg.capacity, hg.bodyLen]
  simp only [List.map_cons, List.sum_cons] at this
  omega

/-- The ICV length that a frame ends up with after the fragments of `q` -/
def lastIcv (h : RecvFrame) (q : List RecvFrame) : ℕ := ((h :: q).getLast (by simp)).attrib.icvLen

theorem lastIcv_cons {h x g : RecvFrame} (q : List RecvFrame) (hg : g.attrib.icvLen = x.attrib.icvLen) :
    lastIcv g q = lastIcv h (x :: q) := by
  cases q with
  | nil => exact hg
  | cons y q => simp [lastIcv]

/-- The loop copies inside the buffer, and a frame it returns is made of aligned fragments only. -/
theorem defragLoop_spec {q : List RecvFrame} {n : ℕ} {h : RecvFrame} (hh : Sized h)
    (hp : ∀ x ∈ q, Parsed x) (hs : ∀ x ∈ alignedFrom n q, Sized x) (hroom : Room h (alignedFrom n q)) :
    (∀ c ∈ (defragLoop n h q).2, c.1 + c.2 ≤ h.buf.mem.length) ∧
      ∀ g, (defragLoop n h q).1 = some g → alignedFrom n q = q ∧ g.id = h.id ∧
        g.attrib = { h.attrib with icvLen := lastIcv h q } ∧ Sized g ∧
        bodyOf g = bodyOf h ++ (q.map bodyOf).flatten := by
  induction q generalizing n h with
  | nil =>
    refine ⟨by simp [defragLoop],?_⟩
    rintro g ⟨⟩
    exact ⟨rfl,rfl,rfl,hh,by simp⟩
  | cons x q ih =>
    unfold defragLoop
    by_cases hn : n = x.attrib.fragNum
    · simp only [alignedFrom, if_pos hn] at hs hroom ⊢
      have hx : Sized x := hs x List.mem_cons_self
      obtain ⟨hA,hcopy⟩ := appendFragment_appended hh (hp x List.mem_cons_self) hx
        (by have := hroom [] x _ rfl; simpa using this)
      obtain ⟨hcopies,hout⟩ := ih hA.sized (fun y hy => hp y (List.mem_cons_of_mem _ hy))
        (fun y hy => hs y (List.mem_cons_of_mem _ hy)) (hroom.appended hA)
      simp only [ne_eq, hn, not_true_eq_false, ↓reduceIte]
      rw [hn] at hcopies hout
      constructor
      · intro c hc
        rcases List.mem_cons.mp hc with rfl | hc
        · exact hcopy
        · exact hA.capacity ▸ hcopies c hc
      · intro g hg
        obtain ⟨halign,hid,hattr,hsized,hbody⟩ := hout g hg
        have hlast : lastIcv (appendFragment h x).1 q = lastIcv h (x :: q) :=
          lastIcv_cons q (by rw [hA.attrib])
        refine ⟨by rw [halign],hid.trans hA.id,?_,hsized,?_⟩
        · rw [hattr, hA.attrib, hlast]
        · rw [hbody, hA.body, List.append_assoc]
          rfl
    · simp only [ne_eq, hn, not_false_eq_true, ↓reduceIte]
      exact ⟨by simp,by simp⟩

theorem alignedFrom_eq_self {n : ℕ} {fs : List RecvFrame} (h : alignedFrom n fs = fs) :
    fs.map (·.attrib.fragNum) = List.range' n fs.length := by
  induction fs generalizing n with
  | nil => rfl
  | cons f fs ih =>
    unfold alignedFrom at h
    split_ifs at h with hn
    rw [List.map_cons, List.length_cons, List.range'_succ, ih (List.cons.inj h).2, hn]

/-- What a step must meet for the reassembly to come out right: when a last fragment arrives,
the fragments whose numbers line up are complete and fit into the first one's buffer, and if
all of the queue lines up it is of the same MSDU. -/
def DefragSafe (q : List RecvFrame) (f : RecvFrame) : Prop :=
  f.attrib.mfrag = false → f.attrib.fragNum ≠ 0 →
    (∀ x ∈ alignedFrom 0 (q ++ [f]), Sized x) ∧
      (∀ h r, alignedFrom 0 (q ++ [f]) = h :: r → Room h r) ∧
      (alignedFrom 0 (q ++ [f]) = q ++ [f] → ∀ x ∈ q, x.attrib.seqNum = f.attrib.seqNum)

/-- All fragments of one MSDU, in order -/
structure OneMsdu (fs : List RecvFrame) : Prop where
  numbers : fs.map (·.attrib.fragNum) = List.range fs.length
  moreFragments : fs.map (·.attrib.mfrag) = List.replicate (fs.length - 1) true ++ [false]
  sequence : ∀ x ∈ fs, ∀ y ∈ fs, x.attrib.seqNum = y.attrib.seqNum

/-- The Michael MIC at the end of the last fragment, checked and removed for TKIP -/
def michaelLen (f : RecvFrame) : ℕ := if f.attrib.privacy ∧ f.attrib.encrypt = .tkip then 8 else 0

/-- The right outcome of `recvframe_chk_defrag` for `f` on the queue `q`, with `received` all
that arrived up to and including `f` -/
structure DefragOk (received q : List RecvFrame) (f : RecvFrame) (r : ChkDefrag) : Prop where
  inside : ∀ c ∈ r.copies, ∃ h ∈ q.head?, c.1 + c.2 ≤ h.buf.mem.length
  returned : ∀ g ∈ r.out, ∃ fs : List RecvFrame, fs.Sublist received ∧ OneMsdu fs ∧
    bodyOf g = (fs.map bodyOf).flatten.take ((fs.map bodyOf).flatten.length - michaelLen g)
  dropped : f.attrib.mfrag = false → f.attrib.fragNum ≠ 0 → r.out = none →
    r.queue = some [] ∧ ∀ x ∈ q ++ [f], x.id ∈ r.freed.map (·.id)

theorem recvframeDefrag_spec {q : List RecvFrame} {f : RecvFrame} (hp : ∀ x ∈ q ++ [f], Parsed x)
    (hsafe : DefragSafe q f) (hm : f.attrib.mfrag = false) (hf : f.attrib.fragNum ≠ 0) :
    (∀ c ∈ (recvframeDefrag (q ++ [f])).copies, ∃ h ∈ q.head?, c.1 + c.2 ≤ h.buf.mem.length) ∧
      ((recvframeDefrag (q ++ [f])).out = none → (recvframeDefrag (q ++ [f])).freed = q ++ [f]) ∧
      ∀ g, (recvframeDefrag (q ++ [f])).out = some g →
        alignedFrom 0 (q ++ [f]) = q ++ [f] ∧ Sized g ∧
        bodyOf g = ((q ++ [f]).map bodyOf).flatten ∧
        (∃ h r, q = h :: r ∧ g.id = h.id ∧ g.attrib = { h.attrib with icvLen := lastIcv h (r ++ [f]) } ∧
          (recvframeDefrag (q ++ [f])).freed = r ++ [f]) := by
  obtain ⟨hsized,hroom,_⟩ := hsafe hm hf
  cases q with
  | nil => simp [recvframeDefrag, hf]
  | cons h r =>
    by_cases hzero : h.attrib.fragNum = 0
    · have halign : alignedFrom 0 (h :: r ++ [f]) = h :: alignedFrom 1 (r ++ [f]) := by
        rw [List.cons_append, alignedFrom, if_pos hzero.symm]
      rw [halign] at hsized hroom
      obtain ⟨hcopies,hout⟩ := defragLoop_spec (q := r ++ [f]) (n := 1) (hsized h List.mem_cons_self)
        (fun x hx => hp x (List.mem_cons_of_mem _ hx)) (fun x hx => hsized x (List.mem_cons_of_mem _ hx))
        (hroom h _ rfl)
      rw [List.cons_append, recvframeDefrag]
      simp only [hzero, ne_eq, not_true_eq_false, ↓reduceIte]
      cases hloop : (defragLoop 1 h (r ++ [f])).1 with
      | none =>
        refine ⟨fun c hc => ⟨h,rfl,hcopies c hc⟩,fun _ => rfl,?_⟩
        rintro g ⟨⟩
      | some g =>
        refine ⟨fun c hc => ⟨h,rfl,hcopies c hc⟩,?_,?_⟩
        · rintro ⟨⟩
        · rintro _ ⟨⟩
          obtain ⟨hal,hid,hattr,hg,hbody⟩ := hout g hloop
          refine ⟨?_,hg,?_,h,r,rfl,hid,hattr,rfl⟩
          · rw [← List.cons_append, halign, hal]
            rfl
          · rw [hbody]
            rfl
    · simp [recvframeDefrag, hzero]

/-- The MIC check returns the frame as it was, or shortened by the MIC. -/
theorem recvframeChkmic_body {rxmickey : RecvFrame → Option (Option Keytype)} {f : RecvFrame}
    (hp : Parsed f) (hpriv : f.attrib.privacy = true) (hok : (recvframeChkmic rxmickey f).1 ≠ .fail) :
    (recvframeChkmic rxmickey f).2.id = f.id ∧
      (recvframeChkmic rxmickey f).2.attrib = f.attrib ∧
      bodyOf (recvframeChkmic rxmickey f).2 = (bodyOf f).take (bodyLen f - michaelLen f) := by
  by_cases htkip : f.attrib.encrypt = .tkip
  · have hdrop : (recvframeChkmic rxmickey f).2 = { f with buf := (f.buf.pullTail 8).getD f.buf } := by
      unfold recvframeChkmic at hok ⊢
      simp only [htkip, ↓reduceIte] at hok ⊢
      split at hok
      · rfl
      · exact absurd rfl hok
      · rfl
    rw [hdrop]
    refine ⟨rfl,rfl,?_⟩
    have h0 := hp.1
    have h1 := f.buf.data_le_tail
    rw [michaelLen, if_pos ⟨hpriv,htkip⟩]
    by_cases h8 : f.buf.data + 8 ≤ f.buf.tail
    · obtain ⟨hm,hd,ht⟩ := RxBuf.pullTail_getD h8
      simp only [bodyOf, bodyLen, overhead, RxBuf.len, hm, hd, ht, slice, List.take_take]
      congr 1
      omega
    · -- too short for a MIC, hence too short for a body
      have hnil : bodyLen f = 0 := by
        simp only [bodyLen, overhead, RxBuf.len]
        omega
      have hsame : (f.buf.pullTail 8).getD f.buf = f.buf := by rw [RxBuf.pullTail, dif_neg h8]; rfl
      rw [hsame, hnil]
      simp [bodyOf, hnil]
  · have hsame : (recvframeChkmic rxmickey f).2 = f := by simp [recvframeChkmic, htkip]
    rw [hsame, michaelLen, if_neg (fun h => htkip h.2)]
    refine ⟨rfl,rfl,?_⟩
    simp [bodyOf, slice]

/-- The queue of one station after the frames `past` -/
def defragQueue (chkmic : RecvFrame → Status × RecvFrame) (past : List RecvFrame) : List RecvFrame :=
  Run.run (fun q f => ((recvframeChkDefrag chkmic (some q) f).queue).getD []) [] past

theorem recvframeChkDefrag_queue (chkmic : RecvFrame → Status × RecvFrame) (q : Option (List RecvFrame))
    (f : RecvFrame) : (recvframeChkDefrag chkmic q f).queue = (chkDefragQueue q f).queue := by
  unfold recvframeChkDefrag
  dsimp only
  split
  · rfl
  · split
    · split <;> rfl
    · rfl

theorem chkDefragQueue_last {q : List RecvFrame} {f : RecvFrame} (hm : f.attrib.mfrag = false)
    (hf : f.attrib.fragNum ≠ 0) : chkDefragQueue (some q) f =
      ⟨some [],(recvframeDefrag (q ++ [f])).out,(recvframeDefrag (q ++ [f])).freed,
        (recvframeDefrag (q ++ [f])).copies⟩ := by
  obtain ⟨n,hn⟩ := Nat.exists_eq_succ_of_ne_zero hf
  simp [chkDefragQueue, hm, hn]

/-- The queue holds fragments that arrived, in the order of arrival, none of them a last one. -/
theorem defragQueue_sublist (chkmic : RecvFrame → Status × RecvFrame) (past : List RecvFrame) :
    (defragQueue chkmic past).Sublist past ∧ ∀ x ∈ defragQueue chkmic past, x.attrib.mfrag = true := by
  refine Run.run_induction (fun _ => True)
    (fun (past q : List RecvFrame) => q.Sublist past ∧ ∀ x ∈ q, x.attrib.mfrag = true)
    ⟨List.Sublist.refl _,by simp⟩ ?_ past (fun _ _ => trivial)
  rintro past q f - ⟨hsub,hall⟩
  rw [recvframeChkDefrag_queue]
  cases hm : f.attrib.mfrag with
  | false =>
    by_cases hf : f.attrib.fragNum = 0
    · rw [show chkDefragQueue (some q) f = ⟨some q,some f,[],[]⟩ by simp [chkDefragQueue, hm, hf]]
      exact ⟨hsub.trans (List.sublist_append_left _ _),hall⟩
    · rw [chkDefragQueue_last hm hf]
      exact ⟨List.nil_sublist _,by simp⟩
  | true =>
    by_cases hf : f.attrib.fragNum = 0
    · rw [show chkDefragQueue (some q) f = ⟨some [f],none,q,[]⟩ by simp [chkDefragQueue, hm, hf]]
      exact ⟨List.sublist_append_right _ _,by simpa using hm⟩
    · rw [show chkDefragQueue (some q) f = ⟨some (q ++ [f]),none,[],[]⟩ by simp [chkDefragQueue, hm, hf]]
      refine ⟨hsub.append (List.Sublist.refl _),?_⟩
      intro x hx
      rcases List.mem_append.mp hx with hx | hx
      · exact hall x hx
      · rw [List.mem_singleton.mp hx]
        exact hm

theorem oneMsdu_append {q : List RecvFrame} {f : RecvFrame} (halign : alignedFrom 0 (q ++ [f]) = q ++ [f])
    (hq : ∀ x ∈ q, x.attrib.mfrag = true) (hf : f.attrib.mfrag = false)
    (hseq : ∀ x ∈ q, x.attrib.seqNum = f.attrib.seqNum) : OneMsdu (q ++ [f]) := by
  refine ⟨?_,?_,?_⟩
  · rw [alignedFrom_eq_self halign, List.range_eq_range']
  · have hmap : q.map (·.attrib.mfrag) = List.replicate q.length true :=
      List.eq_replicate_iff.mpr ⟨List.length_map _,by simpa using hq⟩
    simp [hmap, hf]
  · have hall : ∀ x ∈ q ++ [f], x.attrib.seqNum = f.attrib.seqNum := by
      intro x hx
      rcases List.mem_append.mp hx with hx | hx
      · exact hseq x hx
      · rw [List.mem_singleton.mp hx]
    intro x hx y hy
    rw [hall x hx, hall y hy]

/-- A frame whose body is that of the fragments `fs`, before the MIC check -/
structure Joined (fs : List RecvFrame) (g : RecvFrame) : Prop where
  msdu : OneMsdu fs
  parsed : Parsed g
  body : bodyOf g = (fs.map bodyOf).flatten

/-- What the queue handling alone returns, drops and copies -/
theorem chkDefragQueue_joined {q : List RecvFrame} {f : RecvFrame} (hq : ∀ x ∈ q, x.attrib.mfrag = true)
    (hp : ∀ x ∈ q ++ [f], Parsed x) (hsafe : DefragSafe q f) :
    (∀ c ∈ (chkDefragQueue (some q) f).copies, ∃ h ∈ q.head?, c.1 + c.2 ≤ h.buf.mem.length) ∧
      (∀ g ∈ (chkDefragQueue (some q) f).out, ∃ fs : List RecvFrame, fs.Sublist (q ++ [f]) ∧ Joined fs g) ∧
      (f.attrib.mfrag = false → f.attrib.fragNum ≠ 0 → (chkDefragQueue (some q) f).queue = some [] ∧
        ∀ x ∈ q ++ [f], x.id ∈ ((chkDefragQueue (some q) f).freed ++
          (chkDefragQueue (some q) f).out.toList).map (·.id)) := by
  by_cases hlast : f.attrib.mfrag = false ∧ f.attrib.fragNum ≠ 0
  · obtain ⟨hm,hf⟩ := hlast
    rw [chkDefragQueue_last hm hf]
    obtain ⟨hcopies,hdrop,hout⟩ := recvframeDefrag_spec hp hsafe hm hf
    refine ⟨hcopies,?_,fun _ _ => ⟨rfl,?_⟩⟩
    · intro g hg
      obtain ⟨halign,_,hbody,h,r,rfl,_,hattr,_⟩ := hout g hg
      refine ⟨_,List.Sublist.refl _,oneMsdu_append halign hq hm ((hsafe hm hf).2.2 halign),?_,hbody⟩
      have := hp h (by simp)
      rwa [Parsed, hattr]
    · intro x hx
      cases ho : (recvframeDefrag (q ++ [f])).out with
      | none =>
        rw [hdrop ho]
        simpa using List.mem_map_of_mem (f := (·.id)) hx
      | some g =>
        obtain ⟨_,_,_,h,r,rfl,hid,_,hfreed⟩ := hout g ho
        rw [hfreed]
        have := List.mem_map_of_mem (f := (·.id)) hx
        simpa [hid, or_comm, or_assoc, or_left_comm] using this
  · refine ⟨?_,?_,fun hm hf => absurd ⟨hm,hf⟩ hlast⟩
    · cases hm : f.attrib.mfrag <;> cases hf : f.attrib.fragNum <;>
        simp_all [chkDefragQueue]
    · intro g hg
      cases hm : f.attrib.mfrag with
      | true =>
        exfalso
        revert hg
        by_cases hf : f.attrib.fragNum = 0 <;> simp [chkDefragQueue, hm, hf]
      | false =>
        have hf : f.attrib.fragNum = 0 := by
          by_contra hf
          exact hlast ⟨hm,hf⟩
        obtain rfl : f = g := by simpa [chkDefragQueue, hm, hf] using hg
        refine ⟨[f],List.sublist_append_right _ _,⟨?_,?_,?_⟩,hp f (by simp),by simp⟩
        · simp [hf]
        · simp [hm]
        · simp

/-- One call on a queue of fragments that are not last ones -/
theorem recvframeChkDefrag_ok {rxmickey : RecvFrame → Option (Option Keytype)}
    {past q : List RecvFrame} {f : RecvFrame} (hsub : q.Sublist past)
    (hq : ∀ x ∈ q, x.attrib.mfrag = true) (hp : ∀ x ∈ past ++ [f], Parsed x) (hsafe : DefragSafe q f) :
    DefragOk (past ++ [f]) q f (recvframeChkDefrag (recvframeChkmic rxmickey) (some q) f) := by
  have hsub' : (q ++ [f]).Sublist (past ++ [f]) := hsub.append (List.Sublist.refl _)
  obtain ⟨hcopies,hout,hdrop⟩ := chkDefragQueue_joined hq (fun x hx => hp x (hsub'.mem hx)) hsafe
  unfold recvframeChkDefrag
  cases ho : (chkDefragQueue (some q) f).out with
  | none =>
    simp only [ho, Option.toList_none, List.append_nil] at hdrop ⊢
    exact ⟨hcopies,by simp [ho],fun hm hf _ => hdrop hm hf⟩
  | some g =>
    simp only [ho, Option.toList_some] at hdrop ⊢
    obtain ⟨fs,hfs,hJ⟩ := hout g ho
    have hlen : bodyLen g = (fs.map bodyOf).flatten.length := by rw [← hJ.body, length_bodyOf]
    cases hpriv : g.attrib.privacy with
    | false =>
      simp only [Bool.false_eq_true, ↓reduceIte]
      refine ⟨hcopies,?_,fun _ _ h => by rw [ho] at h; cases h⟩
      intro g' hg'
      obtain rfl : g = g' := Option.some.inj (ho.symm.trans hg')
      refine ⟨fs,hfs.trans hsub',hJ.msdu,?_⟩
      rw [michaelLen, if_neg (by simp [hpriv]), hJ.body, Nat.sub_zero, List.take_length]
    | true =>
      simp only [↓reduceIte]
      by_cases hfail : (recvframeChkmic rxmickey g).1 = .fail
      · rw [if_pos hfail]
        exact ⟨hcopies,by simp,fun hm hf _ => hdrop hm hf⟩
      · rw [if_neg hfail]
        obtain ⟨_,hattr,hbody⟩ := recvframeChkmic_body hJ.parsed hpriv hfail
        refine ⟨hcopies,?_,fun _ _ h => by cases h⟩
        rintro _ ⟨⟩
        refine ⟨fs,hfs.trans hsub',hJ.msdu,?_⟩
        rw [hbody, hJ.body, hlen, michaelLen, michaelLen, hattr]

/-- In a run of fragments from one station whose steps are safe, every call returns the body
of one MSDU or nothing and copies inside the first fragment's buffer. -/
theorem defrag_one_msdu_in_bounds (rxmickey : RecvFrame → Option (Option Keytype)) (es : List RecvFrame)
    (hp : ∀ f ∈ es, Parsed f)
    (hsafe : ∀ past f, past ++ [f] <+: es → DefragSafe (defragQueue (recvframeChkmic rxmickey) past) f) :
    ∀ past f, past ++ [f] <+: es →
      DefragOk (past ++ [f]) (defragQueue (recvframeChkmic rxmickey) past) f
        (recvframeChkDefrag (recvframeChkmic rxmickey)
          (some (defragQueue (recvframeChkmic rxmickey) past)) f) := by
  intro past f hpre
  obtain ⟨hsub,hmore⟩ := defragQueue_sublist (recvframeChkmic rxmickey) past
  exact recvframeChkDefrag_ok hsub hmore (fun x hx => hp x (hpre.subset hx)) (hsafe past f hpre)

/-- A fragment as `rtw_os_alloc_recvframe` sets it up: an unencrypted data frame with 24 bytes
of header and four bytes of body -/
def plainFragment (id seqNum fragNum : ℕ) (mfrag : Bool) : RecvFrame where
  id := id
  buf :=
    { mem := List.replicate (if mfrag ∧ fragNum = 0 then 1664 else 42) (UInt8.ofNat seqNum)
      data := 8
      tail := 36
      data_le_tail := by decide
      tail_le_end := by rw [List.length_replicate]; split <;> omega }
  attrib :=
    { pktLen := 28, hdrlen := 24, toFrDs := 1, amsdu := false, qos := false, priority := 0
      seqNum := seqNum, fragNum := fragNum, mfrag := mfrag, order := false, privacy := false
      bdecrypted := true, encrypt := .noPrivacy, ivLen := 0, icvLen := 0, ethType := 0
      dst := [2, 0, 0, 0, 0, 1], src := [2, 0, 0, 0, 0, 2], ta := [2, 0, 0, 0, 0, 2]
      ra := [2, 0, 0, 0, 0, 1], bssid := [2, 0, 0, 0, 0, 2], keyIndex := 0 }
  preorderCtrl := (plainFrame id seqNum false).preorderCtrl

theorem defrag_one_msdu_in_bounds_two_fragments :
    DefragOk ([plainFragment 0 1 0 true] ++ [plainFragment 1 1 1 false])
      (defragQueue (recvframeChkmic fun _ => none) [plainFragment 0 1 0 true]) (plainFragment 1 1 1 false)
      (recvframeChkDefrag (recvframeChkmic fun _ => none)
        (some (defragQueue (recvframeChkmic fun _ => none) [plainFragment 0 1 0 true]))
        (plainFragment 1 1 1 false)) := by
  refine defrag_one_msdu_in_bounds (fun _ => none) [plainFragment 0 1 0 true,plainFragment 1 1 1 false]
    ?_ ?_ _ _ (List.prefix_refl _)
  · simp only [List.forall_mem_cons, Parsed, plainFragment]
    decide
  · intro past f hpre
    rcases past with _ | ⟨a,_ | ⟨b,past⟩⟩
    · obtain rfl : f = plainFragment 0 1 0 true := by simpa using hpre
      intro hm
      cases hm
    · obtain ⟨rfl,rfl⟩ : a = plainFragment 0 1 0 true ∧ f = plainFragment 1 1 1 false := by
        simpa using hpre
      have hq : defragQueue (recvframeChkmic fun _ => none) [plainFragment 0 1 0 true] =
          [plainFragment 0 1 0 true] := rfl
      have hal : alignedFrom 0 ([plainFragment 0 1 0 true] ++ [plainFragment 1 1 1 false]) =
          [plainFragment 0 1 0 true,plainFragment 1 1 1 false] := rfl
      rw [hq]
      intro _ _
      rw [hal]
      refine ⟨?_,?_,?_⟩
      · simp only [List.forall_mem_cons, Sized, overhead, RxBuf.len, plainFragment]
        decide
      · rintro h r ⟨⟩ p x t ht
        rcases p with _ | ⟨y,p⟩
        · obtain ⟨rfl,_⟩ := List.cons.inj ht
          decide +kernel
        · simp at ht
      · intro _ x hx
        rw [List.mem_singleton.mp hx]
        rfl
    · have := hpre.length_le
      simp at this

/-- The last fragment of number 2 completes the first fragment of number 1. -/
theorem defrag_mixes_msdus :
    ¬ ∀ es : List RecvFrame, (∀ f ∈ es, Parsed f) → ∀ past f, past ++ [f] <+: es →
      DefragOk (past ++ [f]) (defragQueue (recvframeChkmic fun _ => none) past) f
        (recvframeChkDefrag (recvframeChkmic fun _ => none)
          (some (defragQueue (recvframeChkmic fun _ => none) past)) f) := by
  intro h
  have hok := h [plainFragment 0 1 0 true,plainFragment 1 2 1 false] (by
      simp only [List.forall_mem_cons, Parsed, plainFragment]
      decide) [plainFragment 0 1 0 true] (plainFragment 1 2 1 false) (List.prefix_refl _)
  have hbody : ((recvframeChkDefrag (recvframeChkmic fun _ => none)
      (some (defragQueue (recvframeChkmic fun _ => none) [plainFragment 0 1 0 true]))
      (plainFragment 1 2 1 false)).out.map bodyOf) = some [1, 1, 1, 1, 2, 2, 2, 2] := by
    decide +kernel
  obtain ⟨g,hg,hgb⟩ := Option.map_eq_some_iff.mp hbody
  obtain ⟨fs,hfs,hone,_⟩ := hok.returned g hg
  have hmem : fs ∈ [[],[plainFragment 1 2 1 false],[plainFragment 0 1 0 true],
      [plainFragment 0 1 0 true,plainFragment 1 2 1 false]] := List.mem_sublists'.mpr hfs
  simp only [List.mem_cons, List.not_mem_nil, or_false] at hmem
  rcases hmem with rfl | rfl | rfl | rfl
  · exact absurd hone.moreFragments (by decide)
  · exact absurd hone.numbers (by decide)
  · exact absurd hone.moreFragments (by decide)
  · exact absurd (hone.sequence (plainFragment 0 1 0 true) (by simp) (plainFragment 1 2 1 false) (by simp))
      (by decide)

end Rtl8188fu
