import Rtl8188fu.Include.RtwRecv

/-! # Taking an A-MSDU apart

`amsdu_to_msdu` and `rtw_os_alloc_msdu_pkt`. The driver gives every MSDU the addresses of the
frame, not those of its own subframe header.
-/
namespace Rtl8188fu
open Bytes

def MAX_SUBFRAME_COUNT : ℕ := 64
def ETH_P_AARP : ℕ := 0x80f3
def ETH_P_IPX : ℕ := 0x8137

/-- What `rtw_os_recv_indicate_pkt` gets: where the data lies in the memory of the frame, and the
bytes of the packet -/
structure SubPkt where
  start : ℕ
  len : ℕ
  bytes : List UInt8

/-- The packet for the data of a subframe. An encapsulation is removed; otherwise the length goes
where the type would be. -/
def msduPkt (dst src : MacAddr) (data : List UInt8) : List UInt8 :=
  let ethType := be16At data 6
  if 8 ≤ data.length ∧ ((data.take SNAP_SIZE = rtwRfc1042Header ∧ ethType ≠ ETH_P_AARP ∧
      ethType ≠ ETH_P_IPX) ∨ data.take SNAP_SIZE = rtwBridgeTunnelHeader) then
    dst ++ src ++ data.drop SNAP_SIZE
  else dst ++ src ++ be16Bytes data.length ++ data

/-- `rtw_os_alloc_msdu_pkt`; `ok` when the new buffer or, failing that, the clone was allocated -/
def rtwOsAllocMsduPkt (a : RxPktAttrib) (mem : List UInt8) (ok : Bool) (nSubframeLength pdata : ℕ) : Option SubPkt :=
  if ok then
    some ⟨pdata + ETH_HLEN,nSubframeLength,msduPkt a.dst a.src (slice mem (pdata + ETH_HLEN) nSubframeLength)⟩
  else none

/-- The loop with room for `left` more entries in `subframes`; `alloc` tells for each subframe
whether the allocation succeeds. -/
def amsduLoop (a : RxPktAttrib) (mem : List UInt8) (alloc : ℕ → Bool) : ℕ → ℕ → ℕ → ℕ → List SubPkt
  | 0, _, _, _ => []
  | left + 1, nrSubframes, pdata, aLen =>
    if ETH_HLEN < aLen then
      let nSubframeLength := be16At mem (pdata + 12)
      if aLen < ETH_HLEN + nSubframeLength then []
      else
        match rtwOsAllocMsduPkt a mem (alloc nrSubframes) nSubframeLength pdata with
        | none => []
        | some subPkt =>
          -- nr_subframes >= MAX_SUBFRAME_COUNT
          if left = 0 then [subPkt]
          else
            let pdata := pdata + ETH_HLEN + nSubframeLength
            let aLen := aLen - ETH_HLEN - nSubframeLength
            let paddingLen := if aLen ≠ 0 then (4 - (nSubframeLength + ETH_HLEN) % 4) % 4 else 0
            if aLen < paddingLen then [subPkt]
            else subPkt :: amsduLoop a mem alloc left (nrSubframes + 1) (pdata + paddingLen) (aLen - paddingLen)
    else []

/-- `amsdu_to_msdu`: the packets that are indicated. The results of `recvframe_pull` are not looked at. -/
def amsduToMsdu (f : RecvFrame) (alloc : ℕ → Bool) : List SubPkt :=
  let b := (f.buf.pull f.attrib.hdrlen).getD f.buf
  let b := if 0 < f.attrib.ivLen then (b.pull f.attrib.ivLen).getD b else b
  amsduLoop f.attrib b.mem alloc MAX_SUBFRAME_COUNT 0 b.data b.len

/-- An MSDU with its addresses; its length fits the field of the subframe header. -/
structure Msdu where
  dst : MacAddr
  src : MacAddr
  payload : List UInt8
  dst_length : dst.length = ETH_ALEN
  src_length : src.length = ETH_ALEN
  short : payload.length < 65536

def Msdu.subframe (m : Msdu) : List UInt8 := m.dst ++ m.src ++ be16Bytes m.payload.length ++ m.payload

/-- The bytes that bring a subframe to a multiple of four -/
def Msdu.padding (m : Msdu) (fill : UInt8) : List UInt8 :=
  List.replicate ((4 - (m.payload.length + ETH_HLEN) % 4) % 4) fill

/-- The body of an A-MSDU; only the last subframe has no padding. -/
def amsduBody (fill : UInt8) : List Msdu → List UInt8
  | [] => []
  | [m] => m.subframe
  | m :: m' :: ms => m.subframe ++ m.padding fill ++ amsduBody fill (m' :: ms)

/-- The packet that an MSDU should become -/
def Msdu.pkt (m : Msdu) : List UInt8 := msduPkt m.dst m.src m.payload

structure Amsdu where
  msdus : List Msdu
  count : msdus.length ≤ MAX_SUBFRAME_COUNT

/-- An A-MSDU in a receive buffer: other memory, the header, the IV, the body, other memory -/
def amsduBuf (head hdr iv tail : List UInt8) (fill : UInt8) (ms : Amsdu) : RxBuf where
  mem := head ++ (hdr ++ iv ++ amsduBody fill ms.msdus) ++ tail
  data := head.length
  tail := head.length + (hdr ++ iv ++ amsduBody fill ms.msdus).length
  data_le_tail := Nat.le_add_right _ _
  tail_le_end := by
    simp only [List.length_append]
    omega

section Contained
variable {a : RxPktAttrib} {mem : List UInt8} {alloc : ℕ → Bool} {left nr pdata aLen : ℕ} {p : SubPkt}

theorem rtwOsAllocMsduPkt_some {ok : Bool} {n : ℕ} (h : rtwOsAllocMsduPkt a mem ok n pdata = some p) :
    ok = true ∧ p.start = pdata + ETH_HLEN ∧ p.len = n ∧
      p.bytes = msduPkt a.dst a.src (slice mem (pdata + ETH_HLEN) n) := by
  rw [rtwOsAllocMsduPkt] at h
  split at h
  · rename_i hok
    cases h
    exact ⟨hok,rfl,rfl,rfl⟩
  · cases h

/-- Every subframe of the loop lies in what it was given. -/
theorem mem_amsduLoop (h : p ∈ amsduLoop a mem alloc left nr pdata aLen) :
    pdata ≤ p.start ∧ p.start + p.len ≤ pdata + aLen := by
  induction left generalizing nr pdata aLen with
  | zero => cases h
  | succ left ih =>
    rw [amsduLoop] at h
    split at h
    · dsimp only at h
      split at h
      · cases h
      · rename_i hlen
        split at h
        · cases h
        · rename_i subPkt hsub
          obtain ⟨-,hstart,hsublen,-⟩ := rtwOsAllocMsduPkt_some hsub
          have hfirst : pdata ≤ subPkt.start ∧ subPkt.start + subPkt.len ≤ pdata + aLen := by
            omega
          generalize (if aLen - ETH_HLEN - be16At mem (pdata + 12) ≠ 0 then
            (4 - (be16At mem (pdata + 12) + ETH_HLEN) % 4) % 4 else 0) = paddingLen at h
          split at h
          · rw [List.mem_singleton.mp h]
            exact hfirst
          · split at h
            · rw [List.mem_singleton.mp h]
              exact hfirst
            · rcases List.mem_cons.mp h with rfl | h
              · exact hfirst
              · have := ih h
                omega
    · cases h

theorem pull_getD_range (b : RxBuf) (sz : ℕ) :
    b.data ≤ ((b.pull sz).getD b).data ∧ ((b.pull sz).getD b).tail = b.tail := by
  cases h : b.pull sz with
  | none => exact ⟨Nat.le_refl _,rfl⟩
  | some c =>
    obtain ⟨-,-,hd,ht⟩ := RxBuf.pull_eq_some h
    exact ⟨hd ▸ Nat.le_add_right _ _,ht⟩

/-- Whatever the body is, each subframe lies between `rx_data` and `rx_tail`. -/
theorem mem_amsduToMsdu {f : RecvFrame} (h : p ∈ amsduToMsdu f alloc) :
    f.buf.data ≤ p.start ∧ p.start + p.len ≤ f.buf.tail := by
  rw [amsduToMsdu] at h
  have hsub := mem_amsduLoop h
  have h1 := pull_getD_range f.buf f.attrib.hdrlen
  generalize (f.buf.pull f.attrib.hdrlen).getD f.buf = b at h1 hsub
  have h2 := pull_getD_range b f.attrib.ivLen
  split at hsub
  · have hle := ((b.pull f.attrib.ivLen).getD b).data_le_tail
    rw [RxBuf.len] at hsub
    omega
  · have hle := b.data_le_tail
    rw [RxBuf.len] at hsub
    omega

end Contained
section Body
variable {a : RxPktAttrib} {mem pre post : List UInt8} {alloc : ℕ → Bool} {left nr : ℕ} {m : Msdu} {fill : UInt8}

/-- The packets that the loop makes of the subframes: it stops at an allocation that fails, and
does not see an empty MSDU at the end. -/
def handed (dst src : MacAddr) (alloc : ℕ → Bool) : ℕ → List Msdu → List (List UInt8)
  | _, [] => []
  | nr, [m] => if m.payload = [] ∨ alloc nr = false then [] else [msduPkt dst src m.payload]
  | nr, m :: m' :: ms =>
    if alloc nr then msduPkt dst src m.payload :: handed dst src alloc (nr + 1) (m' :: ms) else []

@[simp] theorem Msdu.length_subframe (m : Msdu) : m.subframe.length = ETH_HLEN + m.payload.length := by
  simp only [Msdu.subframe, List.length_append, m.dst_length, m.src_length]
  rfl

/-- What the loop reads of a subframe that lies at `pre.length` -/
theorem read_subframe (m : Msdu) (pre post : List UInt8) :
    be16At (pre ++ (m.subframe ++ post)) (pre.length + 12) = m.payload.length ∧
      slice (pre ++ (m.subframe ++ post)) (pre.length + ETH_HLEN) m.payload.length = m.payload := by
  have haddr : (pre ++ (m.dst ++ m.src)).length = pre.length + 12 := by
    simp only [List.length_append, m.dst_length, m.src_length]
    rfl
  have hhdr : (pre ++ (m.dst ++ m.src) ++ be16Bytes m.payload.length).length = pre.length + ETH_HLEN := by
    rw [List.length_append, haddr]
    rfl
  constructor
  · have hsplit : pre ++ (m.subframe ++ post) =
        pre ++ (m.dst ++ m.src) ++ (be16Bytes m.payload.length ++ (m.payload ++ post)) := by
      simp only [Msdu.subframe, List.append_assoc]
    have hb : ∀ i < 2, byteAt (pre ++ (m.subframe ++ post))
        (pre.length + 12 + i) = byteAt (be16Bytes m.payload.length) i := by
      intro i hi
      rw [hsplit, ← haddr, byteAt_append, if_neg (by omega), Nat.add_sub_cancel_left, byteAt_append,
        if_pos (show i < (be16Bytes m.payload.length).length from hi)]
    have hshort := m.short
    rw [be16At, hb 1 (by decide), ← Nat.add_zero (pre.length + 12), hb 0 (by decide)]
    simp only [be16Bytes, byteAt, List.getD_cons_zero, List.getD_cons_succ, UInt8.toNat_ofNat']
    omega
  · have hsplit : pre ++ (m.subframe ++ post) =
        pre ++ (m.dst ++ m.src) ++ be16Bytes m.payload.length ++ m.payload ++ post := by
      simp only [Msdu.subframe, List.append_assoc]
    rw [hsplit]
    exact slice_middle hhdr rfl

theorem length_amsduBody_pos (fill : UInt8) (m : Msdu) (ms : List Msdu) :
    ETH_HLEN ≤ (amsduBody fill (m :: ms)).length := by
  cases ms with
  | nil =>
    rw [amsduBody, Msdu.length_subframe]
    omega
  | cons m' ms =>
    rw [amsduBody, List.append_assoc, List.length_append, Msdu.length_subframe]
    omega

/-- One turn of the loop at a subframe with `r` bytes behind it -/
theorem amsduLoop_subframe {r : ℕ} (h : m.payload ≠ [] ∨ 0 < r) :
    (amsduLoop a (pre ++ (m.subframe ++ post)) alloc (left + 1) nr pre.length (m.subframe.length + r)).map
      SubPkt.bytes = if alloc nr then
        msduPkt a.dst a.src m.payload ::
          let paddingLen := if r ≠ 0 then (m.padding fill).length else 0
          if left = 0 ∨ r < paddingLen then []
          else (amsduLoop a (pre ++ (m.subframe ++ post)) alloc left (nr + 1)
            (pre.length + m.subframe.length + paddingLen) (r - paddingLen)).map SubPkt.bytes
      else [] := by
  obtain ⟨hn,hdata⟩ := read_subframe m pre post
  have hpos : 0 < m.payload.length + r := by
    rcases h with h | h
    · exact Nat.add_pos_left (List.length_pos_iff.mpr h) r
    · exact Nat.add_pos_right _ h
  have hleft : ETH_HLEN + m.payload.length + r - ETH_HLEN - m.payload.length = r := by omega
  have hpad : (m.padding fill).length = (4 - (m.payload.length + ETH_HLEN) % 4) % 4 := List.length_replicate
  rw [amsduLoop, Msdu.length_subframe, if_pos (by omega), hpad]
  simp only [hn, hleft]
  generalize (if r ≠ 0 then (4 - (m.payload.length + ETH_HLEN) % 4) % 4 else 0) = paddingLen
  rw [if_neg (by omega), rtwOsAllocMsduPkt]
  cases halloc : alloc nr with
  | false => rfl
  | true =>
    simp only [if_true, hdata]
    by_cases h0 : left = 0
    · rw [if_pos h0, if_pos (.inl h0)]
      rfl
    · rw [if_neg h0]
      split
      · rename_i hr
        rw [if_pos (.inr hr)]
        rfl
      · rename_i hr
        rw [if_neg (not_or.mpr ⟨h0,hr⟩), Nat.add_assoc pre.length]
        rfl

theorem amsduLoop_body {ms : List Msdu} (hleft : ms.length ≤ left) :
    (amsduLoop a (pre ++ (amsduBody fill ms ++ post)) alloc left nr pre.length (amsduBody fill ms).length).map
      SubPkt.bytes = handed a.dst a.src alloc nr ms := by
  induction ms generalizing left nr pre with
  | nil =>
    cases left with
    | zero => rfl
    | succ left =>
      rw [amsduLoop, amsduBody, List.length_nil, if_neg (Nat.not_lt_zero _)]
      rfl
  | cons m ms ih =>
    rw [List.length_cons] at hleft
    obtain ⟨left,rfl⟩ : ∃ k, left = k + 1 := ⟨left - 1,by omega⟩
    cases ms with
    | nil =>
      rw [amsduBody, handed]
      by_cases hempty : m.payload = []
      · rw [if_pos (.inl hempty), amsduLoop, if_neg]
        · rfl
        · rw [Msdu.length_subframe, hempty]
          exact Nat.lt_irrefl _
      · refine (@amsduLoop_subframe a pre post alloc left nr m fill 0 (.inl hempty)).trans ?_
        simp only [ne_eq, not_true_eq_false, if_false, Nat.not_lt_zero, or_false, hempty, false_or]
        cases halloc : alloc nr with
        | false => rfl
        | true =>
          simp only [if_true, Bool.true_eq_false, if_false]
          cases left with
          | zero => rfl
          | succ left =>
            rw [if_neg (Nat.succ_ne_zero left), amsduLoop, if_neg (Nat.not_lt_zero _)]
            rfl
    | cons m' ms =>
      have hpos := length_amsduBody_pos fill m' ms
      have hbody : amsduBody fill (m :: m' :: ms) ++ post =
          m.subframe ++ (m.padding fill ++ (amsduBody fill (m' :: ms) ++ post)) := by
        rw [amsduBody, List.append_assoc, List.append_assoc]
      have hlen : (amsduBody fill (m :: m' :: ms)).length =
          m.subframe.length + ((m.padding fill).length + (amsduBody fill (m' :: ms)).length) := by
        rw [amsduBody, List.length_append, List.length_append, Nat.add_assoc]
      have hr : 0 < (m.padding fill).length + (amsduBody fill (m' :: ms)).length :=
        Nat.add_pos_right _ (Nat.lt_of_lt_of_le (by decide) hpos)
      rw [hbody, hlen, handed, @amsduLoop_subframe _ _ _ _ _ _ _ fill _ (.inr hr)]
      simp only [if_pos (Nat.pos_iff_ne_zero.mp hr), Nat.add_sub_cancel_left]
      have hroom :
          ¬(left = 0 ∨ (m.padding fill).length + (amsduBody fill (m' :: ms)).length < (m.padding fill).length) := by
        rw [List.length_cons] at hleft
        omega
      rw [if_neg hroom]
      have hpre : pre ++ (m.subframe ++ (m.padding fill ++ (amsduBody fill (m' :: ms) ++ post))) =
          pre ++ m.subframe ++ m.padding fill ++ (amsduBody fill (m' :: ms) ++ post) := by
        simp only [List.append_assoc]
      have hat : pre.length + m.subframe.length + (m.padding fill).length =
          (pre ++ m.subframe ++ m.padding fill).length := by
        simp only [List.length_append]
      rw [hpre, hat, ih (by omega)]

theorem msduPkt_eq_pkt : msduPkt a.dst a.src m.payload = m.pkt ↔ m.dst ++ m.src = a.dst ++ a.src := by
  rw [Msdu.pkt, msduPkt, msduPkt]
  split
  · rw [List.append_left_inj]
    exact eq_comm
  · rw [List.append_left_inj, List.append_left_inj]
    exact eq_comm

theorem handed_eq_iff (ms : List Msdu) : handed a.dst a.src alloc nr ms = ms.map Msdu.pkt ↔
    (∀ m ∈ ms, m.dst ++ m.src = a.dst ++ a.src) ∧ (∀ m, ms.getLast? = some m → m.payload ≠ []) ∧
      ∀ k < ms.length, alloc (nr + k) = true := by
  induction ms generalizing nr with
  | nil => simp [handed]
  | cons m ms ih =>
    cases ms with
    | nil =>
      rw [handed]
      by_cases hempty : m.payload = []
      · simp [hempty]
      · cases halloc : alloc nr with
        | false => simp [halloc]
        | true => simp [hempty, halloc, msduPkt_eq_pkt]
    | cons m' ms =>
      rw [handed, List.map_cons]
      have hall : (∀ k < (m :: m' :: ms).length, alloc (nr + k) = true) ↔
          alloc nr = true ∧ ∀ k < (m' :: ms).length, alloc (nr + 1 + k) = true := by
        rw [List.length_cons, Nat.forall_lt_succ_left]
        simp only [Nat.add_zero, Nat.add_assoc, Nat.add_comm 1]
      rw [hall, List.getLast?_cons_cons, List.forall_mem_cons]
      cases halloc : alloc nr with
      | false => simp
      | true =>
        rw [if_pos rfl, List.cons.injEq, msduPkt_eq_pkt, ih]
        tauto

theorem amsduToMsdu_amsduBuf (f : RecvFrame) (head hdr iv tail : List UInt8) (ms : Amsdu) :
    (amsduToMsdu
      { f with
        buf := amsduBuf head hdr iv tail fill ms
        attrib := { f.attrib with hdrlen := hdr.length, ivLen := iv.length } } alloc).map SubPkt.bytes =
      handed f.attrib.dst f.attrib.src alloc 0 ms.msdus := by
  let body := amsduBody fill ms.msdus
  have hlen : (hdr ++ iv ++ body).length = hdr.length + iv.length + body.length := by
    rw [List.length_append, List.length_append]
  obtain ⟨hmem,hdata,htail⟩ := @RxBuf.pull_getD (amsduBuf head hdr iv tail fill ms) hdr.length
    (show head.length + hdr.length ≤ head.length + (hdr ++ iv ++ body).length by omega)
  rw [amsduToMsdu]
  dsimp only
  generalize ((amsduBuf head hdr iv tail fill ms).pull hdr.length).getD (amsduBuf head hdr iv tail fill ms) = b
    at hmem hdata htail
  have hb : (if 0 < iv.length then (b.pull iv.length).getD b else b).mem = b.mem ∧
      (if 0 < iv.length then (b.pull iv.length).getD b else b).data = b.data + iv.length ∧
      (if 0 < iv.length then (b.pull iv.length).getD b else b).tail = b.tail := by
    split
    · refine RxBuf.pull_getD ?_
      rw [hdata, htail]
      change head.length + hdr.length + iv.length ≤ head.length + (hdr ++ iv ++ body).length
      omega
    · rename_i hiv
      exact ⟨rfl,by omega,rfl⟩
  generalize (if 0 < iv.length then (b.pull iv.length).getD b else b) = c at hb
  obtain ⟨hcmem,hcdata,hctail⟩ := hb
  have hmem' : c.mem = (head ++ hdr ++ iv) ++ (body ++ tail) := by
    rw [hcmem, hmem]
    simp only [amsduBuf, body, List.append_assoc]
  have hdata' : c.data = (head ++ hdr ++ iv).length := by
    rw [hcdata, hdata]
    simp only [amsduBuf, List.length_append]
  have hlen' : c.len = body.length := by
    rw [RxBuf.len, hctail, htail, hdata']
    change head.length + (hdr ++ iv ++ body).length - _ = _
    rw [hlen, List.length_append, List.length_append]
    omega
  rw [hmem', hdata', hlen']
  exact amsduLoop_body ms.count

end Body
/-- Whatever the body, every subframe lies in the frame; and the packets are the MSDUs of the body
exactly when all of these have the addresses of the frame, the last is not empty, and every
allocation succeeds. -/
theorem amsdu_to_msdu_exact_iff (f : RecvFrame) (alloc : ℕ → Bool) :
    (∀ p ∈ amsduToMsdu f alloc, f.buf.data ≤ p.start ∧ p.start + p.len ≤ f.buf.tail) ∧
      ∀ (head hdr iv tail : List UInt8) (fill : UInt8) (ms : Amsdu),
        (amsduToMsdu
          { f with
            buf := amsduBuf head hdr iv tail fill ms
            attrib := { f.attrib with hdrlen := hdr.length, ivLen := iv.length } } alloc).map SubPkt.bytes =
            ms.msdus.map Msdu.pkt ↔
          (∀ m ∈ ms.msdus, m.dst ++ m.src = f.attrib.dst ++ f.attrib.src) ∧
            (∀ m, ms.msdus.getLast? = some m → m.payload ≠ []) ∧ ∀ k < ms.msdus.length, alloc k = true := by
  refine ⟨fun p hp => mem_amsduToMsdu hp,fun head hdr iv tail fill ms => ?_⟩
  rw [amsduToMsdu_amsduBuf, handed_eq_iff]
  simp only [Nat.zero_add]

/-- An MSDU for a multicast group, in an A-MSDU that the access point sent to the station -/
def groupMsdu : Msdu := ⟨[1, 0, 0x5e, 0, 0, 5],[2, 0, 0, 0, 0, 9],[1, 2, 3, 4],rfl,rfl,by decide⟩

/-- The driver hands the MSDU up under the addresses of the frame. -/
theorem group_msdu_gets_frame_addresses :
    (amsduToMsdu
      { plainFrame 0 0 true with
        buf := amsduBuf [] (List.replicate 26 0) [] [] 0 ⟨[groupMsdu],by decide⟩
        attrib := { (plainFrame 0 0 true).attrib with hdrlen := 26, ivLen := 0, amsdu := true } }
      (fun _ => true)).map SubPkt.bytes ≠ [groupMsdu].map Msdu.pkt := by
  decide

end Rtl8188fu
