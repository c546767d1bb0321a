import Rtl8188fu.Include.Wifi

/-! # Frames of a USB transfer

`recvbuf2recvframe`, built with RX aggregation and C2H packets, without concurrent mode and
without buffers of the USB core and antenna diversity. A transfer lies at the beginning of a
memory that goes on behind it.
-/
namespace Rtl8188fu
open Bytes

def RXDESC_SIZE : ℕ := 24
def ODM_RATE11M : ℕ := 0x03
def ODM_RATEMCS8 : ℕ := 0x14
def ODM_RATEMCS15 : ℕ := 0x1b

def leBitsTo4Byte (p : List UInt8) (start bitOffset bitLen : ℕ) : ℕ :=
  let v := (byteAt p start).toNat + 256 * (byteAt p (start + 1)).toNat + 65536 * (byteAt p (start + 2)).toNat +
    16777216 * (byteAt p (start + 3)).toNat
  v / 2 ^ bitOffset % 2 ^ bitLen

/-- `struct rx_pkt_attrib` as the descriptor fills it -/
structure RxStat where
  pktLen : ℕ
  /-- `pkt_rpt_type` is `C2H_PACKET`, not `NORMAL_RX`. -/
  c2hPacket : Bool
  crcErr : Bool
  icvErr : Bool
  drvinfoSz : ℕ
  encrypt : ℕ
  qos : Bool
  shiftSz : ℕ
  physt : Bool
  bdecrypted : Bool
  priority : ℕ
  amsdu : Bool
  mdata : Bool
  mfrag : Bool
  seqNum : ℕ
  fragNum : ℕ
  dataRate : ℕ
  sgi : Bool
  ldpc : Bool
  stbc : Bool
  bw : ℕ

/-- `rtl8188f_query_rx_desc_status`: of a C2H packet only the length is read. -/
def queryRxDescStatus (pdesc : List UInt8) : RxStat :=
  let bits := leBitsTo4Byte pdesc
  let c2h := bits 8 28 1 ≠ 0
  let get := fun start off len => if c2h then 0 else bits start off len
  { pktLen := bits 0 0 14
    c2hPacket := c2h
    crcErr := get 0 14 1 ≠ 0
    icvErr := get 0 15 1 ≠ 0
    drvinfoSz := get 0 16 4 * 8
    encrypt := get 0 20 3
    qos := get 0 23 1 ≠ 0
    shiftSz := get 0 24 2
    physt := get 0 26 1 ≠ 0
    bdecrypted := get 0 27 1 = 0 ∧ get 0 20 3 ≠ 0
    priority := get 4 8 4
    amsdu := get 4 13 1 ≠ 0
    mdata := get 4 26 1 ≠ 0
    mfrag := get 4 27 1 ≠ 0
    seqNum := get 8 0 12
    fragNum := get 8 12 4
    dataRate := get 12 0 7
    sgi := get 16 0 1 ≠ 0
    ldpc := get 16 1 1 ≠ 0
    stbc := get 16 2 1 ≠ 0
    bw := get 16 4 2 }

/-- What the loop depends on besides the transfer, for each turn -/
structure RxEnv where
  /-- `rtw_alloc_recvframe` -/
  allocRecvframe : ℕ → Option ℕ
  skbAlloc : ℕ → Bool
  skbClone : ℕ → Bool
  mpMode : Bool

/-- `rtw_os_alloc_recvframe` with a `pskb`: without memory the transfer itself is shared, but
not for a first fragment. -/
def rtwOsAllocRecvframe (env : RxEnv) (turn : ℕ) (a : RxStat) : Bool :=
  env.skbAlloc turn || (!(a.mfrag && a.fragNum == 0) && env.skbClone turn)

/-- `pkt_offset` before rounding -/
def pktOffset (a : RxStat) : ℕ := RXDESC_SIZE + a.drvinfoSz + a.shiftSz + a.pktLen

def rnd8 (sz : ℕ) : ℕ := (sz / 8 + if sz % 8 ≠ 0 then 1 else 0) * 8

/-- What a call did -/
structure RxAgg where
  /-- the frames taken from the free queue -/
  allocated : List ℕ
  /-- the frames handed to `rtw_recv_entry`, with their payload -/
  entries : List (ℕ × List UInt8)
  /-- the frames returned to the free queue -/
  freed : List ℕ
  /-- what was handed to `rtl8188f_c2h_packet_handler` -/
  c2h : List (List UInt8)
  /-- what was read, each with its place and length -/
  reads : List (ℕ × ℕ)
  /-- `transfer_len` at the end -/
  left : ℤ

/-- What is read of a descriptor: the words at 0 to 16, of a C2H packet those at 0 and 8 -/
def descReads (off : ℕ) (a : RxStat) : List (ℕ × ℕ) :=
  if a.c2hPacket then [(off, 4), (off + 8, 4)] else [(off, 20)]

/-- What `odm_RxPhyStatus92CSeries_Parsing` reads of the PHY status: of a CCK frame the
quality (of a weak signal) and the gain, of another one the two gains, the power, the
frequency offsets (in the own BSS), the error vector of one or two streams and the noise. -/
def phyStatusReads (a : RxStat) : List (ℕ × ℕ) :=
  if a.dataRate ≤ ODM_RATE11M then [(4, 1), (5, 1)]
  else
    let maxSpatialStream := if ODM_RATEMCS8 ≤ a.dataRate ∧ a.dataRate ≤ ODM_RATEMCS15 then 2 else 1
    [(0, 2), (4, 1), (9, 2), (13, maxSpatialStream), (15, 2)]

def hdrBssid (wlanhdr : List UInt8) : ℕ := if getToDs wlanhdr then 4 else if getFrDs wlanhdr then 10 else 16

/-- What `rx_query_phy_status` reads of the header: the frame control and the transmitter, and of
a frame without error the receiver and the BSSID -/
def hdrReads (wlanhdr : List UInt8) (a : RxStat) : List (ℕ × ℕ) :=
  (0, 2) :: (10, ETH_ALEN) ::
    if a.crcErr || a.icvErr then []
    else if getFrameType wlanhdr = WIFI_CTRL_TYPE then [(4, ETH_ALEN)]
    else [(4, ETH_ALEN), (hdrBssid wlanhdr, ETH_ALEN)]

/-- What is read at a place -/
def readsAt (base : ℕ) (reads : List (ℕ × ℕ)) : List (ℕ × ℕ) := reads.map fun r => (base + r.1, r.2)

/-- `pdata` of a turn with `pbuf` at `off` -/
def pdataOf (off : ℕ) (a : RxStat) : ℕ := off + RXDESC_SIZE + a.drvinfoSz + a.shiftSz

/-- What is read of an accepted frame. Its header is read in the transfer when the transfer is
shared, otherwise in the copy. -/
def acceptedReads (env : RxEnv) (mem : List UInt8) (turn off : ℕ) (a : RxStat) : List (ℕ × ℕ) :=
  descReads off a ++ [(pdataOf off a, a.pktLen)] ++
    if !a.c2hPacket && a.physt then
      readsAt (off + RXDESC_SIZE) (phyStatusReads a) ++
        if env.skbAlloc turn then [] else readsAt (pdataOf off a) (hdrReads (mem.drop (pdataOf off a)) a)
    else []

/-- The frame is dropped for an error that its descriptor tells. -/
def RxStat.flagged (a : RxStat) (mpMode : Bool) : Bool := !mpMode && (a.crcErr || a.icvErr)

theorem leBitsTo4Byte_lt (p : List UInt8) (start bitOffset bitLen : ℕ) :
    leBitsTo4Byte p start bitOffset bitLen < 2 ^ bitLen :=
  Nat.mod_lt _ (Nat.two_pow_pos _)

theorem rnd8_ge (n : ℕ) : n ≤ rnd8 n ∧ rnd8 n < n + 8 ∧ rnd8 n % 8 = 0 := by
  rw [rnd8]
  split <;> omega

theorem pktOffset_lt (p : List UInt8) : 24 ≤ pktOffset (queryRxDescStatus p) ∧
    pktOffset (queryRxDescStatus p) < 16531 := by
  have hlen := leBitsTo4Byte_lt p 0 0 14
  have hdrv := leBitsTo4Byte_lt p 0 16 4
  have hshift := leBitsTo4Byte_lt p 0 24 2
  simp only [pktOffset, queryRxDescStatus, RXDESC_SIZE]
  split <;> omega

/-- `pkt_offset` after rounding to 16 bits -/
def nextOffset (a : RxStat) : ℕ := rnd8 (pktOffset a) % 65536

theorem nextOffset_eq (p : List UInt8) : nextOffset (queryRxDescStatus p) = rnd8 (pktOffset (queryRxDescStatus p)) := by
  have h := pktOffset_lt p
  have hr := rnd8_ge (pktOffset (queryRxDescStatus p))
  exact Nat.mod_eq_of_lt (by omega)

/-- The loop of `recvbuf2recvframe`, a turn with `pbuf` at `off` -/
def recvbufLoop (env : RxEnv) (mem : List UInt8) (turn off : ℕ) (transferLen : ℤ) : RxAgg :=
  match env.allocRecvframe turn with
  | none => ⟨[], [], [], [], [], transferLen⟩
  | some frame =>
    let a := queryRxDescStatus (mem.drop off)
    if a.flagged env.mpMode then ⟨[frame], [], [frame], [], descReads off a, transferLen⟩
    else if a.pktLen = 0 ∨ transferLen < pktOffset a then ⟨[frame], [], [frame], [], descReads off a, transferLen⟩
    else if !rtwOsAllocRecvframe env turn a then ⟨[frame], [], [frame], [], descReads off a, transferLen⟩
    else
      let payload := slice mem (pdataOf off a) a.pktLen
      let rest : RxAgg :=
        if _h : 0 < transferLen - nextOffset a then
          recvbufLoop env mem (turn + 1) (off + nextOffset a) (transferLen - nextOffset a)
        else ⟨[], [], [], [], [], transferLen - nextOffset a⟩
      { allocated := frame :: rest.allocated
        entries := if a.c2hPacket then rest.entries else (frame, payload) :: rest.entries
        freed := if a.c2hPacket then frame :: rest.freed else rest.freed
        c2h := if a.c2hPacket then payload :: rest.c2h else rest.c2h
        reads := acceptedReads env mem turn off a ++ rest.reads
        left := rest.left }
termination_by transferLen.toNat
decreasing_by
  have h := pktOffset_lt (mem.drop off)
  have hr := rnd8_ge (pktOffset (queryRxDescStatus (mem.drop off)))
  have hn := nextOffset_eq (mem.drop off)
  omega

/-- `recvbuf2recvframe` of a transfer of `len` bytes; the packet count is read first. -/
def recvbuf2recvframe (env : RxEnv) (mem : List UInt8) (len : ℕ) : RxAgg :=
  let r := recvbufLoop env mem 0 0 len
  { r with reads := (12, 4) :: r.reads }

section Turn
variable (env : RxEnv) (mem : List UInt8) (turn off : ℕ) (transferLen : ℤ)

/-- A turn goes through: the frame is without an error, it lies in what is left of the transfer,
and there is memory for it. -/
def TurnAccepts : Prop :=
  (queryRxDescStatus (mem.drop off)).flagged env.mpMode = false ∧ (queryRxDescStatus (mem.drop off)).pktLen ≠ 0 ∧
    (pktOffset (queryRxDescStatus (mem.drop off)) : ℤ) ≤ transferLen ∧
    rtwOsAllocRecvframe env turn (queryRxDescStatus (mem.drop off)) = true

/-- The loop goes on behind an accepted frame. -/
def recvbufRest : RxAgg :=
  let next := nextOffset (queryRxDescStatus (mem.drop off))
  if 0 < transferLen - next then recvbufLoop env mem (turn + 1) (off + next) (transferLen - next)
  else ⟨[], [], [], [], [], transferLen - next⟩

/-- What an accepted frame adds to the rest -/
def acceptFrame (frame : ℕ) (a : RxStat) (payload : List UInt8) (rest : RxAgg) : RxAgg where
  allocated := frame :: rest.allocated
  entries := if a.c2hPacket then rest.entries else (frame, payload) :: rest.entries
  freed := if a.c2hPacket then frame :: rest.freed else rest.freed
  c2h := if a.c2hPacket then payload :: rest.c2h else rest.c2h
  reads := acceptedReads env mem turn off a ++ rest.reads
  left := rest.left

theorem recvbufLoop_cases :
    (env.allocRecvframe turn = none ∧
      recvbufLoop env mem turn off transferLen = ⟨[], [], [], [], [], transferLen⟩) ∨
    (∃ frame, env.allocRecvframe turn = some frame ∧ ¬ TurnAccepts env mem turn off transferLen ∧
      recvbufLoop env mem turn off transferLen =
        ⟨[frame], [], [frame], [], descReads off (queryRxDescStatus (mem.drop off)), transferLen⟩) ∨
    (∃ frame, env.allocRecvframe turn = some frame ∧ TurnAccepts env mem turn off transferLen ∧
      recvbufLoop env mem turn off transferLen =
        acceptFrame env mem turn off frame (queryRxDescStatus (mem.drop off))
          (slice mem (pdataOf off (queryRxDescStatus (mem.drop off))) (queryRxDescStatus (mem.drop off)).pktLen)
          (recvbufRest env mem turn off transferLen)) := by
  rw [recvbufLoop]
  split
  · rename_i hnone
    exact Or.inl ⟨hnone,rfl⟩
  · rename_i frame hframe
    right
    dsimp only
    by_cases hflag : (queryRxDescStatus (mem.drop off)).flagged env.mpMode = true
    · rw [if_pos hflag]
      exact Or.inl ⟨frame,hframe,fun h => Bool.false_ne_true (h.1.symm.trans hflag),rfl⟩
    · rw [if_neg hflag]
      by_cases hlen : (queryRxDescStatus (mem.drop off)).pktLen = 0 ∨
          transferLen < pktOffset (queryRxDescStatus (mem.drop off))
      · rw [if_pos hlen]
        refine Or.inl ⟨frame,hframe,?_,rfl⟩
        rintro ⟨-,hpos,hle,-⟩
        rcases hlen with h | h
        · exact hpos h
        · omega
      · rw [if_neg hlen]
        rw [not_or, not_lt] at hlen
        by_cases hos : rtwOsAllocRecvframe env turn (queryRxDescStatus (mem.drop off)) = true
        · rw [if_neg (by simp [hos])]
          refine Or.inr ⟨frame,hframe,⟨by simpa using hflag,hlen.1,hlen.2,hos⟩,?_⟩
          simp only [acceptFrame, recvbufRest, dite_eq_ite]
        · rw [if_pos (by simpa using hos)]
          exact Or.inl ⟨frame,hframe,fun h => hos h.2.2.2,rfl⟩

end Turn

theorem recvbufLoop_induction (mem : List UInt8) {P : ℕ → ℕ → ℤ → Prop}
    (step : ∀ (turn off : ℕ) (transferLen : ℤ),
      (0 < transferLen - nextOffset (queryRxDescStatus (mem.drop off)) →
      P (turn + 1) (off + nextOffset (queryRxDescStatus (mem.drop off)))
        (transferLen - nextOffset (queryRxDescStatus (mem.drop off)))) → P turn off transferLen)
    (turn off : ℕ) (transferLen : ℤ) : P turn off transferLen := by
  induction h : transferLen.toNat using Nat.strong_induction_on generalizing turn off transferLen with
  | _ n ih =>
    apply step
    intro hpos
    have hoff := pktOffset_lt (mem.drop off)
    have hr := rnd8_ge (pktOffset (queryRxDescStatus (mem.drop off)))
    have hn := nextOffset_eq (mem.drop off)
    exact ih _ (by omega) _ _ _ rfl

/-- Every frame that was taken is handed on or returned. -/
theorem recvbufLoop_accounted (env : RxEnv) (mem : List UInt8) (turn off : ℕ) (transferLen : ℤ) :
    (recvbufLoop env mem turn off transferLen).allocated.Perm
      ((recvbufLoop env mem turn off transferLen).entries.map (·.1) ++
        (recvbufLoop env mem turn off transferLen).freed) := by
  induction turn, off, transferLen using recvbufLoop_induction mem with
  | step turn off transferLen ih =>
    rcases recvbufLoop_cases env mem turn off transferLen with ⟨-,h⟩ | ⟨frame,-,-,h⟩ | ⟨frame,-,-,h⟩
    · rw [h]
      exact List.Perm.refl _
    · rw [h]
      exact List.Perm.refl _
    · have hrest : (recvbufRest env mem turn off transferLen).allocated.Perm
          ((recvbufRest env mem turn off transferLen).entries.map (·.1) ++
            (recvbufRest env mem turn off transferLen).freed) := by
        rw [recvbufRest]
        split
        · rename_i hpos
          exact ih hpos
        · exact List.Perm.refl _
      rw [h, acceptFrame]
      dsimp only
      split
      · exact (hrest.cons frame).trans List.perm_middle.symm
      · exact hrest.cons frame

/-- One turn leads to the next. -/
def TurnStep (env : RxEnv) (mem : List UInt8) (len : ℕ) (p q : ℕ × ℕ) : Prop :=
  env.allocRecvframe p.1 ≠ none ∧ TurnAccepts env mem p.1 p.2 (len - p.2) ∧
    p.2 + nextOffset (queryRxDescStatus (mem.drop p.2)) < len ∧
    q = (p.1 + 1, p.2 + nextOffset (queryRxDescStatus (mem.drop p.2)))

/-- The bytes of the PHY status up to the last one that is read -/
def phyStatusEnd (a : RxStat) : ℕ := if a.dataRate ≤ ODM_RATE11M then 6 else 17

/-- The bytes of the header up to the last one that is read: with the third address when it is the
BSSID -/
def hdrEnd (wlanhdr : List UInt8) (a : RxStat) : ℕ :=
  if (a.crcErr || a.icvErr) = false ∧ getFrameType wlanhdr ≠ WIFI_CTRL_TYPE ∧ getToDs wlanhdr = false ∧
    getFrDs wlanhdr = false then 22
  else 16

/-- The words of the descriptor that are looked at lie in the transfer, and so does of an accepted
frame with a PHY status what is read of that, and of the header when the transfer is shared. -/
def DescInside (env : RxEnv) (mem : List UInt8) (len : ℕ) (p : ℕ × ℕ) : Prop :=
  let a := queryRxDescStatus (mem.drop p.2)
  env.allocRecvframe p.1 ≠ none → p.2 + (if a.c2hPacket then 12 else 20) ≤ len ∧
    (TurnAccepts env mem p.1 p.2 (len - p.2) → a.c2hPacket = false → a.physt = true →
      p.2 + RXDESC_SIZE + phyStatusEnd a ≤ len ∧
        (env.skbAlloc p.1 = false → pdataOf p.2 a + hdrEnd (mem.drop (pdataOf p.2 a)) a ≤ len))

theorem readsAt_inside {base len : ℕ} {reads : List (ℕ × ℕ)} :
    (∀ r ∈ readsAt base reads, r.1 + r.2 ≤ len) ↔ ∀ r ∈ reads, base + r.1 + r.2 ≤ len := by
  simp only [readsAt, List.mem_map, forall_exists_index, and_imp, forall_apply_eq_imp_iff₂]

theorem phyStatusReads_inside (base len : ℕ) (a : RxStat) :
    (∀ r ∈ readsAt base (phyStatusReads a), r.1 + r.2 ≤ len) ↔ base + phyStatusEnd a ≤ len := by
  rw [readsAt_inside, phyStatusReads, phyStatusEnd]
  split
  · simp
    omega
  · dsimp only
    split <;> simp <;> omega

theorem hdrReads_inside (base len : ℕ) (wlanhdr : List UInt8) (a : RxStat) :
    (∀ r ∈ readsAt base (hdrReads wlanhdr a), r.1 + r.2 ≤ len) ↔ base + hdrEnd wlanhdr a ≤ len := by
  have halen : ETH_ALEN = 6 := rfl
  rw [readsAt_inside, hdrReads, hdrEnd, halen]
  cases herr : a.crcErr || a.icvErr with
  | true =>
    simp
    omega
  | false =>
    by_cases hctrl : getFrameType wlanhdr = WIFI_CTRL_TYPE
    · simp [hctrl]
      omega
    · rw [hdrBssid]
      cases hto : getToDs wlanhdr <;> cases hfr : getFrDs wlanhdr <;> simp [hctrl] <;> omega

theorem descReads_inside (off len : ℕ) (a : RxStat) :
    (∀ r ∈ descReads off a, r.1 + r.2 ≤ len) ↔ off + (if a.c2hPacket then 12 else 20) ≤ len := by
  rw [descReads]
  split
  · simp
    omega
  · simp

theorem acceptedReads_inside {env : RxEnv} {mem : List UInt8} {len turn off : ℕ}
    (hsome : env.allocRecvframe turn ≠ none) (hacc : TurnAccepts env mem turn off (len - off)) :
    (∀ r ∈ acceptedReads env mem turn off (queryRxDescStatus (mem.drop off)), r.1 + r.2 ≤ len) ↔
      DescInside env mem len (turn,off) := by
  have hle := hacc.2.2.1
  rw [acceptedReads, DescInside]
  generalize queryRxDescStatus (mem.drop off) = a at hle ⊢
  have hpay : pdataOf off a + a.pktLen ≤ len := by
    rw [pktOffset] at hle
    rw [pdataOf]
    omega
  simp only [List.mem_append, or_imp, forall_and, descReads_inside, List.mem_singleton, forall_eq, hpay, and_true,
    hsome, hacc, ne_eq, not_false_eq_true, forall_const]
  apply and_congr_right'
  cases hc : a.c2hPacket with
  | true => simp
  | false =>
    cases hphy : a.physt with
    | false => simp
    | true =>
      simp only [Bool.not_false, Bool.and_self, ↓reduceIte, List.forall_mem_append, phyStatusReads_inside,
        forall_const]
      apply and_congr_right'
      cases env.skbAlloc turn with
      | true => simp
      | false => simp only [Bool.false_eq_true, ↓reduceIte, hdrReads_inside, forall_const]

/-- What holds of every turn that is reached holds of the first, and of what its next turn reaches. -/
theorem forall_reached_iff {α : Type*} {R : α → α → Prop} {Q : α → Prop} {p : α} :
    (∀ q, Relation.ReflTransGen R p q → Q q) ↔ Q p ∧ ∀ r, R p r → ∀ q, Relation.ReflTransGen R r q → Q q := by
  constructor
  · intro h
    exact ⟨h p .refl,fun r hr q hq => h q (.head hr hq)⟩
  · rintro ⟨hp,hrest⟩ q hq
    rcases hq.cases_head with rfl | ⟨r,hstep,hrq⟩
    · exact hp
    · exact hrest r hstep q hrq

/-- Whatever is read lies in the transfer exactly when the descriptors do that are reached. -/
theorem recvbufLoop_reads (env : RxEnv) (mem : List UInt8) (len turn off : ℕ) :
    (∀ r ∈ (recvbufLoop env mem turn off (len - off)).reads, r.1 + r.2 ≤ len) ↔
      ∀ q, Relation.ReflTransGen (TurnStep env mem len) (turn,off) q → DescInside env mem len q := by
  induction h : len - off using Nat.strong_induction_on generalizing turn off with
  | _ n ih =>
    have hoff := pktOffset_lt (mem.drop off)
    have hr := rnd8_ge (pktOffset (queryRxDescStatus (mem.drop off)))
    have hn := nextOffset_eq (mem.drop off)
    rw [forall_reached_iff]
    rcases recvbufLoop_cases env mem turn off (len - off) with ⟨hnone,hloop⟩ | ⟨frame,hframe,hno,hloop⟩ |
      ⟨frame,hframe,hacc,hloop⟩
    · rw [hloop]
      exact ⟨fun _ => ⟨fun hsome => absurd hnone hsome,fun _ hstep => absurd hnone hstep.1⟩,fun _ r hr => by cases hr⟩
    · have hsome : env.allocRecvframe turn ≠ none := by
        rw [hframe]
        exact Option.some_ne_none _
      rw [hloop, descReads_inside]
      exact ⟨fun hin => ⟨fun _ => ⟨hin,fun hacc => absurd hacc hno⟩,fun _ hstep => absurd hstep.2.1 hno⟩,
        fun hin => (hin.1 hsome).1⟩
    · have hsome : env.allocRecvframe turn ≠ none := by
        rw [hframe]
        exact Option.some_ne_none _
      have hsplit : (∀ r ∈ (recvbufLoop env mem turn off (len - off)).reads, r.1 + r.2 ≤ len) ↔
          DescInside env mem len (turn,off) ∧
            ∀ r ∈ (recvbufRest env mem turn off (len - off)).reads, r.1 + r.2 ≤ len := by
        rw [hloop, ← acceptedReads_inside hsome hacc, acceptFrame]
        simp only [List.mem_append, or_imp, forall_and]
      rw [hsplit, recvbufRest]
      apply and_congr_right'
      by_cases hpos : off + nextOffset (queryRxDescStatus (mem.drop off)) < len
      · have hleft : (len : ℤ) - off - nextOffset (queryRxDescStatus (mem.drop off)) =
            len - (off + nextOffset (queryRxDescStatus (mem.drop off)) : ℕ) := by
          push_cast
          ring
        rw [if_pos (by omega), hleft, ih _ (by omega) _ _ rfl]
        exact ⟨fun hrest r hstep => hstep.2.2.2 ▸ hrest,fun hall => hall _ ⟨hsome,hacc,hpos,rfl⟩⟩
      · rw [if_neg (by omega)]
        exact ⟨fun _ r hstep => absurd hstep.2.2.1 hpos,fun _ r hr => by cases hr⟩

/-- A frame as the device puts it into a transfer: descriptor, driver information, shift and
payload, padded to eight bytes -/
structure UsbRxFrame where
  desc : List UInt8
  drvInfo : List UInt8
  shift : List UInt8
  payload : List UInt8
  pad : List UInt8
  descLen : desc.length = RXDESC_SIZE
  normal : (queryRxDescStatus desc).c2hPacket = false
  drvLen : drvInfo.length = (queryRxDescStatus desc).drvinfoSz
  shiftLen : shift.length = (queryRxDescStatus desc).shiftSz
  payloadLen : payload.length = (queryRxDescStatus desc).pktLen
  nonempty : payload ≠ []
  padLen : RXDESC_SIZE + drvInfo.length + shift.length + payload.length + pad.length =
    rnd8 (pktOffset (queryRxDescStatus desc))

namespace UsbRxFrame

def bytes (f : UsbRxFrame) : List UInt8 := f.desc ++ (f.drvInfo ++ (f.shift ++ (f.payload ++ f.pad)))

def encode (fs : List UsbRxFrame) : List UInt8 := fs.flatMap bytes

/-- The frame is dropped for an error of its own. -/
def dropped (mpMode : Bool) (f : UsbRxFrame) : Bool := (queryRxDescStatus f.desc).flagged mpMode

theorem length_bytes (f : UsbRxFrame) : f.bytes.length = nextOffset (queryRxDescStatus f.desc) := by
  rw [nextOffset_eq, ← f.padLen, bytes]
  simp only [List.length_append, f.descLen]
  omega

end UsbRxFrame

theorem queryRxDescStatus_append {desc : List UInt8} (h : desc.length = RXDESC_SIZE) (rest : List UInt8) :
    queryRxDescStatus (desc ++ rest) = queryRxDescStatus desc := by
  have hbyte : ∀ i < 24, byteAt (desc ++ rest) i = byteAt desc i := by
    intro i hi
    rw [byteAt, byteAt, List.getD_append _ _ _ _ (by rw [h]; exact hi)]
  have hbits : ∀ start ≤ 16, ∀ o l, leBitsTo4Byte (desc ++ rest) start o l = leBitsTo4Byte desc start o l := by
    intro start hs o l
    simp only [leBitsTo4Byte, hbyte start (by omega), hbyte (start + 1) (by omega), hbyte (start + 2) (by omega),
      hbyte (start + 3) (by omega)]
  simp only [queryRxDescStatus, hbits 0 (by decide), hbits 4 (by decide), hbits 8 (by decide), hbits 12 (by decide),
    hbits 16 (by decide)]

/-- There are frames and memory for the turns from `turn` on. -/
def Resources (env : RxEnv) (turn n : ℕ) : Prop :=
  ∀ t, turn ≤ t → t < turn + n → env.allocRecvframe t ≠ none ∧ env.skbAlloc t = true

namespace UsbRxFrame
variable {env : RxEnv} {mem rest : List UInt8} {turn off : ℕ} {f : UsbRxFrame}

theorem encode_cons (f : UsbRxFrame) (fs : List UsbRxFrame) : encode (f :: fs) = f.bytes ++ encode fs :=
  List.flatMap_cons

theorem bytes_pos (f : UsbRxFrame) : 0 < f.bytes.length := by
  have h24 := (pktOffset_lt f.desc).1
  have h8 := (rnd8_ge (pktOffset (queryRxDescStatus f.desc))).1
  rw [f.length_bytes, nextOffset_eq]
  omega

theorem query_at (hmem : mem.drop off = f.bytes ++ rest) :
    queryRxDescStatus (mem.drop off) = queryRxDescStatus f.desc := by
  rw [hmem, bytes, List.append_assoc]
  exact queryRxDescStatus_append f.descLen _

theorem payload_at (hmem : mem.drop off = f.bytes ++ rest) :
    slice mem (pdataOf off (queryRxDescStatus f.desc)) (queryRxDescStatus f.desc).pktLen = f.payload := by
  have hat : RXDESC_SIZE + (queryRxDescStatus f.desc).drvinfoSz + (queryRxDescStatus f.desc).shiftSz =
      (f.desc ++ (f.drvInfo ++ f.shift)).length := by
    simp only [List.length_append, f.descLen, f.drvLen, f.shiftLen]
    omega
  have hmid : mem.drop off = f.desc ++ (f.drvInfo ++ f.shift) ++ (f.payload ++ (f.pad ++ rest)) := by
    rw [hmem, bytes]
    simp only [List.append_assoc]
  rw [pdataOf, Nat.add_assoc, Nat.add_assoc, ← Nat.add_assoc RXDESC_SIZE, hat, slice, ← List.drop_drop, hmid,
    List.drop_left, ← f.payloadLen, List.take_left]

/-- A frame that lies in the transfer is accepted unless it is dropped for an error. -/
theorem accepted_iff {transferLen : ℤ} (hmem : mem.drop off = f.bytes ++ rest) (hskb : env.skbAlloc turn = true)
    (hlen : f.bytes.length ≤ transferLen) :
    TurnAccepts env mem turn off transferLen ↔ f.dropped env.mpMode = false := by
  have hr := rnd8_ge (pktOffset (queryRxDescStatus f.desc))
  have hoff : (pktOffset (queryRxDescStatus f.desc) : ℤ) ≤ transferLen := by
    rw [f.length_bytes, nextOffset_eq] at hlen
    omega
  rw [TurnAccepts, query_at hmem]
  refine ⟨fun h => h.1,fun h => ⟨h,?_,hoff,by rw [rtwOsAllocRecvframe, hskb, Bool.true_or]⟩⟩
  rw [← f.payloadLen]
  exact fun h0 => f.nonempty (List.eq_nil_of_length_eq_zero h0)

end UsbRxFrame

/-- The frames up to the first one that is dropped are delivered. -/
theorem recvbufLoop_frames {env : RxEnv} {mem tail : List UInt8} {fs : List UsbRxFrame} {turn off : ℕ}
    (hne : fs ≠ [])
    (hmem : mem.drop off = UsbRxFrame.encode fs ++ tail) (hres : Resources env turn fs.length) :
    (recvbufLoop env mem turn off (UsbRxFrame.encode fs).length).entries.map (·.2) =
        (fs.takeWhile fun f => !f.dropped env.mpMode).map (·.payload) ∧
      ((∀ f ∈ fs, f.dropped env.mpMode = false) →
        (recvbufLoop env mem turn off (UsbRxFrame.encode fs).length).left = 0) := by
  induction fs generalizing turn off with
  | nil => exact absurd rfl hne
  | cons f fs ih =>
    rw [UsbRxFrame.encode_cons, List.append_assoc] at hmem
    have hlen : (UsbRxFrame.encode (f :: fs)).length = f.bytes.length + (UsbRxFrame.encode fs).length := by
      rw [UsbRxFrame.encode_cons, List.length_append]
    obtain ⟨halloc,hskb⟩ := hres turn (Nat.le_refl _) (by simp)
    have hacc : TurnAccepts env mem turn off (UsbRxFrame.encode (f :: fs)).length ↔ f.dropped env.mpMode = false :=
      UsbRxFrame.accepted_iff hmem hskb (by omega)
    rcases recvbufLoop_cases env mem turn off (UsbRxFrame.encode (f :: fs)).length with ⟨hnone,-⟩ |
      ⟨frame,-,hno,hloop⟩ | ⟨frame,-,hyes,hloop⟩
    · exact absurd hnone halloc
    · have hdrop : f.dropped env.mpMode = true := by
        rw [hacc] at hno
        simpa using hno
      rw [hloop, List.takeWhile_cons_of_neg (by simp [hdrop])]
      refine ⟨rfl,fun hall => ?_⟩
      rw [hall f List.mem_cons_self] at hdrop
      cases hdrop
    · have hgood := hacc.mp hyes
      have hrest : (recvbufRest env mem turn off (UsbRxFrame.encode (f :: fs)).length).entries.map (·.2) =
            (fs.takeWhile fun f => !f.dropped env.mpMode).map (·.payload) ∧
          ((∀ f ∈ fs, f.dropped env.mpMode = false) →
            (recvbufRest env mem turn off (UsbRxFrame.encode (f :: fs)).length).left = 0) := by
        have hleft : ((UsbRxFrame.encode (f :: fs)).length : ℤ) - f.bytes.length = (UsbRxFrame.encode fs).length := by
          rw [hlen]
          push_cast
          ring
        rw [recvbufRest, UsbRxFrame.query_at hmem, ← f.length_bytes, hleft]
        cases fs with
        | nil => exact ⟨rfl,fun _ => rfl⟩
        | cons g fs =>
          have hpos := g.bytes_pos
          rw [if_pos (by rw [UsbRxFrame.encode_cons, List.length_append]; omega)]
          apply ih (List.cons_ne_nil _ _)
          · rw [← List.drop_drop, hmem, List.drop_left]
          · intro t h1 h2
            exact hres t (by omega) (by simp only [List.length_cons] at h2 ⊢; omega)
      rw [hloop, UsbRxFrame.query_at hmem, acceptFrame]
      dsimp only
      rw [f.normal, if_neg Bool.false_ne_true, List.takeWhile_cons_of_pos (by simp [hgood]),
        UsbRxFrame.payload_at hmem, List.map_cons, List.map_cons, hrest.1]
      exact ⟨rfl,fun hall => hrest.2 (fun g hg => hall g (List.mem_cons_of_mem _ hg))⟩

/-- Behind the first frame that is dropped there are none but such. -/
def ErrorsLast (mpMode : Bool) (fs : List UsbRxFrame) : Prop :=
  ∀ f ∈ fs.dropWhile fun f => !f.dropped mpMode, f.dropped mpMode = true

theorem errorsLast_iff (mpMode : Bool) (fs : List UsbRxFrame) :
    (fs.takeWhile fun f => !f.dropped mpMode).map (·.payload) = (fs.filter fun f => !f.dropped mpMode).map
      (·.payload) ↔ ErrorsLast mpMode fs := by
  induction fs with
  | nil => simp [ErrorsLast]
  | cons f fs ih =>
    cases hf : f.dropped mpMode with
    | false =>
      rw [ErrorsLast, List.takeWhile_cons_of_pos (by simp [hf]), List.filter_cons_of_pos (by simp [hf]),
        List.dropWhile_cons_of_pos (by simp [hf]), List.map_cons, List.map_cons, List.cons_inj_right]
      exact ih
    | true =>
      rw [ErrorsLast, List.takeWhile_cons_of_neg (by simp [hf]), List.filter_cons_of_neg (by simp [hf]),
        List.dropWhile_cons_of_neg (by simp [hf]), List.map_nil, eq_comm, List.map_eq_nil_iff, List.filter_eq_nil_iff]
      simp [hf]

/-- The call stays in the transfer, keeps no frame, and delivers the frames of a well-formed
transfer that have no error. -/
structure RxContained (env : RxEnv) (mem : List UInt8) (len : ℕ) : Prop where
  reads : ∀ r ∈ (recvbuf2recvframe env mem len).reads, r.1 + r.2 ≤ len
  accounted : (recvbuf2recvframe env mem len).allocated.Perm
    ((recvbuf2recvframe env mem len).entries.map (·.1) ++ (recvbuf2recvframe env mem len).freed)
  delivered : ∀ fs, mem.take len = UsbRxFrame.encode fs → Resources env 0 fs.length →
    (recvbuf2recvframe env mem len).entries.map (·.2) =
        (fs.filter fun f => !f.dropped env.mpMode).map (·.payload) ∧
      ((∀ f ∈ fs, f.dropped env.mpMode = false) → (recvbuf2recvframe env mem len).left = 0)

/-- The call does its work exactly when the descriptors that it reaches are complete and no
frame of a well-formed transfer stands behind one with an error. -/
theorem recvbuf_contained_iff (env : RxEnv) (mem : List UInt8) {len : ℕ} (hlen : len ≤ mem.length) :
    RxContained env mem len ↔ 16 ≤ len ∧
      (∀ q, Relation.ReflTransGen (TurnStep env mem len) (0,0) q → DescInside env mem len q) ∧
      ∀ fs, mem.take len = UsbRxFrame.encode fs → Resources env 0 fs.length → ErrorsLast env.mpMode fs := by
  have hreads : (∀ r ∈ (recvbuf2recvframe env mem len).reads, r.1 + r.2 ≤ len) ↔ 16 ≤ len ∧
      ∀ q, Relation.ReflTransGen (TurnStep env mem len) (0,0) q → DescInside env mem len q := by
    rw [← recvbufLoop_reads, recvbuf2recvframe, Nat.cast_zero, sub_zero]
    simp only [List.forall_mem_cons]
  have hframes : ∀ fs, fs ≠ [] → mem.take len = UsbRxFrame.encode fs → Resources env 0 fs.length →
      (recvbuf2recvframe env mem len).entries.map (·.2) =
          (fs.takeWhile fun f => !f.dropped env.mpMode).map (·.payload) ∧
        ((∀ f ∈ fs, f.dropped env.mpMode = false) → (recvbuf2recvframe env mem len).left = 0) := by
    intro fs hne hmem hres
    have hsize : (UsbRxFrame.encode fs).length = len := by
      rw [← hmem, List.length_take, Nat.min_eq_left hlen]
    have hall : mem.drop 0 = UsbRxFrame.encode fs ++ mem.drop len := by
      rw [List.drop_zero, ← hmem, List.take_append_drop]
    have h := recvbufLoop_frames hne hall hres
    rw [hsize] at h
    exact h
  constructor
  · intro hc
    obtain ⟨h16,hdesc⟩ := hreads.mp hc.reads
    refine ⟨h16,hdesc,?_⟩
    intro fs hmem hres
    cases fs with
    | nil =>
      intro f hf
      cases hf
    | cons f fs =>
      rw [← errorsLast_iff, ← (hframes _ (List.cons_ne_nil _ _) hmem hres).1]
      exact (hc.delivered _ hmem hres).1
  · rintro ⟨h16,hdesc,herr⟩
    refine ⟨hreads.mpr ⟨h16,hdesc⟩,recvbufLoop_accounted env mem 0 0 len,?_⟩
    intro fs hmem hres
    have hne : fs ≠ [] := by
      rintro rfl
      have hnil := congrArg List.length hmem
      rw [List.length_take, Nat.min_eq_left hlen] at hnil
      exact absurd (show len = 0 from hnil) (by omega)
    rw [← (errorsLast_iff env.mpMode fs).mpr (herr fs hmem hres)]
    exact hframes fs hne hmem hres

/-- Frames and memory are always there. -/
def plentyEnv : RxEnv where
  allocRecvframe := some
  skbAlloc := fun _ => true
  skbClone := fun _ => true
  mpMode := false

/-- A frame of four bytes; `flags` is the second byte of its descriptor. -/
def shortFrame (flags : UInt8) (h : flags = 0 ∨ flags = 0x40) : UsbRxFrame where
  desc := [4, flags] ++ List.replicate 22 0
  drvInfo := []
  shift := []
  payload := [1, 2, 3, 4]
  pad := [0, 0, 0, 0]
  descLen := rfl
  normal := by rcases h with rfl | rfl <;> decide
  drvLen := by rcases h with rfl | rfl <;> decide
  shiftLen := by rcases h with rfl | rfl <;> decide
  payloadLen := by rcases h with rfl | rfl <;> decide
  nonempty := by decide
  padLen := by rcases h with rfl | rfl <;> decide

theorem recvbuf_contained_short : RxContained plentyEnv (shortFrame 0 (Or.inl rfl)).bytes 32 := by
  have hend : ∀ q, ¬ TurnStep plentyEnv (shortFrame 0 (Or.inl rfl)).bytes 32 (0,0) q := by
    rintro q ⟨-,-,hlt,-⟩
    exact absurd hlt (by decide)
  refine (recvbuf_contained_iff plentyEnv _ (by decide)).mpr ⟨by decide,?_,?_⟩
  · intro q hq
    rcases hq.cases_head with rfl | ⟨r,hstep,-⟩
    · exact fun _ => ⟨by decide,fun _ _ hphy => absurd hphy (by decide)⟩
    · exact absurd hstep (hend r)
  · intro fs hmem _
    have hsize : ∀ gs : List UsbRxFrame, 24 * gs.length ≤ (UsbRxFrame.encode gs).length := by
      intro gs
      induction gs with
      | nil => exact Nat.le_refl 0
      | cons g gs ih =>
        have h24 := (pktOffset_lt g.desc).1
        have h8 := (rnd8_ge (pktOffset (queryRxDescStatus g.desc))).1
        rw [UsbRxFrame.encode] at ih ⊢
        rw [List.flatMap_cons, List.length_append, g.length_bytes, nextOffset_eq, List.length_cons]
        omega
    have hone := hsize fs
    rw [← hmem, List.length_take] at hone
    match fs with
    | [] => exact fun f hf => by cases hf
    | [f] =>
      intro g hg
      cases hf : f.dropped plentyEnv.mpMode with
      | false =>
        rw [List.dropWhile_cons_of_pos (by simp [hf])] at hg
        cases hg
      | true =>
        rw [List.mem_singleton.mp (List.dropWhile_sublist _ |>.subset hg)]
        exact hf
    | f :: g :: fs =>
      simp only [List.length_cons] at hone
      omega

/-- Behind a frame with a CRC error the next one is lost. -/
theorem frame_behind_error_lost :
    ¬ RxContained plentyEnv (UsbRxFrame.encode [shortFrame 0x40 (Or.inr rfl), shortFrame 0 (Or.inl rfl)]) 64 := by
  intro hc
  have hres : Resources plentyEnv 0 2 := fun t _ _ => ⟨Option.some_ne_none t,rfl⟩
  have hall := (hc.delivered [shortFrame 0x40 (Or.inr rfl), shortFrame 0 (Or.inl rfl)] (by decide) hres).1
  have hloop :=
    (@recvbufLoop_frames plentyEnv (UsbRxFrame.encode [shortFrame 0x40 (Or.inr rfl), shortFrame 0 (Or.inl rfl)])
    [] [shortFrame 0x40 (Or.inr rfl), shortFrame 0 (Or.inl rfl)] 0 0 (List.cons_ne_nil _ _) (by decide) hres).1
  exact absurd (hloop.symm.trans hall) (by decide)

end Rtl8188fu
