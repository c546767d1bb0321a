import Rtl8188fu.Xmit.FragmentWalk
import Rtl8188fu.Cfg80211.Inject
import Rtl8188fu.Usb.RxAgg

/-! # Aggregation of frames into one bulk transfer

`rtl8188fu_xmitframe_complete` from the first frame on, built with `CONFIG_USB_TX_AGGREGATION` and
`IDEA_CONDITION` and without `CONFIG_USE_USB_BUFFER_ALLOC_TX`. Places are offsets in the transmit buffer.
-/
namespace Rtl8188fu

def MAX_XMITBUF_SZ : ℕ := 20480
def MAX_TX_AGG_PACKET_NUMBER : ℕ := 0xff
def QSLT_HIGH : ℕ := 0x11

def xmitframeNeedLength (a : PktAttrib) : ℕ :=
  a.hdrlen + a.ivLen + 6 + 2 + a.pktlen + (if a.bswenc then a.icvLen else 0) + if a.encrypt = .tkip then 8 else 0

def busaggQselCheck (apState : Bool) (preQsel nextQsel : ℕ) : Bool :=
  !(apState && decide ((preQsel = QSLT_HIGH ∨ nextQsel = QSLT_HIGH) ∧ preQsel ≠ nextQsel))

structure AggFrame where
  attrib : PktAttrib
  qsel : ℕ
  /-- the packet, with its Ethernet header -/
  pkt : List UInt8
  /-- what `rtw_xmitframe_coalesce` writes, when it succeeds -/
  coalesced : Option (List TxFragment)

/-- The packet size that `rtl8188f_fill_default_txdesc` writes into the descriptor: `last_txcmdsz`, with the MIC -/
def AggFrame.txcmdsz (f : AggFrame) : ℕ := lastTxcmdsz f.attrib (f.coalesced.getD []) + micLen f.attrib

def USB_HIGH_SPEED_BULK_SIZE : ℕ := 512
def USB_FULL_SPEED_BULK_SIZE : ℕ := 64

structure AggParams where
  /-- `WIFI_AP_STATE` -/
  apState : Bool
  usbBulkOutSize : ℕ
  usbTxAggDescNum : ℕ
  bulk : usbBulkOutSize = USB_HIGH_SPEED_BULK_SIZE ∨ usbBulkOutSize = USB_FULL_SPEED_BULK_SIZE
  several : 2 ≤ usbTxAggDescNum

def interfaceConfigure (apState highSpeed : Bool) : AggParams where
  apState
  usbBulkOutSize := if highSpeed then USB_HIGH_SPEED_BULK_SIZE else USB_FULL_SPEED_BULK_SIZE
  usbTxAggDescNum := 6
  bulk := by cases highSpeed <;> simp
  several := by decide

/-- A frame in the buffer, from its descriptor on -/
structure PlacedFrame where
  offset : ℕ
  pktOffset : ℕ
  frame : AggFrame

/-- The end of the room that is left for the frame -/
def PlacedFrame.tail (x : PlacedFrame) : ℕ :=
  x.offset + (xmitframeNeedLength x.frame.attrib + (TXDESC_SIZE + x.pktOffset * PACKET_OFFSET_SZ))

def PlacedFrame.descTail (x : PlacedFrame) : ℕ :=
  x.offset + (x.frame.txcmdsz + (TXDESC_SIZE + x.pktOffset * PACKET_OFFSET_SZ))

structure Transfer where
  /-- the place of the next frame, and the end of the last one -/
  pbuf : ℕ
  pbufTail : ℕ
  bulkPtr : ℕ
  descCount : ℕ
  aggNum : ℕ
  placed : List PlacedFrame

def nextBulk (bulkSize pbuf : ℕ) : ℕ := (pbuf / bulkSize + 1) * bulkSize

def Transfer.first (p : AggParams) (f : AggFrame) : Transfer :=
  let len := xmitframeNeedLength f.attrib + TXDESC_OFFSET
  let pbuf := rnd8 len
  let fits := decide (pbuf < p.usbBulkOutSize)
  { pbuf, pbufTail := len
    bulkPtr := if fits then p.usbBulkOutSize else nextBulk p.usbBulkOutSize pbuf
    descCount := if fits then 1 else 0
    aggNum := 1
    placed := [⟨0,1,f⟩] }

/-- One frame more, behind the others -/
def Transfer.place (p : AggParams) (t : Transfer) (f : AggFrame) : Transfer :=
  let len := xmitframeNeedLength f.attrib + TXDESC_SIZE
  let pbuf := rnd8 (t.pbuf + len)
  let fits := decide (pbuf < t.bulkPtr)
  { pbuf, pbufTail := t.pbuf + len
    bulkPtr := if fits then t.bulkPtr else nextBulk p.usbBulkOutSize pbuf
    descCount := if fits then t.descCount + 1 else 0
    aggNum := t.aggNum + 1
    placed := t.placed ++ [⟨t.pbuf,0,f⟩] }

/-- The aggregation ends after a frame. The count of descriptors is compared only where it was increased. -/
def Transfer.full (p : AggParams) (t : Transfer) : Bool :=
  t.aggNum = MAX_TX_AGG_PACKET_NUMBER || (t.descCount ≠ 0 && t.descCount = p.usbTxAggDescNum)

/-- The loop over the queue that the first frame was in, with its queue selection: the transfer and what is left
of the queue. A frame that does not coalesce is dropped. -/
def aggLoop (p : AggParams) (qsel : ℕ) : List AggFrame → Transfer → Transfer × List AggFrame
  | [], t => (t,[])
  | f :: q, t =>
    if busaggQselCheck p.apState qsel f.qsel = false then (t,f :: q)
    else if MAX_XMITBUF_SZ < t.pbuf + (xmitframeNeedLength f.attrib + TXDESC_SIZE) then (t,f :: q)
    else if f.coalesced.isSome = false then aggLoop p qsel q t
    else if (t.place p f).full p then (t.place p f,q)
    else aggLoop p qsel q (t.place p f)

/-- A place counted from where the buffer is written from, once the packet offset of the first frame is removed -/
def PlacedFrame.pull (x : PlacedFrame) : PlacedFrame :=
  if x.offset = 0 then { x with pktOffset := 0 } else { x with offset := x.offset - PACKET_OFFSET_SZ }

/-- The packet offset of the first frame is removed, so that the transfer does not end with a whole bulk. -/
def Transfer.finish (p : AggParams) (t : Transfer) : Transfer :=
  if t.pbufTail % p.usbBulkOutSize = 0 then
    { t with pbufTail := t.pbufTail - PACKET_OFFSET_SZ, placed := t.placed.map PlacedFrame.pull }
  else t

/-- What `rtl8188fu_xmitframe_complete` writes to the USB FIFO, `pbufTail` bytes of it, and what is left of the
queue -/
def xmitframeComplete (p : AggParams) (f : AggFrame) (q : List AggFrame) : Transfer × List AggFrame :=
  let r := aggLoop p f.qsel q (.first p f)
  (r.1.finish p,r.2)

theorem le_rnd8 (sz : ℕ) : sz ≤ rnd8 sz := by
  unfold rnd8
  split_ifs <;> omega

theorem rnd8_lt (sz : ℕ) : rnd8 sz < sz + 8 := by
  unfold rnd8
  split_ifs <;> omega

theorem eight_dvd_rnd8 (sz : ℕ) : 8 ∣ rnd8 sz := Dvd.intro_left _ rfl

theorem rnd8_sub {sz : ℕ} (h : 8 ≤ sz) : rnd8 (sz - 8) = rnd8 sz - 8 := by
  have hmod : (sz - 8) % 8 = sz % 8 := by omega
  unfold rnd8
  rw [hmod]
  split_ifs <;> omega

/-- As long as the next place is before the end of the bulk, it is in the same bulk. -/
theorem nextBulk_eq {B a b : ℕ} (hB : 0 < B) (hab : a ≤ b) (hb : b < nextBulk B a) : b / B = a / B := by
  refine le_antisymm ?_ (Nat.div_le_div_right hab)
  exact Nat.lt_succ_iff.mp ((Nat.div_lt_iff_lt_mul hB).mpr hb)

theorem lt_of_nextBulk_le {B a b : ℕ} (hB : 0 < B) (hb : nextBulk B a ≤ b) : a / B < b / B :=
  Nat.lt_of_succ_le ((Nat.le_div_iff_mul_le hB).mpr hb)

/-- Going on from where each frame stops finds every frame up to the end. -/
structure Walk (stop : PlacedFrame → ℕ) (l : List PlacedFrame) (tail : ℕ) : Prop where
  head : ∀ x ∈ l.head?, x.offset = 0
  chain : l.IsChain fun x y => y.offset = rnd8 (stop x)
  last : ∀ x ∈ l.getLast?, stop x = tail

theorem Walk.concat {stop : PlacedFrame → ℕ} {l : List PlacedFrame} {tail : ℕ} {y : PlacedFrame}
    (h : Walk stop l tail) (hne : l ≠ []) (hy : y.offset = rnd8 tail) : Walk stop (l ++ [y]) (stop y) where
  head := fun x hx => h.head x (by rwa [List.head?_append_of_ne_nil _ hne] at hx)
  chain := by
    rw [List.isChain_append]
    refine ⟨h.chain,List.isChain_singleton _,?_⟩
    intro x hx z hz
    cases Option.some.inj hz
    rw [h.last x hx, hy]
  last := by simp

/-- The first frame, with its packet offset, or one behind it -/
def PlacedFrame.Kind (x : PlacedFrame) : Prop :=
  (x.offset = 0 ∧ x.pktOffset = 1) ∨
    (0 < x.offset ∧ 8 ∣ x.offset ∧ x.pktOffset = 0 ∧ x.tail ≤ MAX_XMITBUF_SZ)

/-- What holds whenever the loop looks at the next frame -/
structure Transfer.Laid (p : AggParams) (t : Transfer) : Prop where
  walk : Walk PlacedFrame.tail t.placed t.pbufTail
  next : t.pbuf = rnd8 t.pbufTail
  before : ∀ x ∈ t.placed, x.tail ≤ t.pbufTail
  kinds : ∀ x ∈ t.placed, x.Kind
  count : t.aggNum = t.placed.length
  some : t.placed ≠ []
  few : t.aggNum ≤ MAX_TX_AGG_PACKET_NUMBER
  /-- the bulk that the next frame starts in, and how many descriptors it has so far -/
  bulk : t.bulkPtr = nextBulk p.usbBulkOutSize t.pbuf
  desc : (t.placed.countP fun x => x.offset / p.usbBulkOutSize = t.pbuf / p.usbBulkOutSize) = t.descCount
  bulks : ∀ b, (t.placed.countP fun x => x.offset / p.usbBulkOutSize = b) ≤ p.usbTxAggDescNum

theorem AggParams.pos (p : AggParams) : 0 < p.usbBulkOutSize := by
  rcases p.bulk with h | h <;> rw [h] <;> decide

section
variable {p : AggParams} {t : Transfer}

theorem Transfer.first_laid (p : AggParams) (f : AggFrame) : (first p f).Laid p where
  walk := ⟨by simp [first],List.isChain_singleton _,by simp [first, PlacedFrame.tail, TXDESC_OFFSET]⟩
  next := rfl
  before := by simp [first, PlacedFrame.tail, TXDESC_OFFSET]
  kinds := by simp [first, PlacedFrame.Kind]
  count := rfl
  some := by simp [first]
  few := by simp [first, MAX_TX_AGG_PACKET_NUMBER]
  bulk := by
    by_cases h : (first p f).pbuf < p.usbBulkOutSize
    · have hquot : (first p f).pbuf / p.usbBulkOutSize = 0 := Nat.div_eq_of_lt h
      rw [nextBulk, hquot, Nat.zero_add, Nat.one_mul]
      exact if_pos (decide_eq_true h)
    · exact if_neg (by simpa [first] using h)
  desc := by
    have hplaced : (first p f).placed = [⟨0,1,f⟩] := rfl
    by_cases h : (first p f).pbuf < p.usbBulkOutSize
    · have hdesc : (first p f).descCount = 1 := by simpa [first] using h
      simp [hdesc, hplaced, Nat.div_eq_of_lt h]
    · have hdesc : (first p f).descCount = 0 := by simpa [first] using h
      have hpos := Nat.div_pos (not_lt.mp h) p.pos
      simp [hdesc, hplaced, hpos.ne]
  bulks := fun b => le_trans List.countP_le_length (by simpa [first] using le_trans one_le_two p.several)

theorem Transfer.lt_place (f : AggFrame) : t.pbuf < (t.place p f).pbuf := by
  have hle := le_rnd8 (t.pbuf + (xmitframeNeedLength f.attrib + TXDESC_SIZE))
  have hpos : 0 < TXDESC_SIZE := by decide
  simp only [Transfer.place]
  omega

theorem Transfer.place_same {f : AggFrame} (hlt : (t.place p f).pbuf < t.bulkPtr) :
    (t.place p f).bulkPtr = t.bulkPtr ∧ (t.place p f).descCount = t.descCount + 1 := by
  simp only [Transfer.place] at hlt
  simp [Transfer.place, hlt]

theorem Transfer.place_next {f : AggFrame} (hle : t.bulkPtr ≤ (t.place p f).pbuf) :
    (t.place p f).bulkPtr = nextBulk p.usbBulkOutSize (t.place p f).pbuf ∧ (t.place p f).descCount = 0 := by
  simp only [Transfer.place] at hle
  simp [Transfer.place, hle.not_gt]

theorem Transfer.countP_place (f : AggFrame) (b : ℕ) :
    ((t.place p f).placed.countP fun x => x.offset / p.usbBulkOutSize = b) =
      (t.placed.countP fun x => x.offset / p.usbBulkOutSize = b) + if t.pbuf / p.usbBulkOutSize = b then 1 else 0 := by
  simp [Transfer.place, List.countP_append, List.countP_singleton]

theorem Transfer.Laid.ends (h : t.Laid p) : ∀ x ∈ t.placed, x.tail ≤ t.pbuf := fun x hx =>
  (h.before x hx).trans (h.next ▸ le_rnd8 _)

theorem Transfer.Laid.pos (h : t.Laid p) : 0 < t.pbuf := by
  obtain ⟨x,hx⟩ := List.exists_mem_of_ne_nil _ h.some
  have hend := h.ends x hx
  simp only [PlacedFrame.tail, TXDESC_SIZE] at hend
  omega

theorem Transfer.Laid.bulk_place (h : t.Laid p) (f : AggFrame) :
    (t.place p f).bulkPtr = nextBulk p.usbBulkOutSize (t.place p f).pbuf := by
  rcases lt_or_ge (t.place p f).pbuf t.bulkPtr with hlt | hge
  · rw [(place_same hlt).1, nextBulk, nextBulk_eq p.pos (lt_place f).le (h.bulk ▸ hlt)]
    exact h.bulk
  · exact (place_next hge).1

theorem Transfer.Laid.desc_place (h : t.Laid p) (f : AggFrame) :
    ((t.place p f).placed.countP fun x => x.offset / p.usbBulkOutSize = (t.place p f).pbuf / p.usbBulkOutSize) =
      (t.place p f).descCount := by
  rw [countP_place]
  rcases lt_or_ge (t.place p f).pbuf t.bulkPtr with hlt | hge
  · rw [nextBulk_eq p.pos (lt_place f).le (h.bulk ▸ hlt), if_pos rfl, h.desc, (place_same hlt).2]
  · -- nothing starts in a later bulk
    have hlate := lt_of_nextBulk_le p.pos (h.bulk ▸ hge)
    have hnone :
        (t.placed.countP fun x => x.offset / p.usbBulkOutSize = (t.place p f).pbuf / p.usbBulkOutSize) = 0 := by
      rw [List.countP_eq_zero]
      intro x hx heq
      have hle : x.offset / p.usbBulkOutSize ≤ t.pbuf / p.usbBulkOutSize :=
        Nat.div_le_div_right ((Nat.le_add_right _ _).trans (h.ends x hx))
      simp only [decide_eq_true_eq] at heq
      omega
    rw [hnone, if_neg hlate.ne, (place_next hge).2]

theorem Transfer.Laid.place {f : AggFrame} (h : t.Laid p) (hfull : t.descCount < p.usbTxAggDescNum)
    (hfew : t.aggNum < MAX_TX_AGG_PACKET_NUMBER)
    (hroom : t.pbuf + (xmitframeNeedLength f.attrib + TXDESC_SIZE) ≤ MAX_XMITBUF_SZ) : (t.place p f).Laid p := by
  have htail : (⟨t.pbuf,0,f⟩ : PlacedFrame).tail = (t.place p f).pbufTail := by
    simp [PlacedFrame.tail, Transfer.place]
  have hplaced : (t.place p f).placed = t.placed ++ [⟨t.pbuf,0,f⟩] := rfl
  refine
    { walk := htail ▸ h.walk.concat h.some h.next, next := rfl, before := ?_, kinds := ?_, count := ?_,
      some := by simp [hplaced], few := hfew, bulk := h.bulk_place f, desc := h.desc_place f, bulks := ?_ }
  · intro x hx
    rcases List.mem_append.mp hx with hx | hx
    · exact (h.ends x hx).trans (Nat.le_add_right _ _)
    · rw [List.mem_singleton.mp hx, htail]
  · intro x hx
    rcases List.mem_append.mp hx with hx | hx
    · exact h.kinds x hx
    · rw [List.mem_singleton.mp hx]
      exact Or.inr ⟨h.pos,h.next ▸ eight_dvd_rnd8 _,rfl,htail.trans_le hroom⟩
  · simpa [hplaced, Transfer.place] using h.count
  · intro b
    rw [countP_place]
    split_ifs with hb
    · rw [← hb, h.desc]
      exact hfull
    · exact h.bulks b

/-- While the aggregation goes on, there is room for a descriptor more. -/
theorem Transfer.Laid.open (h : t.Laid p) (hfull : t.full p = false) :
    t.descCount < p.usbTxAggDescNum ∧ t.aggNum < MAX_TX_AGG_PACKET_NUMBER := by
  have hle : t.descCount ≤ p.usbTxAggDescNum := h.desc ▸ h.bulks _
  have hfew := h.few
  have hseveral := p.several
  simp only [Transfer.full, Bool.or_eq_false_iff, Bool.and_eq_false_iff, decide_eq_false_iff_not] at hfull
  omega

theorem Transfer.first_open (p : AggParams) (f : AggFrame) : (first p f).full p = false := by
  have hone : (first p f).descCount ≤ 1 := by
    simp only [first]
    split_ifs <;> omega
  have hseveral := p.several
  have hnum : (first p f).aggNum = 1 := rfl
  simp only [Transfer.full, hnum, MAX_TX_AGG_PACKET_NUMBER, Bool.or_eq_false_iff, Bool.and_eq_false_iff,
    decide_eq_false_iff_not]
  omega

/-- The loop keeps the frames in order, and leaves in the queue what it does not reach. -/
theorem aggLoop_laid (qsel : ℕ) (q : List AggFrame) (h : t.Laid p) (hfull : t.full p = false) :
    (aggLoop p qsel q t).1.Laid p ∧ ∃ taken, q = taken ++ (aggLoop p qsel q t).2 ∧
      (aggLoop p qsel q t).1.placed.map (·.frame) = t.placed.map (·.frame) ++ taken.filter (·.coalesced.isSome) := by
  induction q generalizing t with
  | nil => exact ⟨h,[],rfl,by simp [aggLoop]⟩
  | cons f q ih =>
    rw [aggLoop]
    split_ifs with hqsel hroom hco hlast
    · exact ⟨h,[],rfl,by simp⟩
    · exact ⟨h,[],rfl,by simp⟩
    · obtain ⟨hlaid,taken,hq,hplaced⟩ := ih h hfull
      refine ⟨hlaid,f :: taken,congrArg (f :: ·) hq,?_⟩
      simpa [hco] using hplaced
    · have hplace := h.place (h.open hfull).1 (h.open hfull).2 (not_lt.mp hroom)
      refine ⟨hplace,[f],rfl,?_⟩
      simp [Transfer.place, Bool.eq_true_of_not_eq_false hco]
    · have hplace := h.place (h.open hfull).1 (h.open hfull).2 (not_lt.mp hroom)
      obtain ⟨hlaid,taken,hq,hplaced⟩ := ih hplace (Bool.eq_false_of_not_eq_true hlast)
      refine ⟨hlaid,f :: taken,congrArg (f :: ·) hq,?_⟩
      simpa [Transfer.place, Bool.eq_true_of_not_eq_false hco] using hplaced

/-- Without the packet offset, every frame ends eight bytes earlier, and each is still found behind the one before. -/
theorem PlacedFrame.Kind.pull {x : PlacedFrame} (hx : x.Kind) :
    x.pull.tail = x.tail - 8 ∧ x.pull.offset = x.offset - 8 ∧ 8 ≤ x.tail := by
  rcases hx with ⟨hzero,hone⟩ | ⟨hpos,hdvd,hnone,-⟩
  · have hpull : x.pull = { x with pktOffset := 0 } := if_pos hzero
    simp only [hpull, PlacedFrame.tail, hzero, hone, TXDESC_SIZE, PACKET_OFFSET_SZ]
    exact ⟨by omega,trivial,by omega⟩
  · have hpull : x.pull = { x with offset := x.offset - 8 } := if_neg hpos.ne'
    have hle := Nat.le_of_dvd hpos hdvd
    simp only [hpull, PlacedFrame.tail, hnone, TXDESC_SIZE, Nat.zero_mul]
    exact ⟨by omega,trivial,by omega⟩

theorem Walk.pull {l : List PlacedFrame} {tail : ℕ} (h : Walk PlacedFrame.tail l tail)
    (hkinds : ∀ x ∈ l, x.Kind) :
    Walk PlacedFrame.tail (l.map PlacedFrame.pull) (tail - 8) where
  head := by
    intro x hx
    rw [List.head?_map] at hx
    obtain ⟨y,hy,rfl⟩ := Option.map_eq_some_iff.mp hx
    rw [(hkinds y (List.mem_of_mem_head? hy)).pull.2.1, h.head y hy]
  chain := by
    rw [List.isChain_map]
    refine h.chain.imp_of_mem_imp ?_
    intro x y hx hy hxy
    obtain ⟨htail,-,hle⟩ := (hkinds x hx).pull
    rw [(hkinds y hy).pull.2.1, htail, rnd8_sub hle, hxy]
  last := by
    intro x hx
    rw [List.getLast?_map] at hx
    obtain ⟨y,hy,rfl⟩ := Option.map_eq_some_iff.mp hx
    rw [(hkinds y (List.mem_of_mem_getLast? hy)).pull.1, h.last y hy]

theorem Walk.nodup {l : List PlacedFrame} {tail : ℕ} (h : Walk PlacedFrame.tail l tail) :
    (l.map (·.offset)).Nodup := by
  have hlt : (l.map (·.offset)).IsChain (· < ·) := by
    rw [List.isChain_map]
    refine h.chain.imp ?_
    intro x y hxy
    have hle := le_rnd8 x.tail
    simp only [PlacedFrame.tail, TXDESC_SIZE] at hle hxy
    omega
  exact (List.isChain_iff_pairwise.mp hlt).imp ne_of_lt

/-- The rooms of the frames are one behind the other, in the order of the queue, and the transfer ends with a short
bulk. All but the first are in the transmit buffer. -/
theorem rooms_found (p : AggParams) (f : AggFrame) (q : List AggFrame) :
    Walk PlacedFrame.tail (xmitframeComplete p f q).1.placed (xmitframeComplete p f q).1.pbufTail ∧
      ¬ p.usbBulkOutSize ∣ (xmitframeComplete p f q).1.pbufTail ∧
      (∀ x ∈ (xmitframeComplete p f q).1.placed, 0 < x.offset → x.tail ≤ MAX_XMITBUF_SZ) ∧
      (xmitframeComplete p f q).1.aggNum = (xmitframeComplete p f q).1.placed.length ∧
      (xmitframeComplete p f q).1.aggNum ≤ MAX_TX_AGG_PACKET_NUMBER ∧
      ∃ taken, q = taken ++ (xmitframeComplete p f q).2 ∧
        (xmitframeComplete p f q).1.placed.map (·.frame) = f :: taken.filter (·.coalesced.isSome) := by
  obtain ⟨hlaid,taken,hq,hframes⟩ := aggLoop_laid f.qsel q (Transfer.first_laid p f) (Transfer.first_open p f)
  generalize hr : aggLoop p f.qsel q (.first p f) = r at hlaid hq hframes
  have hsent : xmitframeComplete p f q = (r.1.finish p,r.2) := by rw [← hr]; rfl
  rw [hsent]
  have hframe : ∀ x : PlacedFrame, x.pull.frame = x.frame := by
    intro x
    simp only [PlacedFrame.pull]
    split_ifs <;> rfl
  by_cases hpull : r.1.pbufTail % p.usbBulkOutSize = 0
  · have hfin : r.1.finish p =
        { r.1 with pbufTail := r.1.pbufTail - 8, placed := r.1.placed.map PlacedFrame.pull } := if_pos hpull
    rw [hfin]
    refine ⟨hlaid.walk.pull hlaid.kinds,?_,?_,?_,hlaid.few,taken,hq,?_⟩
    · obtain ⟨x,hx⟩ := List.getLast?_isSome.mpr hlaid.some |> Option.isSome_iff_exists.mp
      have hle := ((hlaid.kinds x (List.mem_of_mem_getLast? hx)).pull).2.2
      rw [hlaid.walk.last x hx] at hle
      intro hdvd
      have height : p.usbBulkOutSize ∣ 8 := by
        have := Nat.dvd_sub (Nat.dvd_of_mod_eq_zero hpull) hdvd
        rwa [Nat.sub_sub_self hle] at this
      rcases p.bulk with h | h <;> rw [h] at height <;> revert height <;> decide
    · intro x hx hpos
      obtain ⟨y,hy,rfl⟩ := List.mem_map.mp hx
      obtain ⟨htail,hoff,-⟩ := (hlaid.kinds y hy).pull
      rcases hlaid.kinds y hy with ⟨hzero,-⟩ | ⟨-,-,-,hin⟩
      · omega
      · omega
    · simpa using hlaid.count
    · simpa [Function.comp_def, hframe, Transfer.first] using hframes
  · have hfin : r.1.finish p = r.1 := if_neg hpull
    rw [hfin]
    refine ⟨hlaid.walk,fun hdvd => hpull (Nat.mod_eq_zero_of_dvd hdvd),?_,hlaid.count,hlaid.few,taken,hq,hframes⟩
    intro x hx hpos
    rcases hlaid.kinds x hx with ⟨hzero,-⟩ | ⟨-,-,-,hin⟩
    · omega
    · exact hin

theorem countP_le_add {α : Type*} {a b c : α → Bool} {l : List α} (h : ∀ x ∈ l, a x → b x ∨ c x) :
    l.countP a ≤ l.countP b + l.countP c := by
  induction l with
  | nil => simp
  | cons x l ih =>
    have htail := ih fun y hy => h y (List.mem_cons_of_mem x hy)
    have hx := h x List.mem_cons_self
    simp only [List.countP_cons]
    cases ha : a x with
    | false => simp only [Bool.false_eq_true, ↓reduceIte]; omega
    | true =>
      rcases hx ha with hb | hc
      · simp only [hb, ↓reduceIte]; omega
      · simp only [hc, ↓reduceIte]; omega

/-- Eight bytes earlier, a place is in the same bulk unless it was at its start. -/
theorem div_of_pull {B o b : ℕ} (hB : 8 ∣ B) (ho : 8 ∣ o) (h : (o - 8) / B = b) :
    o / B = b ∨ o = (b + 1) * B := by
  obtain ⟨c,rfl⟩ := hB
  obtain ⟨m,rfl⟩ := ho
  have hsub : 8 * m - 8 = 8 * (m - 1) := by omega
  rw [hsub, Nat.mul_div_mul_left _ _ (by decide)] at h
  rw [Nat.mul_div_mul_left _ _ (by decide)]
  rcases Nat.eq_zero_or_pos c with rfl | hc
  · left
    simpa using h
  · have hlt : m - 1 < (b + 1) * c := Nat.lt_mul_of_div_lt (Nat.lt_succ_of_le h.le) hc
    have hle := Nat.div_mul_le_self (m - 1) c
    rw [h] at hle
    by_cases heq : m = (b + 1) * c
    · right
      rw [heq]
      ring
    · left
      refine (Nat.div_eq_iff hc).mpr ?_
      have hsucc : (b + 1) * c = b * c + c := Nat.succ_mul b c
      omega

/-- What a bulk of the transfer may hold: a descriptor more than `UsbTxAggDescNum` only where the packet offset was
removed. -/
theorem descriptors_per_bulk (p : AggParams) (f : AggFrame) (q : List AggFrame) (b : ℕ) :
    ((xmitframeComplete p f q).1.placed.countP fun x => x.offset / p.usbBulkOutSize = b) ≤
        p.usbTxAggDescNum + 1 ∧
      ((∃ x ∈ (xmitframeComplete p f q).1.placed, x.pktOffset = 1) →
        ((xmitframeComplete p f q).1.placed.countP fun x => x.offset / p.usbBulkOutSize = b) ≤
          p.usbTxAggDescNum) := by
  have hlaid := (aggLoop_laid f.qsel q (Transfer.first_laid p f) (Transfer.first_open p f)).1
  generalize hr : aggLoop p f.qsel q (.first p f) = r at hlaid
  have hsent : (xmitframeComplete p f q).1 = r.1.finish p := by rw [← hr]; rfl
  rw [hsent]
  by_cases hpull : r.1.pbufTail % p.usbBulkOutSize = 0
  · have hfin : (r.1.finish p).placed = r.1.placed.map PlacedFrame.pull := congrArg Transfer.placed (if_pos hpull)
    rw [hfin]
    constructor
    · -- what comes into a bulk is the descriptor that was at the start of the next
      have hsplit : ∀ x ∈ r.1.placed, decide (x.pull.offset / p.usbBulkOutSize = b) = true →
          decide (x.offset / p.usbBulkOutSize = b) = true ∨
            decide (x.offset = (b + 1) * p.usbBulkOutSize) = true := by
        intro x hx hb
        simp only [decide_eq_true_eq] at hb ⊢
        rw [(hlaid.kinds x hx).pull.2.1] at hb
        have hB : 8 ∣ p.usbBulkOutSize := by
          rcases p.bulk with h | h <;> rw [h] <;> decide
        rcases hlaid.kinds x hx with ⟨hzero,-⟩ | ⟨-,hdvd,-⟩
        · exact div_of_pull hB (hzero ▸ dvd_zero 8) hb
        · exact div_of_pull hB hdvd hb
      have hone : (r.1.placed.countP fun x => x.offset = (b + 1) * p.usbBulkOutSize) ≤ 1 := by
        have hcount := List.nodup_iff_count_le_one.mp hlaid.walk.nodup ((b + 1) * p.usbBulkOutSize)
        rw [List.count, List.countP_map] at hcount
        exact hcount
      rw [List.countP_map]
      exact (countP_le_add hsplit).trans (Nat.add_le_add (hlaid.bulks b) hone)
    · rintro ⟨x,hx,hone⟩
      obtain ⟨y,hy,rfl⟩ := List.mem_map.mp hx
      exfalso
      rcases hlaid.kinds y hy with ⟨hzero,-⟩ | ⟨hpos,-,hnone,-⟩
      · have hnone : y.pull.pktOffset = 0 := by rw [PlacedFrame.pull, if_pos hzero]
        omega
      · have hsame : y.pull.pktOffset = y.pktOffset := by rw [PlacedFrame.pull, if_neg hpos.ne']
        omega
  · have hfin : r.1.finish p = r.1 := if_neg hpull
    rw [hfin]
    exact ⟨(hlaid.bulks b).trans (Nat.le_succ _),fun _ => hlaid.bulks b⟩

end

/-- Six frames whose last ends with the first bulk, and a seventh that fills the second -/
example : ∃ f q, ((xmitframeComplete (interfaceConfigure false true) f q).1.placed.countP
    fun x => x.offset / 512 = 0) = 7 := by
  let sized : ℕ → AggFrame := fun n =>
    { attrib := { stationAttrib [] with hdrlen := 24, ivLen := 0, pktlen := n, encrypt := .noPrivacy, bswenc := false }
      qsel := 0
      pkt := []
      coalesced := some [] }
  refine ⟨sized 0,[sized 8,sized 8,sized 8,sized 8,sized 40,sized 440],?_⟩
  decide

section
variable {ad : XmitAdapter} {a : PktAttrib} {fragLen hw fuel memStart : ℕ} {hdr pkt : List UInt8} {first : Bool}
  {frags : List TxFragment} {sta : Option StaInfo}

theorem le_rnd4 (x : ℕ) : x ≤ rnd4 x := by
  unfold rnd4
  split_ifs <;> omega

/-- Every fragment behind the first costs the room that is left for its descriptor. -/
theorem coalesceLoop_end (h : coalesceLoop a fragLen hw hdr fuel first memStart pkt = some frags) :
    ∃ g, frags.getLast? = some g ∧
      memStart + (frags.flatMap (·.body)).length + (frags.length - 1) * hw ≤ g.start + g.body.length := by
  induction fuel generalizing first memStart pkt frags with
  | zero => cases h
  | succ fuel ih =>
    rw [coalesceLoop] at h
    dsimp only at h
    split at h
    · cases h
      exact ⟨_,rfl,by simp⟩
    · obtain ⟨rest,hrest,rfl⟩ := Option.map_eq_some_iff.mp h
      obtain ⟨g,hlast,hle⟩ := ih hrest
      obtain ⟨g',rest,rfl⟩ := List.exists_cons_of_ne_nil (coalesceLoop_ne_nil hrest)
      refine ⟨g,by rw [List.getLast?_cons_cons, hlast],?_⟩
      have hrnd := le_rnd4 (memStart + a.hdrlen + a.ivLen +
        ((if first then rtwPutSnap a.etherType else []) ++ readPayload a fragLen first pkt).length + swIcvLen a)
      simp only [List.flatMap_cons, List.length_append, List.length_cons, Nat.add_sub_cancel, Nat.add_mul]
        at hle hrnd ⊢
      omega

/-- The LLC header of a fragmented packet is not in its last fragment. -/
theorem coalesceLoop_last (h : coalesceLoop a fragLen hw hdr fuel true memStart pkt = some frags)
    (hmany : ¬ FitsOneFragment a fragLen pkt) :
    ∀ g ∈ frags.getLast?, g.body.length + 8 ≤ (frags.flatMap (·.body)).length := by
  cases fuel with
  | zero => cases h
  | succ fuel =>
    rw [coalesceLoop] at h
    dsimp only at h
    rw [if_neg fun hend => hmany ((fitsOneFragment_iff a fragLen pkt).mpr hend)] at h
    obtain ⟨rest,hrest,rfl⟩ := Option.map_eq_some_iff.mp h
    obtain ⟨g',rest,rfl⟩ := List.exists_cons_of_ne_nil (coalesceLoop_ne_nil hrest)
    intro g hg
    rw [List.getLast?_cons_cons] at hg
    have hle : g.body.length ≤ ((g' :: rest).flatMap (·.body)).length :=
      (List.sublist_flatten_of_mem (List.mem_map_of_mem (List.mem_of_mem_getLast? hg))).length_le
    rw [List.flatMap_cons, List.length_append, if_pos rfl, List.length_append, length_rtwPutSnap]
    omega

/-- The only fragment of a packet that fits, and what its descriptor says of its length -/
theorem needLength_fits (hlen : a.pktlen = pkt.length - a.pktHdrlen)
    (h : xmitframeCoalesce ad a hw fuel pkt = some (frags,sta))
    (hone : FitsOneFragment a ad.fragLen (pkt.drop a.pktHdrlen)) :
    (∀ g ∈ frags.getLast?, g.start = hw) ∧ lastTxcmdsz a frags + micLen a = xmitframeNeedLength a := by
  rw [xmitframeCoalesce] at h
  split at h
  · cases h
  · obtain ⟨frags,hloop,hr⟩ := Option.map_eq_some_iff.mp h
    cases hr
    obtain ⟨fuel,rfl⟩ : ∃ n, fuel = n + 1 := by
      cases fuel with
      | zero => cases hloop
      | succ n => exact ⟨n,rfl⟩
    have hread : readPayload a ad.fragLen true (pkt.drop a.pktHdrlen) = pkt.drop a.pktHdrlen :=
      readPayload_fits hone (by rw [hlen, List.length_drop])
    rw [coalesceLoop_fits hone, hread] at hloop
    cases hloop
    have hneed : xmitframeNeedLength a = a.hdrlen + a.ivLen + 8 + a.pktlen + swIcvLen a + micLen a := rfl
    constructor
    · intro g hg
      cases hg
      rfl
    · simp only [hneed, hlen, lastTxcmdsz, List.getLast?_singleton, Option.map_some, Option.getD_some,
        List.length_append, length_rtwPutSnap, List.length_drop]
      omega

/-- Where the last fragment of a fragmented packet ends, and that its descriptor says less than the packet needs -/
theorem needLength_many (hlen : a.pktlen = pkt.length - a.pktHdrlen)
    (h : xmitframeCoalesce ad a hw fuel pkt = some (frags,sta))
    (hmany : ¬ FitsOneFragment a ad.fragLen (pkt.drop a.pktHdrlen)) :
    (∀ g ∈ frags.getLast?, hw + hw + xmitframeNeedLength a ≤ g.start + lastTxcmdsz a frags + micLen a) ∧
      lastTxcmdsz a frags + micLen a + 8 ≤ xmitframeNeedLength a := by
  rw [xmitframeCoalesce] at h
  split at h
  · cases h
  · obtain ⟨frags,hloop,hr⟩ := Option.map_eq_some_iff.mp h
    cases hr
    have htwo := coalesceLoop_many hloop hmany
    have hmc : isMcast a.ra = false := by
      rw [FitsOneFragment] at hmany
      exact Bool.eq_false_of_not_eq_true fun hm => hmany (Or.inl hm)
    have hbody := coalesceLoop_payload hloop fun hm => absurd hm (by simp [hmc])
    obtain ⟨g,hlast,hend⟩ := coalesceLoop_end hloop
    have hllc := coalesceLoop_last hloop hmany g hlast
    have hneed : xmitframeNeedLength a = a.hdrlen + a.ivLen + 8 + a.pktlen + swIcvLen a + micLen a := rfl
    have hcost := Nat.mul_le_mul_right hw (show 1 ≤ frags.length - 1 by omega)
    have hsize : lastTxcmdsz a frags = a.hdrlen + a.ivLen + swIcvLen a + g.body.length := by
      rw [lastTxcmdsz, hlast]
      rfl
    simp only [hbody, ↓reduceIte, List.length_append, length_rtwPutSnap, List.length_drop] at hend hllc
    constructor
    · intro g' hg'
      obtain rfl : g = g' := Option.some.inj (hlast.symm.trans hg')
      omega
    · omega

/-- The room that is left for a frame is enough exactly for a packet of one fragment. A fragmented packet goes on
into the place of the next frame. -/
theorem room_enough_iff (x : PlacedFrame) (hx : x.pktOffset ≤ 1)
    (hlen : x.frame.attrib.pktlen = pkt.length - x.frame.attrib.pktHdrlen)
    (h : xmitframeCoalesce ad x.frame.attrib (hwHdrOffset x.pktOffset) fuel pkt = some (frags,sta)) :
    ((∀ g ∈ frags.getLast?, x.offset + g.start + lastTxcmdsz x.frame.attrib frags +
        micLen x.frame.attrib ≤ x.tail) ↔
        FitsOneFragment x.frame.attrib ad.fragLen (pkt.drop x.frame.attrib.pktHdrlen)) ∧
      (¬ FitsOneFragment x.frame.attrib ad.fragLen (pkt.drop x.frame.attrib.pktHdrlen) →
        ∀ g ∈ frags.getLast?, rnd8 x.tail <
          x.offset + g.start + lastTxcmdsz x.frame.attrib frags + micLen x.frame.attrib) := by
  have hhw : hwHdrOffset x.pktOffset = TXDESC_SIZE + x.pktOffset * PACKET_OFFSET_SZ := by
    refine Nat.mod_eq_of_lt ?_
    simp only [TXDESC_SIZE, PACKET_OFFSET_SZ]
    omega
  have hover : ¬ FitsOneFragment x.frame.attrib ad.fragLen (pkt.drop x.frame.attrib.pktHdrlen) →
      ∀ g ∈ frags.getLast?, rnd8 x.tail <
        x.offset + g.start + lastTxcmdsz x.frame.attrib frags + micLen x.frame.attrib := by
    intro hmany g hg
    have hend := (needLength_many hlen h hmany).1 g hg
    have hrnd := rnd8_lt x.tail
    have hsize : TXDESC_SIZE = 40 := rfl
    simp only [PlacedFrame.tail] at hrnd ⊢
    omega
  refine ⟨⟨?_,?_⟩,hover⟩
  · intro hfits
    by_contra hmany
    obtain ⟨g,hg⟩ : ∃ g, g ∈ frags.getLast? := by
      rw [xmitframeCoalesce] at h
      split at h
      · cases h
      · obtain ⟨frags,hloop,hr⟩ := Option.map_eq_some_iff.mp h
        cases hr
        exact Option.isSome_iff_exists.mp (List.getLast?_isSome.mpr (coalesceLoop_ne_nil hloop))
    exact absurd (hover hmany g hg) (not_lt.mpr ((hfits g hg).trans (le_rnd8 _)))
  · intro hone g hg
    obtain ⟨hstart,hsize⟩ := needLength_fits hlen h hone
    have := hstart g hg
    simp only [PlacedFrame.tail]
    omega

/-- A frame of the station that `rtw_xmitframe_coalesce` has written with at most two fragments -/
def stationFrame (ad : XmitAdapter) (pkt : List UInt8) : AggFrame where
  attrib := stationAttrib pkt
  qsel := 0
  pkt
  coalesced := (xmitframeCoalesce ad (stationAttrib pkt) (hwHdrOffset 1) 2 pkt).map (·.1)

theorem room_enough_aarp :
    ∃ frags sta, xmitframeCoalesce linkedStation (stationAttrib (aarpPacket ownAddr)) (hwHdrOffset 1) 1
        (aarpPacket ownAddr) = some (frags,sta) ∧
      ∀ g ∈ frags.getLast?, g.start + lastTxcmdsz (stationAttrib (aarpPacket ownAddr)) frags +
        micLen (stationAttrib (aarpPacket ownAddr)) ≤
          (⟨0,1,stationFrame linkedStation (aarpPacket ownAddr)⟩ : PlacedFrame).tail := by
  have hsome : (xmitframeCoalesce linkedStation (stationAttrib (aarpPacket ownAddr)) (hwHdrOffset 1) 1
      (aarpPacket ownAddr)).isSome = true := by decide +kernel
  obtain ⟨⟨frags,sta⟩,hco⟩ := Option.isSome_iff_exists.mp hsome
  refine ⟨frags,sta,hco,?_⟩
  have hroom := (room_enough_iff ⟨0,1,stationFrame linkedStation (aarpPacket ownAddr)⟩ le_rfl (by decide +kernel)
    hco).1.mpr (by decide +kernel)
  simpa [stationFrame] using hroom

/-- Three hundred bytes in fragments of at most 256 -/
example :
    let x : PlacedFrame := ⟨0,1,stationFrame { linkedStation with fragLen := 256 } (List.replicate 314 0)⟩
    rnd8 x.tail < (((x.frame.coalesced.getD []).getLast?.map fun g => g.start).getD 0) + x.frame.txcmdsz ∧
      rnd8 x.descTail < rnd8 x.tail := by
  decide +kernel

/-- The fragments are those of the packet, whose length is in the attributes. -/
structure AggFrame.Wrote (ad : XmitAdapter) (f : AggFrame) : Prop where
  pktlen : f.attrib.pktlen = f.pkt.length - f.attrib.pktHdrlen
  frags : ∀ frags ∈ f.coalesced, ∃ hw fuel sta, xmitframeCoalesce ad f.attrib hw fuel f.pkt = some (frags,sta)

def AggFrame.OneFragment (ad : XmitAdapter) (f : AggFrame) : Prop :=
  FitsOneFragment f.attrib ad.fragLen (f.pkt.drop f.attrib.pktHdrlen)

instance (ad : XmitAdapter) (f : AggFrame) : Decidable (f.OneFragment ad) := by
  delta AggFrame.OneFragment
  infer_instance

/-- The descriptor says where the room of a frame ends exactly for a packet of one fragment, and too little for any
other. -/
theorem PlacedFrame.descTail_eq_or (x : PlacedFrame) (hsome : x.frame.coalesced.isSome) (hw : x.frame.Wrote ad) :
    (x.frame.OneFragment ad ∧ x.descTail = x.tail) ∨ (¬ x.frame.OneFragment ad ∧ x.descTail + 8 ≤ x.tail) := by
  obtain ⟨frags,hfrags⟩ := Option.isSome_iff_exists.mp hsome
  obtain ⟨hw',fuel,sta,hco⟩ := hw.frags frags hfrags
  simp only [PlacedFrame.descTail, PlacedFrame.tail, AggFrame.txcmdsz, hfrags, Option.getD_some]
  by_cases hone : x.frame.OneFragment ad
  · have hsize := (needLength_fits hw.pktlen hco hone).2
    exact Or.inl ⟨hone,by omega⟩
  · have hsize := (needLength_many hw.pktlen hco hone).2
    exact Or.inr ⟨hone,by omega⟩

/-- A walk that never stops before the end of a room but eight bytes early at least finds the same frames exactly when
it stops at the end of each. -/
theorem Walk.congr_iff {stop stop' : PlacedFrame → ℕ} {l : List PlacedFrame} {tail : ℕ} (h : Walk stop l tail)
    (hstop : ∀ x ∈ l, stop' x = stop x ∨ stop' x + 8 ≤ stop x) :
    Walk stop' l tail ↔ ∀ x ∈ l, stop' x = stop x := by
  constructor
  · intro h' x hx
    refine (hstop x hx).resolve_right fun hearly => ?_
    obtain ⟨before,behind,rfl⟩ := List.append_of_mem hx
    cases behind with
    | nil =>
      have hlast := h.last x (by simp)
      have hlast' := h'.last x (by simp)
      omega
    | cons y behind =>
      have hnext := (List.isChain_append_cons_cons.mp h.chain).2.1
      have hnext' := (List.isChain_append_cons_cons.mp h'.chain).2.1
      have hle := le_rnd8 (stop x)
      have hlt := rnd8_lt (stop' x)
      omega
  · intro heq
    refine ⟨h.head,?_,?_⟩
    · refine h.chain.imp_of_mem_imp fun x y hx _ hxy => ?_
      rw [heq x hx, hxy]
    · intro x hx
      rw [heq x (List.mem_of_mem_getLast? hx), h.last x hx]

/-- The frames of a transfer are found from descriptor to descriptor by the packet sizes in them exactly when every
packet in it went into one fragment. -/
theorem frames_found (ad : XmitAdapter) (p : AggParams) (f : AggFrame) (q : List AggFrame)
    (hfirst : f.coalesced.isSome) (hwrote : ∀ g ∈ f :: q, g.Wrote ad) :
    (Walk PlacedFrame.descTail (xmitframeComplete p f q).1.placed (xmitframeComplete p f q).1.pbufTail ↔
        ∀ x ∈ (xmitframeComplete p f q).1.placed, x.frame.OneFragment ad) ∧
      Walk PlacedFrame.tail (xmitframeComplete p f q).1.placed (xmitframeComplete p f q).1.pbufTail ∧
      ¬ p.usbBulkOutSize ∣ (xmitframeComplete p f q).1.pbufTail ∧
      (∀ x ∈ (xmitframeComplete p f q).1.placed, 0 < x.offset → x.tail ≤ MAX_XMITBUF_SZ) ∧
      (xmitframeComplete p f q).1.aggNum = (xmitframeComplete p f q).1.placed.length ∧
      (xmitframeComplete p f q).1.aggNum ≤ MAX_TX_AGG_PACKET_NUMBER ∧
      ∃ taken, q = taken ++ (xmitframeComplete p f q).2 ∧
        (xmitframeComplete p f q).1.placed.map (·.frame) = f :: taken.filter (·.coalesced.isSome) := by
  obtain ⟨hwalk,hrest⟩ := rooms_found p f q
  have hframes : ∀ x ∈ (xmitframeComplete p f q).1.placed, x.frame.coalesced.isSome ∧ x.frame.Wrote ad := by
    obtain ⟨-,-,-,-,taken,hq,hplaced⟩ := hrest
    intro x hx
    have hmem : x.frame ∈ f :: taken.filter (·.coalesced.isSome) := hplaced ▸ List.mem_map_of_mem hx
    rcases List.mem_cons.mp hmem with hf | htaken
    · rw [hf]
      exact ⟨hfirst,hwrote f List.mem_cons_self⟩
    · obtain ⟨htaken,hsome⟩ := List.mem_filter.mp htaken
      exact ⟨hsome,hwrote _ (List.mem_cons_of_mem f (hq ▸ List.mem_append_left _ htaken))⟩
  have hdesc := fun x hx => PlacedFrame.descTail_eq_or x (hframes x hx).1 (hframes x hx).2
  refine ⟨?_,hwalk,hrest⟩
  rw [hwalk.congr_iff fun x hx => (hdesc x hx).imp And.right And.right]
  refine forall₂_congr fun x hx => ?_
  rcases hdesc x hx with ⟨hone,heq⟩ | ⟨hmany,hearly⟩
  · exact iff_of_true heq hone
  · exact iff_of_false (by omega) hmany

/-- Two packets of the same station in one transfer -/
theorem frames_found_aarp :
    Walk PlacedFrame.descTail
      (xmitframeComplete (interfaceConfigure false true) (stationFrame linkedStation (aarpPacket ownAddr))
        [stationFrame linkedStation (aarpPacket ownAddr)]).1.placed
      (xmitframeComplete (interfaceConfigure false true) (stationFrame linkedStation (aarpPacket ownAddr))
        [stationFrame linkedStation (aarpPacket ownAddr)]).1.pbufTail := by
  have hwrote : (stationFrame linkedStation (aarpPacket ownAddr)).Wrote linkedStation := by
    refine ⟨by decide +kernel,?_⟩
    intro frags hfrags
    have hmap : (xmitframeCoalesce linkedStation (stationAttrib (aarpPacket ownAddr)) (hwHdrOffset 1) 2
        (aarpPacket ownAddr)).map (·.1) = some frags := hfrags
    obtain ⟨⟨frags,sta⟩,hco,rfl⟩ := Option.map_eq_some_iff.mp hmap
    exact ⟨_,_,sta,hco⟩
  refine (frames_found linkedStation (interfaceConfigure false true) (stationFrame linkedStation (aarpPacket ownAddr))
    [stationFrame linkedStation (aarpPacket ownAddr)] (by decide +kernel) ?_).1.mpr (by decide +kernel)
  intro g hg
  rcases List.mem_pair.mp hg with rfl | rfl <;> exact hwrote

end
end Rtl8188fu
