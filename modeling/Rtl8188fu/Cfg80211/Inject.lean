import Rtl8188fu.Include.RtwXmit

/-! # Frames that come from above

`rtw_cfg80211_monitor_if_xmit_entry` and `_cfg80211_rtw_mgmt_tx` up to the point where the frame is handed on. What
they do is a list of events; a place is an offset from the first byte of the packet that they were given.
-/
namespace Rtl8188fu
open Bytes

def MAX_XMIT_EXTBUF_SZ : ℕ := 1536
def TXDESC_OFFSET : ℕ := TXDESC_SIZE + PACKET_OFFSET_SZ

def RTW_IEEE80211_FTYPE_MGMT : ℕ := 0x0000
def RTW_IEEE80211_FTYPE_CTL : ℕ := 0x0004
def RTW_IEEE80211_FTYPE_DATA : ℕ := 0x0008

/-- The size of `struct ieee80211_radiotap_header` -/
def RADIOTAP_HDR_SZ : ℕ := 8

inductive InjectEvent
  | read (o : ℕ)
  | write (o : ℕ)
  /-- bytes go into the transmit buffer behind the descriptor -/
  | copy (n : ℕ)
  /-- `dump_mgntframe` of the copy, with the sequence number that `mgnt_seq` is set to before it is counted up -/
  | send (frame : List UInt8) (seqnum : ℕ)
  /-- `_rtw_xmit_entry` -/
  | pass (frame : List UInt8)
  /-- `rtw_skb_free` -/
  | free
deriving DecidableEq

/-- The memory from the first byte of the packet on, with the part of it that belongs to the packet by now -/
structure MonitorSkb where
  mem : List UInt8
  data : ℕ
  len : ℕ

def skbPull (skb : MonitorSkb) (n : ℕ) : MonitorSkb :=
  if skb.len < n then skb else { skb with data := skb.data + n, len := skb.len - n }

/-- The header length of a data frame without its QoS control -/
def dot11HdrLen (frame : List UInt8) : ℕ := if getToDs frame = true ∧ getFrDs frame = true then 24 + 6 else 24

def qosLen (frame : List UInt8) : ℕ := if (le16At frame 0).testBit 7 then 2 else 0

/-- Both functions copy a management frame of which `len` bytes are given. -/
def mgntFrameEvents (off : ℕ) (frame : List UInt8) (len : ℕ) : List InjectEvent :=
  (List.range' off len).map .read ++ [.copy len,.send (frame.take len) (getSequence (frame.take len))]

/-- The data frames of `rtw_cfg80211_monitor_if_xmit_entry` -/
def dataFrameEvents (skb : MonitorSkb) : List InjectEvent :=
  let frame := skb.mem.drop skb.data
  let dstMacAddr := getAddr1Ptr frame
  let srcMacAddr := getAddr2Ptr frame
  let skb' := skbPull skb (dot11HdrLen frame + qosLen frame + SNAP_SIZE - ETH_ALEN * 2)
  (List.range' (skb.data + 4) (ETH_ALEN * 2)).map .read ++ (List.range' skb'.data (ETH_ALEN * 2)).map .write ++
    [.pass ((patch (skb'.mem.drop skb'.data) 0 (dstMacAddr ++ srcMacAddr)).take skb'.len)]

/-- `rtw_cfg80211_monitor_if_xmit_entry` behind the radiotap header; `alloc` when `alloc_mgtxmitframe` gives a frame -/
def monitorFrameEvents (alloc : Bool) (skb : MonitorSkb) : List InjectEvent :=
  let frame := skb.mem.drop skb.data
  [.read skb.data,.read (skb.data + 1)] ++
    if getFrameType frame = RTW_IEEE80211_FTYPE_DATA then dataFrameEvents skb
    else if getFrameType frame = RTW_IEEE80211_FTYPE_MGMT then
      if alloc then mgntFrameEvents skb.data frame skb.len ++ [.free] else [.free]
    else [.free]

/-- `rtw_cfg80211_monitor_if_xmit_entry` for a packet of `len` bytes -/
def monitorIfXmitEntry (alloc : Bool) (mem : List UInt8) (len : ℕ) : List InjectEvent :=
  if len < RADIOTAP_HDR_SZ then [.free]
  else if byteAt mem 0 ≠ 0 then [.read 0,.free]
  else
    let rtapLen := le16At mem 2
    [.read 0,.read 2,.read 3] ++
      if len < rtapLen then [.free] else monitorFrameEvents alloc (skbPull ⟨mem,0,len⟩ rtapLen)

/-- `_cfg80211_rtw_mgmt_tx`. What `rtw_xframe_chk_wfd_ie` does to the WFD element of the copy before it is sent is left
out. -/
def cfg80211RtwMgmtTx (alloc : Bool) (mem : List UInt8) (len : ℕ) : List InjectEvent :=
  if alloc then mgntFrameEvents 0 mem len else []

/-- The length of the 802.11 header by its type and flags -/
def announcedHdrLen (frame : List UInt8) : ℕ :=
  if getFrameType frame = RTW_IEEE80211_FTYPE_DATA then dot11HdrLen frame + qosLen frame
  else if getFrameType frame = RTW_IEEE80211_FTYPE_CTL then
    -- CTS and ACK have one address only
    if getFrameSubType frame = 0xc4 ∨ getFrameSubType frame = 0xd4 then 10 else 16
  else 24

/-- What is done to the frame at the end of a packet of `limit` bytes is contained. -/
structure FrameContained (limit : ℕ) (frame : List UInt8) (evs : List InjectEvent) : Prop where
  reads : ∀ o, .read o ∈ evs → o < limit
  writes : ∀ o, .write o ∈ evs → o < limit
  copied : ∀ n, .copy n ∈ evs → n ≤ MAX_XMIT_EXTBUF_SZ - TXDESC_OFFSET
  shortDropped : frame.length < announcedHdrLen frame → (∀ n, .copy n ∉ evs) ∧ ∀ out, .pass out ∉ evs
  payload : ∀ out, .pass out ∈ evs → ∃ hdr snap rest, frame = hdr ++ snap ++ rest ∧
    hdr.length = announcedHdrLen frame ∧
    snap.length = SNAP_SIZE ∧ out.length = ETH_ALEN * 2 + rest.length ∧ out.drop (ETH_ALEN * 2) = rest

/-- The packet is given away by this. -/
def InjectEvent.disposes : InjectEvent → Bool
  | .pass _ => true
  | .free => true
  | _ => false

/-- A management frame of this length can be copied. -/
def MgntLenFits (hdrLen len : ℕ) : Prop := hdrLen ≤ len ∧ len ≤ MAX_XMIT_EXTBUF_SZ - TXDESC_OFFSET

/-- The frame behind the radiotap header is as long as its type needs it, and not too long to be copied. -/
def FrameFits (alloc : Bool) (frame : List UInt8) : Prop :=
  2 ≤ frame.length ∧
    (getFrameType frame = RTW_IEEE80211_FTYPE_DATA → announcedHdrLen frame + SNAP_SIZE ≤ frame.length) ∧
    (getFrameType frame = RTW_IEEE80211_FTYPE_MGMT → alloc = true → MgntLenFits 24 frame.length)

/-- The packet is dropped for its radiotap header, or the frame behind that fits. -/
def PacketFits (alloc : Bool) (pkt : List UInt8) : Prop :=
  pkt.length < RADIOTAP_HDR_SZ ∨ byteAt pkt 0 ≠ 0 ∨ pkt.length < le16At pkt 2 ∨
    FrameFits alloc (pkt.drop (le16At pkt 2))

section Frame
variable {alloc : Bool} {frame frame' beyond mem : List UInt8} {off n len : ℕ}

theorem frame_flags_congr (h : le16At frame 0 = le16At frame' 0) :
    getFrameType frame = getFrameType frame' ∧ dot11HdrLen frame = dot11HdrLen frame' ∧
    qosLen frame = qosLen frame' := by
  have hto : getToDs frame = getToDs frame' := congrArg (·.testBit 8) h
  have hfr : getFrDs frame = getFrDs frame' := congrArg (·.testBit 9) h
  refine ⟨?_,?_,?_⟩
  · rw [getFrameType, getFrameType, h]
  · rw [dot11HdrLen, dot11HdrLen, hto, hfr]
  · rw [qosLen, qosLen, h]

theorem le16At_zero_append (h : 2 ≤ frame.length) : le16At (frame ++ beyond) 0 = le16At frame 0 := by
  rw [le16At, le16At, byteAt_append, if_pos (by omega), byteAt_append, if_pos (by omega)]

theorem mem_mgntFrameEvents {e : InjectEvent} :
    e ∈ mgntFrameEvents off frame len ↔ (∃ o, off ≤ o ∧ o < off + len ∧ e = .read o) ∨ e = .copy len ∨
      e = .send (frame.take len) (getSequence (frame.take len)) := by
  simp only [mgntFrameEvents, List.mem_append, List.mem_map, List.mem_range'_1, List.mem_cons,
    List.not_mem_nil, or_false, and_assoc, eq_comm]

/-- What is done with a management frame that is copied is contained exactly when its length fits. -/
theorem mgntFrame_contained_iff {evs : List InjectEvent} (hcopied : mgntFrameEvents off frame' frame.length ⊆ evs)
    (hevs : ∀ e ∈ evs, e ∈ mgntFrameEvents off frame' frame.length ∨ e = .free ∨
      ∃ o < off + frame.length, e = .read o) :
    FrameContained (off + frame.length) frame evs ↔ MgntLenFits (announcedHdrLen frame) frame.length := by
  constructor
  · intro h
    have hcopy : InjectEvent.copy frame.length ∈ evs := hcopied (mem_mgntFrameEvents.mpr (.inr (.inl rfl)))
    refine ⟨?_,h.copied _ hcopy⟩
    by_contra hshort
    exact (h.shortDropped (Nat.lt_of_not_le hshort)).1 _ hcopy
  · rintro ⟨hhdr,hfits⟩
    have hmem : ∀ e ∈ evs, e = .free ∨ (∃ o < off + frame.length, e = .read o) ∨ e = .copy frame.length ∨
        ∃ f n, e = .send f n := by
      intro e he
      rcases hevs e he with he | rfl | hread
      · rcases mem_mgntFrameEvents.mp he with ⟨o,-,ho,rfl⟩ | rfl | rfl
        · exact .inr (.inl ⟨o,ho,rfl⟩)
        · exact .inr (.inr (.inl rfl))
        · exact .inr (.inr (.inr ⟨_,_,rfl⟩))
      · exact .inl rfl
      · exact .inr (.inl hread)
    constructor
    · intro o ho
      rcases hmem _ ho with h | ⟨o',ho',h⟩ | h | ⟨f,n,h⟩ <;> cases h
      exact ho'
    · intro o ho
      rcases hmem _ ho with h | ⟨o',ho',h⟩ | h | ⟨f,n,h⟩ <;> cases h
    · intro n hn
      rcases hmem _ hn with h | ⟨o',ho',h⟩ | h | ⟨f,n,h⟩ <;> cases h
      exact hfits
    · intro hshort
      omega
    · intro out hout
      rcases hmem _ hout with h | ⟨o',ho',h⟩ | h | ⟨f,n,h⟩ <;> cases h

theorem dropped_contained {evs : List InjectEvent} {limit : ℕ}
    (h : ∀ e ∈ evs, e = .free ∨ ∃ o < limit, e = .read o) :
    FrameContained limit frame evs := by
  constructor
  · intro o ho
    rcases h _ ho with h | ⟨o',ho',h⟩ <;> cases h
    exact ho'
  · intro o ho
    rcases h _ ho with h | ⟨o',ho',h⟩ <;> cases h
  · intro n hn
    rcases h _ hn with h | ⟨o',ho',h⟩ <;> cases h
  · intro _
    constructor
    · intro n hn
      rcases h _ hn with h | ⟨o',ho',h⟩ <;> cases h
    · intro out hout
      rcases h _ hout with h | ⟨o',ho',h⟩ <;> cases h
  · intro out hout
    rcases h _ hout with h | ⟨o',ho',h⟩ <;> cases h

theorem announcedHdrLen_data (h : getFrameType frame = RTW_IEEE80211_FTYPE_DATA) :
    announcedHdrLen frame = dot11HdrLen frame + qosLen frame := if_pos h

theorem hdrLen_ge (frame : List UInt8) : 24 ≤ dot11HdrLen frame + qosLen frame := by
  unfold dot11HdrLen
  split <;> omega

/-- A data frame with its SNAP header is passed on with two addresses in place of what was in front of the payload. -/
theorem dataFrame_out (hmem : mem.drop off = frame ++ beyond)
    (hlen : dot11HdrLen frame + qosLen frame + SNAP_SIZE ≤ frame.length) :
    let n := dot11HdrLen frame + qosLen frame + SNAP_SIZE - ETH_ALEN * 2
    (patch (mem.drop (off + n)) 0 (getAddr1Ptr frame ++ getAddr2Ptr frame)).take (frame.length - n) =
      getAddr1Ptr frame ++ getAddr2Ptr frame ++ frame.drop (dot11HdrLen frame + qosLen frame + SNAP_SIZE) := by
  have h24 := hdrLen_ge frame
  have hsnap : SNAP_SIZE = 6 := rfl
  have heth : ETH_ALEN = 6 := rfl
  intro n
  have haddrs : (getAddr1Ptr frame ++ getAddr2Ptr frame).length = 12 := by
    rw [List.length_append, getAddr1Ptr, getAddr2Ptr, length_slice_of_le (by omega), length_slice_of_le (by omega)]
    rfl
  have hdrop : mem.drop (off + n) = (frame.drop n).take 12 ++ (frame.drop (n + 12) ++ beyond) := by
    rw [← List.drop_drop, hmem, List.drop_append_of_le_length (by omega), ← List.drop_drop, ← List.append_assoc,
      List.take_append_drop]
  have hpatch := @patch_middle UInt8 [] ((frame.drop n).take 12) (frame.drop (n + 12) ++ beyond)
      (getAddr1Ptr frame ++ getAddr2Ptr frame)
    (by rw [haddrs, List.length_take, List.length_drop]; omega)
  rw [List.nil_append, List.nil_append, List.length_nil] at hpatch
  have hn : n + 12 = dot11HdrLen frame + qosLen frame + SNAP_SIZE := by omega
  rw [hdrop, hpatch, ← List.append_assoc, hn,
    List.take_left' (by rw [List.length_append, haddrs, List.length_drop]; omega)]

theorem take_slice_drop (frame : List UInt8) (k n : ℕ) :
    frame.take k ++ slice frame k n ++ frame.drop (k + n) = frame := by
  rw [List.append_assoc, slice, ← List.drop_drop, List.take_append_drop, List.take_append_drop]

/-- What is done with a data frame is contained exactly when its SNAP header is there. -/
theorem dataFrame_contained_iff {evs : List InjectEvent} (hmem : mem.drop off = frame ++ beyond)
    (htype : getFrameType frame = RTW_IEEE80211_FTYPE_DATA) (h2 : 2 ≤ frame.length)
    (hpassed : dataFrameEvents ⟨mem,off,frame.length⟩ ⊆ evs)
    (hevs : ∀ e ∈ evs, e ∈ dataFrameEvents ⟨mem,off,frame.length⟩ ∨
      ∃ o < off + frame.length, e = .read o) :
    FrameContained (off + frame.length) frame evs ↔ announcedHdrLen frame + SNAP_SIZE ≤ frame.length := by
  have hsnap : SNAP_SIZE = 6 := rfl
  have heth : ETH_ALEN = 6 := rfl
  have hflags := frame_flags_congr (@le16At_zero_append frame beyond h2)
  constructor
  · intro h
    have hpass : ∃ out, InjectEvent.pass out ∈ evs :=
      ⟨_,hpassed (List.mem_append_right _ (List.mem_singleton.mpr rfl))⟩
    obtain ⟨out,hout⟩ := hpass
    obtain ⟨hdr,snap,rest,hframe,hhdr,hs,-⟩ := h.payload out hout
    rw [hframe, List.length_append, List.length_append, ← hframe, hhdr, hs]
    omega
  · intro hlen
    rw [announcedHdrLen_data htype] at hlen
    have h24 := hdrLen_ge frame
    have hout := dataFrame_out hmem hlen
    let n := dot11HdrLen frame + qosLen frame + SNAP_SIZE - ETH_ALEN * 2
    have haddr1 : getAddr1Ptr (frame ++ beyond) = getAddr1Ptr frame := slice_append_left (by omega)
    have haddr2 : getAddr2Ptr (frame ++ beyond) = getAddr2Ptr frame := slice_append_left (by omega)
    have hpull : skbPull ⟨mem,off,frame.length⟩ n = ⟨mem,off + n,frame.length - n⟩ :=
      if_neg (show ¬frame.length < n by omega)
    have heq : dataFrameEvents ⟨mem,off,frame.length⟩ =
        (List.range' (off + 4) (ETH_ALEN * 2)).map .read ++ (List.range' (off + n) (ETH_ALEN * 2)).map .write ++
          [.pass (getAddr1Ptr frame ++ getAddr2Ptr frame ++
            frame.drop (dot11HdrLen frame + qosLen frame + SNAP_SIZE))] := by
      rw [dataFrameEvents]
      simp only [hmem, hflags.2.1, hflags.2.2, haddr1, haddr2]
      rw [hpull, ← hout]
    have hmem' : ∀ e ∈ evs, (∃ o < off + frame.length, e = .read o) ∨
        (∃ o < off + frame.length, e = .write o) ∨
        e = .pass (getAddr1Ptr frame ++ getAddr2Ptr frame ++
          frame.drop (dot11HdrLen frame + qosLen frame + SNAP_SIZE)) := by
      intro e he
      rcases hevs e he with he | he
      · rw [heq, List.mem_append, List.mem_append, List.mem_map, List.mem_map, List.mem_singleton] at he
        rcases he with (⟨o,ho,rfl⟩ | ⟨o,ho,rfl⟩) | rfl
        · rw [List.mem_range'_1] at ho
          exact .inl ⟨o,by omega,rfl⟩
        · rw [List.mem_range'_1] at ho
          exact .inr (.inl ⟨o,by omega,rfl⟩)
        · exact .inr (.inr rfl)
      · exact .inl he
    constructor
    · intro o ho
      rcases hmem' _ ho with ⟨o',ho',h⟩ | ⟨o',ho',h⟩ | h <;> cases h
      exact ho'
    · intro o ho
      rcases hmem' _ ho with ⟨o',ho',h⟩ | ⟨o',ho',h⟩ | h <;> cases h
      exact ho'
    · intro n hn
      rcases hmem' _ hn with ⟨o',ho',h⟩ | ⟨o',ho',h⟩ | h <;> cases h
    · intro hshort
      rw [announcedHdrLen_data htype] at hshort
      omega
    · intro out hout
      rcases hmem' _ hout with ⟨o',ho',h⟩ | ⟨o',ho',h⟩ | h <;> cases h
      have haddrs : (getAddr1Ptr frame ++ getAddr2Ptr frame).length = ETH_ALEN * 2 := by
        rw [List.length_append, getAddr1Ptr, getAddr2Ptr, length_slice_of_le (by omega), length_slice_of_le (by omega)]
        rfl
      refine ⟨frame.take (dot11HdrLen frame + qosLen frame),slice frame (dot11HdrLen frame + qosLen frame) SNAP_SIZE,
        frame.drop (dot11HdrLen frame + qosLen frame + SNAP_SIZE),?_,?_,?_,?_,?_⟩
      · exact (take_slice_drop frame _ _).symm
      · rw [announcedHdrLen_data htype, List.length_take]
        omega
      · exact length_slice_of_le (by omega)
      · rw [List.length_append, haddrs]
      · rw [← haddrs, List.drop_left]

theorem monitorFrameEvents_eq (hmem : mem.drop off = frame ++ beyond) (h2 : 2 ≤ frame.length) :
    monitorFrameEvents alloc ⟨mem,off,frame.length⟩ = [.read off,.read (off + 1)] ++
      if getFrameType frame = RTW_IEEE80211_FTYPE_DATA then dataFrameEvents ⟨mem,off,frame.length⟩
      else if getFrameType frame = RTW_IEEE80211_FTYPE_MGMT then
        if alloc then mgntFrameEvents off (frame ++ beyond) frame.length ++ [.free] else [.free]
      else [.free] := by
  have htype := (frame_flags_congr (@le16At_zero_append frame beyond h2)).1
  rw [monitorFrameEvents]
  simp only [hmem, htype]

/-- What is done to the frame behind the radiotap header is contained exactly when the frame fits. -/
theorem monitorFrameEvents_contained_iff {evs : List InjectEvent} (hmem : mem.drop off = frame ++ beyond)
    (hdone : monitorFrameEvents alloc ⟨mem,off,frame.length⟩ ⊆ evs)
    (hevs : ∀ e ∈ evs, e ∈ monitorFrameEvents alloc ⟨mem,off,frame.length⟩ ∨
      ∃ o < off + frame.length, e = .read o) :
    FrameContained (off + frame.length) frame evs ↔ FrameFits alloc frame := by
  by_cases h2 : 2 ≤ frame.length
  · have hctl : ∀ e ∈ [InjectEvent.read off,.read (off + 1)], ∃ o < off + frame.length, e = .read o := by
      intro e he
      simp only [List.mem_cons, List.not_mem_nil, or_false] at he
      rcases he with rfl | rfl
      · exact ⟨off,by omega,rfl⟩
      · exact ⟨off + 1,by omega,rfl⟩
    rw [monitorFrameEvents_eq hmem h2] at hdone hevs
    rw [FrameFits, and_iff_right h2]
    by_cases hdata : getFrameType frame = RTW_IEEE80211_FTYPE_DATA
    · have hmgmt : getFrameType frame ≠ RTW_IEEE80211_FTYPE_MGMT := by rw [hdata]; decide
      rw [if_pos hdata] at hdone hevs
      rw [dataFrame_contained_iff hmem hdata h2 fun e he => hdone (List.mem_append_right _ he)]
      · exact ⟨fun h => ⟨fun _ => h,fun h => absurd h hmgmt⟩,fun h => h.1 hdata⟩
      · intro e he
        rcases hevs e he with he | hread
        · exact (List.mem_append.mp he).symm.imp_right (hctl e)
        · exact .inr hread
    · rw [if_neg hdata] at hdone hevs
      rw [and_iff_right fun h => absurd h hdata]
      by_cases hcopied : getFrameType frame = RTW_IEEE80211_FTYPE_MGMT ∧ alloc = true
      · obtain ⟨hmgmt,halloc⟩ := hcopied
        have hhdr : announcedHdrLen frame = 24 := by
          rw [announcedHdrLen, if_neg hdata, if_neg (by rw [hmgmt]; decide)]
        rw [if_pos hmgmt, if_pos halloc] at hdone hevs
        rw [mgntFrame_contained_iff fun e he => hdone (List.mem_append_right _ (List.mem_append_left _ he)), hhdr]
        · exact ⟨fun h _ _ => h,fun h => h hmgmt halloc⟩
        · intro e he
          rcases hevs e he with he | hread
          · rcases List.mem_append.mp he with he | he
            · exact .inr (.inr (hctl e he))
            · exact (List.mem_append.mp he).imp_right fun h => .inl (List.mem_singleton.mp h)
          · exact .inr (.inr hread)
      · have hdropped : (if getFrameType frame = RTW_IEEE80211_FTYPE_MGMT then
            if alloc then mgntFrameEvents off (frame ++ beyond) frame.length ++ [.free] else [.free]
          else [InjectEvent.free]) = [.free] := by
          split
          · rename_i hmgmt
            exact if_neg fun halloc => hcopied ⟨hmgmt,halloc⟩
          · rfl
        rw [hdropped] at hevs
        refine iff_of_true ?_ fun hmgmt halloc => absurd ⟨hmgmt,halloc⟩ hcopied
        apply dropped_contained
        intro e he
        rcases hevs e he with he | hread
        · rcases List.mem_append.mp he with he | he
          · exact .inr (hctl e he)
          · exact .inl (List.mem_singleton.mp he)
        · exact .inr hread
  · refine iff_of_false ?_ fun h => h2 h.1
    intro h
    have hread := h.reads (off + 1) (hdone (by simp [monitorFrameEvents]))
    omega

theorem monitorFrameEvents_disposes (alloc : Bool) (skb : MonitorSkb) :
    (monitorFrameEvents alloc skb).countP InjectEvent.disposes = 1 := by
  have hreads : ∀ os : List ℕ, (os.map InjectEvent.read).countP InjectEvent.disposes = 0 := by
    intro os
    rw [List.countP_map, List.countP_eq_zero]
    exact fun _ _ => Bool.false_ne_true
  have hwrites : ∀ os : List ℕ, (os.map InjectEvent.write).countP InjectEvent.disposes = 0 := by
    intro os
    rw [List.countP_map, List.countP_eq_zero]
    exact fun _ _ => Bool.false_ne_true
  unfold monitorFrameEvents
  dsimp only
  split_ifs <;> simp only [dataFrameEvents, mgntFrameEvents, List.countP_append, hreads, hwrites] <;> rfl

end Frame

/-- What `rtw_cfg80211_monitor_if_xmit_entry` does with a packet is contained. -/
def MonitorContained (alloc : Bool) (pkt beyond : List UInt8) : Prop :=
  FrameContained pkt.length (pkt.drop (le16At pkt 2)) (monitorIfXmitEntry alloc (pkt ++ beyond) pkt.length) ∧
    (monitorIfXmitEntry alloc (pkt ++ beyond) pkt.length).countP InjectEvent.disposes = 1

/-- What `_cfg80211_rtw_mgmt_tx` does with a buffer is contained. -/
def MgmtTxContained (alloc : Bool) (buf beyond : List UInt8) : Prop :=
  FrameContained buf.length buf (cfg80211RtwMgmtTx alloc (buf ++ beyond) buf.length)

theorem monitorContained_iff (alloc : Bool) (pkt beyond : List UInt8) :
    MonitorContained alloc pkt beyond ↔ PacketFits alloc pkt := by
  unfold MonitorContained monitorIfXmitEntry
  by_cases h8 : pkt.length < RADIOTAP_HDR_SZ
  · rw [if_pos h8]
    exact iff_of_true ⟨dropped_contained fun e he => .inl (List.mem_singleton.mp he),rfl⟩ (.inl h8)
  · have hsz : RADIOTAP_HDR_SZ = 8 := rfl
    have h0 : byteAt (pkt ++ beyond) 0 = byteAt pkt 0 := by rw [byteAt_append, if_pos (by omega)]
    have hlen : le16At (pkt ++ beyond) 2 = le16At pkt 2 := by
      rw [le16At, le16At, byteAt_append, if_pos (by omega), byteAt_append, if_pos (by omega)]
    have hread : ∀ o < 4, ∃ o' < pkt.length, InjectEvent.read o = .read o' := fun o ho => ⟨o,by omega,rfl⟩
    rw [if_neg h8, h0, hlen]
    by_cases hv : byteAt pkt 0 = 0
    · rw [if_neg (not_not_intro hv)]
      dsimp only
      have hctl : ∀ e ∈ [InjectEvent.read 0,.read 2,.read 3], ∃ o < pkt.length, e = .read o := by
        intro e he
        simp only [List.mem_cons, List.not_mem_nil, or_false] at he
        rcases he with rfl | rfl | rfl <;> exact hread _ (by omega)
      by_cases hrtap : pkt.length < le16At pkt 2
      · rw [if_pos hrtap]
        refine iff_of_true ⟨dropped_contained ?_,rfl⟩ (.inr (.inr (.inl hrtap)))
        intro e he
        rcases List.mem_append.mp he with he | he
        · exact .inr (hctl e he)
        · exact .inl (List.mem_singleton.mp he)
      · have hpull : skbPull ⟨pkt ++ beyond,0,pkt.length⟩ (le16At pkt 2) =
            ⟨pkt ++ beyond,le16At pkt 2,(pkt.drop (le16At pkt 2)).length⟩ := by
          rw [skbPull, if_neg hrtap, Nat.zero_add, List.length_drop]
        have hmem : (pkt ++ beyond).drop (le16At pkt 2) = pkt.drop (le16At pkt 2) ++ beyond :=
          List.drop_append_of_le_length (Nat.le_of_not_lt hrtap)
        have hlimit : le16At pkt 2 + (pkt.drop (le16At pkt 2)).length = pkt.length := by
          rw [List.length_drop]
          omega
        rw [if_neg hrtap, hpull, List.countP_append, monitorFrameEvents_disposes]
        have hframe := @monitorFrameEvents_contained_iff alloc _ _ _ _
          ([.read 0,.read 2,.read 3] ++ monitorFrameEvents alloc
            ⟨pkt ++ beyond,le16At pkt 2,(pkt.drop (le16At pkt 2)).length⟩) hmem
          (fun e he => List.mem_append_right _ he) fun e he => by
            rw [hlimit]
            exact (List.mem_append.mp he).symm.imp_right (hctl e)
        rw [hlimit] at hframe
        rw [hframe, PacketFits]
        simp [h8, hv, hrtap, InjectEvent.disposes]
    · rw [if_pos hv]
      refine iff_of_true ⟨dropped_contained ?_,rfl⟩ (.inr (.inl hv))
      intro e he
      simp only [List.mem_cons, List.not_mem_nil, or_false] at he
      rcases he with rfl | rfl
      · exact .inr (hread _ (by omega))
      · exact .inl rfl

theorem mgmtTxContained_iff (alloc : Bool) (buf beyond : List UInt8) :
    MgmtTxContained alloc buf beyond ↔ (alloc = true → MgntLenFits (announcedHdrLen buf) buf.length) := by
  unfold MgmtTxContained cfg80211RtwMgmtTx
  cases alloc with
  | false =>
    refine iff_of_true ?_ nofun
    exact dropped_contained nofun
  | true =>
    have := @mgntFrame_contained_iff buf (buf ++ beyond) 0 (mgntFrameEvents 0 (buf ++ beyond) buf.length)
        (fun _ h => h) fun _ h => .inl h
    rw [Nat.zero_add] at this
    rw [if_pos rfl, this]
    exact ⟨fun h _ => h,fun h => h rfl⟩

end Rtl8188fu
