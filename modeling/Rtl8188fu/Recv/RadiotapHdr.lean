import Rtl8188fu.Recv.Radiotap

/-! # The radiotap header of the monitor mode

`fill_radiotap_hdr` on a little-endian host. It fills `hdr_buf` at an offset that it moves on, and pushes what it has
filled in front of the frame. A write outside the buffer has no result.
-/
namespace Rtl8188fu
open Bytes AlignedFields Radiotap

def DESC_RATEVHTSS4MCS9 : UInt8 := 0x53

/-- The fields of `rx_pkt_attrib` that the header is made of, as wide as the receive descriptor has them -/
structure MonitorAttrib where
  tsfl : UInt32
  encrypt : UInt8
  mfrag : UInt8
  crcErr : UInt8
  sgi : UInt8
  stbc : UInt8
  ldpc : UInt8
  bw : UInt8
  dataRate : UInt8
  recvSignalPower : Int8
  mfragBit : mfrag ≤ 1
  crcErrBit : crcErr ≤ 1
  sgiBit : sgi ≤ 1
  stbcBit : stbc ≤ 1
  ldpcBit : ldpc ≤ 1
  bwBits : bw ≤ 3
  rateIs : dataRate ≤ DESC_RATEVHTSS4MCS9

/-- What else the header depends on: the channel, one of the 2.4 GHz band, and `CurrentBandType` -/
structure MonitorChannel where
  operCh : UInt8
  currentBandType : UInt8
  isChannel : 1 ≤ operCh ∧ operCh ≤ 14

namespace Radiotap

def F_WEP : UInt8 := 0x04
def F_FRAG : UInt8 := 0x08
def F_FCS : UInt8 := 0x10
def F_BADFCS : UInt8 := 0x40

end Radiotap

def IEEE80211_CHAN_CCK : ℕ := 0x20
def IEEE80211_CHAN_OFDM : ℕ := 0x40
def IEEE80211_CHAN_2GHZ : ℕ := 0x80
def IEEE80211_CHAN_5GHZ : ℕ := 0x100
def IEEE80211_CHAN_DYN : ℕ := 0x400

def dataRateTable : List UInt8 :=
  [2,4,11,22,
    12,18,24,36,48,72,93,108,
    0,1,2,3,4,5,6,7,8,9,10,11,12,13,14,15,
    16,17,18,19,20,21,22,23,24,25,26,27,28,29,30,31,
    0,1,2,3,4,5,6,7,8,9,
    0,1,2,3,4,5,6,7,8,9,
    0,1,2,3,4,5,6,7,8,9,
    0,1,2,3,4,5,6,7,8,9]

def chan2freq (a : ℕ) : ℕ := if a < 14 then 2407 + 5 * a else 5000 + 5 * a

/-- `hdr_buf` and `rt_len` -/
structure RtapHdr where
  hdrBuf : List UInt8
  rtLen : ℕ

namespace RtapHdr
variable (h : RtapHdr)

/-- A buffer of zeros; `it_version` is 0. -/
def init : RtapHdr := ⟨List.replicate 64 0,8⟩

/-- `hdr_buf[rt_len + k] |= v` -/
def orAt (k : ℕ) (v : UInt8) : Option RtapHdr :=
  if h.rtLen + k < h.hdrBuf.length then some
    { h with hdrBuf := h.hdrBuf.set (h.rtLen + k) (byteAt h.hdrBuf (h.rtLen + k) ||| v) }
  else none

/-- `memcpy(&hdr_buf[rt_len], bytes, ...)`, for one byte `hdr_buf[rt_len] = v` -/
def copy (bytes : List UInt8) : Option RtapHdr :=
  if h.rtLen + bytes.length ≤ h.hdrBuf.length then some { h with hdrBuf := patch h.hdrBuf h.rtLen bytes } else none

/-- `rt_len += n` -/
def advance (n : ℕ) : RtapHdr := { h with rtLen := h.rtLen + n }

/-- `it_present |= (1 << bit)`, a word that begins at the fourth byte -/
def present (bit : ℕ) : RtapHdr :=
  { h with hdrBuf := h.hdrBuf.set (4 + bit / 8) (byteAt h.hdrBuf (4 + bit / 8) ||| UInt8.ofNat (2 ^ (bit % 8))) }

end RtapHdr

section Parts
variable (p : MonitorAttrib) (ch : MonitorChannel) (h : RtapHdr)

def rtapTsft : Option RtapHdr :=
  if p.tsfl ≠ 0 then do
    let h ← (h.present TSFT).copy (leBytes 8 p.tsfl.toNat)
    return h.advance 8
  else some h

def rtapFlags : Option RtapHdr := do
  let h ← (h.present FLAGS).orAt 0 (if p.encrypt = 1 ∨ p.encrypt = 5 then F_WEP else 0)
  let h ← h.orAt 0 (if p.mfrag ≠ 0 then F_FRAG else 0)
  let h ← h.orAt 0 F_FCS
  let h ← h.orAt 0 (if p.crcErr ≠ 0 then F_BADFCS else 0)
  let h ← h.orAt 0 (if p.sgi ≠ 0 then 0x80 else 0)
  return h.advance 1

/-- The byte is passed over when there is no rate. -/
def rtapRate : Option RtapHdr := do
  let h ← if p.dataRate < 12 then (h.present RATE).copy [byteAt dataRateTable p.dataRate.toNat] else some h
  return h.advance 1

def rtapChannelFlags : ℕ :=
  (if ch.currentBandType = 0 then IEEE80211_CHAN_2GHZ else IEEE80211_CHAN_5GHZ) |||
    (if p.dataRate < 12 then if p.dataRate < 4 then IEEE80211_CHAN_CCK else IEEE80211_CHAN_OFDM else IEEE80211_CHAN_DYN)

def rtapChannel : Option RtapHdr := do
  let h ← (h.present CHANNEL).copy (leBytes 2 (chan2freq ch.operCh.toNat))
  let h ← (h.advance 2).copy (leBytes 2 (rtapChannelFlags p ch))
  return h.advance 2

/-- The signal, the antenna and the flags of the receiver -/
def rtapSignal : Option RtapHdr := do
  let h ← (h.present DBM_ANTSIGNAL).copy [p.recvSignalPower.toUInt8]
  let h ← ((h.advance 1).present ANTENNA).copy [0]
  return ((h.advance 1).present RX_FLAGS).advance 2

def rtapMcs : Option RtapHdr :=
  if 12 ≤ p.dataRate ∧ p.dataRate < 44 then do
    let h ← (h.present MCS).orAt 0 0x02
    let h ← h.orAt 0 0x01
    let h ← h.orAt 1 (p.bw &&& 0x03)
    let h ← h.orAt 0 0x04
    let h ← h.orAt 1 ((p.sgi &&& 0x01) <<< 2)
    let h ← h.orAt 0 0x20
    let h ← h.orAt 1 ((p.stbc &&& 0x03) <<< 5)
    let h ← (h.advance 2).copy [byteAt dataRateTable p.dataRate.toNat]
    return h.advance 1
  else some h

/-- The place of `mcs_nss` that is filled, with the number of streams -/
def vhtStreams : ℕ × UInt8 :=
  if p.dataRate < 54 then (0,1) else if p.dataRate < 64 then (1,2) else if p.dataRate < 74 then (2,3) else (3,4)

def rtapVht : Option RtapHdr :=
  if 44 ≤ p.dataRate ∧ p.dataRate < 84 then do
    let h ← (h.present VHT).orAt 2 (p.stbc &&& 0x01)
    let h ← h.orAt 2 ((p.sgi &&& 0x01) <<< 2)
    let h ← h.orAt 2 ((p.ldpc &&& 0x01) <<< 4)
    let h ← h.copy (leBytes 2 (0x40 ||| 0x80 ||| 0x100 ||| 0x01 ||| 0x04 ||| 0x10))
    let h ← (h.advance 3).orAt 0 (if p.bw = 1 then 1 else if p.bw = 2 then 4 else if p.bw = 3 then 11 else 0)
    let h ← (h.advance 1).orAt (vhtStreams p).1 (vhtStreams p).2
    let h ← h.orAt (vhtStreams p).1 (byteAt dataRateTable p.dataRate.toNat <<< 4)
    let h ← (h.advance 4).copy [0]
    let h ← (h.advance 1).copy [0]
    let h ← (h.advance 1).copy (leBytes 2 0)
    return h.advance 2
  else some h

/-- What is in `hdr_buf` when it is pushed -/
def rtapFill : Option RtapHdr := do
  let h ← rtapTsft p .init
  let h ← rtapFlags p h
  let h ← rtapRate p h
  let h ← rtapChannel p ch h
  let h ← rtapSignal p h
  let h ← rtapMcs p h
  rtapVht p h

/-- `fill_radiotap_hdr`: the status, and the frame with what is in front of it -/
def fillRadiotapHdr (headroom : ℕ) (frame : List UInt8) : Option (Bool × List UInt8) := do
  let h ← rtapFill p ch
  if headroom < h.rtLen then return (false,frame)
  else return (true,(patch h.hdrBuf 2 (leBytes 2 h.rtLen)).take h.rtLen ++ frame)

end Parts

/-- A buffer whose first 8 bytes are `head`, that is filled with `pre` up to `rt_len` and with `pend` behind it, and
has `m` zeros left -/
def RtapHdr.built (head pre pend : List UInt8) (m : ℕ) : RtapHdr :=
  ⟨head ++ (pre ++ (pend ++ List.replicate m 0)),8 + pre.length⟩

section Built
variable {head pre pend bytes : List UInt8} {m n k bit : ℕ} {v : UInt8}

theorem built_orAt (hhead : head.length = 8) (hk : k < pend.length) :
    (RtapHdr.built head pre pend m).orAt k v = some (RtapHdr.built head pre (pend.set k (byteAt pend k ||| v)) m) := by
  have hat : byteAt (head ++ (pre ++ (pend ++ List.replicate m 0))) (8 + pre.length + k) = byteAt pend k := by
    rw [byteAt_append, if_neg (by omega), byteAt_append, if_neg (by omega), byteAt_append, if_pos (by omega)]
    congr 1
    omega
  have hset : ∀ w, (head ++ (pre ++ (pend ++ List.replicate m 0))).set (8 + pre.length + k) w =
      head ++ (pre ++ (pend.set k w ++ List.replicate m 0)) := by
    intro w
    rw [List.set_append_right _ _ (by omega), List.set_append_right _ _ (by omega), List.set_append_left _ _ (by omega)]
    congr 4
    omega
  rw [RtapHdr.orAt, RtapHdr.built, if_pos (by simp only [List.length_append, List.length_replicate]; omega)]
  dsimp only
  rw [hat, hset]
  rfl

theorem built_copy (hhead : head.length = 8) (hbytes : bytes.length ≤ pend.length) :
    (RtapHdr.built head pre pend m).copy bytes = some (RtapHdr.built head pre (bytes ++ pend.drop bytes.length) m) := by
  have hpatch : patch (head ++ (pre ++ (pend ++ List.replicate m 0))) (8 + pre.length) bytes =
      head ++ (pre ++ (bytes ++ pend.drop bytes.length ++ List.replicate m 0)) := by
    rw [patch, ← List.append_assoc head, ← hhead, ← List.length_append, List.take_left]
    have hfit : bytes.take ((head ++ pre ++ (pend ++ List.replicate m 0)).length - (head ++ pre).length) = bytes := by
      apply List.take_of_length_le
      simp only [List.length_append]
      omega
    rw [hfit, ← List.drop_drop, List.drop_left, List.drop_append_of_le_length hbytes]
    simp only [List.append_assoc]
  rw [RtapHdr.copy, RtapHdr.built, if_pos (by simp only [List.length_append, List.length_replicate]; omega)]
  dsimp only
  rw [hpatch]
  rfl

theorem built_advance (hn : n ≤ pend.length) :
    (RtapHdr.built head pre pend m).advance n = RtapHdr.built head (pre ++ pend.take n) (pend.drop n) m := by
  rw [RtapHdr.advance, RtapHdr.built, RtapHdr.built, List.length_append, List.length_take, Nat.min_eq_left hn,
    ← Nat.add_assoc]
  congr 2
  rw [List.append_assoc, ← List.append_assoc (pend.take n), List.take_append_drop]

/-- What `it_present |= (1 << bit)` makes of the first 8 bytes -/
def presentIn (head : List UInt8) (bit : ℕ) : List UInt8 :=
  head.set (4 + bit / 8) (byteAt head (4 + bit / 8) ||| UInt8.ofNat (2 ^ (bit % 8)))

@[simp] theorem length_presentIn : (presentIn head bit).length = head.length := List.length_set

theorem built_present (hhead : head.length = 8) (hbit : bit < 32) :
    (RtapHdr.built head pre pend m).present bit = RtapHdr.built (presentIn head bit) pre pend m := by
  rw [RtapHdr.present, RtapHdr.built, RtapHdr.built, presentIn]
  dsimp only
  rw [byteAt_append, if_pos (by omega), List.set_append_left _ _ (by omega)]

theorem built_room : RtapHdr.built head pre [] (m + n) = RtapHdr.built head pre (List.replicate n 0) m := by
  rw [RtapHdr.built, RtapHdr.built, List.nil_append, List.replicate_append_replicate, Nat.add_comm]

end Built

theorem byteAt_cons_zero {a : UInt8} {l : List UInt8} : byteAt (a :: l) 0 = a := rfl

theorem byteAt_cons_succ {a : UInt8} {l : List UInt8} {k : ℕ} : byteAt (a :: l) (k + 1) = byteAt l k := rfl

section Fill
variable {p : MonitorAttrib} {ch : MonitorChannel} {head pre : List UInt8} {m : ℕ}

/-- The flags of the frame, with the guard interval -/
def flagsByte (p : MonitorAttrib) : UInt8 :=
  (if p.encrypt = 1 ∨ p.encrypt = 5 then F_WEP else 0) ||| (if p.mfrag ≠ 0 then F_FRAG else 0) ||| F_FCS |||
    (if p.crcErr ≠ 0 then F_BADFCS else 0) ||| (if p.sgi ≠ 0 then 0x80 else 0)

theorem rtapTsft_built (hhead : head.length = 8) : rtapTsft p (.built head pre [] (m + 8)) =
    some (if p.tsfl ≠ 0 then .built (presentIn head TSFT) (pre ++ leBytes 8 p.tsfl.toNat) [] m
      else .built head pre [] (m + 8)) := by
  have hhead' : (presentIn head TSFT).length = 8 := length_presentIn.trans hhead
  rw [rtapTsft]
  split
  · rw [built_present hhead (by decide), built_room, built_copy hhead' (by simp), Option.bind_eq_bind,
      Option.bind_some, built_advance (by simp)]
    rfl
  · rfl

theorem rtapFlags_built (hhead : head.length = 8) : rtapFlags p (.built head pre [] (m + 1)) =
    some (.built (presentIn head FLAGS) (pre ++ [flagsByte p]) [] m) := by
  have hhead' : (presentIn head FLAGS).length = 8 := length_presentIn.trans hhead
  rw [rtapFlags, built_present hhead (by decide), built_room]
  simp (disch := simp [hhead']) only [built_orAt, Option.bind_eq_bind, Option.bind_some, built_advance]
  simp only [List.replicate_one, List.set_cons_zero, byteAt_cons_zero, UInt8.zero_or]
  rfl

def rateByte (p : MonitorAttrib) : UInt8 := byteAt dataRateTable p.dataRate.toNat

theorem rtapRate_built (hhead : head.length = 8) : rtapRate p (.built head pre [] (m + 1)) =
    some (if p.dataRate < 12 then .built (presentIn head RATE) (pre ++ [rateByte p]) [] m
      else .built head (pre ++ [0]) [] m) := by
  have hhead' : (presentIn head RATE).length = 8 := length_presentIn.trans hhead
  rw [rtapRate, Option.bind_eq_bind]
  split
  · rw [built_present hhead (by decide), built_room, built_copy hhead' (by simp), Option.bind_some]
    dsimp only
    rw [built_advance (by simp)]
    rfl
  · rw [built_room, Option.bind_some]
    dsimp only
    rw [built_advance (by simp)]
    rfl

theorem rtapChannel_built (hhead : head.length = 8) : rtapChannel p ch (.built head pre [] (m + 4)) =
    some (.built (presentIn head CHANNEL)
      (pre ++ (leBytes 2 (chan2freq ch.operCh.toNat) ++ leBytes 2 (rtapChannelFlags p ch))) [] m) := by
  have hhead' : (presentIn head CHANNEL).length = 8 := length_presentIn.trans hhead
  rw [rtapChannel, built_present hhead (by decide), built_room]
  simp (disch := simp [hhead']) only [built_copy, Option.bind_eq_bind, Option.bind_some, built_advance]
  simp [leBytes]

theorem rtapSignal_built (hhead : head.length = 8) : rtapSignal p (.built head pre [] (m + 4)) =
    some (.built (presentIn (presentIn (presentIn head DBM_ANTSIGNAL) ANTENNA) RX_FLAGS)
      (pre ++ [p.recvSignalPower.toUInt8,0,0,0]) [] m) := by
  have hhead' : (presentIn head DBM_ANTSIGNAL).length = 8 := length_presentIn.trans hhead
  have hhead'' : (presentIn (presentIn head DBM_ANTSIGNAL) ANTENNA).length = 8 := length_presentIn.trans hhead'
  rw [rtapSignal, built_present hhead (by decide), built_room]
  simp (disch := simp [hhead']) only [built_copy, Option.bind_eq_bind, Option.bind_some, built_advance]
  rw [built_present hhead' (by decide)]
  simp (disch := simp [hhead'']) only [built_copy, Option.bind_some, built_advance]
  rw [built_present hhead'' (by decide), built_advance (by simp)]
  simp

def mcsFlags (p : MonitorAttrib) : UInt8 :=
  (p.bw &&& (0x03 : UInt8)) ||| (p.sgi &&& (0x01 : UInt8)) <<< 2 ||| (p.stbc &&& (0x03 : UInt8)) <<< 5

theorem rtapMcs_built (hhead : head.length = 8) : rtapMcs p (.built head pre [] (m + 3)) =
    some (if 12 ≤ p.dataRate ∧ p.dataRate < 44 then .built (presentIn head MCS)
      (pre ++ [0x27,mcsFlags p,rateByte p]) [] m
      else .built head pre [] (m + 3)) := by
  have hhead' : (presentIn head MCS).length = 8 := length_presentIn.trans hhead
  rw [rtapMcs]
  split
  · rw [built_present hhead (by decide), built_room, show List.replicate 3 (0 : UInt8) = [0,0,0] from rfl]
    simp (disch := simp [hhead']) only [built_orAt, built_copy, Option.bind_eq_bind, Option.bind_some, built_advance]
    simp only [List.set_cons_zero, List.set_cons_succ, byteAt_cons_zero, byteAt_cons_succ, UInt8.zero_or,
      List.append_assoc]
    rfl
  · rfl

def vhtFlags (p : MonitorAttrib) : UInt8 :=
  (p.stbc &&& (0x01 : UInt8)) ||| (p.sgi &&& (0x01 : UInt8)) <<< 2 ||| (p.ldpc &&& (0x01 : UInt8)) <<< 4

def vhtBandwidth (p : MonitorAttrib) : UInt8 := if p.bw = 1 then 1 else if p.bw = 2 then 4
    else if p.bw = 3 then 11 else 0

def mcsNss (p : MonitorAttrib) : List UInt8 :=
  ([0,0,0,0] : List UInt8).set (vhtStreams p).1 ((vhtStreams p).2 ||| rateByte p <<< 4)

def vhtBytes (p : MonitorAttrib) : List UInt8 := [0xd5,0x01,vhtFlags p,vhtBandwidth p] ++ mcsNss p ++ [0,0,0,0]

theorem vhtStreams_lt (p : MonitorAttrib) : (vhtStreams p).1 < 4 := by
  rw [vhtStreams]
  split_ifs <;> decide

theorem length_vhtBytes (p : MonitorAttrib) : (vhtBytes p).length = 12 := by
  simp [vhtBytes, mcsNss]

theorem rtapVht_skip {h : RtapHdr} (hrate : ¬(44 ≤ p.dataRate ∧ p.dataRate < 84)) : rtapVht p h = some h :=
  if_neg hrate

theorem rtapVht_built (hhead : head.length = 8) : rtapVht p (.built head pre [] (m + 12)) =
    some (if 44 ≤ p.dataRate ∧ p.dataRate < 84 then .built (presentIn head VHT) (pre ++ vhtBytes p) [] m
      else .built head pre [] (m + 12)) := by
  have hhead' : (presentIn head VHT).length = 8 := length_presentIn.trans hhead
  rw [rtapVht]
  split
  · rw [built_present hhead (by decide), built_room,
      show List.replicate 12 (0 : UInt8) = [0,0,0,0,0,0,0,0,0,0,0,0] from rfl]
    have hlt := vhtStreams_lt p
    rw [vhtBytes, mcsNss]
    generalize vhtStreams p = s at hlt
    obtain ⟨k,v⟩ := s
    have hknown : leBytes 2 (0x40 ||| 0x80 ||| 0x100 ||| 0x01 ||| 0x04 ||| 0x10) = [0xd5,0x01] := by decide
    have hzero : leBytes 2 0 = [0,0] := rfl
    rw [hknown, hzero]
    interval_cases k <;>
      simp (disch := simp [hhead']) only [built_orAt, built_copy, Option.bind_eq_bind, Option.bind_some, built_advance,
        List.set_cons_zero, List.set_cons_succ, List.length_cons, List.length_nil, List.cons_append, List.nil_append,
        List.drop_succ_cons, List.drop_zero, byteAt_cons_zero, byteAt_cons_succ, UInt8.zero_or, List.append_assoc]
    all_goals rfl
  · rfl

/-- The fields of the header by their bits -/
def rtapValues (p : MonitorAttrib) (ch : MonitorChannel) (bit : ℕ) : Option (List UInt8) :=
  if bit = TSFT then if p.tsfl ≠ 0 then some (leBytes 8 p.tsfl.toNat) else none
  else if bit = FLAGS then some [flagsByte p]
  else if bit = RATE then if p.dataRate < 12 then some [rateByte p] else none
  else if bit = CHANNEL then some (leBytes 2 (chan2freq ch.operCh.toNat) ++ leBytes 2 (rtapChannelFlags p ch))
  else if bit = DBM_ANTSIGNAL then some [p.recvSignalPower.toUInt8]
  else if bit = ANTENNA then some [0]
  else if bit = RX_FLAGS then some [0,0]
  else if bit = MCS then if 12 ≤ p.dataRate ∧ p.dataRate < 44 then some [0x27,mcsFlags p,rateByte p] else none
  else if bit = VHT then if 44 ≤ p.dataRate ∧ p.dataRate < 84 then some (vhtBytes p) else none
  else none

/-- The first 8 bytes say which fields there are. -/
structure IsHead (p : MonitorAttrib) (ch : MonitorChannel) (head : List UInt8) : Prop where
  length : head.length = 8
  version : byteAt head 0 = 0
  known : leNat (slice head 4 4) < 2 ^ 22
  present : ∀ s ∈ slots, (leNat (slice head 4 4)).testBit s.bit = (rtapValues p ch s.bit).isSome

/-- The rates of a frame are legacy, HT or VHT rates. -/
theorem rate_family (p : MonitorAttrib) :
    (p.dataRate < 12 ∧ ¬(12 ≤ p.dataRate ∧ p.dataRate < 44) ∧ ¬(44 ≤ p.dataRate ∧ p.dataRate < 84)) ∨
      (¬p.dataRate < 12 ∧ (12 ≤ p.dataRate ∧ p.dataRate < 44) ∧ ¬(44 ≤ p.dataRate ∧ p.dataRate < 84)) ∨
      ¬p.dataRate < 12 ∧ ¬(12 ≤ p.dataRate ∧ p.dataRate < 44) ∧ 44 ≤ p.dataRate ∧ p.dataRate < 84 := by
  have hle := p.rateIs
  simp only [UInt8.lt_iff_toNat_lt, UInt8.le_iff_toNat_le] at hle ⊢
  have h83 : DESC_RATEVHTSS4MCS9.toNat = 83 := rfl
  have h12 : UInt8.toNat 12 = 12 := rfl
  have h44 : UInt8.toNat 44 = 44 := rfl
  have h84 : UInt8.toNat 84 = 84 := rfl
  omega

/-- The bits that are set behind the one of the time stamp -/
def rtapBits (p : MonitorAttrib) : List ℕ :=
  FLAGS :: ((if p.dataRate < 12 then [RATE] else []) ++ ([CHANNEL,DBM_ANTSIGNAL,ANTENNA,RX_FLAGS] ++
    ((if 12 ≤ p.dataRate ∧ p.dataRate < 44 then [MCS] else []) ++ (if 44 ≤ p.dataRate ∧
      p.dataRate < 84 then [VHT] else []))))

/-- The bytes that are filled behind the time stamp -/
def rtapBytes (p : MonitorAttrib) (ch : MonitorChannel) : List UInt8 :=
  [flagsByte p,if p.dataRate < 12 then rateByte p else 0] ++ (leBytes 2 (chan2freq ch.operCh.toNat) ++
    leBytes 2 (rtapChannelFlags p ch)) ++ [p.recvSignalPower.toUInt8,0,0,0] ++
    ((if 12 ≤ p.dataRate ∧ p.dataRate < 44 then [0x27,mcsFlags p,rateByte p] else []) ++
      (if 44 ≤ p.dataRate ∧ p.dataRate < 84 then vhtBytes p else []))

theorem rtapRest_built (hhead : head.length = 8) : ∃ m', (do
      let h ← rtapFlags p (.built head pre [] (m + 22))
      let h ← rtapRate p h
      let h ← rtapChannel p ch h
      let h ← rtapSignal p h
      let h ← rtapMcs p h
      rtapVht p h) = some (.built ((rtapBits p).foldl presentIn head) (pre ++ rtapBytes p ch) [] m') ∧
    (rtapBytes p ch).length + m' = m + 22 := by
  rw [rtapFlags_built hhead, Option.bind_eq_bind, Option.bind_some, rtapBits, rtapBytes]
  rcases rate_family p with ⟨h1,h2,h3⟩ | ⟨h1,h2,h3⟩ | ⟨h1,h2,h3⟩
  · refine ⟨m + 12,?_,?_⟩
    · simp (disch := simp [hhead]) only [rtapRate_built, rtapChannel_built, rtapSignal_built, rtapMcs_built,
        rtapVht_skip h3, Option.bind_some, if_pos h1, if_neg h2, if_neg h3]
      simp
    · simp [h1, h2, h3]
      omega
  · refine ⟨m + 9,?_,?_⟩
    · simp (disch := simp [hhead]) only [rtapRate_built, rtapChannel_built, rtapSignal_built, rtapMcs_built,
        rtapVht_skip h3, Option.bind_some, if_neg h1, if_pos h2, if_neg h3]
      simp
    · simp [h1, h2, h3]
      omega
  · refine ⟨m,?_,?_⟩
    · simp (disch := simp [hhead]) only [rtapRate_built, rtapChannel_built, rtapSignal_built, rtapMcs_built,
        rtapVht_built, Option.bind_some, if_neg h1, if_neg h2, if_pos h3]
      simp
    · simp [h1, h2, h3, length_vhtBytes]
      omega

theorem encode_rtapValues (p : MonitorAttrib) (ch : MonitorChannel) : encode 0 (rtapValues p ch) slots 8 =
    (if p.tsfl ≠ 0 then leBytes 8 p.tsfl.toNat else []) ++ rtapBytes p ch := by
  rcases rate_family p with ⟨h1,h2,h3⟩ | ⟨h1,h2,h3⟩ | ⟨h1,h2,h3⟩ <;> by_cases htsf : p.tsfl = 0 <;>
    simp [encode, slots, rtapValues, rtapBytes, h1, h2, h3, htsf, TSFT, FLAGS, RATE, CHANNEL, DBM_ANTSIGNAL,
      ANTENNA, RX_FLAGS, MCS, VHT, alignUp]

/-- The bits that are set, of a frame with a time stamp or without one -/
def rtapHead (p : MonitorAttrib) : List UInt8 :=
  (rtapBits p).foldl presentIn (if p.tsfl ≠ 0 then presentIn (List.replicate 8 0) TSFT else List.replicate 8 0)

theorem isHead_rtapHead (p : MonitorAttrib) (ch : MonitorChannel) : IsHead p ch (rtapHead p) := by
  rcases rate_family p with ⟨h1,h2,h3⟩ | ⟨h1,h2,h3⟩ | ⟨h1,h2,h3⟩ <;> by_cases htsf : p.tsfl ≠ 0
  · have hhead : rtapHead p = [0,0,0,0,47,72,0,0] := by
      rw [rtapHead, rtapBits, if_pos h1, if_neg h2, if_neg h3, if_pos htsf]
      rfl
    rw [hhead]
    refine ⟨rfl,rfl,by decide,?_⟩
    simp [slots, rtapValues, TSFT, FLAGS, RATE, CHANNEL, DBM_ANTSIGNAL, ANTENNA, RX_FLAGS, MCS, VHT, h1, h2, h3, htsf]
    decide
  · have hhead : rtapHead p = [0,0,0,0,46,72,0,0] := by
      rw [rtapHead, rtapBits, if_pos h1, if_neg h2, if_neg h3, if_neg htsf]
      rfl
    rw [hhead]
    refine ⟨rfl,rfl,by decide,?_⟩
    simp [slots, rtapValues, TSFT, FLAGS, RATE, CHANNEL, DBM_ANTSIGNAL, ANTENNA, RX_FLAGS, MCS, VHT, h1, h2, h3, htsf]
    decide
  · have hhead : rtapHead p = [0,0,0,0,43,72,8,0] := by
      rw [rtapHead, rtapBits, if_neg h1, if_pos h2, if_neg h3, if_pos htsf]
      rfl
    rw [hhead]
    refine ⟨rfl,rfl,by decide,?_⟩
    simp [slots, rtapValues, TSFT, FLAGS, RATE, CHANNEL, DBM_ANTSIGNAL, ANTENNA, RX_FLAGS, MCS, VHT, h1, h2, h3, htsf]
    decide
  · have hhead : rtapHead p = [0,0,0,0,42,72,8,0] := by
      rw [rtapHead, rtapBits, if_neg h1, if_pos h2, if_neg h3, if_neg htsf]
      rfl
    rw [hhead]
    refine ⟨rfl,rfl,by decide,?_⟩
    simp [slots, rtapValues, TSFT, FLAGS, RATE, CHANNEL, DBM_ANTSIGNAL, ANTENNA, RX_FLAGS, MCS, VHT, h1, h2, h3, htsf]
    decide
  · have hhead : rtapHead p = [0,0,0,0,43,72,32,0] := by
      rw [rtapHead, rtapBits, if_neg h1, if_neg h2, if_pos h3, if_pos htsf]
      rfl
    rw [hhead]
    refine ⟨rfl,rfl,by decide,?_⟩
    simp [slots, rtapValues, TSFT, FLAGS, RATE, CHANNEL, DBM_ANTSIGNAL, ANTENNA, RX_FLAGS, MCS, VHT, h1, h2, h3, htsf]
    decide
  · have hhead : rtapHead p = [0,0,0,0,42,72,32,0] := by
      rw [rtapHead, rtapBits, if_neg h1, if_neg h2, if_pos h3, if_neg htsf]
      rfl
    rw [hhead]
    refine ⟨rfl,rfl,by decide,?_⟩
    simp [slots, rtapValues, TSFT, FLAGS, RATE, CHANNEL, DBM_ANTSIGNAL, ANTENNA, RX_FLAGS, MCS, VHT, h1, h2, h3, htsf]
    decide

/-- What is filled is the fields of the header at their places, behind the bits that say which they are. -/
theorem rtapFill_built (p : MonitorAttrib) (ch : MonitorChannel) : ∃ m,
    rtapFill p ch = some (.built (rtapHead p) (encode 0 (rtapValues p ch) slots 8) [] m) ∧
      8 + (encode 0 (rtapValues p ch) slots 8).length + m = 64 := by
  have hinit : RtapHdr.init = .built (List.replicate 8 0) [] [] 56 := rfl
  rw [rtapFill, hinit, rtapTsft_built rfl, Option.bind_eq_bind, Option.bind_some, encode_rtapValues, rtapHead]
  by_cases htsf : p.tsfl ≠ 0
  · obtain ⟨m,hfill,hlen⟩ := @rtapRest_built p ch (presentIn (List.replicate 8 0) TSFT)
        ([] ++ leBytes 8 p.tsfl.toNat) 26 rfl
    rw [if_pos htsf, if_pos htsf, if_pos htsf]
    refine ⟨m,hfill,?_⟩
    rw [List.length_append, length_leBytes]
    omega
  · obtain ⟨m,hfill,hlen⟩ := @rtapRest_built p ch (List.replicate 8 0) [] 34 rfl
    rw [if_neg htsf, if_neg htsf, if_neg htsf]
    refine ⟨m,hfill,?_⟩
    rw [List.nil_append]
    omega

/-- The header that is pushed: its length is in the third byte and the fourth. -/
def radiotapHdr (p : MonitorAttrib) (ch : MonitorChannel) : List UInt8 :=
  patch (rtapHead p) 2 (leBytes 2 (8 + (encode 0 (rtapValues p ch) slots 8).length)) ++
    encode 0 (rtapValues p ch) slots 8

theorem length_radiotapHdr (p : MonitorAttrib) (ch : MonitorChannel) :
    (radiotapHdr p ch).length = 8 + (encode 0 (rtapValues p ch) slots 8).length := by
  rw [radiotapHdr, List.length_append, length_patch, (isHead_rtapHead p ch).length]

theorem fillRadiotapHdr_eq (p : MonitorAttrib) (ch : MonitorChannel) (headroom : ℕ) (frame : List UInt8) :
    fillRadiotapHdr p ch headroom frame =
      some (if headroom < (radiotapHdr p ch).length then (false,frame) else (true,radiotapHdr p ch ++ frame)) := by
  obtain ⟨m,hfill,-⟩ := rtapFill_built p ch
  have hhead := (isHead_rtapHead p ch).length
  rw [fillRadiotapHdr, hfill, Option.bind_eq_bind, Option.bind_some, length_radiotapHdr]
  have hlen : (RtapHdr.built (rtapHead p) (encode 0 (rtapValues p ch) slots 8) [] m).rtLen =
      8 + (encode 0 (rtapValues p ch) slots 8).length := rfl
  rw [hlen]
  by_cases hroom : headroom < 8 + (encode 0 (rtapValues p ch) slots 8).length
  · rw [if_pos hroom, if_pos hroom]
    rfl
  · have htake : List.take (8 + (encode 0 (rtapValues p ch) slots 8).length) (patch (rtapHead p ++
        (encode 0 (rtapValues p ch) slots 8 ++ ([] ++ List.replicate m 0))) 2
          (leBytes 2 (8 + (encode 0 (rtapValues p ch) slots 8).length))) = radiotapHdr p ch := by
      rw [patch_append_of_le (by rw [length_leBytes, hhead]; omega), ← List.append_assoc, ← radiotapHdr,
        ← length_radiotapHdr]
      exact List.take_left
    rw [if_neg hroom, if_neg hroom, RtapHdr.built, htake]
    rfl

theorem radiotap_slots_aligned : ∀ s ∈ slots, 0 < s.align := by decide

theorem length_rtapValues (p : MonitorAttrib) (ch : MonitorChannel) :
    ∀ s ∈ slots, ∀ v, rtapValues p ch s.bit = some v → v.length = s.size := by
  simp [slots, rtapValues, TSFT, FLAGS, RATE, CHANNEL, DBM_ANTSIGNAL, ANTENNA, RX_FLAGS, MCS, VHT, length_vhtBytes]

theorem le16At_radiotapHdr (p : MonitorAttrib) (ch : MonitorChannel) (frame : List UInt8) :
    le16At (radiotapHdr p ch ++ frame) 2 = (radiotapHdr p ch).length := by
  obtain ⟨m,-,hlen⟩ := rtapFill_built p ch
  have hhead := (isHead_rtapHead p ch).length
  rw [length_radiotapHdr, radiotapHdr, List.append_assoc, le16At, byteAt_append, if_pos (by rw [length_patch]; omega),
    byteAt_append, if_pos (by rw [length_patch]; omega), byteAt_patch, byteAt_patch, length_leBytes, if_pos (by omega),
    if_pos (by omega)]
  have hbyte : (UInt8.ofNat (8 + (encode 0 (rtapValues p ch) slots 8).length)).toNat =
      8 + (encode 0 (rtapValues p ch) slots 8).length := by
    rw [UInt8.toNat_ofNat']
    omega
  have hhigh : (8 + (encode 0 (rtapValues p ch) slots 8).length) / 256 = 0 := by omega
  rw [leBytes, leBytes, byteAt_cons_zero, byteAt_cons_succ, byteAt_cons_zero, hbyte, hhigh]
  rfl

theorem read_radiotapHdr (p : MonitorAttrib) (ch : MonitorChannel) (frame : List UInt8) :
    Radiotap.read (radiotapHdr p ch ++ frame) = some (meaning (rtapValues p ch),frame) := by
  have hhead := isHead_rtapHead p ch
  have hlength := hhead.length
  have hlen := length_radiotapHdr p ch
  have hpresent : slice (radiotapHdr p ch ++ frame) 4 4 = slice (rtapHead p) 4 4 := by
    rw [radiotapHdr, List.append_assoc, slice_append_left (by rw [length_patch]; omega),
      slice_patch_above (by rw [length_leBytes])]
  have hversion : byteAt (radiotapHdr p ch ++ frame) 0 = 0 := by
    rw [radiotapHdr, List.append_assoc, byteAt_append, if_pos (by rw [length_patch]; omega), byteAt_patch,
      if_neg (by omega), hhead.version]
  have hfields : decode (radiotapHdr p ch) (leNat (slice (rtapHead p) 4 4)).testBit slots 8 =
      some (fields (rtapValues p ch) slots) := by
    have hfront : (patch (rtapHead p) 2 (leBytes 2 (8 + (encode 0 (rtapValues p ch) slots 8).length))).length = 8 := by
      rw [length_patch, hlength]
    have hread :=
      @decode_encode _ 0 _ _ (patch (rtapHead p) 2 (leBytes 2 (8 + (encode 0 (rtapValues p ch) slots 8).length))) []
      radiotap_slots_aligned (length_rtapValues p ch)
    rw [hfront, List.append_nil, ← radiotapHdr] at hread
    rw [← hread]
    exact decode_congr hhead.present
  have hmeaning : meaning (fun b => (fields (rtapValues p ch) slots).lookup b) = meaning (rtapValues p ch) := by
    have hfind : ∀ b ∈ slots.map Slot.bit, (fields (rtapValues p ch) slots).lookup b = rtapValues p ch b :=
      fun b hb => lookup_fields hb
    rw [meaning, meaning, hfind TSFT (by decide), hfind FLAGS (by decide), hfind RATE (by decide),
      hfind CHANNEL (by decide),
      hfind DBM_ANTSIGNAL (by decide), hfind ANTENNA (by decide), hfind MCS (by decide), hfind VHT (by decide)]
  rw [Radiotap.read, split, le16At_radiotapHdr, hpresent, List.take_left, List.drop_left, hfields,
    if_pos ⟨by omega,by simp,hversion,hhead.known⟩, Option.map_some, Option.map_some, hmeaning]

end Fill

end Rtl8188fu
