import Rtl8188fu.Recv.RadiotapHdr

/-! # When the radiotap header says what the frame was

What is read of the header is compared with the attributes of the frame field by field.
-/
namespace Rtl8188fu
open Bytes AlignedFields Radiotap

def DESC_RATE48M : UInt8 := 0x0a
def DESC_RATEMCS0 : UInt8 := 0x0c
def DESC_RATEVHTSS1MCS0 : UInt8 := 0x2c
def DESC_RATEVHTSS2MCS0 : UInt8 := 0x36

/-- The rates from `DESC_RATE1M` to `DESC_RATE54M` in units of 500 kb/s -/
def legacyRates : List ℕ := [2,4,11,22,12,18,24,36,48,72,96,108]

/-- The centre frequency in MHz of a channel of the 2.4 GHz band -/
def centreFrequency (channel : ℕ) : ℕ := if channel = 14 then 2484 else 2407 + 5 * channel

def attribBandwidth (bw : UInt8) : Bandwidth := if bw = 0 then .mhz20 else if bw = 1 then .mhz40
    else if bw = 2 then .mhz80 else .mhz160

/-- What a frame was, said in the terms of a header -/
def attribMeaning (p : MonitorAttrib) (ch : MonitorChannel) : Meaning where
  tsft := if p.tsfl ≠ 0 then some p.tsfl.toNat else none
  flags := some {
    cfp := false
    shortPreamble := false
    wep := decide (p.encrypt = 1 ∨ p.encrypt = 5)
    frag := decide (p.mfrag = 1)
    fcs := true
    datapad := false
    badFcs := decide (p.crcErr = 1)
    shortGi := decide (p.sgi = 1) }
  rate := if p.dataRate < DESC_RATEMCS0 then some (legacyRates.getD p.dataRate.toNat 0) else none
  channel := some (centreFrequency ch.operCh.toNat)
  signal := some p.recvSignalPower
  antenna := some 0
  mcs := if DESC_RATEMCS0 ≤ p.dataRate ∧ p.dataRate < DESC_RATEVHTSS1MCS0 then
    some ⟨some (p.dataRate.toNat - 12),some (attribBandwidth p.bw),some (decide (p.sgi = 1)),some p.stbc.toNat⟩
    else none
  vht := if DESC_RATEVHTSS1MCS0 ≤ p.dataRate ∧ p.dataRate < 84 then
    some ⟨some (attribBandwidth p.bw),(p.dataRate.toNat - 44) / 10 + 1,(p.dataRate.toNat - 44) % 10⟩
    else none

/-- A header of at most 64 bytes is pushed when there is room for it, and a reader finds in it what the frame was and
behind it the frame. -/
def HeaderDecodes (p : MonitorAttrib) (ch : MonitorChannel) : Prop :=
  ∃ hdr : List UInt8, hdr.length ≤ 64 ∧ ∀ headroom frame,
    fillRadiotapHdr p ch headroom frame = some (if headroom < hdr.length then (false,frame)
      else (true,hdr ++ frame)) ∧
      Radiotap.read (hdr ++ frame) = some (attribMeaning p ch,frame)

/-- The rate is not 48M, the channel is not 14, an HT frame is not wider than 40 MHz, and a VHT frame has one stream. -/
def HeaderCarries (p : MonitorAttrib) (ch : MonitorChannel) : Prop :=
  p.dataRate ≠ DESC_RATE48M ∧ ch.operCh ≠ 14 ∧
    (DESC_RATEMCS0 ≤ p.dataRate ∧ p.dataRate < DESC_RATEVHTSS1MCS0 → p.bw ≤ 1) ∧
      p.dataRate < DESC_RATEVHTSS2MCS0

variable {p : MonitorAttrib} {ch : MonitorChannel}

theorem headerDecodes_iff_meaning : HeaderDecodes p ch ↔ meaning (rtapValues p ch) = attribMeaning p ch := by
  obtain ⟨m,-,hlen⟩ := rtapFill_built p ch
  constructor
  · rintro ⟨hdr,-,hread⟩
    obtain ⟨hfill,hread⟩ := hread (hdr.length + (radiotapHdr p ch).length) []
    rw [fillRadiotapHdr_eq, if_neg (by omega), if_neg (by omega)] at hfill
    have hhdr : radiotapHdr p ch ++ [] = hdr ++ [] := congrArg Prod.snd (Option.some.inj hfill)
    rw [← hhdr, read_radiotapHdr] at hread
    exact congrArg Prod.fst (Option.some.inj hread)
  · intro hmeaning
    refine ⟨radiotapHdr p ch,?_,fun headroom frame => ⟨fillRadiotapHdr_eq p ch headroom frame,?_⟩⟩
    · rw [length_radiotapHdr]
      omega
    · rw [read_radiotapHdr, hmeaning]

theorem meaning_tsft : (meaning (rtapValues p ch)).tsft = (attribMeaning p ch).tsft := by
  have hlt := p.tsfl.toNat_lt
  have hnat : leNat (leBytes 8 p.tsfl.toNat) = p.tsfl.toNat := leNat_leBytes (by omega)
  rw [meaning, attribMeaning, rtapValues, if_pos rfl]
  dsimp only
  split
  · rw [Option.map_some, hnat]
  · rfl

theorem eq_zero_or_one {v : UInt8} (h : v ≤ 1) : v = 0 ∨ v = 1 := by
  rw [UInt8.le_iff_toNat_le] at h
  have h1 : UInt8.toNat 1 = 1 := rfl
  rcases Nat.le_one_iff_eq_zero_or_eq_one.mp (h1 ▸ h) with hv | hv
  · exact .inl (UInt8.toNat.inj hv)
  · exact .inr (UInt8.toNat.inj hv)

theorem meaning_flags : (meaning (rtapValues p ch)).flags = (attribMeaning p ch).flags := by
  have hflags :
      flagsOf (flagsByte p) = ⟨false,false,decide (p.encrypt = 1 ∨ p.encrypt = 5),decide (p.mfrag = 1),true,false,
      decide (p.crcErr = 1),decide (p.sgi = 1)⟩ := by
    rw [flagsByte]
    by_cases henc : p.encrypt = 1 ∨ p.encrypt = 5 <;> rcases eq_zero_or_one p.mfragBit with hf | hf <;>
      rcases eq_zero_or_one p.crcErrBit with hc | hc <;> rcases eq_zero_or_one p.sgiBit with hs | hs <;>
      simp only [hf, hc, hs, henc] <;> decide
  rw [meaning, attribMeaning, ← hflags]
  rfl

theorem rateByte_legacy : ∀ d < 12, (byteAt dataRateTable d).toNat = legacyRates.getD d 0 ↔ d ≠ 10 := by decide

theorem rateByte_ht : ∀ d < 44, 12 ≤ d → (byteAt dataRateTable d).toNat = d - 12 := by decide

theorem meaning_rate : (meaning (rtapValues p ch)).rate = (attribMeaning p ch).rate ↔
    p.dataRate ≠ DESC_RATE48M := by
  have hten : p.dataRate ≠ DESC_RATE48M ↔ p.dataRate.toNat ≠ 10 := not_congr UInt8.toNat_inj.symm
  have hfield : rtapValues p ch RATE = if p.dataRate < 12 then some [rateByte p] else none := rfl
  rw [meaning, attribMeaning, hfield, hten]
  dsimp only
  by_cases hrate : p.dataRate < 12
  · have hlt : p.dataRate.toNat < 12 := UInt8.lt_iff_toNat_lt.mp hrate
    have hmcs0 : p.dataRate < DESC_RATEMCS0 := hrate
    rw [if_pos hrate, if_pos hmcs0, Option.map_some, Option.some_inj, byteAt_cons_zero, rateByte]
    exact rateByte_legacy _ hlt
  · have hge : 12 ≤ p.dataRate.toNat := Nat.le_of_not_lt fun h => hrate (UInt8.lt_iff_toNat_lt.mpr h)
    have hmcs0 : ¬p.dataRate < DESC_RATEMCS0 := hrate
    rw [if_neg hrate, if_neg hmcs0]
    exact iff_of_true rfl (by omega)

theorem meaning_channel : (meaning (rtapValues p ch)).channel = (attribMeaning p ch).channel ↔ ch.operCh ≠ 14 := by
  have hone : 1 ≤ ch.operCh.toNat := UInt8.le_iff_toNat_le.mp ch.isChannel.1
  have hle : ch.operCh.toNat ≤ 14 := UInt8.le_iff_toNat_le.mp ch.isChannel.2
  have h14 : ch.operCh ≠ 14 ↔ ch.operCh.toNat ≠ 14 := not_congr UInt8.toNat_inj.symm
  have hlt : chan2freq ch.operCh.toNat < 65536 := by
    rw [chan2freq]
    split <;> omega
  have hword : le16At (leBytes 2 (chan2freq ch.operCh.toNat) ++ leBytes 2 (rtapChannelFlags p ch)) 0 =
      chan2freq ch.operCh.toNat := by
    rw [le16At, leBytes, leBytes, leBytes, List.cons_append, List.cons_append, byteAt_cons_zero, byteAt_cons_succ,
      byteAt_cons_zero, UInt8.toNat_ofNat', UInt8.toNat_ofNat']
    omega
  have hfield : rtapValues p ch CHANNEL =
      some (leBytes 2 (chan2freq ch.operCh.toNat) ++ leBytes 2 (rtapChannelFlags p ch)) := rfl
  rw [meaning, attribMeaning, hfield, h14]
  dsimp only
  rw [Option.map_some, Option.some_inj, hword, chan2freq, centreFrequency]
  split_ifs <;> omega

theorem meaning_signal : (meaning (rtapValues p ch)).signal = (attribMeaning p ch).signal := by
  rw [meaning, attribMeaning]
  rfl

theorem meaning_antenna : (meaning (rtapValues p ch)).antenna = (attribMeaning p ch).antenna := rfl

theorem le_three {v : UInt8} (h : v ≤ 3) : v = 0 ∨ v = 1 ∨ v = 2 ∨ v = 3 := by
  simp only [UInt8.le_iff_toNat_le, ← UInt8.toNat_inj] at h ⊢
  have h3 : UInt8.toNat 3 = 3 := rfl
  have h2 : UInt8.toNat 2 = 2 := rfl
  have h1 : UInt8.toNat 1 = 1 := rfl
  have h0 : UInt8.toNat 0 = 0 := rfl
  omega

/-- Of the two bits that an HT frame has for it, 2 and 3 stand for the halves of a channel of 40 MHz. -/
theorem mcsBandwidthOf_eq_iff {bw : UInt8} (h : bw ≤ 3) : mcsBandwidthOf bw.toNat = attribBandwidth bw ↔
    bw ≤ 1 := by
  rcases le_three h with rfl | rfl | rfl | rfl <;> decide

theorem vhtBandwidthOf_eq {bw : UInt8} (h : bw ≤ 3) : vhtBandwidthOf
    (if bw = 1 then 1 else if bw = 2 then 4 else if bw = 3 then 11 else 0 : UInt8).toNat = attribBandwidth bw := by
  rcases le_three h with rfl | rfl | rfl | rfl <;> decide

theorem mcsOf_mcsFlags (v : UInt8) : mcsOf [0x27,mcsFlags p,v] =
    ⟨some v.toNat,some (mcsBandwidthOf p.bw.toNat),some (decide (p.sgi = 1)),some p.stbc.toNat⟩ := by
  have hflags : (mcsFlags p).toNat % 4 = p.bw.toNat ∧ (mcsFlags p).toNat.testBit 2 = decide (p.sgi = 1) ∧
      (mcsFlags p).toNat / 32 % 4 = p.stbc.toNat := by
    rw [mcsFlags]
    rcases le_three p.bwBits with hb | hb | hb | hb <;> rcases eq_zero_or_one p.sgiBit with hs | hs <;>
      rcases eq_zero_or_one p.stbcBit with ht | ht <;> simp only [hb, hs, ht] <;> decide
  obtain ⟨hbw,hsgi,hstbc⟩ := hflags
  have hat : byteAt [0x27,mcsFlags p,v] 1 = mcsFlags p := rfl
  have hbit : ∀ i ∈ [0,1,2,5], UInt8.toNat 0x27 |>.testBit i := by decide
  rw [mcsOf, hat, hbw, hsgi, hstbc, byteAt_cons_zero, if_pos (hbit 1 (by decide)), if_pos (hbit 0 (by decide)),
    if_pos (hbit 2 (by decide)), if_pos (hbit 5 (by decide))]
  rfl

theorem meaning_mcs : (meaning (rtapValues p ch)).mcs = (attribMeaning p ch).mcs ↔
    (DESC_RATEMCS0 ≤ p.dataRate ∧ p.dataRate < DESC_RATEVHTSS1MCS0 → p.bw ≤ 1) := by
  have hfield : rtapValues p ch MCS = if DESC_RATEMCS0 ≤ p.dataRate ∧ p.dataRate < DESC_RATEVHTSS1MCS0 then
      some [0x27,mcsFlags p,rateByte p] else none := rfl
  rw [meaning, attribMeaning, hfield]
  dsimp only
  by_cases hrate : DESC_RATEMCS0 ≤ p.dataRate ∧ p.dataRate < DESC_RATEVHTSS1MCS0
  · have hindex : (rateByte p).toNat = p.dataRate.toNat - 12 :=
      rateByte_ht _ (UInt8.lt_iff_toNat_lt.mp hrate.2) (UInt8.le_iff_toNat_le.mp hrate.1)
    rw [if_pos hrate, if_pos hrate, Option.map_some, mcsOf_mcsFlags, hindex, Option.some_inj, Mcs.mk.injEq,
      Option.some_inj, Option.some_inj, mcsBandwidthOf_eq_iff p.bwBits]
    exact ⟨fun h _ => h.2.1,fun h => ⟨rfl,h hrate,rfl,rfl⟩⟩
  · rw [if_neg hrate, if_neg hrate]
    exact iff_of_true rfl fun h => absurd h hrate

/-- The first user's entry is filled when there is one stream. -/
theorem vhtOf_vhtBytes : vhtOf (vhtBytes p) = ⟨some (attribBandwidth p.bw),
    (byteAt (mcsNss p) 0).toNat % 16,(byteAt (mcsNss p) 0).toNat / 16⟩ := by
  have hknown : byteAt (vhtBytes p) 0 = 0xd5 := rfl
  have hbw : byteAt (vhtBytes p) 3 = vhtBandwidth p := rfl
  have hentry : byteAt (vhtBytes p) 4 = byteAt (mcsNss p) 0 := by
    have hlen : (mcsNss p).length = 4 := List.length_set
    have hfront : [0xd5,0x01,vhtFlags p,vhtBandwidth p].length = 4 := rfl
    rw [vhtBytes, List.append_assoc, byteAt_append, hfront, if_neg (by omega), byteAt_append, if_pos (by omega)]
  rw [vhtOf, ← vhtBandwidthOf_eq p.bwBits, hknown, hbw, hentry]
  rfl

theorem mcsNss_first (hrate : DESC_RATEVHTSS1MCS0 ≤ p.dataRate) (hone : p.dataRate < DESC_RATEVHTSS2MCS0) :
    (byteAt (mcsNss p) 0).toNat % 16 = 1 ∧ (byteAt (mcsNss p) 0).toNat / 16 = (p.dataRate.toNat - 44) % 10 := by
  have hentry : ∀ d < 54, 44 ≤ d → ((1 : UInt8) ||| byteAt dataRateTable d <<< 4).toNat % 16 = 1 ∧
      ((1 : UInt8) ||| byteAt dataRateTable d <<< 4).toNat / 16 = (d - 44) % 10 := by decide
  have hstreams : vhtStreams p = (0,1) := if_pos hone
  rw [mcsNss, hstreams]
  exact hentry _ (UInt8.lt_iff_toNat_lt.mp hone) (UInt8.le_iff_toNat_le.mp hrate)

theorem mcsNss_empty (hmore : ¬p.dataRate < DESC_RATEVHTSS2MCS0) : byteAt (mcsNss p) 0 = 0 := by
  have hplace : 0 < (vhtStreams p).1 := by
    rw [vhtStreams, if_neg (show ¬p.dataRate < 54 from hmore)]
    split_ifs <;> decide
  rw [mcsNss, byteAt_set, if_neg (by omega)]
  rfl

theorem meaning_vht : (meaning (rtapValues p ch)).vht = (attribMeaning p ch).vht ↔
    p.dataRate < DESC_RATEVHTSS2MCS0 := by
  have hfield : rtapValues p ch VHT = if DESC_RATEVHTSS1MCS0 ≤ p.dataRate ∧ p.dataRate < 84 then some (vhtBytes p)
      else none :=
    rfl
  rw [meaning, attribMeaning, hfield]
  dsimp only
  by_cases hrate : DESC_RATEVHTSS1MCS0 ≤ p.dataRate ∧ p.dataRate < 84
  · have hge : 44 ≤ p.dataRate.toNat := UInt8.le_iff_toNat_le.mp hrate.1
    rw [if_pos hrate, if_pos hrate, Option.map_some, Option.some_inj, vhtOf_vhtBytes, Vht.mk.injEq]
    by_cases hone : p.dataRate < DESC_RATEVHTSS2MCS0
    · have hlt : p.dataRate.toNat < 54 := UInt8.lt_iff_toNat_lt.mp hone
      obtain ⟨hstreams,hindex⟩ := mcsNss_first hrate.1 hone
      rw [hstreams, hindex]
      exact iff_of_true ⟨rfl,by omega,rfl⟩ hone
    · rw [mcsNss_empty hone]
      refine iff_of_false (fun h => ?_) hone
      have hstreams := h.2.1
      rw [UInt8.toNat_zero] at hstreams
      omega
  · have hlt : p.dataRate.toNat ≤ 83 := UInt8.le_iff_toNat_le.mp p.rateIs
    have hsmall : p.dataRate < DESC_RATEVHTSS2MCS0 := by
      rw [UInt8.le_iff_toNat_le, UInt8.lt_iff_toNat_lt] at hrate
      rw [UInt8.lt_iff_toNat_lt]
      have h44 : DESC_RATEVHTSS1MCS0.toNat = 44 := rfl
      have h54 : DESC_RATEVHTSS2MCS0.toNat = 54 := rfl
      have h84 : UInt8.toNat 84 = 84 := rfl
      omega
    rw [if_neg hrate, if_neg hrate]
    exact iff_of_true rfl hsmall

theorem meaning_eq_iff {a b : Meaning} : a = b ↔ a.tsft = b.tsft ∧ a.flags = b.flags ∧ a.rate = b.rate ∧
    a.channel = b.channel ∧
    a.signal = b.signal ∧ a.antenna = b.antenna ∧ a.mcs = b.mcs ∧ a.vht = b.vht := by
  obtain ⟨_,_,_,_,_,_,_,_⟩ := a
  obtain ⟨_,_,_,_,_,_,_,_⟩ := b
  exact Radiotap.Meaning.mk.injEq .. ▸ Iff.rfl

theorem monitor_header_decodes_iff (p : MonitorAttrib) (ch : MonitorChannel) : HeaderDecodes p ch ↔
    HeaderCarries p ch := by
  rw [headerDecodes_iff_meaning, meaning_eq_iff, meaning_rate, meaning_channel, meaning_mcs, meaning_vht, HeaderCarries]
  constructor
  · rintro ⟨-,-,hrate,hchannel,-,-,hmcs,hvht⟩
    exact ⟨hrate,hchannel,hmcs,hvht⟩
  · rintro ⟨hrate,hchannel,hmcs,hvht⟩
    exact ⟨meaning_tsft,meaning_flags,hrate,hchannel,meaning_signal,meaning_antenna,hmcs,hvht⟩

/-- A frame sent at 48M -/
def attrib48M : MonitorAttrib where
  tsfl := 0
  encrypt := 0
  mfrag := 0
  crcErr := 0
  sgi := 0
  stbc := 0
  ldpc := 0
  bw := 0
  dataRate := DESC_RATE48M
  recvSignalPower := -40
  mfragBit := by decide
  crcErrBit := by decide
  sgiBit := by decide
  stbcBit := by decide
  ldpcBit := by decide
  bwBits := by decide
  rateIs := by decide

def channel6 : MonitorChannel := ⟨6,0,by decide⟩

/-- The table has 93 for 48M, so that 46.5M is read. -/
theorem header_of_48M : ¬HeaderDecodes attrib48M channel6 := by
  intro h
  have hrate := congrArg Meaning.rate (headerDecodes_iff_meaning.mp h)
  have hread : (meaning (rtapValues attrib48M channel6)).rate = some 93 := rfl
  have hsent : (attribMeaning attrib48M channel6).rate = some 96 := rfl
  rw [hread, hsent] at hrate
  cases hrate

end Rtl8188fu
