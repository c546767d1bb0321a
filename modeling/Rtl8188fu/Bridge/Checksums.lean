import Rtl8188fu.Bridge.Nat25
import Rtl8188fu.Bridge.NdOptions
import Rtl8188fu.Library.OnesSum
import Rtl8188fu.Xmit.WlanHdrFields

/-! # The checksums of rewritten packets

`dhcp_flag_bcast` sets a bit of a DHCP message and patches the UDP checksum. The IPv6 branch of `nat25_db_handle`
replaces the link-layer address of a neighbour discovery message and computes the ICMPv6 checksum anew. The host is
little-endian.
-/
namespace Rtl8188fu
open Bytes OnesSum

def IPPROTO_UDP : UInt8 := 17
def SERVER_PORT : ℕ := 67
def CLIENT_PORT : ℕ := 68
def DHCP_MAGIC : List UInt8 := [0x63,0x82,0x53,0x63]
/-- `htons(BROADCAST_FLAG)` -/
def BROADCAST_FLAG_LE : ℕ := 0x0080

/-- The UDP header behind an IPv4 header -/
def udphOf (d : List UInt8) : ℕ := ETH_HLEN + 4 * ((byteAt d ETH_HLEN).toNat % 16)

/-- `udph->check`, `dhcph->flags` and `dhcph->cookie` -/
def udpCheckAt (d : List UInt8) : ℕ := udphOf d + 6
def dhcpFlagsAt (d : List UInt8) : ℕ := udphOf d + 8 + 10
def dhcpCookieAt (d : List UInt8) : ℕ := udphOf d + 8 + 236

/-- The value of `udph->check` when these flags have been set -/
def patchedCheck (check flags : ℕ) : ℕ := 65535 - fold (65535 - check + flags)

/-- What is done with a DHCP message, and the bytes of it that are read -/
def dhcpSetFlag (mem : List UInt8) : List UInt8 × List ℕ :=
  let flags := le16At mem (dhcpFlagsAt mem)
  if flags &&& BROADCAST_FLAG_LE ≠ 0 then (mem,List.range' (dhcpFlagsAt mem) 2)
  else
    let flags := flags ||| BROADCAST_FLAG_LE
    let out := patch mem (dhcpFlagsAt mem) (le16Bytes flags)
    (patch out (udpCheckAt mem) (le16Bytes (patchedCheck (le16At mem (udpCheckAt mem)) flags)),
      List.range' (dhcpFlagsAt mem) 2 ++ List.range' (udpCheckAt mem) 2)

/-- `dhcp_flag_bcast` of the memory that starts with the frame, and the bytes that it reads -/
def dhcpFlagBcast (bcstDisable : Bool) (mem : List UInt8) : List UInt8 × List ℕ :=
  let protocol := [12,13]
  let ip := [ETH_HLEN + 9,ETH_HLEN]
  let source := List.range' (udphOf mem) 2
  let dest := List.range' (udphOf mem + 2) 2
  let cookie := List.range' (dhcpCookieAt mem) 4
  if bcstDisable then (mem,[])
  else if be16At mem (2 * ETH_ALEN) ≠ ETH_P_IP then (mem,protocol)
  else if byteAt mem (ETH_HLEN + 9) ≠ IPPROTO_UDP then (mem,protocol ++ [ETH_HLEN + 9])
  else if be16At mem (udphOf mem) ≠ CLIENT_PORT then (mem,protocol ++ ip ++ source)
  else if be16At mem (udphOf mem + 2) ≠ SERVER_PORT then (mem,protocol ++ ip ++ source ++ dest)
  else if slice mem (dhcpCookieAt mem) 4 ≠ DHCP_MAGIC then (mem,protocol ++ ip ++ source ++ dest ++ cookie)
  else ((dhcpSetFlag mem).1,protocol ++ ip ++ source ++ dest ++ cookie ++ (dhcpSetFlag mem).2)

/-- The length field of the UDP header, the datagram, and the pseudo header with the two addresses -/
def udpLength (d : List UInt8) : ℕ := be16At d (udphOf d + 4)
def udpBytes (d : List UInt8) : List UInt8 := slice d (udphOf d) (udpLength d)
def udpPseudo (d : List UInt8) : List UInt8 := slice d (ETH_HLEN + 12) 8 ++ [0,IPPROTO_UDP] ++ slice d (udphOf d + 4) 2

def UdpValid (d : List UInt8) : Prop := Valid (udpPseudo d ++ udpBytes d)

/-- A frame with a UDP datagram from the DHCP client's port to the server's, whose checksum is valid or not used; and
the memory behind it -/
structure DhcpFrame where
  data : List UInt8
  behind : List UInt8
  ip : be16At data (2 * ETH_ALEN) = ETH_P_IP
  ihl : 5 ≤ (byteAt data ETH_HLEN).toNat % 16
  udp : byteAt data (ETH_HLEN + 9) = IPPROTO_UDP
  source : be16At data (udphOf data) = CLIENT_PORT
  dest : be16At data (udphOf data + 2) = SERVER_PORT
  header : 8 ≤ udpLength data
  inside : udphOf data + udpLength data ≤ data.length
  checked : le16At data (udpCheckAt data) ≠ 0 → UdpValid data

/-- The datagram reaches to the end of the magic cookie, and it is there. -/
def IsDhcp (d : List UInt8) : Prop := 8 + 236 + 4 ≤ udpLength d ∧ slice d (dhcpCookieAt d) 4 = DHCP_MAGIC

namespace DhcpFrame

def after (p : DhcpFrame) : List UInt8 := (dhcpFlagBcast false (p.data ++ p.behind)).1.take p.data.length

/-- Only the frame is read, the flag is set, and the checksum is still unused or again valid. -/
structure Right (p : DhcpFrame) : Prop where
  reads : ∀ i ∈ (dhcpFlagBcast false (p.data ++ p.behind)).2, i < p.data.length
  flag : IsDhcp p.data → le16At p.after (dhcpFlagsAt p.data) &&& BROADCAST_FLAG_LE ≠ 0
  unused : IsDhcp p.data → le16At p.data (udpCheckAt p.data) = 0 → le16At p.after (udpCheckAt p.data) = 0
  valid : IsDhcp p.data → le16At p.data (udpCheckAt p.data) ≠ 0 →
    le16At p.after (udpCheckAt p.data) ≠ 0 ∧ UdpValid p.after

/-- The frame reaches to where the cookie ends. When the broadcast flag of a DHCP message is clear, so are the other
flags, and the checksum is neither zero nor the one that becomes zero; or it is zero and the other flags are all set. -/
def Ok (p : DhcpFrame) : Prop :=
  dhcpCookieAt p.data + 4 ≤ p.data.length ∧
    (IsDhcp p.data → le16At p.data (dhcpFlagsAt p.data) &&& BROADCAST_FLAG_LE = 0 →
      if le16At p.data (udpCheckAt p.data) = 0 then le16At p.data (dhcpFlagsAt p.data) = 0xff7f
      else le16At p.data (dhcpFlagsAt p.data) = 0 ∧ le16At p.data (udpCheckAt p.data) ≠ 0x0080)

end DhcpFrame

section Words
variable {l m bs : List UInt8} {i j n v : ℕ}

theorem slice_patch_inside (hj : j + bs.length ≤ n) (hi : i + n ≤ l.length) :
    slice (patch l (i + j) bs) i n = patch (slice l i n) j bs := by
  apply List.ext_getElem?
  intro k
  simp only [getElem?_slice, getElem?_patch, length_slice]
  by_cases hk : k < n
  · by_cases hin : j ≤ k ∧ k < j + bs.length
    · rw [if_pos hk, if_pos (by omega), if_pos (by omega), show i + k - (i + j) = k - j by omega]
    · rw [if_pos hk, if_neg (by omega), if_neg (by omega), if_pos hk]
  · rw [if_neg hk, if_neg (by omega), if_neg hk]

/-- Overwriting a word that starts at an even place changes the sum by the two words' difference. -/
theorem leSum_patch (hi : i % 2 = 0) (hlen : i + 2 ≤ l.length) (hv : v < 65536) :
    leSum (patch l i (le16Bytes v)) + le16At l i = leSum l + v := by
  have htake : (l.take i).length % 2 = 0 := by
    rw [List.length_take, Nat.min_eq_left (by omega), hi]
  obtain ⟨a,b,hword⟩ : ∃ a b, l.drop i = a :: b :: l.drop (i + 2) :=
    ⟨l[i],l[i + 1],by rw [List.drop_eq_getElem_cons (by omega), List.drop_eq_getElem_cons (by omega)]⟩
  have hl : l = l.take i ++ a :: b :: l.drop (i + 2) := by rw [← hword, List.take_append_drop]
  have hle : le16At l i = a.toNat + 256 * b.toNat := by
    have h0 := byteAt_drop l i 0
    have h1 := byteAt_drop l i 1
    rw [hword] at h0 h1
    rw [le16At, ← h1, show byteAt l i = byteAt l (i + 0) from rfl, ← h0]
    rfl
  have hpatch : patch l i (le16Bytes v) = l.take i ++ UInt8.ofNat v :: UInt8.ofNat (v / 256) :: l.drop (i + 2) := by
    have hwhole : (le16Bytes v).take (l.length - i) = le16Bytes v :=
      List.take_of_length_le (by rw [length_le16Bytes]; omega)
    rw [patch, hwhole, length_le16Bytes, List.append_assoc]
    rfl
  have hsum : leSum l = leSum (l.take i) + (a.toNat + 256 * b.toNat) + leSum (l.drop (i + 2)) := by
    conv_lhs => rw [hl]
    exact leSum_word htake a b
  rw [hpatch, leSum_word htake, hsum, hle, UInt8.toNat_ofNat', UInt8.toNat_ofNat']
  omega

end Words

theorem or_bit7 {f : ℕ} (hf : f < 65536) (h : f &&& BROADCAST_FLAG_LE = 0) : f ||| BROADCAST_FLAG_LE = f + 128 := by
  have hdisj : BitVec.ofNat 16 f &&& 128#16 = 0#16 := by
    rw [← BitVec.toNat_inj, BitVec.toNat_and, BitVec.toNat_ofNat, Nat.mod_eq_of_lt hf]
    exact h
  have hsum := congrArg BitVec.toNat (BitVec.add_eq_or_of_and_eq_zero _ _ hdisj)
  rw [BitVec.toNat_add, BitVec.toNat_or, BitVec.toNat_ofNat, Nat.mod_eq_of_lt hf] at hsum
  have hle : f ≤ f ||| 128 := Nat.left_le_or
  change (f + 128) % 65536 = f ||| 128 at hsum
  change f ||| 128 = f + 128
  omega

theorem patchedCheck_zero {f : ℕ} (hf : f < 65536) (h : f &&& BROADCAST_FLAG_LE = 0) :
    patchedCheck 0 (f ||| BROADCAST_FLAG_LE) = 0 ↔ f = 0xff7f := by
  have hor := or_bit7 hf h
  have hlt : f ||| BROADCAST_FLAG_LE < 2 ^ 16 := Nat.or_lt_two_pow hf (by decide)
  have hpos := fold_pos (s := 65535 - 0 + (f ||| BROADCAST_FLAG_LE)) (by omega)
  have hfold := fold_lt (65535 - 0 + (f ||| BROADCAST_FLAG_LE))
  have hmod := fold_modEq (65535 - 0 + (f ||| BROADCAST_FLAG_LE))
  rw [patchedCheck]
  unfold Nat.ModEq at hmod
  omega

/-- A checksum that is used: the sum afterwards is right when the old flags counted as nothing. -/
theorem patchedCheck_valid {f c sum sum' : ℕ} (hf : f < 65536) (hc : c < 65536) (_ : c ≠ 0)
    (h : f &&& BROADCAST_FLAG_LE = 0)
    (hsum : 65535 ∣ sum)
    (hpatched : sum' + f + c = sum + (f ||| BROADCAST_FLAG_LE) + patchedCheck c (f ||| BROADCAST_FLAG_LE)) :
    patchedCheck c (f ||| BROADCAST_FLAG_LE) ≠ 0 ∧ 65535 ∣ sum' ↔ f = 0 ∧ c ≠ 0x0080 := by
  have hor := or_bit7 hf h
  have hlt : f ||| BROADCAST_FLAG_LE < 2 ^ 16 := Nat.or_lt_two_pow hf (by decide)
  have hpos := fold_pos (s := 65535 - c + (f ||| BROADCAST_FLAG_LE)) (by omega)
  have hfold := fold_lt (65535 - c + (f ||| BROADCAST_FLAG_LE))
  have hmod := fold_modEq (65535 - c + (f ||| BROADCAST_FLAG_LE))
  rw [patchedCheck] at hpatched ⊢
  unfold Nat.ModEq at hmod
  omega

section Frame
variable {d behind : List UInt8} {i k v : ℕ}

theorem byteAt_append_of_lt (h : k < d.length) : byteAt (d ++ behind) k = byteAt d k := by rw [byteAt_append, if_pos h]

theorem le16At_append_of_le (h : k + 2 ≤ d.length) : le16At (d ++ behind) k = le16At d k := by
  rw [le16At, byteAt_append_of_lt (by omega), byteAt_append_of_lt (by omega), le16At]

theorem be16At_append_of_le (h : k + 2 ≤ d.length) : be16At (d ++ behind) k = be16At d k := by
  rw [be16At, byteAt_append_of_lt (by omega), byteAt_append_of_lt (by omega), be16At]

theorem byteAt_patch_of_disjoint {bs : List UInt8} (h : k < i ∨ i + bs.length ≤ k) :
    byteAt (patch d i bs) k = byteAt d k := by
  rw [byteAt_patch, if_neg (by omega)]

theorem le16At_patch_of_disjoint (h : k + 2 ≤ i ∨ i + 2 ≤ k) :
    le16At (patch d i (le16Bytes v)) k = le16At d k := by
  rw [le16At, byteAt_patch_of_disjoint (by rw [length_le16Bytes]; omega),
    byteAt_patch_of_disjoint (by rw [length_le16Bytes]; omega), le16At]

theorem be16At_patch_of_disjoint (h : k + 2 ≤ i ∨ i + 2 ≤ k) :
    be16At (patch d i (le16Bytes v)) k = be16At d k := by
  rw [be16At, byteAt_patch_of_disjoint (by rw [length_le16Bytes]; omega),
    byteAt_patch_of_disjoint (by rw [length_le16Bytes]; omega), be16At]

end Frame

namespace DhcpFrame
variable (p : DhcpFrame)

theorem udph_ge : 34 ≤ udphOf p.data ∧ udphOf p.data + 8 ≤ p.data.length := by
  have h := p.ihl
  have hin := p.inside
  have hhdr := p.header
  have h14 : ETH_HLEN = 14 := rfl
  rw [udphOf] at hin ⊢
  omega

theorem udphOf_mem : udphOf (p.data ++ p.behind) = udphOf p.data := by
  have := p.udph_ge
  have h14 : ETH_HLEN = 14 := rfl
  rw [udphOf, byteAt_append_of_lt (by omega), udphOf]

/-- The datagram with its pseudo header -/
def summed : List UInt8 := udpPseudo p.data ++ udpBytes p.data

theorem length_udpPseudo : (udpPseudo p.data).length = 12 := by
  have := p.udph_ge
  have h14 : ETH_HLEN = 14 := rfl
  rw [udpPseudo, List.length_append, List.length_append, length_slice_of_le (by omega), length_slice_of_le (by omega)]
  rfl

theorem leSum_summed (l : List UInt8) : 0 < leSum (udpPseudo p.data ++ l) := by
  have := p.udph_ge
  have h14 : ETH_HLEN = 14 := rfl
  rw [leSum_append (by rw [length_udpPseudo]), udpPseudo, List.append_assoc, List.cons_append, List.cons_append,
    leSum_word (by rw [length_slice_of_le (by omega)])]
  exact Nat.add_pos_left (Nat.add_pos_left (Nat.add_pos_right _ (by decide)) _) _

/-- What is read of the frame up to the cookie -/
def headReads : List ℕ :=
  [12,13] ++ [ETH_HLEN + 9,ETH_HLEN] ++ List.range' (udphOf p.data) 2 ++ List.range' (udphOf p.data + 2) 2 ++
    List.range' (dhcpCookieAt p.data) 4

/-- The flags and the checksum that are stored -/
def newFlags : ℕ := le16At p.data (dhcpFlagsAt p.data) ||| BROADCAST_FLAG_LE
def newCheck : ℕ := patchedCheck (le16At p.data (udpCheckAt p.data)) p.newFlags

def patched : List UInt8 :=
  patch (patch p.data (dhcpFlagsAt p.data) (le16Bytes p.newFlags)) (udpCheckAt p.data) (le16Bytes p.newCheck)

theorem flagBcast_eq : dhcpFlagBcast false (p.data ++ p.behind) =
    if slice (p.data ++ p.behind) (dhcpCookieAt p.data) 4 ≠ DHCP_MAGIC then (p.data ++ p.behind,p.headReads)
    else ((dhcpSetFlag (p.data ++ p.behind)).1,p.headReads ++ (dhcpSetFlag (p.data ++ p.behind)).2) := by
  have hud := p.udph_ge
  have h14 : ETH_HLEN = 14 := rfl
  have h6 : ETH_ALEN = 6 := rfl
  have hcookie : dhcpCookieAt (p.data ++ p.behind) = dhcpCookieAt p.data := by
    rw [dhcpCookieAt, p.udphOf_mem, dhcpCookieAt]
  rw [dhcpFlagBcast, if_neg Bool.false_ne_true, be16At_append_of_le (by omega), byteAt_append_of_lt (by omega),
    p.udphOf_mem, be16At_append_of_le (by omega), be16At_append_of_le (by omega), if_neg (not_not_intro p.ip),
    if_neg (not_not_intro p.udp),
    if_neg (not_not_intro p.source), if_neg (not_not_intro p.dest), hcookie]
  rfl

theorem head_reads : p.headReads <+: (dhcpFlagBcast false (p.data ++ p.behind)).2 := by
  rw [flagBcast_eq]
  split_ifs
  · exact List.prefix_rfl
  · exact List.prefix_append _ _

theorem newFlags_lt : p.newFlags < 65536 :=
  Nat.or_lt_two_pow (n := 16) (le16At_lt p.data (dhcpFlagsAt p.data)) (by decide)

theorem newCheck_lt : p.newCheck < 65536 := by
  rw [newCheck, patchedCheck]
  omega

section Dhcp
variable (hdhcp : IsDhcp p.data)
include hdhcp

theorem places_inside : dhcpFlagsAt p.data + 2 ≤ p.data.length ∧ udpCheckAt p.data + 2 ≤ p.data.length ∧
    dhcpCookieAt p.data + 4 ≤ p.data.length ∧ udpCheckAt p.data + 12 = dhcpFlagsAt p.data := by
  have hin := p.inside
  have hlen := hdhcp.1
  rw [dhcpFlagsAt, udpCheckAt, dhcpCookieAt]
  omega

theorem setFlag_eq : dhcpSetFlag (p.data ++ p.behind) =
    if le16At p.data (dhcpFlagsAt p.data) &&& BROADCAST_FLAG_LE ≠ 0 then
      (p.data ++ p.behind,List.range' (dhcpFlagsAt p.data) 2)
    else (p.patched ++ p.behind,List.range' (dhcpFlagsAt p.data) 2 ++ List.range' (udpCheckAt p.data) 2) := by
  obtain ⟨hflagsIn,hcheckIn,-,-⟩ := p.places_inside hdhcp
  have hflags : dhcpFlagsAt (p.data ++ p.behind) = dhcpFlagsAt p.data := by rw [dhcpFlagsAt, p.udphOf_mem, dhcpFlagsAt]
  have hcheck : udpCheckAt (p.data ++ p.behind) = udpCheckAt p.data := by rw [udpCheckAt, p.udphOf_mem, udpCheckAt]
  have hflagsLen : ∀ v, dhcpFlagsAt p.data + (le16Bytes v).length ≤ p.data.length := fun _ => hflagsIn
  have hcheckLen : ∀ v w, udpCheckAt p.data + (le16Bytes w).length ≤ (patch p.data (dhcpFlagsAt p.data)
      (le16Bytes v)).length := by
    intro v w
    rw [length_patch]
    exact hcheckIn
  rw [dhcpSetFlag, hflags, hcheck, le16At_append_of_le hflagsIn, le16At_append_of_le hcheckIn]
  dsimp only
  rw [patch_append_of_le (hflagsLen _), patch_append_of_le (hcheckLen _ _)]
  rfl

theorem flagBcast_dhcp : dhcpFlagBcast false (p.data ++ p.behind) =
    if le16At p.data (dhcpFlagsAt p.data) &&& BROADCAST_FLAG_LE ≠ 0 then
      (p.data ++ p.behind,p.headReads ++ List.range' (dhcpFlagsAt p.data) 2)
    else (p.patched ++ p.behind,p.headReads ++
      (List.range' (dhcpFlagsAt p.data) 2 ++ List.range' (udpCheckAt p.data) 2)) := by
  obtain ⟨-,-,hcookieIn,-⟩ := p.places_inside hdhcp
  rw [flagBcast_eq, slice_append_left hcookieIn, if_neg (not_not_intro hdhcp.2), p.setFlag_eq hdhcp]
  split_ifs <;> rfl

omit hdhcp in
theorem patched_places : udphOf p.patched = udphOf p.data ∧ udpLength p.patched = udpLength p.data := by
  have hud := p.udph_ge
  have h14 : ETH_HLEN = 14 := rfl
  have hu : udphOf p.patched = udphOf p.data := by
    rw [udphOf, patched, byteAt_patch_of_disjoint (Or.inl (by rw [udpCheckAt]; omega)),
      byteAt_patch_of_disjoint (Or.inl (by rw [dhcpFlagsAt]; omega)), udphOf]
  refine ⟨hu,?_⟩
  rw [udpLength, hu, patched, be16At_patch_of_disjoint (Or.inl (by rw [udpCheckAt])),
    be16At_patch_of_disjoint (Or.inl (by rw [dhcpFlagsAt]; omega)), udpLength]

theorem patched_flags : le16At p.patched (dhcpFlagsAt p.data) = p.newFlags := by
  obtain ⟨hflagsIn,-,-,hdist⟩ := p.places_inside hdhcp
  rw [patched, le16At_patch_of_disjoint (Or.inr (by omega)), le16At_patch_le16Bytes hflagsIn p.newFlags_lt]

theorem patched_check : le16At p.patched (udpCheckAt p.data) = p.newCheck := by
  obtain ⟨-,hcheckIn,-,-⟩ := p.places_inside hdhcp
  rw [patched, le16At_patch_le16Bytes (by rw [length_patch]; exact hcheckIn) p.newCheck_lt]

omit hdhcp in
theorem patched_pseudo : udpPseudo p.patched = udpPseudo p.data := by
  have hud := p.udph_ge
  have h14 : ETH_HLEN = 14 := rfl
  rw [udpPseudo, p.patched_places.1, patched, slice_patch_below (by rw [udpCheckAt]; omega),
    slice_patch_below (by rw [dhcpFlagsAt]; omega), slice_patch_below (by rw [udpCheckAt]),
    slice_patch_below (by rw [dhcpFlagsAt]; omega), udpPseudo]

theorem patched_bytes :
    udpBytes p.patched = patch (patch (udpBytes p.data) 18 (le16Bytes p.newFlags)) 6 (le16Bytes p.newCheck) := by
  obtain ⟨hu,hl⟩ := p.patched_places
  have hin := p.inside
  have hlen := hdhcp.1
  rw [udpBytes, hu, hl, patched, udpCheckAt, slice_patch_inside (by rw [length_le16Bytes]; omega)
    (by rw [length_patch]; exact hin), show dhcpFlagsAt p.data = udphOf p.data + 18 from rfl,
    slice_patch_inside (by rw [length_le16Bytes]; omega) hin, udpBytes]

/-- The sum afterwards and the words that were there make up the sum before and the new words. -/
theorem patched_sum : leSum (udpPseudo p.patched ++ udpBytes p.patched) + le16At p.data (dhcpFlagsAt p.data) +
    le16At p.data (udpCheckAt p.data) = leSum p.summed + p.newFlags + p.newCheck := by
  have hin := p.inside
  have hlen := hdhcp.1
  have hbytes : (udpBytes p.data).length = udpLength p.data := length_slice_of_le hin
  have hword :
      ∀ k, k + 2 ≤ udpLength p.data → le16At (udpBytes p.data) k = le16At p.data (udphOf p.data + k) := by
    intro k hk
    rw [le16At, udpBytes, byteAt_slice _ (by omega), byteAt_slice _ (by omega)]
    rfl
  have hflags := leSum_patch (l := udpBytes p.data) (i := 18) (v := p.newFlags) rfl (by omega) p.newFlags_lt
  have hcheck := leSum_patch (l := patch (udpBytes p.data) 18 (le16Bytes p.newFlags)) (i := 6) (v := p.newCheck) rfl
    (by rw [length_patch]; omega) p.newCheck_lt
  rw [le16At_patch_of_disjoint (Or.inl (by omega)), hword 6 (by omega)] at hcheck
  rw [hword 18 (by omega)] at hflags
  have heven : (udpPseudo p.data).length % 2 = 0 := by rw [p.length_udpPseudo]
  rw [p.patched_pseudo, p.patched_bytes hdhcp, summed, leSum_append heven, leSum_append heven]
  change _ + le16At p.data (udphOf p.data + 18) + le16At p.data (udphOf p.data + 6) = _
  omega

end Dhcp

theorem summed_dvd_iff : UdpValid p.data ↔ 65535 ∣ leSum p.summed := valid_iff (p.leSum_summed _)

theorem head_inside_iff : (∀ i ∈ p.headReads, i < p.data.length) ↔ dhcpCookieAt p.data + 4 ≤ p.data.length := by
  have hud := p.udph_ge
  have h14 : ETH_HLEN = 14 := rfl
  constructor
  · intro h
    have := h (dhcpCookieAt p.data + 3) (List.mem_append_right _ (List.mem_range'_1.mpr (by omega)))
    omega
  · intro hcookie i hi
    simp only [headReads, List.mem_append, List.mem_range'_1, List.mem_cons, List.not_mem_nil, or_false] at hi
    omega

theorem setFlag_reads (mem : List UInt8) : ∀ i ∈ (dhcpSetFlag mem).2, i < dhcpCookieAt mem := by
  intro i hi
  have hi : i ∈ List.range' (dhcpFlagsAt mem) 2 ++ List.range' (udpCheckAt mem) 2 := by
    rw [dhcpSetFlag] at hi
    dsimp only at hi
    split_ifs at hi
    · exact List.mem_append_left _ hi
    · exact hi
  simp only [List.mem_append, List.mem_range'_1, dhcpFlagsAt, udpCheckAt] at hi
  rw [dhcpCookieAt]
  omega

theorem reads_inside (hcookie : dhcpCookieAt p.data + 4 ≤ p.data.length) :
    ∀ i ∈ (dhcpFlagBcast false (p.data ++ p.behind)).2, i < p.data.length := by
  intro i hi
  rw [flagBcast_eq] at hi
  split_ifs at hi
  · exact p.head_inside_iff.mpr hcookie i hi
  · rcases List.mem_append.mp hi with hi | hi
    · exact p.head_inside_iff.mpr hcookie i hi
    · have hlt := setFlag_reads _ i hi
      rw [dhcpCookieAt, p.udphOf_mem] at hlt
      rw [dhcpCookieAt] at hcookie
      omega

theorem after_eq (hdhcp : IsDhcp p.data) :
    p.after = if le16At p.data (dhcpFlagsAt p.data) &&& BROADCAST_FLAG_LE ≠ 0 then p.data else p.patched := by
  have hlen : p.patched.length = p.data.length := by rw [patched, length_patch, length_patch]
  rw [after, flagBcast_dhcp p hdhcp]
  split_ifs
  · exact List.take_left
  · exact List.take_left' hlen

theorem right_iff : p.Right ↔ p.Ok := by
  constructor
  · intro h
    refine ⟨p.head_inside_iff.mp fun i hi => h.reads i (p.head_reads.subset hi),?_⟩
    intro hdhcp hbit
    have hafter := p.after_eq hdhcp
    rw [if_neg (not_not_intro hbit)] at hafter
    split_ifs with hzero
    · have hunused := h.unused hdhcp hzero
      rw [hafter, p.patched_check hdhcp, newCheck, hzero, newFlags] at hunused
      exact (patchedCheck_zero (le16At_lt _ _) hbit).mp hunused
    · obtain ⟨hne,hvalid⟩ := h.valid hdhcp hzero
      rw [hafter] at hne hvalid
      rw [p.patched_check hdhcp] at hne
      have hdvd := p.summed_dvd_iff.mp (p.checked hzero)
      have hdvd' := (valid_iff (by rw [p.patched_pseudo]; exact p.leSum_summed _)).mp hvalid
      exact (patchedCheck_valid (le16At_lt _ _) (le16At_lt _ _) hzero hbit hdvd (p.patched_sum hdhcp)).mp
        ⟨hne,hdvd'⟩
  · rintro ⟨hcookie,hok⟩
    have hhead := p.head_inside_iff.mpr hcookie
    have hreads := p.reads_inside hcookie
    by_cases hdhcp : IsDhcp p.data
    · have hafter := p.after_eq hdhcp
      by_cases hbit : le16At p.data (dhcpFlagsAt p.data) &&& BROADCAST_FLAG_LE = 0
      · have hcond := hok hdhcp hbit
        rw [if_neg (not_not_intro hbit)] at hafter
        refine ⟨hreads,fun _ => ?_,fun _ hzero => ?_,fun _ hzero => ?_⟩
        · rw [hafter, p.patched_flags hdhcp, newFlags, Nat.and_or_distrib_right, hbit]
          decide
        · rw [if_pos hzero] at hcond
          rw [hafter, p.patched_check hdhcp, newCheck, hzero, newFlags]
          exact (patchedCheck_zero (le16At_lt _ _) hbit).mpr hcond
        · rw [if_neg hzero] at hcond
          have hdvd := p.summed_dvd_iff.mp (p.checked hzero)
          obtain ⟨hne,hdvd'⟩ :=
            (patchedCheck_valid (le16At_lt _ _) (le16At_lt _ _) hzero hbit hdvd (p.patched_sum hdhcp)).mpr hcond
          rw [hafter, p.patched_check hdhcp]
          exact ⟨hne,(valid_iff (by rw [p.patched_pseudo]; exact p.leSum_summed _)).mpr hdvd'⟩
      · rw [if_pos hbit] at hafter
        refine ⟨hreads,fun _ => ?_,fun _ hzero => ?_,fun _ hzero => ?_⟩
        · rw [hafter]
          exact hbit
        · rw [hafter]
          exact hzero
        · rw [hafter]
          exact ⟨hzero,p.checked hzero⟩
    · exact ⟨hreads,fun h => absurd h hdhcp,fun h => absurd h hdhcp,fun h => absurd h hdhcp⟩

end DhcpFrame

def ETH_P_IPV6 : ℕ := 0x86dd
def IPPROTO_ICMPV6 : UInt8 := 58
/-- `sizeof(struct ipv6hdr)` -/
def IPV6_HLEN : ℕ := 40
def ICMPV6_AT : ℕ := ETH_HLEN + IPV6_HLEN

/-- `htonl` of a length -/
def be32Bytes (v : ℕ) : List UInt8 :=
  [UInt8.ofNat (v / 2 ^ 24),UInt8.ofNat (v / 2 ^ 16),UInt8.ofNat (v / 2 ^ 8),UInt8.ofNat v]

/-- `csum_partial` and `csum_ipv6_magic` of the kernel; what they leave of a sum is known up to multiples of 65535. -/
structure KernelCsum where
  csumPartial : List UInt8 → ℕ → ℕ → ℕ
  csumIpv6Magic : List UInt8 → List UInt8 → ℕ → UInt8 → ℕ → ℕ
  partial_spec : ∀ buff len sum, csumPartial buff len sum ≡ leSum (buff.take len) + sum [MOD 65535]
  magic_lt : ∀ saddr daddr len proto csum, csumIpv6Magic saddr daddr len proto csum < 65536
  magic_spec : ∀ saddr daddr len proto csum,
    csumIpv6Magic saddr daddr len proto csum + (leSum (saddr ++ daddr ++ be32Bytes len ++ [0,0,0,proto]) + csum) ≡
      0 [MOD 65535]

def KernelCsum.exact : KernelCsum where
  csumPartial buff len sum := leSum (buff.take len) + sum
  csumIpv6Magic saddr daddr len proto csum :=
    65535 - fold (leSum (saddr ++ daddr ++ be32Bytes len ++ [0,0,0,proto]) + csum)
  partial_spec _ _ _ := rfl
  magic_lt _ _ _ _ _ := by omega
  magic_spec saddr daddr len proto csum := by
    have hlt := fold_lt (leSum (saddr ++ daddr ++ be32Bytes len ++ [0,0,0,proto]) + csum)
    have hmod := fold_modEq (leSum (saddr ++ daddr ++ be32Bytes len ++ [0,0,0,proto]) + csum)
    unfold Nat.ModEq at hmod ⊢
    omega

/-- `saddr` and `daddr` of the IPv6 header -/
def ipv6Saddr (d : List UInt8) : List UInt8 := slice d (ETH_HLEN + 8) 16
def ipv6Daddr (d : List UInt8) : List UInt8 := slice d (ETH_HLEN + 24) 16

/-- Where `payload_len` stands; the code takes it as the host reads it. -/
def PAYLOAD_LEN_AT : ℕ := ETH_HLEN + 4

/-- The checksum is cleared and computed anew. -/
def icmp6Cksum (k : KernelCsum) (mem hdr : List UInt8) : List UInt8 :=
  let hdr := patch hdr 2 (le16Bytes 0)
  let payloadLen := le16At mem PAYLOAD_LEN_AT
  patch hdr 2 (le16Bytes (k.csumIpv6Magic (ipv6Saddr mem)
    (ipv6Daddr mem) payloadLen IPPROTO_ICMPV6 (k.csumPartial hdr payloadLen 0)))

/-- The IPv6 branch of `nat25_db_handle` under `NAT25_INSERT`: the memory that starts with the frame of `len` bytes,
afterwards. The entry that it makes in the data base is left out. -/
def nat25Ipv6Insert (k : KernelCsum) (fuel : ℕ) (mem : List UInt8) (len : ℕ) (hwaddr : MacAddr) :
    Option (List UInt8) :=
  if (len + 2 ^ 32 - ETH_HLEN) % 2 ^ 32 ≤ IPV6_HLEN then some mem
  else if ipv6Saddr mem = List.replicate 16 0 then some mem
  else if byteAt mem (ETH_HLEN + 6) = IPPROTO_ICMPV6 ∧ ICMPV6_AT + 4 < len then
    (updateNdLinkLayerAddr fuel (mem.drop ICMPV6_AT) (len - ICMPV6_AT) hwaddr).map fun u =>
      match u.mac with
      | some _ => mem.take ICMPV6_AT ++ icmp6Cksum k mem u.data
      | none => mem
  else some mem

/-- The ICMPv6 message and its pseudo header -/
def icmp6Message (d : List UInt8) : List UInt8 := slice d ICMPV6_AT (be16At d PAYLOAD_LEN_AT)
def icmp6Pseudo (d : List UInt8) : List UInt8 :=
  ipv6Saddr d ++ ipv6Daddr d ++ be32Bytes (be16At d PAYLOAD_LEN_AT) ++ [0,0,0,IPPROTO_ICMPV6]

def Icmp6Valid (d : List UInt8) : Prop := Valid (icmp6Pseudo d ++ icmp6Message d)

/-- A neighbour discovery packet with a valid checksum, the memory behind it, and the rewriting of its address -/
structure NdPacket where
  data : List UInt8
  behind : List UInt8
  hwaddr : MacAddr
  fuel : ℕ
  update : NdUpdate
  ipv6 : be16At data (2 * ETH_ALEN) = ETH_P_IPV6
  icmp6 : byteAt data (ETH_HLEN + 6) = IPPROTO_ICMPV6
  saddr : ipv6Saddr data ≠ List.replicate 16 0
  message : 4 < be16At data PAYLOAD_LEN_AT
  inside : ICMPV6_AT + be16At data PAYLOAD_LEN_AT ≤ data.length
  short : data.length < 2 ^ 32
  valid : Icmp6Valid data
  ran : updateNdLinkLayerAddr fuel ((data ++ behind).drop ICMPV6_AT) (data.length - ICMPV6_AT) hwaddr = some update
  rewrites : update.mac ≠ none

namespace NdPacket

/-- The packet that goes out has a valid checksum. -/
def Right (k : KernelCsum) (p : NdPacket) : Prop :=
  ∃ out, nat25Ipv6Insert k p.fuel (p.data ++ p.behind) p.data.length p.hwaddr = some out ∧
    Icmp6Valid (out.take p.data.length)

/-- The message that came and the memory behind it, with the own address put in and the checksum taken out -/
def rewritten (p : NdPacket) : List UInt8 :=
  patch (patch ((p.data ++ p.behind).drop ICMPV6_AT) (p.update.mac.getD 0) (slice p.hwaddr 0 ETH_ALEN)) 2 (le16Bytes 0)

/-- The payload's length and the number with its two bytes swapped: the bytes between the two sum up to their
difference. -/
def Ok (p : NdPacket) : Prop :=
  let lo := min (be16At p.data PAYLOAD_LEN_AT) (le16At p.data PAYLOAD_LEN_AT)
  let hi := max (be16At p.data PAYLOAD_LEN_AT) (le16At p.data PAYLOAD_LEN_AT)
  leSumBetween p.rewritten lo hi ≡ hi - lo [MOD 65535]

variable (p : NdPacket) (k : KernelCsum)

theorem update_length {fuel len : ℕ} {data hwaddr : List UInt8} {u : NdUpdate}
    (h : updateNdLinkLayerAddr fuel data len hwaddr = some u) : u.data.length = data.length := by
  unfold updateNdLinkLayerAddr at h
  split at h
  · split at h
    · obtain ⟨r,-,rfl⟩ := Option.map_eq_some_iff.mp h
      cases r.1 with
      | none => rfl
      | some q => exact length_patch _ _ _
    · obtain rfl := Option.some.inj h
      rfl
  · obtain rfl := Option.some.inj h
    rfl

theorem update_data {fuel len m : ℕ} {data hwaddr : List UInt8} {u : NdUpdate}
    (h : updateNdLinkLayerAddr fuel data len hwaddr = some u) (hm : u.mac = some m) :
    u.data = patch data m (slice hwaddr 0 ETH_ALEN) := by
  unfold updateNdLinkLayerAddr at h
  split at h
  · split at h
    · obtain ⟨r,-,rfl⟩ := Option.map_eq_some_iff.mp h
      cases hr : r.1 with
      | none =>
        rw [hr] at hm
        cases hm
      | some q =>
        rw [hr] at hm
        obtain rfl := Option.some.inj hm
        rfl
    · cases h
      cases hm
  · cases h
    cases hm

theorem rewritten_eq : p.rewritten = patch p.update.data 2 (le16Bytes 0) := by
  obtain ⟨m,hm⟩ := Option.ne_none_iff_exists'.mp p.rewrites
  rw [rewritten, hm, Option.getD_some, ← update_data p.ran hm]

theorem length_rewritten : p.rewritten.length = p.update.data.length := by rw [p.rewritten_eq, length_patch]

theorem length_update : p.update.data.length = p.data.length + p.behind.length - ICMPV6_AT := by
  rw [update_length p.ran, List.length_drop, List.length_append]

theorem header_inside : ICMPV6_AT = 54 ∧ ETH_HLEN = 14 ∧ PAYLOAD_LEN_AT = 18 ∧ 58 < p.data.length := by
  have hin := p.inside
  have hmsg := p.message
  have h54 : ICMPV6_AT = 54 := rfl
  exact ⟨rfl,rfl,rfl,by omega⟩

theorem insert_eq : nat25Ipv6Insert k p.fuel (p.data ++ p.behind) p.data.length p.hwaddr =
    some (p.data.take ICMPV6_AT ++ icmp6Cksum k p.data p.update.data) := by
  obtain ⟨h54,h14,h18,hlong⟩ := p.header_inside
  have hshort := p.short
  have h6 : ETH_ALEN = 6 := rfl
  have h40 : IPV6_HLEN = 40 := rfl
  have hsaddr : ipv6Saddr (p.data ++ p.behind) = ipv6Saddr p.data := slice_append_left (by omega)
  have hdaddr : ipv6Daddr (p.data ++ p.behind) = ipv6Daddr p.data := slice_append_left (by omega)
  have hcksum : icmp6Cksum k (p.data ++ p.behind) p.update.data = icmp6Cksum k p.data p.update.data := by
    rw [icmp6Cksum, le16At_append_of_le (by omega), hsaddr, hdaddr, icmp6Cksum]
  rw [nat25Ipv6Insert, if_neg (by omega), hsaddr, if_neg p.saddr, byteAt_append_of_lt (by omega),
    if_pos ⟨p.icmp6,by omega⟩, p.ran, Option.map_some, hcksum, List.take_append_of_le_length (by omega)]
  cases hmac : p.update.mac with
  | none => exact absurd hmac p.rewrites
  | some m => rfl

/-- The packet afterwards, cut where it ends -/
def out : List UInt8 := (p.data.take ICMPV6_AT ++ icmp6Cksum k p.data p.update.data).take p.data.length

def cksum : ℕ := k.csumIpv6Magic (ipv6Saddr p.data) (ipv6Daddr p.data) (le16At p.data PAYLOAD_LEN_AT) IPPROTO_ICMPV6
  (k.csumPartial p.rewritten (le16At p.data PAYLOAD_LEN_AT) 0)

theorem icmp6Cksum_eq : icmp6Cksum k p.data p.update.data = patch p.rewritten 2 (le16Bytes (p.cksum k)) := by
  rw [cksum, p.rewritten_eq]
  rfl

theorem out_take : (p.out k).take ICMPV6_AT = p.data.take ICMPV6_AT := by
  obtain ⟨h54,-,-,hlong⟩ := p.header_inside
  have hlen : (p.data.take ICMPV6_AT).length = ICMPV6_AT := by
    rw [List.length_take]
    omega
  rw [out, List.take_take, Nat.min_eq_left (by omega), List.take_append_of_le_length hlen.ge, List.take_take,
    Nat.min_self]

theorem out_payloadLen : be16At (p.out k) PAYLOAD_LEN_AT = be16At p.data PAYLOAD_LEN_AT := by
  obtain ⟨h54,-,h18,-⟩ := p.header_inside
  rw [be16At, byteAt_congr (p.out_take k) (by omega), byteAt_congr (p.out_take k) (by omega), be16At]

theorem out_pseudo : icmp6Pseudo (p.out k) = icmp6Pseudo p.data := by
  obtain ⟨h54,h14,-,-⟩ := p.header_inside
  rw [icmp6Pseudo, p.out_payloadLen, ipv6Saddr, ipv6Daddr, slice_congr (p.out_take k) (by omega),
    slice_congr (p.out_take k) (by omega)]
  rfl

theorem out_message : icmp6Message (p.out k) =
    patch (p.rewritten.take (be16At p.data PAYLOAD_LEN_AT)) 2 (le16Bytes (p.cksum k)) := by
  obtain ⟨h54,-,-,hlong⟩ := p.header_inside
  have hin := p.inside
  have hmsg := p.message
  have hlen : (p.data.take ICMPV6_AT).length = ICMPV6_AT := by
    rw [List.length_take]
    omega
  have hrewritten := p.length_rewritten
  have hupdate := p.length_update
  have hcut : slice (p.out k) ICMPV6_AT (be16At p.data PAYLOAD_LEN_AT) =
      slice (icmp6Cksum k p.data p.update.data) 0 (be16At p.data PAYLOAD_LEN_AT) := by
    have htake : ∀ l : List UInt8, slice (l.take p.data.length) ICMPV6_AT (be16At p.data PAYLOAD_LEN_AT) =
        slice l ICMPV6_AT (be16At p.data PAYLOAD_LEN_AT) := by
      intro l
      rw [slice, slice, List.drop_take, List.take_take, Nat.min_eq_left (by omega)]
    rw [out, htake, slice_append_right (by omega), hlen, Nat.sub_self]
  rw [p.icmp6Cksum_eq] at hcut
  have hinside := @slice_patch_inside p.rewritten (le16Bytes (p.cksum k)) 0 2 (be16At p.data PAYLOAD_LEN_AT)
    (by rw [length_le16Bytes]; omega) (by omega)
  rw [icmp6Message, p.out_payloadLen, hcut]
  exact hinside

@[simp] theorem length_be32Bytes (v : ℕ) : (be32Bytes v).length = 4 := rfl

theorem leSum_be32Bytes {v : ℕ} (hv : v < 65536) : leSum (be32Bytes v) = v / 256 + 256 * (v % 256) := by
  rw [be32Bytes, leSum, leSum, leSum, UInt8.toNat_ofNat', UInt8.toNat_ofNat', UInt8.toNat_ofNat', UInt8.toNat_ofNat']
  omega

theorem leSum_pseudo (v : ℕ) : leSum (ipv6Saddr p.data ++ ipv6Daddr p.data ++ be32Bytes v ++ [0,0,0,IPPROTO_ICMPV6]) =
    leSum (ipv6Saddr p.data ++ ipv6Daddr p.data) + leSum (be32Bytes v) + leSum [0,0,0,IPPROTO_ICMPV6] := by
  obtain ⟨-,h14,-,hlong⟩ := p.header_inside
  have haddr : (ipv6Saddr p.data ++ ipv6Daddr p.data).length = 32 := by
    rw [List.length_append, ipv6Saddr, ipv6Daddr, length_slice_of_le (by omega), length_slice_of_le (by omega)]
  rw [leSum_append (by rw [List.length_append, haddr, length_be32Bytes]), leSum_append (by rw [haddr])]

/-- The message has the sum of the rewritten one and the new checksum. -/
theorem leSum_message : leSum (icmp6Message (p.out k)) =
    leSum (p.rewritten.take (be16At p.data PAYLOAD_LEN_AT)) + p.cksum k := by
  obtain ⟨h54,-,-,-⟩ := p.header_inside
  have hin := p.inside
  have hmsg := p.message
  have hupdate := p.length_update
  have hlen := p.length_rewritten
  have hzero : le16At (p.rewritten.take (be16At p.data PAYLOAD_LEN_AT)) 2 = 0 := by
    rw [le16At_congr (q := p.rewritten) (by rw [List.take_take, Nat.min_self]) (by omega),
      p.rewritten_eq, le16At_patch_le16Bytes (by omega) (by decide)]
  have hsum := leSum_patch (l := p.rewritten.take (be16At p.data PAYLOAD_LEN_AT)) (i := 2) (v := p.cksum k) rfl
    (by rw [List.length_take]; omega) (k.magic_lt _ _ _ _ _)
  rw [hzero] at hsum
  rw [p.out_message k, ← hsum, Nat.add_zero]

theorem right_iff : p.Right k ↔ p.Ok := by
  have hpayload := be16At_lt p.data PAYLOAD_LEN_AT
  have hpartial := k.partial_spec p.rewritten (le16At p.data PAYLOAD_LEN_AT) 0
  have hmagic := k.magic_spec (ipv6Saddr p.data) (ipv6Daddr p.data) (le16At p.data PAYLOAD_LEN_AT) IPPROTO_ICMPV6
    (k.csumPartial p.rewritten (le16At p.data PAYLOAD_LEN_AT) 0)
  have hswap :
      le16At p.data PAYLOAD_LEN_AT = be16At p.data PAYLOAD_LEN_AT / 256 + 256 * (be16At p.data PAYLOAD_LEN_AT % 256) ∧
      be16At p.data PAYLOAD_LEN_AT = le16At p.data PAYLOAD_LEN_AT / 256 + 256 *
        (le16At p.data PAYLOAD_LEN_AT % 256) := by
    have h0 := byteAt_lt p.data PAYLOAD_LEN_AT
    have h1 := byteAt_lt p.data (PAYLOAD_LEN_AT + 1)
    rw [be16At, le16At]
    omega
  rw [p.leSum_pseudo, leSum_be32Bytes (le16At_lt _ _), ← hswap.2] at hmagic
  have hvalid : p.Right k ↔ Icmp6Valid (p.out k) := by
    rw [Right, p.insert_eq]
    constructor
    · rintro ⟨out,hout,h⟩
      obtain rfl := Option.some.inj hout
      exact h
    · exact fun h => ⟨_,rfl,h⟩
  have heven : (icmp6Pseudo p.data).length % 2 = 0 := by
    obtain ⟨-,h14,-,hlong⟩ := p.header_inside
    rw [icmp6Pseudo, List.length_append, List.length_append, List.length_append, ipv6Saddr, ipv6Daddr,
      length_slice_of_le (by omega), length_slice_of_le (by omega), length_be32Bytes]
    rfl
  have hpos : 0 < leSum (icmp6Pseudo p.data) := by
    rw [icmp6Pseudo, p.leSum_pseudo]
    exact Nat.add_pos_right _ (by decide)
  rw [hvalid, Icmp6Valid, p.out_pseudo, valid_iff (by rw [leSum_append heven]; omega), leSum_append heven,
    p.leSum_message, icmp6Pseudo, p.leSum_pseudo, leSum_be32Bytes hpayload, ← hswap.1]
  rw [← cksum] at hmagic
  rcases Nat.le_total (be16At p.data PAYLOAD_LEN_AT) (le16At p.data PAYLOAD_LEN_AT) with hle | hle
  · have hsum := leSum_take_of_le (l := p.rewritten) hle
    rw [Ok, min_eq_left hle, max_eq_right hle]
    unfold Nat.ModEq at hpartial hmagic ⊢
    omega
  · have hsum := leSum_take_of_le (l := p.rewritten) hle
    rw [Ok, min_eq_right hle, max_eq_left hle]
    unfold Nat.ModEq at hpartial hmagic ⊢
    omega

end NdPacket

/-- The bridge leaves valid checksums exactly where the patched flags and the swapped length make no difference. -/
theorem bridge_checksums_iff (k : KernelCsum) :
    (∀ p : DhcpFrame, p.Right ↔ p.Ok) ∧ ∀ p : NdPacket, p.Right k ↔ p.Ok :=
  ⟨fun p => p.right_iff,fun p => p.right_iff k⟩

/-- A DHCP message without a UDP checksum -/
def plainDhcp : List UInt8 :=
  List.replicate 12 0 ++ [0x08,0x00] ++ ([0x45,0,1,20] ++ List.replicate 5 0 ++ [17] ++ List.replicate 10 0) ++
    [0,68,0,67,1,0,0,0] ++ List.replicate 236 0 ++ DHCP_MAGIC ++ [53,1,1,255] ++ List.replicate 4 0

set_option maxRecDepth 4000 in
/-- Afterwards it has one that is not valid. -/
theorem unused_checksum_gets_used :
    ¬∀ k : KernelCsum, (∀ p : DhcpFrame, p.Right) ∧ ∀ p : NdPacket, p.Right k := by
  intro h
  have hzero : le16At plainDhcp (udpCheckAt plainDhcp) = 0 := by decide
  have hdhcp : IsDhcp plainDhcp := ⟨by decide,by decide⟩
  have hbit : le16At plainDhcp (dhcpFlagsAt plainDhcp) &&& BROADCAST_FLAG_LE = 0 := by decide
  have hflags : le16At plainDhcp (dhcpFlagsAt plainDhcp) ≠ 0xff7f := by decide
  let p : DhcpFrame :=
    ⟨plainDhcp,[],by decide,by decide,by decide,by decide,by decide,by decide,by decide,fun hne => absurd hzero hne⟩
  obtain ⟨-,hok⟩ := p.right_iff.mp ((h .exact).1 p)
  have hall := hok hdhcp hbit
  rw [if_pos hzero] at hall
  exact hflags hall

end Rtl8188fu
