import Rtl8188fu.Include.Wifi
import Rtl8188fu.Library.Walker

/-! # The link-layer address in a neighbour discovery message

`update_nd_link_layer_addr` with the option walk `scan_tlv`. A place is an offset from the start
of the ICMPv6 message. The buffer may go on behind the message.
-/
namespace Rtl8188fu
open Bytes

def NDISC_ROUTER_SOLICITATION : UInt8 := 133
def NDISC_ROUTER_ADVERTISEMENT : UInt8 := 134
def NDISC_NEIGHBOUR_SOLICITATION : UInt8 := 135
def NDISC_NEIGHBOUR_ADVERTISEMENT : UInt8 := 136
def NDISC_REDIRECT : UInt8 := 137

/-- Where the option at `a` says that it ends -/
def optionEnd (data : List UInt8) (a : ℕ) : ℕ := a + (byteAt data (a + 1)).toNat * 8

/-- The test that ends the walk: this tag, this length, and as many bytes left -/
def IsOption (data : List UInt8) (len : ℕ) (tag len8b : UInt8) (a : ℕ) : Prop :=
  byteAt data a = tag ∧ byteAt data (a + 1) = len8b ∧ a + len8b.toNat * 8 ≤ len

instance (data : List UInt8) (len : ℕ) (tag len8b : UInt8) : DecidablePred (IsOption data len tag len8b) :=
  fun a => by
  delta IsOption
  infer_instance

/-- The loop of `scan_tlv`. The length byte is read by the test or to go on, so in every turn. -/
def scanTlvWalker (data : List UInt8) (len : ℕ) (tag len8b : UInt8) : Walker where
  turn a := if a < len then if IsOption data len tag len8b a then .hit else .goOn (optionEnd data a) else .stop
  reads a := if a < len then [a,a + 1] else []

/-- `scan_tlv` from the option at `a` on, with at most `fuel` turns: the option found, and every
offset that was read. The source returns a pointer two bytes behind the option's start. -/
def scanTlv (fuel : ℕ) (data : List UInt8) (len a : ℕ) (tag len8b : UInt8) : Option (Option ℕ × List ℕ) :=
  (scanTlvWalker data len tag len8b).run fuel a

/-- The five branches of `update_nd_link_layer_addr`: where the options start, and which is searched -/
def ndOptions (icmp6Type : UInt8) : Option (ℕ × UInt8) :=
  if icmp6Type = NDISC_ROUTER_SOLICITATION then some (8,1)
  else if icmp6Type = NDISC_ROUTER_ADVERTISEMENT then some (16,1)
  else if icmp6Type = NDISC_NEIGHBOUR_SOLICITATION then some (24,1)
  else if icmp6Type = NDISC_NEIGHBOUR_ADVERTISEMENT then some (24,2)
  else if icmp6Type = NDISC_REDIRECT then some (40,2)
  else none

/-- The message afterwards, where `replace_mac` was written, and what `scan_tlv` read -/
structure NdUpdate where
  data : List UInt8
  mac : Option ℕ
  reads : List ℕ

def updateNdLinkLayerAddr (fuel : ℕ) (data : List UInt8) (len : ℕ) (replaceMac : MacAddr) : Option NdUpdate :=
  match ndOptions (byteAt data 0) with
  | some (start, tag) =>
    if start ≤ len then
      (scanTlv fuel data len start tag 1).map fun r =>
        match r.1 with
        | some p => ⟨patch data (p + 2) (slice replaceMac 0 ETH_ALEN),some (p + 2),r.2⟩
        | none => ⟨data,none,r.2⟩
    else some ⟨data,none,[]⟩
  | none => some ⟨data,none,[]⟩

/-- The options of a message that the walk passes over, and the one behind them -/
def OptionAt (data : List UInt8) (len start : ℕ) (tag : UInt8) : ℕ → Prop :=
  Walker.Passed (optionEnd data) (fun a => a < len ∧ ¬IsOption data len tag 1 a) start

/-- The walk comes to an end and reads bytes of the message only. The bytes that are overwritten
are inside, and they are those of an option of the searched type with length 1. -/
def NdContained (data : List UInt8) (len : ℕ) (replaceMac : MacAddr) : Prop :=
  ∃ fuel r, updateNdLinkLayerAddr fuel data len replaceMac = some r ∧ (∀ o ∈ r.reads, o < len) ∧
    match r.mac with
    | none => r.data = data
    | some m => m + ETH_ALEN ≤ len ∧ r.data = patch data m (slice replaceMac 0 ETH_ALEN) ∧
      ∃ start tag p, ndOptions (byteAt data 0) = some (start,tag) ∧ OptionAt data len start tag p ∧ m = p + 2 ∧
        byteAt data p = tag ∧ byteAt data (p + 1) = 1

/-- In a message that is searched, every option up to the one that is looked for has its length
byte inside, and its length is not zero. -/
def NdOptionsFit (data : List UInt8) (len : ℕ) : Prop :=
  ∀ start tag, ndOptions (byteAt data 0) = some (start,tag) → ∀ a, OptionAt data len start tag a → a < len →
    a + 1 < len ∧ byteAt data (a + 1) ≠ 0

section Scan
variable {data : List UInt8} {len start : ℕ} {tag len8b : UInt8} {a b c p : ℕ}

theorem optionEnd_eq_iff : optionEnd data a = a ↔ byteAt data (a + 1) = 0 := by
  rw [← UInt8.toNat_inj, optionEnd, UInt8.toNat_zero]
  omega

theorem scanTlvWalker_goOn (b c : ℕ) :
    (scanTlvWalker data len tag len8b).turn b = .goOn c ↔
      (b < len ∧ ¬IsOption data len tag len8b b) ∧ c = optionEnd data b := by
  simp only [scanTlvWalker]
  split_ifs with hb ht
  · simp [ht]
  · simp [hb, ht, eq_comm]
  · simp [hb]

theorem scanTlvWalker_hit (a : ℕ) :
    (scanTlvWalker data len tag len8b).turn a = .hit ↔ a < len ∧ IsOption data len tag len8b a := by
  simp only [scanTlvWalker]
  split_ifs with ha ht
  · simp [ha, ht]
  · simp [ht]
  · simp [ha]

/-- A found option has a length that is not zero and is inside by the test alone. -/
theorem scanTlvWalker_sound_iff (a : ℕ) :
    (scanTlvWalker data len tag 1).Sound len (fun p => p + 8 ≤ len) a ↔
      (a < len → a + 1 < len ∧ byteAt data (a + 1) ≠ 0) := by
  by_cases ha : a < len
  · have hreads : (scanTlvWalker data len tag 1).reads a = [a,a + 1] := if_pos ha
    by_cases ht : IsOption data len tag 1 a
    · obtain ⟨htag,hlen,hin⟩ := ht
      have h8 : a + 8 ≤ len := hin
      refine iff_of_true (.of_hit ((scanTlvWalker_hit a).mpr ⟨ha,htag,hlen,hin⟩) ?_ h8) ?_
      · rw [hreads]
        simp only [List.mem_cons, List.not_mem_nil, or_false, forall_eq_or_imp, forall_eq]
        omega
      · rw [hlen]
        exact fun _ => ⟨by omega,by decide⟩
    · have hturn := (@scanTlvWalker_goOn data len tag 1 a _).mpr ⟨⟨ha,ht⟩,rfl⟩
      constructor
      · intro h _
        refine ⟨h.reads_lt (a + 1) (by rw [hreads]; simp),?_⟩
        intro hzero
        have hfwd := h.forward _ hturn
        rw [optionEnd_eq_iff.mpr hzero] at hfwd
        exact absurd hfwd (Nat.lt_irrefl a)
      · intro h
        obtain ⟨h1,hne⟩ := h ha
        apply Walker.Sound.of_goOn hturn
        · rw [hreads]
          simp only [List.mem_cons, List.not_mem_nil, or_false, forall_eq_or_imp, forall_eq]
          exact ⟨ha,h1⟩
        · have hmove := mt optionEnd_eq_iff.mp hne
          rw [optionEnd] at hmove ⊢
          omega
  · have hturn : (scanTlvWalker data len tag 1).turn a = .stop := if_neg ha
    have hreads : (scanTlvWalker data len tag 1).reads a = [] := if_neg ha
    refine iff_of_true (.of_stop hturn ?_) fun h => absurd h ha
    rw [hreads]
    exact nofun

theorem scanTlv_contained_iff (data : List UInt8) (len start : ℕ) (tag : UInt8) :
    (scanTlvWalker data len tag 1).Contained len (fun p => p + 8 ≤ len) start ↔
      ∀ a, OptionAt data len start tag a → a < len → a + 1 < len ∧ byteAt data (a + 1) ≠ 0 := by
  have hle : ∀ b c, (scanTlvWalker data len tag 1).turn b = .goOn c → b ≤ c ∧ b < len := by
    intro b c hc
    obtain ⟨⟨hb,-⟩,rfl⟩ := (scanTlvWalker_goOn b c).mp hc
    exact ⟨Nat.le_add_right _ _,hb⟩
  rw [Walker.contained_iff hle]
  simp only [Walker.reach_iff_passed scanTlvWalker_goOn, scanTlvWalker_sound_iff, OptionAt]

end Scan

/-- The rewriting comes to an end inside the message exactly when no option up to the one that is
looked for has length zero or only its first byte in the message. -/
theorem nd_rewrite_contained_iff (data : List UInt8) (len : ℕ) (replaceMac : MacAddr) :
    NdContained data len replaceMac ↔ NdOptionsFit data len := by
  rw [NdContained, NdOptionsFit]
  cases hopt : ndOptions (byteAt data 0) with
  | none =>
    refine iff_of_true ⟨0,⟨data,none,[]⟩,?_,nofun,rfl⟩ nofun
    rw [updateNdLinkLayerAddr, hopt]
  | some st =>
    obtain ⟨start,tag⟩ := st
    by_cases hstart : start ≤ len
    · have hrun : ∀ fuel, updateNdLinkLayerAddr fuel data len replaceMac =
          ((scanTlvWalker data len tag 1).run fuel start).map fun r =>
            match r.1 with
            | some p => ⟨patch data (p + 2) (slice replaceMac 0 ETH_ALEN),some (p + 2),r.2⟩
            | none => ⟨data,none,r.2⟩ := by
        intro fuel
        rw [updateNdLinkLayerAddr, hopt]
        exact if_pos hstart
      simp only [hrun, Option.map_eq_some_iff, Option.some.injEq, Prod.mk.injEq]
      constructor
      · rintro ⟨fuel,-,⟨r,hr,rfl⟩,hreads,hgood⟩ _ _ ⟨rfl,rfl⟩
        apply (scanTlv_contained_iff data len start tag).mp
        refine ⟨fuel,r,hr,?_,?_⟩
        · split at hreads
          · exact hreads
          · exact hreads
        · intro p hp
          simp only [hp] at hgood
          have hin := hgood.1
          rw [ETH_ALEN] at hin
          omega
      · intro h
        obtain ⟨fuel,r,hr,hreads,hgood⟩ :=
          (scanTlv_contained_iff data len start tag).mpr (h start tag ⟨rfl,rfl⟩)
        refine ⟨fuel,_,⟨r,hr,rfl⟩,?_⟩
        cases hp : r.1 with
        | none => exact ⟨hreads,rfl⟩
        | some p =>
          obtain ⟨hreach,hhit⟩ := Walker.hit_of_run hr hp
          have hin := hgood p hp
          obtain ⟨-,htag,hlen,-⟩ := (scanTlvWalker_hit p).mp hhit
          refine ⟨hreads,by rw [ETH_ALEN]; omega,rfl,start,tag,p,⟨rfl,rfl⟩,?_,rfl,htag,hlen⟩
          exact (Walker.reach_iff_passed scanTlvWalker_goOn).mp hreach
    · refine iff_of_true ⟨0,⟨data,none,[]⟩,?_,nofun,rfl⟩ ?_
      · rw [updateNdLinkLayerAddr, hopt]
        exact if_neg hstart
      · rintro _ _ ⟨⟩ a ha hlt
        have hle : start ≤ a := by
          clear hlt
          induction ha with
          | first => exact Nat.le_refl _
          | @next b _ _ ih => exact Nat.le_trans ih (Nat.le_add_right _ _)
        omega

/-- A neighbour solicitation with one option, of length zero -/
def zeroLengthOption : List UInt8 := 135 :: List.replicate 23 0 ++ [14,0]

theorem zero_length_option_never_passed : ¬∀ data len replaceMac, NdContained data len replaceMac := by
  intro h
  obtain ⟨fuel,r,hr,-⟩ := h zeroLengthOption 26 []
  have hturn : (scanTlvWalker zeroLengthOption 26 1 1).turn 24 = .goOn 24 := by decide
  have hnone : updateNdLinkLayerAddr fuel zeroLengthOption 26 [] =
      ((scanTlvWalker zeroLengthOption 26 1 1).run fuel 24).map fun r =>
        match r.1 with
        | some p => ⟨patch zeroLengthOption (p + 2) (slice [] 0 ETH_ALEN),some (p + 2),r.2⟩
        | none => ⟨zeroLengthOption,none,r.2⟩ := rfl
  rw [hnone, Walker.run_stuck hturn] at hr
  cases hr

end Rtl8188fu
