import Rtl8188fu.Ieee80211.GetIe
import Rtl8188fu.Ap.BcnTim
import Rtl8188fu.Library.MarkedMerge

/-! # The channel plan of an access point's country element

`process_80211d`. A channel number is an `u8`; the remaining entries of an array stand for the index that runs
through it.
-/
namespace Rtl8188fu
open Bytes

def COUNTRY_IE : UInt8 := 7
def MAX_CHANNEL_NUM : ℕ := 38

inductive ScanType
  | passive
  | active
deriving DecidableEq

structure RtChannelInfo where
  channelNum : ℕ
  scanType : ScanType
deriving DecidableEq

/-- An entry that `_rtw_memset` has cleared -/
def noChannel : RtChannelInfo := ⟨0,.passive⟩

/-- What `process_80211d` uses of the adapter -/
structure ChplanState where
  enable80211d : Bool
  updateByApDone : Bool
  /-- `WIRELESS_11G` and `WIRELESS_11A` of `wireless_mode` -/
  wireless11g : Bool
  wireless11a : Bool
  channelSet : List RtChannelInfo
deriving DecidableEq

/-- What it uses of `WLAN_BSSID_EX`; `ies` goes on behind `IELength`. -/
structure ApBss where
  ies : List UInt8
  ieLength : ℕ
  dsConfig : ℕ

def tripletChannels (fcn noc : UInt8) : List ℕ :=
  (List.range noc.toNat).map fun j => if fcn.toNat ≤ 14 then (fcn.toNat + j) % 256 else (fcn.toNat + j * 4) % 256

/-- `chplan_ap` from the bytes behind the country string -/
def chplanAp : List UInt8 → List ℕ
  | fcn :: noc :: _ :: rest => tripletChannels fcn noc ++ chplanAp rest
  | _ => []

/-- The loop that takes the next channel of the station and of the access point: what it writes, and what is
left of both -/
def mergeLoop (stopS : RtChannelInfo → Bool) (stopA : ℕ → Bool) :
    ℕ → List RtChannelInfo → List ℕ → List RtChannelInfo × List RtChannelInfo × List ℕ
  | fuel + 1, c :: sta, ch :: ap =>
    if stopS c then ([],c :: sta,ch :: ap)
    else if stopA ch then ([],c :: sta,ch :: ap)
    else if c.channelNum = ch then
      let r := mergeLoop stopS stopA fuel sta ap
      (⟨ch,.active⟩ :: r.1,r.2)
    else if c.channelNum < ch then
      let r := mergeLoop stopS stopA fuel sta (ch :: ap)
      (⟨c.channelNum,.passive⟩ :: r.1,r.2)
    else
      let r := mergeLoop stopS stopA fuel (c :: sta) ap
      (⟨ch,.active⟩ :: r.1,r.2)
  | _, sta, ap => ([],sta,ap)

/-- What the two loops behind it write -/
def leftOver (stopS : RtChannelInfo → Bool) (stopA : ℕ → Bool) (sta : List RtChannelInfo) (ap : List ℕ) :
    List RtChannelInfo :=
  -- change AP not support channel to Passive scan, and add channel AP supported
  (sta.takeWhile fun c => !stopS c).map (fun c => ⟨c.channelNum,.passive⟩) ++
    (ap.takeWhile fun ch => !stopA ch).map (⟨·,.active⟩)

/-- The three loops of an enabled band -/
def mergeBand (stopS : RtChannelInfo → Bool) (stopA : ℕ → Bool) (fuel : ℕ) (sta : List RtChannelInfo)
    (ap : List ℕ) :
    List RtChannelInfo × List RtChannelInfo × List ℕ :=
  let r := mergeLoop stopS stopA fuel sta ap
  (r.1 ++ leftOver stopS stopA r.2.1 r.2.2,r.2.1.dropWhile fun c => !stopS c,r.2.2.dropWhile fun ch => !stopA ch)

def stop2g (c : RtChannelInfo) : Bool := c.channelNum = 0 || 14 < c.channelNum
def stop5g (c : RtChannelInfo) : Bool := c.channelNum = 0

/-- The entries that are written to the new channel set -/
def chplanNew (s : ChplanState) (ap : List ℕ) : List RtChannelInfo :=
  let fuel := s.channelSet.length + ap.length
  let r :=
    if s.wireless11g then mergeBand stop2g (14 < ·) fuel s.channelSet ap
    else (s.channelSet.takeWhile (!stop2g ·),s.channelSet.dropWhile (!stop2g ·),ap.dropWhile (· ≤ 14))
  r.1 ++ if s.wireless11a then (mergeBand stop5g (· = 0) fuel r.2.1 r.2.2).1 else r.2.1.takeWhile (!stop5g ·)

/-- If channel is used by AP, set channel scan type to active -/
def setApChannelActive (channel : ℕ) : List RtChannelInfo → List RtChannelInfo
  | [] => []
  | c :: set =>
    if c.channelNum = 0 then c :: set
    else if c.channelNum = channel then
      (if c.scanType = .passive ∧ ¬(52 ≤ channel ∧ channel ≤ 144) then { c with scanType := .active }
        else c) :: set
    else c :: setApChannelActive channel set

/-- The entries of the array `channel_set`, the rest of it cleared -/
def channelArray (cs : List RtChannelInfo) : List RtChannelInfo :=
  cs ++ List.replicate (MAX_CHANNEL_NUM - cs.length) noChannel

/-- The channels that the country element of a beacon lists -/
def apChannels (bssid : ApBss) : Option (List ℕ) :=
  match rtwGetIe (bssid.ies.drop BEACON_IE_OFFSET) COUNTRY_IE (bssid.ieLength - BEACON_IE_OFFSET) with
  | none => none
  | some (p, len) =>
    if len < 6 then none else some (chplanAp (slice bssid.ies (BEACON_IE_OFFSET + p + 2 + 3) (len - 3)))

/-- `process_80211d`; `none` when it writes behind one of its arrays -/
def process80211d (s : ChplanState) (bssid : ApBss) : Option ChplanState :=
  let channel := bssid.dsConfig % 256
  if s.enable80211d = true ∧ s.updateByApDone = false then
    match apChannels bssid with
    | none => some s
    | some ap =>
      if MAX_CHANNEL_NUM < ap.length then none
      else if MAX_CHANNEL_NUM < (chplanNew s ap).length then none
      else some { s with
        updateByApDone := true
        channelSet := setApChannelActive channel (channelArray (chplanNew s ap)) }
  else some { s with channelSet := setApChannelActive channel s.channelSet }

/-! ## What a merged channel set is to be -/

inductive Band
  | band2g
  | band5g
deriving DecidableEq

def Band.has : Band → ℕ → Bool
  | .band2g, ch => 0 < ch && ch ≤ 14
  | .band5g, ch => 14 < ch

def ChplanState.enabled (s : ChplanState) : Band → Bool
  | .band2g => s.wireless11g
  | .band5g => s.wireless11a

/-- The channel is in an enabled band. -/
def ChplanState.takes (s : ChplanState) (ch : ℕ) : Bool :=
  s.enabled .band2g && Band.band2g.has ch || s.enabled .band5g && Band.band5g.has ch

/-- The channels of the station: they ascend and fit the array. -/
structure StaChannels where
  list : List RtChannelInfo
  ascending : (list.map RtChannelInfo.channelNum).Pairwise (· < ·)
  channels : ∀ c ∈ list, 0 < c.channelNum
  fits : list.length ≤ MAX_CHANNEL_NUM

/-- The entries before the first that is cleared -/
def setChannels (set : List RtChannelInfo) : List RtChannelInfo := set.takeWhile fun c => c.channelNum ≠ 0

def bandOf (b : Band) (set : List RtChannelInfo) : List RtChannelInfo := set.filter fun c => b.has c.channelNum

/-- The channel with its scan type, active where `own` holds -/
def activate (own : ℕ → Bool) (c : RtChannelInfo) : RtChannelInfo :=
  if own c.channelNum then { c with scanType := .active } else c

/-- `own` tells the channels that are active though the access point does not list them. -/
structure ChannelsMerged (s : ChplanState) (sta : List RtChannelInfo) (ap : List ℕ) (own : ℕ → Bool)
    (set : List RtChannelInfo) : Prop where
  size : set.length = MAX_CHANNEL_NUM
  cleared : ∃ n, set = setChannels set ++ List.replicate n noChannel
  ascending : ∀ b, s.enabled b → ((bandOf b (setChannels set)).map RtChannelInfo.channelNum).Pairwise (· < ·)
  union : ∀ b, s.enabled b → ∀ ch,
    ch ∈ (bandOf b (setChannels set)).map RtChannelInfo.channelNum ↔
      b.has ch ∧ (ch ∈ sta.map RtChannelInfo.channelNum ∨ ch ∈ ap)
  mark : ∀ b, s.enabled b → ∀ c ∈ bandOf b (setChannels set),
    (c.scanType = .active ↔ c.channelNum ∈ ap ∨ own c.channelNum)
  kept : ∀ b, ¬s.enabled b → bandOf b (setChannels set) = (bandOf b sta).map (activate own)

/-- The channels of the access point that the loops of a band take -/
def consumed (ap : List ℕ) : Band → List ℕ
  | .band2g => ap.takeWhile (· ≤ 14)
  | .band5g => (ap.dropWhile (· ≤ 14)).takeWhile (· ≠ 0)

/-- The channels of the element ascend in each enabled band, no 5 GHz channel stands before one of 2.4 GHz, and
there is room for all of them. -/
structure CountryFits (s : ChplanState) (sta : List RtChannelInfo) (ap : List ℕ) : Prop where
  count : ap.length ≤ MAX_CHANNEL_NUM
  ascending : ∀ b, s.enabled b → (consumed ap b).Pairwise (· < ·)
  listed : ∀ b, s.enabled b → ∀ ch, ch ∈ consumed ap b ↔ b.has ch ∧ ch ∈ ap
  room : ((sta.map RtChannelInfo.channelNum).toFinset ∪
    (ap.filter s.takes).toFinset).card ≤ MAX_CHANNEL_NUM

/-! ## The loops of a band -/

def infoOf (z : ℕ × Bool) : RtChannelInfo := ⟨z.1,if z.2 then .active else .passive⟩

section
variable (stopS : RtChannelInfo → Bool) (stopA : ℕ → Bool)

theorem leftOver_merged {sta : List RtChannelInfo} {ap : List ℕ}
    (h : sta.takeWhile (fun c => !stopS c) = [] ∨ ap.takeWhile (fun ch => !stopA ch) = []) :
    ∃ zs, MarkedMerge ((sta.takeWhile fun c => !stopS c).map RtChannelInfo.channelNum)
      (ap.takeWhile fun ch => !stopA ch) zs ∧ leftOver stopS stopA sta ap = zs.map infoOf := by
  rcases h with h | h
  · refine ⟨_,by rw [h]; exact .right _,?_⟩
    simp [leftOver, h, infoOf, Function.comp_def]
  · refine ⟨_,by rw [h]; exact .left _,?_⟩
    simp [leftOver, h, infoOf, Function.comp_def]

/-- The loops of a band merge the channels up to where each list stops, and leave the rest. -/
def BandMerged (sta : List RtChannelInfo) (ap : List ℕ)
    (r : List RtChannelInfo × List RtChannelInfo × List ℕ) : Prop :=
  ∃ zs, MarkedMerge ((sta.takeWhile fun c => !stopS c).map RtChannelInfo.channelNum)
    (ap.takeWhile fun ch => !stopA ch) zs ∧
    r = (zs.map infoOf,sta.dropWhile fun c => !stopS c,ap.dropWhile fun ch => !stopA ch)

theorem bandMerged_of_exit {fuel : ℕ} {sta : List RtChannelInfo} {ap : List ℕ}
    (hexit : mergeLoop stopS stopA fuel sta ap = ([],sta,ap))
    (hstop : sta.takeWhile (fun c => !stopS c) = [] ∨ ap.takeWhile (fun ch => !stopA ch) = []) :
    BandMerged stopS stopA sta ap (mergeBand stopS stopA fuel sta ap) := by
  obtain ⟨zs,hzs,hleft⟩ := leftOver_merged stopS stopA hstop
  refine ⟨zs,hzs,?_⟩
  unfold mergeBand
  simp only [hexit, hleft, List.nil_append]

theorem mergeBand_merged {fuel : ℕ} {sta : List RtChannelInfo} {ap : List ℕ}
    (hfuel : sta.length + ap.length ≤ fuel) :
    BandMerged stopS stopA sta ap (mergeBand stopS stopA fuel sta ap) := by
  induction fuel generalizing sta ap with
  | zero =>
    have hsta : sta = [] := List.eq_nil_of_length_eq_zero (by omega)
    have hap : ap = [] := List.eq_nil_of_length_eq_zero (by omega)
    subst hsta hap
    exact bandMerged_of_exit stopS stopA rfl (.inl rfl)
  | succ fuel ih =>
    rcases sta with _ | ⟨c,sta⟩
    · exact bandMerged_of_exit stopS stopA rfl (.inl rfl)
    rcases ap with _ | ⟨ch,ap⟩
    · exact bandMerged_of_exit stopS stopA rfl (.inr rfl)
    by_cases hs : stopS c = true
    · exact bandMerged_of_exit stopS stopA (by simp [mergeLoop, hs]) (.inl (by simp [hs]))
    by_cases ha : stopA ch = true
    · exact bandMerged_of_exit stopS stopA (by simp [mergeLoop, hs, ha]) (.inr (by simp [ha]))
    simp only [List.length_cons] at hfuel
    rw [Bool.not_eq_true] at hs ha
    rcases lt_trichotomy c.channelNum ch with hlt | heq | hlt
    · obtain ⟨zs,hzs,heq⟩ := @ih sta (ch :: ap) (by simp only [List.length_cons]; omega)
      refine ⟨(c.channelNum,false) :: zs,?_,?_⟩
      · simp only [List.takeWhile_cons, hs, ha, Bool.not_false, if_true, List.map_cons] at hzs ⊢
        exact .first hlt hzs
      · unfold mergeBand at heq ⊢
        simp only [mergeLoop, hs, ha, hlt, hlt.ne, Prod.mk.injEq] at heq ⊢
        simp [heq, hs, infoOf]
    · obtain ⟨zs,hzs,hr⟩ := @ih sta ap (by omega)
      refine ⟨(ch,true) :: zs,?_,?_⟩
      · simp only [List.takeWhile_cons, hs, ha, Bool.not_false, if_true, List.map_cons, heq]
        exact .both ch hzs
      · unfold mergeBand at hr ⊢
        simp only [mergeLoop, hs, ha, heq, Prod.mk.injEq] at hr ⊢
        simp [hr, hs, ha, infoOf]
    · obtain ⟨zs,hzs,heq⟩ := @ih (c :: sta) ap (by simp only [List.length_cons]; omega)
      refine ⟨(ch,true) :: zs,?_,?_⟩
      · simp only [List.takeWhile_cons, hs, ha, Bool.not_false, if_true, List.map_cons] at hzs ⊢
        exact .second hlt hzs
      · unfold mergeBand at heq ⊢
        simp only [mergeLoop, hs, ha, hlt.ne', hlt.not_gt, Prod.mk.injEq] at heq ⊢
        simp [heq, ha, infoOf]
end

/-! ## The two bands of the station's set -/

theorem takeWhile_cleared {p : RtChannelInfo → Bool} (hp : p noChannel = false) (cs : List RtChannelInfo) (n : ℕ) :
    (cs ++ List.replicate n noChannel).takeWhile p = cs.takeWhile p := by
  induction cs with
  | nil => cases n <;> simp [List.replicate_succ, hp]
  | cons c cs ih => simp only [List.cons_append, List.takeWhile_cons, ih]

theorem dropWhile_cleared {p : RtChannelInfo → Bool} (hp : p noChannel = false) (cs : List RtChannelInfo) (n : ℕ) :
    (cs ++ List.replicate n noChannel).dropWhile p = cs.dropWhile p ++ List.replicate n noChannel := by
  induction cs with
  | nil => cases n <;> simp [List.replicate_succ, hp]
  | cons c cs ih =>
    simp only [List.cons_append, List.dropWhile_cons, ih]
    split <;> rfl

/-- Ascending channels are those of the 2.4 GHz band with the others behind them. -/
theorem split_bands {cs : List RtChannelInfo} (hasc : (cs.map RtChannelInfo.channelNum).Pairwise (· < ·))
    (hpos : ∀ c ∈ cs, 0 < c.channelNum) :
    cs.takeWhile (!stop2g ·) = bandOf .band2g cs ∧ cs.dropWhile (!stop2g ·) = bandOf .band5g cs := by
  unfold bandOf
  induction cs with
  | nil => exact ⟨rfl,rfl⟩
  | cons c cs ih =>
    rw [List.map_cons, List.pairwise_cons] at hasc
    have hc := hpos c List.mem_cons_self
    by_cases hlow : c.channelNum ≤ 14
    · obtain ⟨htake,hdrop⟩ := ih hasc.2 fun d hd => hpos d (List.mem_cons_of_mem _ hd)
      have hstop : stop2g c = false := by simp [stop2g, hc.ne', hlow]
      simp [hstop, htake, hdrop, Band.has, hc, hlow]
    · have hall : ∀ d ∈ c :: cs, 14 < d.channelNum := by
        intro d hd
        rcases List.mem_cons.mp hd with rfl | hd
        · omega
        · have hlt := hasc.1 _ (List.mem_map_of_mem hd)
          omega
      have hnone : (c :: cs).filter (fun d => Band.band2g.has d.channelNum) = [] :=
        List.filter_eq_nil_iff.mpr fun d hd => by simp [Band.has, (hall d hd).not_ge]
      have hself : (c :: cs).filter (fun d => Band.band5g.has d.channelNum) = c :: cs :=
        List.filter_eq_self.mpr fun d hd => by simp [Band.has, hall d hd]
      have hstop : stop2g c = true := by simp [stop2g, Nat.lt_of_not_le hlow]
      rw [hnone, hself]
      simp [hstop]

structure BandWritten (s : ChplanState) (sta : List RtChannelInfo) (ap : List ℕ) (b : Band) (w : List RtChannelInfo) :
    Prop where
  merged : s.enabled b →
    ∃ zs, MarkedMerge ((bandOf b sta).map RtChannelInfo.channelNum) (consumed ap b) zs ∧ w = zs.map infoOf
  kept : ¬s.enabled b → w = bandOf b sta

theorem chplanNew_bands {s : ChplanState} {sta : StaChannels} (hset : s.channelSet = channelArray sta.list)
    (ap : List ℕ) :
    ∃ w2 w5, chplanNew s ap = w2 ++ w5 ∧ BandWritten s sta.list ap .band2g w2 ∧
    BandWritten s sta.list ap .band5g w5 := by
  obtain ⟨htake,hdrop⟩ := split_bands sta.ascending sta.channels
  have hlow : s.channelSet.takeWhile (!stop2g ·) = bandOf .band2g sta.list := by
    have hcleared := @takeWhile_cleared (!stop2g ·) rfl sta.list (MAX_CHANNEL_NUM - sta.list.length)
    rw [hset, channelArray, hcleared, htake]
  have hall : (bandOf .band5g sta.list).takeWhile (!stop5g ·) = bandOf .band5g sta.list :=
    List.takeWhile_eq_self_iff.mpr fun c hc => by
      have hpos := sta.channels c (List.mem_filter.mp hc).1
      simp [stop5g, hpos.ne']
  have hhigh : (s.channelSet.dropWhile (!stop2g ·)).takeWhile (!stop5g ·) = bandOf .band5g sta.list := by
    have hcleared := @dropWhile_cleared (!stop2g ·) rfl sta.list (MAX_CHANNEL_NUM - sta.list.length)
    have hends := @takeWhile_cleared (!stop5g ·) rfl (bandOf .band5g sta.list) (MAX_CHANNEL_NUM - sta.list.length)
    rw [hset, channelArray, hcleared, hdrop, hends, hall]
  have hstop2 : (fun ch : ℕ => !decide (14 < ch)) = fun ch => decide (ch ≤ 14) := funext fun ch => by
    simp only [← decide_not, not_lt]
  have hstop5 : (fun ch : ℕ => !decide (ch = 0)) = fun ch => decide (ch ≠ 0) := funext fun ch => by simp
  -- both branches of the 2.4 GHz band leave the same for the other one
  obtain ⟨w2,hw2,hfirst⟩ : ∃ w2, BandWritten s sta.list ap .band2g w2 ∧
      (if s.wireless11g then mergeBand stop2g (14 < ·) (s.channelSet.length + ap.length) s.channelSet ap
        else (s.channelSet.takeWhile (!stop2g ·),s.channelSet.dropWhile (!stop2g ·),ap.dropWhile (· ≤ 14))) =
        (w2,s.channelSet.dropWhile (!stop2g ·),ap.dropWhile (· ≤ 14)) := by
    by_cases h2 : s.wireless11g = true
    · obtain ⟨zs,hzs,hr⟩ := @mergeBand_merged stop2g (14 < ·) _ s.channelSet ap (Nat.le_refl _)
      rw [hstop2] at hzs hr
      rw [hlow] at hzs
      exact ⟨zs.map infoOf,⟨fun _ => ⟨zs,hzs,rfl⟩,fun hn => absurd h2 hn⟩,by rw [if_pos h2, hr]⟩
    · exact ⟨_,⟨fun hp => absurd hp h2,fun _ => rfl⟩,by rw [if_neg h2, hlow]⟩
  obtain ⟨w5,hw5,hsecond⟩ : ∃ w5, BandWritten s sta.list ap .band5g w5 ∧
      (if s.wireless11a then
          (mergeBand stop5g (· = 0) (s.channelSet.length + ap.length) (s.channelSet.dropWhile (!stop2g ·))
            (ap.dropWhile (· ≤ 14))).1
        else (s.channelSet.dropWhile (!stop2g ·)).takeWhile (!stop5g ·)) = w5 := by
    by_cases h5 : s.wireless11a = true
    · have hfuel : (s.channelSet.dropWhile (!stop2g ·)).length + (ap.dropWhile (· ≤ 14)).length ≤
          s.channelSet.length + ap.length :=
        Nat.add_le_add (List.length_dropWhile_le _ _) (List.length_dropWhile_le _ _)
      obtain ⟨zs,hzs,hr⟩ := mergeBand_merged stop5g (· = 0) hfuel
      rw [hstop5, hhigh] at hzs
      exact ⟨zs.map infoOf,⟨fun _ => ⟨zs,hzs,rfl⟩,fun hn => absurd h5 hn⟩,by rw [if_pos h5, hr]⟩
    · exact ⟨_,⟨fun hp => absurd hp h5,fun _ => rfl⟩,by rw [if_neg h5, hhigh]⟩
  refine ⟨w2,w5,?_,hw2,hw5⟩
  unfold chplanNew
  simp only [hfirst, hsecond]

/-! ## What was written for a band -/

/-- The entries of a band, before the own channel of the access point is made active -/
structure BandIs (s : ChplanState) (sta : List RtChannelInfo) (ap : List ℕ) (b : Band) (w : List RtChannelInfo) :
    Prop where
  inBand : ∀ c ∈ w, b.has c.channelNum
  ascending : (w.map RtChannelInfo.channelNum).Pairwise (· < ·)
  union : s.enabled b → ∀ ch,
    ch ∈ w.map RtChannelInfo.channelNum ↔ b.has ch ∧ (ch ∈ sta.map RtChannelInfo.channelNum ∨ ch ∈ ap)
  mark : s.enabled b → ∀ c ∈ w, (c.scanType = .active ↔ c.channelNum ∈ ap)
  kept : ¬s.enabled b → w = bandOf b sta

theorem mem_bandOf_map (b : Band) (sta : List RtChannelInfo) (ch : ℕ) :
    ch ∈ (bandOf b sta).map RtChannelInfo.channelNum ↔ b.has ch ∧ ch ∈ sta.map RtChannelInfo.channelNum := by
  unfold bandOf
  simp only [List.mem_map, List.mem_filter]
  constructor
  · rintro ⟨c,⟨hc,hhas⟩,rfl⟩
    exact ⟨hhas,c,hc,rfl⟩
  · rintro ⟨hhas,c,hc,rfl⟩
    exact ⟨c,⟨hc,hhas⟩,rfl⟩

theorem bandOf_ascending (b : Band) (sta : StaChannels) :
    ((bandOf b sta.list).map RtChannelInfo.channelNum).Pairwise (· < ·) :=
  sta.ascending.sublist (List.filter_sublist.map _)

theorem BandWritten.bandIs {s : ChplanState} {sta : StaChannels} {ap : List ℕ} {b : Band} {w : List RtChannelInfo}
    (h : BandWritten s sta.list ap b w) (hfit : CountryFits s sta.list ap) : BandIs s sta.list ap b w := by
  by_cases hon : s.enabled b = true
  · obtain ⟨zs,hzs,rfl⟩ := h.merged hon
    have hsta := bandOf_ascending b sta
    have hap := hfit.ascending b hon
    have hnums : (zs.map infoOf).map RtChannelInfo.channelNum = zs.map Prod.fst := by
      simp [infoOf, Function.comp_def]
    have hunion : ∀ ch, ch ∈ zs.map Prod.fst ↔
        b.has ch ∧ (ch ∈ sta.list.map RtChannelInfo.channelNum ∨ ch ∈ ap) := by
      intro ch
      rw [hzs.mem_iff, mem_bandOf_map, hfit.listed b hon]
      tauto
    refine ⟨?_,hnums ▸ hzs.sorted hsta hap,fun _ => hnums ▸ hunion,fun _ => ?_,fun hn => absurd hon hn⟩
    · intro c hc
      exact ((hunion _).mp (hnums ▸ List.mem_map_of_mem hc)).1
    · intro c hc
      have hhas := ((hunion _).mp (hnums ▸ List.mem_map_of_mem hc)).1
      obtain ⟨⟨ch,m⟩,hz,rfl⟩ := List.mem_map.mp hc
      have hmark : m = true ↔ ch ∈ ap :=
        (hzs.mark_iff hsta hap hz).trans ((hfit.listed b hon ch).trans (and_iff_right hhas))
      cases m <;> simpa [infoOf] using hmark
  · obtain rfl := h.kept hon
    exact ⟨fun c hc => (List.mem_filter.mp hc).2,bandOf_ascending b sta,fun hp => absurd hp hon,fun hp =>
      absurd hp hon, fun _ => rfl⟩

/-! ## The channel the access point is on -/

/-- The channel of the beacon is made active, but for the 5 GHz channels of band 2 and 3. -/
def ownChannel (bssid : ApBss) (ch : ℕ) : Bool := ch = bssid.dsConfig % 256 ∧ ¬(52 ≤ ch ∧ ch ≤ 144)

@[simp] theorem activate_channelNum (own : ℕ → Bool) (c : RtChannelInfo) :
    (activate own c).channelNum = c.channelNum := by
  unfold activate
  split <;> rfl

theorem activate_active (own : ℕ → Bool) (c : RtChannelInfo) :
    (activate own c).scanType = .active ↔ c.scanType = .active ∨ own c.channelNum := by
  unfold activate
  split <;> simp_all

theorem setApChannelActive_eq (bssid : ApBss) {cs : List RtChannelInfo} (n : ℕ)
    (hasc : (cs.map RtChannelInfo.channelNum).Pairwise (· < ·)) (hpos : ∀ c ∈ cs, 0 < c.channelNum) :
    setApChannelActive (bssid.dsConfig % 256) (cs ++ List.replicate n noChannel) =
      cs.map (activate (ownChannel bssid)) ++ List.replicate n noChannel := by
  induction cs with
  | nil => cases n <;> simp [setApChannelActive, List.replicate_succ, noChannel]
  | cons c cs ih =>
    rw [List.map_cons, List.pairwise_cons] at hasc
    have hc := hpos c List.mem_cons_self
    simp only [List.cons_append, setApChannelActive, hc.ne', if_false, List.map_cons]
    split
    · rename_i heq
      -- no later entry is of this channel
      have hrest : cs.map (activate (ownChannel bssid)) = cs := by
        refine (List.map_congr_left fun d hd => ?_).trans (List.map_id cs)
        have hlt := hasc.1 _ (List.mem_map_of_mem hd)
        simp [activate, ownChannel, ← heq, hlt.ne']
      rw [hrest]
      congr 1
      obtain ⟨ch,st⟩ := c
      obtain rfl : ch = bssid.dsConfig % 256 := heq
      by_cases hdfs : 52 ≤ bssid.dsConfig % 256 ∧ bssid.dsConfig % 256 ≤ 144
      · simp [activate, ownChannel, hdfs]
      · have hact : activate (ownChannel bssid) ⟨bssid.dsConfig % 256,st⟩ = ⟨bssid.dsConfig % 256,.active⟩ :=
          if_pos (decide_eq_true ⟨rfl,hdfs⟩)
        rw [hact]
        cases st <;> simp [hdfs]
    · rename_i hne
      have hact : activate (ownChannel bssid) c = c := by simp [activate, ownChannel, hne]
      rw [hact, ih hasc.2 fun d hd => hpos d (List.mem_cons_of_mem _ hd)]

/-! ## Both bands together -/

section
variable {s : ChplanState} {sta : StaChannels} {ap : List ℕ} {w : Band → List RtChannelInfo}

theorem Band.pos_of_has {b : Band} {ch : ℕ} (h : b.has ch) : 0 < ch := by
  cases b <;> simp only [Band.has, Bool.and_eq_true, decide_eq_true_eq] at h <;> omega

theorem Band.eq_of_has {b b' : Band} {ch : ℕ} (h : b.has ch) (h' : b'.has ch) : b = b' := by
  cases b <;> cases b' <;> simp only [Band.has, Bool.and_eq_true, decide_eq_true_eq] at h h' <;> first | rfl | omega

def bothBands (w : Band → List RtChannelInfo) : List RtChannelInfo := w .band2g ++ w .band5g

theorem mem_bothBands {c : RtChannelInfo} : c ∈ bothBands w ↔ ∃ b, c ∈ w b := by
  unfold bothBands
  rw [List.mem_append]
  refine ⟨fun h => h.elim (⟨_,·⟩) (⟨_,·⟩),?_⟩
  rintro ⟨_|_,h⟩
  · exact .inl h
  · exact .inr h

theorem bothBands_pos (hw : ∀ b, BandIs s sta.list ap b (w b)) : ∀ c ∈ bothBands w, 0 < c.channelNum := by
  intro c hc
  obtain ⟨b,hb⟩ := mem_bothBands.mp hc
  exact Band.pos_of_has ((hw b).inBand c hb)

theorem bothBands_ascending (hw : ∀ b, BandIs s sta.list ap b (w b)) :
    ((bothBands w).map RtChannelInfo.channelNum).Pairwise (· < ·) := by
  unfold bothBands
  rw [List.map_append, List.pairwise_append]
  refine ⟨(hw _).ascending,(hw _).ascending,?_⟩
  intro x hx y hy
  obtain ⟨c,hc,rfl⟩ := List.mem_map.mp hx
  obtain ⟨d,hd,rfl⟩ := List.mem_map.mp hy
  have hlow := (hw _).inBand c hc
  have hhigh := (hw _).inBand d hd
  simp only [Band.has, Bool.and_eq_true, decide_eq_true_eq] at hlow hhigh
  omega

theorem bandOf_bothBands (hw : ∀ b, BandIs s sta.list ap b (w b)) (b : Band) : bandOf b (bothBands w) = w b := by
  have hself : ∀ b, bandOf b (w b) = w b := fun b => List.filter_eq_self.mpr (hw b).inBand
  have hother : ∀ b b', b ≠ b' → bandOf b (w b') = [] := fun b b' hne =>
    List.filter_eq_nil_iff.mpr fun c hc hhas => hne (Band.eq_of_has hhas ((hw b').inBand c hc))
  have happend : bandOf b (bothBands w) = bandOf b (w .band2g) ++ bandOf b (w .band5g) := List.filter_append _ _
  rw [happend]
  cases b with
  | band2g => rw [hself, hother .band2g .band5g (by decide), List.append_nil]
  | band5g => rw [hself, hother .band5g .band2g (by decide), List.nil_append]

theorem bothBands_fit (hw : ∀ b, BandIs s sta.list ap b (w b)) (hfit : CountryFits s sta.list ap) :
    (bothBands w).length ≤ MAX_CHANNEL_NUM := by
  have hnodup : ((bothBands w).map RtChannelInfo.channelNum).Nodup := (bothBands_ascending hw).imp fun hlt => hlt.ne
  rw [← List.length_map RtChannelInfo.channelNum, ← List.toFinset_card_of_nodup hnodup]
  refine (Finset.card_le_card ?_).trans hfit.room
  intro ch hch
  obtain ⟨c,hc,rfl⟩ := List.mem_map.mp (List.mem_toFinset.mp hch)
  obtain ⟨b,hb⟩ := mem_bothBands.mp hc
  simp only [Finset.mem_union, List.mem_toFinset, List.mem_filter]
  by_cases hon : s.enabled b = true
  · obtain ⟨hhas,hsta | hap⟩ := ((hw b).union hon _).mp (List.mem_map_of_mem hb)
    · exact .inl hsta
    · refine .inr ⟨hap,?_⟩
      cases b <;> simp [ChplanState.takes, hon, hhas]
  · rw [(hw b).kept hon] at hb
    exact .inl (List.mem_map_of_mem (List.mem_filter.mp hb).1)

theorem bandOf_activate (b : Band) (own : ℕ → Bool) (cs : List RtChannelInfo) :
    bandOf b (cs.map (activate own)) = (bandOf b cs).map (activate own) := by
  unfold bandOf
  simp [List.filter_map, Function.comp_def]

theorem map_activate_channelNum (own : ℕ → Bool) (cs : List RtChannelInfo) :
    (cs.map (activate own)).map RtChannelInfo.channelNum = cs.map RtChannelInfo.channelNum := by
  simp [Function.comp_def]

theorem channelsMerged_of_bands (hw : ∀ b, BandIs s sta.list ap b (w b)) (hfit : CountryFits s sta.list ap)
    (own : ℕ → Bool) :
    ChannelsMerged s sta.list ap own
      ((bothBands w).map (activate own) ++ List.replicate (MAX_CHANNEL_NUM - (bothBands w).length) noChannel) := by
  have hlen := bothBands_fit hw hfit
  have hall :
      ((bothBands w).map (activate own)).takeWhile (fun c => c.channelNum ≠ 0) = (bothBands w).map (activate own) :=
    List.takeWhile_eq_self_iff.mpr fun c hc => by
      obtain ⟨d,hd,rfl⟩ := List.mem_map.mp hc
      simpa using (bothBands_pos hw d hd).ne'
  have hset : ∀ n, setChannels ((bothBands w).map (activate own) ++ List.replicate n noChannel) =
      (bothBands w).map (activate own) := fun n => (takeWhile_cleared rfl _ n).trans hall
  have hband : ∀ b n, bandOf b (setChannels ((bothBands w).map (activate own) ++ List.replicate n noChannel)) =
      (w b).map (activate own) := fun b n => by
    rw [hset, bandOf_activate, bandOf_bothBands hw]
  refine ⟨?_,⟨_,by rw [hset]⟩,?_,?_,?_,?_⟩
  · rw [List.length_append, List.length_map, List.length_replicate]
    omega
  · intro b _
    rw [hband, map_activate_channelNum]
    exact (hw b).ascending
  · intro b hon
    rw [hband, map_activate_channelNum]
    exact (hw b).union hon
  · intro b hon c hc
    rw [hband] at hc
    obtain ⟨d,hd,rfl⟩ := List.mem_map.mp hc
    rw [activate_active, activate_channelNum, (hw b).mark hon d hd]
  · intro b hoff
    rw [hband, (hw b).kept hoff]
end

/-- Where the country element fits, the channel set becomes the merge, the channel of the beacon made active. -/
theorem country_merge_exact {s : ChplanState} {bssid : ApBss} {sta : StaChannels} {ap : List ℕ}
    (hdo : s.enable80211d = true ∧ s.updateByApDone = false) (hset : s.channelSet = channelArray sta.list)
    (hap : apChannels bssid = some ap) (hfit : CountryFits s sta.list ap) :
    ∃ t, process80211d s bssid = some t ∧ ChannelsMerged s sta.list ap (ownChannel bssid) t.channelSet := by
  obtain ⟨w2,w5,hnew,hw2,hw5⟩ := chplanNew_bands hset ap
  let w : Band → List RtChannelInfo := fun b => match b with
    | .band2g => w2
    | .band5g => w5
  have hw : ∀ b, BandIs s sta.list ap b (w b) := fun b => match b with
    | .band2g => hw2.bandIs hfit
    | .band5g => hw5.bandIs hfit
  have hboth : chplanNew s ap = bothBands w := hnew
  have hlen := bothBands_fit hw hfit
  have hact := setApChannelActive_eq bssid (MAX_CHANNEL_NUM - (bothBands w).length) (bothBands_ascending hw)
      (bothBands_pos hw)
  refine ⟨{ s with updateByApDone := true, channelSet := _ },?_,channelsMerged_of_bands hw hfit (ownChannel bssid)⟩
  unfold process80211d
  simp only [hdo, hap, and_self, if_true, hboth, hfit.count.not_gt, hlen.not_gt, if_false, channelArray, hact]

def beaconCountry (triplets : List UInt8) : ApBss :=
  { ies := List.replicate BEACON_IE_OFFSET 0 ++ 7 :: UInt8.ofNat (triplets.length + 3) :: 85 :: 83 :: 32 :: triplets,
    ieLength := BEACON_IE_OFFSET + 5 + triplets.length, dsConfig := 6 }

def stationFour : StaChannels where
  list := [⟨1,.active⟩,⟨3,.active⟩,⟨6,.active⟩,⟨36,.passive⟩]
  ascending := by decide
  channels := by decide
  fits := by decide

def chplanFour : ChplanState :=
  { enable80211d := true, updateByApDone := false, wireless11g := true, wireless11a := true,
    channelSet := channelArray stationFour.list }

theorem countryFits_beaconCountry : CountryFits chplanFour stationFour.list [1,2,36,40] where
  count := by decide
  ascending := by
    intro b _
    cases b <;> decide
  listed := by
    intro b _ ch
    cases b <;> simp [consumed, Band.has] <;> omega
  room := by decide

theorem country_merge_exact_beaconCountry :
    ∃ t, process80211d chplanFour (beaconCountry [1,2,20,36,2,20]) = some t ∧
      ChannelsMerged chplanFour stationFour.list [1,2,36,40]
      (ownChannel (beaconCountry [1,2,20,36,2,20])) t.channelSet :=
  country_merge_exact ⟨rfl,rfl⟩ rfl (by decide) countryFits_beaconCountry

/-- The channel set that a beacon with these triplets leaves -/
theorem process80211d_beaconCountry {triplets : List UInt8} {t : ChplanState} (cs : List RtChannelInfo)
    (heq : process80211d chplanFour (beaconCountry triplets) =
      some { chplanFour with updateByApDone := true, channelSet := channelArray cs })
    (ht : process80211d chplanFour (beaconCountry triplets) = some t) : t.channelSet = channelArray cs := by
  rw [heq, Option.some.injEq] at ht
  rw [← ht]

/-- Channel 6 is not in the country element and stays active, because the beacon came in on it. A triplet of 39
channels runs out of the array, and channel 1 behind channel 36 is added a second time. -/
theorem beacon_channel_stays_active :
    (apChannels (beaconCountry [1,2,20,36,2,20]) = some [1,2,36,40] ∧
      ¬∃ t, process80211d chplanFour (beaconCountry [1,2,20,36,2,20]) = some t ∧
        ChannelsMerged chplanFour stationFour.list [1,2,36,40] (fun _ => false) t.channelSet) ∧
    process80211d chplanFour (beaconCountry [1,39,20]) = none ∧
    apChannels (beaconCountry [36,1,20,1,1,20]) = some [36,1] ∧
      ∀ own, ¬∃ t, process80211d chplanFour (beaconCountry [36,1,20,1,1,20]) = some t ∧
        ChannelsMerged chplanFour stationFour.list [36,1] own t.channelSet := by
  refine ⟨⟨by decide,?_⟩,by decide,by decide,?_⟩
  · rintro ⟨t,ht,hmerged⟩
    have hset := process80211d_beaconCountry
      [⟨1,.active⟩,⟨2,.active⟩,⟨3,.passive⟩,⟨6,.active⟩,⟨36,.active⟩,⟨40,.active⟩]
        (by decide) ht
    have hmark := hmerged.mark .band2g rfl ⟨6,.active⟩ (by rw [hset]; decide)
    exact absurd (hmark.mp rfl) (by decide)
  · rintro own ⟨t,ht,hmerged⟩
    have hset := process80211d_beaconCountry
      [⟨1,.passive⟩,⟨3,.passive⟩,⟨6,.active⟩,⟨36,.active⟩,⟨1,.active⟩] (by decide) ht
    have hasc := hmerged.ascending .band2g rfl
    rw [hset] at hasc
    exact absurd hasc (by decide)

end Rtl8188fu
