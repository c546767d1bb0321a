import Rtl8188fu.Include.Wifi
import Rtl8188fu.Library.InOrder
import Rtl8188fu.Library.Tlv

/-! # The channel lists of a P2P group negotiation

`rtw_p2p_get_peer_ch_list` decodes the list of the peer, `rtw_p2p_ch_inclusion` keeps what is in the own
channel set. An entry of a list is a record: the class, the number of channels, the channels.
-/
namespace Rtl8188fu
open Bytes
open scoped List

/-- The size of `peer_ch_list` in the callers -/
def PEER_CH_LIST_SIZE : ℕ := 100

/-- What is stored in `peer_ch_list` and at which index, what is read, and the value returned -/
structure PeerChList where
  writes : List (UInt8 × ℕ)
  reads : List ℕ
  chNo : ℕ

/-- The loop over the entries; `ch_cnt`, `j` and `ch_no` are an `u8`. -/
def peerChListLoop (mem : List UInt8) : ℕ → ℕ → ℕ → ℕ → ℕ → Option PeerChList
  | 0, _, _, _, _ => none
  | fuel + 1, chContent, chCnt, j, chNo =>
    if chCnt = 0 then some ⟨[],[],chNo⟩
    else
      let chContent := chContent + 1
      let chCnt := (chCnt + 255) % 256
      let temp := (byteAt mem chContent).toNat
      let copied := ((slice mem (chContent + 1) temp).zipIdx j).map fun w => (w.1,w.2 % 256)
      (peerChListLoop mem fuel (chContent + (temp + 1)) ((chCnt + 256 - (temp + 1)) % 256) ((j + temp) % 256)
        ((chNo + temp) % 256)).map fun r =>
          ⟨copied ++ r.writes,chContent :: List.range' (chContent + 1) temp ++ r.reads,r.chNo⟩

/-- `rtw_p2p_get_peer_ch_list` on the first `chCnt` bytes of `mem` ends with `r`. -/
def PeerChListIs (mem : List UInt8) (chCnt : ℕ) (r : PeerChList) : Prop :=
  ∃ fuel, peerChListLoop mem fuel 3 ((chCnt % 256 + 253) % 256) 0 0 = some r

/-- It comes to an end, reads the content only, and stores inside `peer_ch_list`. -/
def PeerChListInside (content beyond : List UInt8) : Prop :=
  ∃ r, PeerChListIs (content ++ beyond) content.length r ∧ (∀ o ∈ r.reads, o < content.length) ∧
    ∀ w ∈ r.writes, w.2 < PEER_CH_LIST_SIZE

def channelsOf (es : List Tlv) : List UInt8 := es.flatMap Tlv.body

/-- The length behind the entries is the first one that is nothing in eight bits. -/
def EndsFirst : List Tlv → List UInt8 → Prop
  | [], rest => rest.length % 256 = 0
  | t :: ts, rest => (Tlv.flat (t :: ts) ++ rest).length % 256 ≠ 0 ∧ EndsFirst ts rest

/-- The country string and entries up to the first such length, with no more channels than there is room for -/
def ChListFits (content : List UInt8) : Prop :=
  3 ≤ content.length ∧ ∃ es rest, content.drop 3 = Tlv.flat es ++ rest ∧ EndsFirst es rest ∧
    (channelsOf es).length ≤ PEER_CH_LIST_SIZE

/-- The entries up to the first such length -/
def entriesTaken : List Tlv → List Tlv
  | [] => []
  | t :: ts => if (Tlv.flat (t :: ts)).length % 256 = 0 then [] else t :: entriesTaken ts

section Decode
variable {mem content beyond rest : List UInt8} {fuel fuel' p cnt j chNo n : ℕ} {r r' : PeerChList} {t : Tlv}
  {es : List Tlv}

theorem peerChListLoop_unique (h : peerChListLoop mem fuel p cnt j chNo = some r)
    (h' : peerChListLoop mem fuel' p cnt j chNo = some r') : r = r' := by
  induction fuel generalizing fuel' p cnt j chNo r r' with
  | zero => cases h
  | succ fuel ih =>
    cases fuel' with
    | zero => cases h'
    | succ fuel' =>
      unfold peerChListLoop at h h'
      split at h
      · rename_i hcnt
        rw [if_pos hcnt] at h'
        exact Option.some.inj (h.symm.trans h')
      · rename_i hcnt
        rw [if_neg hcnt] at h'
        obtain ⟨s,hs,rfl⟩ := Option.map_eq_some_iff.mp h
        obtain ⟨s',hs',rfl⟩ := Option.map_eq_some_iff.mp h'
        rw [ih hs hs']

theorem peerChListLoop_entry (hmem : mem.drop p = t.bytes ++ rest) (hcnt : cnt % 256 ≠ 0) :
    peerChListLoop mem (fuel + 1) p (cnt % 256) j chNo =
      (peerChListLoop mem fuel (p + t.bytes.length) ((cnt + 512 - t.bytes.length) % 256) ((j + t.body.length) % 256)
        ((chNo + t.body.length) % 256)).map fun r =>
          ⟨(t.body.zipIdx j).map (fun w => (w.1,w.2 % 256)) ++ r.writes,
            (p + 1) :: List.range' (p + 2) t.body.length ++ r.reads,r.chNo⟩ := by
  have hshort := t.short
  have hlen : (byteAt mem (p + 1)).toNat = t.body.length := by
    have := byteAt_drop mem p 1
    rw [hmem] at this
    exact (congrArg UInt8.toNat this.symm).trans t.toNat_length
  have hbody : slice mem (p + 1 + 1) t.body.length = t.body := by
    have : mem.drop (p + 1 + 1) = t.body ++ rest := by
      rw [Nat.add_assoc, ← List.drop_drop, hmem]
      rfl
    rw [slice, this, List.take_left]
  have hcount :
      ((cnt % 256 + 255) % 256 + 256 - (t.body.length + 1)) % 256 = (cnt + 512 - (t.body.length + 2)) % 256 := by
    omega
  rw [peerChListLoop]
  simp only [hcnt, if_false, hlen, hbody, Tlv.length_bytes, hcount, Nat.add_assoc, Nat.add_comm 1]

theorem zipIdx_mod {l : List UInt8} {i k : ℕ} (h : i % 256 = k % 256) :
    (l.zipIdx i).map (fun w => (w.1,w.2 % 256)) = (l.zipIdx k).map (fun w => (w.1,w.2 % 256)) := by
  induction l generalizing i k with
  | nil => rfl
  | cons x l ih =>
    have hnext : (i + 1) % 256 = (k + 1) % 256 := by omega
    simp only [List.zipIdx_cons, List.map_cons, h, ih hnext]

theorem peerChListLoop_entries (hmem : mem.drop p = Tlv.flat es ++ rest ++ beyond) (hends : EndsFirst es rest) :
    ∃ r, peerChListLoop mem (es.length + 1) p ((Tlv.flat es ++ rest).length % 256) (j % 256) (j % 256) = some r ∧
      r.writes = ((channelsOf es).zipIdx j).map (fun w => (w.1,w.2 % 256)) ∧
      (∀ o ∈ r.reads, o < p + (Tlv.flat es).length) ∧ r.chNo = (j + (channelsOf es).length) % 256 := by
  induction es generalizing p j with
  | nil =>
    refine ⟨⟨[],[],j % 256⟩,?_,rfl,by simp,rfl⟩
    unfold peerChListLoop
    rw [if_pos (by simpa [EndsFirst] using hends)]
  | cons t es ih =>
    obtain ⟨hnot,hends⟩ := hends
    have hfirst : mem.drop p = t.bytes ++ (Tlv.flat es ++ rest ++ beyond) := by simpa using hmem
    have hnext : mem.drop (p + t.bytes.length) = Tlv.flat es ++ rest ++ beyond := by
      rw [← List.drop_drop, hfirst, List.drop_left]
    obtain ⟨r,hr,hwrites,hreads,hno⟩ := @ih (p + t.bytes.length) (j + t.body.length) hnext hends
    have hshort := t.short
    have hcnt :
        ((Tlv.flat (t :: es) ++ rest).length + 512 - t.bytes.length) % 256 = (Tlv.flat es ++ rest).length % 256 := by
      simp only [Tlv.flat_cons, List.length_append, Tlv.length_bytes]
      omega
    have hloop := @peerChListLoop_entry mem _ (es.length + 1) p _ (j % 256) (j % 256) t hfirst hnot
    rw [hcnt, Nat.mod_add_mod, hr] at hloop
    refine ⟨_,hloop,?_,?_,?_⟩
    · have hall : channelsOf (t :: es) = t.body ++ channelsOf es := rfl
      rw [hall, List.zipIdx_append, List.map_append, ← hwrites, zipIdx_mod (Nat.mod_mod j 256)]
    · intro o ho
      simp only [Tlv.flat_cons, List.length_append, Tlv.length_bytes] at hreads ⊢
      rcases List.mem_append.mp ho with ho | ho
      · rcases List.mem_cons.mp ho with rfl | ho
        · omega
        · have := List.mem_range'_1.mp ho
          omega
      · have := hreads o ho
        omega
    · have hall : (channelsOf (t :: es)).length = t.body.length + (channelsOf es).length := List.length_append
      simp only [hno, hall, Nat.add_assoc]

theorem entry_of_inside {more : List UInt8} (hone : p + 1 < content.length)
    (htemp : p + 2 + (byteAt (content ++ more) (p + 1)).toNat ≤ content.length) :
    ∃ (t : Tlv) (rest : List UInt8), content.drop p = t.bytes ++ rest := by
  have hdrop : content.drop p = content[p] :: content[p + 1] :: content.drop (p + 2) := by
    rw [List.drop_eq_getElem_cons (by omega), List.drop_eq_getElem_cons hone]
  have hbyte : byteAt (content ++ more) (p + 1) = content[p + 1] := by
    simp [byteAt, List.getD_eq_getElem?_getD, List.getElem?_append_left hone, hone]
  cases hread : Tlv.read (content.drop p) with
  | some r => exact ⟨r.1,r.2,Tlv.bytes_of_read hread⟩
  | none =>
    rw [hdrop, Tlv.read, dif_pos (by rw [List.length_drop, ← hbyte]; omega)] at hread
    cases hread

/-- A run that reads the content only goes over complete entries. -/
theorem entries_of_loop {more : List UInt8}
    (h : peerChListLoop (content ++ more) fuel p ((content.length - p) % 256) j chNo = some r)
    (hreads : ∀ o ∈ r.reads, o < content.length) (hp : p ≤ content.length) :
    ∃ es rest, content.drop p = Tlv.flat es ++ rest ∧ EndsFirst es rest := by
  induction fuel generalizing p j chNo r with
  | zero => cases h
  | succ fuel ih =>
    by_cases hcnt : (content.length - p) % 256 = 0
    · exact ⟨[],content.drop p,rfl,by simpa [EndsFirst] using hcnt⟩
    · have hstep := h
      rw [peerChListLoop, if_neg hcnt] at hstep
      obtain ⟨s,-,rfl⟩ := Option.map_eq_some_iff.mp hstep
      have hone : p + 1 < content.length := hreads _ (by simp)
      have htemp : p + 2 + (byteAt (content ++ more) (p + 1)).toNat ≤ content.length := by
        by_contra hover
        have := hreads (p + 1 + (byteAt (content ++ more) (p + 1)).toNat) (by simp [List.mem_range'_1]; omega)
        omega
      obtain ⟨t,rest,hdrop⟩ := entry_of_inside hone htemp
      have hlen : content.length - p = t.bytes.length + rest.length := by
        rw [← List.length_drop, hdrop, List.length_append]
      have hmem : (content ++ more).drop p = t.bytes ++ (rest ++ more) := by
        rw [List.drop_append_of_le_length hp, hdrop, List.append_assoc]
      rw [peerChListLoop_entry hmem hcnt] at h
      obtain ⟨s',hs',hr⟩ := Option.map_eq_some_iff.mp h
      have hshort := t.short
      have hnext :
          (content.length - p + 512 - t.bytes.length) % 256 = (content.length - (p + t.bytes.length)) % 256 := by
        rw [Tlv.length_bytes] at hlen ⊢
        omega
      rw [hnext] at hs'
      obtain ⟨es,rest',hes,hends⟩ := ih hs' (fun o ho => hreads o (by rw [← hr]; simp [ho])) (by omega)
      have hrest : content.drop (p + t.bytes.length) = rest := by rw [← List.drop_drop, hdrop, List.drop_left]
      refine ⟨t :: es,rest',?_,?_,hends⟩
      · rw [hdrop, ← hrest, hes, Tlv.flat_cons, List.append_assoc]
      · have : (Tlv.flat (t :: es) ++ rest').length = content.length - p := by
          rw [hlen, ← hrest, hes, Tlv.flat_cons, List.append_assoc, List.length_append]
        rwa [this]

theorem length_of_writes {l : List UInt8}
    (h : ∀ w ∈ l.zipIdx.map (fun w => (w.1,w.2 % 256)), w.2 < PEER_CH_LIST_SIZE) :
    l.length ≤ PEER_CH_LIST_SIZE := by
  by_contra hlong
  have hlt : PEER_CH_LIST_SIZE < l.length := by omega
  have hmem : (l[PEER_CH_LIST_SIZE],PEER_CH_LIST_SIZE) ∈ l.zipIdx :=
    List.mk_mem_zipIdx_iff_getElem?.mpr (List.getElem?_eq_getElem hlt)
  exact absurd (h _ (List.mem_map_of_mem hmem)) (show ¬PEER_CH_LIST_SIZE % 256 < PEER_CH_LIST_SIZE by decide)

theorem writes_of_short {l : List UInt8} (h : l.length ≤ PEER_CH_LIST_SIZE) :
    l.zipIdx.map (fun w => (w.1,w.2 % 256)) = l.zipIdx ∧ ∀ w ∈ l.zipIdx, w.2 < PEER_CH_LIST_SIZE := by
  have hlt : ∀ w ∈ l.zipIdx, w.2 < PEER_CH_LIST_SIZE := fun w hw => by
    have := List.snd_lt_of_mem_zipIdx hw
    omega
  refine ⟨?_,hlt⟩
  conv_rhs => rw [← List.map_id l.zipIdx]
  refine List.map_congr_left fun w hw => Prod.ext rfl (Nat.mod_eq_of_lt ((hlt w hw).trans (by decide)))

theorem peerChListIs_entries {a b c : UInt8} (hends : EndsFirst es rest) :
    ∃ r, PeerChListIs (a :: b :: c :: (Tlv.flat es ++ rest) ++ beyond)
      (a :: b :: c :: (Tlv.flat es ++ rest)).length r ∧
      r.writes = (channelsOf es).zipIdx.map (fun w => (w.1,w.2 % 256)) ∧
      (∀ o ∈ r.reads, o < 3 + (Tlv.flat es).length) ∧ r.chNo = (channelsOf es).length % 256 := by
  have hcnt :
      ((a :: b :: c :: (Tlv.flat es ++ rest)).length % 256 + 253) % 256 = (Tlv.flat es ++ rest).length % 256 := by
    simp only [List.length_cons]
    omega
  obtain ⟨r,hr,hwrites,hreads,hno⟩ :=
    @peerChListLoop_entries (a :: b :: c :: (Tlv.flat es ++ rest) ++ beyond) beyond rest 3 0 es rfl hends
  refine ⟨r,⟨_,by rw [hcnt]; exact hr⟩,hwrites,hreads,by simpa using hno⟩

theorem PeerChListIs.unique (h : PeerChListIs mem n r) (h' : PeerChListIs mem n r') : r = r' :=
  h.elim fun _ h => h'.elim fun _ h' => peerChListLoop_unique h h'

theorem peerChListInside_iff : PeerChListInside content beyond ↔ ChListFits content := by
  constructor
  · rintro ⟨r,hr,hreads,hwrites⟩
    obtain ⟨fuel,hloop⟩ := hr
    have hlen : 3 ≤ content.length := by
      by_contra hshort
      cases fuel with
      | zero => cases hloop
      | succ fuel =>
        rw [peerChListLoop, if_neg (by omega)] at hloop
        obtain ⟨s,-,rfl⟩ := Option.map_eq_some_iff.mp hloop
        have := hreads 4 (by simp)
        omega
    match content with
    | a :: b :: c :: body =>
      obtain ⟨es,rest,hes,hends⟩ := entries_of_loop
        (by rwa [show ((a :: b :: c :: body).length % 256 + 253) % 256 = ((a :: b :: c :: body).length - 3) % 256 by
          simp only [List.length_cons]; omega] at hloop) hreads hlen
      obtain rfl : body = Tlv.flat es ++ rest := hes
      obtain ⟨r',hr',hwrites',-,-⟩ := @peerChListIs_entries beyond rest es a b c hends
      obtain rfl := PeerChListIs.unique ⟨fuel,hloop⟩ hr'
      exact ⟨hlen,es,rest,rfl,hends,length_of_writes (hwrites' ▸ hwrites)⟩
  · rintro ⟨hlen,es,rest,hes,hends,htotal⟩
    match content with
    | a :: b :: c :: body =>
      obtain rfl : body = Tlv.flat es ++ rest := hes
      obtain ⟨r,hr,hwrites,hreads,-⟩ := @peerChListIs_entries beyond rest es a b c hends
      refine ⟨r,hr,fun o ho => ?_,?_⟩
      · have := hreads o ho
        simp only [List.length_cons, List.length_append]
        omega
      · rw [hwrites, (writes_of_short htotal).1]
        exact (writes_of_short htotal).2

/-- The run stores these channels one behind the other, and returns their number. -/
def PeerChListExact (content beyond channels : List UInt8) : Prop :=
  ∃ r, PeerChListIs (content ++ beyond) content.length r ∧ r.writes = channels.zipIdx ∧
    (∀ w ∈ r.writes, w.2 < PEER_CH_LIST_SIZE) ∧ r.chNo = channels.length

theorem entriesTaken_split (es : List Tlv) : ∃ us, es = entriesTaken es ++ us ∧ EndsFirst (entriesTaken es)
    (Tlv.flat us) := by
  induction es with
  | nil => exact ⟨[],rfl,rfl⟩
  | cons t es ih =>
    by_cases hend : (Tlv.flat (t :: es)).length % 256 = 0
    · rw [entriesTaken, if_pos hend]
      exact ⟨t :: es,rfl,hend⟩
    · obtain ⟨us,hus,hends⟩ := ih
      rw [entriesTaken, if_neg hend]
      refine ⟨us,congrArg (t :: ·) hus,?_,hends⟩
      rwa [Tlv.flat_cons, List.append_assoc, ← Tlv.flat_append, ← hus, ← Tlv.flat_cons]

theorem peerChListExact_iff {a b c : UInt8} (es : List Tlv) :
    PeerChListExact (a :: b :: c :: Tlv.flat es) beyond (channelsOf es) ↔
      channelsOf (entriesTaken es) = channelsOf es ∧ (channelsOf es).length ≤ PEER_CH_LIST_SIZE := by
  obtain ⟨us,hus,hends⟩ := entriesTaken_split es
  have hflat : Tlv.flat es = Tlv.flat (entriesTaken es) ++ Tlv.flat us := by rw [← Tlv.flat_append, ← hus]
  obtain ⟨r,hr,hwrites,-,hno⟩ := @peerChListIs_entries beyond _ _ a b c hends
  rw [← hflat] at hr
  constructor
  · rintro ⟨r',hr',hwrites',hinside,-⟩
    obtain rfl := hr.unique hr'
    have htaken := length_of_writes (hwrites ▸ hinside)
    have hsame := (writes_of_short htaken).1.symm.trans (hwrites.symm.trans hwrites')
    have : channelsOf (entriesTaken es) = channelsOf es := by
      simpa using congrArg (List.map Prod.fst) hsame
    exact ⟨this,this ▸ htaken⟩
  · rintro ⟨hall,htotal⟩
    rw [hall, (writes_of_short htotal).1] at hwrites
    have hsize : PEER_CH_LIST_SIZE = 100 := rfl
    exact ⟨r,hr,hwrites,hwrites ▸ (writes_of_short htotal).2,by rw [hno, hall]; omega⟩

end Decode

/-- The peer's channels; `peer_ch_num` is an `u8`. -/
structure PeerChannels where
  list : List UInt8
  short : list.length < 256

/-- The two loops of `rtw_p2p_ch_inclusion`: the inner one starts at the last match. -/
def chInclusionLoop (channelSet : List UInt8) : List UInt8 → ℕ → List UInt8
  | [], _ => []
  | ch :: peer, temp =>
    match (List.range' temp (channelSet.length - temp)).find? fun j => byteAt channelSet j = ch with
    | some j => ch :: chInclusionLoop channelSet peer j
    | none => chInclusionLoop channelSet peer temp

/-- `ch_list_inclusioned` and its length -/
def rtwP2pChInclusion (channelSet : List UInt8) (peer : PeerChannels) : List UInt8 × ℕ :=
  let out := chInclusionLoop channelSet peer.list 0
  (out,out.length % 256)

def InclusionExact (channelSet : List UInt8) (peer : PeerChannels) : Prop :=
  let common := peer.list.filter (· ∈ channelSet)
  rtwP2pChInclusion channelSet peer = (common,common.length)

section Inclusion
variable {channelSet peer : List UInt8} {ch : UInt8} {temp k : ℕ}

/-- One search: it goes on to the next place of the channel, if there is one. -/
theorem inclusionScan (hk : channelSet.length - temp = k) :
    match (List.range' temp k).find? fun j => byteAt channelSet j = ch with
    | some j => ch ∈ channelSet.drop temp ∧ channelSet.drop j = (channelSet.drop temp).dropWhile (· ≠ ch)
    | none => ch ∉ channelSet.drop temp := by
  induction k generalizing temp with
  | zero =>
    rw [List.drop_eq_nil_of_le (by omega)]
    exact List.not_mem_nil
  | succ k ih =>
    have hlt : temp < channelSet.length := by omega
    have hbyte : byteAt channelSet temp = channelSet[temp] := by simp [byteAt, List.getD_eq_getElem?_getD, hlt]
    rw [List.range'_succ, List.find?_cons, hbyte, List.drop_eq_getElem_cons hlt]
    by_cases hch : channelSet[temp] = ch
    · simp only [hch, decide_true, List.mem_cons_self, true_and]
      rw [List.drop_eq_getElem_cons hlt, hch]
      simp
    · have hnext := @ih (temp + 1) (by omega)
      simp only [decide_not] at hnext
      simp only [hch, decide_false, List.mem_cons, Ne.symm hch, false_or, decide_not, Bool.not_false,
        List.dropWhile_cons_of_pos]
      exact hnext

theorem chInclusionLoop_eq : chInclusionLoop channelSet peer temp = InOrder.found peer (channelSet.drop temp) := by
  induction peer generalizing temp with
  | nil => rfl
  | cons ch peer ih =>
    have hscan := @inclusionScan channelSet ch temp _ rfl
    unfold chInclusionLoop InOrder.found
    cases hfind : (List.range' temp (channelSet.length - temp)).find? fun j => byteAt channelSet j = ch with
    | some j =>
      rw [hfind] at hscan
      rw [if_pos hscan.1, ← hscan.2, ← ih]
    | none =>
      rw [hfind] at hscan
      rw [if_neg hscan, ← ih]

theorem inclusionExact_iff (peer : PeerChannels) :
    InclusionExact channelSet peer ↔ (peer.list.filter (· ∈ channelSet)).destutter (· ≠ ·) <+ channelSet := by
  have hfound : chInclusionLoop channelSet peer.list 0 = InOrder.found peer.list channelSet := chInclusionLoop_eq
  unfold InclusionExact rtwP2pChInclusion
  rw [← InOrder.found_eq_filter_iff, hfound]
  constructor
  · exact congrArg Prod.fst
  · intro h
    have hshort := peer.short
    have := List.length_filter_le (fun ch => decide (ch ∈ channelSet)) peer.list
    rw [h]
    exact Prod.ext rfl (Nat.mod_eq_of_lt (by omega))

end Inclusion

/-- A content is decoded inside its bytes exactly when its entries come to an end at the first length that is
nothing in eight bits and name no more channels than there is room for. A well-formed one is decoded to its
channels exactly when none stand behind that place and there is room. The common channels are found exactly when
they stand in the order of the channel set, repetitions in a row counting once. -/
theorem p2p_channels_exact_iff (content beyond : List UInt8) (a b c : UInt8) (es : List Tlv) (channelSet : List UInt8)
    (peer : PeerChannels) :
    (PeerChListInside content beyond ↔ ChListFits content) ∧
    (PeerChListExact (a :: b :: c :: Tlv.flat es) beyond (channelsOf es) ↔
      channelsOf (entriesTaken es) = channelsOf es ∧ (channelsOf es).length ≤ PEER_CH_LIST_SIZE) ∧
    (InclusionExact channelSet peer ↔ (peer.list.filter (· ∈ channelSet)).destutter (· ≠ ·) <+ channelSet) :=
  ⟨peerChListInside_iff,peerChListExact_iff es,inclusionExact_iff peer⟩

/-- A peer that lists channel 6 before channel 1 -/
theorem unordered_peer_channel_lost :
    ¬∀ (channelSet : List UInt8) (peer : PeerChannels), InclusionExact channelSet peer := by
  intro h
  have hlost : rtwP2pChInclusion [1,2,3,4,5,6,7,8,9,10,11] ⟨[6,1],by decide⟩ = ([6,1],2) :=
    h [1,2,3,4,5,6,7,8,9,10,11] ⟨[6,1],by decide⟩
  exact absurd hlost (by decide)

end Rtl8188fu
