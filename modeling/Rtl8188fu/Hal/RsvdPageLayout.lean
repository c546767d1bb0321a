import Rtl8188fu.Hal.RsvdPage

/-! # The layout of the reserved pages

Each frame that is put into the buffer leaves alone what is below its descriptor, so that the frames that are there stay
as they were put, one behind the other, each at the page that its location names.
-/
namespace Rtl8188fu
open Bytes Logged

/-- Nothing outside the command buffer is written, and nothing of the elements from `IELength` on is copied. -/
def RsvdAccess.Inside (c : RsvdCall) : RsvdAccess → Prop
  | .write i n => i + n ≤ MAX_CMDBUF_SZ
  | .ie i => i < c.network.ieLength

/-- The frames of a call in their order -/
def rsvdKinds (c : RsvdCall) : List RsvdKind :=
  if c.wowlanApMode then [.beacon] ++ [.probeRsp]
  else [.beacon] ++ [.psPoll] ++ (if c.btCoexist then [.btQosNull] else []) ++ [.nullData] ++ [.qosNull]

/-- The frames are in the image apart from each other and as they were put into it, the firmware finds them, and the
beacon of an AP has the elements behind the header and the fixed ones. -/
structure LaidOut (c : RsvdCall) (o : RsvdOutcome) (image : List UInt8) : Prop where
  kinds : o.placed.map RsvdFrame.kind = rsvdKinds c
  inside : ∀ f ∈ o.placed, f.stop ≤ maxRsvdPageBufSize
  apart : o.placed.Pairwise fun f g => f.stop ≤ g.start ∨ g.stop ≤ f.start
  kept : ∀ f ∈ o.placed, slice image f.start f.bytes.length = f.bytes
  located : ∀ parm, o.parm = some parm → ∀ i k, rsvdParmKinds[i]? = some k → byteAt parm i ≠ 0 →
    ∃ b ∈ o.placed, b.kind = .beacon ∧ ∃ f ∈ o.placed, f.kind = k ∧
      f.start = b.start + (byteAt parm i).toNat * PAGE_SIZE_128
  beacon : c.state &&& 0x03 = WIFI_FW_AP_STATE → ∀ f ∈ o.placed, f.kind = .beacon → ∃ fixed : List UInt8,
    fixed.length = 36 ∧
    f.bytes.drop TXDESC_SIZE = fixed ++ (List.range (c.network.ieLength - 12)).map fun k => c.network.ies (12 + k)

/-- The command frame is freed once without having been sent, or what is sent is laid out. -/
def RsvdPageRight (c : RsvdCall) : Prop :=
  All (RsvdAccess.Inside c) (rtwHalSetFwRsvdPage c) ∧ ∃ o, (rtwHalSetFwRsvdPage c).result = some o ∧
    ((o.image = none ∧ o.freed = 1) ∨ ∃ image, o.image = some image ∧ LaidOut c o image)

section Keeps
variable {mem mem' mem'' bs : List UInt8} {i j n : ℕ}

/-- The buffer is as it was below a place. -/
structure Keeps (i : ℕ) (mem mem' : List UInt8) : Prop where
  length : mem'.length = mem.length
  below : ∀ j n, j + n ≤ i → slice mem' j n = slice mem j n

theorem keeps_patch (h : i ≤ j) : Keeps i mem (patch mem j bs) :=
  ⟨length_patch _ _ _,fun _ _ hn => slice_patch_below (hn.trans h)⟩

theorem Keeps.trans (h : Keeps i mem mem') (h' : Keeps i mem' mem'') : Keeps i mem mem'' :=
  ⟨h'.length.trans h.length,fun j n hn => (h'.below j n hn).trans (h.below j n hn)⟩

theorem Keeps.mono (h : Keeps i mem mem') (hj : j ≤ i) : Keeps j mem mem' :=
  ⟨h.length,fun k n hn => h.below k n (hn.trans hj)⟩

end Keeps

section Writes
variable {c : RsvdCall} {mem bytes : List UInt8} {f : List UInt8 → List UInt8} {i j n start len : ℕ}

/-- A program that writes from a place on -/
def Fills (c : RsvdCall) (i : ℕ) (mem : List UInt8) (x : RsvdWrite) : Prop :=
  ∃ mem', Yields (RsvdAccess.Inside c) x mem' ∧ Keeps i mem mem'

theorem fills_put (hi : i ≤ j) (hfit : j + bytes.length ≤ MAX_CMDBUF_SZ) : Fills c i mem (rsvdPut j bytes mem) :=
  ⟨_,⟨rfl,fun _ he => List.mem_singleton.mp he ▸ hfit⟩,keeps_patch hi⟩

theorem fills_edit (hf : ∀ l, (f l).length = l.length) (hi : i ≤ j) (hfit : j + n ≤ MAX_CMDBUF_SZ) :
    Fills c i mem (rsvdEdit j n f mem) := by
  refine fills_put hi ?_
  rw [hf, length_slice]
  omega

theorem fills_copyIes (hi : i ≤ j) (hfit : j + n ≤ MAX_CMDBUF_SZ) (hies : start + n ≤ c.network.ieLength) :
    Fills c i mem (rsvdCopyIes c.network j start n mem) := by
  refine ⟨_,⟨rfl,?_⟩,keeps_patch hi⟩
  intro e he
  rcases List.mem_append.mp he with he | he
  · obtain ⟨k,hk,rfl⟩ := List.mem_map.mp he
    have hlt := List.mem_range.mp hk
    show start + k < c.network.ieLength
    omega
  · rw [List.mem_singleton.mp he]
    exact hfit

end Writes

/-- What a function that builds a frame of a length does at its place -/
def Builds (c : RsvdCall) (i len : ℕ) (mem : List UInt8) (x : Logged RsvdAccess (List UInt8 × ℕ)) : Prop :=
  ∃ mem', Yields (RsvdAccess.Inside c) x (mem',len) ∧ Keeps i mem mem'

section Frames
variable {c : RsvdCall} {mem : List UInt8} {i j len : ℕ} {x : RsvdWrite}

theorem builds_ret : Builds c i len mem (ret (mem,len)) := ⟨mem,yields_ret _,rfl,fun _ _ _ => rfl⟩

theorem Fills.builds {g : List UInt8 → Logged RsvdAccess (List UInt8 × ℕ)} (h : Fills c i mem x)
    (hg : ∀ mem', Builds c i len mem' (g mem')) : Builds c i len mem (x.andThen g) := by
  obtain ⟨mem',hx,hkeeps⟩ := h
  obtain ⟨mem'',hg,hkeeps'⟩ := hg mem'
  exact ⟨mem'',hx.andThen hg,hkeeps.trans hkeeps'⟩

theorem builds_setIes {es : List (UInt8 × List UInt8)} {pktlen : ℕ} (hi : i ≤ j)
    (hfit : j + pktlen + (es.map fun e => e.2.length + 2).sum ≤ MAX_CMDBUF_SZ) :
    Builds c i (pktlen + (es.map fun e => e.2.length + 2).sum) mem (rsvdSetIes j pktlen es mem) := by
  induction es generalizing pktlen mem with
  | nil => exact builds_ret
  | cons e es ih =>
    rw [List.map_cons, List.sum_cons] at hfit ⊢
    rw [rsvdSetIes, ← Nat.add_assoc]
    refine (fills_put (by omega) ?_).builds fun mem' => ih (by omega)
    rw [List.length_cons, List.length_cons]
    omega

theorem ratesetLenFrom_le (rates : List UInt8) (fuel i : ℕ) (h : i ≤ 13) : ratesetLenFrom rates fuel i ≤ 13 := by
  induction fuel generalizing i with
  | zero => exact h
  | succ fuel ih =>
    rw [ratesetLenFrom]
    split
    · exact h
    · exact ih (i + 1) (by omega)

/-- The elements of a beacon that is not one of an AP are short. -/
theorem length_rsvdBeaconIes (c : RsvdCall) : ((rsvdBeaconIes c).map fun e => e.2.length + 2).sum ≤ 58 := by
  have hssid := c.network.ssidLe
  have hrates := c.network.ratesLength
  have hlen : rtwGetRatesetLen c.network.supportedRates ≤ 13 := ratesetLenFrom_le _ _ _ (by decide)
  rw [rsvdBeaconIes]
  simp only [List.map_append, List.map_cons, List.map_nil, List.sum_append, List.sum_cons, List.sum_nil,
    List.length_cons, List.length_nil, List.length_take]
  split_ifs <;> simp only [List.map_cons, List.map_nil, List.sum_cons, List.sum_nil, List.length_cons, List.length_nil,
    length_slice] <;>
    omega

theorem length_clearFrameCtl (l : List UInt8) : (clearFrameCtl l).length = l.length := length_patch _ _ _

theorem length_rsvdAddrs (a1 a2 a3 : MacAddr) (l : List UInt8) : (rsvdAddrs a1 a2 a3 l).length = l.length := by
  simp only [rsvdAddrs, length_patch]

theorem length_beaconHdr (c : RsvdCall) (l : List UInt8) : (beaconHdr c l).length = l.length := by
  simp only [beaconHdr, setFrameSubType, setSeqNum, length_patch, length_rsvdAddrs, length_clearFrameCtl]

theorem length_psPollHdr (c : RsvdCall) (l : List UInt8) : (psPollHdr c l).length = l.length := by
  simp only [psPollHdr, setFrameSubType, length_setBits, length_patch, length_clearFrameCtl]

theorem length_nullDataHdr (c : RsvdCall) (qos : Bool) (l : List UInt8) : (nullDataHdr c qos l).length = l.length := by
  rw [nullDataHdr]
  cases c.infrastructureMode <;> cases qos <;>
    simp [setFrameSubType, setSeqNum, setToDs, setFrDs, length_rsvdAddrs, length_clearFrameCtl]

theorem length_probeRspHdr (c : RsvdCall) (l : List UInt8) : (probeRspHdr c l).length = l.length := by
  simp only [probeRspHdr, setFrameSubType, setSeqNum, length_patch, length_rsvdAddrs, length_clearFrameCtl]

theorem builds_psPoll (hfit : i + 16 ≤ MAX_CMDBUF_SZ) : Builds c i 16 mem (rtwHalConstructPSPoll c i mem) :=
  (fills_edit (length_psPollHdr c) le_rfl hfit).builds fun _ => builds_ret

theorem builds_nullFunctionData {qos : Bool} (hfit : i + 26 ≤ MAX_CMDBUF_SZ) :
    Builds c i (if qos then 26 else 24) mem (rtwHalConstructNullFunctionData c qos i mem) := by
  refine (fills_edit (length_nullDataHdr c qos) le_rfl ?_).builds fun _ => builds_ret
  split <;> omega

theorem builds_probeRsp (hfit : i + (24 + c.network.ieLength) ≤ MAX_CMDBUF_SZ) :
    Builds c i (24 + c.network.ieLength) mem (rtwHalConstructProbeRsp c i mem) := by
  have hle := c.network.ieLengthLe
  refine (fills_edit (length_probeRspHdr c) le_rfl (by omega)).builds fun mem' => ?_
  rw [if_neg (by omega)]
  exact (fills_copyIes (by omega) (by omega) (by omega)).builds fun _ => builds_ret

theorem builds_beacon (hap : c.state &&& 0x03 ≠ WIFI_FW_AP_STATE) (hfit : i + 94 ≤ MAX_CMDBUF_SZ) :
    ∃ len, 36 ≤ len ∧ len ≤ 94 ∧ Builds c i len mem (rtwHalConstructBeacon c i mem) := by
  have hfixed := c.network.fixedLe
  have hlen := length_rsvdBeaconIes c
  refine ⟨36 + ((rsvdBeaconIes c).map fun e => e.2.length + 2).sum,by omega,by omega,?_⟩
  refine (fills_edit (length_beaconHdr c) le_rfl (by omega)).builds fun mem' => ?_
  refine (fills_copyIes (by omega) (by omega) (by omega)).builds fun mem' => ?_
  refine (fills_copyIes (by omega) (by omega) (by omega)).builds fun mem' => ?_
  rw [if_neg hap]
  obtain ⟨mem'',hies,hkeeps⟩ := @builds_setIes c mem' i i (rsvdBeaconIes c) 36 le_rfl (by omega)
  refine ⟨mem'',hies.andThen ?_,hkeeps⟩
  dsimp only
  rw [if_neg (by rw [TXDESC_SIZE]; omega)]
  exact yields_ret _

end Frames

theorem length_setBitsToLe4Byte (d : List UInt8) (i offset len v : ℕ) :
    (setBitsToLe4Byte d i offset len v).length = d.length :=
  length_patch _ _ _

theorem length_fakeTxdesc (bufferLen : ℕ) (isPsPoll isBTQosNull : Bool) :
    (fakeTxdesc bufferLen isPsPoll isBTQosNull).length = TXDESC_SIZE := by
  cases isPsPoll <;> cases isBTQosNull <;>
    simp [fakeTxdesc, rtl8188fCalTxdescChksum, length_setBitsToLe4Byte]

theorem pageNum_spec (len : ℕ) : len ≤ pageNum len PAGE_SIZE_128 * PAGE_SIZE_128 ∧
    pageNum len PAGE_SIZE_128 * PAGE_SIZE_128 < len + PAGE_SIZE_128 := by
  have hmask : len &&& (PAGE_SIZE_128 - 1) = len % PAGE_SIZE_128 := Nat.and_two_pow_sub_one_eq_mod len 7
  rw [pageNum, hmask, PAGE_SIZE_128]
  split <;> omega

/-- The frames in the buffer are at the places of their locations one behind the other, and the next frame has its place
behind them. -/
structure RsvdState.Laid (s : RsvdState) (kinds : List RsvdKind) (pages len : ℕ) : Prop where
  length : s.mem.length = MAX_CMDBUF_SZ
  order : s.placed.map RsvdFrame.kind = kinds
  total : s.totalPageNum = pages
  totalLe : pages ≤ 39
  index : s.bufIndex = txDescOffset + pages * PAGE_SIZE_128
  packetLen : s.totalPacketLen = len
  sorted : s.placed.Pairwise fun f g => f.stop ≤ g.start
  before : ∀ f ∈ s.placed, f.stop + TXDESC_SIZE ≤ s.bufIndex ∧ f.stop ≤ len
  kept : ∀ f ∈ s.placed, slice s.mem f.start f.bytes.length = f.bytes
  located : ∀ k, s.loc k ≠ 0 → ∃ f ∈ s.placed, f.kind = k ∧
    f.start = PACKET_OFFSET_SZ + s.loc k * PAGE_SIZE_128
  beacon : .beacon ∈ kinds → ∃ b ∈ s.placed, b.kind = .beacon ∧ b.start = PACKET_OFFSET_SZ

section Steps
variable {c : RsvdCall} {s : RsvdState} {mem : List UInt8} {kinds : List RsvdKind} {kind : RsvdKind}
  {pages len n m : ℕ}

theorem RsvdState.Laid.count (h : s.Laid kinds pages len) (hkeeps : Keeps (s.bufIndex - TXDESC_SIZE) s.mem mem)
    (hm : TXDESC_SIZE + n ≤ m * PAGE_SIZE_128) (hle : pages + m ≤ 39) (hfirst : kind = .beacon → pages = 0) :
    (s.count mem kind n m).Laid (kinds ++ [kind]) (pages + m) (txDescOffset + pages * PAGE_SIZE_128 + n) := by
  have hindex : s.bufIndex = 48 + pages * 128 := h.index
  have hroom : 40 + n ≤ m * 128 := hm
  have hlength : mem.length = 5120 := hkeeps.length.trans h.length
  have hnext : (s.count mem kind n m).bufIndex = 48 + (pages + m) * 128 := by
    show (s.bufIndex + m * 128) % 65536 = 48 + (pages + m) * 128
    omega
  have htotal : (s.count mem kind n m).totalPageNum = pages + m := by
    show (s.totalPageNum + m) % 256 = pages + m
    rw [h.total]
    omega
  have hframe : (slice mem (s.bufIndex - 40) (40 + n)).length = 40 + n := length_slice_of_le (by omega)
  have hbefore : ∀ f ∈ s.placed, f.stop + 40 ≤ s.bufIndex := fun f hf => (h.before f hf).1
  have hpacket : txDescOffset + pages * PAGE_SIZE_128 + n = s.bufIndex + n := congrArg (· + n) h.index.symm
  rw [hpacket]
  have hlast : ∀ {q : RsvdFrame → Prop}, (∀ f ∈ s.placed, q f) →
      q ⟨kind,s.bufIndex - 40,slice mem (s.bufIndex - 40) (40 + n)⟩ →
        ∀ f ∈ (s.count mem kind n m).placed, q f := by
    intro q hq hnew f hf
    rcases List.mem_append.mp hf with hf | hf
    · exact hq f hf
    · exact List.mem_singleton.mp hf ▸ hnew
  constructor
  · exact hlength
  · rw [RsvdState.count, List.map_append, h.order]
    rfl
  · exact htotal
  · exact hle
  · exact hnext
  · rfl
  · refine List.pairwise_append.mpr ⟨h.sorted,List.pairwise_singleton _ _,?_⟩
    intro f hf g hg
    have hlt := hbefore f hf
    rw [List.mem_singleton.mp hg]
    show f.stop ≤ s.bufIndex - 40
    omega
  · rw [hnext]
    refine hlast (fun f hf => ?_) ?_
    · have hlt := hbefore f hf
      rw [TXDESC_SIZE]
      omega
    · rw [RsvdFrame.stop, hframe, TXDESC_SIZE]
      dsimp only
      omega
  · refine hlast (fun f hf => ?_) ?_
    · have hlt := hbefore f hf
      have hstop : f.start + f.bytes.length = f.stop := rfl
      have hsame : slice mem f.start f.bytes.length = slice s.mem f.start f.bytes.length := by
        apply hkeeps.below
        rw [TXDESC_SIZE]
        omega
      exact hsame.trans (h.kept f hf)
    · rw [hframe]
      rfl
  · intro k hk
    obtain ⟨f,hf,hkind⟩ := h.located k hk
    exact ⟨f,List.mem_append_left _ hf,hkind⟩
  · intro hmem
    rcases List.mem_append.mp hmem with hold | hnew
    · obtain ⟨b,hb,hkind⟩ := h.beacon hold
      exact ⟨b,List.mem_append_left _ hb,hkind⟩
    · have hkind := (List.mem_singleton.mp hnew).symm
      have hzero := hfirst hkind
      refine ⟨_,List.mem_append_right _ List.mem_cons_self,hkind,?_⟩
      show s.bufIndex - 40 = 8
      omega

/-- The location of the frame is the page that it is at. -/
theorem RsvdState.Laid.frame (h : s.Laid kinds pages len) (hkeeps : Keeps (s.bufIndex - TXDESC_SIZE) s.mem mem)
    (hm : TXDESC_SIZE + n ≤ m * PAGE_SIZE_128) (hle : pages + m ≤ 39) (hkind : kind ≠ .beacon) :
    RsvdState.Laid { s.count mem kind n m with loc := Function.update s.loc kind s.totalPageNum } (kinds ++ [kind])
      (pages + m) (txDescOffset + pages * PAGE_SIZE_128 + n) := by
  have hcount := h.count hkeeps hm hle fun hb => absurd hb hkind
  refine { hcount with located := ?_ }
  intro k hk
  dsimp only at hk ⊢
  by_cases hsame : k = kind
  · subst hsame
    rw [Function.update_self, h.total]
    refine ⟨_,List.mem_append_right _ List.mem_cons_self,rfl,?_⟩
    have hindex : s.bufIndex = 48 + pages * 128 := h.index
    show s.bufIndex - 40 = 8 + pages * 128
    omega
  · rw [Function.update_of_ne hsame] at hk ⊢
    exact hcount.located k hk

theorem rsvdFrame_laid {construct : ℕ → List UInt8 → Logged RsvdAccess (List UInt8 × ℕ)}
    {isPsPoll isBTQosNull : Bool}
    (h : s.Laid kinds pages len) (hbuild : Builds c s.bufIndex n s.mem (construct s.bufIndex s.mem))
    (hle : pages + pageNum (TXDESC_SIZE + n) PAGE_SIZE_128 ≤ 39) (hkind : kind ≠ .beacon) :
    ∃ s', Yields (RsvdAccess.Inside c) (rsvdFrame kind construct isPsPoll isBTQosNull s) s' ∧
      s'.Laid (kinds ++ [kind]) (pages + pageNum (TXDESC_SIZE + n) PAGE_SIZE_128)
      (txDescOffset + pages * PAGE_SIZE_128 + n) := by
  obtain ⟨mem',hmem,hkeeps⟩ := hbuild
  have hindex : s.bufIndex = 48 + pages * 128 := h.index
  have hpages := pageNum_spec (TXDESC_SIZE + n)
  have hfake : (fakeTxdesc n isPsPoll isBTQosNull).length = 40 := length_fakeTxdesc _ _ _
  have hdesc := (hkeeps.mono (Nat.sub_le s.bufIndex TXDESC_SIZE)).trans
    (@keeps_patch mem' (fakeTxdesc n isPsPoll isBTQosNull) _ _ le_rfl)
  have hlaid := h.frame hdesc hpages.1 hle hkind
  have hcast : pageNum (TXDESC_SIZE + n) PAGE_SIZE_128 % 2 ^ 8 = pageNum (TXDESC_SIZE + n) PAGE_SIZE_128 := by
    apply Nat.mod_eq_of_lt
    omega
  refine ⟨_,hmem.andThen (Yields.andThen ⟨rfl,?_⟩ (yields_ret _)),?_⟩
  · intro e he
    rw [List.mem_singleton.mp he]
    show s.bufIndex - 40 + (fakeTxdesc n isPsPoll isBTQosNull).length ≤ 5120
    omega
  · dsimp only
    rw [hcast]
    exact hlaid

theorem rsvdBeacon_laid (hap : c.state &&& 0x03 ≠ WIFI_FW_AP_STATE) : ∃ s len,
    Yields (RsvdAccess.Inside c) (rsvdBeacon c ⟨c.cmdBuf,txDescOffset,0,0,fun _ => 0,[]⟩) s ∧
    s.Laid [.beacon] 2 len := by
  obtain ⟨len,hlow,hhigh,mem,hmem,hkeeps⟩ := @builds_beacon c c.cmdBuf txDescOffset hap (by decide)
  have hinit : RsvdState.Laid ⟨c.cmdBuf,txDescOffset,0,0,fun _ => 0,[]⟩ [] 0 0 :=
    ⟨c.cmdBufLength,rfl,rfl,by decide,rfl,rfl,List.Pairwise.nil,List.forall_mem_nil _,List.forall_mem_nil _,
      fun k hk => absurd rfl hk,fun hb => absurd hb List.not_mem_nil⟩
  have hpages := pageNum_spec (TXDESC_SIZE + len)
  have htwo :
      (if pageNum (TXDESC_SIZE + len) PAGE_SIZE_128 % 2 ^ 8 = 1
      then pageNum (TXDESC_SIZE + len) PAGE_SIZE_128 % 2 ^ 8 + 1
      else pageNum (TXDESC_SIZE + len) PAGE_SIZE_128 % 2 ^ 8) = 2 := by
    rw [TXDESC_SIZE, PAGE_SIZE_128] at hpages ⊢
    split <;> omega
  have hfit : TXDESC_SIZE + len ≤ 2 * PAGE_SIZE_128 := by
    rw [TXDESC_SIZE, PAGE_SIZE_128]
    omega
  have hfirst : RsvdKind.beacon = .beacon → 0 = 0 := fun _ => rfl
  have hlaid := hinit.count (hkeeps.mono (Nat.sub_le _ _)) hfit (by decide) hfirst
  refine ⟨_,txDescOffset + 0 * PAGE_SIZE_128 + len,hmem.andThen (yields_ret _),?_⟩
  dsimp only
  rw [htwo]
  exact hlaid

theorem rsvdNull_laid {qos isBTQosNull : Bool} (h : s.Laid kinds pages len) (hle : pages + 1 ≤ 39)
    (hkind : kind ≠ .beacon) :
    ∃ s' len', Yields (RsvdAccess.Inside c)
      (rsvdFrame kind (rtwHalConstructNullFunctionData c qos) false isBTQosNull s) s' ∧
      s'.Laid (kinds ++ [kind]) (pages + 1) len' := by
  have hindex : s.bufIndex = 48 + pages * 128 := h.index
  have hfit : s.bufIndex + 26 ≤ MAX_CMDBUF_SZ := by
    rw [MAX_CMDBUF_SZ]
    omega
  have hone : pageNum (TXDESC_SIZE + if qos then 26 else 24) PAGE_SIZE_128 = 1 := by cases qos <;> rfl
  obtain ⟨s',hs',hlaid⟩ := rsvdFrame_laid h (builds_nullFunctionData hfit) (hone ▸ hle) hkind
  rw [hone] at hlaid
  exact ⟨s',_,hs',hlaid⟩

theorem rsvdPsPoll_laid (h : s.Laid kinds pages len) (hle : pages + 1 ≤ 39) :
    ∃ s' len', Yields (RsvdAccess.Inside c) (rsvdFrame .psPoll (rtwHalConstructPSPoll c) true false s) s' ∧
      s'.Laid (kinds ++ [.psPoll]) (pages + 1) len' := by
  have hindex : s.bufIndex = 48 + pages * 128 := h.index
  have hfit : s.bufIndex + 16 ≤ MAX_CMDBUF_SZ := by
    rw [MAX_CMDBUF_SZ]
    omega
  have hkind : RsvdKind.psPoll ≠ .beacon := by decide
  obtain ⟨s',hs',hlaid⟩ := rsvdFrame_laid h (builds_psPoll hfit) hle hkind
  exact ⟨s',_,hs',hlaid⟩

theorem rsvdProbeRsp_laid (h : s.Laid kinds 2 len) :
    ∃ s' pages' len', Yields (RsvdAccess.Inside c)
      (rsvdFrame .probeRsp (rtwHalConstructProbeRsp c) false false s) s' ∧
      s'.Laid (kinds ++ [.probeRsp]) pages' len' := by
  have hindex : s.bufIndex = 48 + 2 * 128 := h.index
  have hie : c.network.ieLength ≤ 768 := c.network.ieLengthLe
  have hfit : s.bufIndex + (24 + c.network.ieLength) ≤ MAX_CMDBUF_SZ := by
    rw [MAX_CMDBUF_SZ]
    omega
  have hpages := pageNum_spec (TXDESC_SIZE + (24 + c.network.ieLength))
  have hle : 2 + pageNum (TXDESC_SIZE + (24 + c.network.ieLength)) PAGE_SIZE_128 ≤ 39 := by
    rw [TXDESC_SIZE, PAGE_SIZE_128] at hpages ⊢
    omega
  have hkind : RsvdKind.probeRsp ≠ .beacon := by decide
  obtain ⟨s',hs',hlaid⟩ := rsvdFrame_laid h (builds_probeRsp hfit) hle hkind
  exact ⟨s',_,_,hs',hlaid⟩

/-- What the frames leave behind them is laid out, unless the beacon is one of an AP. -/
theorem rsvdFrames_laid (hap : c.state &&& 0x03 ≠ WIFI_FW_AP_STATE) : ∃ s pages len,
    Yields (RsvdAccess.Inside c) (rtwHalSetFwRsvdPage c) (rsvdDownload c s) ∧ s.Laid (rsvdKinds c) pages len := by
  obtain ⟨s,_,hs,hlaid⟩ := rsvdBeacon_laid hap
  rw [rtwHalSetFwRsvdPage, rsvdKinds]
  by_cases hwow : c.wowlanApMode = true
  · obtain ⟨s',pages,len,hs',hlaid'⟩ := rsvdProbeRsp_laid hlaid
    refine ⟨s',pages,len,hs.andThen (Yields.andThen ?_ (yields_ret _)),?_⟩
    · rw [if_pos hwow]
      exact hs'
    · rw [if_pos hwow]
      exact hlaid'
  · obtain ⟨s₁,_,hs₁,hlaid₁⟩ := @rsvdPsPoll_laid c _ _ _ _ hlaid (by decide)
    have hbt : ∃ s' pages len, pages ≤ 4 ∧ Yields (RsvdAccess.Inside c) (if c.btCoexist then
        rsvdFrame .btQosNull (rtwHalConstructNullFunctionData c true) false true s₁ else ret s₁) s' ∧
        s'.Laid ([.beacon] ++ [.psPoll] ++ if c.btCoexist then [.btQosNull] else []) pages len := by
      by_cases hbt : c.btCoexist = true
      · obtain ⟨s',len,hs',hlaid'⟩ := @rsvdNull_laid c _ _ .btQosNull _ _ true true hlaid₁ (by decide)
            (by decide)
        rw [if_pos hbt, if_pos hbt]
        exact ⟨s',_,len,le_rfl,hs',hlaid'⟩
      · rw [if_neg hbt, if_neg hbt]
        rw [List.append_nil]
        exact ⟨s₁,2 + 1,_,by decide,yields_ret s₁,hlaid₁⟩
    obtain ⟨s₂,pages,_,hle,hs₂,hlaid₂⟩ := hbt
    obtain ⟨s₃,_,hs₃,hlaid₃⟩ := @rsvdNull_laid c _ _ .nullData _ _ false false hlaid₂ (by omega) (by decide)
    obtain ⟨s₄,len,hs₄,hlaid₄⟩ := @rsvdNull_laid c _ _ .qosNull _ _ true false hlaid₃ (by omega) (by decide)
    refine ⟨s₄,pages + 1 + 1,len,hs.andThen (Yields.andThen ?_ (yields_ret _)),?_⟩
    · rw [if_neg hwow]
      exact hs₁.andThen (hs₂.andThen (hs₃.andThen hs₄))
    · rw [if_neg hwow]
      exact hlaid₄

end Steps

section Sent
variable {c : RsvdCall} {s : RsvdState} {kinds : List RsvdKind} {pages len : ℕ}

/-- A location that the firmware is told is that of the descriptor, counted from the one of the beacon. -/
theorem RsvdState.Laid.parm (h : s.Laid (rsvdKinds c) pages len) {i : ℕ} {k : RsvdKind}
    (hi : rsvdParmKinds[i]? = some k)
    (hloc : byteAt (rsvdParmKinds.map fun k => UInt8.ofNat (s.loc k)) i ≠ 0) :
    ∃ b ∈ s.placed, b.kind = .beacon ∧ ∃ f ∈ s.placed, f.kind = k ∧
      f.start = b.start + (byteAt (rsvdParmKinds.map fun k => UInt8.ofNat (s.loc k)) i).toNat * PAGE_SIZE_128 := by
  have hbyte : byteAt (rsvdParmKinds.map fun k => UInt8.ofNat (s.loc k)) i = UInt8.ofNat (s.loc k) := by
    rw [byteAt, List.getD_eq_getElem?_getD, List.getElem?_map, hi]
    rfl
  rw [hbyte] at hloc ⊢
  have hne : s.loc k ≠ 0 := by
    intro hzero
    rw [hzero] at hloc
    exact hloc rfl
  have hmem : RsvdKind.beacon ∈ rsvdKinds c := by
    rw [rsvdKinds]
    split <;> simp
  obtain ⟨b,hb,hkind,hstart⟩ := h.beacon hmem
  obtain ⟨f,hf,hfkind,hfstart⟩ := h.located k hne
  have hindex : s.bufIndex = 48 + pages * 128 := h.index
  have hpages := h.totalLe
  obtain ⟨hbefore,-⟩ := h.before f hf
  have hplace : f.start = 8 + s.loc k * 128 := hfstart
  have hstop : f.stop = f.start + f.bytes.length := rfl
  have hsmall : (UInt8.ofNat (s.loc k)).toNat = s.loc k := by
    rw [UInt8.toNat_ofNat']
    omega
  refine ⟨b,hb,hkind,f,hf,hfkind,?_⟩
  rw [hsmall, hfstart, hstart]

theorem RsvdState.Laid.laidOut (h : s.Laid (rsvdKinds c) pages len) (hap : c.state &&& 0x03 ≠ WIFI_FW_AP_STATE)
    (hfit : len ≤ maxRsvdPageBufSize) {o : RsvdOutcome} (hplaced : o.placed = s.placed)
    (hparm : ∀ parm, o.parm = some parm → parm = rsvdParmKinds.map fun k => UInt8.ofNat (s.loc k)) :
    LaidOut c o (s.mem.take len) := by
  constructor
  · rw [hplaced]
    exact h.order
  · intro f hf
    exact ((h.before f (hplaced ▸ hf)).2).trans hfit
  · rw [hplaced]
    exact h.sorted.imp fun hstop => .inl hstop
  · intro f hf
    have hmem : f ∈ s.placed := hplaced ▸ hf
    have hstop : f.start + f.bytes.length ≤ len := (h.before f hmem).2
    have htake : slice (s.mem.take len) f.start f.bytes.length = slice s.mem f.start f.bytes.length := by
      rw [slice, slice, List.drop_take, List.take_take, Nat.min_eq_left (by omega)]
    rw [htake, h.kept f hmem]
  · intro parm hp i k hi hloc
    rw [hparm parm hp] at hloc ⊢
    rw [hplaced]
    exact h.parm hi hloc
  · intro hstate
    exact absurd hstate hap

end Sent

/-- The beacon of an AP is copied with 36 bytes from behind the elements. -/
theorem not_all_inside_of_ap {c : RsvdCall} (hap : c.state &&& 0x03 = WIFI_FW_AP_STATE) :
    ¬All (RsvdAccess.Inside c) (rtwHalSetFwRsvdPage c) := by
  intro h
  have hbeacon := (all_andThen.mp (all_andThen.mp h).1).1
  have hies :=
    (all_andThen.mp ((all_andThen.mp ((all_andThen.mp ((all_andThen.mp hbeacon).2 _ rfl)).2 _ rfl)).2 _ rfl)).1
  rw [if_pos hap] at hies
  have hcopy := (all_andThen.mp hies).1
  have hfixed := c.network.fixedLe
  have hmem : RsvdAccess.ie (12 + (c.network.ieLength - 12)) ∈
      (List.range (36 + (c.network.ieLength - 12))).map fun k => RsvdAccess.ie (12 + k) :=
    List.mem_map.mpr ⟨_,List.mem_range.mpr (by omega),rfl⟩
  have hlt : 12 + (c.network.ieLength - 12) < c.network.ieLength := hcopy _ (List.mem_append_left _ hmem)
  omega

theorem rsvd_page_right_iff (c : RsvdCall) : RsvdPageRight c ↔ c.state &&& 0x03 ≠ WIFI_FW_AP_STATE := by
  constructor
  · intro h hap
    exact not_all_inside_of_ap hap h.1
  · intro hap
    obtain ⟨s,pages,len,hrun,hlaid⟩ := rsvdFrames_laid hap
    refine ⟨hrun.all,_,hrun.result,?_⟩
    rw [rsvdDownload, hlaid.packetLen]
    by_cases hfit : maxRsvdPageBufSize < len
    · rw [if_pos hfit]
      exact .inl ⟨rfl,rfl⟩
    · rw [if_neg hfit]
      by_cases hrun : c.cannotRun = true
      · rw [if_pos hrun]
        exact .inl ⟨rfl,rfl⟩
      · rw [if_neg hrun]
        refine .inr ⟨_,rfl,hlaid.laidOut hap (Nat.le_of_not_lt hfit) rfl ?_⟩
        intro parm hparm
        dsimp only at hparm
        split at hparm
        · exact (Option.some.inj hparm).symm
        · cases hparm

/-- An AP with a hidden SSID and one rate -/
def apNetwork : RsvdNetwork where
  macAddress := [0,0xe0,0x4c,1,2,3]
  ssid := []
  dsConfig := 1
  supportedRates := 0x82 :: List.replicate 15 0
  ieLength := 17
  ies := byteAt [0,0,0,0,0,0,0,0,100,0,1,0,0,0,1,1,0x82]
  ssidLe := by decide
  ratesLength := by decide
  fixedLe := by decide
  ieLengthLe := by decide

def apCall : RsvdCall where
  network := apNetwork
  state := WIFI_FW_AP_STATE
  aid := 0
  infrastructureMode := .apMode
  macAddr := [0,0xe0,0x4c,1,2,3]
  wowlanApMode := false
  btCoexist := false
  linked := true
  cannotRun := false
  cmdBuf := List.replicate MAX_CMDBUF_SZ 0
  cmdBufLength := List.length_replicate

theorem apCall_copies_too_much : ¬RsvdPageRight apCall := fun h => not_all_inside_of_ap rfl h.1

end Rtl8188fu
