import Rtl8188fu.Recv.DataFrame
import Rtl8188fu.Recv.Decryptor

/-! # Lengths of short data frames

The lengths that the receive functions compute for a data frame, and the bytes of it that they
read. A place is an offset from `rx_data`.
-/
namespace Rtl8188fu
open Bytes

/-- The lengths that a call computes and the parts of the frame that it reads, each with the
number of its bytes -/
structure Access where
  lengths : List ℤ
  reads : List (ℤ × ℕ)

def Access.empty : Access := ⟨[],[]⟩

/-- No length is negative, and every byte that is read is one of the `len` bytes of the frame. -/
def Access.Inside (t : Access) (len : ℕ) : Prop :=
  (∀ n ∈ t.lengths, 0 ≤ n) ∧ ∀ r ∈ t.reads, r.2 = 0 ∨ 0 ≤ r.1 ∧ r.1 + r.2 ≤ len

instance (t : Access) (len : ℕ) : Decidable (t.Inside len) := inferInstanceAs (Decidable (_ ∧ _))

/-- A length where an `uint` is expected -/
def asUint (n : ℤ) : ℕ := if 0 ≤ n then n.toNat else (n + 4294967296).toNat

/-- What `rtw_seccalctkipmic` reads of the header -/
def micHeaderReads (header : List UInt8) : List (ℤ × ℕ) :=
  (1,1) ::
    if getToDs header then [(16,6),(if getFrDs header then 24 else 10,6)]
    else [(4,6),(if getFrDs header then 16 else 10,6)]

/-- `recvframe_chkmic` -/
def chkmicAccess (sec : SecurityPriv) (stapriv : StaPriv) (f : RecvFrame) : Access :=
  if f.attrib.encrypt = .tkip then
    match rxMicKey sec stapriv f with
    | some (some _) =>
      let datalen : ℤ := f.buf.len - f.attrib.hdrlen - f.attrib.ivLen - f.attrib.icvLen - 8
      let payload : ℤ := f.attrib.hdrlen + f.attrib.ivLen
      ⟨[datalen],micHeaderReads f.buf.ptr ++ [(payload,asUint datalen),(payload + asUint datalen,8)]⟩
    | _ => .empty
  else .empty

/-- The two RC4 functions behind their IV: the payload, the bytes below the check value, and it -/
def rc4Access (f : RecvFrame) (ivReads : List (ℤ × ℕ)) : Access :=
  let length : ℤ := f.buf.len - f.attrib.hdrlen - f.attrib.ivLen
  let payload : ℤ := f.attrib.hdrlen + f.attrib.ivLen
  ⟨[length,length - 4],ivReads ++ [(payload,asUint length),(payload,(length - 4).toNat),(payload + (length - 4),4)]⟩

/-- `rtw_wep_decrypt` -/
def wepAccess (f : RecvFrame) : Access :=
  if IsWep f.attrib.encrypt then rc4Access f [(f.attrib.hdrlen,3)] else .empty

/-- `rtw_tkip_decrypt`, with `GET_TKIP_PN` -/
def tkipAccess (sec : SecurityPriv) (stapriv : StaPriv) (f : RecvFrame) : Access :=
  if f.attrib.encrypt = .tkip then
    match prwskey sec stapriv false f with
    | some _ => rc4Access f [(f.attrib.hdrlen,1),(f.attrib.hdrlen + 2,1),(f.attrib.hdrlen + 4,4)]
    | none => .empty
  else .empty

/-- `pn_vector` -/
def pnReads (hdrlen : ℕ) : List (ℤ × ℕ) := [(hdrlen,2),(hdrlen + 4,4)]

/-- `construct_ctr_preload` -/
def ctrPreloadReads (pframe : List UInt8) (hdrlen : ℕ) : List (ℤ × ℕ) :=
  (10,6) :: if qcExists pframe then [(if a4Exists hdrlen then 30 else 24,1)] else []

/-- `aes_decipher`: the payload is decrypted in place, the frame is copied to `message`, and the
MIC is compared. -/
def decipherReads (hdrlen : ℕ) (pframe : List UInt8) (plen : ℤ) : List (ℤ × ℕ) :=
  let body := asUint (plen - 8)
  let hdrlen' := ccmpHdrlen pframe hdrlen
  let copied := asUint (hdrlen' + plen + 8)
  (0,2) :: pnReads hdrlen ++ (if body = 0 then [] else ctrPreloadReads pframe hdrlen) ++ [((hdrlen' + 8 : ℤ),body)] ++
    (if copied ≤ MAX_MSG_SIZE then [(0,copied)] else []) ++ pnReads hdrlen' ++ [((asUint (hdrlen' + plen) : ℤ),8)]

/-- `rtw_aes_decrypt` -/
def aesAccess (sec : SecurityPriv) (stapriv : StaPriv) (f : RecvFrame) : Access :=
  if f.attrib.encrypt = .aes then
    match prwskey sec stapriv true f with
    | some _ =>
      let length : ℤ := f.buf.len - f.attrib.hdrlen - f.attrib.ivLen
      ⟨[length,length - 8],decipherReads f.attrib.hdrlen f.buf.ptr length⟩
    | none => .empty
  else .empty

/-- `wlanhdr_to_ethhdr`; the type is read only behind an RFC 1042 header. -/
def ethhdrAccess (f : RecvFrame) : Access :=
  let b := dropIcv f
  let psnap := f.attrib.hdrlen + f.attrib.ivLen
  let rmv := rmvLen f.attrib (bsnaphdr b.ptr psnap)
  ⟨[(b.len : ℤ) - rmv],((psnap : ℤ),6) ::
    (if slice b.ptr psnap SNAP_SIZE = rtwRfc1042Header then [((psnap : ℤ) + 6,2)] else []) ++ [((rmv : ℤ),2)]⟩

/-- Where the header ends that the MIC covers -/
def micHeaderEnd (header : List UInt8) : ℕ :=
  if getToDs header && getFrDs header then 30 else if getToDs header || getFrDs header then 22 else 16

/-- The frame is long enough for the part between the header and the MIC. -/
def MicFits (sec : SecurityPriv) (stapriv : StaPriv) (f : RecvFrame) : Prop :=
  f.attrib.encrypt = .tkip → ∀ key, rxMicKey sec stapriv f = some (some key) →
    micHeaderEnd f.buf.ptr ≤ f.buf.len ∧ f.attrib.hdrlen + f.attrib.ivLen + f.attrib.icvLen + 8 ≤ f.buf.len

def WepFits (f : RecvFrame) : Prop :=
  IsWep f.attrib.encrypt → f.attrib.hdrlen + 3 ≤ f.buf.len ∧ payloadOffset f + 4 ≤ f.buf.len

def TkipFits (sec : SecurityPriv) (stapriv : StaPriv) (f : RecvFrame) : Prop :=
  f.attrib.encrypt = .tkip → ∀ key, prwskey sec stapriv false f = some key →
    f.attrib.hdrlen + 8 ≤ f.buf.len ∧ payloadOffset f + 4 ≤ f.buf.len

/-- There is room for the IV, behind a header that may count as two bytes longer, and for the MIC;
and a payload is not decrypted without the QoS control field. -/
def AesFits (sec : SecurityPriv) (stapriv : StaPriv) (f : RecvFrame) : Prop :=
  f.attrib.encrypt = .aes → ∀ key, prwskey sec stapriv true f = some key →
    ccmpHdrlen f.buf.ptr f.attrib.hdrlen + 8 ≤ payloadOffset f ∧ payloadOffset f + 8 ≤ f.buf.len ∧
      (qcExists f.buf.ptr = true → payloadOffset f + 8 < f.buf.len →
        (if a4Exists f.attrib.hdrlen then 31 else 25) ≤ f.buf.len)

def icvTaken (f : RecvFrame) : ℕ :=
  if f.attrib.encrypt ≠ .noPrivacy ∧ f.attrib.icvLen ≤ f.buf.len then f.attrib.icvLen else 0

def EthhdrFits (f : RecvFrame) : Prop :=
  let psnap := payloadOffset f
  rmvLen f.attrib (bsnaphdr f.buf.ptr psnap) + icvTaken f ≤ f.buf.len ∧ psnap + 6 ≤ f.buf.len ∧
    (slice f.buf.ptr psnap SNAP_SIZE = rtwRfc1042Header ∨ slice f.buf.ptr psnap SNAP_SIZE = rtwBridgeTunnelHeader →
      psnap + 8 ≤ f.buf.len)

section Access
variable {sec : SecurityPriv} {stapriv : StaPriv} {f : RecvFrame} {len : ℕ} {t : Access}

theorem inside_empty : Access.empty.Inside len := ⟨nofun,nofun⟩

theorem asUint_of_nonneg {n : ℤ} (h : 0 ≤ n) : (asUint n : ℤ) = n := by
  rw [asUint, if_pos h, Int.toNat_of_nonneg h]

theorem micHeaderReads_inside (header : List UInt8) :
    (∀ r ∈ micHeaderReads header, r.2 = 0 ∨ 0 ≤ r.1 ∧ r.1 + r.2 ≤ len) ↔ micHeaderEnd header ≤ len := by
  cases hto : getToDs header <;> cases hfr : getFrDs header <;>
    simp [micHeaderReads, micHeaderEnd, hto, hfr] <;> omega

theorem chkmicAccess_inside : (chkmicAccess sec stapriv f).Inside f.buf.len ↔ MicFits sec stapriv f := by
  rw [chkmicAccess, MicFits]
  by_cases htkip : f.attrib.encrypt = .tkip
  · rw [if_pos htkip, forall_prop_of_true htkip]
    match rxMicKey sec stapriv f with
    | none => exact iff_of_true inside_empty nofun
    | some none => exact iff_of_true inside_empty nofun
    | some (some key) =>
      simp only [Option.some.injEq, forall_eq']
      constructor
      · rintro ⟨hlen,hreads⟩
        have hnonneg := hlen _ List.mem_cons_self
        exact ⟨(micHeaderReads_inside f.buf.ptr).mp fun r hr => hreads r (List.mem_append_left _ hr),by omega⟩
      · rintro ⟨hhdr,hlen⟩
        have hnonneg : (0 : ℤ) ≤ f.buf.len - f.attrib.hdrlen - f.attrib.ivLen - f.attrib.icvLen - 8 := by omega
        have hdatalen := asUint_of_nonneg hnonneg
        refine ⟨List.forall_mem_singleton.mpr hnonneg,List.forall_mem_append.mpr
          ⟨(micHeaderReads_inside f.buf.ptr).mpr hhdr,?_⟩⟩
        simp only [List.forall_mem_cons, List.not_mem_nil, false_implies, implies_true, and_true, hdatalen]
        omega
  · rw [if_neg htkip]
    exact iff_of_true inside_empty fun h => absurd h htkip

/-- A payload that the RC4 functions can work on has four bytes at least. -/
theorem rc4Access_inside {ivReads : List (ℤ × ℕ)} {iv : Prop}
    (hiv : (∀ r ∈ ivReads, r.2 = 0 ∨ 0 ≤ r.1 ∧ r.1 + r.2 ≤ f.buf.len) ↔ iv) :
    (rc4Access f ivReads).Inside f.buf.len ↔ iv ∧ payloadOffset f + 4 ≤ f.buf.len := by
  rw [payloadOffset]
  constructor
  · rintro ⟨hlen,hreads⟩
    have hicv := hlen _ (List.mem_cons_of_mem _ List.mem_cons_self)
    exact ⟨hiv.mp fun r hr => hreads r (List.mem_append_left _ hr),by omega⟩
  · rintro ⟨h,hlen⟩
    have hnonneg : (0 : ℤ) ≤ f.buf.len - f.attrib.hdrlen - f.attrib.ivLen := by omega
    have hlength := asUint_of_nonneg hnonneg
    refine ⟨?_,List.forall_mem_append.mpr ⟨hiv.mpr h,?_⟩⟩
    · exact List.forall_mem_cons.mpr ⟨hnonneg,List.forall_mem_singleton.mpr (by omega)⟩
    · simp only [List.forall_mem_cons, List.not_mem_nil, false_implies, implies_true, and_true, hlength]
      omega

theorem wepAccess_inside : (wepAccess f).Inside f.buf.len ↔ WepFits f := by
  rw [wepAccess, WepFits]
  by_cases hwep : IsWep f.attrib.encrypt
  · rw [if_pos hwep, forall_prop_of_true hwep]
    apply rc4Access_inside
    rw [List.forall_mem_singleton]
    omega
  · rw [if_neg hwep]
    exact iff_of_true inside_empty fun h => absurd h hwep

theorem tkipAccess_inside : (tkipAccess sec stapriv f).Inside f.buf.len ↔ TkipFits sec stapriv f := by
  rw [tkipAccess, TkipFits]
  by_cases htkip : f.attrib.encrypt = .tkip
  · rw [if_pos htkip, forall_prop_of_true htkip]
    match prwskey sec stapriv false f with
    | none => exact iff_of_true inside_empty nofun
    | some key =>
      simp only [Option.some.injEq, forall_eq']
      apply rc4Access_inside
      rw [List.forall_mem_cons, List.forall_mem_cons, List.forall_mem_singleton]
      omega
  · rw [if_neg htkip]
    exact iff_of_true inside_empty fun h => absurd h htkip

theorem le_ccmpHdrlen_add (pframe : List UInt8) (hdrlen : ℕ) :
    hdrlen ≤ ccmpHdrlen pframe hdrlen ∧ ccmpHdrlen pframe hdrlen ≤ hdrlen + 2 := by
  rw [ccmpHdrlen]
  split <;> omega

theorem aesAccess_inside : (aesAccess sec stapriv f).Inside f.buf.len ↔ AesFits sec stapriv f := by
  rw [aesAccess, AesFits]
  by_cases haes : f.attrib.encrypt = .aes
  · rw [if_pos haes, forall_prop_of_true haes]
    match prwskey sec stapriv true f with
    | none => exact iff_of_true inside_empty nofun
    | some key =>
      simp only [Option.some.injEq, forall_eq', payloadOffset]
      obtain ⟨hle,hle2⟩ := le_ccmpHdrlen_add f.buf.ptr f.attrib.hdrlen
      constructor
      · rintro ⟨hlen,hreads⟩
        have hmic := hlen _ (List.mem_cons_of_mem _ List.mem_cons_self)
        have hend := hreads _ (List.mem_append_right _ (List.mem_singleton.mpr rfl))
        rw [asUint_of_nonneg (by omega)] at hend
        refine ⟨by omega,by omega,fun hqc hlong => ?_⟩
        have hbody : asUint ((f.buf.len : ℤ) - f.attrib.hdrlen - f.attrib.ivLen - 8) ≠ 0 := by
          have := asUint_of_nonneg hmic
          omega
        have hqos := hreads (if a4Exists f.attrib.hdrlen then 30 else 24,1) (by
          simp [decipherReads, ctrPreloadReads, hqc, hbody])
        generalize a4Exists f.attrib.hdrlen = a4 at hqos ⊢
        cases a4 <;> simp at hqos ⊢ <;> omega
      · rintro ⟨hroom,hlen,hqc⟩
        have hmic : (0 : ℤ) ≤ f.buf.len - f.attrib.hdrlen - f.attrib.ivLen - 8 := by omega
        have hbody := asUint_of_nonneg hmic
        have hcopied := @asUint_of_nonneg
          (ccmpHdrlen f.buf.ptr f.attrib.hdrlen + ((f.buf.len : ℤ) - f.attrib.hdrlen - f.attrib.ivLen) + 8) (by omega)
        have hindex := @asUint_of_nonneg
          (ccmpHdrlen f.buf.ptr f.attrib.hdrlen + ((f.buf.len : ℤ) - f.attrib.hdrlen - f.attrib.ivLen)) (by omega)
        refine ⟨List.forall_mem_cons.mpr ⟨by omega,List.forall_mem_singleton.mpr hmic⟩,?_⟩
        simp only [decipherReads, pnReads, List.forall_mem_append, List.forall_mem_cons, List.cons_append,
          List.nil_append, List.not_mem_nil, false_implies, implies_true, and_true, hbody, hindex]
        refine ⟨by omega,by omega,by omega,⟨⟨⟨?_,by omega⟩,?_⟩,by omega,by omega⟩,by omega⟩
        · intro r hr
          split at hr
          · cases hr
          · rename_i hlong
            rcases List.mem_cons.mp hr with rfl | hr
            · dsimp only
              omega
            · split at hr
              · rename_i hq
                rw [List.mem_singleton.mp hr]
                have hqos := hqc hq (by omega)
                generalize a4Exists f.attrib.hdrlen = a4 at hqos ⊢
                cases a4 <;> simp at hqos ⊢ <;> omega
              · cases hr
        · intro r hr
          split at hr
          · rw [List.mem_singleton.mp hr]
            dsimp only
            omega
          · cases hr
  · rw [if_neg haes]
    exact iff_of_true inside_empty fun h => absurd h haes

theorem len_dropIcv (f : RecvFrame) : (dropIcv f).len = f.buf.len - icvTaken f := by
  have hle := f.buf.data_le_tail
  have hbuf : f.buf.len = f.buf.tail - f.buf.data := rfl
  rw [dropIcv, icvTaken]
  by_cases henc : f.attrib.encrypt ≠ .noPrivacy
  · rw [if_pos henc]
    by_cases hicv : f.attrib.icvLen ≤ f.buf.len
    · obtain ⟨-,hdata,htail⟩ := @RxBuf.pullTail_getD f.buf f.attrib.icvLen (by omega)
      rw [if_pos ⟨henc,hicv⟩, RxBuf.len, hdata, htail]
      omega
    · rw [if_neg fun h => hicv h.2, RxBuf.pullTail, dif_neg (by omega)]
      rfl
  · rw [if_neg henc, if_neg fun h => henc h.1]
    rfl

theorem ethhdrAccess_inside : (ethhdrAccess f).Inside f.buf.len ↔ EthhdrFits f := by
  have hptr : (dropIcv f).ptr = f.buf.ptr := by
    rw [RxBuf.ptr, (dropIcv_mem f).1, (dropIcv_mem f).2]
    rfl
  have htaken : icvTaken f ≤ f.buf.len := by
    rw [icvTaken]
    split
    · rename_i h
      exact h.2
    · exact Nat.zero_le _
  have hbridge : slice f.buf.ptr (payloadOffset f) SNAP_SIZE = rtwBridgeTunnelHeader →
      bsnaphdr f.buf.ptr (payloadOffset f) = true := fun h => by simp [bsnaphdr, h]
  have hsnap : bsnaphdr f.buf.ptr (payloadOffset f) = true →
      slice f.buf.ptr (payloadOffset f) SNAP_SIZE = rtwRfc1042Header ∨
        slice f.buf.ptr (payloadOffset f) SNAP_SIZE = rtwBridgeTunnelHeader := by
    simp only [bsnaphdr, Bool.or_eq_true, Bool.and_eq_true, decide_eq_true_eq]
    exact Or.imp_left fun h => h.1.1
  rw [ethhdrAccess, EthhdrFits, hptr, len_dropIcv]
  simp only [rmvLen]
  change (Access.mk _ _).Inside _ ↔ _
  generalize hoff : f.attrib.hdrlen + f.attrib.ivLen = psnap
  rw [payloadOffset, hoff] at hbridge hsnap ⊢
  simp only [Access.Inside, List.forall_mem_cons, List.forall_mem_append, List.cons_append, List.not_mem_nil,
    false_implies, implies_true, and_true]
  generalize bsnaphdr f.buf.ptr psnap = bsnap at hbridge hsnap ⊢
  by_cases hrfc : slice f.buf.ptr psnap SNAP_SIZE = rtwRfc1042Header
  · rw [if_pos hrfc, forall_prop_of_true (.inl hrfc)]
    cases bsnap <;> simp [SNAP_SIZE] <;> omega
  · rw [if_neg hrfc]
    by_cases hbr : slice f.buf.ptr psnap SNAP_SIZE = rtwBridgeTunnelHeader
    · rw [hbridge hbr, forall_prop_of_true (.inr hbr)]
      simp [SNAP_SIZE]
      omega
    · have hno : bsnap = false := by
        by_contra h
        exact (hsnap (Bool.eq_true_of_not_eq_false h)).elim hrfc hbr
      rw [hno]
      simp [hrfc, hbr]
      omega

end Access

/-- For every frame, whatever its attributes are, each function stays in it with lengths that are
not negative exactly when its condition holds. -/
theorem data_frame_lengths_iff (sec : SecurityPriv) (stapriv : StaPriv) (f : RecvFrame) :
    ((chkmicAccess sec stapriv f).Inside f.buf.len ↔ MicFits sec stapriv f) ∧
    ((wepAccess f).Inside f.buf.len ↔ WepFits f) ∧
    ((tkipAccess sec stapriv f).Inside f.buf.len ↔ TkipFits sec stapriv f) ∧
    ((aesAccess sec stapriv f).Inside f.buf.len ↔ AesFits sec stapriv f) ∧
    ((ethhdrAccess f).Inside f.buf.len ↔ EthhdrFits f) :=
  ⟨chkmicAccess_inside,wepAccess_inside,tkipAccess_inside,aesAccess_inside,ethhdrAccess_inside⟩

/-- A station that is linked to `apAddr` with CCMP -/
def shortFrameStation : DataEnv where
  adhocState := false
  stationState := true
  apState := false
  mpState := false
  fwLinked := true
  fwUnderLinking := false
  mybssid := apAddr
  myhwaddr := ownAddr
  bRTWSmbCfg := false
  sec := wpaSecurity
  stapriv := fun a => if a = apAddr then some ccmpPeer else none
  tidRxseq := fun _ _ => 0

/-- The header of a protected data frame from the access point, and nothing behind it -/
def headerOnly : RecvFrame :=
  let mem := [0x08,0x42,0,0] ++ ownAddr ++ apAddr ++ apAddr ++ [0x10,0]
  { plainFrame 0 1 false with buf := ⟨mem,0,24,by decide,by decide⟩ }

theorem header_only_underflows :
    ¬∀ (e : DataEnv) (f g : RecvFrame), validateRecvDataFrame e f = some g →
      (chkmicAccess e.sec e.stapriv g).Inside g.buf.len ∧ (wepAccess g).Inside g.buf.len ∧
        (tkipAccess e.sec e.stapriv g).Inside g.buf.len ∧ (aesAccess e.sec e.stapriv g).Inside g.buf.len ∧
        (ethhdrAccess g).Inside g.buf.len := by
  intro h
  cases hg : validateRecvDataFrame shortFrameStation headerOnly with
  | none => exact absurd hg (by decide)
  | some g =>
    have hshort : (validateRecvDataFrame shortFrameStation headerOnly).any
        (fun g => decide ((aesAccess shortFrameStation.sec shortFrameStation.stapriv g).Inside g.buf.len)) = false := by
      decide
    rw [hg, Option.any_some, decide_eq_false_iff_not] at hshort
    exact hshort (h shortFrameStation headerOnly g hg).2.2.2.1

end Rtl8188fu
