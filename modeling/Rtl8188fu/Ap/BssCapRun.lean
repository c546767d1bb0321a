import Rtl8188fu.Ap.StaTracks
import Rtl8188fu.Ap.BssCap

/-! # Runs of the capability counters

The counters count the flags of the stations on `asoc_list`, and the beacon follows them.
-/
namespace Rtl8188fu
open FlagCount

namespace BssCap
variable {b : BssCap} {l : List ℕ}

/-- The bits of the ERP element that the counters imply -/
def erpInfo (b : BssCap) : ErpInfo where
  nonErpPresent := 0 < b.sta.num .nonErp
  useProtection := 0 < b.sta.num .nonErp
  barkerPreambleMode := 0 < b.sta.num .noShortPreamble

/-- The operation mode that the counters imply, with the overlapping networks that were found -/
def htOpModeFor (b : BssCap) : HtOpMode where
  opMode :=
    if 0 < b.sta.num .noHt then opModeMixed
    else if b.supWidth ∧ 0 < b.sta.num .ht20mhz then opMode20mhzHtStaAssoced
    else if b.olbcHt then opModeMayBeLegacyStas
    else opModePure
  nonGfDevsPresent := 0 < b.sta.num .htNoGf
  nonHtStaPresent := 0 < b.sta.num .noHt ∨ b.olbcHt

/-- The counters are right for the listed stations, the ERP element for the counters, and the
HT element for `ht_op_mode`. -/
structure MidInv (l : List ℕ) (b : BssCap) : Prop where
  counts : Counts l b.sta
  olbc : b.olbc = b.olbcHt
  erp : ∀ e ∈ b.erpIe, e = b.erpInfo
  ie : b.htOption → ∀ m ∈ b.htInfoIe, m = b.htOpMode

structure CapInv (l : List ℕ) (b : BssCap) : Prop extends MidInv l b where
  mode : b.htOption → b.htOpMode = b.htOpModeFor

theorem opModeBit_fst (cur want : Bool) : (opModeBit cur want).1 = want := by
  cases cur <;> cases want <;> rfl

theorem opModeBit_snd (cur want : Bool) : (opModeBit cur want).2 = if cur = want then 0 else 1 := by
  cases cur <;> cases want <;> rfl

theorem pos_iff_ne (h : Counts l b.sta) (k : StaFlag) : 0 < b.sta.num k ↔ b.sta.num k ≠ 0 := by
  have := h.nonneg k
  omega

theorem rtwHtOperationUpdate_mode (h : Counts l b.sta) (hht : b.htOption = true) :
    b.rtwHtOperationUpdate.1 = { b with htOpMode := b.htOpModeFor } := by
  rw [rtwHtOperationUpdate, hht]
  simp only [Bool.not_true, Bool.false_eq_true, if_false, opModeBit_fst, newOpMode, htOpModeFor,
    pos_iff_ne h, Bool.decide_or, Bool.decide_eq_true]

theorem rtwHtOperationUpdate_same (hht : b.htOption = true) (hzero : b.rtwHtOperationUpdate.2 = 0) :
    b.rtwHtOperationUpdate.1.htOpMode = b.htOpMode := by
  rw [rtwHtOperationUpdate, hht] at hzero ⊢
  simp only [Bool.not_true, Bool.false_eq_true, if_false, opModeBit_fst, opModeBit_snd] at hzero ⊢
  obtain ⟨hbits,hmode⟩ := Nat.add_eq_zero_iff.mp hzero
  obtain ⟨hgf,hnon⟩ := Nat.add_eq_zero_iff.mp hbits
  simp only [ite_eq_left_iff, one_ne_zero, imp_false, not_not] at hgf hnon
  simp only [ite_eq_right_iff, one_ne_zero, imp_false, not_not] at hmode
  rw [← hgf, ← hnon, ← hmode]

theorem htUpdate_sta (b : BssCap) : b.htUpdate.sta = b.sta := by
  rw [htUpdate, updateBcnHtinfoIe, rtwHtOperationUpdate]
  split_ifs <;> rfl

/-- The end of a join or a leave makes the operation mode right. -/
theorem MidInv.htUpdate (h : MidInv l b) : CapInv l b.htUpdate := by
  cases hht : b.htOption with
  | false =>
    have hsame : b.htUpdate = b := by simp [BssCap.htUpdate, rtwHtOperationUpdate, hht]
    rw [hsame]
    exact ⟨h,by simp [hht]⟩
  | true =>
    have hmode := rtwHtOperationUpdate_mode h.counts hht
    rw [BssCap.htUpdate]
    split
    · rw [hmode, updateBcnHtinfoIe, hht]
      refine ⟨⟨h.counts,h.olbc,h.erp,fun _ m hm => ?_⟩,fun _ => rfl⟩
      obtain ⟨-,-,rfl⟩ := Option.map_eq_some_iff.mp hm
      rfl
    · rename_i hzero
      have hsame := rtwHtOperationUpdate_same hht (by omega)
      rw [hmode] at hsame ⊢
      refine ⟨⟨h.counts,h.olbc,h.erp,fun _ m hm => ?_⟩,fun _ => rfl⟩
      exact (h.ie hht m hm).trans hsame.symm

/-- A flag changes that its counter is the first or the last to have. -/
def Crosses (c : FlagCount StaFlag ℕ) (k : StaFlag) (i : ℕ) (v : Bool) : Prop :=
  c.flag k i ≠ v ∧ c.num k = if v then 0 else 1

/-- The first or last station without a short preamble is also the first or last non-ERP
station, when the beacon has an ERP element. -/
def Together (b : BssCap) (i : ℕ) (longPreamble nonErp : Bool) : Prop :=
  b.erpIe.isSome → Crosses b.sta .noShortPreamble i longPreamble → Crosses b.sta .nonErp i nonErp

theorem put_num_pos {c : FlagCount StaFlag ℕ} {k : StaFlag} {i : ℕ} {v : Bool} (h : Counts l c)
    (hno : ¬ Crosses c k i v) : 0 < (c.put k i v).num k ↔ 0 < c.num k := by
  rw [put_num_self]
  split
  · exact Iff.rfl
  · rename_i hflag
    have hnonneg := h.nonneg k
    have hnum : c.num k ≠ if v then 0 else 1 := fun heq => hno ⟨hflag,heq⟩
    cases v with
    | true =>
      simp only [if_true] at hnum ⊢
      omega
    | false =>
      have hpos := h.pos_of_flag (Bool.eq_true_of_not_eq_false hflag)
      simp only [Bool.false_eq_true, if_false] at hnum ⊢
      omega

/-- What the counter of non-ERP stations and the beacon do when a flag is put -/
theorem putNonErp_cases (b : BssCap) (i : ℕ) (v : Bool) :
    b.sta.flag .nonErp i = v ∧ b.putNonErp i v = b ∨
    Crosses b.sta .nonErp i v ∧ b.putNonErp i v = (b.put .nonErp i v).updateBcnErpinfoIe ∨
    ¬ Crosses b.sta .nonErp i v ∧ b.sta.flag .nonErp i ≠ v ∧ b.putNonErp i v = b.put .nonErp i v := by
  by_cases hflag : b.sta.flag .nonErp i = v
  · exact Or.inl ⟨hflag,if_pos hflag⟩
  · right
    have hnum : (b.put .nonErp i v).sta.num .nonErp =
        if v then b.sta.num .nonErp + 1 else b.sta.num .nonErp - 1 := by
      rw [put, put_num_self, if_neg hflag]
    have hlast : (b.put .nonErp i v).sta.num .nonErp = (if v then 1 else 0) ↔ Crosses b.sta .nonErp i v := by
      rw [hnum, Crosses]
      cases v with
      | true => simp [hflag]
      | false => simp [hflag, sub_eq_zero]
    rw [putNonErp, if_neg hflag]
    by_cases hcross : Crosses b.sta .nonErp i v
    · exact Or.inl ⟨hcross,if_pos (hlast.mpr hcross)⟩
    · exact Or.inr ⟨hcross,hflag,if_neg fun h => hcross (hlast.mp h)⟩

theorem putNonErp_sta (b : BssCap) (i : ℕ) (v : Bool) : (b.putNonErp i v).sta = b.sta.put .nonErp i v := by
  rcases putNonErp_cases b i v with ⟨hflag,h⟩ | ⟨-,h⟩ | ⟨-,-,h⟩
  · rw [h, FlagCount.put, if_pos hflag]
  · rw [h]
    rfl
  · rw [h]
    rfl

/-- The two counters of the ERP element change, the one of the preamble first. -/
theorem putNonErp_erp {i : ℕ} {u v : Bool} (h : Counts l b.sta) (herp : ∀ e ∈ b.erpIe, e = b.erpInfo)
    (hcross : b.Together i u v) :
    ∀ e ∈ ((b.put .noShortPreamble i u).putNonErp i v).erpIe,
      e = ((b.put .noShortPreamble i u).putNonErp i v).erpInfo := by
  intro e he
  have hnum : (b.put .noShortPreamble i u).sta.num .nonErp = b.sta.num .nonErp :=
    put_num_of_ne_kind u (by decide)
  have hflag : (b.put .noShortPreamble i u).sta.flag .nonErp i = b.sta.flag .nonErp i :=
    congrFun (put_flag_of_ne_kind u (by decide)) i
  have hsame : Crosses (b.put .noShortPreamble i u).sta .nonErp i v ↔ Crosses b.sta .nonErp i v := by
    rw [Crosses, Crosses, hnum, hflag]
  have hpre : ¬ Crosses b.sta .nonErp i v → e ∈ b.erpIe →
      (0 < (b.put .noShortPreamble i u).sta.num .noShortPreamble ↔ 0 < b.sta.num .noShortPreamble) := by
    intro hno hmem
    exact put_num_pos h fun hc => hno (hcross (Option.isSome_of_mem hmem) hc)
  have hbarker : ((b.put .noShortPreamble i u).put .nonErp i v).sta.num .noShortPreamble =
      (b.put .noShortPreamble i u).sta.num .noShortPreamble := put_num_of_ne_kind v (by decide)
  have hnew : ((b.put .noShortPreamble i u).put .nonErp i v).sta.num .nonErp = (b.sta.put .nonErp i v).num .nonErp := by
    rw [put, put_num_self, put_num_self, hflag, hnum]
  rcases putNonErp_cases (b.put .noShortPreamble i u) i v with ⟨hv,hb⟩ | ⟨hc,hb⟩ | ⟨hno,-,hb⟩
  · rw [hb] at he ⊢
    have hno : ¬ Crosses b.sta .nonErp i v := fun hc => hc.1 (hflag ▸ hv)
    rw [herp e he, erpInfo, erpInfo]
    simp only [hnum, hpre hno he]
  · -- the element is made anew from the counters
    rw [hb] at he ⊢
    obtain ⟨-,-,rfl⟩ := Option.map_eq_some_iff.mp he
    obtain ⟨hv,hzero⟩ := hsame.mp hc
    rw [put_num_self, if_neg hv, hzero] at hnew
    cases v with
    | true =>
      simp only [if_true, zero_add] at hnew
      simp [erpInfo, updateBcnErpinfoIe, hnew]
    | false =>
      simp only [Bool.false_eq_true, if_false, sub_self] at hnew
      simp [erpInfo, updateBcnErpinfoIe, hnew]
  · rw [hb] at he ⊢
    rw [hsame] at hno
    rw [herp e he, erpInfo, erpInfo]
    simp only [hbarker, hnew, put_num_pos h hno, hpre hno he]

theorem MidInv.put (h : MidInv l b) (hl : l.Nodup) {k : StaFlag} {i : ℕ} {v : Bool} (hi : v = true → i ∈ l)
    (herp : k ≠ .nonErp) (hpre : k ≠ .noShortPreamble) : MidInv l (b.put k i v) := by
  refine ⟨h.counts.put hl hi,h.olbc,fun e he => ?_,h.ie⟩
  have hnon : (b.put k i v).sta.num .nonErp = b.sta.num .nonErp := put_num_of_ne_kind v herp.symm
  have hbarker : (b.put k i v).sta.num .noShortPreamble = b.sta.num .noShortPreamble :=
    put_num_of_ne_kind v hpre.symm
  rw [h.erp e he, erpInfo, erpInfo, hnon, hbarker]

theorem MidInv.putErp (h : MidInv l b) (hl : l.Nodup) {i : ℕ} {u v : Bool} (hu : u = true → i ∈ l)
    (hv : v = true → i ∈ l) (hcross : b.Together i u v) :
    MidInv l ((b.put .noShortPreamble i u).putNonErp i v) := by
  refine ⟨?_,?_,putNonErp_erp h.counts h.erp hcross,?_⟩
  · rw [putNonErp_sta]
    exact (h.counts.put hl hu).put hl hv
  · rcases putNonErp_cases (b.put .noShortPreamble i u) i v with ⟨-,hb⟩ | ⟨-,hb⟩ | ⟨-,-,hb⟩
    all_goals
      rw [hb]
      exact h.olbc
  · rcases putNonErp_cases (b.put .noShortPreamble i u) i v with ⟨-,hb⟩ | ⟨-,hb⟩ | ⟨-,-,hb⟩
    all_goals
      rw [hb]
      exact h.ie

/-- A station joins that is on `asoc_list`. -/
theorem CapInv.onStaJoin (h : CapInv l b) (hl : l.Nodup) {i : ℕ} (hi : i ∈ l) {caps : AssocCaps}
    (hcross : b.Together i (!caps.shortPreamble) caps.nonErp) : CapInv l (b.onStaJoin i caps) := by
  have herp := h.toMidInv.putErp hl (fun _ => hi) (fun _ => hi) hcross
  have hslot := herp.put (k := .noShortSlotTime) (v := !caps.shortSlot) hl (fun _ => hi) (by decide) (by decide)
  rw [BssCap.onStaJoin]
  refine MidInv.htUpdate ?_
  cases caps.ht with
  | none => exact hslot.put hl (fun _ => hi) (by decide) (by decide)
  | some ht =>
    obtain ⟨grnFld,supWidth⟩ := ht
    have hno := hslot.put (k := .noHt) (v := false) hl (fun _ => hi) (by decide) (by decide)
    cases grnFld with
    | true =>
      cases supWidth with
      | true => exact hno
      | false => exact hno.put hl (fun _ => hi) (by decide) (by decide)
    | false =>
      have hgf := hno.put (k := .htNoGf) (v := true) hl (fun _ => hi) (by decide) (by decide)
      cases supWidth with
      | true => exact hgf
      | false => exact hgf.put hl (fun _ => hi) (by decide) (by decide)

theorem onStaLeave_sta (b : BssCap) (i : ℕ) : (b.onStaLeave i).sta =
    ((((((b.sta.put .noShortPreamble i false).put .nonErp i false).put .noShortSlotTime i false).put .htNoGf i
      false).put .noHt i false).put .ht20mhz i false) := by
  rw [onStaLeave, htUpdate_sta]
  simp only [put, putNonErp_sta]

theorem onStaLeave_flag {i : ℕ} (h40 : b.sta.flag .ht40mhzIntolerant i = false) (k : StaFlag) :
    (b.onStaLeave i).sta.flag k i = false := by
  rw [onStaLeave_sta]
  cases k <;> simp [put_flag_of_ne_kind, h40]

/-- A station leaves that has not reported that it tolerates no 40 MHz channels. -/
theorem CapInv.onStaLeave (h : CapInv l b) (hl : l.Nodup) {i : ℕ} (h40 : b.sta.flag .ht40mhzIntolerant i = false)
    (hcross : b.Together i false false) : CapInv (l.erase i) (b.onStaLeave i) := by
  have hkeep : CapInv l (b.onStaLeave i) := by
    have herp := h.toMidInv.putErp (u := false) (v := false) hl nofun nofun hcross
    have hslot := herp.put (k := .noShortSlotTime) (i := i) (v := false) hl nofun (by decide) (by decide)
    have hgf := hslot.put (k := .htNoGf) (i := i) (v := false) hl nofun (by decide) (by decide)
    have hno := hgf.put (k := .noHt) (i := i) (v := false) hl nofun (by decide) (by decide)
    exact (hno.put (k := .ht20mhz) (i := i) (v := false) hl nofun (by decide) (by decide)).htUpdate
  exact ⟨⟨hkeep.counts.erase (onStaLeave_flag h40),hkeep.olbc,hkeep.erp,hkeep.ie⟩,hkeep.mode⟩

/-- The effects that drift the counters or the beacon do not come up. -/
def EffectSafe (b : BssCap) : StaEffect → Prop
  | .join i caps => b.Together i (!caps.shortPreamble) caps.nonErp
  | .leave i => b.sta.flag .ht40mhzIntolerant i = false ∧ b.Together i false false
  | _ => True

theorem effects_inv {m : List ℕ} {es : List StaEffect} (ht : Tracks l es m) (hl : l.Nodup) (h : CapInv l b)
    (hsafe : Run.Safe effect EffectSafe b es) : m.Nodup ∧ CapInv m (es.foldl effect b) := by
  induction ht generalizing b with
  | nil l => exact ⟨hl,h⟩
  | @fresh l i es m hi _ ih =>
    have hsame : b.effect (.fresh i) = b := by rw [effect, reset_eq fun k => h.counts.clear k i hi]
    refine ih hl ?_ hsafe.2
    rw [hsame]
    exact h
  | @join l i caps es m _ ih =>
    have hmem : i ∈ if i ∈ l then l else l ++ [i] := by
      split
      · assumption
      · simp
    have hnodup : (if i ∈ l then l else l ++ [i]).Nodup := by
      split
      · exact hl
      · rename_i hi
        exact List.nodup_append_comm.mp (List.nodup_cons.mpr ⟨hi,hl⟩)
    have hinv : CapInv (if i ∈ l then l else l ++ [i]) b := by
      split
      · exact h
      · rename_i hi
        exact ⟨⟨h.counts.append hi,h.olbc,h.erp,h.ie⟩,h.mode⟩
    exact ih hnodup (hinv.onStaJoin hnodup hmem hsafe.1) hsafe.2
  | leave _ ih => exact ih (hl.erase _) (h.onStaLeave hl hsafe.1.1 hsafe.1.2) hsafe.2
  | qos _ ih => exact ih hl h hsafe.2
  | free _ ih => exact ih hl h hsafe.2
  | poll _ ih => exact ih hl h hsafe.2
  | aging _ ih => exact ih hl h hsafe.2

/-- A beacon that user space sets while the access point runs does not drift anything. -/
def BeaconSafe (b : BssCap) (d : BeaconData) : Prop :=
  -- no station without HT is associated
  b.sta.num .noHt = 0 ∧
  (∀ e ∈ d.erpIe, e = b.erpInfo) ∧
  (d.htCap →
    -- HT was on before, or is turned on with the right operation mode
    (b.htOption ∨ b.htOpMode = b.htOpModeFor) ∧
    -- the scan finds no first network without HT
    (d.legacyBss → b.olbcHt) ∧
    (0 < b.sta.num .ht20mhz → d.supWidth.getD b.supWidth = b.supWidth ∧ ¬ (b.olbcHt ∧ b.supWidth)) ∧
    (d.idle ∧ b.olbcHt ∨ ∀ m ∈ d.htInfoIe, m = b.htOpModeFor))

theorem CapInv.beacon (h : CapInv l b) {d : BeaconData} (hsafe : BeaconSafe b d) :
    CapInv l (rtwCheckBeaconData b d) := by
  obtain ⟨hzero,herp,hht⟩ := hsafe
  have hscan : (rtwApCheckScan b d.legacyBss).sta = b.sta := by
    rw [rtwApCheckScan, ← hzero, Function.update_eq_self]
  have holbc : (b.olbc || d.legacyBss) = (b.olbcHt || d.legacyBss) := by rw [h.olbc]
  let u : BssCap := { rtwApCheckScan b d.legacyBss with
    supWidth := d.supWidth.getD b.supWidth
    htOption := d.htCap
    erpIe := d.erpIe
    htInfoIe := d.htInfoIe }
  have hu : u.sta = b.sta := hscan
  have hcounts : Counts l u.sta := hu ▸ h.counts
  have herpu : ∀ e ∈ u.erpIe, e = u.erpInfo := by
    intro e he
    rw [herp e he, erpInfo, erpInfo, hu]
  -- the operation mode that the counters imply is the one of before
  have hfor : d.htCap → u.htOpModeFor = b.htOpModeFor ∧ u.olbcHt = b.olbcHt ∧ b.htOpMode = b.htOpModeFor := by
    intro hcap
    obtain ⟨hold,hlegacy,hwidth,-⟩ := hht hcap
    have hsame : u.olbcHt = b.olbcHt := by
      change (b.olbcHt || d.legacyBss) = b.olbcHt
      cases hd : d.legacyBss with
      | false => exact Bool.or_false _
      | true => rw [hlegacy hd, Bool.true_or]
    refine ⟨?_,hsame,hold.elim h.mode id⟩
    rw [htOpModeFor, htOpModeFor, hu, hsame]
    by_cases h20 : 0 < b.sta.num .ht20mhz
    · have hsup : u.supWidth = b.supWidth := (hwidth h20).1
      rw [hsup]
    · simp [h20]
  rw [rtwCheckBeaconData]
  change CapInv l (if d.idle = true ∧ (u.olbc || u.olbcHt) = true then
    updateBcnHtinfoIe { u with htOpMode.opMode := opModeMayBeLegacyStas } else u)
  split
  · rename_i hidle
    have hlegacy : u.olbcHt = true := by
      have := hidle.2
      rw [show u.olbc = u.olbcHt from holbc, Bool.or_self] at this
      exact this
    cases hcap : d.htCap with
    | false =>
      have hoff : updateBcnHtinfoIe { u with htOpMode.opMode := opModeMayBeLegacyStas } =
          { u with htOpMode.opMode := opModeMayBeLegacyStas } := if_neg (by simp [u, hcap])
      rw [hoff]
      exact ⟨⟨hcounts,holbc,herpu,by simp [u, hcap]⟩,by simp [u, hcap]⟩
    | true =>
      obtain ⟨hfor,hsame,hmode⟩ := hfor hcap
      have hlater : b.olbcHt = true := hsame ▸ hlegacy
      have hone : b.htOpModeFor.opMode = opModeMayBeLegacyStas := by
        have hwidth := (hht hcap).2.2.1
        rw [hlater] at hwidth
        simp only [htOpModeFor, hzero, lt_irrefl, if_false, hlater, if_true, ite_eq_right_iff]
        rintro ⟨hsup,h20⟩
        exact absurd ⟨rfl,hsup⟩ (hwidth h20).2
      have hon : updateBcnHtinfoIe { u with htOpMode.opMode := opModeMayBeLegacyStas } =
          { u with
            htOpMode.opMode := opModeMayBeLegacyStas
            htInfoIe := u.htInfoIe.map fun _ => { b.htOpMode with opMode := opModeMayBeLegacyStas } } := if_pos hcap
      rw [hon]
      refine ⟨⟨hcounts,holbc,herpu,fun _ m hm => ?_⟩,fun _ => ?_⟩
      · obtain ⟨-,-,rfl⟩ := Option.map_eq_some_iff.mp hm
        rfl
      · change { b.htOpMode with opMode := opModeMayBeLegacyStas } = u.htOpModeFor
        rw [hfor, hmode, ← hone]
  · rename_i hquiet
    refine ⟨⟨hcounts,holbc,herpu,fun hcap m hm => ?_⟩,fun hcap => ?_⟩
    · obtain ⟨hfor,hsame,hmode⟩ := hfor hcap
      rcases (hht hcap).2.2.2 with ⟨hidle,hlegacy⟩ | hie
      · exact absurd ⟨hidle,by rw [hsame, hlegacy, Bool.or_true]⟩ hquiet
      · exact (hie m hm).trans hmode.symm
    · obtain ⟨hfor,hsame,hmode⟩ := hfor hcap
      exact hmode.trans hfor.symm

theorem CapInv.coex (h : CapInv l b) (hl : l.Nodup) {f : CoexFrame} {i : ℕ}
    (hsafe : (∃ w, f.coexistence = some (true,w)) → i ∈ l) : CapInv l (rtwProcessPublicActBsscoex b f i) := by
  have hupdate : ∀ c : BssCap, CapInv l c → CapInv l c.updateBcnHtinfoIe := by
    intro c hc
    rw [updateBcnHtinfoIe]
    split
    · refine ⟨⟨hc.counts,hc.olbc,hc.erp,fun _ m hm => ?_⟩,hc.mode⟩
      obtain ⟨-,-,rfl⟩ := Option.map_eq_some_iff.mp hm
      rfl
    · exact hc
  have hput : i ∈ l → CapInv l (b.put .ht40mhzIntolerant i true) := by
    intro hi
    have hmid := h.toMidInv.put (k := .ht40mhzIntolerant) (v := true) hl (fun _ => hi) (by decide) (by decide)
    refine ⟨hmid,fun hcap => (h.mode hcap).trans ?_⟩
    have hnum : ∀ k, k ≠ .ht40mhzIntolerant → (b.put .ht40mhzIntolerant i true).sta.num k = b.sta.num k :=
      fun k hk => put_num_of_ne_kind true hk
    rw [htOpModeFor, htOpModeFor, hnum _ (by decide), hnum _ (by decide), hnum _ (by decide)]
    rfl
  have hfirst : CapInv l (bsscoexElement b f i).1 := by
    rw [bsscoexElement]
    split
    · rename_i w hf
      split
      · exact h
      · exact hput (hsafe ⟨w,hf⟩)
    · split
      · exact h
      · exact ⟨⟨h.counts,h.olbc,h.erp,h.ie⟩,h.mode⟩
    · exact h
  rw [rtwProcessPublicActBsscoex]
  generalize bsscoexElement b f i = r at hfirst ⊢
  have hsecond : CapInv l { r.1 with htIntolerantChReported := true } :=
    ⟨⟨hfirst.counts,hfirst.olbc,hfirst.erp,hfirst.ie⟩,hfirst.mode⟩
  dsimp only
  cases f.intolerantChReport && !r.1.htIntolerantChReported with
  | true => exact hupdate _ hsecond
  | false =>
    cases hupd : r.2 with
    | true => simpa only [Bool.false_eq_true, if_false, hupd, if_true] using hupdate _ hfirst
    | false => simpa only [Bool.false_eq_true, if_false, hupd] using hfirst

/-- What is asked of the access point: each counter is the number of associated stations with
the flag, and the beacon has the bits that the counters imply. -/
structure BssRight (s : Bss) : Prop where
  count : ∀ k, s.cap.sta.num k = s.table.asocList.countP (s.cap.sta.flag k)
  nonneg : ∀ k, 0 ≤ s.cap.sta.num k
  erp : ∀ e ∈ s.cap.erpIe, e = s.cap.erpInfo
  ht : s.cap.htOption → ∀ m ∈ s.cap.htInfoIe, m = s.cap.htOpModeFor

/-- An authentication frame comes from no associated station with a flag. -/
def AuthSafe (s : Bss) : StaEvent → Prop
  | .auth f => f.badAlg = false → f.allowed → ∀ i ∈ s.table.getStainfo f.sa, ∀ k, s.cap.sta.flag k i = false
  | _ => True

/-- The events that drift nothing -/
def BssSafe (s : Bss) : BssEvent → Prop
  | .sta e => AuthSafe s e ∧ Run.Safe effect EffectSafe s.cap (staStep s.table e).2
  | .coex f => (∃ w, f.coexistence = some (true,w)) → ∀ i ∈ s.table.getStainfo f.ta, i ∈ s.table.asocList
  | .survey wifiSpec bwmodeUpdated ht => ¬ (wifiSpec && !bwmodeUpdated && !ht)
  | .beacon d => BeaconSafe s.cap d

/-- The invariant of a run: the station table, and the counters for its `asoc_list` -/
def BssInv (s : Bss) : Prop := StaTable.TableInv False s.table ∧ CapInv s.table.asocList s.cap

theorem bssInv_init : BssInv .init := by
  refine ⟨StaTable.TableInv.init False,⟨.zero _,rfl,?_,nofun⟩,nofun⟩
  intro e he
  cases he

theorem bssStep_inv (s : Bss) (e : BssEvent) (hsafe : BssSafe s e) (h : BssInv s) : BssInv (bssStep s e) := by
  obtain ⟨htable,hcap⟩ := h
  cases e with
  | sta e =>
    obtain ⟨hauth,heff⟩ := hsafe
    have hin : (asocListIn s.table e).Nodup ∧ CapInv (asocListIn s.table e) s.cap := by
      cases e with
      | auth f =>
        rw [asocListIn]
        split
        · exact ⟨htable.asocNodup,hcap⟩
        · rename_i hok
          rw [Bool.not_eq_true, Bool.or_eq_false_iff, Bool.not_eq_false'] at hok
          cases hi : s.table.getStainfo f.sa with
          | none => exact ⟨htable.asocNodup,hcap⟩
          | some i =>
            have hclear := hauth hok.1 hok.2 i hi
            exact ⟨htable.asocNodup.erase
              i,⟨⟨hcap.counts.erase hclear,hcap.olbc,hcap.erp,hcap.ie⟩,hcap.mode⟩⟩
      | _ => exact ⟨htable.asocNodup,hcap⟩
    refine ⟨staStep_inv htable e False.elim,?_⟩
    exact (effects_inv (staStep_tracks htable e) hin.1 hin.2 heff).2
  | coex f =>
    rw [bssStep]
    split
    · exact ⟨htable,hcap⟩
    · rename_i i hi
      exact ⟨htable,hcap.coex htable.asocNodup fun hw => hsafe hw i hi⟩
  | survey wifiSpec bwmodeUpdated ht =>
    have hskip : collectBssInfo s.cap wifiSpec bwmodeUpdated ht = s.cap := if_neg hsafe
    refine ⟨htable,?_⟩
    change CapInv s.table.asocList (collectBssInfo s.cap wifiSpec bwmodeUpdated ht)
    rw [hskip]
    exact hcap
  | beacon d => exact ⟨htable,hcap.beacon hsafe⟩

/-- In every run of events that drift nothing, the counters and the beacon are right after each
event. -/
theorem bss_capabilities_right (es : List BssEvent) (hsafe : Run.Safe bssStep BssSafe .init es) :
    ∀ past, past <+: es → BssRight (Run.run bssStep .init past) := by
  intro past hpast
  obtain ⟨-,hcap⟩ := hsafe.induction BssInv bssStep_inv bssInv_init past hpast
  exact ⟨hcap.counts.count,hcap.counts.nonneg,hcap.erp,
    fun hht m hm => (hcap.ie hht m hm).trans (hcap.mode hht)⟩

instance (c : FlagCount StaFlag ℕ) (k : StaFlag) (i : ℕ) (v : Bool) : Decidable (Crosses c k i v) := by
  delta Crosses
  infer_instance

instance (b : BssCap) (i : ℕ) (u v : Bool) : Decidable (Together b i u v) := by
  delta Together
  infer_instance

instance (b : BssCap) : ∀ e, Decidable (EffectSafe b e)
  | .join i caps => inferInstanceAs (Decidable (b.Together i (!caps.shortPreamble) caps.nonErp))
  | .leave i => inferInstanceAs (Decidable (b.sta.flag .ht40mhzIntolerant i = false ∧ b.Together i false false))
  | .fresh _ | .qos .. | .free .. | .poll .. | .aging _ => isTrue trivial

instance (b : BssCap) (d : BeaconData) : Decidable (BeaconSafe b d) := by
  delta BeaconSafe
  infer_instance

instance (s : Bss) : ∀ e, Decidable (AuthSafe s e)
  | .auth f => inferInstanceAs (Decidable (f.badAlg = false → f.allowed → ∀ i ∈ s.table.getStainfo f.sa,
      ∀ k, s.cap.sta.flag k i = false))
  | .own _ | .assocReq _ | .deauth _ | .delSta .. | .flush | .expire _ | .maxNumSta _ => isTrue trivial

instance (s : Bss) : ∀ e, Decidable (BssSafe s e)
  | .sta e => inferInstanceAs (Decidable (AuthSafe s e ∧ Run.Safe effect EffectSafe s.cap (staStep s.table e).2))
  | .coex f => inferInstanceAs (Decidable ((∃ w, f.coexistence = some (true,w)) →
      ∀ i ∈ s.table.getStainfo f.ta, i ∈ s.table.asocList))
  | .survey wifiSpec bwmodeUpdated ht => inferInstanceAs (Decidable (¬ (wifiSpec && !bwmodeUpdated && !ht)))
  | .beacon d => inferInstanceAs (Decidable (BeaconSafe s.cap d))

/-- A beacon with both elements, and nothing around -/
def someBeacon : BeaconData :=
  ⟨false,true,some true,true,some ⟨false,false,false⟩,some ⟨opModePure,false,false⟩⟩

/-- A station without HT comes and goes. -/
def joinAndLeave : List BssEvent :=
  [.beacon someBeacon,.sta (.auth openAuth),.sta (.assocReq (someAssocReq none)),
    .coex ⟨apAddr,some (false,true),false⟩,.sta (.deauth apAddr)]

theorem bss_capabilities_right_join_and_leave : BssRight (Run.run bssStep .init joinAndLeave) :=
  bss_capabilities_right joinAndLeave (by decide +kernel) joinAndLeave (List.prefix_refl _)

/-- A station reports that it tolerates no 40 MHz channels, and leaves: it is counted for ever. -/
theorem intolerant_station_stays_counted :
    ¬ BssRight (Run.run bssStep .init [.beacon someBeacon,.sta (.auth openAuth),
      .sta (.assocReq (someAssocReq none)),.coex ⟨apAddr,some (true,false),false⟩,.sta (.deauth apAddr)]) := by
  intro h
  exact absurd (h.count .ht40mhzIntolerant) (by decide +kernel)

end BssCap
end Rtl8188fu
