import Rtl8188fu.Library.Trace
import Rtl8188fu.OsDep.Jiffies

/-! # The session tracker

`session_tracker_cmd_hdl` keeps the TCP sessions of a station that may be Miracast, and
`session_tracker_chk_for_sta` derives the mode of the station from them. The command thread runs the
handlers one after the other.
-/
namespace Rtl8188fu

def ST_EXPIRE_MS : ℤ := 10 * 1000
def MIRACAST_DISABLED : UInt8 := 0
def MIRACAST_SOURCE : UInt8 := 1
def MIRACAST_SINK : UInt8 := 2

inductive StStatus
  | NONE
  | CHECK
  | ESTABLISH
  | EXPIRE
deriving DecidableEq

/-- What `session_tracker_cmd_hdl` looks an entry up by, in network byte order -/
structure SessionAddr where
  localNaddr : UInt32
  localPort : UInt16
  remoteNaddr : UInt32
  remotePort : UInt16
deriving DecidableEq

/-- `struct session_tracker`; the allocations are told apart by `id`. -/
structure SessionTracker where
  id : ℕ
  addr : SessionAddr
  setTime : ℕ
  status : StStatus
deriving DecidableEq

/-- The ports of `wfd_info` -/
structure WfdPorts where
  rtspCtrlport : UInt16
  tdlsRtspCtrlport : UInt16
  peerRtspCtrlport : UInt16

/-- What the tracker uses of `sta_info`, with the one place of `reg`; `allocated` objects were made so far, and
`freed` is the log of `rtw_mfree`. -/
structure TrackedSta where
  linked : Bool
  sProto : UInt8
  trackerQ : List SessionTracker
  opWfdMode : UInt8
  allocated : ℕ
  freed : List ℕ
  -- `rtw_sta_media_status_rpt_cmd`
  reports : ℕ
deriving DecidableEq

def TrackedSta.init : TrackedSta := ⟨false,0,[],MIRACAST_DISABLED,0,[],0⟩

def ntohs (x : UInt16) : UInt16 := x <<< 8 ||| x >>> 8

/-- The branch that puts an entry on `dlist` -/
def SessionTracker.due (hz jiffies : ℕ) (st : SessionTracker) : Prop :=
  st.status ≠ .ESTABLISH ∧ ST_EXPIRE_MS < rtwGetPassingTimeMs hz jiffies st.setTime

instance (hz jiffies : ℕ) (st : SessionTracker) : Decidable (st.due hz jiffies) :=
  inferInstanceAs (Decidable (_ ∧ _))

/-- What an established session is for the mode -/
def SessionTracker.flags (wfd : WfdPorts) (st : SessionTracker) : UInt8 :=
  (if ntohs st.addr.localPort = wfd.rtspCtrlport then MIRACAST_SINK else 0) |||
    (if ntohs st.addr.localPort = wfd.tdlsRtspCtrlport then MIRACAST_SINK else 0) |||
    (if ntohs st.addr.remotePort = wfd.peerRtspCtrlport then MIRACAST_SOURCE else 0)

def SessionTracker.promote (st : SessionTracker) : SessionTracker :=
  if st.status = .CHECK then { st with status := .ESTABLISH } else st

/-- What the loop of `session_tracker_chk_for_sta` has made so far -/
structure ChkPass where
  trackerQ : List SessionTracker
  dlist : List SessionTracker
  opWfdMode : UInt8

/-- One turn of the loop: an entry that went to `dlist` is promoted as the others are. -/
def ChkPass.turn (hz jiffies : ℕ) (wfd : WfdPorts) (c : ChkPass) (st : SessionTracker) : ChkPass :=
  let p := st.promote
  let mode := if p.status = .ESTABLISH then c.opWfdMode ||| p.flags wfd else c.opWfdMode
  if st.due hz jiffies then { c with dlist := c.dlist ++ [p], opWfdMode := mode }
  else { c with trackerQ := c.trackerQ ++ [p], opWfdMode := mode }

def sessionTrackerChkForSta (hz jiffies : ℕ) (wfd : WfdPorts) (s : TrackedSta) : TrackedSta :=
  if s.linked then
    let c := if s.sProto = 0 then ⟨s.trackerQ,[],MIRACAST_DISABLED⟩
      else s.trackerQ.foldl (ChkPass.turn hz jiffies wfd) ⟨[],[],MIRACAST_DISABLED⟩
    { s with
      trackerQ := c.trackerQ
      freed := s.freed ++ c.dlist.map SessionTracker.id
      opWfdMode := c.opWfdMode
      reports := if s.opWfdMode ≠ c.opWfdMode then s.reports + 1 else s.reports }
  else s

inductive TrackerEvent
  /-- the clock, and whether `rtw_zmalloc` gives an object -/
  | add (addr : SessionAddr) (jiffies : ℕ) (room : Bool)
  | del (addr : SessionAddr)
  | chk (wfd : WfdPorts) (jiffies : ℕ)
  | register (sProto : UInt8)
  | unregister
  | setLinked (linked : Bool)

/-- The two commands of `session_tracker_cmd_hdl` that are about one session -/
def trackerAdd (s : TrackedSta) (addr : SessionAddr) (jiffies : ℕ) (room : Bool) : TrackedSta :=
  if s.linked then
    match s.trackerQ.find? (fun st => st.addr = addr) with
    | some _ => s
    | none =>
      if room then
        { s with
          trackerQ := s.trackerQ ++ [⟨s.allocated,addr,jiffies % 2 ^ 32,.CHECK⟩]
          allocated := s.allocated + 1 }
      else s
  else s

def trackerDel (s : TrackedSta) (addr : SessionAddr) : TrackedSta :=
  if s.linked then
    match s.trackerQ.find? (fun st => st.addr = addr) with
    | some st =>
      { s with
        trackerQ := s.trackerQ.eraseP fun st => st.addr = addr
        freed := s.freed ++ [st.id] }
    | none => s
  else s

/-- `rtw_st_ctl_unregister` of the one place, with `rtw_st_ctl_clear_tracker_q` -/
def rtwStCtlUnregister (s : TrackedSta) : TrackedSta :=
  { s with sProto := 0, trackerQ := [], freed := s.freed ++ s.trackerQ.map SessionTracker.id }

def trackerStep (hz : ℕ) (s : TrackedSta) : TrackerEvent → TrackedSta
  | .add addr jiffies room => trackerAdd s addr jiffies room
  | .del addr => trackerDel s addr
  | .chk wfd jiffies => sessionTrackerChkForSta hz jiffies wfd s
  | .register sProto => { s with sProto := sProto }
  | .unregister => rtwStCtlUnregister s
  | .setLinked linked => { s with linked := linked }

def trackerRun (hz : ℕ) (es : List TrackerEvent) : TrackedSta := Run.run (trackerStep hz) .init es

/-- The union of the flags of some sessions -/
def modeOf (wfd : WfdPorts) (l : List SessionTracker) : UInt8 :=
  (l.map (SessionTracker.flags wfd)).foldr (· ||| ·) MIRACAST_DISABLED

/-- No two entries for one session, every object is freed once or waits in the queue, and a check of a linked
station with a registered protocol leaves the mode of the established sessions in the queue. -/
structure TrackerRight (hz : ℕ) (past : List TrackerEvent) : Prop where
  distinct : ((trackerRun hz past).trackerQ.map SessionTracker.addr).Nodup
  freedOnce : ((trackerRun hz past).freed ++ (trackerRun hz past).trackerQ.map SessionTracker.id).Perm
    (List.range (trackerRun hz past).allocated)
  mode : ∀ before wfd jiffies, past = before ++ [.chk wfd jiffies] → (trackerRun hz before).linked = true →
    (trackerRun hz before).sProto ≠ 0 → (trackerRun hz past).opWfdMode =
      modeOf wfd ((trackerRun hz past).trackerQ.filter fun st => st.status = .ESTABLISH)

/-- No session that a check throws away has a flag that the sessions left have not. -/
def TrackerEventOk (hz : ℕ) (s : TrackedSta) : TrackerEvent → Prop
  | .chk wfd jiffies => s.linked = true → s.sProto ≠ 0 →
    modeOf wfd (s.trackerQ.filter fun st => st.due hz jiffies) |||
      modeOf wfd (s.trackerQ.filter fun st => ¬st.due hz jiffies) =
        modeOf wfd (s.trackerQ.filter fun st => ¬st.due hz jiffies)
  | _ => True

/-- Besides, every entry waits for its check or is established. -/
structure TrackerInv (s : TrackedSta) : Prop where
  distinct : (s.trackerQ.map SessionTracker.addr).Nodup
  freedOnce : (s.freed ++ s.trackerQ.map SessionTracker.id).Perm (List.range s.allocated)
  status : ∀ st ∈ s.trackerQ, st.status = .CHECK ∨ st.status = .ESTABLISH

section
variable {hz jiffies : ℕ} {wfd : WfdPorts} {s : TrackedSta} {l m : List SessionTracker}

@[simp] theorem modeOf_nil (wfd : WfdPorts) : modeOf wfd [] = 0 := rfl

@[simp] theorem modeOf_cons (st : SessionTracker) : modeOf wfd (st :: l) = st.flags wfd ||| modeOf wfd l := rfl

@[simp] theorem promote_id (st : SessionTracker) : st.promote.id = st.id := by
  unfold SessionTracker.promote
  split <;> rfl

@[simp] theorem promote_addr (st : SessionTracker) : st.promote.addr = st.addr := by
  unfold SessionTracker.promote
  split <;> rfl

@[simp] theorem promote_flags (st : SessionTracker) : st.promote.flags wfd = st.flags wfd := by
  unfold SessionTracker.flags
  rw [promote_addr]

theorem promote_status {st : SessionTracker} (h : st.status = .CHECK ∨ st.status = .ESTABLISH) :
    st.promote.status = .ESTABLISH := by
  unfold SessionTracker.promote
  split
  · rfl
  · rename_i hne
    exact h.resolve_left hne

theorem modeOf_map_promote (l : List SessionTracker) : modeOf wfd (l.map SessionTracker.promote) = modeOf wfd l := by
  induction l with
  | nil => rfl
  | cons st l ih => rw [List.map_cons, modeOf_cons, modeOf_cons, ih, promote_flags]

theorem modeOf_filter (p : SessionTracker → Prop) [DecidablePred p] (l : List SessionTracker) :
    modeOf wfd l = modeOf wfd (l.filter fun st => p st) ||| modeOf wfd (l.filter fun st => ¬p st) := by
  induction l with
  | nil => simp
  | cons st l ih =>
    by_cases h : p st
    · simp [h, ih, UInt8.or_assoc]
    · simp only [h, ih, List.filter_cons, decide_false, decide_not, Bool.not_false, if_true, modeOf_cons,
        Bool.false_eq_true, if_false]
      rw [← UInt8.or_assoc, UInt8.or_comm (st.flags wfd), UInt8.or_assoc]

/-- The loop splits the queue, promotes both parts and adds the flags of both. -/
theorem turn_foldl (c : ChkPass) (h : ∀ st ∈ l, st.status = .CHECK ∨ st.status = .ESTABLISH) :
    l.foldl (ChkPass.turn hz jiffies wfd) c =
      ⟨c.trackerQ ++ (l.filter fun st => ¬st.due hz jiffies).map SessionTracker.promote,
        c.dlist ++ (l.filter fun st => st.due hz jiffies).map SessionTracker.promote,c.opWfdMode ||| modeOf
        wfd l⟩ := by
  induction l generalizing c with
  | nil => simp
  | cons st l ih =>
    have hst := promote_status (h st List.mem_cons_self)
    rw [List.foldl_cons, ih _ fun x hx => h x (List.mem_cons_of_mem st hx), ChkPass.turn]
    by_cases hdue : st.due hz jiffies
    · simp [hdue, hst, UInt8.or_assoc]
    · simp [hdue, hst, UInt8.or_assoc]

/-- What a check of a linked station with a registered protocol leaves -/
theorem chk_eq (h : ∀ st ∈ s.trackerQ, st.status = .CHECK ∨ st.status = .ESTABLISH) (hlinked : s.linked = true)
    (hreg : s.sProto ≠ 0) :
    (sessionTrackerChkForSta hz jiffies wfd s).trackerQ =
        (s.trackerQ.filter fun st => ¬st.due hz jiffies).map SessionTracker.promote ∧
      (sessionTrackerChkForSta hz jiffies wfd s).freed =
        s.freed ++ (s.trackerQ.filter fun st => st.due hz jiffies).map SessionTracker.id ∧
      (sessionTrackerChkForSta hz jiffies wfd s).allocated = s.allocated ∧
      (sessionTrackerChkForSta hz jiffies wfd s).opWfdMode = modeOf wfd s.trackerQ := by
  unfold sessionTrackerChkForSta
  rw [if_pos hlinked, if_neg hreg, turn_foldl _ h]
  refine ⟨List.nil_append _,?_,rfl,UInt8.zero_or⟩
  dsimp only
  rw [List.nil_append, List.map_map]
  exact congrArg (s.freed ++ ·) (List.map_congr_left fun st _ => promote_id st)

theorem map_promote_addr (l : List SessionTracker) :
    (l.map SessionTracker.promote).map SessionTracker.addr = l.map SessionTracker.addr := by
  rw [List.map_map]
  exact List.map_congr_left fun st _ => promote_addr st

theorem map_promote_id (l : List SessionTracker) :
    (l.map SessionTracker.promote).map SessionTracker.id = l.map SessionTracker.id := by
  rw [List.map_map]
  exact List.map_congr_left fun st _ => promote_id st

theorem filter_established (h : ∀ st ∈ l, st.status = .CHECK ∨ st.status = .ESTABLISH) :
    (l.map SessionTracker.promote).filter (fun st => st.status = .ESTABLISH) = l.map SessionTracker.promote := by
  rw [List.filter_eq_self]
  intro st hst
  obtain ⟨x,hx,rfl⟩ := List.mem_map.mp hst
  exact decide_eq_true (promote_status (h x hx))

/-- The mode after a check is the one that is asked for exactly when what is thrown away adds nothing. -/
theorem chk_mode_iff (h : TrackerInv s) (hlinked : s.linked = true) (hreg : s.sProto ≠ 0) :
    ((sessionTrackerChkForSta hz jiffies wfd s).opWfdMode =
        modeOf wfd ((sessionTrackerChkForSta hz jiffies wfd s).trackerQ.filter fun st => st.status = .ESTABLISH)) ↔
      modeOf wfd (s.trackerQ.filter fun st => st.due hz jiffies) |||
        modeOf wfd (s.trackerQ.filter fun st => ¬st.due hz jiffies) =
          modeOf wfd (s.trackerQ.filter fun st => ¬st.due hz jiffies) := by
  obtain ⟨hq,-,-,hmode⟩ := @chk_eq hz jiffies wfd s h.status hlinked hreg
  rw [hmode, hq, filter_established fun st hst => h.status st (List.mem_of_mem_filter hst), modeOf_map_promote,
    ← modeOf_filter]

namespace TrackerInv

theorem init : TrackerInv .init := ⟨List.nodup_nil,List.Perm.refl _,fun _ h => absurd h List.not_mem_nil⟩

theorem chk (h : TrackerInv s) : TrackerInv (sessionTrackerChkForSta hz jiffies wfd s) := by
  by_cases hlinked : s.linked = true
  · by_cases hreg : s.sProto = 0
    · unfold sessionTrackerChkForSta
      rw [if_pos hlinked, if_pos hreg]
      exact ⟨h.distinct,by simpa using h.freedOnce,h.status⟩
    · obtain ⟨hq,hfreed,hall,-⟩ := @chk_eq hz jiffies wfd s h.status hlinked hreg
      refine ⟨?_,?_,?_⟩
      · rw [hq, map_promote_addr]
        exact h.distinct.sublist (List.filter_sublist.map _)
      · rw [hq, hfreed, hall, map_promote_id, List.append_assoc, ← List.map_append]
        refine (List.Perm.append_left _ (List.Perm.map _ ?_)).trans h.freedOnce
        have hsplit := List.filter_append_perm (fun st : SessionTracker => decide (st.due hz jiffies)) s.trackerQ
        simpa using hsplit
      · rw [hq]
        intro st hst
        obtain ⟨x,hx,rfl⟩ := List.mem_map.mp hst
        exact Or.inr (promote_status (h.status x (List.mem_of_mem_filter hx)))
  · unfold sessionTrackerChkForSta
    rw [if_neg hlinked]
    exact h

theorem add (h : TrackerInv s) (addr : SessionAddr) (room : Bool) : TrackerInv (trackerAdd s addr jiffies room) := by
  unfold trackerAdd
  split
  · split
    · exact h
    · rename_i hnone
      have hnew : addr ∉ s.trackerQ.map SessionTracker.addr := by
        intro hmem
        obtain ⟨st,hst,haddr⟩ := List.mem_map.mp hmem
        exact absurd haddr (by simpa using List.find?_eq_none.mp hnone st hst)
      split
      · refine ⟨?_,?_,?_⟩
        · rw [List.map_append]
          refine List.nodup_append.mpr ⟨h.distinct,List.nodup_singleton _,?_⟩
          rintro a ha b hb rfl
          rw [List.mem_singleton.mp hb] at ha
          exact hnew ha
        · rw [List.map_append, ← List.append_assoc, List.range_succ]
          exact h.freedOnce.append_right _
        · intro st hst
          rcases List.mem_append.mp hst with hst | hst
          · exact h.status st hst
          · rw [List.mem_singleton.mp hst]
            exact Or.inl rfl
      · exact h
  · exact h

theorem del (h : TrackerInv s) (addr : SessionAddr) : TrackerInv (trackerDel s addr) := by
  unfold trackerDel
  split
  · split
    · rename_i st hfind
      obtain ⟨haddr,as,bs,hsplit,hbefore⟩ := List.find?_eq_some_iff_append.mp hfind
      have herase : (s.trackerQ.eraseP fun st => st.addr = addr) = as ++ bs := by
        rw [hsplit, List.eraseP_append_right _ fun x hx => by simpa using hbefore x hx]
        exact congrArg (as ++ ·) (List.eraseP_cons_of_pos haddr)
      have hsub : (as ++ bs).Sublist s.trackerQ := by
        rw [hsplit]
        exact List.Sublist.append_left (List.sublist_cons_self st bs) as
      refine ⟨?_,?_,?_⟩
      · dsimp only
        rw [herase]
        exact h.distinct.sublist (hsub.map _)
      · dsimp only
        rw [herase, List.append_assoc]
        refine (List.Perm.append_left _ ?_).trans h.freedOnce
        rw [hsplit, List.map_append, List.map_append, List.map_cons]
        exact List.Perm.symm List.perm_middle
      · dsimp only
        rw [herase]
        exact fun x hx => h.status x (hsub.subset hx)
    · exact h
  · exact h

theorem unregister (h : TrackerInv s) : TrackerInv (rtwStCtlUnregister s) where
  distinct := List.nodup_nil
  freedOnce := by
    unfold rtwStCtlUnregister
    simpa using h.freedOnce
  status st hst := absurd hst List.not_mem_nil

theorem step (h : TrackerInv s) (e : TrackerEvent) : TrackerInv (trackerStep hz s e) := by
  cases e with
  | add addr jiffies room => exact h.add addr room
  | del addr => exact h.del addr
  | chk wfd jiffies => exact h.chk
  | register sProto => exact ⟨h.distinct,h.freedOnce,h.status⟩
  | unregister => exact h.unregister
  | setLinked linked => exact ⟨h.distinct,h.freedOnce,h.status⟩

end TrackerInv

theorem trackerInv_run (hz : ℕ) (es : List TrackerEvent) : TrackerInv (trackerRun hz es) :=
  Run.run_induction (fun _ => True) (fun _ s => TrackerInv s) .init (fun _ _ e _ h => h.step e) es fun _ _ => trivial

end

/-- The mode is right after every check exactly when no check throws away the last session with a flag. The
rest holds in every run. -/
theorem session_tracker_right_iff (hz : ℕ) (es : List TrackerEvent) :
    (∀ past, past <+: es → TrackerRight hz past) ↔
      ∀ past e, past ++ [e] <+: es → TrackerEventOk hz (trackerRun hz past) e := by
  constructor
  · intro h past e hpre
    cases e with
    | chk wfd jiffies =>
      intro hlinked hreg
      have hmode := (h _ hpre).mode past wfd jiffies rfl hlinked hreg
      rw [trackerRun, Run.run_append] at hmode
      exact (chk_mode_iff (trackerInv_run hz past) hlinked hreg).mp hmode
    | add addr jiffies room => trivial
    | del addr => trivial
    | register sProto => trivial
    | unregister => trivial
    | setLinked linked => trivial
  · intro h past hpre
    have hinv := trackerInv_run hz past
    refine ⟨hinv.distinct,hinv.freedOnce,?_⟩
    rintro before wfd jiffies rfl hlinked hreg
    rw [trackerRun, Run.run_append]
    exact (chk_mode_iff (trackerInv_run hz before) hlinked hreg).mpr (h before _ hpre hlinked hreg)

/-- An RTSP session to port 7236 of the station -/
def sessionAdded : List TrackerEvent :=
  [.setLinked true,.register 6,.add ⟨0x0101a8c0,0x441c,0x0201a8c0,0x3412⟩ 0 true]

/-- Checked for the first time after 10001 ms, the session is freed, and makes the station a sink. -/
theorem expired_session_sets_mode :
    ¬∀ (hz : ℕ) (es : List TrackerEvent), ∀ past, past <+: es → TrackerRight hz past := by
  intro h
  have hright := h 1000 (sessionAdded ++ [.chk ⟨7236,0,1⟩ 10001]) _ List.prefix_rfl
  exact absurd (hright.mode sessionAdded ⟨7236,0,1⟩ 10001 rfl (by decide) (by decide)) (by decide)

end Rtl8188fu
