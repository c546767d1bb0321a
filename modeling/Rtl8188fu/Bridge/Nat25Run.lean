import Rtl8188fu.Bridge.Nat25Inv

/-! # Runs of NAT2.5 bridging

A frame goes back to its last sender as long as no client sends past the short cut.
-/
namespace Rtl8188fu
open Bytes Chains

/-! ## What was sent -/

/-- The address that an IPv4 or ARP frame comes from -/
def senderOf (u : List UInt8) : Option (List UInt8) :=
  if ethProto u = ETH_P_IP then if malformedIp u then none else some (ipSaddr u)
  else if arpPro u = ETH_P_IP then some (arpSender u)
  else none

/-- The clock, and the last sender of every address with its time -/
structure BrHistory where
  now : ℕ
  last : List UInt8 → Option (MacAddr × ℕ)

def BrHistory.step (h : BrHistory) : BrEvent → BrHistory
  | .tx f =>
    match senderOf (untag f.data) with
    | some a => { h with last := Function.update h.last a (some (srcMac (untag f.data),h.now)) }
    | none => h
  | .wait n => { h with now := h.now + n }
  | _ => h

def brHistory (es : List BrEvent) : BrHistory := Run.run BrHistory.step ⟨0,fun _ => none⟩ es

/-- The address was sent from within the ageing time. -/
def Fresh (c : BrEnv) (h : BrHistory) (a : List UInt8) (mac : MacAddr) (t : ℕ) : Prop :=
  h.last a = some (mac,t) ∧ h.now - t < NAT25_AGEING_TIME * c.HZ

/-- The database is well formed, and received frames go to their last sender, which the short
cut and the lookup agree about. -/
structure BridgeRight (c : BrEnv) (other : List UInt8 → List UInt8) (es : List BrEvent) : Prop where
  oneEntry : ∀ past, past <+: es → Ok networkHash (brRun c other past).key (brRun c other past).nethash
  shortCut : ∀ past, past <+: es → ∀ p, (brRun c other past).scdb.entry = some p →
    Live (brRun c other past).nethash p
  returned : ∀ past d mac t, past ++ [.rx d] <+: es → isMcast d = false → ethProto (untag d) = ETH_P_IP →
    malformedIp (untag d) = false → Fresh c (brHistory past) (ipDaddr (untag d)) mac t →
    slice (nat25HandleFrame c other (brRun c other past) d).2 0 ETH_ALEN = mac
  sameResult : ∀ past d mac t, past ++ [.rx d] <+: es → isMcast d = false → ethProto (untag d) = ETH_P_IP →
    malformedIp (untag d) = false → Fresh c (brHistory past) (ipDaddr (untag d)) mac t →
    (brRun c other past).scdb.ip = ipDaddr (untag d) →
    (dbLookup c other (brRun c other past) (untag d)).2 = patch (untag d) 0 (brRun c other past).scdb.mac

/-! ## The last sender -/

section
variable {c : BrEnv} {s s' : BrExt} {p q : ℕ} {f : Nat25Entry → Nat25Entry} {k addr : List UInt8} {mac : MacAddr}

theorem generateIpv4NetworkAddr_inj {a b : List UInt8} (h : generateIpv4NetworkAddr a = generateIpv4NetworkAddr b) :
    a = b := by
  rw [generateIpv4NetworkAddr, generateIpv4NetworkAddr] at h
  exact List.append_cancel_left (List.append_cancel_right h)

/-- The database and the short cut know the last sender of every address that was heard within
the ageing time. -/
structure Agrees (c : BrEnv) (s : BrExt) (h : BrHistory) : Prop where
  now : h.now = s.jiffies
  cacheKey : ∀ p, s.scdb.entry = some p → s.key p = generateIpv4NetworkAddr s.scdb.ip
  cacheMac : ∀ p, s.scdb.entry = some p → s.scdb.ip ≠ zeroIp → (s.heap p).macAddr = s.scdb.mac
  fresh : ∀ a mac t, a ≠ zeroIp → Fresh c h a mac t → (s.scdb.ip = a → s.scdb.mac = mac) ∧
    ∃ p, s.find (generateIpv4NetworkAddr a) = some p ∧ (s.heap p).macAddr = mac ∧ t ≤ (s.heap p).ageingTimer
  length : ∀ a mac t, h.last a = some (mac,t) → mac.length = ETH_ALEN

variable {h : BrHistory}

/-- Entries may be dropped that are old, or when nobody was heard lately. -/
theorem Agrees.loses (ha : Agrees c s h) (hinv : BrInv s) (hl : Loses s s')
    (hyoung : KeepsYoung c s s' ∨ ∀ a mac t, ¬ Fresh c h a mac t) : Agrees c s' h where
  now := ha.now.trans hl.jiffies.symm
  cacheKey p hp := by
    rcases hl.scdb with hs | hs
    · rw [hs] at hp ⊢
      rw [hl.key]
      exact ha.cacheKey p hp
    · rw [hs] at hp
      cases hp
  cacheMac p hp hip := by
    rcases hl.scdb with hs | hs
    · rw [hs] at hp hip ⊢
      rw [hl.mac]
      exact ha.cacheMac p hp hip
    · rw [hs] at hp
      cases hp
  fresh a mac t hz hf := by
    obtain ⟨hcache,p,hfind,hmac,ht⟩ := ha.fresh a mac t hz hf
    obtain ⟨hp,hk⟩ := hinv.find_eq_some.mp hfind
    refine ⟨?_,p,?_,(hl.mac p).trans hmac,ht.trans (hl.timer p hp)⟩
    · rcases hl.scdb with hs | hs
      · rw [hs]
        exact hcache
      · rw [hs]
        exact fun hzero => absurd hzero.symm hz
    · rcases hyoung with hyoung | hnone
      · apply hl.inv.find_eq_some.mpr
        refine ⟨hyoung p hp ?_,?_⟩
        · have hnow := ha.now
          have hage := hf.2
          omega
        · rw [hl.key]
          exact hk
      · exact absurd hf (hnone a mac t)
  length := ha.length

/-- The short cut may be set to an entry with its MAC address, or be cut. -/
theorem Agrees.withScdb (ha : Agrees c s h) (sc : Scdb)
    (hkey : ∀ p, sc.entry = some p → s.key p = generateIpv4NetworkAddr sc.ip)
    (hmac : ∀ p, sc.entry = some p → sc.ip ≠ zeroIp → (s.heap p).macAddr = sc.mac)
    (hip : ∀ mac t, sc.ip ≠ zeroIp → Fresh c h sc.ip mac t → sc.mac = mac) :
    Agrees c { s with scdb := sc } h where
  now := ha.now
  cacheKey := hkey
  cacheMac := hmac
  fresh a mac t hz hf := by
    refine ⟨?_,(ha.fresh a mac t hz hf).2⟩
    rintro rfl
    exact hip mac t hz hf
  length := ha.length

theorem last_length {a : List UInt8} (hlen : mac.length = ETH_ALEN)
    (hlast : ∀ b mac' t, h.last b = some (mac',t) → mac'.length = ETH_ALEN) :
    ∀ b mac' t, Function.update h.last a (some (mac,h.now)) b = some (mac',t) → mac'.length = ETH_ALEN := by
  intro b mac' t hb
  by_cases hba : b = a
  · rw [hba, Function.update_self] at hb
    cases hb
    exact hlen
  · rw [Function.update_of_ne hba] at hb
    exact hlast b mac' t hb

theorem Agrees.sent (ha : Agrees c s h) {a : List UInt8} (hlen : mac.length = ETH_ALEN)
    (hknown : a ≠ zeroIp → (s.scdb.ip = a → s.scdb.mac = mac) ∧
      ∃ p, s.find (generateIpv4NetworkAddr a) = some p ∧ (s.heap p).macAddr = mac ∧
      s.jiffies ≤ (s.heap p).ageingTimer) :
    Agrees c s { h with last := Function.update h.last a (some (mac,h.now)) } where
  now := ha.now
  cacheKey := ha.cacheKey
  cacheMac := ha.cacheMac
  fresh b mac' t hz hf := by
    obtain ⟨hlast,hage⟩ := hf
    by_cases hb : b = a
    · subst hb
      change Function.update h.last b (some (mac,h.now)) b = some (mac',t) at hlast
      rw [Function.update_self] at hlast
      cases hlast
      rw [ha.now]
      exact hknown hz
    · change Function.update h.last a (some (mac,h.now)) b = some (mac',t) at hlast
      rw [Function.update_of_ne hb] at hlast
      exact ha.fresh b mac' t hz ⟨hlast,hage⟩
  length := last_length hlen ha.length

/-- The database learns a sender whose address is not in the short cut of another client. -/
theorem Agrees.insert (ha : Agrees c s h) (hinv : BrInv s) {a : List UInt8} (hlen : mac.length = ETH_ALEN)
    (hcache : a ≠ zeroIp → s.scdb.ip = a → s.scdb.mac = mac) :
    Agrees c (s.dbNetworkInsert mac (generateIpv4NetworkAddr a))
      { h with last := Function.update h.last a (some (mac,h.now)) } := by
  obtain ⟨s',hs',hinv',hscdb,hjiffies,hold,⟨p,hp,hmac,htimer⟩,hother⟩ :=
    dbNetworkInsert_spec hinv mac (generateIpv4NetworkAddr a)
  rw [hs']
  have hheap : ∀ q b, b ≠ a → s.key q = generateIpv4NetworkAddr b → Live s.nethash q →
      s'.heap q = s.heap q := by
    intro q b hb hq hlive
    apply hother q hlive
    rw [hq]
    exact fun hk => hb (generateIpv4NetworkAddr_inj hk)
  refine ⟨ha.now.trans hjiffies.symm,?_,?_,?_,?_⟩
  · intro q hq
    rw [hscdb] at hq ⊢
    rw [(hold q (hinv.live q hq)).2]
    exact ha.cacheKey q hq
  · intro q hq hip
    rw [hscdb] at hq hip ⊢
    have hkey := ha.cacheKey q hq
    by_cases hb : s.scdb.ip = a
    · have hqp : q = p := by
        have hk := (hold q (hinv.live q hq))
        have hfind := hinv'.find_eq_some.mpr ⟨hk.1,hk.2.trans hkey⟩
        rw [hb, hp] at hfind
        exact (Option.some.inj hfind).symm
      rw [hqp, hmac]
      exact (hcache (hb ▸ hip) hb).symm
    · rw [hheap q _ hb hkey (hinv.live q hq)]
      exact ha.cacheMac q hq hip
  · intro b mac' t hz hf
    obtain ⟨hlast,hage⟩ := hf
    rw [hscdb]
    by_cases hb : b = a
    · subst hb
      change Function.update h.last b (some (mac,h.now)) b = some (mac',t) at hlast
      rw [Function.update_self] at hlast
      cases hlast
      refine ⟨hcache hz,p,hp,hmac,?_⟩
      rw [htimer, ha.now]
    · change Function.update h.last a (some (mac,h.now)) b = some (mac',t) at hlast
      rw [Function.update_of_ne hb] at hlast
      obtain ⟨hc,q,hfind,hm,ht⟩ := ha.fresh b mac' t hz ⟨hlast,hage⟩
      obtain ⟨hq,hk⟩ := hinv.find_eq_some.mp hfind
      have hsame := hheap q b hb hk hq
      refine ⟨hc,q,?_,?_,?_⟩
      · exact hinv'.find_eq_some.mpr ⟨(hold q hq).1,(hold q hq).2.trans hk⟩
      · rw [hsame]
        exact hm
      · rw [hsame]
        exact ht
  · exact last_length hlen ha.length

/-- The condition on an IPv4 frame in the state that it meets. A client in the short cut sends
from the address in it; another one sends from no address whose entry is of another client, and
from none in the short cut unless it has the entry. -/
structure IpOk (s : BrExt) (u : List UInt8) : Prop where
  same : s.scdb.mac = srcMac u → s.scdb.entry.isSome → malformedIp u = false → s.scdb.ip = ipSaddr u
  known : s.scdb.mac ≠ srcMac u → ∀ p, s.find (generateIpv4NetworkAddr (ipSaddr u)) = some p →
    (s.heap p).macAddr = srcMac u
  unknown : s.scdb.mac ≠ srcMac u → s.find (generateIpv4NetworkAddr (ipSaddr u)) = none →
    malformedIp u = false →
    s.scdb.ip ≠ ipSaddr u

/-- The condition on an event: it is as above for frames from an address that is not zero, an ARP
frame has hardware addresses of at least six bytes and does not come from the address in the short
cut of another client, no frame is received for the zero address, and the database is not cleaned
up while somebody was heard within the ageing time. -/
def BrEventOk (c : BrEnv) (s : BrExt) (h : BrHistory) : BrEvent → Prop
  | .tx f =>
    (ethProto (untag f.data) = ETH_P_IP → ipSaddr (untag f.data) ≠ zeroIp → IpOk s (untag f.data)) ∧
      (ethProto (untag f.data) = ETH_P_ARP → arpPro (untag f.data) = ETH_P_IP →
        ETH_ALEN ≤ arpHln (untag f.data) ∧
        (arpSender (untag f.data) ≠ zeroIp → s.scdb.ip = arpSender (untag f.data) →
          s.scdb.mac = srcMac (untag f.data)))
  | .rx d => ethProto (untag d) = ETH_P_IP → ipDaddr (untag d) ≠ zeroIp
  | .cleanup => ∀ a mac t, ¬ Fresh c h a mac t
  | _ => True

theorem srcMac_length {u : List UInt8} (h : ethProto u ≠ 0) : (srcMac u).length = ETH_ALEN := by
  have hlong : 12 < u.length := by
    by_contra hshort
    apply h
    rw [ethProto, be16At, byteAt, byteAt, List.getD_eq_default _ _ (by rw [ETH_ALEN]; omega),
      List.getD_eq_default _ _ (by rw [ETH_ALEN]; omega)]
    rfl
  rw [srcMac]
  apply length_slice_of_le
  rw [ETH_ALEN]
  omega

/-- The history after an IPv4 frame -/
def afterIp (h : BrHistory) (u : List UInt8) : BrHistory :=
  if malformedIp u then h else { h with last := Function.update h.last (ipSaddr u) (some (srcMac u,h.now)) }

theorem BrHistory.step_ip (f : ClientFrame) (hip : ethProto (untag f.data) = ETH_P_IP) :
    h.step (.tx f) = afterIp h (untag f.data) := by
  rw [BrHistory.step, senderOf, if_pos hip, afterIp]
  cases malformedIp (untag f.data) with
  | true => rfl
  | false => rfl

theorem ip_ne_zero {u : List UInt8} (hip : ethProto u = ETH_P_IP) : ethProto u ≠ 0 := by
  rw [hip]
  decide

theorem agrees_dbInsert_ip (ha : Agrees c s h) (hinv : BrInv s) {u : List UInt8} (hip : ethProto u = ETH_P_IP)
    (hcache : ipSaddr u ≠ zeroIp → malformedIp u = false → s.scdb.ip = ipSaddr u → s.scdb.mac = srcMac u) :
    Agrees c (dbInsert c s u) (afterIp h u) := by
  have hlen := srcMac_length (ip_ne_zero hip)
  rw [dbInsert, if_pos hip, afterIp]
  cases hbad : malformedIp u with
  | true => exact ha
  | false =>
    by_cases hz : ipSaddr u = zeroIp
    · rw [if_neg Bool.false_ne_true, if_pos hz, if_neg Bool.false_ne_true]
      exact ha.sent hlen fun h => absurd hz h
    · rw [if_neg Bool.false_ne_true, if_neg hz, if_neg Bool.false_ne_true]
      exact ha.insert hinv hlen fun hz => hcache hz hbad

/-- A frame whose address has an entry of its sender, or which is malformed -/
theorem agrees_afterIp (ha : Agrees c s h) {u : List UInt8} (hip : ethProto u = ETH_P_IP)
    (hknown : malformedIp u = false → ipSaddr u ≠ zeroIp → (s.scdb.ip = ipSaddr u → s.scdb.mac = srcMac u) ∧
      ∃ p, s.find (generateIpv4NetworkAddr (ipSaddr u)) = some p ∧ (s.heap p).macAddr = srcMac u ∧
        s.jiffies ≤ (s.heap p).ageingTimer) :
    Agrees c s (afterIp h u) := by
  rw [afterIp]
  cases hbad : malformedIp u with
  | true => exact ha
  | false => exact ha.sent (srcMac_length (ip_ne_zero hip)) (hknown hbad)

theorem touch_entry (s : BrExt) (p : ℕ) : ((s.touch p).heap p).macAddr = (s.heap p).macAddr ∧
    ((s.touch p).heap p).ageingTimer = s.jiffies := by
  rw [BrExt.touch, BrExt.write]
  dsimp only
  rw [Function.update_self]
  exact ⟨rfl,rfl⟩

theorem agrees_tx_ip (ha : Agrees c s h) (hinv : BrInv s) {u : List UInt8} (hip : ethProto u = ETH_P_IP)
    (hok : ipSaddr u ≠ zeroIp → IpOk s u) :
    Agrees c (if (scdbTx s u).2 then dbInsert c (scdbTx s u).1 u else (scdbTx s u).1) (afterIp h u) := by
  by_cases hmac : s.scdb.mac ≠ srcMac u
  · cases hfind : s.find (generateIpv4NetworkAddr (ipSaddr u)) with
    | some p =>
      obtain ⟨hlive,hkey⟩ := hinv.find_eq_some.mp hfind
      have hscdb : scdbTx s u = ({ s with scdb := ⟨srcMac u,ipSaddr u,some p⟩ }.touch p,false) := by
        rw [scdbTx, if_pos hip, if_pos hmac, hfind]
      have hentry : ipSaddr u ≠ zeroIp → (s.heap p).macAddr = srcMac u := fun hz => (hok hz).known hmac p hfind
      have hset : Agrees c { s with scdb := ⟨srcMac u,ipSaddr u,some p⟩ } h := by
        apply ha.withScdb
        · intro q hq
          cases hq
          exact hkey
        · intro q hq hz
          cases hq
          exact hentry hz
        · intro mac t hz hf
          obtain ⟨-,q,hq,hm,-⟩ := ha.fresh _ mac t hz hf
          change s.find (generateIpv4NetworkAddr (ipSaddr u)) = some q at hq
          rw [hfind] at hq
          cases hq
          exact (hentry hz).symm.trans hm
      have hsetinv : BrInv { s with scdb := ⟨srcMac u,ipSaddr u,some p⟩ } := hinv.withScdb _ fun q hq => by
        cases hq; exact hlive
      have htouch := touch_loses hsetinv p
      obtain ⟨hm,ht⟩ := touch_entry { s with scdb := ⟨srcMac u,ipSaddr u,some p⟩ } p
      rw [hscdb]
      apply agrees_afterIp (hset.loses hsetinv htouch (Or.inl fun q hq _ => hq)) hip
      intro _ hz
      refine ⟨fun _ => rfl,p,?_,hm.trans (hentry hz),ht.ge⟩
      apply htouch.inv.find_eq_some.mpr
      refine ⟨hlive,?_⟩
      rw [htouch.key]
      exact hkey
    | none =>
      have hscdb : scdbTx s u = ({ s with scdb := { s.scdb with entry := none } },true) := by
        rw [scdbTx, if_pos hip, if_pos hmac, hfind]
      rw [hscdb]
      apply agrees_dbInsert_ip ?_ (hinv.withScdb _ fun q hq => by cases hq) hip
      · intro hz hbad heq
        exact absurd heq ((hok hz).unknown hmac hfind hbad)
      · apply ha.withScdb
        · intro q hq
          cases hq
        · intro q hq
          cases hq
        · exact fun mac t hz hf => (ha.fresh _ mac t hz hf).1 rfl
  · rw [not_not] at hmac
    cases hentry : s.scdb.entry with
    | some p =>
      have hscdb : scdbTx s u = (s.touch p,false) := by
        rw [scdbTx, if_pos hip, if_neg (not_not_intro hmac), hentry]
      have hlive := hinv.live p hentry
      have htouch := touch_loses hinv p
      obtain ⟨hm,ht⟩ := touch_entry s p
      rw [hscdb]
      apply agrees_afterIp (ha.loses hinv htouch (Or.inl fun q hq _ => hq)) hip
      intro hbad hz
      have hsame : s.scdb.ip = ipSaddr u := (hok hz).same hmac (by rw [hentry]; rfl) hbad
      refine ⟨fun _ => hmac,p,?_,?_,ht.ge⟩
      · apply htouch.inv.find_eq_some.mpr
        refine ⟨hlive,?_⟩
        rw [htouch.key, ha.cacheKey p hentry, hsame]
      · rw [hm, ha.cacheMac p hentry (by rw [hsame]; exact hz)]
        exact hmac
    | none =>
      have hscdb : scdbTx s u = ({ s with scdb := .zero },true) := by
        rw [scdbTx, if_pos hip, if_neg (not_not_intro hmac), hentry]
      rw [hscdb]
      apply agrees_dbInsert_ip ?_ (hinv.withScdb _ fun q hq => by cases hq) hip
      · exact fun hz _ heq => absurd heq.symm hz
      · apply ha.withScdb
        · intro q hq
          cases hq
        · intro q hq
          cases hq
        · exact fun mac t hz _ => absurd rfl hz

/-- Behind a hardware address of six bytes or more the sender is what it was before the address
of the adapter was written. -/
theorem arpSender_patchSender {u : List UInt8} (h : ETH_ALEN ≤ arpHln u) :
    arpSender (patchSender c u) = arpSender u := by
  have hmac := c.myHwaddr_length
  have hhln : arpHln (patchSender c u) = arpHln u := by
    rw [arpHln, arpHln, patchSender, byteAt_patch, if_neg (by omega)]
  rw [arpSender, arpSender, hhln, patchSender, slice_patch_above (by omega)]

theorem agrees_tx_arp (ha : Agrees c s h) (hinv : BrInv s) (f : ClientFrame)
    (harp : ethProto (untag f.data) = ETH_P_ARP)
    (hok : arpPro (untag f.data) = ETH_P_IP → ETH_ALEN ≤ arpHln (untag f.data) ∧
      (arpSender (untag f.data) ≠ zeroIp → s.scdb.ip = arpSender (untag f.data) →
      s.scdb.mac = srcMac (untag f.data))) :
    Agrees c (brClientTx c s f.data) (h.step (.tx f)) := by
  have hnot : ethProto (untag f.data) ≠ ETH_P_IP := by
    rw [harp]
    decide
  have hlen : (srcMac (untag f.data)).length = ETH_ALEN := by
    apply srcMac_length
    rw [harp]
    decide
  rw [brClientTx_eq, scdbTx, if_neg hnot, BrHistory.step, senderOf, if_neg hnot]
  dsimp only
  rw [if_pos rfl, dbInsert, if_neg hnot]
  by_cases hpro : arpPro (untag f.data) = ETH_P_IP
  · obtain ⟨hhln,hcache⟩ := hok hpro
    rw [if_neg (not_not_intro hpro), if_pos hpro, arpSender_patchSender hhln]
    exact ha.insert hinv hlen hcache
  · rw [if_pos hpro, if_neg hpro]
    exact ha

/-- A step that meets the condition keeps the agreement. -/
theorem agrees_step (c : BrEnv) (other : List UInt8 → List UInt8) (ha : Agrees c s h) (hinv : BrInv s) {e : BrEvent}
    (hok : BrEventOk c s h e) : Agrees c (brStep c other s e) (h.step e) := by
  cases e with
  | tx f =>
    rcases f.proto with hip | harp
    · change Agrees c (brClientTx c s f.data) _
      rw [brClientTx_eq, BrHistory.step_ip f hip]
      exact agrees_tx_ip ha hinv hip (hok.1 hip)
    · exact agrees_tx_arp ha hinv f harp (hok.2 harp)
  | rx d =>
    obtain ⟨hl,hsame⟩ := nat25HandleFrame_loses c other hinv d
    refine ha.loses hinv hl (Or.inl fun p hp _ => ?_)
    change Live (nat25HandleFrame c other s d).1.nethash p
    rw [hsame]
    exact hp
  | expire =>
    obtain ⟨hl,hyoung⟩ := dbExpire_loses c hinv
    exact ha.loses hinv hl (Or.inl hyoung)
  | cleanup => exact ha.loses hinv (dbCleanup_loses hinv) (Or.inr hok)
  | wait n =>
    refine ⟨congrArg (· + n) ha.now,ha.cacheKey,ha.cacheMac,?_,ha.length⟩
    rintro a mac t hz ⟨hlast,hage⟩
    refine ha.fresh a mac t hz ⟨hlast,?_⟩
    change h.now + n - t < _ at hage
    omega

/-- The destination of a frame that is put back together -/
theorem dst_retag (d : List UInt8) {u : List UInt8} {m : MacAddr} (hm : m.length = ETH_ALEN) (hu : 12 ≤ u.length) :
    slice (retag d (patch u 0 m)) 0 ETH_ALEN = m := by
  have hsize : ETH_ALEN = 6 := rfl
  have hdst : slice (patch u 0 m) 0 ETH_ALEN = m := slice_patch_of_length hm (by omega)
  rw [retag]
  split
  · have hlen : (slice (patch u 0 m) 0 12).length = 12 := by
      apply length_slice_of_le
      rw [length_patch, Nat.zero_add]
      exact hu
    rw [slice_append_left (by rw [List.length_append, List.length_append]; omega),
      slice_append_left (by rw [List.length_append]; omega), slice_append_left (by omega), slice_slice (by omega)]
    exact hdst
  · exact hdst

/-- The lookup of an address that was heard within the ageing time finds the last sender. -/
theorem dbLookup_fresh (c : BrEnv) (other : List UInt8 → List UInt8) (ha : Agrees c s h) (hinv : BrInv s)
    {u : List UInt8}
    {t : ℕ} (hip : ethProto u = ETH_P_IP) (hbad : malformedIp u = false) (hz : ipDaddr u ≠ zeroIp)
    (hf : Fresh c h (ipDaddr u) mac t) : (dbLookup c other s u).2 = patch u 0 mac := by
  obtain ⟨-,p,hfind,hmac,ht⟩ := ha.fresh _ mac t hz hf
  have hlive := (hinv.find_eq_some.mp hfind).1
  have hyoung : hasExpired c s.jiffies (s.heap p).ageingTimer = false := by
    apply not_expired c (hinv.timers p hlive)
    have hnow := ha.now
    have hage := hf.2
    omega
  rw [dbLookup, if_pos hip, hbad, if_neg Bool.false_ne_true, networkLookupAndReplace, hfind, Option.map_some, hyoung,
    if_neg Bool.false_ne_true, hmac]

theorem returned_of_agrees (c : BrEnv) (other : List UInt8 → List UInt8) (ha : Agrees c s h) (hinv : BrInv s)
    {d : List UInt8}
    {t : ℕ} (huni : isMcast d = false) (hip : ethProto (untag d) = ETH_P_IP) (hbad : malformedIp (untag d) = false)
    (hz : ipDaddr (untag d) ≠ zeroIp) (hf : Fresh c h (ipDaddr (untag d)) mac t) :
    slice (nat25HandleFrame c other s d).2 0 ETH_ALEN = mac := by
  have hcache := (ha.fresh _ mac t hz hf).1
  have hlen := ha.length _ mac t hf.1
  have hlong : 12 ≤ (untag d).length := by
    have hsrc := srcMac_length (ip_ne_zero hip)
    rw [srcMac, length_slice] at hsrc
    have hsize : ETH_ALEN = 6 := rfl
    omega
  rw [nat25HandleFrame, if_neg (by rw [huni]; exact Bool.false_ne_true)]
  dsimp only
  by_cases hshort : s.scdb.ip = ipDaddr (untag d)
  · rw [if_pos ⟨hip,hshort⟩, hcache hshort]
    exact dst_retag d hlen hlong
  · rw [if_neg (fun h => hshort h.2), dbLookup_fresh c other ha hinv hip hbad hz hf]
    exact dst_retag d hlen hlong

end

/-- In a run whose events meet the condition, frames go back to their last sender. -/
theorem bridge_right (c : BrEnv) (other : List UInt8 → List UInt8) (es : List BrEvent)
    (hok : ∀ past e, past ++ [e] <+: es → BrEventOk c (brRun c other past) (brHistory past) e) :
    BridgeRight c other es := by
  have hagrees : ∀ past, past <+: es → Agrees c (brRun c other past) (brHistory past) := by
    apply Run.prefix_induction
    · refine ⟨rfl,fun p hp => (by cases hp),fun p hp => (by cases hp),?_,fun a mac t h => (by cases h)⟩
      rintro a mac t - ⟨hlast,-⟩
      cases hlast
    · intro past e hpre ih
      rw [brRun, Run.run_append, brHistory, Run.run_append]
      exact agrees_step c other ih (brRun_inv c other past) (hok past e hpre)
  refine ⟨fun past _ => (brRun_inv c other past).chains,fun past _ => (brRun_inv c other past).live,?_,?_⟩
  · intro past d mac t hpre huni hip hbad hf
    exact returned_of_agrees c other (hagrees past ((List.prefix_append past _).trans hpre))
      (brRun_inv c other past) huni hip
      hbad (hok past _ hpre hip) hf
  · intro past d mac t hpre _ hip hbad hf hshort
    have ha := hagrees past ((List.prefix_append past _).trans hpre)
    have hz := hok past _ hpre hip
    rw [dbLookup_fresh c other ha (brRun_inv c other past) hip hbad hz hf, (ha.fresh _ mac t hz hf).1 hshort]

/-! ## Two runs -/

instance (s : BrExt) (u : List UInt8) : Decidable (IpOk s u) :=
  decidable_of_iff ((s.scdb.mac = srcMac u → s.scdb.entry.isSome → malformedIp u = false →
    s.scdb.ip = ipSaddr u) ∧
      (s.scdb.mac ≠ srcMac u → ∀ p ∈ s.find (generateIpv4NetworkAddr (ipSaddr u)),
        (s.heap p).macAddr = srcMac u) ∧
      (s.scdb.mac ≠ srcMac u → s.find (generateIpv4NetworkAddr (ipSaddr u)) = none → malformedIp u = false →
        s.scdb.ip ≠ ipSaddr u))
    ⟨fun h => ⟨h.1,h.2.1,h.2.2⟩,fun h => ⟨h.same,h.known,h.unknown⟩⟩

def someBridge : BrEnv where
  HZ := 100
  bitsPerLong := 32
  brMac := [2,0,0,0,0,1]
  myHwaddr := [2,0,0,0,0,7]
  myHwaddr_length := by decide
  fits := by decide
  pos := by decide

/-- An IPv4 packet without payload between two addresses, the bytes of which are all the same -/
def ipPacket (dst src : MacAddr) (saddr daddr : UInt8) : List UInt8 :=
  dst ++ src ++ [8,0] ++ [0x45,0,0,20,0,0,0,0,64,17,0,0] ++ List.replicate 4 saddr ++ List.replicate 4 daddr

/-- A frame of the client with the MAC address that ends in `mac`, to a host -/
def clientSends (mac saddr : UInt8) : BrEvent :=
  .tx ⟨ipPacket [2,0,0,0,1,0] [2,0,0,0,2,mac] saddr 99,Or.inl rfl⟩

def hostSends (daddr : UInt8) : BrEvent := .rx (ipPacket [2,0,0,0,0,7] [2,0,0,0,1,0] 99 daddr)

/-- Two clients send, one of them twice, and both are answered. -/
def twoClients : List BrEvent := [clientSends 1 10,clientSends 2 20,clientSends 1 10,hostSends 10,hostSends 20]

theorem bridge_right_two_clients : BridgeRight someBridge id twoClients := by
  apply bridge_right
  intro past e hpre
  rw [twoClients] at hpre
  have harp :
      ∀ mac saddr : UInt8, ethProto (untag (ipPacket [2,0,0,0,1,0] [2,0,0,0,2,mac] saddr 99)) ≠ ETH_P_ARP := by
    intro mac saddr h
    cases h
  rcases past with _ | ⟨a,_ | ⟨b,_ | ⟨c,_ | ⟨d,_ | ⟨f,past⟩⟩⟩⟩⟩
  · obtain rfl : e = clientSends 1 10 := by simpa using hpre
    exact ⟨fun _ _ => by decide +kernel,fun h => absurd h (harp _ _)⟩
  · obtain ⟨rfl,rfl⟩ : a = clientSends 1 10 ∧ e = clientSends 2 20 := by simpa using hpre
    exact ⟨fun _ _ => by decide +kernel,fun h => absurd h (harp _ _)⟩
  · obtain ⟨rfl,rfl,rfl⟩ : a = clientSends 1 10 ∧ b = clientSends 2 20 ∧ e = clientSends 1 10 := by
      simpa using hpre
    exact ⟨fun _ _ => by decide +kernel,fun h => absurd h (harp _ _)⟩
  · obtain ⟨rfl,rfl,rfl,rfl⟩ : a = clientSends 1 10 ∧ b = clientSends 2 20 ∧ c = clientSends 1 10 ∧
        e = hostSends 10 := by
      simpa using hpre
    exact fun _ => by decide
  · obtain ⟨rfl,rfl,rfl,rfl,rfl⟩ : a = clientSends 1 10 ∧ b = clientSends 2 20 ∧ c = clientSends 1 10 ∧
        d = hostSends 10 ∧
        e = hostSends 20 := by simpa using hpre
    exact fun _ => by decide
  · simp at hpre

/-- A client that is in the short cut sends from a second address, and the answer goes to the
bridge. -/
theorem second_address_unknown :
    ¬ BridgeRight someBridge id ([clientSends 1 10,clientSends 1 10,clientSends 1 20] ++ [hostSends 20]) := by
  intro h
  have hret :=
    h.returned [clientSends 1 10,clientSends 1 10,clientSends 1 20] _ [2,0,0,0,2,1] 0 List.prefix_rfl (by decide)
    (by decide) (by decide) ⟨by decide +kernel,by decide⟩
  exact absurd hret (by decide +kernel)

end Rtl8188fu
