import Rtl8188fu.Library.Run
import Rtl8188fu.Security.SetKey
import Rtl8188fu.Xmit.Coalesce
import Rtl8188fu.Xmit.SecInfo

/-! # Packet numbers over a run

Packets are sent and keys are installed in any order. For each MPDU that is written, the
log records the station whose key protects it, under the broadcast address for the group
keys, the cipher and the bytes of the IV.
-/
namespace Rtl8188fu

structure XmitState where
  keys : KeyState
  log : List (MacAddr × EncryAlgo × List UInt8)

inductive XmitEvent
  /-- a packet with its attributes from `update_attrib`; keys and stations of `ad` are not used -/
  | send (ad : XmitAdapter) (a : PktAttrib) (hw fuel : ℕ) (pkt : List UInt8)
  | apSetKey (p : IeeeParam)
  | staSetKey (bssid : MacAddr) (p : IeeeParam)

/-- A packet is built: `update_attrib_sec_info`, then `rtw_xmitframe_coalesce`. -/
def XmitState.send (s : XmitState) (ad : XmitAdapter) (a : PktAttrib) (hw fuel : ℕ) (pkt : List UInt8) :
    XmitState :=
  match rtwGetStainfo s.keys.stapriv a.ra with
  | none => s
  | some psta =>
    match updateAttribSecInfo s.keys.sec ad.mpState psta a with
    | none => s
    | some (a, psta) =>
      let keys := s.keys.updateSta (staKey a.ra) fun _ => psta
      match xmitframeCoalesce { ad with sec := keys.sec, stapriv := keys.stapriv } a hw fuel pkt with
      | none => { s with keys := keys }
      | some (frags, sta) =>
        { keys := keys.updateSta (staKey a.ra) fun t => sta.getD t
          log := s.log ++ frags.map fun f => (staKey a.ra, a.encrypt, f.iv) }

def XmitState.step (s : XmitState) : XmitEvent → XmitState
  | .send ad a hw fuel pkt => s.send ad a hw fuel pkt
  | .apSetKey p => { s with keys := rtwCfg80211ApSetEncryption s.keys p }
  | .staSetKey bssid p => { s with keys := rtwCfg80211SetEncryption s.keys bssid p }

/-- The packet numbers of the TKIP and CCMP MPDUs that were written for a station, in order,
as they stand in the IVs -/
def XmitState.pns (s : XmitState) (sta : MacAddr) : List ℕ :=
  s.log.filterMap fun e => if e.1 = sta then ivPn e.2.1 e.2.2 else none

/-- A TKIP or CCMP packet goes into one fragment, and the counter of the station has not
started again at zero behind numbers already used. -/
def PnSafe (s : XmitState) : XmitEvent → Prop
  | .send ad a _ _ pkt =>
    ∀ psta ∈ rtwGetStainfo s.keys.stapriv a.ra, ∀ r ∈ updateAttribSecInfo s.keys.sec ad.mpState psta a,
      (r.1.encrypt = .tkip ∨ r.1.encrypt = .aes →
        FitsOneFragment r.1 ad.fragLen (pkt.drop r.1.pktHdrlen)) ∧
      (r.1.encrypt ≠ .noPrivacy → psta.dot11txpn % 2 ^ 48 ≠ 0 ∨ s.pns (staKey a.ra) = [])
  | _ => True

instance (s : XmitState) : (e : XmitEvent) → Decidable (PnSafe s e)
  | .send _ _ _ _ _ => by
    delta PnSafe
    infer_instance
  | .apSetKey _ => .isTrue trivial
  | .staSetKey _ _ => .isTrue trivial

/-- The numbers of each station increase and, unless its counter is at zero, lie below it. -/
structure PnInv (s : XmitState) : Prop where
  increasing : ∀ sta, (s.pns sta).Pairwise (· < ·)
  below : ∀ sta, ∀ c ∈ s.keys.txpn sta, c % 2 ^ 48 = 0 ∨ ∀ p ∈ s.pns sta, p < c % 2 ^ 48

theorem PnInv.setKey {s : XmitState} (h : PnInv s) {keys : KeyState} (hk : keys.txpn = s.keys.txpn) :
    PnInv { s with keys := keys } :=
  ⟨h.increasing,fun sta c hc => h.below sta c (hk ▸ hc)⟩

/-- The counter of one station goes from `c` to `c'`, and `new` numbers are written for it. -/
theorem PnInv.advance {s t : XmitState} (h : PnInv s) {sta : MacAddr} {c c' : ℕ} {new : List ℕ}
    (hc : s.keys.txpn sta = some c) (hc' : t.keys.txpn = Function.update s.keys.txpn sta (some c'))
    (hnew : new = [] ∨ new = [c % 2 ^ 48]) (hpns : t.pns sta = s.pns sta ++ new)
    (hrest : ∀ b, b ≠ sta → t.pns b = s.pns b)
    (hstep : c' = c ∧ new = [] ∨ (c' % 2 ^ 48 = 0 ∨ c' % 2 ^ 48 = c % 2 ^ 48 + 1) ∧
      (c % 2 ^ 48 ≠ 0 ∨ s.pns sta = [])) : PnInv t := by
  have hbelow : c % 2 ^ 48 ≠ 0 ∨ s.pns sta = [] → ∀ p ∈ s.pns sta, p < c % 2 ^ 48 := by
    rintro (hne | hnil) p hp
    · rcases h.below sta c (by rw [hc]; rfl) with hz | hb
      · exact absurd hz hne
      · exact hb p hp
    · rw [hnil] at hp
      cases hp
  constructor
  · intro b
    rcases eq_or_ne b sta with rfl | hb
    · rw [hpns]
      refine List.pairwise_append.mpr ⟨h.increasing b,?_,?_⟩
      · rcases hnew with rfl | rfl
        · exact List.Pairwise.nil
        · exact List.pairwise_singleton _ _
      · intro p hp q hq
        rcases hstep with ⟨-,rfl⟩ | ⟨-,hsafe⟩
        · cases hq
        · rcases hnew with rfl | rfl
          · cases hq
          · rw [List.mem_singleton.mp hq]
            exact hbelow hsafe p hp
    · rw [hrest b hb]
      exact h.increasing b
  · intro b d hd
    rw [hc'] at hd
    rcases eq_or_ne b sta with rfl | hb
    · rw [Function.update_self] at hd
      cases hd
      rcases hstep with ⟨rfl,rfl⟩ | ⟨hz | hnext,hsafe⟩
      · rw [hpns, List.append_nil]
        exact h.below b _ (by rw [hc]; rfl)
      · exact Or.inl hz
      · refine Or.inr ?_
        intro p hp
        rw [hpns] at hp
        rcases List.mem_append.mp hp with hp | hp
        · have := hbelow hsafe p hp
          omega
        · rcases hnew with rfl | rfl
          · cases hp
          · rw [List.mem_singleton.mp hp]
            omega
    · rw [Function.update_of_ne hb] at hd
      rw [hrest b hb]
      exact h.below b d hd

theorem KeyState.updateSta_txpn_of_some {s : KeyState} {a : MacAddr} (f : StaInfo → StaInfo) {t : StaInfo}
    (h : s.stapriv a = some t) :
    (s.updateSta a f).txpn = Function.update s.txpn a (some (f t).dot11txpn) := by
  funext b
  change ((Function.update s.stapriv a _) b).map (·.dot11txpn) = _
  rcases eq_or_ne b a with rfl | hb
  · rw [Function.update_self, Function.update_self, h]
    rfl
  · rw [Function.update_of_ne hb, Function.update_of_ne hb]
    rfl

/-- The numbers of the fragments of one packet, with one IV for all of them -/
theorem filterMap_frags {encrypt : EncryAlgo} {iv : List UInt8} {frags : List TxFragment}
    (hiv : ∀ f ∈ frags, f.iv = iv) (hone : (ivPn encrypt iv).isSome → frags.length = 1) :
    frags.filterMap (fun f => ivPn encrypt f.iv) = (ivPn encrypt iv).toList := by
  cases hpn : ivPn encrypt iv with
  | none =>
    apply List.filterMap_eq_nil_iff.mpr
    intro f hf
    rw [hiv f hf, hpn]
  | some p =>
    obtain ⟨f,rfl⟩ := List.length_eq_one_iff.mp (hone (by rw [hpn]; rfl))
    simp [hiv f (List.mem_singleton_self f), hpn]

/-- What the fragments of a packet to `sta` add to the numbers of `sta` -/
theorem pns_append_self (s : XmitState) (keys : KeyState) (sta : MacAddr × EncryAlgo) (frags : List TxFragment) :
    ({ keys := keys, log := s.log ++ frags.map fun f => (sta.1,sta.2,f.iv) } : XmitState).pns sta.1 =
      s.pns sta.1 ++ frags.filterMap fun f => ivPn sta.2 f.iv := by
  simp [XmitState.pns, List.filterMap_map]

theorem pns_append_of_ne (s : XmitState) (keys : KeyState) (sta : MacAddr × EncryAlgo) (frags : List TxFragment)
    {b : MacAddr} (hb : b ≠ sta.1) :
    ({ keys := keys, log := s.log ++ frags.map fun f => (sta.1,sta.2,f.iv) } : XmitState).pns b = s.pns b := by
  have hne : ¬ sta.1 = b := Ne.symm hb
  simp [XmitState.pns, List.filterMap_map, hne]

theorem PnInv.send {s : XmitState} (h : PnInv s) {ad : XmitAdapter} {a : PktAttrib} {hw fuel : ℕ}
    {pkt : List UInt8} (hsafe : PnSafe s (.send ad a hw fuel pkt)) : PnInv (s.send ad a hw fuel pkt) := by
  rw [XmitState.send]
  cases hsta : rtwGetStainfo s.keys.stapriv a.ra with
  | none => exact h
  | some psta =>
    dsimp only
    cases hupd : updateAttribSecInfo s.keys.sec ad.mpState psta a with
    | none => exact h
    | some r =>
      obtain ⟨a',psta'⟩ := r
      obtain ⟨hra,hopen,hpn⟩ := updateAttribSecInfo_pn hupd
      obtain ⟨hone,hwrap⟩ := hsafe psta hsta (a',psta') hupd
      dsimp only at hone hwrap ⊢
      rw [hra]
      have hlookup : s.keys.stapriv (staKey a.ra) = some psta := hsta
      have hc : s.keys.txpn (staKey a.ra) = some psta.dot11txpn := by
        rw [KeyState.txpn, hlookup]
        rfl
      have hkeys := KeyState.updateSta_txpn_of_some (fun _ => psta') hlookup
      -- the numbers that the packet takes from the counter
      have hcase : psta'.dot11txpn = psta.dot11txpn ∧ ivPn a'.encrypt (a'.iv.take a'.ivLen) = none ∨
          (∀ p ∈ ivPn a'.encrypt (a'.iv.take a'.ivLen), p = psta.dot11txpn % 2 ^ 48) ∧
          (psta'.dot11txpn % 2 ^ 48 = 0 ∨ psta'.dot11txpn % 2 ^ 48 = psta.dot11txpn % 2 ^ 48 + 1) ∧
            (psta.dot11txpn % 2 ^ 48 ≠ 0 ∨ s.pns (staKey a.ra) = []) := by
        rcases hpn with hsame | ⟨hp,hnext⟩
        · exact Or.inl hsame
        · by_cases henc : a'.encrypt = .noPrivacy
          · refine Or.inl ⟨by rw [hopen henc],?_⟩
            rw [henc]
            rfl
          · exact Or.inr ⟨hp,hnext,hra ▸ hwrap henc⟩
      cases hco : xmitframeCoalesce { ad with
          sec := (s.keys.updateSta (staKey a.ra) fun _ => psta').sec
          stapriv := (s.keys.updateSta (staKey a.ra) fun _ => psta').stapriv } a' hw fuel pkt with
      | none =>
        refine h.advance hc hkeys (Or.inl rfl) (List.append_nil _).symm (fun _ _ => rfl) ?_
        rcases hcase with ⟨hsame,-⟩ | ⟨-,hnext⟩
        · exact Or.inl ⟨hsame,rfl⟩
        · exact Or.inr hnext
      | some r =>
        obtain ⟨frags,sta⟩ := r
        obtain ⟨hiv,hlen,hkeep⟩ := xmitframeCoalesce_spec hco
        have hmine : frags.filterMap (fun f => ivPn a'.encrypt f.iv) =
            (ivPn a'.encrypt (a'.iv.take a'.ivLen)).toList := by
          apply filterMap_frags hiv
          intro hsome
          refine hlen (hone ?_)
          cases henc : a'.encrypt with
          | tkip => exact Or.inl rfl
          | aes => exact Or.inr rfl
          | _ =>
            rw [henc] at hsome
            cases hsome
        have hat : (s.keys.updateSta (staKey a.ra) fun _ => psta').stapriv (staKey a.ra) = some psta' := by
          rw [KeyState.updateSta, hlookup]
          exact Function.update_self _ _ _
        have htx : (sta.getD psta').dot11txpn = psta'.dot11txpn := by
          cases sta with
          | none => rfl
          | some t =>
            obtain ⟨t',ht',heq⟩ := hkeep t rfl
            rw [hra] at ht'
            cases hat.symm.trans ht'
            exact heq
        have hkeys' : ((s.keys.updateSta (staKey a.ra) fun _ => psta').updateSta (staKey a.ra)
            fun t => sta.getD t).txpn = Function.update s.keys.txpn (staKey a.ra) (some psta'.dot11txpn) := by
          rw [KeyState.updateSta_txpn_of_some _ hat, hkeys, Function.update_idem, htx]
        have hnew : (ivPn a'.encrypt (a'.iv.take a'.ivLen)).toList = [] ∨
            (ivPn a'.encrypt (a'.iv.take a'.ivLen)).toList = [psta.dot11txpn % 2 ^ 48] := by
          rcases hcase with ⟨-,hnone⟩ | ⟨hp,-⟩
          · exact Or.inl (by rw [hnone]; rfl)
          · cases hv : ivPn a'.encrypt (a'.iv.take a'.ivLen) with
            | none => exact Or.inl rfl
            | some p => exact Or.inr (by rw [hp p hv]; rfl)
        refine h.advance hc hkeys' hnew ?_ ?_ ?_
        · rw [← hmine]
          exact pns_append_self s _ (staKey a.ra,a'.encrypt) frags
        · intro b hb
          exact pns_append_of_ne s _ (staKey a.ra,a'.encrypt) frags hb
        · rcases hcase with ⟨hsame,hnone⟩ | ⟨-,hnext⟩
          · exact Or.inl ⟨hsame,by rw [hnone]; rfl⟩
          · exact Or.inr hnext

theorem PnInv.step {s : XmitState} (h : PnInv s) {e : XmitEvent} (hsafe : PnSafe s e) : PnInv (s.step e) := by
  cases e with
  | send ad a hw fuel pkt => exact h.send hsafe
  | apSetKey p => exact h.setKey (rtwCfg80211ApSetEncryption_txpn _ _)
  | staSetKey bssid p => exact h.setKey (rtwCfg80211SetEncryption_txpn _ _ _)

def linkedState : XmitState where
  keys :=
    { sec := wpaSecurity
      stapriv := fun b => if b = apAddr then some ccmpPeer else none }
  log := []

/-- The attributes of an IP packet of `n` bytes to the access point -/
def ipAttrib (n : ℕ) : PktAttrib where
  subtype := WIFI_DATA_TYPE
  dst := apAddr
  src := ownAddr
  ta := ownAddr
  ra := apAddr
  psta := apAddr
  etherType := 0x0800
  hdrlen := 24
  pktHdrlen := ETH_HLEN
  pktlen := n
  priority := 0
  qosEn := false
  eosp := false
  ackPolicy := 0
  mdata := false
  encrypt := .noPrivacy
  keyIdx := 0
  ivLen := 0
  icvLen := 0
  iv := List.replicate 18 0
  icv := List.replicate 16 0
  bswenc := false
  dot11tkiptxmickey := []
  dot118021xUncstKey := []

/-- An IP packet with `n` bytes of payload is sent with the given fragmentation threshold. -/
def sendIp (fragLen n : ℕ) : XmitEvent :=
  .send
    { sec := wpaSecurity
      stapriv := fun _ => none
      stationState := true
      apState := false
      adhocState := false
      mpState := false
      bssid := apAddr
      macAddr := ownAddr
      qosOption := false
      fragLen := fragLen } (ipAttrib n) 40 4 (List.replicate (ETH_HLEN + n) 0)

def ccmpKey : XmitEvent :=
  .staSetKey apAddr { staAddr := bcAddr, alg := .ccmp, idx := 0, setTx := true, key := List.replicate 16 3 }

end Rtl8188fu
