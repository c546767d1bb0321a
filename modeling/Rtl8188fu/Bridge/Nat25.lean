import Rtl8188fu.Include.RtwSecurity
import Rtl8188fu.Library.Chains

/-! # The database of NAT2.5 bridging

`rtw_br_client_tx`, `nat25_handle_frame`, `nat25_db_expire` and `nat25_db_cleanup`, for IPv4 and
ARP. `nat25_disable` and `nat25sc_disable` are never set; the rewriting of DHCP requests is left
out. Allocation succeeds, and gives an object that was never used.
-/
namespace Rtl8188fu
open Bytes

def ETH_P_8021Q : ℕ := 0x8100
def ETH_P_IP : ℕ := 0x0800
def ETH_P_ARP : ℕ := 0x0806
def NAT25_IPV4 : UInt8 := 1
def NAT25_AGEING_TIME : ℕ := 300
def NAT25_HASH_SIZE : ℕ := 16

/-- The jiffies of a second, the width of `unsigned long`, and the addresses of the bridge and
of the adapter -/
structure BrEnv where
  HZ : ℕ
  bitsPerLong : ℕ
  brMac : MacAddr
  /-- `GET_MY_HWADDR` -/
  myHwaddr : MacAddr
  myHwaddr_length : myHwaddr.length = ETH_ALEN
  /-- The ageing time can be told from a wrapped clock. -/
  fits : NAT25_AGEING_TIME * HZ ≤ 2 ^ (bitsPerLong - 1)
  pos : 0 < bitsPerLong

structure Nat25Entry where
  useCount : ℕ
  macAddr : MacAddr
  ageingTimer : ℕ
  networkAddr : List UInt8
  deriving DecidableEq, Repr

/-- `scdb_mac`, `scdb_ip` and `scdb_entry` -/
structure Scdb where
  mac : MacAddr
  ip : List UInt8
  entry : Option ℕ
  deriving DecidableEq, Repr

def zeroIp : List UInt8 := [0,0,0,0]

def Scdb.zero : Scdb := ⟨[0,0,0,0,0,0],zeroIp,none⟩

/-- The part of the adapter that bridging uses. Entries are numbered as they are allocated. -/
structure BrExt where
  nethash : ℕ → List ℕ
  heap : ℕ → Nat25Entry
  next : ℕ
  scdb : Scdb
  jiffies : ℕ

def BrExt.init : BrExt := ⟨fun _ => [],fun _ => ⟨0,[],0,[]⟩,0,.zero,0⟩

def generateIpv4NetworkAddr (ipAddr : List UInt8) : List UInt8 :=
  NAT25_IPV4 :: List.replicate 6 0 ++ ipAddr ++ List.replicate 6 0

/-- `__nat25_network_hash` of an IPv4 address -/
def networkHash (networkAddr : List UInt8) : ℕ :=
  (byteAt networkAddr 7 ^^^ byteAt networkAddr 8 ^^^ byteAt networkAddr 9 ^^^ byteAt networkAddr 10).toNat %
    NAT25_HASH_SIZE

/-- `time_before_eq(timer, jiffies - NAT25_AGEING_TIME * HZ)`, the sign of a difference of two longs -/
def hasExpired (c : BrEnv) (jiffies timer : ℕ) : Bool :=
  ((jiffies : ℤ) - (NAT25_AGEING_TIME * c.HZ : ℕ) - timer) % 2 ^ c.bitsPerLong < 2 ^ (c.bitsPerLong - 1)

namespace BrExt

def key (s : BrExt) (p : ℕ) : List UInt8 := (s.heap p).networkAddr

/-- A write through the pointer to an entry -/
def write (s : BrExt) (p : ℕ) (f : Nat25Entry → Nat25Entry) : BrExt :=
  { s with heap := Function.update s.heap p (f (s.heap p)) }

/-- The loop over a chain for the entry of a network address -/
def find (s : BrExt) (networkAddr : List UInt8) : Option ℕ := Chains.find networkHash s.key s.nethash networkAddr

def touch (s : BrExt) (p : ℕ) : BrExt := s.write p fun db => { db with ageingTimer := s.jiffies }

def touchScdb (s : BrExt) : BrExt :=
  match s.scdb.entry with
  | some p => s.touch p
  | none => s

def dbNetworkInsert (s : BrExt) (macAddr : MacAddr) (networkAddr : List UInt8) : BrExt :=
  match s.find networkAddr with
  | some p => s.write p fun db => { db with macAddr := macAddr, ageingTimer := s.jiffies }
  | none =>
    { s with
      heap := Function.update s.heap s.next ⟨1,macAddr,s.jiffies,networkAddr⟩
      nethash := Function.update s.nethash (networkHash networkAddr) (s.next :: s.nethash (networkHash networkAddr))
      next := s.next + 1 }

/-- What becomes of the short cut when an entry is freed -/
def forget (s : BrExt) (f : ℕ) : BrExt := if s.scdb.entry = some f then { s with scdb := .zero } else s

/-- The loop of `nat25_db_cleanup` over a chain -/
def cleanupLoop (s : BrExt) (chain : List ℕ) : BrExt := chain.foldl forget s

def cleanupBucket (s : BrExt) (i : ℕ) : BrExt :=
  let s := s.cleanupLoop (s.nethash i)
  { s with nethash := Function.update s.nethash i [] }

def dbCleanup (s : BrExt) : BrExt := (List.range NAT25_HASH_SIZE).foldl cleanupBucket s

/-- The loop of `nat25_db_expire` over a chain, and what stays in the chain -/
def expireLoop (c : BrEnv) (s : BrExt) : List ℕ → BrExt × List ℕ
  | [] => (s,[])
  | f :: g =>
    if hasExpired c s.jiffies (s.heap f).ageingTimer then
      let s := s.write f fun db => { db with useCount := (db.useCount + 2 ^ 32 - 1) % 2 ^ 32 }
      if (s.heap f).useCount = 0 then (s.forget f).expireLoop c g
      else
        let r := s.expireLoop c g
        (r.1,f :: r.2)
    else
      let r := s.expireLoop c g
      (r.1,f :: r.2)

def expireBucket (c : BrEnv) (s : BrExt) (i : ℕ) : BrExt :=
  let r := s.expireLoop c (s.nethash i)
  { r.1 with nethash := Function.update r.1.nethash i r.2 }

def dbExpire (c : BrEnv) (s : BrExt) : BrExt := (List.range NAT25_HASH_SIZE).foldl (expireBucket c) s

end BrExt

/-! ## Frames -/

def ethProto (d : List UInt8) : ℕ := be16At d (2 * ETH_ALEN)

def srcMac (d : List UInt8) : MacAddr := slice d ETH_ALEN ETH_ALEN

/-- The frame without its VLAN tag -/
def untag (d : List UInt8) : List UInt8 := if ethProto d = ETH_P_8021Q then slice d 0 12 ++ d.drop 16 else d

/-- The tag of the first frame put back into what became of it -/
def retag (d u : List UInt8) : List UInt8 :=
  if ethProto d = ETH_P_8021Q then slice u 0 12 ++ be16Bytes ETH_P_8021Q ++ slice d 14 2 ++ u.drop 12 else u

/-- `malformed IP packet`: the IPv4 header reaches to the end of the frame or further. -/
def malformedIp (u : List UInt8) : Bool := u.length ≤ 4 * ((byteAt u ETH_HLEN).toNat % 16)

def ipSaddr (u : List UInt8) : List UInt8 := slice u (ETH_HLEN + 12) 4
def ipDaddr (u : List UInt8) : List UInt8 := slice u (ETH_HLEN + 16) 4

def arpPro (u : List UInt8) : ℕ := be16At u (ETH_HLEN + 2)
def arpHln (u : List UInt8) : ℕ := (byteAt u (ETH_HLEN + 4)).toNat
def arpPln (u : List UInt8) : ℕ := (byteAt u (ETH_HLEN + 5)).toNat
def arpSender (u : List UInt8) : List UInt8 := slice u (ETH_HLEN + 8 + arpHln u) 4
def arpTarget (u : List UInt8) : List UInt8 := slice u (ETH_HLEN + 8 + arpHln u + (arpHln u + arpPln u)) 4

/-- An ARP frame with the address of the adapter behind the ARP header, where six bytes are
taken for the sender's hardware address -/
def patchSender (c : BrEnv) (u : List UInt8) : List UInt8 := patch u (ETH_HLEN + 8) c.myHwaddr

/-- `nat25_db_handle` with `NAT25_INSERT`. The address of the adapter is written into an ARP
frame before the sender's network address is read. -/
def dbInsert (c : BrEnv) (s : BrExt) (u : List UInt8) : BrExt :=
  if ethProto u = ETH_P_IP then
    if malformedIp u then s
    else if ipSaddr u = zeroIp then s
    else s.dbNetworkInsert (srcMac u) (generateIpv4NetworkAddr (ipSaddr u))
  else if arpPro u ≠ ETH_P_IP then s
  else s.dbNetworkInsert (srcMac u) (generateIpv4NetworkAddr (arpSender (patchSender c u)))

/-- A frame of a client: IPv4 or ARP, with or without a tag -/
structure ClientFrame where
  data : List UInt8
  proto : ethProto (untag data) = ETH_P_IP ∨ ethProto (untag data) = ETH_P_ARP

/-- The short cut of `rtw_br_client_tx` behind the VLAN tag, and whether the database is asked -/
def scdbTx (s : BrExt) (u : List UInt8) : BrExt × Bool :=
  if ethProto u = ETH_P_IP then
    if s.scdb.mac ≠ srcMac u then
      match s.find (generateIpv4NetworkAddr (ipSaddr u)) with
      | some p => ({ s with scdb := ⟨srcMac u,ipSaddr u,some p⟩ }.touch p,false)
      | none => ({ s with scdb := { s.scdb with entry := none } },true)
    else
      match s.scdb.entry with
      | some p => (s.touch p,false)
      | none => ({ s with scdb := .zero },true)
  else (s,true)

def brClientTx (c : BrEnv) (s : BrExt) (d : List UInt8) : BrExt :=
  if isMcast d = false ∧ srcMac d ≠ c.brMac ∧ ethProto d ≠ ETH_P_8021Q ∧ ethProto d = ETH_P_IP ∧
      s.scdb.mac = srcMac d ∧ s.scdb.entry.isSome then
    s.touchScdb
  else
    let r := scdbTx s (untag d)
    if r.2 then dbInsert c r.1 (untag d) else r.1

/-- `__nat25_db_network_lookup_and_replace`; `none` when there is no entry -/
def networkLookupAndReplace (c : BrEnv) (s : BrExt) (u networkAddr : List UInt8) : Option (BrExt × List UInt8) :=
  (s.find networkAddr).map fun p =>
    if hasExpired c s.jiffies (s.heap p).ageingTimer then (s,u)
    else (s.write p fun db => { db with useCount := (db.useCount + 1) % 2 ^ 32 },patch u 0 (s.heap p).macAddr)

/-- `nat25_db_handle` with `NAT25_LOOKUP`. Frames of other protocols find no entry; `other` is what
becomes of them. -/
def dbLookup (c : BrEnv) (other : List UInt8 → List UInt8) (s : BrExt) (u : List UInt8) : BrExt × List UInt8 :=
  if ethProto u = ETH_P_IP then
    if malformedIp u then (s,u)
    else
      match networkLookupAndReplace c s u (generateIpv4NetworkAddr (ipDaddr u)) with
      | some r => r
      | none => (s,patch u 0 (if byteAt u (ETH_HLEN + 19) = 0xff then bcAddr else c.brMac))
  else if ethProto u = ETH_P_ARP then
    if arpPro u ≠ ETH_P_IP then (s,u)
    else
      let r := (networkLookupAndReplace c s u (generateIpv4NetworkAddr (arpTarget u))).getD (s,u)
      (r.1,patch r.2 (ETH_HLEN + 8 + (arpHln u + arpPln u)) (slice r.2 0 ETH_ALEN))
  else (s,other u)

def nat25HandleFrame (c : BrEnv) (other : List UInt8 → List UInt8) (s : BrExt) (d : List UInt8) :
    BrExt × List UInt8 :=
  if isMcast d then (s,d)
  else
    let r :=
      if ethProto (untag d) = ETH_P_IP ∧ s.scdb.ip = ipDaddr (untag d) then (s,patch (untag d) 0 s.scdb.mac)
      else dbLookup c other s (untag d)
    (r.1,retag d r.2)

inductive BrEvent
  | tx (f : ClientFrame)
  | rx (d : List UInt8)
  | expire
  | cleanup
  | wait (n : ℕ)

def brStep (c : BrEnv) (other : List UInt8 → List UInt8) (s : BrExt) : BrEvent → BrExt
  | .tx f => brClientTx c s f.data
  | .rx d => (nat25HandleFrame c other s d).1
  | .expire => s.dbExpire c
  | .cleanup => s.dbCleanup
  | .wait n => { s with jiffies := s.jiffies + n }

end Rtl8188fu
