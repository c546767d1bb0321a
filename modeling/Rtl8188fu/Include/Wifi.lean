import Rtl8188fu.Library.Bytes

/-! # IEEE 802.11 header accessors

A frame in memory is its list of bytes from `frame_ctl` on. Sixteen-bit fields are
little endian. A read past the end of the list gives zero.
-/
namespace Rtl8188fu
open Bytes

abbrev MacAddr := List UInt8

/-- `_SUCCESS`, `_FAIL` and `RTW_RX_HANDLED`. -/
inductive Status
  | success
  | fail
  | handled
  deriving DecidableEq, Repr

def ETH_ALEN : ℕ := 6
def ETH_HLEN : ℕ := 14
def SNAP_SIZE : ℕ := 6
def LLC_HEADER_SIZE : ℕ := 6
def WLAN_HDR_A3_LEN : ℕ := 24
def WLAN_HDR_A4_LEN : ℕ := 30
def WLAN_HDR_A3_QOS_LEN : ℕ := 26
def WLAN_HDR_A4_QOS_LEN : ℕ := 32

/-- `BIT(n)` -/
def bit (n : ℕ) : ℕ := 2 ^ n

def WIFI_MGT_TYPE : ℕ := 0
def WIFI_CTRL_TYPE : ℕ := 0x04
def WIFI_DATA_TYPE : ℕ := 0x08
def WIFI_QOS_DATA_TYPE : ℕ := 0x88
def WIFI_DATA : ℕ := 0x08
def WIFI_DATA_CFACK : ℕ := 0x18
def WIFI_DATA_CFPOLL : ℕ := 0x28
def WIFI_DATA_CFACKPOLL : ℕ := 0x38
def WIFI_DISASSOC : ℕ := 0xa0
def WIFI_DEAUTH : ℕ := 0xc0
def WIFI_ACTION : ℕ := 0xd0

def byteAt (p : List UInt8) (i : ℕ) : UInt8 := p.getD i 0

def le16At (p : List UInt8) (i : ℕ) : ℕ := (byteAt p i).toNat + 256 * (byteAt p (i + 1)).toNat

/-- `RTW_GET_BE16`, and `ntohs` of the two bytes at `i` -/
def be16At (p : List UInt8) (i : ℕ) : ℕ := 256 * (byteAt p i).toNat + (byteAt p (i + 1)).toNat

/-- `htons` followed by a two-byte copy -/
def be16Bytes (v : ℕ) : List UInt8 := [UInt8.ofNat (v / 256), UInt8.ofNat v]

def getToDs (p : List UInt8) : Bool := (le16At p 0).testBit 8
def getFrDs (p : List UInt8) : Bool := (le16At p 0).testBit 9
def getMFrag (p : List UInt8) : Bool := (le16At p 0).testBit 10
def getPrivacy (p : List UInt8) : Bool := (le16At p 0).testBit 14
def getOrder (p : List UInt8) : Bool := (le16At p 0).testBit 15

/-- `get_tofr_ds`: to-DS in bit 1, from-DS in bit 0. -/
def getToFrDs (p : List UInt8) : ℕ := 2 * (getToDs p).toNat + (getFrDs p).toNat

def getFrameType (p : List UInt8) : ℕ := le16At p 0 &&& 0x0c
def getFrameSubType (p : List UInt8) : ℕ := le16At p 0 &&& 0xfc
def getSequence (p : List UInt8) : ℕ := le16At p 22 / 16
def getFragNum (p : List UInt8) : ℕ := le16At p 22 % 16

def getPriority (qc : List UInt8) : ℕ := le16At qc 0 % 16
def getAMsdu (qc : List UInt8) : Bool := (le16At qc 0).testBit 7

def getAddr1Ptr (p : List UInt8) : MacAddr := slice p 4 ETH_ALEN
def getAddr2Ptr (p : List UInt8) : MacAddr := slice p 10 ETH_ALEN
def getAddr3Ptr (p : List UInt8) : MacAddr := slice p 16 ETH_ALEN
def getAddr4Ptr (p : List UInt8) : MacAddr := slice p 24 ETH_ALEN

def isMcast (da : MacAddr) : Bool := (byteAt da 0).toNat.testBit 0

def getDa (p : List UInt8) : MacAddr :=
  match getToFrDs p with
  | 0 => getAddr1Ptr p
  | 1 => getAddr1Ptr p
  | _ => getAddr3Ptr p

def getSa (p : List UInt8) : MacAddr :=
  match getToFrDs p with
  | 0 => getAddr2Ptr p
  | 1 => getAddr3Ptr p
  | 2 => getAddr2Ptr p
  | _ => getAddr4Ptr p

def getHdrBssid (p : List UInt8) : MacAddr :=
  match getToFrDs p with
  | 0 => getAddr3Ptr p
  | 1 => getAddr2Ptr p
  | _ => getAddr1Ptr p

def rtwRfc1042Header : List UInt8 := [0xaa, 0xaa, 0x03, 0x00, 0x00, 0x00]
def rtwBridgeTunnelHeader : List UInt8 := [0xaa, 0xaa, 0x03, 0x00, 0x00, 0xf8]
def SNAP_ETH_TYPE_IPX : List UInt8 := [0x81, 0x37]
def SNAP_ETH_TYPE_APPLETALK_AARP : List UInt8 := [0x80, 0xf3]

theorem slice_congr {p q : List UInt8} {k : ℕ} (h : p.take k = q.take k) {i n : ℕ} (hi : i + n ≤ k) :
    slice p i n = slice q i n := by
  have hcut : ∀ m : List UInt8, slice m i n = slice (m.take k) i n := by
    intro m
    rw [slice, slice, List.drop_take, List.take_take, Nat.min_eq_left (by omega)]
  rw [hcut p, hcut q, h]

theorem byteAt_congr {p q : List UInt8} {k : ℕ} (h : p.take k = q.take k) {i : ℕ} (hi : i < k) :
    byteAt p i = byteAt q i := by
  have := congrArg (·[i]?) h
  simp only [List.getElem?_take, if_pos hi] at this
  rw [byteAt, byteAt, List.getD_eq_getElem?_getD, List.getD_eq_getElem?_getD, this]

theorem byteAt_drop (p : List UInt8) (i j : ℕ) : byteAt (p.drop i) j = byteAt p (i + j) := by
  simp [byteAt, List.getD_eq_getElem?_getD]

theorem byteAt_patch (m bs : List UInt8) (i j : ℕ) :
    byteAt (patch m i bs) j = if i ≤ j ∧ j < i + bs.length ∧ j < m.length then byteAt bs (j - i)
    else byteAt m j := by
  simp only [byteAt, List.getD_eq_getElem?_getD, getElem?_patch]
  split <;> rfl

theorem byteAt_append (a b : List UInt8) (i : ℕ) :
    byteAt (a ++ b) i = if i < a.length then byteAt a i else byteAt b (i - a.length) := by
  simp only [byteAt, List.getD_eq_getElem?_getD, List.getElem?_append]
  split <;> rfl

theorem byteAt_set (m : List UInt8) (i j : ℕ) (v : UInt8) :
    byteAt (m.set i v) j = if i = j ∧ i < m.length then v else byteAt m j := by
  simp only [byteAt, List.getD_eq_getElem?_getD, List.getElem?_set]
  by_cases hij : i = j
  · subst hij
    by_cases hi : i < m.length
    · simp [hi]
    · simp [hi]
  · simp [hij]

theorem byteAt_slice (m : List UInt8) {i n k : ℕ} (hk : k < n) : byteAt (slice m i n) k = byteAt m (i + k) := by
  simp only [byteAt, List.getD_eq_getElem?_getD, getElem?_slice, if_pos hk]

theorem byteAt_lt (p : List UInt8) (i : ℕ) : (byteAt p i).toNat < 256 := (byteAt p i).toNat_lt

theorem le16At_lt (p : List UInt8) (i : ℕ) : le16At p i < 65536 := by
  have h0 := byteAt_lt p i
  have h1 := byteAt_lt p (i + 1)
  rw [le16At]
  omega

theorem be16At_lt (p : List UInt8) (i : ℕ) : be16At p i < 65536 := by
  have h0 := byteAt_lt p i
  have h1 := byteAt_lt p (i + 1)
  rw [be16At]
  omega

theorem le16At_congr {p q : List UInt8} {k : ℕ} (h : p.take k = q.take k) {i : ℕ} (hi : i + 2 ≤ k) :
    le16At p i = le16At q i := by
  rw [le16At, le16At, byteAt_congr h (by omega), byteAt_congr h (by omega)]

/-- The bytes of a number, the lowest first -/
def leNat (p : List UInt8) : ℕ := p.foldr (fun c v => c.toNat + 256 * v) 0

def leBytes : ℕ → ℕ → List UInt8
  | 0, _ => []
  | n + 1, v => UInt8.ofNat v :: leBytes n (v / 256)

@[simp] theorem length_leBytes (n v : ℕ) : (leBytes n v).length = n := by
  induction n generalizing v with
  | zero => rfl
  | succ n ih => rw [leBytes, List.length_cons, ih]

theorem leNat_leBytes {n v : ℕ} (h : v < 256 ^ n) : leNat (leBytes n v) = v := by
  induction n generalizing v with
  | zero => exact (Nat.lt_one_iff.mp h).symm
  | succ n ih =>
    have hdiv : v / 256 < 256 ^ n := Nat.div_lt_of_lt_mul (by rwa [Nat.pow_succ, Nat.mul_comm] at h)
    have hrest := ih hdiv
    rw [leNat] at hrest
    rw [leBytes, leNat, List.foldr_cons, hrest, UInt8.toNat_ofNat']
    exact Nat.mod_add_div v 256

end Rtl8188fu
