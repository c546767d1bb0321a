import Rtl8188fu.Include.RtwSecurity

/-! # Transmit attributes and the IV macros

A packet number is the value of `union pn48`; its bytes `TSC0` to `TSC5` are the low
six bytes of the value.
-/
namespace Rtl8188fu
open Bytes

def WLANHDR_OFFSET : ℕ := 64
def TXDESC_SIZE : ℕ := 40
def PACKET_OFFSET_SZ : ℕ := 8

def rnd4 (x : ℕ) : ℕ := (x / 4 + if x % 4 = 0 then 0 else 1) * 4

/-- `struct pkt_attrib`, the fields that building a data frame uses -/
structure PktAttrib where
  subtype : ℕ
  dst : MacAddr
  src : MacAddr
  ta : MacAddr
  ra : MacAddr
  /-- the station that `psta` points to, by its entry in the station hash -/
  psta : MacAddr
  etherType : ℕ
  hdrlen : ℕ
  pktHdrlen : ℕ
  /-- the length of the packet without its Ethernet header -/
  pktlen : ℕ
  priority : ℕ
  qosEn : Bool
  eosp : Bool
  ackPolicy : ℕ
  mdata : Bool
  encrypt : EncryAlgo
  keyIdx : ℕ
  ivLen : ℕ
  icvLen : ℕ
  iv : List UInt8
  icv : List UInt8
  bswenc : Bool
  dot11tkiptxmickey : Keytype
  dot118021xUncstKey : Keytype

/-- `TSCn` of a packet number -/
def tsc (txpn n : ℕ) : UInt8 := UInt8.ofNat (txpn / 256 ^ n)

/-- The fourth byte of the IV: the key index, and for an extended IV bit 5 -/
def keyIdByte (keyidx : ℕ) : UInt8 := UInt8.ofNat (keyidx % 4 * 64)

/-- `WEP_IV`: the IV and the next packet number -/
def wepIv (txpn keyidx : ℕ) : List UInt8 × ℕ :=
  ([tsc txpn 0, tsc txpn 1, tsc txpn 2, keyIdByte keyidx],
    if txpn = 0xffffff then 0 else (txpn + 1) % 2 ^ 64)

/-- The packet number after the one of an extended IV -/
def nextTxpn (txpn : ℕ) : ℕ := if txpn = 0xffffffffffff then 0 else (txpn + 1) % 2 ^ 64

def tkipIv (txpn keyidx : ℕ) : List UInt8 × ℕ :=
  ([tsc txpn 1, (tsc txpn 1 ||| 0x20) &&& 0x7f, tsc txpn 0, 0x20 ||| keyIdByte keyidx,
    tsc txpn 2, tsc txpn 3, tsc txpn 4, tsc txpn 5], nextTxpn txpn)

def aesIv (txpn keyidx : ℕ) : List UInt8 × ℕ :=
  ([tsc txpn 0, tsc txpn 1, 0, 0x20 ||| keyIdByte keyidx, tsc txpn 2, tsc txpn 3, tsc txpn 4, tsc txpn 5],
    nextTxpn txpn)

/-- The number that six bytes hold, the lowest first -/
def pn48Val (b : List UInt8) : ℕ :=
  (byteAt b 0).toNat + 256 * ((byteAt b 1).toNat + 256 * ((byteAt b 2).toNat + 256 * ((byteAt b 3).toNat +
    256 * ((byteAt b 4).toNat + 256 * (byteAt b 5).toNat))))

def getTkipPn (iv : List UInt8) : ℕ :=
  pn48Val [byteAt iv 2, byteAt iv 0, byteAt iv 4, byteAt iv 5, byteAt iv 6, byteAt iv 7]

/-- The packet number at the positions at which `AES_IV` writes it -/
def getAesPn (iv : List UInt8) : ℕ :=
  pn48Val [byteAt iv 0, byteAt iv 1, byteAt iv 4, byteAt iv 5, byteAt iv 6, byteAt iv 7]

theorem pn48Val_tsc (txpn : ℕ) :
    pn48Val [tsc txpn 0, tsc txpn 1, tsc txpn 2, tsc txpn 3, tsc txpn 4, tsc txpn 5] = txpn % 2 ^ 48 := by
  simp only [pn48Val, byteAt, tsc, List.getD_cons_zero, List.getD_cons_succ, UInt8.toNat_ofNat']
  omega

@[simp] theorem getTkipPn_tkipIv (txpn keyidx : ℕ) : getTkipPn (tkipIv txpn keyidx).1 = txpn % 2 ^ 48 :=
  pn48Val_tsc txpn

@[simp] theorem getAesPn_aesIv (txpn keyidx : ℕ) : getAesPn (aesIv txpn keyidx).1 = txpn % 2 ^ 48 :=
  pn48Val_tsc txpn

/-- The next packet number is one higher, or it is zero. -/
theorem nextTxpn_mod (txpn : ℕ) :
    nextTxpn txpn % 2 ^ 48 = 0 ∨ nextTxpn txpn % 2 ^ 48 = txpn % 2 ^ 48 + 1 := by
  rw [nextTxpn]
  split <;> omega

theorem wepIv_mod (txpn keyidx : ℕ) :
    (wepIv txpn keyidx).2 % 2 ^ 48 = 0 ∨ (wepIv txpn keyidx).2 % 2 ^ 48 = txpn % 2 ^ 48 + 1 := by
  rw [wepIv]
  dsimp only
  split <;> omega

end Rtl8188fu
