import Rtl8188fu.Library.AlignedFields
import Rtl8188fu.Include.Wifi

/-! # What a radiotap header says

The rules by which a header in front of a frame is read: the fields come in the order of their present bits, each at
its natural alignment, and what each field says about the frame. This is what a capture makes of the bytes, not code of
the driver.
-/
namespace Rtl8188fu
open Bytes AlignedFields

namespace Radiotap

def TSFT : ℕ := 0
def FLAGS : ℕ := 1
def RATE : ℕ := 2
def CHANNEL : ℕ := 3
def DBM_ANTSIGNAL : ℕ := 5
def ANTENNA : ℕ := 11
def RX_FLAGS : ℕ := 14
def MCS : ℕ := 19
def VHT : ℕ := 21

/-- Bit, alignment and size of each field -/
def slots : List Slot :=
  [⟨0,8,8⟩,⟨1,1,1⟩,⟨2,1,1⟩,⟨3,2,4⟩,⟨4,2,2⟩,⟨5,1,1⟩,⟨6,1,1⟩,⟨7,2,2⟩,⟨8,2,2⟩,
    ⟨9,2,2⟩,⟨10,1,1⟩,⟨11,1,1⟩,⟨12,1,1⟩,⟨13,1,1⟩,⟨14,2,2⟩,⟨15,2,2⟩,⟨16,1,1⟩,
    ⟨17,1,1⟩,⟨18,4,8⟩,⟨19,1,3⟩,⟨20,4,8⟩,⟨21,2,12⟩]

/-- The fields of a header and what stands behind it. A bit behind the last of the slots is not understood. -/
def split (bytes : List UInt8) : Option (List (ℕ × List UInt8) × List UInt8) :=
  let itLen := le16At bytes 2
  let itPresent := leNat (slice bytes 4 4)
  if 8 ≤ itLen ∧ itLen ≤ bytes.length ∧ byteAt bytes 0 = 0 ∧ itPresent < 2 ^ 22 then
    (decode (bytes.take itLen) itPresent.testBit slots 8).map (·,bytes.drop itLen)
  else none

structure Flags where
  cfp : Bool
  shortPreamble : Bool
  wep : Bool
  frag : Bool
  fcs : Bool
  datapad : Bool
  badFcs : Bool
  shortGi : Bool
deriving DecidableEq

def flagsOf (v : UInt8) : Flags where
  cfp := v.toNat.testBit 0
  shortPreamble := v.toNat.testBit 1
  wep := v.toNat.testBit 2
  frag := v.toNat.testBit 3
  fcs := v.toNat.testBit 4
  datapad := v.toNat.testBit 5
  badFcs := v.toNat.testBit 6
  shortGi := v.toNat.testBit 7

inductive Bandwidth
  | mhz20
  | mhz40
  | mhz80
  | mhz160
  /-- a part of a wider channel, or no bandwidth at all -/
  | other (code : ℕ)
deriving DecidableEq

def mcsBandwidthOf (v : ℕ) : Bandwidth := if v = 0 then .mhz20 else if v = 1 then .mhz40 else .other v

def vhtBandwidthOf (v : ℕ) : Bandwidth :=
  if v = 0 then .mhz20 else if v = 1 then .mhz40 else if v = 4 then .mhz80 else if v = 11 then .mhz160 else .other v

/-- What is known of an HT frame -/
structure Mcs where
  index : Option ℕ
  bandwidth : Option Bandwidth
  shortGi : Option Bool
  stbc : Option ℕ
deriving DecidableEq

def mcsOf (v : List UInt8) : Mcs where
  index := if (byteAt v 0).toNat.testBit 1 then some (byteAt v 2).toNat else none
  bandwidth := if (byteAt v 0).toNat.testBit 0 then some (mcsBandwidthOf ((byteAt v 1).toNat % 4)) else none
  shortGi := if (byteAt v 0).toNat.testBit 2 then some ((byteAt v 1).toNat.testBit 2) else none
  stbc := if (byteAt v 0).toNat.testBit 5 then some ((byteAt v 1).toNat / 32 % 4) else none

/-- What is known of a VHT frame; of the users, the first -/
structure Vht where
  bandwidth : Option Bandwidth
  streams : ℕ
  mcs : ℕ
deriving DecidableEq

def vhtOf (v : List UInt8) : Vht where
  bandwidth := if (byteAt v 0).toNat.testBit 6 then some (vhtBandwidthOf (byteAt v 3).toNat) else none
  streams := (byteAt v 4).toNat % 16
  mcs := (byteAt v 4).toNat / 16

/-- What a header says about its frame -/
structure Meaning where
  tsft : Option ℕ
  flags : Option Flags
  /-- in units of 500 kb/s -/
  rate : Option ℕ
  /-- in MHz -/
  channel : Option ℕ
  /-- in dBm -/
  signal : Option Int8
  antenna : Option ℕ
  mcs : Option Mcs
  vht : Option Vht
deriving DecidableEq

/-- The meaning of the fields, given by their bits -/
def meaning (field : ℕ → Option (List UInt8)) : Meaning where
  tsft := (field TSFT).map leNat
  flags := (field FLAGS).map fun v => flagsOf (byteAt v 0)
  rate := (field RATE).map fun v => (byteAt v 0).toNat
  channel := (field CHANNEL).map fun v => le16At v 0
  signal := (field DBM_ANTSIGNAL).map fun v => (byteAt v 0).toInt8
  antenna := (field ANTENNA).map fun v => (byteAt v 0).toNat
  mcs := (field MCS).map mcsOf
  vht := (field VHT).map vhtOf

/-- A header with the frame behind it is read. -/
def read (bytes : List UInt8) : Option (Meaning × List UInt8) :=
  (split bytes).map fun r => (meaning fun b => r.1.lookup b,r.2)

end Radiotap

end Rtl8188fu
