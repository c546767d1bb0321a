import Mathlib

/-! # The clock of the kernel

The driver keeps times in `u32`, also where `jiffies` has 64 bits.
-/
namespace Rtl8188fu

def rtwSystimeToMs (hz systime : ℕ) : ℕ := systime * 1000 % 2 ^ 32 / hz

/-- `rtw_get_passing_time_ms`, an `s32` -/
def rtwGetPassingTimeMs (hz jiffies start : ℕ) : ℤ :=
  (rtwSystimeToMs hz ((jiffies % 2 ^ 32 + 2 ^ 32 - start) % 2 ^ 32) : ℤ).bmod (2 ^ 32)

/-- `HZ`, the width of `unsigned long`, and the ticks so far, which `jiffies` is the last bits of -/
structure Clock where
  hz : ℕ
  bitsPerLong : ℕ
  jiffies : ℕ

namespace Clock

def rtwGetCurrentTime (c : Clock) : ℕ := c.jiffies % 2 ^ 32

/-- `(u32) rtw_get_passing_time_ms` -/
def passingMs (c : Clock) (start : ℕ) : ℕ := (rtwGetPassingTimeMs c.hz c.jiffies start % 2 ^ 32).toNat

/-- The sign of a difference of two longs -/
def timeAfter (c : Clock) (a b : ℕ) : Bool := 2 ^ (c.bitsPerLong - 1) ≤ ((b : ℤ) - a) % 2 ^ c.bitsPerLong

def wait (c : Clock) (ticks : ℕ) : Clock := { c with jiffies := c.jiffies + ticks }

/-- With a `long` of 64 bits a time just before the wrap of the 32 bits counts as the later one. -/
example : Clock.timeAfter ⟨1000,32,0⟩ 1 (2 ^ 32 - 1) = true ∧
    Clock.timeAfter ⟨1000,64,0⟩ 1 (2 ^ 32 - 1) = false := by
  decide

end Clock

end Rtl8188fu
