import Mathlib.Algebra.Field.Rat
import Mathlib.Data.List.FinRange
import Mathlib.Logic.Function.Basic

/-! The low-pass filter and block average of the frame loop.
`filter_t` is read as exact rationals. The two ring buffers are flat arrays indexed by
`slot * samples + channel`. These products are taken exactly and the arrays have no end, as is
right for fewer than `2 ^ 32` entries; `FilterBlocks` has the products that wrap, and the ends.
-/

namespace Smurf

/-- The state of a filter for `samples` channels. -/
structure SmurfFilter (samples : Nat) where
  records : UInt32
  xd : Nat → ℚ
  yd : Nat → ℚ
  output : Fin samples → Int32
  bn : Int32
  samplesSinceClear : UInt32
  orderN : Int32

/-- The conversion of a `filter_t` to `avgdata_t`: truncation toward zero. A value that does
not fit, for which the conversion is undefined, is reduced to 32 bits.
-/
def truncate (value : ℚ) : Int32 :=
  Int32.ofInt (value.num.tdiv value.den)

/-- A value that fits is truncated exactly. -/
theorem toInt_truncate {value : ℚ} (least : -2 ^ 31 ≤ value.num.tdiv value.den)
    (most : value.num.tdiv value.den < 2 ^ 31)
    : (truncate value).toInt = value.num.tdiv value.den :=
  Int32.toInt_ofInt_of_le least most

namespace SmurfFilter

variable {samples : Nat}

/-- The array position of a channel in a slot. -/
def index (slot : Int32) (n : Fin samples) : Nat :=
  slot.toUInt32.toNat * samples + n

/-- Clears both rings and the marker of the order in use. -/
def clearFilter (self : SmurfFilter samples) : SmurfFilter samples :=
  { self with
    xd := fun _ => 0
    yd := fun _ => 0
    samplesSinceClear := 0
    orderN := -1
    bn := 0 }

/-- The constructor, which ends in `clear_filter`; `output` is allocated but not set. -/
def create (samples : Nat) (records : UInt32) : SmurfFilter samples :=
  clearFilter {
    records
    xd := fun _ => 0
    yd := fun _ => 0
    output := fun _ => 0
    bn := 0
    samplesSinceClear := 0
    orderN := -1
  }

/-- Clears the filter when a flat average ends. -/
def endRun (self : SmurfFilter samples) : SmurfFilter samples :=
  if self.orderN = -1 then self.clearFilter else self

/-- Store an entry of the output ring. -/
def setYd (self : SmurfFilter samples) (position : Nat) (value : ℚ) : SmurfFilter samples :=
  { self with yd := Function.update self.yd position value }

/-- Store the output of a channel. -/
def setOutput (self : SmurfFilter samples) (n : Fin samples) (value : Int32)
    : SmurfFilter samples :=
  { self with output := Function.update self.output n value }

/-- One channel of the flat average: sum into the current slot, then divide. -/
def accumulate (data : Fin samples → Int32) (self : SmurfFilter samples) (n : Fin samples)
    : SmurfFilter samples :=
  let here := index self.bn n
  let summed := self.setYd here (self.yd here + ((data n).toInt : ℚ))
  summed.setOutput n (truncate (summed.yd here / (self.samplesSinceClear.toNat : ℚ)))

/-- One channel of the input record. -/
def store (data : Fin samples → Int32) (self : SmurfFilter samples) (n : Fin samples)
    : SmurfFilter samples :=
  { self with
    xd := Function.update self.xd (index self.bn n) ((data n).toInt : ℚ) }

/-- Zero the output record of the current slot. -/
def clearSlot (self : SmurfFilter samples) : SmurfFilter samples :=
  let start := self.bn.toUInt32.toNat * samples
  { self with
    yd := fun k => if start ≤ k ∧ k < start + samples then 0 else self.yd k }

/-- The slot `r` records back: `bn - r` is an `int`, reduced as unsigned. -/
def past (self : SmurfFilter samples) (r : Nat) : Int32 :=
  ((self.bn - Int32.ofNat r).toUInt32 % self.records).toInt32

/-- One step of the loop over past records. -/
def tap (a b : Nat → ℚ) (n : Fin samples) (self : SmurfFilter samples) (r : Nat)
    : SmurfFilter samples :=
  let here := index self.bn n
  let nx := index (self.past r) n
  self.setYd here (self.yd here + (b r * self.xd nx - a r * self.yd nx))

/-- One channel of the filter: the taps, the division and the scaled output. -/
def respond (order : Int32) (a b : Nat → ℚ) (g : ℚ) (self : SmurfFilter samples)
    (n : Fin samples) : SmurfFilter samples :=
  let here := index self.bn n
  let first := self.setYd here (b 0 * self.xd here)
  let summed := (List.range' 1 order.toInt.toNat).foldl (tap a b n) first
  let divided := summed.setYd here (summed.yd here / a 0)
  divided.setOutput n (truncate (divided.yd here * g))

/-- Filters one frame; order -1 is the flat average. The coefficient arrays have 16 entries;
what their entries from 16 on stand for is what follows them in memory.
-/
def filter (self : SmurfFilter samples) (data : Fin samples → Int32) (order : Int32)
    (a b : Nat → ℚ) (g : ℚ) : SmurfFilter samples :=
  let cleared := if self.orderN ≠ order then self.clearFilter else self
  let counted :=
    { cleared with
      orderN := order
      samplesSinceClear := cleared.samplesSinceClear + 1 }
  if order = -1 then
    (List.finRange samples).foldl (accumulate data) counted
  else
    let advanced :=
      { counted with bn := ((counted.bn + 1).toUInt32 % counted.records).toInt32 }
    let stored := (List.finRange samples).foldl (store data) advanced
    (List.finRange samples).foldl (respond order a b g) stored.clearSlot

end SmurfFilter

end Smurf
