import Smurf.Filter.DifferenceEquation
import Smurf.Library.MemoryBlocks

/-! The filter in its blocks of memory.
The size of the two blocks and the start of a slot are products of `uint`, which wrap, so with
too many channels an access leaves its block. A value that does not fit has no conversion to
`avgdata_t`. With fewer than `2 ^ 32` entries this is the filter whose products are exact.
-/

namespace Smurf

open MemoryBlocks

/-- A filter with the two blocks it has allocated. An output is missing while it is not set, or
set from a value that does not fit.
-/
structure FilterBlocks (samples records : UInt32) where
  xd : Block (samples * records).toNat ℚ
  yd : Block (samples * records).toNat ℚ
  output : Fin samples.toNat → Option Int32
  bn : Int32
  samplesSinceClear : UInt32
  orderN : Int32

/-- The value, truncated toward zero, is a number of 32 bits. -/
def FitsInt32 (value : ℚ) : Prop :=
  -2 ^ 31 ≤ value.num.tdiv value.den ∧ value.num.tdiv value.den < 2 ^ 31

instance (value : ℚ) : Decidable (FitsInt32 value) :=
  inferInstanceAs (Decidable (_ ∧ _))

/-- The conversion of a `filter_t` to `avgdata_t`, of the values for which it is defined. -/
def convert (value : ℚ) : Option Int32 :=
  if FitsInt32 value then some (truncate value) else none

theorem fitsInt32_zero : FitsInt32 0 := by
  decide

theorem exists_convert_iff (value : ℚ)
    : (∃ v, convert value = some v ∧ v.toInt = value.num.tdiv value.den) ↔ FitsInt32 value := by
  rw [convert]
  by_cases fits : FitsInt32 value
  · rw [if_pos fits]
    exact iff_of_true ⟨_, rfl, toInt_truncate fits.1 fits.2⟩ fits
  · rw [if_neg fits]
    exact iff_of_false (fun ⟨_, converted, _⟩ => by cases converted) fits

/-- The output of a flat average. -/
def Channel.mean (self : Channel) : Option Int32 :=
  if self.samplesSinceClear = 0 then none
  else convert (self.y self.slot / (self.samplesSinceClear.toNat : ℚ))

/-- The output of a filter with gain `g`. -/
def Channel.scaled (self : Channel) (g : ℚ) : Option Int32 :=
  convert (self.y self.slot * g)

/-- The output after a call, which only a filter call sets. -/
def Channel.outputAfter (self : Channel) (before : Option Int32) : Call Int32 → Option Int32
  | .filter call => if call.order = -1 then self.mean else self.scaled call.g
  | .clearFilter | .endRun => before

/-- Perform a call on a channel and its output. -/
def Channel.performs (state : Channel × Option Int32) (call : Call Int32)
    : Channel × Option Int32 :=
  let after := state.1.perform call
  (after, after.outputAfter state.2 call)

namespace FilterBlocks

variable {samples records : UInt32}

/-- The place of a channel in a slot: the product wraps, the addition does not. -/
def index (slot : Int32) (n : Fin samples.toNat) : Nat :=
  (slot.toUInt32 * samples).toNat + n

def clearFilter (self : FilterBlocks samples records) : FilterBlocks samples records :=
  { self with
    xd := fun _ => 0
    yd := fun _ => 0
    samplesSinceClear := 0
    orderN := -1
    bn := 0 }

def create (samples records : UInt32) : FilterBlocks samples records :=
  clearFilter {
    xd := fun _ => 0
    yd := fun _ => 0
    output := fun _ => none
    bn := 0
    samplesSinceClear := 0
    orderN := -1
  }

def endRun (self : FilterBlocks samples records) : FilterBlocks samples records :=
  if self.orderN = -1 then self.clearFilter else self

def accumulate (data : Fin samples.toNat → Int32) (self : FilterBlocks samples records)
    (n : Fin samples.toNat)
    : Option (FilterBlocks samples records) := do
  let here := index self.bn n
  let sum ← self.yd.load here
  let yd ← self.yd.store here (sum + ((data n).toInt : ℚ))
  let summed ← yd.load here
  -- the number of calls wraps to 0, and then there is no mean
  let mean :=
    if self.samplesSinceClear = 0 then none
    else convert (summed / (self.samplesSinceClear.toNat : ℚ))
  return { self with yd, output := Function.update self.output n mean }

def store (data : Fin samples.toNat → Int32) (self : FilterBlocks samples records)
    (n : Fin samples.toNat)
    : Option (FilterBlocks samples records) := do
  let xd ← self.xd.store (index self.bn n) ((data n).toInt : ℚ)
  return { self with xd }

def clearSlot (self : FilterBlocks samples records) : Option (FilterBlocks samples records) := do
  let yd ← self.yd.fill (self.bn.toUInt32 * samples).toNat samples.toNat 0
  return { self with yd }

/-- The slot `r` records back: `bn - r` is an `int`, reduced as unsigned. -/
def past (self : FilterBlocks samples records) (r : Nat) : Int32 :=
  ((self.bn - Int32.ofNat r).toUInt32 % records).toInt32

def tap (a b : Nat → ℚ) (n : Fin samples.toNat) (self : FilterBlocks samples records) (r : Nat)
    : Option (FilterBlocks samples records) := do
  let here := index self.bn n
  let nx := index (self.past r) n
  let sum ← self.yd.load here
  let x ← self.xd.load nx
  let y ← self.yd.load nx
  let yd ← self.yd.store here (sum + (b r * x - a r * y))
  return { self with yd }

def respond (order : Int32) (a b : Nat → ℚ) (g : ℚ) (self : FilterBlocks samples records)
    (n : Fin samples.toNat)
    : Option (FilterBlocks samples records) := do
  let here := index self.bn n
  let x ← self.xd.load here
  let yd ← self.yd.store here (b 0 * x)
  let summed ← (List.range' 1 order.toInt.toNat).foldlM (tap a b n) { self with yd }
  let sum ← summed.yd.load here
  let yd ← summed.yd.store here (sum / a 0)
  let y ← yd.load here
  return { summed with yd, output := Function.update summed.output n (convert (y * g)) }

/-- Filters one frame; order -1 is the flat average. -/
def filter (self : FilterBlocks samples records) (data : Fin samples.toNat → Int32)
    (order : Int32) (a b : Nat → ℚ) (g : ℚ)
    : Option (FilterBlocks samples records) := do
  let cleared := if self.orderN ≠ order then self.clearFilter else self
  let counted :=
    { cleared with
      orderN := order
      samplesSinceClear := cleared.samplesSinceClear + 1 }
  if order = -1 then
    (List.finRange samples.toNat).foldlM (accumulate data) counted
  else
    let advanced := { counted with bn := ((counted.bn + 1).toUInt32 % records).toInt32 }
    let stored ← (List.finRange samples.toNat).foldlM (store data) advanced
    let ready ← stored.clearSlot
    (List.finRange samples.toNat).foldlM (respond order a b g) ready

/-- Perform a call. -/
def perform (self : FilterBlocks samples records)
    : Call (Fin samples.toNat → Int32) → Option (FilterBlocks samples records)
  | .filter call => self.filter call.data call.order call.a call.b call.g
  | .clearFilter => some self.clearFilter
  | .endRun => some self.endRun

/-- A new filter after some calls; it has no result when an access left its block. -/
def run (samples records : UInt32) (calls : List (Call (Fin samples.toNat → Int32)))
    : Option (FilterBlocks samples records) :=
  calls.foldlM perform (create samples records)

-----------------------------------------------------------------------------------------
-- Exact products
-----------------------------------------------------------------------------------------

/-- The blocks hold the entries of a filter with unbounded rings, and its slot is one of them. -/
structure Refines (blocks : FilterBlocks samples records) (exact : SmurfFilter samples.toNat)
    : Prop where
  ring : exact.records = records
  xd : blocks.xd.Holds exact.xd
  yd : blocks.yd.Holds exact.yd
  bn : blocks.bn = exact.bn
  samplesSinceClear : blocks.samplesSinceClear = exact.samplesSinceClear
  orderN : blocks.orderN = exact.orderN
  inside : blocks.bn.toUInt32.toNat < records.toNat

section Products

variable (entries : samples.toNat * records.toNat < 2 ^ 32)
include entries

theorem toNat_entries : (samples * records).toNat = samples.toNat * records.toNat := by
  rw [UInt32.toNat_mul, Nat.mod_eq_of_lt entries]

/-- A slot of the ring starts where the exact product says. -/
theorem toNat_start {slot : Int32} (inside : slot.toUInt32.toNat < records.toNat)
    : (slot.toUInt32 * samples).toNat = slot.toUInt32.toNat * samples.toNat := by
  have below : slot.toUInt32.toNat * samples.toNat ≤ records.toNat * samples.toNat :=
    Nat.mul_le_mul_right _ inside.le
  rw [Nat.mul_comm records.toNat] at below
  rw [UInt32.toNat_mul, Nat.mod_eq_of_lt (by omega)]

/-- A slot of the ring ends inside the block. -/
theorem slot_end_le {slot : Int32} (inside : slot.toUInt32.toNat < records.toNat)
    : slot.toUInt32.toNat * samples.toNat + samples.toNat ≤ (samples * records).toNat := by
  rw [toNat_entries entries, ← Nat.succ_mul, Nat.mul_comm samples.toNat]
  exact Nat.mul_le_mul_right _ inside

theorem index_eq {slot : Int32} (inside : slot.toUInt32.toNat < records.toNat)
    (n : Fin samples.toNat)
    : index slot n = SmurfFilter.index slot n := by
  rw [index, toNat_start entries inside, SmurfFilter.index]

theorem index_lt {slot : Int32} (inside : slot.toUInt32.toNat < records.toNat)
    (n : Fin samples.toNat)
    : SmurfFilter.index slot n < (samples * records).toNat :=
  lt_of_lt_of_le (Nat.add_lt_add_left n.isLt _) (slot_end_le entries inside)

end Products

-----------------------------------------------------------------------------------------
-- Each method keeps to the exact one
-----------------------------------------------------------------------------------------

/-- A tap changes the output ring only. -/
theorem eq_of_tap {self next : FilterBlocks samples records} {a b : Nat → ℚ}
    {n : Fin samples.toNat} {r : Nat} (tapped : self.tap a b n r = some next)
    : next = { self with yd := next.yd } := by
  simp only [tap, Option.bind_eq_bind, Option.bind_eq_some_iff] at tapped
  obtain ⟨_, _, _, _, _, _, _, _, result⟩ := tapped
  cases result
  rfl

section Steps

variable {self : FilterBlocks samples records} {exact : SmurfFilter samples.toNat}
  (refines : self.Refines exact) (entries : samples.toNat * records.toNat < 2 ^ 32)
include refines

theorem Refines.clearFilter (positive : 0 < records.toNat)
    : self.clearFilter.Refines exact.clearFilter where
  ring := refines.ring
  xd _ := rfl
  yd _ := rfl
  bn := rfl
  samplesSinceClear := rfl
  orderN := rfl
  inside := positive

theorem Refines.endRun (positive : 0 < records.toNat) : self.endRun.Refines exact.endRun := by
  rw [FilterBlocks.endRun, SmurfFilter.endRun, refines.orderN]
  split
  · exact refines.clearFilter positive
  · exact refines

/-- The slots that the taps read are slots of the ring. -/
theorem Refines.past (r : Nat)
    : self.past r = exact.past r ∧ (self.past r).toUInt32.toNat < records.toNat := by
  constructor
  · rw [FilterBlocks.past, SmurfFilter.past, refines.bn, refines.ring]
  · rw [FilterBlocks.past, UInt32.toUInt32_toInt32, UInt32.toNat_mod]
    exact Nat.mod_lt _ (Nat.zero_lt_of_lt refines.inside)

/-- A loop over the channels whose iterations keep to those of an exact loop, and set the output
of their channel from its exact entries.
-/
theorem Refines.loop {checked : FilterBlocks samples records → Fin samples.toNat → Option _}
    {body : SmurfFilter samples.toNat → Fin samples.toNat → SmurfFilter samples.toNat}
    (value : Channel → Option Int32)
    (frame : ∀ n, ∀ m ≠ n, ∀ exact, (body exact m).channel n = exact.channel n)
    (each
      : ∀ (self : FilterBlocks samples records) exact n,
          self.Refines exact
          → ∃ next,
              checked self n = some next
              ∧ next.Refines (body exact n)
              ∧ next.output = Function.update self.output n (value ((body exact n).channel n)))
    : ∃ next,
        (List.finRange samples.toNat).foldlM checked self = some next
        ∧ next.Refines ((List.finRange samples.toNat).foldl body exact)
        ∧ ∀ n,
            next.output n
            = value (((List.finRange samples.toNat).foldl body exact).channel n) := by
  obtain ⟨next, ended, holds, outputs⟩ :=
    foldlM_simulates
      (R := fun done (blocks : FilterBlocks samples records) exact =>
        blocks.Refines exact ∧ ∀ n ∈ done, blocks.output n = value (exact.channel n))
      (fun done blocks exact m related => by
        obtain ⟨next, stepped, kept, output⟩ := each blocks exact m related.1
        refine ⟨next, stepped, kept, fun n member => ?_⟩
        rw [output]
        by_cases own : n = m
        · subst own
          exact Function.update_self ..
        · have earlier := (List.mem_append.mp member).resolve_right
            (fun last => own (List.mem_singleton.mp last))
          rw [Function.update_of_ne own, frame n m (Ne.symm own), related.2 n earlier])
      ⟨refines, fun n member => absurd member List.not_mem_nil⟩
      (List.finRange samples.toNat)
  exact ⟨next, ended, holds, fun n => outputs n (List.mem_finRange n)⟩

include entries

theorem Refines.setYd {slot : Int32} (inside : slot.toUInt32.toNat < records.toNat)
    (n : Fin samples.toNat) (value : ℚ)
    : ∃ yd,
        self.yd.store (index slot n) value = some yd
        ∧ { self with yd }.Refines (exact.setYd (SmurfFilter.index slot n) value) := by
  rw [index_eq entries inside]
  obtain ⟨yd, stored, holds⟩ := refines.yd.store (index_lt entries inside n) value
  exact ⟨yd, stored, refines.ring, refines.xd, holds, refines.bn, refines.samplesSinceClear,
    refines.orderN, refines.inside⟩

theorem Refines.loadYd {slot : Int32} (inside : slot.toUInt32.toNat < records.toNat)
    (n : Fin samples.toNat)
    : self.yd.load (index slot n) = some (exact.yd (SmurfFilter.index slot n)) := by
  rw [index_eq entries inside]
  exact refines.yd.load (index_lt entries inside n)

theorem Refines.loadXd {slot : Int32} (inside : slot.toUInt32.toNat < records.toNat)
    (n : Fin samples.toNat)
    : self.xd.load (index slot n) = some (exact.xd (SmurfFilter.index slot n)) := by
  rw [index_eq entries inside]
  exact refines.xd.load (index_lt entries inside n)

theorem Refines.store (data : Fin samples.toNat → Int32) (n : Fin samples.toNat)
    : ∃ next, self.store data n = some next ∧ next.Refines (exact.store data n) := by
  obtain ⟨xd, stored, holds⟩ :=
    refines.xd.store (index_lt entries refines.inside n) ((data n).toInt : ℚ)
  refine ⟨{ self with xd }, ?_, ?_⟩
  · rw [FilterBlocks.store, index_eq entries refines.inside, stored]
    rfl
  · rw [refines.bn] at holds
    exact ⟨refines.ring, holds, refines.yd, refines.bn, refines.samplesSinceClear,
      refines.orderN, refines.inside⟩

theorem Refines.clearSlot : ∃ next, self.clearSlot = some next ∧ next.Refines exact.clearSlot := by
  obtain ⟨yd, filled, holds⟩ := refines.yd.fill (slot_end_le entries refines.inside) 0
  refine ⟨{ self with yd }, ?_, ?_⟩
  · rw [FilterBlocks.clearSlot, toNat_start entries refines.inside, filled]
    rfl
  · rw [refines.bn] at holds
    exact ⟨refines.ring, refines.xd, holds, refines.bn, refines.samplesSinceClear,
      refines.orderN, refines.inside⟩

theorem Refines.tap (a b : Nat → ℚ) (n : Fin samples.toNat) (r : Nat)
    : ∃ next, self.tap a b n r = some next ∧ next.Refines (exact.tap a b n r) := by
  obtain ⟨same, inside⟩ := refines.past r
  obtain ⟨yd, stored, after⟩ :=
    refines.setYd entries refines.inside n
      (exact.yd (SmurfFilter.index self.bn n)
        + (b r * exact.xd (SmurfFilter.index (self.past r) n)
            - a r * exact.yd (SmurfFilter.index (self.past r) n)))
  refine ⟨{ self with yd }, ?_, ?_⟩
  · simp only [FilterBlocks.tap, refines.loadYd entries refines.inside,
      refines.loadXd entries inside, refines.loadYd entries inside, Option.bind_eq_bind,
      Option.bind_some, stored]
    rfl
  · rw [SmurfFilter.tap, ← same, ← refines.bn]
    exact after

theorem Refines.taps (a b : Nat → ℚ) (n : Fin samples.toNat) (rs : List Nat)
    : ∃ next,
        rs.foldlM (FilterBlocks.tap a b n) self = some next
        ∧ next.Refines (rs.foldl (SmurfFilter.tap a b n) exact)
        ∧ next.output = self.output := by
  obtain ⟨next, ended, holds, output⟩ :=
    foldlM_simulates
      (R := fun _ (blocks : FilterBlocks samples records) exact =>
        blocks.Refines exact ∧ blocks.output = self.output)
      (fun _ blocks exact r related => by
        obtain ⟨next, tapped, holds⟩ := related.1.tap entries a b n r
        exact ⟨next, tapped, holds, (congrArg output (eq_of_tap tapped)).trans related.2⟩)
      ⟨refines, rfl⟩ rs
  exact ⟨next, ended, holds, output⟩

/-- The mean of a channel, set as its output. -/
theorem Refines.accumulate (data : Fin samples.toNat → Int32) (n : Fin samples.toNat)
    : ∃ next,
        self.accumulate data n = some next
        ∧ next.Refines (exact.accumulate data n)
        ∧ next.output
          = Function.update self.output n ((exact.accumulate data n).channel n).mean := by
  obtain ⟨ring, xd, yd, bn, counted, orderN, inside⟩ := refines
  have within := index_lt entries inside n
  obtain ⟨stored, written, holds⟩ :=
    yd.store within (exact.yd (SmurfFilter.index self.bn n) + ((data n).toInt : ℚ))
  have mean
      : ((exact.accumulate data n).channel n).mean
        = if self.samplesSinceClear = 0 then none
          else
            convert
              (Function.update exact.yd (SmurfFilter.index self.bn n)
                  (exact.yd (SmurfFilter.index self.bn n) + ((data n).toInt : ℚ))
                  (SmurfFilter.index self.bn n)
                / (self.samplesSinceClear.toNat : ℚ)) := by
    rw [bn, counted]
    rfl
  refine ⟨{ self with
    yd := stored
    output := Function.update self.output n ((exact.accumulate data n).channel n).mean }, ?_,
    ⟨ring, xd, bn ▸ holds, bn, counted, orderN, inside⟩, rfl⟩
  simp only [FilterBlocks.accumulate, index_eq entries inside, yd.load within, written,
    holds.load within, Option.bind_eq_bind, Option.bind_some, mean]
  rfl

/-- The scaled response of a channel, set as its output. -/
theorem Refines.respond (order : Int32) (a b : Nat → ℚ) (g : ℚ) (n : Fin samples.toNat)
    : ∃ next,
        self.respond order a b g n = some next
        ∧ next.Refines (exact.respond order a b g n)
        ∧ next.output
          = Function.update self.output n
              (((exact.respond order a b g n).channel n).scaled g) := by
  have within := index_lt entries refines.inside n
  obtain ⟨yd, first, after⟩ :=
    refines.setYd entries refines.inside n (b 0 * exact.xd (SmurfFilter.index self.bn n))
  obtain ⟨summed, ended, sums, output⟩ := after.taps entries a b n (List.range' 1 order.toInt.toNat)
  generalize exactSummed
    : (List.range' 1 order.toInt.toNat).foldl (SmurfFilter.tap a b n)
        (exact.setYd (SmurfFilter.index self.bn n)
          (b 0 * exact.xd (SmurfFilter.index self.bn n))) = sum at sums
  have bn : sum.bn = self.bn := by
    rw [← exactSummed, SmurfFilter.bn_taps]
    exact refines.bn.symm
  obtain ⟨stored, divided, holds⟩ :=
    sums.setYd entries refines.inside n (sum.yd (SmurfFilter.index self.bn n) / a 0)
  have responded
      : exact.respond order a b g n
        = (sum.setYd (SmurfFilter.index self.bn n)
              (sum.yd (SmurfFilter.index self.bn n) / a 0)).setOutput n
            (truncate
              ((sum.setYd (SmurfFilter.index self.bn n)
                  (sum.yd (SmurfFilter.index self.bn n) / a 0)).yd (SmurfFilter.index self.bn n)
                * g)) := by
    rw [SmurfFilter.respond, ← refines.bn, ← exactSummed]
  have scaled
      : ((exact.respond order a b g n).channel n).scaled g
        = convert
            ((sum.setYd (SmurfFilter.index self.bn n)
                (sum.yd (SmurfFilter.index self.bn n) / a 0)).yd (SmurfFilter.index self.bn n)
              * g) := by
    rw [responded, ← bn]
    rfl
  refine ⟨{ summed with
    yd := stored
    output := Function.update self.output n
      (((exact.respond order a b g n).channel n).scaled g) }, ?_, ?_, rfl⟩
  · simp only [FilterBlocks.respond, refines.loadXd entries refines.inside, first, ended,
      sums.loadYd entries refines.inside, divided, holds.loadYd entries refines.inside, output,
      Option.bind_eq_bind, Option.bind_some, scaled]
    rfl
  · rw [responded]
    exact ⟨holds.ring, holds.xd, holds.yd, holds.bn, holds.samplesSinceClear, holds.orderN,
      holds.inside⟩

theorem Refines.storeAll (data : Fin samples.toNat → Int32)
    : ∃ next,
        (List.finRange samples.toNat).foldlM (FilterBlocks.store data) self = some next
        ∧ next.Refines ((List.finRange samples.toNat).foldl (SmurfFilter.store data) exact) :=
  foldlM_simulates
    (R := fun _ (blocks : FilterBlocks samples records) exact => blocks.Refines exact)
    (fun _ _ _ n related => related.store entries data n) refines _

/-- Filtering a frame stays inside the blocks, and sets every output from the exact entries. -/
theorem Refines.filter (positive : 0 < records.toNat) (data : Fin samples.toNat → Int32)
    (order : Int32) (a b : Nat → ℚ) (g : ℚ)
    : ∃ next,
        self.filter data order a b g = some next
        ∧ next.Refines (exact.filter data order a b g)
        ∧ ∀ n,
            next.output n
            = if order = -1 then ((exact.filter data order a b g).channel n).mean
              else ((exact.filter data order a b g).channel n).scaled g := by
  have cleared
      : (if self.orderN ≠ order then self.clearFilter else self).Refines
          (if exact.orderN ≠ order then exact.clearFilter else exact) := by
    rw [refines.orderN]
    split
    · exact refines.clearFilter positive
    · exact refines
  simp only [FilterBlocks.filter, SmurfFilter.filter]
  generalize (if self.orderN ≠ order then self.clearFilter else self) = blocks at cleared ⊢
  generalize (if exact.orderN ≠ order then exact.clearFilter else exact) = ready at cleared ⊢
  have counted
      : { blocks with
          orderN := order
          samplesSinceClear := blocks.samplesSinceClear + 1 : FilterBlocks samples records }.Refines
          { ready with orderN := order, samplesSinceClear := ready.samplesSinceClear + 1 } :=
    ⟨cleared.ring, cleared.xd, cleared.yd, cleared.bn, congrArg (· + 1) cleared.samplesSinceClear,
      rfl, cleared.inside⟩
  by_cases flat : order = -1
  · simp only [if_pos flat]
    exact counted.loop Channel.mean
      (fun n m ne exact => SmurfFilter.channel_accumulate_other n data exact ne)
      (fun _ _ n related => related.accumulate entries data n)
  · simp only [if_neg flat]
    have advanced
        : { blocks with
            orderN := order
            samplesSinceClear := blocks.samplesSinceClear + 1
            bn := ((blocks.bn + 1).toUInt32 % records).toInt32
            : FilterBlocks samples records }.Refines
            { ready with
              orderN := order
              samplesSinceClear := ready.samplesSinceClear + 1
              bn := ((ready.bn + 1).toUInt32 % ready.records).toInt32 } := by
      refine ⟨counted.ring, counted.xd, counted.yd, ?_, counted.samplesSinceClear, rfl, ?_⟩
      · rw [cleared.bn, cleared.ring]
      · rw [UInt32.toUInt32_toInt32, UInt32.toNat_mod]
        exact Nat.mod_lt _ positive
    obtain ⟨stored, all, held⟩ := advanced.storeAll entries data
    obtain ⟨emptied, zeroed, kept⟩ := held.clearSlot entries
    obtain ⟨next, ended, holds, outputs⟩ :=
      kept.loop (Channel.scaled · g)
        (fun n m ne exact => SmurfFilter.channel_respond_other n order a b g exact ne)
        (fun _ _ n related => related.respond entries order a b g n)
    refine ⟨next, ?_, holds, outputs⟩
    simp only [all, zeroed, Option.bind_eq_bind, Option.bind_some]
    exact ended

theorem Refines.perform (positive : 0 < records.toNat) (call : Call (Fin samples.toNat → Int32))
    : ∃ next,
        self.perform call = some next
        ∧ next.Refines (exact.perform call)
        ∧ ∀ n,
            next.output n
            = ((exact.perform call).channel n).outputAfter (self.output n)
                (call.map fun data => data n) := by
  cases call with
  | filter call =>
      exact refines.filter entries positive call.data call.order call.a call.b call.g
  | clearFilter => exact ⟨_, rfl, refines.clearFilter positive, fun _ => rfl⟩
  | endRun =>
      refine ⟨_, rfl, refines.endRun positive, fun n => ?_⟩
      show self.endRun.output n = self.output n
      rw [FilterBlocks.endRun]
      split <;> rfl

end Steps

theorem refines_create (positive : 0 < records.toNat)
    : (create samples records).Refines (SmurfFilter.create samples.toNat records) where
  ring := rfl
  xd _ := rfl
  yd _ := rfl
  bn := rfl
  samplesSinceClear := rfl
  orderN := rfl
  inside := positive

/-- With exact products a run stays inside the blocks, and what a channel's output is depends on
its own part of the calls. By induction on the calls.
-/
theorem run_refines (entries : samples.toNat * records.toNat < 2 ^ 32)
    (positive : 0 < records.toNat) (calls : List (Call (Fin samples.toNat → Int32)))
    : ∃ self,
        run samples records calls = some self
        ∧ self.Refines (calls.foldl SmurfFilter.perform (SmurfFilter.create samples.toNat records))
        ∧ ∀ n,
            self.output n
            = ((calls.map (Call.map fun data => data n)).foldl Channel.performs
                (Channel.create records, none)).2 := by
  obtain ⟨self, ended, holds, same⟩ :=
    foldlM_simulates
      (R := fun done (blocks : FilterBlocks samples records) exact =>
        blocks.Refines exact
        ∧ ∀ n,
            (exact.channel n, blocks.output n)
            = (done.map (Call.map fun data => data n)).foldl Channel.performs
                (Channel.create records, none))
      (fun done blocks exact call related => by
        obtain ⟨next, performed, kept, output⟩ := related.1.perform entries positive call
        refine ⟨next, performed, kept, fun n => ?_⟩
        rw [List.map_append, List.foldl_append, ← related.2 n, output]
        simp only [List.map_cons, List.map_nil, List.foldl_cons, List.foldl_nil, Channel.performs,
          SmurfFilter.channel_perform])
      ⟨refines_create positive, fun _ => rfl⟩ calls
  exact ⟨self, ended, holds, fun n => congrArg Prod.snd (same n)⟩

end FilterBlocks

end Smurf
