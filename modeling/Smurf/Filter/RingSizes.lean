import Smurf.Filter.DifferenceEquation
import Smurf.Library.Runs

/-! Looking back in rings of any number of records.
The rings always hold the last values stored. A slot before the first one, though, is reached
through a difference modulo `2 ^ 32`, which is right only in rings that divide this.
-/

namespace Smurf

open RingHistory (Holds ago behind)
open Runs

-----------------------------------------------------------------------------------------
-- What a filter call stores
-----------------------------------------------------------------------------------------

/-- A filter, and what its calls stored for each channel since it was last cleared: the
inputs beside the outputs, the latest first.
-/
structure Recalled (samples : Nat) where
  filter : SmurfFilter samples
  stored : Fin samples → List (ℚ × ℚ)

namespace SmurfFilter

variable {samples : Nat}

/-- The filter as a call of this order finds it, cleared when the order changes. -/
def ready (self : SmurfFilter samples) (order : Int32) : SmurfFilter samples :=
  if self.orderN ≠ order then self.clearFilter else self

/-- The number of the slot in use. -/
def slot (self : SmurfFilter samples) : Nat :=
  self.bn.toUInt32.toNat

/-- The array position of a channel in a slot as it is computed: the slot's start in `uint`,
and the channel added to the pointer.
-/
def position (slot : Int32) (n : Fin samples) : Nat :=
  (slot.toUInt32 * UInt32.ofNat samples).toNat + n

end SmurfFilter

namespace Recalled

open SmurfFilter (index position)

variable {samples : Nat}

def create (samples : Nat) (records : UInt32) : Recalled samples where
  filter := .create samples records
  stored := fun _ => []

/-- A call, and what it leaves of the values stored before. -/
def perform (self : Recalled samples) (call : Call (Fin samples → Int32)) : Recalled samples :=
  let after := self.filter.perform call
  { filter := after
    stored := fun n =>
      match call with
      | .filter call =>
          (after.xd (index after.bn n), after.yd (index after.bn n))
            :: if self.filter.orderN = call.order then self.stored n else []
      | .clearFilter => []
      | .endRun => if self.filter.orderN = -1 then [] else self.stored n }

/-- The calls of a run with one order; only `filter` and `clear_filter` are called. -/
def OfOrder (order : Int32) : Call (Fin samples → Int32) → Prop
  | .filter call => call.order = order
  | .clearFilter => True
  | .endRun => False

/-- What a filter call of this order needs to be defined: the arrays, whose size is a product of
`uint`, have an entry for each slot and channel, and `bn + 1` is an `int`.
-/
structure Defined (filter : SmurfFilter samples) (order : Int32) : Prop where
  entries : (UInt32.ofNat samples * filter.records).toNat = samples * filter.records.toNat
  counts : (filter.ready order).slot + 1 < 2 ^ 31

/-- A filter call finds `r` slots back, for each `r` up to the order, a slot of the ring with
what was stored `r` filter calls ago. The slots behind the current one are as they were when
the call used them.
-/
def LooksBack (n : Fin samples) (self : Recalled samples) : Call (Fin samples → Int32) → Prop
  | .filter call =>
      let after := self.perform (.filter call)
      Defined self.filter call.order
      ∧ ∀ r ≤ call.order.toInt.toNat,
          let nx := after.filter.past r
          0 ≤ nx.toInt
          ∧ nx.toInt < after.filter.records.toNat
          ∧ (after.filter.xd (position nx n), after.filter.yd (position nx n))
            = ago (after.stored n) r
  | _ => True

/-- What looking back rests on: the arrays have fewer than `2 ^ 32` entries, the next slot is
an `int`, and it is not less than the order unless the ring divides `2 ^ 32`.
-/
structure Reaches (filter : SmurfFilter samples) (order : Int32) : Prop where
  entries : samples * filter.records.toNat < 2 ^ 32
  counts : (filter.ready order).slot + 1 < 2 ^ 31
  slots
    : filter.records.toNat ∣ 2 ^ 32
      ∨ order.toInt.toNat ≤ ((filter.ready order).slot + 1) % filter.records.toNat

/-- The condition for a call of any kind. -/
def CallReaches (self : Recalled samples) : Call (Fin samples → Int32) → Prop
  | .filter call => Reaches self.filter call.order
  | _ => True

/-- Every run of one order looks back right, in each call. -/
def AlwaysLooksBack (n : Fin samples) (records : UInt32) (order : Int32) : Prop :=
  ∀ calls : List (Call (Fin samples → Int32)),
    (∀ call ∈ calls, OfOrder order call)
    → EachStep perform (LooksBack n) (create samples records) calls

end Recalled

-----------------------------------------------------------------------------------------
-- One channel
-----------------------------------------------------------------------------------------

namespace Channel

def ready (self : Channel) (order : Int32) : Channel :=
  if self.orderN ≠ order then self.clearFilter else self

/-- The input and the output in a slot. -/
def entry (self : Channel) (slot : Nat) : ℚ × ℚ :=
  (self.x slot, self.y slot)

/-- The taps only write the output of the current slot, whatever slots they read. By induction
on the taps.
-/
theorem foldl_tap_setY (a b : Nat → ℚ) (self : Channel) (rs : List Nat)
    : ∃ y, rs.foldl (tap a b) self = self.setY y := by
  induction rs generalizing self with
  | nil => exact ⟨self.y self.slot, by rw [setY, Function.update_eq_self]; rfl⟩
  | cons r rs ih =>
      obtain ⟨y, taps⟩ := ih (self.tap a b r)
      exact ⟨y, taps.trans (setY_setY self _ y)⟩

theorem respond_setY (order : Int32) (a b : Nat → ℚ) (g : ℚ) (self : Channel)
    : ∃ y output, self.respond order a b g = (self.setY y).setOutput output := by
  obtain ⟨y, taps⟩ :=
    foldl_tap_setY a b (self.setY (b 0 * self.x self.slot))
      (List.range' 1 order.toInt.toNat)
  simp only [respond]
  rw [taps]
  exact
    ⟨_, _, congrArg (setOutput · _) ((setY_setY (self.setY _) y _).trans (setY_setY self _ _))⟩

/-- What a response leaves in the other slots. -/
theorem entry_written (self : Channel) (value : Int32) (y : ℚ) (output : Int32) {slot : Nat}
    (other : slot ≠ self.slot)
    : (((self.store value).clearSlot.setY y).setOutput output).entry slot = self.entry slot := by
  have clear : ((self.store value).clearSlot.setY y) = (self.store value).setY y :=
    setY_setY (self.store value) 0 y
  rw [clear]
  exact Prod.ext (Function.update_of_ne other _ _) (Function.update_of_ne other _ _)

/-- A filter call goes on by one slot, and writes only there. -/
theorem filter_writes (self : Channel) (value : Int32) {order : Int32} (forward : order ≠ -1)
    (a b : Nat → ℚ) (g : ℚ)
    : let after := self.filter value order a b g
      after.bn = (self.ready order).advance.bn
      ∧ after.orderN = order
      ∧ (after.entry after.slot).1 = value.toInt
      ∧ ∀ slot ≠ after.slot, after.entry slot = (self.ready order).entry slot := by
  intro after
  let counted : Channel :=
    { self.ready order with
      orderN := order
      samplesSinceClear := (self.ready order).samplesSinceClear + 1 }
  obtain ⟨y, output, responds⟩ :=
    respond_setY order a b g (counted.advance.store value).clearSlot
  have filtered
      : after = ((counted.advance.store value).clearSlot.setY y).setOutput output :=
    (if_neg forward).trans responds
  rw [filtered]
  exact
    ⟨rfl, rfl, Function.update_self ..,
      fun slot other => entry_written counted.advance value y output other⟩

/-- The rings hold the stored values, the latest in the current slot. -/
structure Recalls (channel : Channel) (records : UInt32) (stored : List (ℚ × ℚ)) : Prop where
  ring : channel.records = records
  slot : channel.slot = stored.length % records.toNat
  holds : Holds records.toNat channel.entry channel.slot stored

theorem recalls_clearFilter {self : Channel} {records : UInt32} (ring : self.records = records)
    : self.clearFilter.Recalls records [] where
  ring := ring
  slot := (Nat.zero_mod _).symm
  holds := RingHistory.holds_nil _ _

theorem recalls_create (records : UInt32) : (create records).Recalls records [] :=
  recalls_clearFilter rfl

variable {self : Channel} {records : UInt32} {stored : List (ℚ × ℚ)}

theorem Recalls.inside (recalls : self.Recalls records stored) (positive : 0 < records.toNat)
    : self.slot < records.toNat := by
  rw [recalls.slot]
  exact Nat.mod_lt _ positive

/-- Cleared when the order changes, with what was stored. -/
theorem Recalls.ready (recalls : self.Recalls records stored) (order : Int32)
    : (self.ready order).Recalls records (if self.orderN = order then stored else []) := by
  rw [Channel.ready]
  by_cases same : self.orderN = order
  · rw [if_neg (not_not.mpr same), if_pos same]
    exact recalls
  · rw [if_pos same, if_neg same]
    exact recalls_clearFilter recalls.ring

/-- A filter call goes on to the next slot. -/
theorem Recalls.slot_filter (recalls : self.Recalls records stored)
    (positive : 0 < records.toNat) (value : Int32) {order : Int32} (forward : order ≠ -1)
    (a b : Nat → ℚ) (g : ℚ)
    : (self.filter value order a b g).slot
      = ((self.ready order).slot + 1) % records.toNat := by
  have before := recalls.ready order
  have inside : (self.ready order).slot < (self.ready order).records.toNat := by
    rw [before.ring]
    exact before.inside positive
  obtain ⟨bn, -⟩ := self.filter_writes value forward a b g
  refine (congrArg (fun bn => bn.toUInt32.toNat) bn).trans ?_
  rw [← before.ring]
  exact slot_advance inside

/-- A filter call adds what it stores to what is held. -/
theorem Recalls.filter (recalls : self.Recalls records stored) (positive : 0 < records.toNat)
    (value : Int32) {order : Int32} (forward : order ≠ -1) (a b : Nat → ℚ) (g : ℚ)
    : let after := self.filter value order a b g
      after.Recalls records
        (after.entry after.slot :: if self.orderN = order then stored else []) := by
  intro after
  obtain ⟨-, -, -, writes⟩ := self.filter_writes value forward a b g
  have before := recalls.ready order
  have next : after.slot = ((self.ready order).slot + 1) % records.toNat :=
    recalls.slot_filter positive value forward a b g
  constructor
  · exact (records_filter self value order a b g).trans recalls.ring
  · rw [next, before.slot, Nat.mod_add_mod, List.length_cons]
  · have pushed := before.holds.push (before.inside positive) (after.entry after.slot)
    have updated
        : after.entry
          = Function.update (self.ready order).entry after.slot (after.entry after.slot) :=
      Function.eq_update_iff.mpr ⟨rfl, writes⟩
    rw [← next, ← updated] at pushed
    exact pushed

/-- What stands in a slot, by its distance behind the current one. -/
theorem Recalls.entry_eq (recalls : self.Recalls records stored) (positive : 0 < records.toNat)
    {slot : Nat} (within : slot < records.toNat)
    : self.entry slot = ago stored (behind records.toNat self.slot slot) := by
  have inside := recalls.inside positive
  have held := recalls.holds _ (RingHistory.behind_lt inside slot)
  rwa [RingHistory.behind_behind inside within] at held

/-- The slot reached is the one behind exactly when no wrap-around is needed, or does no harm.
-/
theorem past_eq_behind_iff (inside : self.slot < self.records.toNat) {r : Nat}
    (less : r < self.records.toNat)
    : self.past r = behind self.records.toNat self.slot r
      ↔ r ≤ self.slot ∨ self.records.toNat ∣ 2 ^ 32 := by
  have fits := self.records.toNat_lt
  rw [past_eq_wrapped self (by omega)]
  exact RingHistory.wrapped_eq_behind_iff inside less fits.le

theorem past_lt (self : Channel) (positive : 0 < self.records.toNat) (r : Nat)
    : self.past r < self.records.toNat := by
  rw [past, UInt32.toNat_mod]
  exact Nat.mod_lt _ positive

/-- A ring that divides `2 ^ 32` has slots that are numbers of `int`. -/
theorem le_of_dvd_size (divides : records.toNat ∣ 2 ^ 32) : records.toNat ≤ 2 ^ 31 := by
  have fits := records.toNat_lt
  obtain ⟨turns, same⟩ := divides
  have twice : 2 ≤ turns := by
    by_contra few
    have : turns = 0 ∨ turns = 1 := by omega
    rcases this with rfl | rfl <;> omega
  have := Nat.mul_le_mul_left records.toNat twice
  omega

/-- A slot that is reached right holds what was stored `r` filter calls ago, and its number is
an `int` when the current one's is.
-/
theorem Recalls.entry_past (recalls : self.Recalls records stored) {r : Nat}
    (less : r < records.toNat) (reaches : r ≤ self.slot ∨ records.toNat ∣ 2 ^ 32)
    (small : self.slot < 2 ^ 31)
    : self.entry (self.past r) = ago stored r ∧ self.past r < 2 ^ 31 := by
  have ring := recalls.ring
  have inside := recalls.inside (by omega)
  subst ring
  rw [(past_eq_behind_iff inside less).mpr reaches]
  refine ⟨recalls.holds r less, ?_⟩
  rcases reaches with within | divides
  · rw [RingHistory.behind_of_le inside within]
    omega
  · exact lt_of_lt_of_le (RingHistory.behind_lt inside r) (le_of_dvd_size divides)

/-- In the first slot, behind a full turn in which only the last input but one was not zero:
looking one back gives that input only in a ring that divides `2 ^ 32`. Witness: no other slot
holds it than the one behind.
-/
theorem Recalls.dvd_of_entry_past (recalls : self.Recalls records stored)
    (more : 1 < records.toNat) (first : self.slot = 0) {k : Nat}
    (inputs : stored.map Prod.fst = 0 :: 1 :: List.replicate k 0)
    (found : self.entry (self.past 1) = ago stored 1)
    : records.toNat ∣ 2 ^ 32 := by
  have ring := recalls.ring
  subst ring
  have positive : 0 < self.records.toNat := by omega
  have within := self.past_lt positive 1
  have held := recalls.entry_eq positive within
  have distance : behind self.records.toNat self.slot (self.past 1) = 1 := by
    generalize behind self.records.toNat self.slot (self.past 1) = d at held
    have input (r : Nat) : (ago stored r).1 = ago (0 :: 1 :: List.replicate k 0) r := by
      rw [← inputs]
      exact (RingHistory.ago_map rfl stored r).symm
    have same : ago (0 :: 1 :: List.replicate k 0) d = (1 : ℚ) := by
      rw [← input, ← held, found, input]
      rfl
    match d, same with
    | 0, same => exact absurd same zero_ne_one
    | 1, _ => rfl
    | d + 2, same =>
        have zero : ago (List.replicate k (0 : ℚ)) d = 0 := by
          rw [ago, List.getD_eq_getElem?_getD, List.getElem?_getD_replicate_default_eq]
        exact absurd (zero.symm.trans same) zero_ne_one
  have reached := RingHistory.behind_behind (recalls.inside positive) within
  rw [distance] at reached
  have either := (past_eq_behind_iff (recalls.inside positive) more).mp reached.symm
  exact either.resolve_left (by omega)

end Channel

-----------------------------------------------------------------------------------------
-- Runs
-----------------------------------------------------------------------------------------

namespace Recalled

open SmurfFilter (index position)

variable {samples : Nat} {self : Recalled samples} {records : UInt32}

theorem channel_ready (n : Fin samples) (self : SmurfFilter samples) (order : Int32)
    : (self.ready order).channel n = (self.channel n).ready order := by
  rw [SmurfFilter.ready, Channel.ready, apply_ite (SmurfFilter.channel n)]
  rfl

/-- The rings of every channel hold what is stored for it. -/
def Recalls (self : Recalled samples) (records : UInt32) : Prop :=
  ∀ n, (self.filter.channel n).Recalls records (self.stored n)

theorem recalls_create (samples : Nat) (records : UInt32)
    : (create samples records).Recalls records :=
  fun _ => Channel.recalls_create records

/-- A call that is not a flat average keeps the correspondence. -/
theorem Recalls.perform (recalls : self.Recalls records) (positive : 0 < records.toNat)
    {order : Int32} (forward : order ≠ -1) {call : Call (Fin samples → Int32)}
    (ofOrder : OfOrder order call)
    : (self.perform call).Recalls records := by
  intro n
  have channel := SmurfFilter.channel_perform n self.filter call
  cases call with
  | filter call =>
      obtain rfl : call.order = order := ofOrder
      have filtered :=
        (recalls n).filter positive (call.data n) forward call.a call.b call.g
      have after
          : (self.perform (.filter call)).filter.channel n
            = (self.filter.channel n).filter (call.data n) call.order call.a call.b call.g :=
        channel
      rw [← after] at filtered
      exact filtered
  | clearFilter => exact Channel.recalls_clearFilter (recalls n).ring
  | endRun => exact absurd ofOrder id

theorem slot_channel (n : Fin samples) (self : SmurfFilter samples)
    : (self.channel n).slot = self.slot :=
  rfl

/-- A slot's number as an `int`. -/
theorem toInt_of_small {slot : Int32} (small : slot.toUInt32.toNat < 2 ^ 31)
    : slot.toInt = slot.toUInt32.toNat :=
  BitVec.toInt_eq_toNat_of_lt (show 2 * slot.toUInt32.toNat < 2 ^ 32 by omega)

/-- A product of `uint` with the number of channels, up to the entries of the arrays. -/
theorem toNat_mul_samples (entries : samples * records.toNat < 2 ^ 32) {slot : UInt32}
    (positive : 0 < records.toNat) (within : slot.toNat ≤ records.toNat)
    : (UInt32.ofNat samples * slot).toNat = samples * slot.toNat := by
  have few : samples < 2 ^ 32 :=
    lt_of_le_of_lt (Nat.le_mul_of_pos_right samples positive) entries
  rw [UInt32.toNat_mul, UInt32.toNat_ofNat', Nat.mod_eq_of_lt few]
  exact Nat.mod_eq_of_lt (lt_of_le_of_lt (Nat.mul_le_mul_left samples within) entries)

/-- A position computed in `uint` is exact where the arrays have fewer than `2 ^ 32` entries.
-/
theorem position_eq_index (n : Fin samples) {slot : Int32}
    (entries : samples * records.toNat < 2 ^ 32) (within : slot.toUInt32.toNat < records.toNat)
    : position slot n = index slot n := by
  rw [position, index, UInt32.mul_comm,
    toNat_mul_samples entries (Nat.zero_lt_of_lt within) within.le, Nat.mul_comm]

/-- What the taps of a channel read is read at exact positions. -/
theorem entry_past_channel (n : Fin samples) {filter : SmurfFilter samples}
    (ring : filter.records = records) (positive : 0 < records.toNat)
    (entries : samples * records.toNat < 2 ^ 32) (r : Nat)
    : (filter.xd (position (filter.past r) n), filter.yd (position (filter.past r) n))
      = (filter.channel n).entry ((filter.channel n).past r) := by
  subst ring
  have within : (filter.past r).toUInt32.toNat < filter.records.toNat :=
    (filter.channel n).past_lt positive r
  rw [position_eq_index n entries within]
  rfl

/-- What is found `r` slots back, where this slot is reached right. -/
theorem past_of_reaches (n : Fin samples) {filter : SmurfFilter samples}
    {stored : List (ℚ × ℚ)} (recalls : (filter.channel n).Recalls records stored)
    (entries : samples * records.toNat < 2 ^ 32) {r : Nat} (less : r < records.toNat)
    (reaches : r ≤ filter.slot ∨ records.toNat ∣ 2 ^ 32) (small : filter.slot < 2 ^ 31)
    : 0 ≤ (filter.past r).toInt
      ∧ (filter.past r).toInt < filter.records.toNat
      ∧ (filter.xd (position (filter.past r) n), filter.yd (position (filter.past r) n))
        = ago stored r := by
  have ring : filter.records = records := recalls.ring
  have positive : 0 < records.toNat := by omega
  obtain ⟨held, number⟩ := recalls.entry_past less reaches small
  have within := (filter.channel n).past_lt (recalls.ring.symm ▸ positive) r
  have same : (filter.past r).toInt = (filter.channel n).past r := toInt_of_small number
  rw [same]
  refine ⟨Int.natCast_nonneg _, Int.ofNat_lt.mpr within, ?_⟩
  rw [entry_past_channel n ring positive entries, held]

variable {order : Int32}

/-- A call that reaches its slots looks back right. -/
theorem Recalls.looksBack (recalls : self.Recalls records) (n : Fin samples)
    (forward : order ≠ -1) (less : order.toInt.toNat < records.toNat)
    {call : FilterCall (Fin samples → Int32)} (ofOrder : call.order = order)
    (reaches : Reaches self.filter order)
    : LooksBack n self (.filter call) := by
  subst ofOrder
  obtain ⟨entries, counts, slots⟩ := reaches
  have ring : self.filter.records = records := (recalls n).ring
  rw [ring] at entries slots
  have positive : 0 < records.toNat := by omega
  have after : (self.perform (.filter call)).Recalls records :=
    recalls.perform positive forward rfl
  have next
      : (self.perform (.filter call)).filter.slot
        = ((self.filter.ready call.order).slot + 1) % records.toNat := by
    have advanced :=
      (recalls n).slot_filter positive (call.data n) forward call.a call.b call.g
    rw [← SmurfFilter.channel_filter, ← channel_ready] at advanced
    exact advanced
  have small : (self.perform (.filter call)).filter.slot < 2 ^ 31 := by
    rw [next]
    exact lt_of_le_of_lt (Nat.mod_le _ _) counts
  have sized : (UInt32.ofNat samples * self.filter.records).toNat = _ :=
    toNat_mul_samples entries positive (Nat.le_of_eq (congrArg UInt32.toNat ring))
  refine ⟨⟨sized, counts⟩, fun r upto => ?_⟩
  exact past_of_reaches n (after n) entries (by omega) (by rw [next]; omega) small

/-- Where the arrays and the slots' numbers fit, and no wrap-around does harm, a call reaches
its slots.
-/
theorem Recalls.reaches (recalls : self.Recalls records) (n : Fin samples)
    (positive : 0 < records.toNat) (entries : samples * records.toNat < 2 ^ 32)
    (small : records.toNat < 2 ^ 31) (slots : order = 0 ∨ records.toNat ∣ 2 ^ 32)
    : Reaches self.filter order := by
  have ring : self.filter.records = records := (recalls n).ring
  have ready := (recalls n).ready order
  rw [← channel_ready] at ready
  have inside : (self.filter.ready order).slot < records.toNat := ready.inside positive
  constructor
  · rw [ring]
    exact entries
  · omega
  · rw [ring]
    rcases slots with zero | divides
    · rw [zero]
      exact Or.inr (Nat.zero_le _)
    · exact Or.inl divides

/-- A run of one order keeps the correspondence. -/
theorem Recalls.run (recalls : self.Recalls records) (positive : 0 < records.toNat)
    (forward : order ≠ -1) {calls : List (Call (Fin samples → Int32))}
    (ofOrder : ∀ call ∈ calls, OfOrder order call)
    : (calls.foldl Recalled.perform self).Recalls records := by
  have steps : EachStep Recalled.perform (fun _ call => OfOrder order call) self calls :=
    eachStep_iff_forall.mpr ofOrder
  have states :=
    steps.invariant (I := fun state => state.Recalls records) recalls
      (fun _ _ holds here => holds.perform positive forward here)
  exact states.final

/-- In a run whose calls all reach their slots, every call looks back right. -/
theorem Recalls.eachLooksBack (recalls : self.Recalls records) (n : Fin samples)
    (forward : order ≠ -1) (less : order.toInt.toNat < records.toNat)
    {calls : List (Call (Fin samples → Int32))} (ofOrder : ∀ call ∈ calls, OfOrder order call)
    (reaches : EachStep Recalled.perform CallReaches self calls)
    : EachStep Recalled.perform (LooksBack n) self calls := by
  have positive : 0 < records.toNat := by omega
  apply reaches.mono_of_kept (I := fun state => state.Recalls records) _ _ recalls
  · intro call member state holds _
    exact holds.perform positive forward (ofOrder call member)
  · intro call member state holds here
    cases call with
    | filter call =>
        have same : call.order = order := ofOrder _ member
        exact holds.looksBack n forward less same (same ▸ here)
    | clearFilter => trivial
    | endRun => trivial

/-- Under these conditions all calls of a run reach their slots. -/
theorem Recalls.eachReaches (recalls : self.Recalls records) (n : Fin samples)
    (forward : order ≠ -1) (positive : 0 < records.toNat)
    (entries : samples * records.toNat < 2 ^ 32) (small : records.toNat < 2 ^ 31)
    (slots : order = 0 ∨ records.toNat ∣ 2 ^ 32) {calls : List (Call (Fin samples → Int32))}
    (ofOrder : ∀ call ∈ calls, OfOrder order call)
    : EachStep Recalled.perform CallReaches self calls := by
  have steps : EachStep Recalled.perform (fun _ call => OfOrder order call) self calls :=
    eachStep_iff_forall.mpr ofOrder
  apply steps.mono_of_kept (I := fun state => state.Recalls records) _ _ recalls
  · intro call _ state holds here
    exact holds.perform positive forward here
  · intro call _ state holds here
    cases call with
    | filter call =>
        have same : call.order = order := here
        exact holds.reaches n positive entries small (same ▸ slots)
    | clearFilter => trivial
    | endRun => trivial

-----------------------------------------------------------------------------------------
-- Rings that do not divide 2 ^ 32
-----------------------------------------------------------------------------------------

/-- A filter call with the same input for each channel. -/
def feedOne (order x : Int32) : FilterCall (Fin samples → Int32) where
  data := fun _ => x
  order
  a := fun _ => 1
  b := fun _ => 0
  g := 1

def feed (order : Int32) (inputs : List Int32) : List (Call (Fin samples → Int32)) :=
  inputs.map fun x => .filter (feedOne order x)

/-- The state after some inputs. -/
def fed (samples : Nat) (records : UInt32) (order : Int32) (inputs : List Int32)
    : Recalled samples :=
  (feed order inputs).foldl perform (create samples records)

theorem fed_concat (samples : Nat) (records : UInt32) (order : Int32) (inputs : List Int32)
    (x : Int32)
    : fed samples records order (inputs ++ [x])
      = (fed samples records order inputs).perform (.filter (feedOne order x)) := by
  rw [fed, feed, List.map_append, List.foldl_append]
  rfl

theorem ofOrder_feed (order : Int32) (inputs : List Int32)
    {call : Call (Fin samples → Int32)} (member : call ∈ feed order inputs)
    : OfOrder order call := by
  obtain ⟨x, -, rfl⟩ := List.mem_map.mp member
  rfl

/-- What a run of filter calls has stored are its inputs, by induction on them from the end. -/
theorem stored_fed (n : Fin samples) (records : UInt32) (forward : order ≠ -1)
    (inputs : List Int32)
    : ((fed samples records order inputs).stored n).map Prod.fst
        = (inputs.map fun x => (x.toInt : ℚ)).reverse
      ∧ (inputs ≠ [] → (fed samples records order inputs).filter.orderN = order) := by
  induction inputs using List.reverseRecOn with
  | nil => exact ⟨rfl, fun none => absurd rfl none⟩
  | append_singleton inputs x ih =>
      rw [fed_concat]
      generalize fed samples records order inputs = self at ih
      obtain ⟨-, orderN, latest, -⟩ :=
        (self.filter.channel n).filter_writes x forward (fun _ => 1) (fun _ => 0) 1
      rw [← SmurfFilter.channel_filter n self.filter (fun _ => x)] at orderN latest
      have kept
          : (if self.filter.orderN = order then self.stored n else []) = self.stored n := by
        by_cases first : inputs = []
        · subst first
          rw [List.map_eq_nil_iff.mp ih.1, ite_self]
        · rw [if_pos (ih.2 first)]
      refine ⟨?_, fun _ => orderN⟩
      rw [List.map_append, List.reverse_append, ← ih.1, ← kept]
      exact congrArg (· :: _) latest

theorem recalls_fed (samples : Nat) {records : UInt32} (positive : 0 < records.toNat)
    (forward : order ≠ -1) (inputs : List Int32)
    : (fed samples records order inputs).Recalls records :=
  (recalls_create samples records).run positive forward (fun _ => ofOrder_feed order inputs)

/-- The number of the slot after some inputs. -/
theorem slot_fed (n : Fin samples) {records : UInt32} (positive : 0 < records.toNat)
    (forward : order ≠ -1) (inputs : List Int32)
    : (fed samples records order inputs).filter.slot = inputs.length % records.toNat := by
  have stored := congrArg List.length (stored_fed n records forward inputs).1
  rw [List.length_map, List.length_reverse, List.length_map] at stored
  rw [← stored, ← slot_channel n]
  exact (recalls_fed samples positive forward inputs n).slot

section AlwaysLooksBack

variable {n : Fin samples}

/-- The last call of some inputs looks back right. -/
theorem AlwaysLooksBack.last (always : AlwaysLooksBack n records order) (inputs : List Int32)
    (x : Int32)
    : LooksBack n (fed samples records order inputs) (.filter (feedOne order x)) := by
  have each := always (feed order (inputs ++ [x])) (fun _ => ofOrder_feed order _)
  rw [feed, List.map_append] at each
  exact (eachStep_concat.mp each).2

/-- The slot's number stays an `int` after any number of calls. -/
theorem AlwaysLooksBack.counts (always : AlwaysLooksBack n records order)
    (positive : 0 < records.toNat) (forward : order ≠ -1) {k : Nat} (some : k ≠ 0)
    : k % records.toNat + 1 < 2 ^ 31 := by
  have counts := (always.last (List.replicate k 0) 0).1.counts
  have orderN := (stored_fed n records forward (List.replicate k 0)).2
    (fun none => some ((List.replicate_eq_nil_iff _).mp none))
  change ((fed samples records order (List.replicate k 0)).filter.ready order).slot + 1 < _
    at counts
  rwa [SmurfFilter.ready, if_neg (not_not.mpr orderN), slot_fed n positive forward,
    List.length_replicate] at counts

/-- What the last call of some inputs finds `r` slots back. -/
theorem AlwaysLooksBack.entry_past (always : AlwaysLooksBack n records order)
    (entries : samples * records.toNat < 2 ^ 32) (positive : 0 < records.toNat)
    (forward : order ≠ -1) (inputs : List Int32) (x : Int32)
    {r : Nat} (upto : r ≤ order.toInt.toNat)
    : let after := fed samples records order (inputs ++ [x])
      (after.filter.channel n).entry ((after.filter.channel n).past r)
      = ago (after.stored n) r := by
  intro after
  have ring := (recalls_fed samples positive forward (inputs ++ [x]) n).ring
  have found := ((always.last inputs x).2 r upto).2.2
  rw [← fed_concat] at found
  rwa [entry_past_channel n ring positive entries] at found

/-- The inputs of a full turn of calls, of which only the last but one is not zero. -/
def turn (size : Nat) : List Int32 :=
  List.replicate (size - 2) 0 ++ [1] ++ [0]

theorem reverse_turn (size : Nat)
    : ((turn size).map fun x : Int32 => (x.toInt : ℚ)).reverse
      = 0 :: 1 :: List.replicate (size - 2) 0 := by
  simp [turn]

/-- In a ring that does not divide `2 ^ 32`, the slot one back from the first one is another
than the last. Witness: after a full turn of calls, only the last slot holds an input.
-/
theorem AlwaysLooksBack.dvd (always : AlwaysLooksBack n records order) (forward : order ≠ -1)
    (some : 1 ≤ order.toInt.toNat) (less : order.toInt.toNat < records.toNat)
    (entries : samples * records.toNat < 2 ^ 32)
    : records.toNat ∣ 2 ^ 32 := by
  have positive : 0 < records.toNat := by omega
  have length : (turn records.toNat).length = records.toNat := by
    simp only [turn, List.length_append, List.length_replicate, List.length_cons,
      List.length_nil]
    omega
  have found := always.entry_past entries positive forward
    (List.replicate (records.toNat - 2) 0 ++ [1]) 0 some
  have recalls := recalls_fed samples positive forward (turn records.toNat) n
  have stored := (stored_fed n records forward (turn records.toNat)).1
  have slot := slot_fed n positive forward (turn records.toNat)
  rw [reverse_turn] at stored
  rw [length, Nat.mod_self, ← slot_channel n] at slot
  exact recalls.dvd_of_entry_past (by omega) slot stored found

end AlwaysLooksBack

/-- For any number of channels and records and an order below that number: a run of this order
looks back right in each call that reaches its slots. All runs do exactly when the arrays have
fewer than `2 ^ 32` entries, the slots are numbers of `int`, and the order is 0 or the number of
records divides `2 ^ 32`. Witness: the rings hold what was stored, whatever their size.
-/
theorem looksBack_iff_divides {samples : Nat} (n : Fin samples) {records : UInt32} {order : Int32}
    (least : 0 ≤ order.toInt) (less : order.toInt < records.toNat)
    : (∀ calls : List (Call (Fin samples → Int32)),
        (∀ call ∈ calls, OfOrder order call)
        → EachStep perform CallReaches (create samples records) calls
        → EachStep perform (LooksBack n) (create samples records) calls)
      ∧ (AlwaysLooksBack n records order
        ↔ samples * records.toNat < 2 ^ 32
          ∧ records.toNat < 2 ^ 31
          ∧ (order = 0 ∨ records.toNat ∣ 2 ^ 32)) := by
  have forward : order ≠ -1 := by
    rintro rfl
    exact absurd least (by decide)
  have fewer : order.toInt.toNat < records.toNat := by omega
  have positive : 0 < records.toNat := by omega
  have start := recalls_create samples records
  refine ⟨fun calls ofOrder => start.eachLooksBack n forward fewer ofOrder, ?_, ?_⟩
  · intro always
    have entries : samples * records.toNat < 2 ^ 32 := by
      have sized : (UInt32.ofNat samples * records).toNat = samples * records.toNat :=
        (always.last [] 0).1.entries
      rw [← sized]
      exact UInt32.toNat_lt _
    refine ⟨entries, ?_, ?_⟩
    · by_contra large
      have counts := always.counts positive forward (show 2 ^ 31 - 1 ≠ 0 by decide)
      rw [Nat.mod_eq_of_lt (by omega)] at counts
      omega
    · by_cases none : order.toInt = 0
      · exact Or.inl (Int32.toInt_inj.mp none)
      · exact Or.inr (always.dvd forward (by omega) fewer entries)
  · rintro ⟨entries, small, slots⟩ calls ofOrder
    exact start.eachLooksBack n forward fewer ofOrder
      (start.eachReaches n forward positive entries small slots ofOrder)

/-- The ring of 16 records that the frame loop uses, with the largest order; and two calls in a
ring of three records, which end before the first wrap-around.
-/
theorem looksBack_iff_divides_sixteen_three
    : AlwaysLooksBack (0 : Fin 528) 16 15
      ∧ EachStep perform (LooksBack (0 : Fin 1)) (create 1 3) (feed 1 [4, 5]) := by
  refine ⟨(looksBack_iff_divides 0 (by decide) (by decide)).2.mpr (by decide), ?_⟩
  refine (looksBack_iff_divides 0 (by decide) (by decide)).1 _ (fun _ => ofOrder_feed 1 [4, 5]) ?_
  exact ⟨⟨by decide, by decide, Or.inr (by decide)⟩, ⟨by decide, by decide, Or.inr (by decide)⟩,
    trivial⟩

/-- The third call in a ring of three records takes the current slot for the one before. -/
theorem not_looksBack_three_records
    : ¬ EachStep perform (LooksBack (0 : Fin 1)) (create 1 3) (feed 1 [1, 2, 3]) := by
  rintro ⟨-, -, third, -⟩
  have found := (third.2 1 (by decide)).2.2
  exact absurd (congrArg Prod.fst found) (by decide +kernel)

end Recalled

end Smurf
