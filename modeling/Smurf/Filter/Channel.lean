import Smurf.Filter.Basic
import Smurf.Library.LocalLoops
import Smurf.Library.RingHistory

/-! One channel of the filter.
The flat rings interleave the channels, but each iteration of the channel loops touches the
entries of its own channel only. A channel of the filter is therefore a filter of its own,
with its rings indexed by slot.
-/

namespace Smurf

/-- A filter for a single channel. -/
structure Channel where
  records : UInt32
  x : Nat → ℚ
  y : Nat → ℚ
  output : Int32
  bn : Int32
  samplesSinceClear : UInt32
  orderN : Int32

namespace Channel

/-- The slot in use. -/
def slot (self : Channel) : Nat :=
  self.bn.toUInt32.toNat

def clearFilter (self : Channel) : Channel :=
  { self with
    x := fun _ => 0
    y := fun _ => 0
    samplesSinceClear := 0
    orderN := -1
    bn := 0 }

def create (records : UInt32) : Channel :=
  clearFilter {
    records
    x := fun _ => 0
    y := fun _ => 0
    output := 0
    bn := 0
    samplesSinceClear := 0
    orderN := -1
  }

def endRun (self : Channel) : Channel :=
  if self.orderN = -1 then self.clearFilter else self

def setY (self : Channel) (value : ℚ) : Channel :=
  { self with y := Function.update self.y self.slot value }

def setOutput (self : Channel) (value : Int32) : Channel :=
  { self with output := value }

def accumulate (value : Int32) (self : Channel) : Channel :=
  let summed := self.setY (self.y self.slot + (value.toInt : ℚ))
  summed.setOutput (truncate (summed.y self.slot / (self.samplesSinceClear.toNat : ℚ)))

def store (value : Int32) (self : Channel) : Channel :=
  { self with x := Function.update self.x self.slot (value.toInt : ℚ) }

def clearSlot (self : Channel) : Channel :=
  self.setY 0

/-- The slot `r` records back. -/
def past (self : Channel) (r : Nat) : Nat :=
  ((self.bn - Int32.ofNat r).toUInt32 % self.records).toNat

def tap (a b : Nat → ℚ) (self : Channel) (r : Nat) : Channel :=
  self.setY
    (self.y self.slot + (b r * self.x (self.past r) - a r * self.y (self.past r)))

def respond (order : Int32) (a b : Nat → ℚ) (g : ℚ) (self : Channel) : Channel :=
  let first := self.setY (b 0 * self.x self.slot)
  let summed := (List.range' 1 order.toInt.toNat).foldl (tap a b) first
  let divided := summed.setY (summed.y self.slot / a 0)
  divided.setOutput (truncate (divided.y self.slot * g))

/-- The next slot of the ring. -/
def advance (self : Channel) : Channel :=
  { self with bn := ((self.bn + 1).toUInt32 % self.records).toInt32 }

def filter (self : Channel) (value : Int32) (order : Int32) (a b : Nat → ℚ) (g : ℚ)
    : Channel :=
  let cleared := if self.orderN ≠ order then self.clearFilter else self
  let counted :=
    { cleared with
      orderN := order
      samplesSinceClear := cleared.samplesSinceClear + 1 }
  if order = -1 then
    counted.accumulate value
  else
    (counted.advance.store value).clearSlot.respond order a b g

/-- The signed difference reduced as unsigned is taken modulo `2 ^ 32`. -/
theorem past_eq_wrapped (self : Channel) {r : Nat} (small : r < 2 ^ 32)
    : self.past r = RingHistory.wrapped (2 ^ 32) self.records.toNat self.slot r := by
  have back : (Int32.ofNat r).toUInt32.toNat = r := by
    rw [Int32.toUInt32_ofNat', UInt32.toNat_ofNat', Nat.mod_eq_of_lt small]
  rw [past, Int32.toUInt32_sub, UInt32.toNat_mod, UInt32.toNat_sub, back]
  rfl

/-- The next slot of a ring of any size. -/
theorem slot_advance {self : Channel} (inside : self.slot < self.records.toNat)
    : self.advance.slot = (self.slot + 1) % self.records.toNat := by
  have bounded := self.records.toNat_lt
  have next : ((self.bn + 1).toUInt32).toNat = self.slot + 1 := by
    rw [Int32.toUInt32_add, UInt32.toNat_add]
    exact Nat.mod_eq_of_lt (show self.slot + 1 < 2 ^ 32 by omega)
  simp only [advance, slot, UInt32.toUInt32_toInt32, UInt32.toNat_mod, next]

/-- The taps do not read the output. -/
theorem foldl_tap_setOutput (a b : Nat → ℚ) (self : Channel) (output : Int32) (rs : List Nat)
    : rs.foldl (tap a b) (self.setOutput output)
      = (rs.foldl (tap a b) self).setOutput output :=
  List.foldl_hom (setOutput · output) (fun _ _ => rfl)

/-- The output is overwritten unread. -/
theorem filter_setOutput (self : Channel) (output value order : Int32) (a b : Nat → ℚ) (g : ℚ)
    : (self.setOutput output).filter value order a b g = self.filter value order a b g := by
  have responds (self : Channel)
      : (self.setOutput output).respond order a b g = self.respond order a b g := by
    have first
        : (self.setOutput output).setY
            (b 0 * (self.setOutput output).x (self.setOutput output).slot)
          = (self.setY (b 0 * self.x self.slot)).setOutput output :=
      rfl
    simp only [respond]
    rw [first, foldl_tap_setOutput]
    rfl
  have cleared
      : (if (self.setOutput output).orderN ≠ order then (self.setOutput output).clearFilter
          else self.setOutput output)
        = (if self.orderN ≠ order then self.clearFilter else self).setOutput output := by
    rw [apply_ite (setOutput · output)]
    rfl
  simp only [filter]
  rw [cleared]
  generalize (if self.orderN ≠ order then self.clearFilter else self) = ready
  by_cases flat : order = -1
  · rw [if_pos flat, if_pos flat]
    rfl
  · rw [if_neg flat, if_neg flat]
    let counted : Channel :=
      { ready with
        orderN := order
        samplesSinceClear := ready.samplesSinceClear + 1 }
    exact responds (counted.advance.store value).clearSlot

/-- The ring keeps its size, by induction on the taps. -/
theorem records_filter (self : Channel) (value order : Int32) (a b : Nat → ℚ) (g : ℚ)
    : (self.filter value order a b g).records = self.records := by
  have taps (rs : List Nat) (self : Channel)
      : (rs.foldl (tap a b) self).records = self.records := by
    induction rs generalizing self with
    | nil => rfl
    | cons r rs ih => exact ih (self.tap a b r)
  have cleared
      : (if self.orderN ≠ order then self.clearFilter else self).records = self.records := by
    split <;> rfl
  simp only [filter]
  rw [← cleared]
  generalize (if self.orderN ≠ order then self.clearFilter else self) = ready
  split
  · rfl
  · exact taps _ _

end Channel

namespace SmurfFilter

variable {samples : Nat}

/-- Channel `n` of a filter. -/
def channel (n : Fin samples) (self : SmurfFilter samples) : Channel where
  records := self.records
  x := fun slot => self.xd (slot * samples + n)
  y := fun slot => self.yd (slot * samples + n)
  output := self.output n
  bn := self.bn
  samplesSinceClear := self.samplesSinceClear
  orderN := self.orderN

-----------------------------------------------------------------------------------------
-- Ring positions
-----------------------------------------------------------------------------------------

/-- A ring position determines its channel. -/
theorem channel_of_position {slot other : Nat} {n m : Fin samples}
    (same : slot * samples + n = other * samples + m)
    : n = m := by
  have reduced := congrArg (· % samples) same
  simp only [Nat.mul_comm _ samples, Nat.mul_add_mod, Nat.mod_eq_of_lt n.isLt,
    Nat.mod_eq_of_lt m.isLt] at reduced
  exact Fin.ext reduced

/-- A ring position determines its slot. -/
theorem slot_of_position {slot other : Nat} {n : Fin samples}
    (same : slot * samples + n = other * samples + n)
    : slot = other :=
  Nat.eq_of_mul_eq_mul_right n.pos (Nat.add_right_cancel same)

/-- Writing at another channel's position changes nothing of this channel. -/
theorem update_other {n m : Fin samples} (ne : m ≠ n) (ring : Nat → ℚ) (here : Int32)
    (value : ℚ) (slot : Nat)
    : Function.update ring (index here m) value (slot * samples + n)
      = ring (slot * samples + n) :=
  Function.update_of_ne (fun same => ne (channel_of_position same).symm) _ _

/-- Writing at this channel's position changes its slot. -/
theorem update_own (n : Fin samples) (ring : Nat → ℚ) (here : Int32) (value : ℚ)
    : (fun slot => Function.update ring (index here n) value (slot * samples + n))
      = Function.update (fun slot => ring (slot * samples + n)) here.toUInt32.toNat value := by
  funext slot
  by_cases same : slot = here.toUInt32.toNat
  · subst same
    rw [Function.update_self]
    exact Function.update_self ..
  · rw [Function.update_of_ne same]
    exact Function.update_of_ne (fun equal => same (slot_of_position equal)) _ _

/-- A channel has one entry in the region of a slot. -/
theorem position_in_slot (n : Fin samples) (slot here : Nat)
    : here * samples ≤ slot * samples + n
        ∧ slot * samples + n < here * samples + samples
      ↔ slot = here := by
  constructor
  · rintro ⟨from_start, before_end⟩
    have quotient := Nat.div_eq_of_lt_le from_start (by rw [Nat.succ_mul]; exact before_end)
    rw [Nat.add_comm, Nat.add_mul_div_right _ _ n.pos, Nat.div_eq_of_lt n.isLt] at quotient
    omega
  · rintro rfl
    exact ⟨Nat.le_add_right _ _, Nat.add_lt_add_left n.isLt _⟩

-----------------------------------------------------------------------------------------
-- Loop bodies
-----------------------------------------------------------------------------------------

section Bodies

variable (n : Fin samples) {m : Fin samples} (data : Fin samples → Int32) (order : Int32)
  (a b : Nat → ℚ) (g : ℚ) (self : SmurfFilter samples)

theorem channel_setYd_other (ne : m ≠ n) (here : Int32) (value : ℚ)
    : (self.setYd (index here m) value).channel n = self.channel n := by
  simp only [channel, setYd, update_other ne]

theorem channel_setYd {here : Int32} (current : self.bn = here) (value : ℚ)
    : (self.setYd (index here n) value).channel n = (self.channel n).setY value := by
  simp only [channel, setYd, Channel.setY, Channel.slot, update_own, current]

theorem channel_setOutput_other (ne : m ≠ n) (value : Int32)
    : (self.setOutput m value).channel n = self.channel n := by
  simp only [channel, setOutput, Function.update_of_ne (Ne.symm ne)]

theorem channel_setOutput (value : Int32)
    : (self.setOutput n value).channel n = (self.channel n).setOutput value := by
  simp only [channel, setOutput, Channel.setOutput, Function.update_self]

theorem channel_accumulate_other (ne : m ≠ n)
    : (accumulate data self m).channel n = self.channel n := by
  simp only [accumulate]
  rw [channel_setOutput_other n _ ne, channel_setYd_other n _ ne]

theorem channel_accumulate
    : (accumulate data self n).channel n = (self.channel n).accumulate (data n) := by
  simp only [accumulate]
  rw [channel_setOutput, channel_setYd n self rfl]
  simp only [setYd, Channel.accumulate, Channel.setY, Function.update_self]
  rfl

theorem channel_store_other (ne : m ≠ n)
    : (store data self m).channel n = self.channel n := by
  simp only [channel, store, update_other ne]

theorem channel_store
    : (store data self n).channel n = (self.channel n).store (data n) := by
  simp only [channel, store, Channel.store, Channel.slot, update_own]

theorem channel_clearSlot
    : self.clearSlot.channel n = (self.channel n).clearSlot := by
  simp only [channel, clearSlot, Channel.clearSlot, Channel.setY, Channel.slot,
    position_in_slot]
  congr 1
  funext slot
  exact (Function.update_apply (fun k => self.yd (k * samples + n)) _ 0 slot).symm

theorem channel_tap_other (ne : m ≠ n) (r : Nat)
    : (tap a b m self r).channel n = self.channel n :=
  channel_setYd_other n self ne _ _

theorem channel_tap (r : Nat)
    : (tap a b n self r).channel n = (self.channel n).tap a b r :=
  channel_setYd n self rfl _

/-- The taps of another channel leave this one alone, by induction on them. -/
theorem channel_taps_other (ne : m ≠ n) (rs : List Nat)
    : (rs.foldl (tap a b m) self).channel n = self.channel n := by
  induction rs generalizing self with
  | nil => rfl
  | cons r rs ih => rw [List.foldl_cons, ih, channel_tap_other n a b self ne]

theorem channel_taps (rs : List Nat)
    : (rs.foldl (tap a b n) self).channel n
      = rs.foldl (Channel.tap a b) (self.channel n) :=
  (List.foldl_hom (channel n) (fun self r => (channel_tap n a b self r).symm)).symm

/-- The taps stay in one slot. -/
theorem bn_taps (rs : List Nat)
    : (rs.foldl (tap a b m) self).bn = self.bn := by
  induction rs generalizing self with
  | nil => rfl
  | cons r rs ih =>
      rw [List.foldl_cons, ih]
      rfl

theorem channel_respond_other (ne : m ≠ n)
    : (respond order a b g self m).channel n = self.channel n := by
  simp only [respond]
  rw [channel_setOutput_other n _ ne, channel_setYd_other n _ ne, channel_taps_other n a b _ ne,
    channel_setYd_other n _ ne]

theorem channel_respond
    : (respond order a b g self n).channel n = (self.channel n).respond order a b g := by
  simp only [respond, Channel.respond]
  generalize summedIs
    : (List.range' 1 order.toInt.toNat).foldl (tap a b n)
        (self.setYd (index self.bn n) (b 0 * self.xd (index self.bn n))) = summed
  have here : summed.bn = self.bn := by
    rw [← summedIs, bn_taps]
    rfl
  have taps
      : summed.channel n
        = (List.range' 1 order.toInt.toNat).foldl (Channel.tap a b)
            ((self.channel n).setY (b 0 * (self.channel n).x (self.channel n).slot)) := by
    rw [← summedIs, channel_taps, channel_setYd n self rfl]
    rfl
  rw [channel_setOutput, channel_setYd n summed here, ← taps]
  have slot : (self.channel n).slot = (summed.channel n).slot :=
    congrArg (fun bn => bn.toUInt32.toNat) here.symm
  simp only [setYd, Channel.setY, slot, Function.update_self]
  rw [← here]
  rfl

end Bodies

-----------------------------------------------------------------------------------------
-- Operations
-----------------------------------------------------------------------------------------

theorem channel_create (n : Fin samples) (records : UInt32)
    : (create samples records).channel n = Channel.create records :=
  rfl

theorem channel_clearFilter (n : Fin samples) (self : SmurfFilter samples)
    : self.clearFilter.channel n = (self.channel n).clearFilter :=
  rfl

theorem channel_endRun (n : Fin samples) (self : SmurfFilter samples)
    : self.endRun.channel n = (self.channel n).endRun := by
  simp only [endRun, Channel.endRun, apply_ite (channel n), channel_clearFilter]
  rfl

/-- A loop over the channels does at channel `n` what its one iteration there does. -/
theorem channel_loop {body : SmurfFilter samples → Fin samples → SmurfFilter samples}
    (n : Fin samples) (own : Channel → Channel)
    (frame : ∀ m ≠ n, ∀ self, (body self m).channel n = self.channel n)
    (acts : ∀ self, (body self n).channel n = own (self.channel n)) (self : SmurfFilter samples)
    : ((List.finRange samples).foldl body self).channel n = own (self.channel n) :=
  LocalLoops.foldl_own frame acts (List.nodup_finRange samples) (List.mem_finRange n) self

/-- A channel of the filtered state is the filtered channel. Witness: each of the three
loops acts at the channel by its own iteration.
-/
theorem channel_filter (n : Fin samples) (self : SmurfFilter samples)
    (data : Fin samples → Int32) (order : Int32) (a b : Nat → ℚ) (g : ℚ)
    : (self.filter data order a b g).channel n
      = (self.channel n).filter (data n) order a b g := by
  simp only [filter, Channel.filter]
  have cleared
      : (if self.orderN ≠ order then self.clearFilter else self).channel n
        = if (self.channel n).orderN ≠ order then (self.channel n).clearFilter
          else self.channel n := by
    simp only [apply_ite (channel n), channel_clearFilter]
    rfl
  by_cases flat : order = -1
  · rw [if_pos flat, if_pos flat,
      channel_loop n (Channel.accumulate (data n))
        (fun m ne self => channel_accumulate_other n data self ne)
        (fun self => channel_accumulate n data self),
      ← cleared]
    rfl
  · rw [if_neg flat, if_neg flat,
      channel_loop n (Channel.respond order a b g)
        (fun m ne self => channel_respond_other n order a b g self ne)
        (fun self => channel_respond n order a b g self),
      channel_clearSlot,
      channel_loop n (Channel.store (data n))
        (fun m ne self => channel_store_other n data self ne)
        (fun self => channel_store n data self),
      ← cleared]
    rfl

end SmurfFilter

end Smurf
