import Smurf.Filter.Channel
import Smurf.Library.DifferenceEquation

/-! The filter computes its difference equation.
Whatever the orders, coefficients and resets, each ring holds the last values of the history
since the last reset, so the taps read what the recurrence asks for.
-/

namespace Smurf

open RingHistory (behind Holds ago)
open DifferenceEquation (Taps responses)

-----------------------------------------------------------------------------------------
-- Calls and resets
-----------------------------------------------------------------------------------------

/-- The arguments of a call of `filter`. -/
structure FilterCall (Data : Type) where
  data : Data
  order : Int32
  a : Nat → ℚ
  b : Nat → ℚ
  g : ℚ

/-- A call of one of the filter's methods. -/
inductive Call (Data : Type) where
  | filter (call : FilterCall Data)
  | clearFilter
  | endRun

namespace FilterCall

variable {Data Other : Type}

/-- The order is one the coefficient arrays and the rings can serve. -/
structure Admissible (call : FilterCall Data) : Prop where
  least : -1 ≤ call.order.toInt
  most : call.order.toInt ≤ 15
  divides : call.a 0 ≠ 0

/-- The same call on other data. -/
def map (f : Data → Other) (call : FilterCall Data) : FilterCall Other where
  data := f call.data
  order := call.order
  a := call.a
  b := call.b
  g := call.g

/-- The coefficients of the step that the call makes. -/
def taps (call : FilterCall Data) : Taps ℚ where
  order := call.order.toInt.toNat
  a := call.a
  b := call.b

/-- What the recurrence of a single channel takes from the call. -/
def entry (call : FilterCall Int32) : Taps ℚ × ℚ :=
  (call.taps, (call.data.toInt : ℚ))

/-- The inputs of a history of calls. -/
def inputs (since : List (FilterCall Int32)) : List ℚ :=
  since.map fun call => (call.data.toInt : ℚ)

/-- The outputs that the difference equation gives a history of calls. -/
def outputs (since : List (FilterCall Int32)) : List ℚ :=
  responses (since.map entry)

theorem outputs_cons (call : FilterCall Int32) (earlier : List (FilterCall Int32))
    : outputs (call :: earlier)
      = DifferenceEquation.respond call.taps (inputs earlier) (outputs earlier)
          call.data.toInt
        :: outputs earlier := by
  simp only [outputs, List.map_cons, entry, DifferenceEquation.responses_cons, List.map_map,
    inputs]
  rfl

/-- The calls a new one continues: none when it changes the order. -/
def continues (call : FilterCall Data) (since : List (FilterCall Data))
    : List (FilterCall Data) :=
  if since.head?.all (fun latest => latest.order = call.order) then since else []

theorem continues_map (f : Data → Other) (call : FilterCall Data)
    (since : List (FilterCall Data))
    : (call.map f).continues (since.map (map f)) = (call.continues since).map (map f) := by
  cases since with
  | nil => rfl
  | cons latest earlier =>
      by_cases same : latest.order = call.order
      · simp [continues, map, same]
      · simp [continues, map, same]

end FilterCall

namespace Call

variable {Data Other : Type}

/-- The coefficients of a filter call are admissible. -/
def Admissible : Call Data → Prop
  | .filter call => call.Admissible
  | .clearFilter => True
  | .endRun => True

def map (f : Data → Other) : Call Data → Call Other
  | .filter call => .filter (call.map f)
  | .clearFilter => .clearFilter
  | .endRun => .endRun

theorem admissible_map (f : Data → Other) (call : Call Data)
    : (call.map f).Admissible ↔ call.Admissible := by
  cases call with
  | filter call =>
      exact ⟨fun h => ⟨h.least, h.most, h.divides⟩, fun h => ⟨h.least, h.most, h.divides⟩⟩
  | clearFilter => rfl
  | endRun => rfl

/-- The filter calls since the last reset, the latest first, after one more call. -/
def since (earlier : List (FilterCall Data)) : Call Data → List (FilterCall Data)
  | .filter call => call :: call.continues earlier
  | .clearFilter => []
  | .endRun => earlier

/-- The filter calls since the last reset, the latest first. -/
def sinceReset (calls : List (Call Data)) : List (FilterCall Data) :=
  calls.foldl since []

theorem since_map (f : Data → Other) (earlier : List (FilterCall Data)) (call : Call Data)
    : since (earlier.map (FilterCall.map f)) (call.map f)
      = (since earlier call).map (FilterCall.map f) := by
  cases call with
  | filter call =>
      simp only [map, since, FilterCall.continues_map, List.map_cons]
  | clearFilter => rfl
  | endRun => rfl

/-- Mapping the data of all calls maps the data since the last reset, by induction on the
calls.
-/
theorem sinceReset_map (f : Data → Other) (calls : List (Call Data))
    : sinceReset (calls.map (map f)) = (sinceReset calls).map (FilterCall.map f) := by
  suffices general
    : ∀ earlier : List (FilterCall Data),
        (calls.map (map f)).foldl since (earlier.map (FilterCall.map f))
        = (calls.foldl since earlier).map (FilterCall.map f) by
    exact general []
  induction calls with
  | nil => exact fun _ => rfl
  | cons call calls ih =>
      intro earlier
      rw [List.map_cons, List.foldl_cons, List.foldl_cons, since_map, ih]

end Call

/-- Perform a call. -/
def SmurfFilter.perform {samples : Nat} (self : SmurfFilter samples)
    : Call (Fin samples → Int32) → SmurfFilter samples
  | .filter call => self.filter call.data call.order call.a call.b call.g
  | .clearFilter => self.clearFilter
  | .endRun => self.endRun

/-- Perform a call on a single channel. -/
def Channel.perform (self : Channel) : Call Int32 → Channel
  | .filter call => self.filter call.data call.order call.a call.b call.g
  | .clearFilter => self.clearFilter
  | .endRun => self.endRun

/-- A channel of a filter sees its own part of each call, by the channel lemma of each
method.
-/
theorem SmurfFilter.channel_perform {samples : Nat} (n : Fin samples)
    (self : SmurfFilter samples) (call : Call (Fin samples → Int32))
    : (self.perform call).channel n = (self.channel n).perform (call.map (fun data => data n)) := by
  cases call with
  | filter call => exact channel_filter n self call.data call.order call.a call.b call.g
  | clearFilter => rfl
  | endRun => exact channel_endRun n self

/-- A channel of a filter runs on its own part of the calls. -/
theorem SmurfFilter.channel_run {samples : Nat} (n : Fin samples)
    (self : SmurfFilter samples) (calls : List (Call (Fin samples → Int32)))
    : (calls.foldl perform self).channel n
      = (calls.map (Call.map (fun data => data n))).foldl Channel.perform
          (self.channel n) := by
  rw [List.foldl_map]
  exact (List.foldl_hom (channel n) (fun self call => (channel_perform n self call).symm)).symm

-----------------------------------------------------------------------------------------
-- The taps of one channel
-----------------------------------------------------------------------------------------

namespace Channel

@[simp] theorem setY_x (self : Channel) (value : ℚ) : (self.setY value).x = self.x := rfl
@[simp] theorem setY_slot (self : Channel) (value : ℚ) : (self.setY value).slot = self.slot := rfl
@[simp] theorem setY_y (self : Channel) (value : ℚ)
    : (self.setY value).y = Function.update self.y self.slot value := rfl
theorem setY_setY (self : Channel) (first second : ℚ)
    : (self.setY first).setY second = self.setY second := by
  simp only [setY, slot, Function.update_idem]

/-- The slot `r` records back is the slot behind, since 16 divides `2 ^ 32`. -/
theorem past_eq (self : Channel) (ring : self.records = 16) (inside : self.slot < 16) {r : Nat}
    (less : r < 16)
    : self.past r = behind 16 self.slot r := by
  have size : self.records.toNat = 16 := congrArg UInt32.toNat ring
  rw [past_eq_wrapped self (by omega), size]
  exact (RingHistory.wrapped_eq_behind_iff inside less (by decide)).mpr (Or.inr (by decide))

/-- The sum of the taps of a response, from the rings. -/
def tapSum (self : Channel) (a b : Nat → ℚ) (rs : List Nat) (start : ℚ) : ℚ :=
  rs.foldl
    (fun sum r =>
      sum + (b r * self.x (behind 16 self.slot r) - a r * self.y (behind 16 self.slot r)))
    start

/-- The taps only add to the current slot, since every slot they read is another one. By
induction on the taps.
-/
theorem foldl_tap (a b : Nat → ℚ) (self : Channel) (ring : self.records = 16)
    (inside : self.slot < 16) (rs : List Nat) (bounds : ∀ r ∈ rs, 0 < r ∧ r < 16) (start : ℚ)
    : rs.foldl (tap a b) (self.setY start) = self.setY (self.tapSum a b rs start) := by
  induction rs generalizing start with
  | nil => rfl
  | cons r rs ih =>
      obtain ⟨back, less⟩ := bounds r List.mem_cons_self
      have past : (self.setY start).past r = behind 16 self.slot r :=
        past_eq (self.setY start) ring inside less
      have other : behind 16 self.slot r ≠ self.slot :=
        RingHistory.behind_ne inside back less
      have first
          : (self.setY start).tap a b r
            = self.setY
                (start
                + (b r * self.x (behind 16 self.slot r)
                    - a r * self.y (behind 16 self.slot r))) := by
        simp only [tap, past, setY_setY, setY_x, setY_y, setY_slot, Function.update_self,
          Function.update_of_ne other]
      rw [List.foldl_cons, first, ih (fun r member => bounds r (by simp [member]))]
      rfl

/-- A response only changes the current slot and the output. -/
theorem respond_eq (self : Channel) (ring : self.records = 16) (inside : self.slot < 16)
    {order : Int32} (most : order.toInt ≤ 15) (a b : Nat → ℚ) (g : ℚ)
    : let y := self.tapSum a b (List.range' 1 order.toInt.toNat) (b 0 * self.x self.slot) / a 0
      self.respond order a b g = (self.setY y).setOutput (truncate (y * g)) := by
  have bounds : ∀ r ∈ List.range' 1 order.toInt.toNat, 0 < r ∧ r < 16 := by
    intro r member
    have := List.mem_range'_1.mp member
    omega
  simp only [respond, foldl_tap a b self ring inside _ bounds, setY_setY, setY_y,
    Function.update_self]

/-- The rings hold a history of inputs and outputs. -/
structure Rings (channel : Channel) (inputs outputs : List ℚ) : Prop where
  ring : channel.records = 16
  inside : channel.slot < 16
  inputs : Holds 16 channel.x channel.slot inputs
  outputs : Holds 16 channel.y channel.slot outputs

/-- Filtering one value extends both histories, and the output is the scaled response.
Witness: the rings after the two stores hold the shifted histories, and the loop over the
taps accumulates the recurrence.
-/
theorem rings_respond {self : Channel} {inputs outputs : List ℚ}
    (rings : self.Rings inputs outputs) (value : Int32) {order : Int32}
    (most : order.toInt ≤ 15) (a b : Nat → ℚ) (g : ℚ)
    : let after := (self.advance.store value).clearSlot.respond order a b g
      let y := DifferenceEquation.respond ⟨order.toInt.toNat, a, b⟩ inputs outputs value.toInt
      after.Rings (value.toInt :: inputs) (y :: outputs)
      ∧ after.orderN = self.orderN
      ∧ after.y after.slot = y
      ∧ after.output = truncate (y * g) := by
  generalize storedIs : (self.advance.store value).clearSlot = stored
  intro after y
  have size : self.records.toNat = 16 := congrArg UInt32.toNat rings.ring
  have next : self.advance.slot = (self.slot + 1) % 16 := by
    rw [slot_advance (by rw [size]; exact rings.inside), size]
  have inside : self.advance.slot < 16 := by omega
  have heldInputs := rings.inputs.push rings.inside (value.toInt : ℚ)
  have heldOutputs := rings.outputs.push rings.inside y
  rw [← next] at heldInputs heldOutputs
  have slot : stored.slot = self.advance.slot := by rw [← storedIs]; rfl
  have ring : stored.records = 16 := by rw [← storedIs]; exact rings.ring
  have orderN : stored.orderN = self.orderN := by rw [← storedIs]; rfl
  have x : stored.x = Function.update self.x self.advance.slot (value.toInt : ℚ) := by
    rw [← storedIs]
    rfl
  have cleared : stored.y = Function.update self.y self.advance.slot 0 := by
    rw [← storedIs]
    rfl
  have recurrence
      : stored.tapSum a b (List.range' 1 order.toInt.toNat) (b 0 * stored.x stored.slot) / a 0
        = y := by
    refine Eq.trans (congrArg (· / a 0) ?_)
      (DifferenceEquation.foldl_taps ⟨order.toInt.toNat, a, b⟩ inputs outputs value.toInt)
    rw [tapSum, x, slot, Function.update_self]
    refine List.foldl_ext _ _ _ (fun sum r member => ?_)
    obtain ⟨from_one, below⟩ := List.mem_range'_1.mp member
    have less : r < 16 := by omega
    have other : behind 16 self.advance.slot r ≠ self.advance.slot :=
      RingHistory.behind_ne inside from_one less
    have earlier := heldOutputs r less
    rw [Function.update_of_ne other] at earlier
    rw [heldInputs r less, cleared, Function.update_of_ne other, earlier]
    obtain ⟨before, rfl⟩ := Nat.exists_eq_succ_of_ne_zero (Nat.ne_of_gt from_one)
    rfl
  have responded : after = (stored.setY y).setOutput (truncate (y * g)) := by
    have written := respond_eq stored ring (by omega) most a b g
    simp only [recurrence] at written
    exact written
  have written
      : (stored.setY y).y = Function.update self.y self.advance.slot y := by
    rw [setY_y, cleared, slot, Function.update_idem]
  rw [responded]
  refine ⟨⟨ring, slot ▸ inside, ?_, ?_⟩, orderN, ?_, rfl⟩
  · change Holds 16 stored.x stored.slot _
    rw [x, slot]
    exact heldInputs
  · change Holds 16 (stored.setY y).y stored.slot _
    rw [written, slot]
    exact heldOutputs
  · change (stored.setY y).y stored.slot = y
    rw [setY_y, Function.update_self]

/-- The channel keeps up with the calls since the last reset: the latest of them has the
order in use, and unless that is the marker of a flat average or of a cleared filter, the
rings hold their inputs and responses.
-/
structure Tracks (channel : Channel) (since : List (FilterCall Int32)) : Prop where
  ring : channel.records = 16
  inside : channel.slot < 16
  latest : ∀ call ∈ since.head?, call.order = channel.orderN
  rings
    : channel.orderN ≠ -1
      → channel.Rings (FilterCall.inputs since) (FilterCall.outputs since)

/-- A cleared channel has an empty history. -/
theorem rings_clearFilter {self : Channel} (ring : self.records = 16)
    : self.clearFilter.Rings [] [] where
  ring := ring
  inside := Nat.zero_lt_succ 15
  inputs := RingHistory.holds_nil 16 _
  outputs := RingHistory.holds_nil 16 _

theorem tracks_clearFilter {self : Channel} (ring : self.records = 16)
    : self.clearFilter.Tracks [] where
  ring := ring
  inside := Nat.zero_lt_succ 15
  latest := by simp
  rings marker := absurd rfl marker

theorem tracks_create : (Channel.create 16).Tracks [] :=
  tracks_clearFilter rfl

/-- The filter before a call of another order than -1 takes its value: cleared when the
order changes, and then holding the history the call continues.
-/
theorem Tracks.continues {self : Channel} {since : List (FilterCall Int32)}
    (tracks : self.Tracks since) (call : FilterCall Int32) (forward : call.order ≠ -1)
    : (if self.orderN ≠ call.order then self.clearFilter else self).Rings
        (FilterCall.inputs (call.continues since))
        (FilterCall.outputs (call.continues since)) := by
  by_cases same : self.orderN = call.order
  · have all : call.continues since = since := by
      cases since with
      | nil => rfl
      | cons latest earlier =>
          have order := tracks.latest latest rfl
          simp [FilterCall.continues, order, same]
    rw [if_neg (not_not.mpr same), all]
    exact tracks.rings (same ▸ forward)
  · have none : call.continues since = [] := by
      cases since with
      | nil => rfl
      | cons latest earlier =>
          have order := tracks.latest latest rfl
          simp [FilterCall.continues, order, same]
    rw [if_pos same, none]
    exact rings_clearFilter tracks.ring

/-- A filter call of order at least 0 extends the history and gives the response. -/
theorem Tracks.filter {self : Channel} {since : List (FilterCall Int32)}
    (tracks : self.Tracks since) (call : FilterCall Int32) (admissible : call.Admissible)
    (forward : call.order ≠ -1)
    : let after := self.perform (.filter call)
      let y :=
        DifferenceEquation.respond call.taps (FilterCall.inputs (call.continues since))
          (FilterCall.outputs (call.continues since)) call.data.toInt
      after.Tracks (call :: call.continues since)
      ∧ after.y after.slot = y
      ∧ after.output = truncate (y * call.g) := by
  have rings := tracks.continues call forward
  simp only [perform, Channel.filter, if_neg forward]
  generalize (if self.orderN ≠ call.order then self.clearFilter else self) = cleared at rings ⊢
  have counted
      : { cleared with
          orderN := call.order
          samplesSinceClear := cleared.samplesSinceClear + 1 : Channel }.Rings
          (FilterCall.inputs (call.continues since))
          (FilterCall.outputs (call.continues since)) :=
    ⟨rings.ring, rings.inside, rings.inputs, rings.outputs⟩
  obtain ⟨after, orderN, current, output⟩ :=
    rings_respond counted call.data admissible.most call.a call.b call.g
  refine ⟨⟨after.ring, after.inside, ?_, fun _ => ?_⟩, current, output⟩
  · rintro latest ⟨⟩
    exact orderN.symm
  · rw [FilterCall.outputs_cons]
    exact after

/-- A flat average leaves its marker, and its slot in the ring. -/
theorem Tracks.flat {self : Channel} {since : List (FilterCall Int32)}
    (tracks : self.Tracks since) (call : FilterCall Int32) (flat : call.order = -1)
    : (self.perform (.filter call)).Tracks (call :: call.continues since) := by
  have marked : (self.perform (.filter call)).orderN = -1 := by
    simp only [perform, Channel.filter, if_pos flat]
    exact flat
  refine ⟨?_, ?_, ?_, fun forward => absurd marked forward⟩
  · simp only [perform, Channel.filter, if_pos flat]
    split <;> exact tracks.ring
  · simp only [perform, Channel.filter, if_pos flat]
    split
    · exact Nat.zero_lt_succ 15
    · exact tracks.inside
  · rintro latest ⟨⟩
    rw [marked, flat]

/-- Every admissible call keeps the correspondence. Witness: one case for each method; a
flat average only leaves its marker.
-/
theorem Tracks.perform {self : Channel} {since : List (FilterCall Int32)}
    (tracks : self.Tracks since) {call : Call Int32} (admissible : call.Admissible)
    : (self.perform call).Tracks (Call.since since call) := by
  cases call with
  | filter call =>
      by_cases flat : call.order = -1
      · exact tracks.flat call flat
      · exact (tracks.filter call admissible flat).1
  | clearFilter => exact tracks_clearFilter tracks.ring
  | endRun =>
      simp only [Channel.perform, endRun, Call.since]
      split
      case isTrue marker =>
        refine ⟨tracks.ring, Nat.zero_lt_succ 15, ?_, fun forward => absurd rfl forward⟩
        intro call member
        rw [tracks.latest call member, marker]
        rfl
      case isFalse => exact tracks

/-- A run of admissible calls keeps the correspondence, by induction on the calls. -/
theorem Tracks.run {self : Channel} {since : List (FilterCall Int32)}
    (tracks : self.Tracks since) {calls : List (Call Int32)}
    (admissible : ∀ call ∈ calls, call.Admissible)
    : (calls.foldl Channel.perform self).Tracks (calls.foldl Call.since since) := by
  induction calls generalizing self since with
  | nil => exact tracks
  | cons call calls ih =>
      exact ih (tracks.perform (admissible call List.mem_cons_self))
        (fun later member => admissible later (List.mem_cons_of_mem call member))

end Channel

-----------------------------------------------------------------------------------------
-- The filter
-----------------------------------------------------------------------------------------

namespace SmurfFilter

/-- The output that the difference equation gives channel `n` for a call after earlier ones,
over the calls since the last reset.
-/
def response {samples : Nat} (earlier : List (Call (Fin samples → Int32)))
    (call : FilterCall (Fin samples → Int32)) (n : Fin samples)
    : ℚ :=
  let history :=
    (call.continues (Call.sinceReset earlier)).map (FilterCall.map fun data => data n)
  DifferenceEquation.respond call.taps (FilterCall.inputs history) (FilterCall.outputs history)
    (call.data n).toInt

/-- For every sequence of admissible calls on a filter with 16 records, a filter call of order 0
or more leaves in each channel the response of the difference equation. Witness: the
correspondence of the channel's rings with the history, along the run.
-/
theorem yd_run {samples : Nat} {earlier : List (Call (Fin samples → Int32))}
    {call : FilterCall (Fin samples → Int32)}
    (admissible : ∀ c ∈ earlier ++ [Call.filter call], c.Admissible) (nonneg : 0 ≤ call.order.toInt)
    (n : Fin samples)
    : let self := (earlier ++ [Call.filter call]).foldl perform (create samples 16)
      self.yd (index self.bn n) = response earlier call n := by
  intro self
  have forward : call.order ≠ -1 := by
    intro flat
    rw [flat] at nonneg
    exact absurd nonneg (by decide)
  have calledAt
      : ∀ c ∈ earlier.map (Call.map fun data => data n), c.Admissible := by
    intro c member
    obtain ⟨original, inside, rfl⟩ := List.mem_map.mp member
    exact (Call.admissible_map _ original).mpr (admissible original (by simp [inside]))
  have last : (call.map fun data => data n).Admissible :=
    (Call.admissible_map _ (.filter call)).mpr (admissible (.filter call) (by simp))
  have tracks := Channel.tracks_create.run calledAt
  obtain ⟨-, current, -⟩ := tracks.filter (call.map fun data => data n) last forward
  have seen
      : (call.map fun data => data n).continues
          ((earlier.map (Call.map fun data => data n)).foldl Call.since [])
        = (call.continues (Call.sinceReset earlier)).map (FilterCall.map fun data => data n) := by
    rw [← FilterCall.continues_map, ← Call.sinceReset_map]
    rfl
  have channelIs
      : self.channel n
        = ((earlier.map (Call.map fun data => data n)).foldl Channel.perform
            (Channel.create 16)).perform (.filter (call.map fun data => data n)) := by
    simp only [self, channel_run, List.foldl_append, channel_create]
    rfl
  rw [seen] at current
  exact Eq.trans (congrArg (fun c => c.y c.slot) channelIs) current

end SmurfFilter

end Smurf
