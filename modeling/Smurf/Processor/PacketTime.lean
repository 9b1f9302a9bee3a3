import Smurf.Library.Runs
import Smurf.Processor.Publishing

/-! The time in a published packet.
The time is that of the last check of the clocks. The check made for a packet reads the clock
only when it is not too early, so an early packet carries an older time.
-/

namespace Smurf

open ByteMemory Runs

namespace SmurfProcessor

variable (host : Host) (self : SmurfProcessor) (arrival : Arrival)

/-- Whether the clocks are checked for a frame that ends an average. -/
def started : Bool :=
  self.V.started (self.receive arrival.frame).buffer

/-- What `get_unix_time` returned in an iteration that ends an average; only the check of
the clocks calls it.
-/
def clockReadings : List UInt64 :=
  self.V.clockReadings (self.receive arrival.frame).buffer arrival.unixTime

/-- A packet published in an iteration has a time that the clock gave in it. -/
def CarriesTime : Prop :=
  ∀ packet,
    (self.iterate host arrival).2.packet? = some packet
    → SmurfPacket.getUnixTime packet.headerBytes ∈ self.clockReadings arrival

/-- An iteration that publishes a packet checks the clocks. -/
def ChecksClocks : Prop :=
  self.publishes host arrival → self.started arrival = true

instance : Decidable (self.ChecksClocks host arrival) :=
  inferInstanceAs (Decidable (_ → _))

/-- Where the clocks are checked, the time left is the reading. -/
theorem current_iterate_of_started (publishes : self.publishes host arrival)
    (late : self.started arrival = true)
    : (self.iterate host arrival).1.V.unixTime.current = arrival.unixTime := by
  obtain ⟨inOrder, ends, -⟩ := publishes
  rw [iterate_accepted _ _ _ inOrder]
  have ending : (self.receive arrival.frame).checkOrder.2.averageEnds host arrival := by
    rw [averageEnds_iff, buffer_checkOrder]
    exact ends
  have starting
      : (self.receive arrival.frame).checkOrder.2.V.started
          (self.receive arrival.frame).checkOrder.2.buffer
        = true := by
    rw [buffer_checkOrder]
    exact late
  generalize (self.receive arrival.frame).checkOrder.2 = working at ending starting ⊢
  dsimp only
  rw [accept_of_averageEnds _ _ _ ending, V_finish, V_settled, buffer_settled]
  apply SmurfValidCheck.unixTime_run_of_started
  rw [started_prepare, starting]

theorem carriesTime_iff : self.CarriesTime host arrival ↔ self.ChecksClocks host arrival := by
  constructor
  · intro carries publishes
    obtain ⟨packet, published⟩ :=
      Option.isSome_iff_exists.mp ((isSome_packet_iterate host self arrival).mpr publishes)
    have member := carries packet published
    rw [clockReadings, SmurfValidCheck.clockReadings] at member
    split at member
    · rename_i late
      exact late
    · exact absurd member List.not_mem_nil
  · intro checks packet published
    have publishes :=
      (isSome_packet_iterate host self arrival).mp (by rw [published, Option.isSome_some])
    have late := checks publishes
    rw [getUnixTime_published host self arrival published,
      current_iterate_of_started host self arrival publishes late, clockReadings,
      SmurfValidCheck.clockReadings]
    rw [started] at late
    rw [if_pos late]
    exact List.mem_singleton_self _

/-- In a run on any frames with any clocks in their headers, every packet carries a time of
its own iteration exactly when every iteration that publishes a packet finds the clocks in
its header 30 seconds past the first one, or before it.
-/
theorem carriesTime_iff_checksClocks (configFile : Option (List String))
    (maskFile : Option (List UInt32)) (arrivals : List Arrival)
    : EachStep (fun self arrival => (self.iterate host arrival).1) (CarriesTime host)
        (create host configFile maskFile) arrivals
      ↔ EachStep (fun self arrival => (self.iterate host arrival).1) (ChecksClocks host)
          (create host configFile maskFile) arrivals :=
  EachStep.congr (carriesTime_iff host) _ _

/-- The first packet of a run with averages of one frame carries no time. -/
theorem not_carriesTime_first_packet
    : let arrival := { concreteArrival (concreteFrame 0 0 [] 8192) with unixTime := 1700000000 }
      let created :=
        create concreteHost (some ["num_averages", "1", "data_frames", "1"]) none
      arrival.frame.Full
      ∧ ¬ EachStep (fun self arrival => (self.iterate concreteHost arrival).1)
          (CarriesTime concreteHost) created [arrival] := by
  refine ⟨full_concreteFrame rfl, fun ⟨carries, _⟩ => ?_⟩
  have checks := (carriesTime_iff concreteHost _ _).mp carries
  have early (header : Bytes) : SmurfValidCheck.create.started header = false :=
    SmurfValidCheck.not_started_of_not_init rfl header
  exact Bool.eq_false_iff.mp (early _) (checks (by decide +kernel))

end SmurfProcessor

end Smurf
