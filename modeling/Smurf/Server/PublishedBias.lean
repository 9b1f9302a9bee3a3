import Smurf.Processor.PublishedHeader
import Smurf.Server.TesBiasRegisters

/-! TES bias values from the registers to the packets.
The server writes the words of the processor's array as registers are reported, and the frame
loop copies all of them at one point of an iteration. So reports and iterations interleave as
whole steps.
-/

namespace Smurf

open ByteMemory Runs

-----------------------------------------------------------------------------------------
-- The words that were sent
-----------------------------------------------------------------------------------------

/-- The difference of two such values is an `int32_t`. -/
def Report.Small (report : Report) : Prop :=
  -2 ^ 30 ≤ report.value ∧ report.value < 2 ^ 30

instance (report : Report) : Decidable report.Small :=
  inferInstanceAs (Decidable (_ ∧ _))

section Sent

variable {reports : List Report}

theorem lastReported_of_small (small : ∀ report ∈ reports, report.Small) (n : Nat)
    : -2 ^ 30 ≤ lastReported n reports ∧ lastReported n reports < 2 ^ 30 := by
  induction reports with
  | nil => simp [lastReported]
  | cons report earlier ih =>
      obtain ⟨here, before⟩ := List.forall_mem_cons.mp small
      rw [lastReported]
      split
      · exact here
      · exact ih before

theorem pairDifference_of_small (small : ∀ report ∈ reports, report.Small) (k : Nat)
    : -2 ^ 31 ≤ pairDifference k reports ∧ pairDifference k reports < 2 ^ 31 := by
  have upper := lastReported_of_small small (2 * k + 2)
  have lower := lastReported_of_small small (2 * k + 1)
  rw [pairDifference]
  omega

/-- What the server set for the reports, the latest first: with each, the word of its pair. -/
def sentWords : List Report → List (Nat × Int32)
  | [] => []
  | report :: earlier =>
      (LocalServer.word report,
          Int32.ofInt (pairDifference (LocalServer.word report) (report :: earlier)))
        :: sentWords earlier

/-- The word last set is that of the values last reported, by induction on the reports: one
changes the difference of its own pair only.
-/
theorem lastSet_sentWords (k : Nat) (reports : List Report)
    : Session.lastSet k (sentWords reports) = Int32.ofInt (pairDifference k reports) := by
  induction reports with
  | nil => rfl
  | cons report earlier ih =>
      rw [sentWords, Session.lastSet]
      split
      case isTrue own => rw [own]
      case isFalse other =>
        have least := report.least
        unfold LocalServer.word at other
        rw [ih, pairDifference, pairDifference, lastReported, lastReported,
          if_neg (by omega), if_neg (by omega)]

end Sent

/-- A word keeps the low 20 bits of the difference. -/
theorem TesBiasArray.toInt_signExtend_ofInt_bmod (value : Int)
    : (signExtend (Int32.ofInt value).toUInt32.toNat).toInt = value.bmod (2 ^ 20) := by
  have same : (Int32.ofInt value).toUInt32.toNat = (value % 2 ^ 32).toNat :=
    BitVec.toNat_ofInt value
  have positive : 0 ≤ value % 2 ^ 32 := Int.emod_nonneg _ (by decide)
  have low : value % 2 ^ 32 % (2 ^ 20 : Nat) = value % (2 ^ 20 : Nat) :=
    Int.emod_emod_of_dvd value (by decide)
  rw [toInt_signExtend, same, Int.toNat_of_nonneg positive, Int.bmod_def, Int.bmod_def,
    low]

-----------------------------------------------------------------------------------------
-- The server and the processor
-----------------------------------------------------------------------------------------

/-- A published packet, and the reports before its iteration copied the words. -/
structure Telemetry where
  packet : Packet
  reports : List Report

/-- The server with the processor whose array it writes, the reports and the packets published,
both with the latest first.
-/
structure Station where
  server : LocalServer
  processor : SmurfProcessor
  reports : List Report
  published : List Telemetry

namespace Station

inductive Event
  | report (report : Report)
  | iterate (arrival : Arrival)

/-- The registers are found when the server is made; nothing was reported. -/
def start (host : Host) (server : LocalServer) (configFile : Option (List String))
    (maskFile : Option (List UInt32))
    : Station where
  server
  processor := SmurfProcessor.create host configFile maskFile
  reports := []
  published := []

def step (host : Host) (station : Station) : Event → Station
  | .report report =>
      { station with
        server := (station.server.sendTestBias report.path report.value).1
        reports := report :: station.reports }
  | .iterate arrival =>
      let copied := { arrival with tesBias := station.server.tesBias }
      let (processor, outcome) := station.processor.iterate host copied
      match outcome.packet? with
      | none => { station with processor }
      | some packet =>
          { station with
            processor
            published := ⟨packet, station.reports⟩ :: station.published }

/-- Reports are small, and frames have a header and all samples, and fit the buffer. -/
def Event.Proper : Event → Prop
  | .report latest => latest.Small
  | .iterate arrival => arrival.frame.Full

end Station

/-- Each word of the packet is the difference of the two values last reported for its registers,
reduced to a signed number of 20 bits.
-/
def Telemetry.CarriesBias (telemetry : Telemetry) : Prop :=
  ∀ k < tesBiasCount,
    ∃ word,
      SmurfPacket.getTESBias telemetry.packet.headerBytes k = .ok word
      ∧ word.toInt = (pairDifference k telemetry.reports).bmod (2 ^ 20)

namespace Station

/-- The server holds the values last reported, its words are those sent for them, and so are
those of the packets.
-/
structure Sound (station : Station) : Prop where
  small : ∀ report ∈ station.reports, report.Small
  values : ∀ i, station.server.tesBiasValue i = lastReported (i.val + 1) station.reports
  words : Session.HoldsLastSet station.server.tesBias (sentWords station.reports)
  published : ∀ telemetry ∈ station.published, telemetry.CarriesBias

theorem sound_start (host : Host) {variableList : List String} {server : LocalServer}
    (created : LocalServer.create variableList = some server)
    (configFile : Option (List String)) (maskFile : Option (List UInt32))
    : Sound (start host server configFile maskFile) := by
  rw [LocalServer.create] at created
  split at created
  case isTrue =>
    obtain rfl := Option.some.inj created
    exact ⟨by simp [start], fun _ => rfl, fun _ _ => field_zeros _, by simp [start]⟩
  case isFalse => exact absurd created (by simp)

/-- The array after a report whose difference is an `int32_t`. -/
theorem tesBias_sendTestBias {server : LocalServer} {report : Report} {difference : Int}
    (pair
      : (server.sendTestBias report.path report.value).1.tesBiasValue
            (LocalServer.element (2 * LocalServer.word report + 1))
          - (server.sendTestBias report.path report.value).1.tesBiasValue
              (LocalServer.element (2 * LocalServer.word report))
        = difference)
    (range : -2 ^ 31 ≤ difference ∧ difference < 2 ^ 31)
    : (server.sendTestBias report.path report.value).1.tesBias
      = TesBiasArray.putWord 0 server.tesBias (LocalServer.word report)
          (Int32.ofInt difference) := by
  have least := report.least
  have most := report.most
  have index : ((report.register : Int) - 1) / 2 = LocalServer.word report := by
    simp only [LocalServer.word]
    omega
  have inside : ¬ tesBiasCount ≤ LocalServer.word report := by
    unfold LocalServer.word tesBiasCount
    omega
  rw [(LocalServer.sendTestBias_report server report).1] at pair
  simp only [LocalServer.sendTestBias, report.registerIndex_path, index]
  rw [if_pos (by omega), pair, LocalServer.setTesBias, if_neg (by omega), Int.toNat_natCast,
    TesBiasArray.setWord, if_neg inside]
  rfl

theorem Sound.report {station : Station} (sound : Sound station) (host : Host) {report : Report}
    (small : report.Small)
    : Sound (step host station (.report report)) := by
  have least := report.least
  have most := report.most
  have each : ∀ other ∈ report :: station.reports, other.Small :=
    List.forall_mem_cons.mpr ⟨small, sound.small⟩
  have values (i : Fin 32)
      : (station.server.sendTestBias report.path report.value).1.tesBiasValue i
        = lastReported (i.val + 1) (report :: station.reports) := by
    rw [(LocalServer.sendTestBias_report station.server report).1, lastReported,
      Function.update_apply, sound.values i]
    have same : i = LocalServer.element (report.register - 1) ↔ report.register = i.val + 1 := by
      rw [Fin.ext_iff, LocalServer.element]
      dsimp only
      omega
    simp only [same]
  have pair
      : (station.server.sendTestBias report.path report.value).1.tesBiasValue
            (LocalServer.element (2 * LocalServer.word report + 1))
          - (station.server.sendTestBias report.path report.value).1.tesBiasValue
              (LocalServer.element (2 * LocalServer.word report))
        = pairDifference (LocalServer.word report) (report :: station.reports) := by
    rw [values, values, pairDifference]
    congr 2
    · simp only [LocalServer.element, LocalServer.word]
      omega
    · simp only [LocalServer.element, LocalServer.word]
      omega
  refine ⟨each, values, ?_, sound.published⟩
  have stored := tesBias_sendTestBias pair (pairDifference_of_small each _)
  show Session.HoldsLastSet (station.server.sendTestBias report.path report.value).1.tesBias _
  rw [stored]
  exact sound.words.putWord _ _

theorem Sound.iterate {station : Station} (sound : Sound station) (host : Host)
    {arrival : Arrival} (full : arrival.frame.Full)
    : Sound (step host station (.iterate arrival)) := by
  have carries {packet : Packet}
      (published
        : (station.processor.iterate host
            { arrival with tesBias := station.server.tesBias }).2.packet? = some packet)
      : Telemetry.CarriesBias ⟨packet, station.reports⟩ := by
    have header :=
      station.processor.headerReplaced_iterate host
        { arrival with tesBias := station.server.tesBias } sound.words full published
    intro k inside
    refine ⟨_, header.tesBias k inside, ?_⟩
    dsimp only
    rw [lastSet_sentWords, TesBiasArray.toInt_signExtend_ofInt_bmod]
  rw [step]
  generalize station.processor.iterate host
    { arrival with tesBias := station.server.tesBias } = after at carries ⊢
  obtain ⟨processor, outcome⟩ := after
  dsimp only at carries ⊢
  cases published : outcome.packet? with
  | none => exact ⟨sound.small, sound.values, sound.words, sound.published⟩
  | some packet =>
      exact
        ⟨sound.small, sound.values, sound.words,
          List.forall_mem_cons.mpr ⟨carries published, sound.published⟩⟩

/-- In every interleaving of register reports and iterations, every packet published carries in
each TES bias word the difference of the values last reported before the words were copied, all
words at one point of the reports. Witness: `Sound` is the invariant.
-/
theorem carriesBias_of_published (host : Host) (variableList : List String)
    (server : LocalServer) (created : LocalServer.create variableList = some server)
    (configFile : Option (List String)) (maskFile : Option (List UInt32)) (events : List Event)
    (proper : ∀ event ∈ events, event.Proper)
    : ∀ telemetry
        ∈ (events.foldl (step host) (start host server configFile maskFile)).published,
        telemetry.CarriesBias := by
  have keep (station : Station) (event : Event) (sound : Sound station) (fits : event.Proper)
      : Sound (step host station event) := by
    cases event with
    | report report => exact sound.report host fits
    | iterate arrival => exact sound.iterate host fits
  have steps
      : EachStep (step host) (fun _ event => event.Proper)
          (start host server configFile maskFile) events :=
    eachStep_iff_forall.mpr proper
  exact (steps.invariant (sound_start host created configFile maskFile) keep).final.published

/-- A packet between the reports of the two registers of a word. -/
theorem carriesBias_of_published_one_frame
    : let events : List Event :=
        [.report (LocalServer.concreteReport 7 (-0x80000) (by decide) (by decide)),
          .iterate (concreteArrival (concreteFrame 0 0 [] 8192)),
          .report (LocalServer.concreteReport 8 0x7FFFF (by decide) (by decide))]
      let ended :=
        events.foldl (step concreteHost)
          (start concreteHost LocalServer.silent (some ["num_averages", "1", "data_frames", "1"])
            none)
      ended.published.length = 1 ∧ ∀ telemetry ∈ ended.published, telemetry.CarriesBias := by
  refine ⟨by decide +kernel, carriesBias_of_published concreteHost
    LocalServer.concreteVariables _ LocalServer.create_concreteVariables _ none _ ?_⟩
  simp only [List.forall_mem_cons]
  exact ⟨(by decide : _ ∧ _), full_concreteFrame rfl, (by decide : _ ∧ _), by simp⟩

end Station

end Smurf
