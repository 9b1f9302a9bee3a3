import Smurf.Library.Runs
import Smurf.Processor.ConfigPairs

/-! Which configuration files are harmless.
A file is read into the values so far, one file after another. Nothing checks the words:
those that fit the buffers, and values the filter can take, are the harmless ones.
-/

namespace Smurf

open KeyedUpdates
open Runs

namespace SmurfConfig

/-- What the filter needs: at most as many past records as there are beside the current one,
and a coefficient to divide by.
-/
structure FitsFilter (config : SmurfConfig) : Prop where
  least : -1 ≤ config.filterOrder.toInt
  most : config.filterOrder.toInt ≤ 15
  divisor : config.filterA 0 ≠ 0

theorem fitsFilter_defaults : FitsFilter defaults :=
  ⟨by decide, by decide, by decide⟩

section Values

variable (strtof : String → ℚ)

/-- The values in a file that the filter is given fit it. -/
structure ValuesFit (updates : List (String × String)) : Prop where
  least
    : ∀ value ∈ lastValue "filter_order" updates, -1 ≤ (Int32.ofInt (strtol value)).toInt
  most
    : ∀ value ∈ lastValue "filter_order" updates, (Int32.ofInt (strtol value)).toInt ≤ 15
  divisor : ∀ value ∈ lastValue "filter_a0" updates, strtof value ≠ 0

/-- Over values that fit, a file's values fit together with what is left. -/
theorem HoldsLast.fitsFilter_iff {updates : List (String × String)} {prior after : SmurfConfig}
    (holds : HoldsLast strtof updates prior after) (fits : FitsFilter prior)
    : FitsFilter after ↔ ValuesFit strtof updates := by
  have order (P : Int32 → Prop) (met : P prior.filterOrder)
      : P after.filterOrder
        ↔ ∀ value ∈ lastValue "filter_order" updates, P (Int32.ofInt (strtol value)) := by
    rw [holds.filterOrder]
    exact getD_map_iff met _ _
  have least := order (fun n => -1 ≤ n.toInt) fits.least
  have most := order (fun n => n.toInt ≤ 15) fits.most
  have divisor
      : after.filterA 0 ≠ 0 ↔ ∀ value ∈ lastValue "filter_a0" updates, strtof value ≠ 0 := by
    rw [holds.filterA 0 (by decide)]
    exact @getD_map_iff _ _ (· ≠ 0) _ fits.divisor _ _
  exact
    ⟨fun fit => ⟨least.mp fit.least, most.mp fit.most, divisor.mp fit.divisor⟩,
      fun fit => ⟨least.mpr fit.least, most.mpr fit.most, divisor.mpr fit.divisor⟩⟩

end Values

end SmurfConfig

namespace ConfigReader

open SmurfConfig

variable (strtof : String → ℚ)

/-- A configuration while nothing undefined has happened. -/
abbrev Reached : Type :=
  Except BufferOverflow SmurfConfig

/-- The next file is read. -/
def readNext (reached : Reached) (file : Option (List String)) : Reached :=
  reached.bind fun config => (readConfigFile strtof config file).map Prod.fst

/-- No word left its buffer, and the configuration fits the filter. -/
def Reached.Safe (reached : Reached) : Prop :=
  ∃ config, reached = .ok config ∧ FitsFilter config

theorem safe_defaults : Reached.Safe (.ok defaults) :=
  ⟨defaults, rfl, fitsFilter_defaults⟩

/-- The file is read without leaving the buffers, and the configuration then fits the filter. -/
def StaysSafe (reached : Reached) (file : Option (List String)) : Prop :=
  (readNext strtof reached file).Safe

/-- The value returned also says whether the file could be opened. -/
def ReadsSafely (reached : Reached) (file : Option (List String)) : Prop :=
  StaysSafe strtof reached file
  ∧ ∃ config after,
      reached = .ok config
      ∧ readConfigFile strtof config file = .ok (after, some file.isSome)

/-- All words fit their buffers, and the values for the filter fit it. -/
structure Harmless (words : List String) : Prop where
  short : ∀ word ∈ words, word.length ≤ 99
  values : ValuesFit strtof (pairs words)

section Step

variable {config : SmurfConfig} {words : List String}

theorem readNext_of_short (short : ∀ word ∈ words, word.length ≤ 99)
    : readConfigFile strtof config (some words)
        = .ok (config.readConfigFile strtof (some words), none)
      ∧ readNext strtof (.ok config) (some words)
        = .ok (config.readConfigFile strtof (some words)) := by
  obtain ⟨last, _, _, _, same, reads⟩ := readConfigFile_of_short strtof short config
  rw [same] at reads
  refine ⟨reads, ?_⟩
  rw [readNext, Except.bind, reads]
  rfl

theorem readConfigFile_of_long (long : ¬ ∀ word ∈ words, word.length ≤ 99)
    : ∃ overflow,
        readConfigFile strtof config (some words) = .error overflow
        ∧ readNext strtof (.ok config) (some words) = .error overflow := by
  obtain ⟨overflow, stops⟩ :=
    @loop_of_long strtof words (by simpa only [Nat.lt_succ_iff] using long)
      (start config words) rfl
  have reads : readConfigFile strtof config (some words) = .error overflow := by
    rw [readConfigFile, stops]
    rfl
  refine ⟨overflow, reads, ?_⟩
  rw [readNext, Except.bind, reads]
  rfl

/-- Reading a file into values that fit: by cases on whether its words do. -/
theorem staysSafe_iff (fits : FitsFilter config) (file : Option (List String))
    : StaysSafe strtof (.ok config) file ↔ ∀ words ∈ file, Harmless strtof words := by
  cases file with
  | none =>
      exact ⟨fun _ _ member => absurd member (Option.not_mem_none _),
        fun _ => ⟨config, rfl, fits⟩⟩
  | some words =>
      simp only [Option.mem_def, Option.some.injEq, forall_eq']
      by_cases short : ∀ word ∈ words, word.length ≤ 99
      · have values :=
          (holdsLast_readConfigFile strtof config words).fitsFilter_iff strtof fits
        rw [StaysSafe, (readNext_of_short strtof short).2, Reached.Safe]
        constructor
        · rintro ⟨after, reached, fit⟩
          cases reached
          exact ⟨short, values.mp fit⟩
        · exact fun harmless => ⟨_, rfl, values.mpr harmless.values⟩
      · obtain ⟨overflow, _, stops⟩ := @readConfigFile_of_long strtof config words short
        rw [StaysSafe, stops, Reached.Safe]
        constructor
        · rintro ⟨after, reached, _⟩
          cases reached
        · exact fun harmless => absurd harmless.short short

/-- No value is returned for a file that can be opened. -/
theorem readsSafely_iff (fits : FitsFilter config) (file : Option (List String))
    : ReadsSafely strtof (.ok config) file ↔ file = none := by
  cases file with
  | none => exact ⟨fun _ => rfl, fun _ => ⟨⟨config, rfl, fits⟩, config, config, rfl, rfl⟩⟩
  | some words =>
      refine ⟨?_, fun opened => by cases opened⟩
      rintro ⟨_, same, after, reached, returns⟩
      cases reached
      by_cases short : ∀ word ∈ words, word.length ≤ 99
      · rw [(readNext_of_short strtof short).1] at returns
        exact absurd returns (by simp)
      · obtain ⟨overflow, stops, _⟩ := @readConfigFile_of_long strtof config words short
        rw [stops] at returns
        exact absurd returns (by simp)

end Step

/-- Whatever files are read one after another over the defaults: the buffers and the values are
safe exactly when each file is harmless, but a file that can be opened never gives `true`.
Witness: the invariant is a configuration that fits the filter.
-/
theorem staysSafe_iff_harmless (files : List (Option (List String)))
    : (EachStep (readNext strtof) (StaysSafe strtof) (.ok defaults) files
        ↔ ∀ file ∈ files, ∀ words ∈ file, Harmless strtof words)
      ∧ (EachStep (readNext strtof) (ReadsSafely strtof) (.ok defaults) files
        ↔ ∀ file ∈ files, file = none) := by
  constructor
  · refine (EachStep.congr_of_kept ?_ ?_ safe_defaults).trans eachStep_iff_forall
    · exact fun _ _ _ _ safe => safe
    · rintro file - _ ⟨config, rfl, fits⟩
      exact staysSafe_iff strtof fits file
  · refine (EachStep.congr_of_kept ?_ ?_ safe_defaults).trans eachStep_iff_forall
    · exact fun _ _ _ _ safe => safe.1
    · rintro file - _ ⟨config, rfl, fits⟩
      exact readsSafely_iff strtof fits file

/-- An order of 16 gets through to the filter, and 100 characters leave the buffer. -/
theorem not_staysSafe_order_and_length
    : ¬ EachStep (readNext fun _ => 1) (StaysSafe fun _ => 1) (.ok defaults)
          [some ["filter_order", "16"]]
      ∧ ¬ EachStep (readNext fun _ => 1) (StaysSafe fun _ => 1) (.ok defaults)
          [some [String.ofList (List.replicate 100 'x')]]
      ∧ ¬ EachStep (readNext fun _ => 1) (ReadsSafely fun _ => 1) (.ok defaults) [some []] := by
  refine ⟨fun safe => ?_, fun safe => ?_, fun reads => ?_⟩
  · have values := ((staysSafe_iff _ fitsFilter_defaults _).mp safe.1 _ rfl).values
    exact absurd (values.most "16" rfl) (by decide)
  · have short := ((staysSafe_iff _ fitsFilter_defaults _).mp safe.1 _ rfl).short
    exact absurd (short _ List.mem_cons_self) (by decide)
  · exact absurd ((readsSafely_iff _ fitsFilter_defaults _).mp reads.1) (by simp)

end ConfigReader

end Smurf
