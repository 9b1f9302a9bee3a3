import Std.Data.String.ToNat
import Smurf.Processor.ConfigFile

/-! Reading the configuration file is a fold of its pairs.
Each field has one key, and holds what the last pair of that key says.
-/

namespace Smurf

open KeyedUpdates

namespace SmurfConfig

section Names

/-- The keys of the fields that are not coefficients. -/
def fieldNames : List String :=
  ["num_averages", "data_frames", "data_file_name", "file_name_extend", "filter_order",
    "filter_gain"]

/-- The coefficients of past outputs, and those of inputs. -/
inductive Coefficients
  | a
  | b

/-- What the keys of coefficients start with, up to their number. -/
def Coefficients.start : Coefficients → String
  | a => "filter_a"
  | b => "filter_b"

def Coefficients.key (family : Coefficients) (n : Nat) : String :=
  family.start ++ toString n

def coefficient (self : SmurfConfig) : Coefficients → Nat → ℚ
  | .a => self.filterA
  | .b => self.filterB

/-- Where the texts differ in the first characters. -/
theorem ne_append_of_take {name : String} (start rest : String)
    (differs : name.toList.take start.toList.length ≠ start.toList)
    : name ≠ start ++ rest := by
  rintro rfl
  exact differs (by rw [String.toList_append, List.take_left])

theorem key_inj (family : Coefficients) {m n : Nat} : family.key m = family.key n ↔ m = n :=
  (String.append_right_inj _).trans Nat.repr_inj

theorem keyA_ne_keyB (m n : Nat) : Coefficients.a.key m ≠ Coefficients.b.key n := by
  refine ne_append_of_take _ _ ?_
  rw [Coefficients.key, String.toList_append, List.take_append_of_le_length] <;> decide

theorem fieldName_ne_key {name : String} (known : name ∈ fieldNames) (family : Coefficients)
    (n : Nat)
    : name ≠ family.key n := by
  refine ne_append_of_take _ _ ?_
  revert name
  cases family with
  | a => decide
  | b => decide

end Names

section Fields

variable (strtof : String → ℚ) (self : SmurfConfig) (key value : String)

theorem numAverages_assign
    : (self.assign strtof key value).numAverages
      = if key = "num_averages" then Int32.ofInt (strtol value) else self.numAverages := by
  rw [assign]
  grind

theorem dataFrames_assign
    : (self.assign strtof key value).dataFrames
      = if key = "data_frames" then Int32.ofInt (strtol value) else self.dataFrames := by
  rw [assign]
  grind

theorem dataFileName_assign
    : (self.assign strtof key value).dataFileName
      = if key = "data_file_name" then value else self.dataFileName := by
  rw [assign]
  grind

theorem fileNameExtend_assign
    : (self.assign strtof key value).fileNameExtend
      = if key = "file_name_extend" then Int32.ofInt (strtol value) else self.fileNameExtend := by
  rw [assign]
  grind

theorem filterOrder_assign
    : (self.assign strtof key value).filterOrder
      = if key = "filter_order" then Int32.ofInt (strtol value) else self.filterOrder := by
  rw [assign]
  grind

theorem filterG_assign
    : (self.assign strtof key value).filterG
      = if key = "filter_gain" then strtof value else self.filterG := by
  rw [assign]
  grind

end Fields

section OneCoefficient

variable (strtof : String → ℚ) (self : SmurfConfig) {key : String} (value : String)
  (family : Coefficients)

/-- The loop sets the coefficient that the key names, if there is one among the numbers. -/
theorem coefficient_updateCoefficients (numbers : List Nat) (n : Nat)
    : (self.updateCoefficients strtof key value numbers).coefficient family n
      = if n ∈ numbers ∧ key = family.key n then strtof value
        else self.coefficient family n := by
  induction numbers with
  | nil => cases family <;> rfl
  | cons m rest ih =>
      have own
          : n = m ↔ n ∈ m :: rest ∧ family.key m = family.key n := by
        rw [key_inj]
        exact ⟨fun same => ⟨same ▸ List.mem_cons_self, same.symm⟩, fun both => both.2.symm⟩
      rw [updateCoefficients]
      split
      · next named =>
          obtain rfl : key = Coefficients.a.key m := named
          cases family with
          | a => exact (Function.update_apply ..).trans (if_congr own rfl rfl)
          | b => exact (if_neg (fun both => keyA_ne_keyB m n both.2)).symm
      · next notA =>
          split
          · next named =>
              obtain rfl : key = Coefficients.b.key m := named
              cases family with
              | a => exact (if_neg (fun both => keyA_ne_keyB n m both.2.symm)).symm
              | b => exact (Function.update_apply ..).trans (if_congr own rfl rfl)
          · next notB =>
              have later
                  : n ∈ m :: rest ∧ key = family.key n ↔ n ∈ rest ∧ key = family.key n := by
                refine and_congr_left (fun named => List.mem_cons.trans (or_iff_right ?_))
                rintro rfl
                cases family with
                | a => exact notA named
                | b => exact notB named
              rw [ih, if_congr later rfl rfl]

theorem coefficient_update_of_fieldName (known : key ∈ fieldNames)
    : (self.update strtof key value).coefficient family = self.coefficient family := by
  simp only [fieldNames, List.mem_cons, List.not_mem_nil, or_false] at known
  cases family <;> rcases known with rfl | rfl | rfl | rfl | rfl | rfl <;>
    simp [update, coefficient] <;> split <;> simp

theorem update_of_no_fieldName (unknown : key ∉ fieldNames)
    : self.update strtof key value
      = self.updateCoefficients strtof key value (List.range 16) := by
  simp only [fieldNames, List.mem_cons, List.not_mem_nil, or_false, not_or] at unknown
  obtain ⟨averages, frames, name, extend, order, gain⟩ := unknown
  rw [update, if_neg averages, if_neg frames, if_neg name, if_neg extend, if_neg order,
    if_neg gain]

theorem coefficient_assign (n : Nat)
    : (self.assign strtof key value).coefficient family n
      = if n < 16 ∧ key = family.key n then strtof value else self.coefficient family n := by
  rw [← update_eq_assign]
  by_cases known : key ∈ fieldNames
  · rw [coefficient_update_of_fieldName strtof self value family known,
      if_neg (fun both => fieldName_ne_key known family n both.2)]
  · rw [update_of_no_fieldName strtof self value known, coefficient_updateCoefficients]
    simp only [List.mem_range]

theorem coefficient_assign_of_lt {n : Nat} (less : n < 16)
    : (self.assign strtof key value).coefficient family n
      = if key = family.key n then strtof value else self.coefficient family n :=
  (coefficient_assign strtof self value family n).trans (if_congr (and_iff_right less) rfl rfl)

end OneCoefficient

section Pairs

variable (strtof : String → ℚ)

/-- The words two by two from the start, each up to its first zero; a last word without a partner
is dropped.
-/
def pairs : List String → List (String × String)
  | key :: value :: rest => (cString key, cString value) :: pairs rest
  | _ => []

/-- One pair of the file. -/
def assignPair (self : SmurfConfig) (pair : String × String) : SmurfConfig :=
  self.assign strtof pair.1 pair.2

theorem readPairs_eq_foldl (self : SmurfConfig) (words : List String)
    : self.readPairs strtof words = (pairs words).foldl (assignPair strtof) self := by
  induction words using List.twoStepInduction generalizing self with
  | nil => rfl
  | singleton => rfl
  | cons_cons key value rest ih _ =>
      rw [readPairs, pairs, List.foldl_cons, ih]
      rfl

/-- Every field holds the conversion of the value of the last pair of its key, and its prior
value where there is no such pair.
-/
structure HoldsLast (updates : List (String × String)) (prior after : SmurfConfig) : Prop where
  numAverages
    : after.numAverages
      = ((lastValue "num_averages" updates).map fun value => Int32.ofInt (strtol value)).getD
          prior.numAverages
  dataFrames
    : after.dataFrames
      = ((lastValue "data_frames" updates).map fun value => Int32.ofInt (strtol value)).getD
          prior.dataFrames
  dataFileName : after.dataFileName = (lastValue "data_file_name" updates).getD prior.dataFileName
  fileNameExtend
    : after.fileNameExtend
      = ((lastValue "file_name_extend" updates).map fun value =>
          Int32.ofInt (strtol value)).getD prior.fileNameExtend
  filterOrder
    : after.filterOrder
      = ((lastValue "filter_order" updates).map fun value => Int32.ofInt (strtol value)).getD
          prior.filterOrder
  filterG : after.filterG = ((lastValue "filter_gain" updates).map strtof).getD prior.filterG
  filterA
    : ∀ n < 16,
        after.filterA n
        = ((lastValue ("filter_a" ++ toString n) updates).map strtof).getD (prior.filterA n)
  filterB
    : ∀ n < 16,
        after.filterB n
        = ((lastValue ("filter_b" ++ toString n) updates).map strtof).getD (prior.filterB n)

theorem holdsLast_foldl (prior : SmurfConfig) (updates : List (String × String))
    : HoldsLast strtof updates prior (updates.foldl (assignPair strtof) prior) where
  numAverages :=
    field_foldl numAverages (fun self pair => numAverages_assign strtof self pair.1 pair.2) _ _
  dataFrames :=
    field_foldl dataFrames (fun self pair => dataFrames_assign strtof self pair.1 pair.2) _ _
  dataFileName :=
    (field_foldl dataFileName (fun self pair => dataFileName_assign strtof self pair.1 pair.2)
      _ _).trans (by rw [Option.map_id'])
  fileNameExtend :=
    field_foldl fileNameExtend
      (fun self pair => fileNameExtend_assign strtof self pair.1 pair.2) _ _
  filterOrder :=
    field_foldl filterOrder (fun self pair => filterOrder_assign strtof self pair.1 pair.2) _ _
  filterG := field_foldl filterG (fun self pair => filterG_assign strtof self pair.1 pair.2) _ _
  filterA n less :=
    field_foldl (fun self => self.coefficient .a n)
      (fun self pair => coefficient_assign_of_lt strtof self pair.2 .a less) _ _
  filterB n less :=
    field_foldl (fun self => self.coefficient .b n)
      (fun self pair => coefficient_assign_of_lt strtof self pair.2 .b less) _ _

/-- There are 16 coefficients of each kind. -/
theorem coefficient_foldl_of_le (self : SmurfConfig) (updates : List (String × String))
    (family : Coefficients) {n : Nat} (beyond : 16 ≤ n)
    : (updates.foldl (assignPair strtof) self).coefficient family n
      = self.coefficient family n :=
  field_foldl_of_kept (fun self => self.coefficient family n)
    (fun self pair =>
      (coefficient_assign strtof self pair.2 family n).trans
        (if_neg (fun both => beyond.not_gt both.1))) _ _

/-- What the last pairs say already, they say again. -/
theorem HoldsLast.again {updates : List (String × String)} {prior self other : SmurfConfig}
    (first : HoldsLast strtof updates prior self) (second : HoldsLast strtof updates self other)
    (beyond
      : ∀ family n, 16 ≤ n → other.coefficient family n = self.coefficient family n)
    : other = self := by
  have twice {α : Type} (value : Option α) (field : α)
      : value.getD (value.getD field) = value.getD field := by
    cases value <;> rfl
  ext1
  · rw [second.numAverages, first.numAverages, twice]
  · rw [second.dataFileName, first.dataFileName, twice]
  · rw [second.fileNameExtend, first.fileNameExtend, twice]
  · rw [second.dataFrames, first.dataFrames, twice]
  · rw [second.filterOrder, first.filterOrder, twice]
  · rw [second.filterG, first.filterG, twice]
  · funext n
    rcases Nat.lt_or_ge n 16 with less | rest
    · rw [second.filterA n less, first.filterA n less, twice]
    · exact beyond .a n rest
  · funext n
    rcases Nat.lt_or_ge n 16 with less | rest
    · rw [second.filterB n less, first.filterB n less, twice]
    · exact beyond .b n rest

theorem holdsLast_readConfigFile (prior : SmurfConfig) (words : List String)
    : HoldsLast strtof (pairs words) prior (prior.readConfigFile strtof (some words)) := by
  rw [SmurfConfig.readConfigFile, readPairs_eq_foldl]
  exact holdsLast_foldl strtof prior (pairs words)

/-- Reading the same words again changes nothing. -/
theorem readConfigFile_again (prior : SmurfConfig) (words : List String)
    : (prior.readConfigFile strtof (some words)).readConfigFile strtof (some words)
      = prior.readConfigFile strtof (some words) := by
  refine HoldsLast.again strtof (holdsLast_readConfigFile strtof prior words)
    (holdsLast_readConfigFile strtof _ words) (fun family _ rest => ?_)
  rw [SmurfConfig.readConfigFile, readPairs_eq_foldl]
  exact coefficient_foldl_of_le strtof _ _ family rest

end Pairs

end SmurfConfig

namespace ConfigReader

open SmurfConfig

variable (strtof : String → ℚ)

/-- Words of at most 99 characters and a zero fit the buffers, and are read as the frame loop has
it.
-/
theorem readConfigFile_of_short {words : List String}
    (short : ∀ word ∈ words, word.length ≤ 99) (prior : SmurfConfig)
    : ∃ last : ConfigReader,
        (start prior words).loop strtof = .ok last
        ∧ last.n = eof
        ∧ last.words = []
        ∧ last.config = prior.readConfigFile strtof (some words)
        ∧ readConfigFile strtof prior (some words) = .ok (last.config, none) := by
  obtain ⟨last, ended, n, left, config⟩ :=
    @loop_of_fits strtof words (fun word member => Nat.lt_succ_of_le (short word member))
      (start prior words) rfl
  exact ⟨last, ended, n, left, config, readConfigFile_of_loop strtof ended⟩

/-- Where no word is longer than 99 characters, the loop ends at the end of the file with no word
left, each field holding what the last of the pairs of its key says, and reading the same
content again changes no field.
-/
theorem readConfigFile_holdsLast {words : List String} (short : ∀ word ∈ words, word.length ≤ 99)
    (prior : SmurfConfig)
    : ∃ last : ConfigReader,
        (start prior words).loop strtof = .ok last
        ∧ last.n = eof
        ∧ last.words = []
        ∧ readConfigFile strtof prior (some words) = .ok (last.config, none)
        ∧ HoldsLast strtof (pairs words) prior last.config
        ∧ readConfigFile strtof last.config (some words) = .ok (last.config, none) := by
  obtain ⟨last, ended, n, left, config, reads⟩ := readConfigFile_of_short strtof short prior
  refine ⟨last, ended, n, left, reads, ?_, ?_⟩
  · rw [config]
    exact holdsLast_readConfigFile strtof prior words
  · obtain ⟨again, _, _, _, same, readsAgain⟩ :=
      readConfigFile_of_short strtof short last.config
    rw [readsAgain, same, config, readConfigFile_again]

/-- A file with a key given twice, an unknown one, and a last word without a value. -/
theorem readConfigFile_holdsLast_seven_words
    : let words := ["filter_order", "3", "port", "3334", "filter_order", "2", "filter_a0"]
      ∃ last : ConfigReader,
        (start defaults words).loop (fun _ => 0) = .ok last
        ∧ last.n = eof
        ∧ last.words = []
        ∧ readConfigFile (fun _ => 0) defaults (some words) = .ok (last.config, none)
        ∧ HoldsLast (fun _ => 0) (pairs words) defaults last.config
        ∧ readConfigFile (fun _ => 0) last.config (some words) = .ok (last.config, none) :=
  readConfigFile_holdsLast (fun _ => 0) (by decide) defaults

end ConfigReader

end Smurf
