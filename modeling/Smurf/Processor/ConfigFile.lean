import Mathlib.Data.List.Induction
import Smurf.Library.KeyedUpdates
import Smurf.Processor.Config

/-! Reading the configuration file, statement by statement.
Two words at a time are scanned into buffers of 100 bytes, a character being a byte; the loop
goes on until a scan meets the end of the file. With words that fit, this reads the pairs.
-/

namespace Smurf

open KeyedUpdates

/-- A word was stored past the end of its buffer. What follows is undefined. -/
inductive BufferOverflow
  | word (length : Nat)
  deriving DecidableEq

namespace SmurfConfig

section Coefficients

-- the conversion of a word to `float`
variable (strtof : String → ℚ)

/-- The loop over the generated names, which ends at the first that is the key. -/
def updateCoefficients (self : SmurfConfig) (key value : String) : List Nat → SmurfConfig
  | n :: rest =>
      if key = "filter_a" ++ toString n then
        { self with filterA := Function.update self.filterA n (strtof value) }
      else if key = "filter_b" ++ toString n then
        { self with filterB := Function.update self.filterB n (strtof value) }
      else updateCoefficients self key value rest
  | [] => self

/-- What the body of the loop does with two words, given by what `strcmp` and the conversions see
of them: fields other than coefficients and gain are only set where they differ.
-/
def update (self : SmurfConfig) (key value : String) : SmurfConfig :=
  let tmp := Int32.ofInt (strtol value)
  if key = "num_averages" then
    if self.numAverages ≠ tmp then { self with numAverages := tmp } else self
  else if key = "data_frames" then
    if self.dataFrames ≠ tmp then { self with dataFrames := tmp } else self
  else if key = "data_file_name" then
    if value ≠ self.dataFileName then { self with dataFileName := value } else self
  else if key = "file_name_extend" then
    if self.fileNameExtend ≠ tmp then { self with fileNameExtend := tmp } else self
  else if key = "filter_order" then
    if self.filterOrder ≠ tmp then { self with filterOrder := tmp } else self
  else if key = "filter_gain" then { self with filterG := strtof value }
  else self.updateCoefficients strtof key value (List.range 16)

theorem updateCoefficients_eq (self : SmurfConfig) (key value : String) (numbers : List Nat)
    : self.updateCoefficients strtof key value numbers
      = match
          numbers.find? fun n =>
            key = "filter_a" ++ toString n || key = "filter_b" ++ toString n with
        | some n =>
            if key = "filter_a" ++ toString n then
              { self with filterA := Function.update self.filterA n (strtof value) }
            else
              { self with filterB := Function.update self.filterB n (strtof value) }
        | none => self := by
  induction numbers with
  | nil => rfl
  | cons n rest ih =>
      rw [updateCoefficients]
      by_cases a : key = "filter_a" ++ toString n
      · rw [List.find?_cons_of_pos (by simp only [a, decide_true, Bool.true_or]), if_pos a]
        exact (if_pos a).symm
      · by_cases b : key = "filter_b" ++ toString n
        · rw [List.find?_cons_of_pos (by simp only [b, decide_true, Bool.or_true]), if_neg a,
            if_pos b]
          exact (if_neg a).symm
        · rw [List.find?_cons_of_neg (by simp only [a, b, decide_false]; decide), if_neg a,
            if_neg b, ih]

/-- Setting a field only where it differs is setting it. -/
theorem set_where_differs {τ σ : Type} [DecidableEq τ] (set : τ → σ) (old new : τ)
    : (if old ≠ new then set new else set old) = set new := by
  split
  · rfl
  · next same => rw [not_not.mp same]

theorem update_eq_assign (self : SmurfConfig) (key value : String)
    : self.update strtof key value = self.assign strtof key value := by
  rw [update, assign, updateCoefficients_eq]
  refine if_congr Iff.rfl ?_ (if_congr Iff.rfl ?_ (if_congr Iff.rfl ?_
    (if_congr Iff.rfl ?_ (if_congr Iff.rfl ?_ rfl))))
  · exact set_where_differs (fun tmp => { self with numAverages := tmp }) _ _
  · exact set_where_differs (fun tmp => { self with dataFrames := tmp }) _ _
  · simp only [@ne_comm _ value]
    exact set_where_differs (fun name => { self with dataFileName := name }) _ _
  · exact set_where_differs (fun tmp => { self with fileNameExtend := tmp }) _ _
  · exact set_where_differs (fun tmp => { self with filterOrder := tmp }) _ _

end Coefficients

end SmurfConfig

/-- The variables of `read_config_file`, and the words left in the file. -/
structure ConfigReader where
  config : SmurfConfig
  words : List String
  n : Int
  key : String
  value : String

namespace ConfigReader

def eof : Int := -1

/-- `fscanf` with `"%s"`: the next word is stored with a zero behind it. At the end of the
file the buffer keeps what it holds.
-/
def fscanf (buffer : String) : List String → Except BufferOverflow (Int × String × List String)
  | [] => .ok (eof, buffer, [])
  | word :: rest =>
      if word.length < 100 then .ok (1, word, rest) else .error (.word word.length)

@[simp] theorem fscanf_nil (buffer : String) : fscanf buffer [] = .ok (eof, buffer, []) :=
  rfl

theorem fscanf_fits (buffer : String) {word : String} (fits : word.length < 100)
    (rest : List String)
    : fscanf buffer (word :: rest) = .ok (1, word, rest) :=
  if_pos fits

theorem fscanf_overflow (buffer : String) {word : String} (long : ¬ word.length < 100)
    (rest : List String)
    : fscanf buffer (word :: rest) = .error (.word word.length) :=
  if_neg long

section Loop

variable (strtof : String → ℚ)

/-- The body of the loop, up to a `continue`. -/
def body (self : ConfigReader) : Except BufferOverflow ConfigReader := do
  let (n, key, words) ← fscanf self.key self.words
  let self := { self with n, key, words }
  if n ≠ 1 then return self
  let (n, value, words) ← fscanf self.value self.words
  let self := { self with n, value, words }
  if n ≠ 1 then return self
  return { self with config := self.config.update strtof (cString self.key) (cString value) }

section Body

variable {self : ConfigReader} {first second : String} {rest : List String}

theorem body_nil (words : self.words = [])
    : self.body strtof = .ok { self with n := eof } := by
  rw [body, words]
  simp only [fscanf_nil, bind, Except.bind]
  rw [← words]
  rfl

theorem body_singleton (words : self.words = [first]) (fits : first.length < 100)
    : self.body strtof = .ok { self with n := eof, key := first, words := [] } := by
  rw [body, words]
  simp only [fscanf_fits _ fits, fscanf_nil, bind, Except.bind]
  rfl

theorem body_pair (words : self.words = first :: second :: rest) (fits : first.length < 100)
    (valueFits : second.length < 100)
    : self.body strtof
      = .ok
        ⟨self.config.update strtof (cString first) (cString second), rest, 1, first, second⟩ := by
  rw [body, words]
  simp only [fscanf_fits _ fits, fscanf_fits _ valueFits, bind, Except.bind]
  rfl

theorem body_key_overflow (words : self.words = first :: rest) (long : ¬ first.length < 100)
    : self.body strtof = .error (.word first.length) := by
  rw [body, words, fscanf_overflow _ long]
  rfl

theorem body_value_overflow (words : self.words = first :: second :: rest)
    (fits : first.length < 100) (long : ¬ second.length < 100)
    : self.body strtof = .error (.word second.length) := by
  rw [body, words]
  simp only [fscanf_fits _ fits, fscanf_overflow _ long, bind, Except.bind]
  rfl

end Body

/-- A body that does not meet the end of the file takes two words from it. -/
theorem body_words {self next : ConfigReader} (done : self.body strtof = .ok next)
    (more : next.n ≠ eof)
    : next.words.length < self.words.length := by
  match words : self.words with
  | [] =>
      rw [body_nil strtof words, Except.ok.injEq] at done
      exact absurd (congrArg n done).symm more
  | [first] =>
      by_cases fits : first.length < 100
      · rw [body_singleton strtof words fits, Except.ok.injEq] at done
        exact absurd (congrArg n done).symm more
      · rw [body_key_overflow strtof words fits] at done
        exact absurd done (by simp)
  | first :: second :: rest =>
      by_cases fits : first.length < 100
      · by_cases valueFits : second.length < 100
        · rw [body_pair strtof words fits valueFits, Except.ok.injEq] at done
          rw [← done, List.length_cons, List.length_cons]
          exact Nat.lt_succ_of_lt (Nat.lt_succ_self _)
        · rw [body_value_overflow strtof words fits valueFits] at done
          exact absurd done (by simp)
      · rw [body_key_overflow strtof words fits] at done
        exact absurd done (by simp)

/-- `do ... while ((n != 0) && (n != EOF))` -/
def loop (self : ConfigReader) : Except BufferOverflow ConfigReader :=
  match _done : self.body strtof with
  | .error overflow => .error overflow
  | .ok next => if _more : next.n ≠ 0 ∧ next.n ≠ eof then next.loop else .ok next
termination_by self.words.length
decreasing_by exact body_words strtof _done _more.2

theorem loop_of_error {self : ConfigReader} {overflow : BufferOverflow}
    (fails : self.body strtof = .error overflow)
    : self.loop strtof = .error overflow := by
  rw [loop]
  split
  · next other failed =>
      rw [failed] at fails
      exact fails
  · next next done => exact absurd (done.symm.trans fails) (by simp)

theorem loop_of_ok {self next : ConfigReader} (done : self.body strtof = .ok next)
    : self.loop strtof
      = if next.n ≠ 0 ∧ next.n ≠ eof then next.loop strtof else .ok next := by
  rw [loop]
  split
  · next overflow failed => exact absurd (done.symm.trans failed) (by simp)
  · next other found =>
      cases (Except.ok.inj (done.symm.trans found))
      split <;> rfl

/-- Where all words fit, the loop ends at the end of the file, with the pairs read into the
configuration, by induction on the words two by two.
-/
theorem loop_of_fits {words : List String} (fits : ∀ word ∈ words, word.length < 100)
    {self : ConfigReader} (left : self.words = words)
    : ∃ last : ConfigReader,
        self.loop strtof = .ok last
        ∧ last.n = eof
        ∧ last.words = []
        ∧ last.config = self.config.readPairs strtof words := by
  induction words using List.twoStepInduction generalizing self with
  | nil =>
      refine ⟨_, loop_of_ok strtof (body_nil strtof left), rfl, left, rfl⟩
  | singleton first =>
      have short := fits first List.mem_cons_self
      exact ⟨_, loop_of_ok strtof (body_singleton strtof left short), rfl, rfl, rfl⟩
  | cons_cons first second rest ih _ =>
      obtain ⟨short, valueShort, others⟩ := by
        simpa only [List.forall_mem_cons] using fits
      obtain ⟨last, ended, n, words, config⟩ :=
        @ih others
          ⟨self.config.update strtof (cString first) (cString second), rest, 1, first, second⟩ rfl
      refine ⟨last, ?_, n, words, ?_⟩
      · rw [loop_of_ok strtof (body_pair strtof left short valueShort)]
        exact ended
      · rw [config, SmurfConfig.update_eq_assign]
        rfl

/-- The loop stops at no other word than one that does not fit, by the same induction. -/
theorem loop_of_long {words : List String} (long : ¬ ∀ word ∈ words, word.length < 100)
    {self : ConfigReader} (left : self.words = words)
    : ∃ overflow, self.loop strtof = .error overflow := by
  induction words using List.twoStepInduction generalizing self with
  | nil => exact absurd (fun _ member => absurd member List.not_mem_nil) long
  | singleton first =>
      have long : ¬ first.length < 100 := by simpa only [List.forall_mem_singleton] using long
      exact ⟨_, loop_of_error strtof (body_key_overflow strtof left long)⟩
  | cons_cons first second rest ih _ =>
      simp only [List.forall_mem_cons, not_and] at long
      by_cases fits : first.length < 100
      · by_cases valueFits : second.length < 100
        · rw [loop_of_ok strtof (body_pair strtof left fits valueFits)]
          exact @ih (long fits valueFits)
            ⟨self.config.update strtof (cString first) (cString second), rest, 1, first,
              second⟩ rfl
        · exact ⟨_, loop_of_error strtof (body_value_overflow strtof left fits valueFits)⟩
      · exact ⟨_, loop_of_error strtof (body_key_overflow strtof left fits)⟩

/-- The variables at the start of the loop; what the buffers hold is not read before a scan. -/
def start (config : SmurfConfig) (words : List String) : ConfigReader :=
  ⟨config, words, 0, "", ""⟩

/-- The configuration left, and the value returned: `none` is the end of the function after
the loop, where it has no `return`.
-/
def readConfigFile (config : SmurfConfig)
    : Option (List String) → Except BufferOverflow (SmurfConfig × Option Bool)
  | some words => do
      let last ← (start config words).loop strtof
      return (last.config, none)
  | none => return (config, some false)

theorem readConfigFile_of_loop {config : SmurfConfig} {words : List String}
    {last : ConfigReader} (ended : (start config words).loop strtof = .ok last)
    : readConfigFile strtof config (some words) = .ok (last.config, none) := by
  rw [readConfigFile, ended]
  rfl

end Loop

end ConfigReader

end Smurf
