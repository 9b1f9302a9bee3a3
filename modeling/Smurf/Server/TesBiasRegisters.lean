import Mathlib.Data.Int.Basic
import Smurf.Library.Runs
import Smurf.Packet.TesBias

/-! TES bias values on their way from the registers to the processor's array.
The server listens to 32 registers, of which two make a TES bias word: their difference.
-/

namespace Smurf

open ByteMemory Runs

-----------------------------------------------------------------------------------------
-- The listener
-----------------------------------------------------------------------------------------

/-- The name of a register, up to its number. -/
def registerName : List Char :=
  "TesBiasDacDataRegCh[".toList

/-- The group of `.*TesBiasDacDataRegCh\[(\d+)\]$` in a path that matches. Paths are ASCII, so
the digits are; the text is read from its end, where the pattern leaves no choice.
-/
def testBiasRegEx (path : String) : Option (List Char) :=
  let text := path.toList.reverse
  -- `$` also holds before a newline that ends the text, and `.` is not a newline
  let text := if text.head? = some '\n' then text.tail else text
  match text with
  | ']' :: text =>
      let digits := text.takeWhile Char.isDigit
      let before := text.dropWhile Char.isDigit
      if digits ≠ [] ∧ registerName.reverse <+: before ∧ '\n' ∉ before then
        some digits.reverse
      else none
  | _ => none

/-- The index of the register that a path names. -/
def registerIndex (path : String) : Option Int :=
  (testBiasRegEx path).map fun digits => (Nat.ofDigitChars 10 digits 0 : Int) - 1

inductive PyError
  | overflowError
  | runtimeError (message : String)

/-- The values of the registers, and the TES bias words of the processor. -/
structure LocalServer where
  tesBiasValue : Fin 32 → Int
  tesBias : Bytes

namespace LocalServer

/-- The registers among the variables of a device. -/
def testBiasVars (variableList : List String) : List String :=
  variableList.filter fun name => (registerIndex name).any (· < 32)

/-- Nothing was reported yet. -/
def silent : LocalServer where
  tesBiasValue := fun _ => 0
  tesBias := fun _ => 0

/-- The listener is only assigned when all 32 registers are found. -/
def create (variableList : List String) : Option LocalServer :=
  if (testBiasVars variableList).length = 32 then some silent else none

/-- An element of the list of 32 values; a negative index counts from its end. -/
def element (index : Int) : Fin 32 :=
  ⟨(index % 32).toNat, by omega⟩

/-- The processor's `setTesBias` as Python calls it: the arguments are converted to `size_t`
and `int32_t`.
-/
def setTesBias (tesBias : Bytes) (index value : Int) : Except PyError Bytes :=
  if index < 0 ∨ 2 ^ 64 ≤ index ∨ value < -2 ^ 31 ∨ 2 ^ 31 ≤ value then
    .error .overflowError
  else
    (TesBiasArray.setWord 0 tesBias index.toNat (Int32.ofInt value)).mapError
      PyError.runtimeError

def sendTestBias (self : LocalServer) (path : String) (value : Int)
    : LocalServer × Except PyError Unit :=
  match registerIndex path with
  | some regIndex =>
      if regIndex < 32 then
        let self :=
          { self with
            tesBiasValue := Function.update self.tesBiasValue (element regIndex) value }
        let tesBiasIndex := regIndex / 2
        let tesBiasVal :=
          self.tesBiasValue (element (2 * tesBiasIndex + 1))
          - self.tesBiasValue (element (2 * tesBiasIndex))
        match setTesBias self.tesBias tesBiasIndex tesBiasVal with
        | .ok tesBias => ({ self with tesBias }, .ok ())
        | .error error => (self, .error error)
      else (self, .ok ())
  | none => (self, .ok ())

end LocalServer

-----------------------------------------------------------------------------------------
-- Reports of registers
-----------------------------------------------------------------------------------------

/-- A call of the listener for a register of some node. -/
structure Report where
  node : String
  register : Nat
  value : Int
  oneLine : '\n' ∉ node.toList
  least : 1 ≤ register
  most : register ≤ 32

/-- The name ends in a bracket and is on one line. -/
theorem registerName_reverse
    : ∃ rest, registerName.reverse = '[' :: rest ∧ '\n' ∉ registerName :=
  ⟨registerName.dropLast.reverse, by decide +kernel, by decide +kernel⟩

namespace Report

def path (self : Report) : String :=
  self.node ++ "TesBiasDacDataRegCh[" ++ self.register.repr ++ "]"

/-- The register's index counts from 0. -/
theorem registerIndex_path (self : Report)
    : registerIndex self.path = some ((self.register : Int) - 1) := by
  obtain ⟨rest, name, line⟩ := registerName_reverse
  have digits : ∀ c ∈ (Nat.toDigits 10 self.register).reverse, c.isDigit = true :=
    fun c member =>
      Nat.isDigit_of_mem_toDigits (by decide) (by decide) (List.mem_reverse.mp member)
  have called : "TesBiasDacDataRegCh[".toList = registerName := rfl
  have close : "]".toList = [']'] := by simp
  have text
      : self.path.toList.reverse
        = ']' :: ((Nat.toDigits 10 self.register).reverse
            ++ (registerName.reverse ++ self.node.toList.reverse)) := by
    simp only [path, String.toList_append, Nat.toList_repr, called, close, List.reverse_append,
      List.append_assoc, List.reverse_singleton, List.cons_append, List.nil_append]
  have matched
      : testBiasRegEx self.path = some (Nat.toDigits 10 self.register) := by
    have taken
        : ((Nat.toDigits 10 self.register).reverse
            ++ (registerName.reverse ++ self.node.toList.reverse)).takeWhile Char.isDigit
          = (Nat.toDigits 10 self.register).reverse := by
      rw [List.takeWhile_append_of_pos digits, name]
      simp
    have dropped
        : ((Nat.toDigits 10 self.register).reverse
            ++ (registerName.reverse ++ self.node.toList.reverse)).dropWhile Char.isDigit
          = registerName.reverse ++ self.node.toList.reverse := by
      rw [List.dropWhile_append_of_pos digits, name]
      simp
    rw [testBiasRegEx, text]
    simp only [List.head?_cons, Option.some.injEq, show ¬ (']' = '\n') by decide, if_false,
      taken, dropped]
    rw [if_pos ⟨by simp [Nat.toDigits_ne_nil], List.prefix_append _ _, by
      simp [line, self.oneLine]⟩, List.reverse_reverse]
  rw [registerIndex, matched, Option.map_some, Nat.ofDigitChars_ten_toDigits]

end Report

-----------------------------------------------------------------------------------------
-- What was reported
-----------------------------------------------------------------------------------------

section Reported

variable (n k : Nat) (reports : List Report)

/-- The value last reported for a register, or 0; reports stand with the latest first. -/
def lastReported : List Report → Int
  | [] => 0
  | report :: earlier => if report.register = n then report.value else lastReported earlier

/-- The difference of the two registers of a word. -/
def pairDifference : Int :=
  lastReported (2 * k + 2) reports - lastReported (2 * k + 1) reports

/-- A register of the word was reported. -/
def PairReported : Prop :=
  ∃ report ∈ reports, report.register = 2 * k + 1 ∨ report.register = 2 * k + 2

theorem lastReported_of_forall_ne (never : ∀ report ∈ reports, report.register ≠ n)
    : lastReported n reports = 0 := by
  induction reports with
  | nil => rfl
  | cons report earlier ih =>
      obtain ⟨other, others⟩ := List.forall_mem_cons.mp never
      rw [lastReported, if_neg other]
      exact ih others

theorem pairDifference_of_not_reported {k : Nat} {reports : List Report}
    (unreported : ¬ PairReported k reports)
    : pairDifference k reports = 0 := by
  have never (n : Nat) (own : n = 2 * k + 1 ∨ n = 2 * k + 2)
      : lastReported n reports = 0 :=
    lastReported_of_forall_ne n reports
      (fun report member is => unreported ⟨report, member, is ▸ own⟩)
  rw [pairDifference, never _ (Or.inl rfl), never _ (Or.inr rfl), Int.sub_self]

end Reported

/-- A difference is a signed number of 20 bits. -/
def Fits (difference : Int) : Prop :=
  -2 ^ 19 ≤ difference ∧ difference < 2 ^ 19

instance (difference : Int) : Decidable (Fits difference) :=
  inferInstanceAs (Decidable (_ ∧ _))

-----------------------------------------------------------------------------------------
-- Words as numbers
-----------------------------------------------------------------------------------------

namespace TesBiasArray

theorem toInt_signExtend (word : Nat)
    : (signExtend word).toInt = (word : Int).bmod (2 ^ 20) := by
  rw [signExtend, Int32.toInt_ofBitVec, BitVec.toInt_signExtend_of_le (by decide),
    BitVec.toInt_ofNat']

theorem fits_signExtend (word : Nat) : Fits (signExtend word).toInt := by
  rw [toInt_signExtend]
  exact ⟨Int.le_bmod (by decide), Int.bmod_lt (by decide)⟩

/-- A number of 20 bits comes back from the word it was written to. -/
theorem toInt_signExtend_ofInt {value : Int} (fits : Fits value)
    : (signExtend (Int32.ofInt value).toUInt32.toNat).toInt = value := by
  obtain ⟨least, most⟩ := fits
  have same : (Int32.ofInt value).toUInt32.toNat = (value % 2 ^ 32).toNat :=
    BitVec.toNat_ofInt value
  have positive : 0 ≤ value % 2 ^ 32 := Int.emod_nonneg _ (by decide)
  rw [toInt_signExtend, same, Int.toNat_of_nonneg positive, Int.bmod_def]
  split <;> omega

end TesBiasArray

-----------------------------------------------------------------------------------------
-- Reports that reach the words
-----------------------------------------------------------------------------------------

namespace LocalServer

/-- The words of the processor are the differences of the values last reported. -/
structure Unharmed (state : LocalServer × List Report) : Prop where
  reported
    : ∀ k < tesBiasCount,
        PairReported k state.2
        → ∃ word,
            TesBiasArray.getWord 0 state.1.tesBias k = .ok word
            ∧ word.toInt = pairDifference k state.2
  unreported
    : ∀ k < tesBiasCount,
        ¬ PairReported k state.2
        → TesBiasArray.getWord 0 state.1.tesBias k = .ok 0

/-- The listener is called for a report, which is then the latest. -/
def step (state : LocalServer × List Report) (report : Report) : LocalServer × List Report :=
  ((state.1.sendTestBias report.path report.value).1, report :: state.2)

/-- The word that a report is for. -/
def word (report : Report) : Nat :=
  (report.register - 1) / 2

/-- With a report, the difference of its two registers still fits a word. -/
def PairFits (state : LocalServer × List Report) (report : Report) : Prop :=
  Fits (pairDifference (word report) (report :: state.2))

instance (state : LocalServer × List Report) (report : Report)
    : Decidable (PairFits state report) :=
  inferInstanceAs (Decidable (Fits _))

/-- The server holds the values last reported, and the words their differences. -/
structure Sound (state : LocalServer × List Report) : Prop where
  values : ∀ i, state.1.tesBiasValue i = lastReported (i.val + 1) state.2
  words
    : ∀ k < tesBiasCount,
        (TesBiasArray.signExtend (field state.1.tesBias (TesBiasArray.wordSpan 0 k))).toInt
        = pairDifference k state.2

theorem Sound.unharmed {state : LocalServer × List Report} (sound : Sound state)
    : Unharmed state where
  reported k inside _ := ⟨_, TesBiasArray.getWord_eq 0 _ inside, sound.words k inside⟩
  unreported k inside never := by
    have zero := sound.words k inside
    rw [pairDifference_of_not_reported never] at zero
    rw [TesBiasArray.getWord_eq 0 _ inside,
      Int32.toInt_inj.mp (zero.trans Int32.toInt_zero.symm)]

/-- A report moves the value of its register, and the word of its pair if the difference
fits.
-/
theorem sendTestBias_report (self : LocalServer) (report : Report)
    : let values :=
        Function.update self.tesBiasValue (element (report.register - 1)) report.value
      let difference :=
        values (element (2 * word report + 1)) - values (element (2 * word report))
      (self.sendTestBias report.path report.value).1.tesBiasValue = values
      ∧ (Fits difference
        → (self.sendTestBias report.path report.value).1.tesBias
          = TesBiasArray.putWord 0 self.tesBias (word report) (Int32.ofInt difference)) := by
  have least := report.least
  have most := report.most
  have index : ((report.register : Int) - 1) / 2 = word report := by
    simp only [word]
    omega
  have inside : ¬ tesBiasCount ≤ word report := by
    unfold word tesBiasCount
    omega
  simp only [sendTestBias, report.registerIndex_path, index]
  rw [if_pos (by omega)]
  constructor
  · split <;> rfl
  · intro fits
    obtain ⟨low, high⟩ := fits
    rw [setTesBias, if_neg (by omega), Int.toNat_natCast, TesBiasArray.setWord, if_neg inside]
    rfl

theorem sound_create {variableList : List String} {server : LocalServer}
    (created : create variableList = some server)
    : Sound (server, []) := by
  rw [create] at created
  split at created
  · obtain rfl := Option.some.inj created
    refine ⟨fun _ => rfl, fun k _ => ?_⟩
    have zero : field silent.tesBias (TesBiasArray.wordSpan 0 k) = 0 := field_zeros _
    dsimp only
    rw [zero]
    rfl
  · exact absurd created (by simp)

/-- A report that fits reaches its word, and leaves the other words alone. -/
theorem Sound.step {state : LocalServer × List Report} (sound : Sound state) {report : Report}
    (fits : PairFits state report)
    : Sound (step state report) := by
  obtain ⟨values, tesBias⟩ := sendTestBias_report state.1 report
  have least := report.least
  have most := report.most
  have own (i : Fin 32)
      : Function.update state.1.tesBiasValue (element (report.register - 1)) report.value i
        = lastReported (i.val + 1) (report :: state.2) := by
    rw [lastReported, Function.update_apply, sound.values i]
    have same : i = element (report.register - 1) ↔ report.register = i.val + 1 := by
      rw [Fin.ext_iff, element]
      dsimp only
      omega
    simp only [same]
  have pair (k : Nat) (inside : k < tesBiasCount)
      : lastReported ((element (2 * k + 1)).val + 1) (report :: state.2)
          - lastReported ((element (2 * k)).val + 1) (report :: state.2)
        = pairDifference k (report :: state.2) := by
    unfold tesBiasCount at inside
    rw [pairDifference]
    congr 2
    · simp only [element]
      omega
    · simp only [element]
      omega
  have written : word report < tesBiasCount := by
    unfold word tesBiasCount
    omega
  simp only [own, pair _ written] at tesBias
  have stores :=
    TesBiasArray.stores_putWord 0 state.1.tesBias (word report)
      (Int32.ofInt (pairDifference (word report) (report :: state.2)))
  constructor
  · intro i
    exact (congrFun values i).trans (own i)
  · intro k inside
    dsimp only [LocalServer.step]
    rw [tesBias fits]
    by_cases same : k = word report
    · subst same
      rw [stores.field_self]
      exact (congrArg Int32.toInt (TesBiasArray.signExtend_mod _)).trans
        (TesBiasArray.toInt_signExtend_ofInt fits)
    · have apart
          : (TesBiasArray.wordSpan 0 (word report)).Disjoint (TesBiasArray.wordSpan 0 k) := by
        simp only [Span.Disjoint, TesBiasArray.wordSpan]
        omega
      rw [stores.field_of_disjoint apart, sound.words k inside, pairDifference, pairDifference,
        lastReported, lastReported, if_neg (by unfold word at same; omega),
        if_neg (by unfold word at same; omega)]

/-- A report that does not fit cannot be read back. -/
theorem not_unharmed_step {state : LocalServer × List Report} {report : Report}
    (large : ¬ PairFits state report)
    : ¬ Unharmed (LocalServer.step state report) := by
  intro unharmed
  have least := report.least
  have most := report.most
  have inside : word report < tesBiasCount := by
    unfold word tesBiasCount
    omega
  have own : PairReported (word report) (report :: state.2) := by
    refine ⟨report, List.mem_cons_self, ?_⟩
    unfold word
    omega
  obtain ⟨read, got, exact⟩ := unharmed.reported _ inside own
  rw [TesBiasArray.getWord_eq 0 _ inside] at got
  have fits :=
    TesBiasArray.fits_signExtend
      (field (LocalServer.step state report).1.tesBias (TesBiasArray.wordSpan 0 (word report)))
  rw [Except.ok.inj got, exact] at fits
  exact large fits

/-- For any reports, the words are right after every one of them exactly when after every one
the difference of its pair is a signed number of 20 bits. Witness: `Sound` is the invariant.
-/
theorem unharmed_iff_pairFits (variableList : List String) (server : LocalServer)
    (created : create variableList = some server) (reports : List Report)
    : EachState step Unharmed (server, []) reports
      ↔ EachStep step PairFits (server, []) reports :=
  eachState_iff_eachStep (sound_create created) (fun _ => Sound.unharmed)
    (fun _ _ sound fits => sound.step fits) (fun _ _ _ large => not_unharmed_step large)

/-- The registers of a device with 32 of them. -/
def concreteVariables : List String :=
  (List.range 32).map fun i => "TesBiasDacDataRegCh[" ++ (i + 1).repr ++ "]"

/-- A report of a register under the server's root. -/
def concreteReport (register : Nat) (value : Int) (least : 1 ≤ register)
    (most : register ≤ 32)
    : Report where
  node := "AMCc.FpgaTopLevel.AppTop.AppCore.RtmCryoDet.RtmSpiMax."
  register
  value
  oneLine := by decide +kernel
  least
  most

theorem create_concreteVariables : create concreteVariables = some silent :=
  if_pos (by decide +kernel)

/-- Both registers of a pair at the ends of half their range. -/
theorem unharmed_half_range
    : EachState step Unharmed (silent, [])
        [concreteReport 1 (-0x40000) (by decide) (by decide),
          concreteReport 2 0x3FFFF (by decide) (by decide)] := by
  refine (unharmed_iff_pairFits concreteVariables _ create_concreteVariables _).mpr ?_
  decide +kernel

/-- At the ends of their whole range, the difference takes 21 bits and reads as -1. -/
theorem not_unharmed_full_range
    : create concreteVariables = some silent
      ∧ ¬ EachState step Unharmed (silent, [])
          [concreteReport 1 (-0x80000) (by decide) (by decide),
            concreteReport 2 0x7FFFF (by decide) (by decide)] := by
  refine ⟨create_concreteVariables, fun unharmed => ?_⟩
  exact not_unharmed_step (by decide +kernel) unharmed.final

end LocalServer

end Smurf
