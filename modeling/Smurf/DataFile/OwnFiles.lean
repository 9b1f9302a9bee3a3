import Mathlib.Data.List.Induction
import Smurf.DataFile.Basic
import Smurf.Library.Chunks

/-! Opening the next file removes a file of that name first.
With a suffix, the names repeat after 99999 parts; without one, with every file.
-/

namespace Smurf

open Chunks Runs SmurfDataFile

/-- The name of the file that is open, and the names of those that packets were written to.
-/
structure OwnFiles where
  current : Option String
  names : List String

def OwnFiles.none : OwnFiles where
  current := .none
  names := []

/-- A file that could not be opened takes no packets. -/
def OwnFiles.after (self : OwnFiles) : Action → OwnFiles
  | .unlink _ => self
  | .openFile filename result =>
      { self with current := if 0 ≤ result then some filename else Option.none }
  | .writeToFile _ _ => { self with names := self.current.toList ++ self.names }
  | .close _ => { self with current := Option.none }

def Action.unlinked? : Action → Option String
  | .unlink filename => some filename
  | _ => none

/-- The number of files until a name repeats. -/
def SmurfConfig.nameCount (config : SmurfConfig) : Nat :=
  if config.fileNameExtend ≠ 0 then 99999 else 1

/-- The number of packets recorded after one more, for which `open` would return `opened`. A
descriptor of 0 for a new file counts as a failure, and the packet is dropped.
-/
def recordOne (perFile count : Nat) (opened : Int32) : Nat :=
  if count % perFile = 0 ∧ opened = 0 then count else count + 1

def recorded (perFile : Nat) (opened : List Int32) : Nat :=
  opened.foldl (recordOne perFile) 0

theorem recordOne_bounds (perFile count : Nat) (opened : Int32)
    : count ≤ recordOne perFile count opened ∧ recordOne perFile count opened ≤ count + 1 := by
  rw [recordOne]
  split <;> omega

namespace Recorder

def ownFiles (recorder : Recorder) : OwnFiles :=
  recorder.observe OwnFiles.after .none

/-- A call removes no file that packets were written to. -/
def KeepsOwnFiles (recorder : Recorder) (call : WriteCall) : Prop :=
  ∀ filename ∈ (recorder.asks call).filterMap Action.unlinked?,
    filename ∉ recorder.ownFiles.names

instance (recorder : Recorder) (call : WriteCall) : Decidable (recorder.KeepsOwnFiles call) :=
  inferInstanceAs (Decidable (∀ filename ∈ _, _))

/-- What holds when `count` packets have been recorded since the file of part `first` was
begun. The number of files is not bounded here: their parts are taken modulo 99999.
-/
structure Recorded (config : SmurfConfig) (first count : Nat) (recorder : Recorder) : Prop where
  part : recorder.file.part = Int32.ofNat ((first + count / config.perFile) % 99999)
  counter : recorder.file.frameCounter.toNat = count % config.perFile
  closed : count % config.perFile = 0 → recorder.file.fd = 0
  isOpen
    : count % config.perFile ≠ 0
      → recorder.file.fd ≠ 0
        ∧ recorder.file.filename = nextName config recorder.file.part
        ∧ recorder.ownFiles.current = some (nextName config recorder.file.part)
  names
    : ∀ name,
        name ∈ recorder.ownFiles.names
        ↔ ∃ k,
            k * config.perFile < count
            ∧ name = nextName config (Int32.ofNat ((first + k) % 99999))

variable {config : SmurfConfig} {first count : Nat} {recorder : Recorder} {call : WriteCall}

/-- The file stays open within a part. -/
theorem Recorded.opens_eq (state : Recorded config first count recorder)
    : recorder.file.opens config = decide (count % config.perFile = 0) := by
  by_cases begins : count % config.perFile = 0
  · simp [SmurfDataFile.opens, state.closed begins, begins]
  · obtain ⟨fd, name, -⟩ := state.isOpen begins
    have same : recorder.file.nameChanged config = false := by
      rw [nameChanged, name, nextName]
      by_cases extend : config.fileNameExtend = 0 <;> simp [extend]
    simp [SmurfDataFile.opens, fd, same, begins]

/-- The files begun up to one more packet. -/
theorem begun_succ {perFile count k : Nat} (positive : 0 < perFile)
    : k * perFile < count + 1 ↔ k = count / perFile ∨ k * perFile < count := by
  have upto : k * perFile < count + 1 ↔ k ≤ count / perFile := by
    rw [Nat.le_div_iff_mul_le positive]
    omega
  have before : k < count / perFile → k * perFile < count := by
    intro less
    have := (Nat.le_div_iff_mul_le positive).mp less
    rw [Nat.succ_mul] at this
    omega
  rw [upto]
  constructor
  · intro le
    rcases Nat.lt_or_eq_of_le le with less | same
    · exact Or.inr (before less)
    · exact Or.inl same
  · rintro (same | less)
    · exact same.le
    · rw [Nat.le_div_iff_mul_le positive]
      omega

/-- A file of the part that the next packet belongs to, open and known as the own one. -/
structure AtPart (config : SmurfConfig) (first count : Nat) (file : SmurfDataFile)
    (own : OwnFiles) : Prop where
  part : file.part = Int32.ofNat ((first + count / config.perFile) % 99999)
  counter : file.frameCounter.toNat = count % config.perFile
  isOpen : file.fd ≠ 0
  filename : file.filename = nextName config file.part
  current : own.current = some (nextName config file.part)
  names
    : ∀ name,
        name ∈ own.names
        ↔ ∃ k,
            k * config.perFile < count
            ∧ name = nextName config (Int32.ofNat ((first + k) % 99999))

section AtPart

variable {file : SmurfDataFile} {own : OwnFiles}

/-- The files written to, once a packet is written to this one. -/
theorem AtPart.written (state : AtPart config first count file own)
    (positive : 0 < config.dataFrames.toInt) (packet : Packet) (name : String)
    : name ∈ (own.after (.writeToFile file.fd packet)).names
      ↔ ∃ k,
          k * config.perFile < count + 1
          ∧ name = nextName config (Int32.ofNat ((first + k) % 99999)) := by
  simp only [OwnFiles.after, state.current, Option.toList_some, List.singleton_append,
    List.mem_cons, state.names, begun_succ (perFile_pos positive), or_and_right, exists_or,
    exists_eq_left, state.part]

/-- A packet written and counted: by cases on whether the file is complete then. -/
theorem AtPart.counted (state : AtPart config first count file own)
    (positive : 0 < config.dataFrames.toInt) (packet : Packet) {after : Recorder}
    (left : after.file = (file.countFrame config).2)
    (noted
      : after.ownFiles
        = (Action.writeToFile file.fd packet :: (file.countFrame config).1).foldl
            OwnFiles.after own)
    : Recorded config first (count + 1) after := by
  have nonempty := perFile_pos positive
  have written := state.written positive packet
  rw [List.foldl_cons] at noted
  rcases countFrame_cases positive state.counter
      ((Nat.mod_lt _ nonempty).trans (perFile_lt _)) with
    ⟨last, counts⟩ | ⟨more, counted, counts⟩
  · obtain ⟨next, begins⟩ := succ_div_mod_of_last nonempty last
    have closes : file.closeFile.1 = [.close file.fd] := if_pos state.isOpen
    rw [counts] at left noted
    rw [closes, List.foldl_cons, List.foldl_nil] at noted
    constructor
    · rw [left, next]
      show (file.part + 1) % 99999 = _
      rw [state.part, next_part (Nat.mod_lt _ (by decide)), Nat.mod_add_mod, Nat.add_assoc]
    · rw [left, begins]
      rfl
    · intro _
      rw [left]
    · rw [begins]
      exact fun none => absurd rfl none
    · intro name
      rw [noted]
      exact written name
  · obtain ⟨next, further⟩ := succ_div_mod_of_not_last nonempty more
    rw [counts] at left noted
    constructor
    · rw [left, next]
      exact state.part
    · rw [left, further]
      exact counted
    · rw [further]
      exact fun none => absurd none (Nat.succ_ne_zero _)
    · intro _
      rw [left, noted]
      exact ⟨state.isOpen, state.filename, state.current⟩
    · intro name
      rw [noted]
      exact written name

end AtPart

/-- An enabled packet: by cases on whether a file has to be opened, and whether that gives
a descriptor other than 0.
-/
theorem Recorded.step (state : Recorded config first count recorder)
    (positive : 0 < config.dataFrames.toInt) (enabled : call.Enabled)
    (same : call.config = config) (opened : 0 ≤ call.opened)
    : Recorded config first (recordOne config.perFile count call.opened)
        (recorder.step call) := by
  have opens := state.opens_eq
  by_cases begins : count % config.perFile = 0
  · rw [decide_eq_true begins] at opens
    have fd := state.closed begins
    have closes : recorder.file.closeFile.1 = [] := if_neg (not_not.mpr fd)
    by_cases zero : call.opened = 0
    · have wrote := writeFile_unopened call.packet enabled opens zero
      rw [closes, List.nil_append] at wrote
      have left : (recorder.step call).file = recorder.file.openNext config call.opened := by
        rw [Recorder.step, same, wrote]
      rw [recordOne, if_pos ⟨begins, zero⟩]
      constructor
      · rw [left]
        exact state.part
      · rw [left]
        exact state.counter
      · intro _
        rw [left]
        exact toUInt32_eq_zero_iff.mpr zero
      · exact fun inside => absurd begins inside
      · intro name
        rw [ownFiles, observe_step, asks, same, wrote]
        exact state.names name
    · have wrote := writeFile_opens call.packet enabled opens zero
      rw [closes, List.nil_append] at wrote
      rw [recordOne, if_neg (fun both => zero both.2)]
      have next
          : AtPart config first count (recorder.file.openNext config call.opened)
              { recorder.ownFiles with current := some (nextName config recorder.file.part) } :=
        ⟨state.part, state.counter, mt toUInt32_eq_zero_iff.mp zero, rfl, rfl, state.names⟩
      refine next.counted positive call.packet (by rw [Recorder.step, same, wrote]) ?_
      rw [ownFiles, observe_step, asks, same, wrote]
      simp only [List.cons_append, List.nil_append, List.foldl_cons, OwnFiles.after,
        if_pos opened]
      rfl
  · rw [decide_eq_false begins] at opens
    obtain ⟨fd, filename, current⟩ := state.isOpen begins
    have wrote := writeFile_appends call.packet call.opened enabled opens
    rw [recordOne, if_neg (fun both => begins both.1)]
    have here : AtPart config first count recorder.file recorder.ownFiles :=
      ⟨state.part, state.counter, fd, filename, current, state.names⟩
    refine here.counted positive call.packet (by rw [Recorder.step, same, wrote]) ?_
    rw [ownFiles, observe_step, asks, same, wrote]
    rfl

/-- A call removes the file of the next part when it has to open one. -/
theorem unlinked_asks (enabled : call.Enabled)
    : (recorder.asks call).filterMap Action.unlinked?
      = if recorder.file.opens call.config then [nextName call.config recorder.file.part]
        else [] := by
  have closing (file : SmurfDataFile)
      : file.closeFile.1.filterMap Action.unlinked? = [] := by
    rw [closeFile]
    split <;> rfl
  have counting (file : SmurfDataFile)
      : (file.countFrame call.config).1.filterMap Action.unlinked? = [] := by
    rw [countFrame]
    split
    · exact closing _
    · rfl
  by_cases opens : recorder.file.opens call.config = true
  · rw [if_pos opens, asks]
    by_cases zero : call.opened = 0
    · rw [writeFile_unopened _ enabled opens zero]
      simp only [List.filterMap_append, closing]
      rfl
    · rw [writeFile_opens _ enabled opens zero]
      simp only [List.filterMap_append, List.filterMap_cons, closing, counting]
      rfl
  · rw [if_neg opens, asks, writeFile_appends _ _ enabled (Bool.eq_false_iff.mpr opens)]
    exact counting _

/-- Among the first `nameCount` files, a next one repeats no name; the one behind them does. -/
theorem nextName_new_iff (first : Nat) {n : Nat} (most : n ≤ config.nameCount)
    : (∀ k < n,
        nextName config (Int32.ofNat ((first + n) % 99999))
        ≠ nextName config (Int32.ofNat ((first + k) % 99999)))
      ↔ n < config.nameCount := by
  rw [SmurfConfig.nameCount] at most ⊢
  by_cases extend : config.fileNameExtend ≠ 0
  · rw [if_pos extend] at most ⊢
    constructor
    · intro fresh
      refine Nat.lt_of_le_of_ne most (fun all => fresh 0 (by omega) ?_)
      rw [all, Nat.add_mod_right, Nat.add_zero]
    · intro fewer k less same
      have parts := congrArg Int32.toInt (nextName_injective extend same)
      rw [Int32.toInt_ofNat_of_lt (by omega), Int32.toInt_ofNat_of_lt (by omega)] at parts
      omega
  · rw [if_neg extend] at most ⊢
    constructor
    · intro fresh
      refine Nat.lt_of_le_of_ne most (fun all => fresh 0 (by omega) ?_)
      rw [nextName, nextName, if_neg extend, if_neg extend]
    · intro fewer k less
      omega

/-- A packet that begins a file removes none where this has a new name. -/
theorem Recorded.removesNone_iff (state : Recorded config first count recorder)
    (positive : 0 < config.dataFrames.toInt) (enabled : call.Enabled)
    (same : call.config = config) (upto : count ≤ config.nameCount * config.perFile)
    : recorder.KeepsOwnFiles call ↔ count < config.nameCount * config.perFile := by
  have nonempty := perFile_pos positive
  rw [KeepsOwnFiles, unlinked_asks enabled, same, state.opens_eq]
  by_cases begins : count % config.perFile = 0
  · obtain ⟨n, rfl⟩ : ∃ n, count = n * config.perFile :=
      ⟨count / config.perFile, (Nat.div_mul_cancel (Nat.dvd_of_mod_eq_zero begins)).symm⟩
    have part := state.part
    rw [Nat.mul_div_cancel _ nonempty] at part
    rw [Nat.mul_lt_mul_right nonempty,
      ← nextName_new_iff first (Nat.le_of_mul_le_mul_right upto nonempty)]
    simp only [begins, decide_true, if_true, List.mem_singleton, forall_eq, state.names, part,
      not_exists, not_and, Nat.mul_lt_mul_right nonempty]
  · simp only [begins, decide_false, Bool.false_eq_true, if_false, List.not_mem_nil,
      false_implies, implies_true, true_iff]
    refine Nat.lt_of_le_of_ne upto (fun all => begins ?_)
    rw [all, Nat.mul_mod_left]

/-- From any part on, with no file open and a constant configuration: a run of enabled packets,
in which every `open` succeeds, removes no file it has written to exactly when fewer packets
than `nameCount` files hold are recorded before its last call. Witness: induction on the
calls from the end, with `Recorded` as the invariant.
-/
theorem keepsOwnFiles_iff (config : SmurfConfig) (positive : 0 < config.dataFrames.toInt)
    (part : Fin 99999) (filename : String) (calls : List WriteCall)
    (enabled
      : ∀ call ∈ calls, call.Enabled ∧ call.config = config ∧ 0 ≤ call.opened)
    : EachStep step KeepsOwnFiles (start (closed (Int32.ofNat part) filename)) calls
      ↔ recorded config.perFile (calls.dropLast.map WriteCall.opened)
        < config.nameCount * config.perFile := by
  have nonempty := perFile_pos positive
  suffices both
    : Recorded config part (recorded config.perFile (calls.map WriteCall.opened))
          (calls.foldl step (start (closed (Int32.ofNat part) filename)))
        ∧ (EachStep step KeepsOwnFiles (start (closed (Int32.ofNat part) filename)) calls
          ↔ recorded config.perFile (calls.dropLast.map WriteCall.opened)
            < config.nameCount * config.perFile) by
    exact both.2
  induction calls using List.reverseRecOn with
  | nil =>
      refine ⟨⟨?_, ?_, fun _ => rfl, fun inside => absurd (Nat.zero_mod _) inside, ?_⟩, ?_⟩
      · show Int32.ofNat part = Int32.ofNat ((part + 0 / config.perFile) % 99999)
        rw [Nat.zero_div, Nat.add_zero, Nat.mod_eq_of_lt part.isLt]
      · exact (Nat.zero_mod _).symm
      · intro name
        refine ⟨fun member => absurd member List.not_mem_nil, ?_⟩
        rintro ⟨k, begun, -⟩
        exact absurd begun (Nat.not_lt_zero _)
      · refine ⟨fun _ => ?_, fun _ => trivial⟩
        rw [SmurfConfig.nameCount]
        refine Nat.mul_pos ?_ nonempty
        split <;> decide
  | append_singleton calls call ih =>
      obtain ⟨allowed, same, opened⟩ :=
        enabled call (List.mem_append_right _ List.mem_cons_self)
      obtain ⟨state, earlier⟩ :=
        ih (fun call member => enabled call (List.mem_append_left _ member))
      constructor
      · rw [List.foldl_append, List.map_append, recorded, List.foldl_append]
        exact state.step positive allowed same opened
      · rw [eachStep_concat, earlier, List.dropLast_concat]
        have before
            : recorded config.perFile (calls.dropLast.map WriteCall.opened)
                ≤ recorded config.perFile (calls.map WriteCall.opened)
              ∧ recorded config.perFile (calls.map WriteCall.opened)
                ≤ recorded config.perFile (calls.dropLast.map WriteCall.opened) + 1 := by
          rcases List.eq_nil_or_concat calls with rfl | ⟨calls, last, rfl⟩
          · exact ⟨Nat.le_refl _, Nat.le_succ _⟩
          · rw [List.concat_eq_append, List.dropLast_concat, List.map_append, recorded,
              recorded, List.foldl_append]
            exact recordOne_bounds _ _ _
        constructor
        · rintro ⟨fewer, keeps⟩
          exact (state.removesNone_iff positive allowed same (by omega)).mp keeps
        · intro fewer
          exact ⟨by omega, (state.removesNone_iff positive allowed same (by omega)).mpr fewer⟩

/-- Three packets in two files with a suffix. -/
theorem keepsOwnFiles_three_packets
    : let config := { SmurfConfig.defaults with dataFrames := 2 }
      EachStep step KeepsOwnFiles (start create) (List.replicate 3 ⟨blankPacket, config, 5⟩) := by
  intro config
  refine (keepsOwnFiles_iff config (by decide) 0 "" _ ?_).mpr (by decide)
  intro call member
  obtain ⟨-, rfl⟩ := List.mem_replicate.mp member
  exact ⟨enabled_blankPacket, rfl, by decide⟩

/-- Without a suffix, the second file replaces the first one, which was complete. -/
theorem not_keepsOwnFiles_second_file
    : let config := { SmurfConfig.defaults with dataFrames := 1, fileNameExtend := 0 }
      ¬ EachStep step KeepsOwnFiles (start create)
        (List.replicate 2 ⟨blankPacket, config, 5⟩) := by
  decide +kernel

end Recorder

end Smurf
