import Smurf.Library.BytePrograms
import Smurf.Library.Runs
import Smurf.Packet.TesBias

/-! Which bytes the TES bias array accesses.
A word is read by a load of four bytes, of which the last word's goes on behind the array.
-/

namespace Smurf

open ByteMemory (Bytes Program)
open ByteMemory.Program (loadByte loadWord storeByte)
open Runs

/-- 16x 20-bit bytes -/
abbrev tesBiasBufferSize : Nat := tesBiasCount * 20 / 8

namespace TesBiasArray

/-- A 20-bit word index, the block of two words that it lies in, and its place there. -/
structure WordIndex where
  index : UInt64
  block : UInt64
  word : UInt64

def WordIndex.of (index : UInt64) : WordIndex where
  index
  block := index / 2
  word := index % 2

/-- `setWord` access by access. -/
def setWordProgram (pData : Nat) (index : WordIndex) (value : Int32) : Program String Unit :=
  if tesBiasCount ≤ index.index.toNat then
    .throw "Trying to write a TES bias value in an address of out the buffer range."
  else if index.word = 0 then do
    let b := pData + 5 * index.block.toNat
    let v := littleEndian value.toUInt32.toNat
    storeByte b (v 0)
    storeByte (b + 1) (v 1)
    let temp ← loadByte (b + 2)
    storeByte (b + 2) (temp &&& 0xf0 ||| v 2 &&& 0x0f)
  else do
    let b := pData + 5 * index.block.toNat + 2
    let v := littleEndian (value <<< 4).toUInt32.toNat
    let temp ← loadByte b
    storeByte b (temp &&& 0x0f ||| v 0 &&& 0xf0)
    storeByte (b + 1) (v 1)
    storeByte (b + 2) (v 2)

/-- `getWord` access by access. -/
def getWordProgram (pData : Nat) (index : WordIndex) : Program String Int32 :=
  if tesBiasCount ≤ index.index.toNat then
    .throw "Trying to read a TES bias value in an address of out the buffer range."
  else do
    let offset := if index.word = 0 then 0 else 2
    let shift := if index.word = 0 then 0 else 4
    let loaded ← loadWord (pData + 5 * index.block.toNat + offset) 4
    return signExtend (loaded >>> shift)

/-- A call of one of the two methods, with any index. -/
inductive Call
  | setWord (index : UInt64) (value : Int32)
  | getWord (index : UInt64)
  deriving DecidableEq

namespace Call

def index : Call → UInt64
  | setWord index _ => index
  | getWord index => index

def program (pData : Nat) : Call → Program String (Option Int32)
  | setWord index value => do
      setWordProgram pData (.of index) value
      return none
  | getWord index => do
      let word ← getWordProgram pData (.of index)
      return some word

end Call

/-- The memory behind a call. -/
def perform (pData : Nat) (memory : Bytes) (call : Call) : Bytes :=
  ((call.program pData).run memory).2

/-- What a call returns or throws, beside the memory behind it. -/
def respond (pData : Nat) (memory : Bytes) (call : Call)
    : Bytes × Except String (Option Int32) :=
  (perform pData memory call, ((call.program pData).run memory).1)

def InBuffer (pData address : Nat) : Prop :=
  pData ≤ address ∧ address < pData + tesBiasBufferSize

/-- The call throws and changes nothing. -/
def Refused (pData : Nat) (memory : Bytes) (call : Call) : Prop :=
  ((call.program pData).run memory).1.isOk = false ∧ perform pData memory call = memory

/-- The call reads and writes only bytes of the buffer. -/
def AccessesBuffer (pData : Nat) (memory : Bytes) (call : Call) : Prop :=
  ∀ address ∈ (call.program pData).accesses memory, InBuffer pData address

/-- An index out of range is refused; otherwise only bytes of the buffer are accessed. -/
def StaysInside (pData : Nat) (memory : Bytes) (call : Call) : Prop :=
  (tesBiasCount ≤ call.index.toNat → Refused pData memory call)
  ∧ (call.index.toNat < tesBiasCount → AccessesBuffer pData memory call)

section Accesses

variable (pData : Nat) (memory : Bytes) (index : UInt64)

theorem index_of : (WordIndex.of index).index = index :=
  rfl

theorem word_of_eq_zero_iff : (WordIndex.of index).word = 0 ↔ index.toNat % 2 = 0 := by
  rw [← UInt64.toNat_inj, WordIndex.of, UInt64.toNat_mod]
  rfl

theorem block_of : (WordIndex.of index).block.toNat = index.toNat / 2 :=
  UInt64.toNat_div index 2

/-- The accesses do what the model of the call does. -/
theorem run_setWordProgram (value : Int32)
    : (setWordProgram pData (.of index) value).run memory
      = match setWord pData memory index.toNat value with
        | .ok after => (.ok (), after)
        | .error thrown => (.error thrown, memory) := by
  rw [setWordProgram, setWord]
  by_cases outside : tesBiasCount ≤ index.toNat
  · rw [index_of, if_pos outside, if_pos outside]
    rfl
  · rw [index_of, if_neg outside, if_neg outside, putWord, block_of]
    simp only [word_of_eq_zero_iff]
    split <;> rfl

/-- A word in range is written to three bytes, of which the one it shares is also read. -/
theorem accesses_setWordProgram (value : Int32) (inside : index.toNat < tesBiasCount)
    {address : Nat}
    (accessed : address ∈ (setWordProgram pData (.of index) value).accesses memory)
    : pData + 5 * (index.toNat / 2) ≤ address
      ∧ address < pData + 5 * (index.toNat / 2) + 5 := by
  rw [setWordProgram, index_of, if_neg (Nat.not_le.mpr inside), block_of] at accessed
  by_cases first : (WordIndex.of index).word = 0
  · rw [if_pos first] at accessed
    generalize pData + 5 * (index.toNat / 2) = b at accessed ⊢
    have listed : address ∈ [b, b + 1, b + 2, b + 2] := accessed
    simp only [List.mem_cons, List.not_mem_nil, or_false] at listed
    omega
  · rw [if_neg first] at accessed
    generalize pData + 5 * (index.toNat / 2) = b at accessed ⊢
    have listed : address ∈ [b + 2, b + 2, b + 2 + 1, b + 2 + 2] := accessed
    simp only [List.mem_cons, List.not_mem_nil, or_false] at listed
    omega

/-- A word in range is read by a load of four bytes from its first one on. -/
theorem run_getWordProgram
    : (getWordProgram pData (.of index)).run memory = (getWord pData memory index.toNat, memory)
      ∧ (index.toNat < tesBiasCount
        → (getWordProgram pData (.of index)).accesses memory
          = List.range' (pData + 5 * (index.toNat / 2) + 2 * (index.toNat % 2)) 4) := by
  rw [getWordProgram, getWord]
  by_cases outside : tesBiasCount ≤ index.toNat
  · rw [index_of, if_pos outside, if_pos outside]
    exact ⟨rfl, fun inside => absurd inside (Nat.not_lt.mpr outside)⟩
  · rw [index_of, if_neg outside, if_neg outside, block_of]
    simp only [word_of_eq_zero_iff]
    obtain ⟨loaded, accessed⟩ :=
      @Program.run_loadWord String memory
        (pData + 5 * (index.toNat / 2) + if index.toNat % 2 = 0 then 0 else 2) 4
    obtain ⟨goesOn, accesses⟩ :=
      @Program.run_bind String Nat Int32 _
        (fun loaded =>
          return signExtend (loaded >>> if index.toNat % 2 = 0 then 0 else 4)) _ _ _ loaded
    refine ⟨goesOn, fun _ => accesses.trans ?_⟩
    rw [accessed]
    refine (List.append_nil _).trans ?_
    rcases Nat.mod_two_eq_zero_or_one index.toNat with even | odd
    · rw [even, if_pos rfl]
    · rw [odd, if_neg (by decide)]

end Accesses

section Calls

variable (pData : Nat) (memory : Bytes)

theorem run_program_setWord (index : UInt64) (value : Int32)
    : ((Call.setWord index value).program pData).run memory
        = match setWord pData memory index.toNat value with
          | .ok after => (.ok none, after)
          | .error thrown => (.error thrown, memory) := by
  refine (Program.run_bind_pure _ (fun _ => none) memory).1.trans ?_
  rw [run_setWordProgram]
  split <;> rfl

theorem run_program_getWord (index : UInt64)
    : ((Call.getWord index).program pData).run memory
      = ((getWord pData memory index.toNat).map some, memory) := by
  refine (Program.run_bind_pure _ some memory).1.trans ?_
  rw [(run_getWordProgram pData memory index).1]

theorem refused {call : Call} (outside : tesBiasCount ≤ call.index.toNat)
    : Refused pData memory call := by
  cases call with
  | setWord index value =>
      have outside : tesBiasCount ≤ index.toNat := outside
      rw [Refused, perform, run_program_setWord, setWord, if_pos outside]
      exact ⟨rfl, rfl⟩
  | getWord index =>
      have outside : tesBiasCount ≤ index.toNat := outside
      rw [Refused, perform, run_program_getWord, getWord, if_pos outside]
      exact ⟨rfl, rfl⟩

theorem accessesBuffer_setWord {index : UInt64} (inside : index.toNat < tesBiasCount)
    (value : Int32)
    : AccessesBuffer pData memory (.setWord index value) := by
  intro address accessed
  have bounds := accesses_setWordProgram pData memory index value inside
    ((Program.run_bind_pure _ (fun _ => none) memory).2 ▸ accessed)
  simp only [InBuffer, tesBiasCount, tesBiasBufferSize] at inside ⊢
  omega

/-- What is refused accesses nothing. -/
theorem accessesBuffer_of_refused {call : Call} (outside : tesBiasCount ≤ call.index.toNat)
    : AccessesBuffer pData memory call := by
  have none : (call.program pData).accesses memory = [] := by
    cases call with
    | setWord index value =>
        refine (Program.run_bind_pure _ (fun _ => none) memory).2.trans ?_
        rw [setWordProgram, index_of, if_pos (show tesBiasCount ≤ index.toNat from outside)]
        rfl
    | getWord index =>
        refine (Program.run_bind_pure _ some memory).2.trans ?_
        rw [getWordProgram, index_of, if_pos (show tesBiasCount ≤ index.toNat from outside)]
        rfl
  rw [AccessesBuffer, none]
  exact fun _ member => absurd member List.not_mem_nil

/-- The last word's load is the only one that goes on behind the buffer. -/
theorem accessesBuffer_getWord_iff {index : UInt64} (inside : index.toNat < tesBiasCount)
    : AccessesBuffer pData memory (.getWord index) ↔ index.toNat ≠ 15 := by
  have accesses
      : ((Call.getWord index).program pData).accesses memory
        = List.range' (pData + 5 * (index.toNat / 2) + 2 * (index.toNat % 2)) 4 :=
    (Program.run_bind_pure _ some memory).2.trans
      ((run_getWordProgram pData memory index).2 inside)
  rw [AccessesBuffer, accesses]
  simp only [InBuffer, List.mem_range'_1, tesBiasCount, tesBiasBufferSize] at inside ⊢
  constructor
  · intro stays last
    have behind := stays (pData + 40) (by omega)
    omega
  · intro _ address bounds
    omega

/-- A call stays inside unless it reads the last word. -/
theorem staysInside_iff (call : Call)
    : StaysInside pData memory call ↔ call ≠ .getWord 15 := by
  have others (outside : tesBiasCount ≤ call.index.toNat) := refused pData memory outside
  cases call with
  | setWord index value =>
      simp only [ne_eq, reduceCtorEq, not_false_eq_true, iff_true]
      exact ⟨others, fun inside => accessesBuffer_setWord pData memory inside value⟩
  | getWord index =>
      have last : Call.getWord index ≠ .getWord 15 ↔ index.toNat ≠ 15 := by
        rw [ne_eq, Call.getWord.injEq, ← UInt64.toNat_inj]
        rfl
      rw [last]
      constructor
      · rintro ⟨-, inside⟩ same
        have within : index.toNat < tesBiasCount := by rw [same]; decide
        exact (accessesBuffer_getWord_iff pData memory within).mp (inside within) same
      · exact fun other =>
          ⟨others, fun inside => (accessesBuffer_getWord_iff pData memory inside).mpr other⟩

/-- For every memory around the buffer and every sequence of calls, with any indexes and
values: all calls stay inside the buffer exactly when none reads the last word, for which the
load of four bytes begins three bytes before the end.
-/
theorem staysInside_iff_not_last (calls : List Call)
    : EachStep (perform pData) (StaysInside pData) memory calls
      ↔ ∀ call ∈ calls, call ≠ .getWord 15 :=
  (EachStep.congr (fun memory call => staysInside_iff pData memory call) memory calls).trans
    eachStep_iff_forall

/-- While the last word is not read, the array is its buffer: what the calls give depends on
the bytes of the buffer alone, and they change no others. Witness: each call accesses the
buffer only.
-/
theorem respond_confined {calls : List Call} (notLast : ∀ call ∈ calls, call ≠ .getWord 15)
    {other : Bytes}
    (same : ∀ address, InBuffer pData address → memory address = other address)
    : (transduce (respond pData) memory calls).2 = (transduce (respond pData) other calls).2
      ∧ (∀ address, InBuffer pData address
        → (transduce (respond pData) memory calls).1 address
          = (transduce (respond pData) other calls).1 address)
      ∧ ∀ address, ¬ InBuffer pData address
        → (transduce (respond pData) memory calls).1 address = memory address := by
  have buffer {call : Call} (other : call ≠ .getWord 15) (memory : Bytes)
      : AccessesBuffer pData memory call := by
    rcases Nat.lt_or_ge call.index.toNat tesBiasCount with inside | outside
    · exact ((staysInside_iff pData memory call).mpr other).2 inside
    · exact accessesBuffer_of_refused pData memory outside
  have keep (first second : Bytes) (call : Call)
      (agree : ∀ address, InBuffer pData address → first address = second address)
      (notLast : call ≠ .getWord 15)
      : (∀ address, InBuffer pData address
          → (respond pData first call).1 address = (respond pData second call).1 address)
        ∧ (respond pData first call).2 = (respond pData second call).2 := by
    obtain ⟨result, _, after⟩ := Program.run_congr agree (buffer notLast first)
    exact ⟨after, result⟩
  obtain ⟨after, results⟩ := transduce_simulation _ _ keep same notLast
  refine ⟨results, after, fun address outside => ?_⟩
  clear after results same
  induction calls generalizing memory with
  | nil => rfl
  | cons call rest ih =>
      obtain ⟨here, later⟩ := List.forall_mem_cons.mp notLast
      refine (ih (perform pData memory call) later).trans ?_
      exact Program.run_outside (fun accessed => outside (buffer here memory address accessed))

end Calls

/-- A word that is written and read back, over two memories that differ behind the buffer. -/
theorem respond_confined_two_calls
    : (transduce (respond 0) (fun _ => 0) [.setWord 3 (-5), .getWord 3]).2
      = (transduce (respond 0) (fun address => if address < 40 then 0 else 255)
          [.setWord 3 (-5), .getWord 3]).2 :=
  (respond_confined 0 (fun _ => 0) (by simp) (fun address inside => by
    have below : address < 40 := Nat.lt_of_lt_of_le inside.2 (by decide)
    simp [below])).1

/-- The last word can be written, but not read. -/
theorem not_staysInside_last_word
    : ¬ EachStep (perform 0) (StaysInside 0) (fun _ => 0) [.setWord 15 1, .getWord 15] := by
  rintro ⟨-, reads, -⟩
  have behind := reads.2 (by decide) 40 (by decide)
  exact absurd behind.2 (by decide)

end TesBiasArray

end Smurf
