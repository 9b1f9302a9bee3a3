import Smurf.Filter.Blocks

/-! The difference equation, for every number of channels.
Each filter call leaves the response of the equation and its truncated multiple, as long as the
multiple fits and the blocks have fewer than `2 ^ 32` entries.
-/

namespace Smurf

open MemoryBlocks

namespace FilterBlocks

variable {samples records : UInt32}

/-- The current entry of the output ring and the output of a channel. -/
def result (self : FilterBlocks samples records) (n : Fin samples.toNat)
    : Option ℚ × Option Int32 :=
  (self.yd.load (index self.bn n), self.output n)

/-- A new filter with 16 records performs the calls, and if the last one is a filter call of
order 0 or more, it leaves in each channel the response of the difference equation and its
truncated multiple. A channel's results are the same for all calls that agree on its own data.
-/
def FollowsEquation (calls : List (Call (Fin samples.toNat → Int32))) : Prop :=
  ∃ self,
    run samples 16 calls = some self
    ∧ (∀ earlier call,
        calls = earlier ++ [.filter call]
        → 0 ≤ call.order.toInt
        → ∀ n,
            let y := SmurfFilter.response earlier call n
            ∃ output,
              self.result n = (some y, some output)
              ∧ output.toInt = (call.g * y).num.tdiv (call.g * y).den)
    ∧ ∀ n (others : List (Call (Fin samples.toNat → Int32))),
        others.map (Call.map fun data => data n) = calls.map (Call.map fun data => data n)
        → (run samples 16 others).map (result · n) = some (self.result n)

/-- The response of a last call of order 0 or more, multiplied by the gain, fits in each channel.
-/
def ScaledFits (calls : List (Call (Fin samples.toNat → Int32))) : Prop :=
  ∀ earlier call,
    calls = earlier ++ [.filter call]
    → 0 ≤ call.order.toInt
    → ∀ n, FitsInt32 (call.g * SmurfFilter.response earlier call n)

section Law

variable (entries : samples.toNat * 16 < 2 ^ 32)
include entries

/-- After a filter call of order 0 or more, each channel's results are the response and the
conversion of its multiple.
-/
theorem result_run {earlier : List (Call (Fin samples.toNat → Int32))}
    {call : FilterCall (Fin samples.toNat → Int32)}
    (admissible : ∀ c ∈ earlier ++ [Call.filter call], c.Admissible)
    (nonneg : 0 ≤ call.order.toInt)
    : ∃ self,
        run samples 16 (earlier ++ [Call.filter call]) = some self
        ∧ ∀ n,
            self.result n
            = (some (SmurfFilter.response earlier call n),
                convert (call.g * SmurfFilter.response earlier call n)) := by
  have forward : call.order ≠ -1 := by
    intro flat
    rw [flat] at nonneg
    exact absurd nonneg (by decide)
  obtain ⟨before, earlierEnded, related, -⟩ :=
    @run_refines _ 16 entries (by decide) earlier
  obtain ⟨self, filtered, holds, outputs⟩ := related.perform entries (by decide) (.filter call)
  refine ⟨self, ?_, fun n => ?_⟩
  · rw [run] at earlierEnded ⊢
    rw [List.foldlM_append, earlierEnded]
    simpa using filtered
  · have response := SmurfFilter.yd_run admissible nonneg n
    simp only [List.foldl_append, List.foldl_cons, List.foldl_nil] at response
    generalize earlier.foldl SmurfFilter.perform (SmurfFilter.create samples.toNat 16) = exact
      at holds outputs response
    have output : self.output n = convert (call.g * SmurfFilter.response earlier call n) := by
      rw [outputs n, ← response, mul_comm]
      exact if_neg forward
    rw [result, holds.loadYd entries holds.inside, holds.bn, response, output]

/-- A channel's results depend on its own part of the calls. -/
theorem result_eq_of_map_eq {calls others : List (Call (Fin samples.toNat → Int32))}
    {n : Fin samples.toNat}
    (same
      : others.map (Call.map fun data => data n) = calls.map (Call.map fun data => data n))
    : (run samples 16 others).map (result · n) = (run samples 16 calls).map (result · n) := by
  have alone (calls : List (Call (Fin samples.toNat → Int32)))
      : (run samples 16 calls).map (result · n)
        = some
            (let channel :=
              (calls.map (Call.map fun data => data n)).foldl Channel.perform (Channel.create 16)
            (some (channel.y channel.slot),
              ((calls.map (Call.map fun data => data n)).foldl Channel.performs
                (Channel.create 16, none)).2)) := by
    obtain ⟨self, ended, holds, outputs⟩ :=
      @run_refines _ 16 entries (by decide) calls
    rw [ended, Option.map_some, result, holds.loadYd entries holds.inside, holds.bn, outputs,
      ← SmurfFilter.channel_create n, ← SmurfFilter.channel_run]
    rfl
  rw [alone, alone, same]

/-- A run follows the equation if the scaled responses of its last call fit. -/
theorem followsEquation_iff_scaledFits {calls : List (Call (Fin samples.toNat → Int32))}
    (admissible : ∀ call ∈ calls, call.Admissible)
    : FollowsEquation calls ↔ ScaledFits calls := by
  constructor
  · rintro ⟨self, ended, law, -⟩ earlier call rfl nonneg n
    obtain ⟨other, same, results⟩ := result_run entries admissible nonneg
    obtain rfl := Option.some.inj (ended.symm.trans same)
    obtain ⟨output, is, toInt⟩ := law earlier call rfl nonneg n
    have converted := congrArg Prod.snd ((results n).symm.trans is)
    exact (exists_convert_iff _).mp ⟨output, converted, toInt⟩
  · intro fits
    obtain ⟨self, ended, -, -⟩ := @run_refines _ 16 entries (by decide) calls
    refine ⟨self, ended, ?_, fun n others same => ?_⟩
    · rintro earlier call rfl nonneg n
      obtain ⟨other, same, results⟩ := result_run entries admissible nonneg
      obtain rfl := Option.some.inj (ended.symm.trans same)
      obtain ⟨output, converted, toInt⟩ :=
        (exists_convert_iff _).mpr (fits earlier call rfl nonneg n)
      exact ⟨output, by rw [results n, converted], toInt⟩
    · rw [result_eq_of_map_eq entries same, ended]
      rfl

end Law

-----------------------------------------------------------------------------------------
-- Products that wrap
-----------------------------------------------------------------------------------------

section Wraps

variable {self next : FilterBlocks samples records}

/-- The slot in use, and the order. -/
def marks (self : FilterBlocks samples records) : Int32 × Int32 :=
  (self.bn, self.orderN)

theorem store_succeeds {data : Fin samples.toNat → Int32} {n : Fin samples.toNat}
    (stored : self.store data n = some next)
    : next.marks = self.marks ∧ index self.bn n < (samples * records).toNat := by
  obtain ⟨xd, written, result⟩ := Option.bind_eq_some_iff.mp stored
  cases result
  exact ⟨rfl, Block.lt_of_store written⟩

theorem marks_clearSlot (cleared : self.clearSlot = some next) : next.marks = self.marks := by
  obtain ⟨yd, -, result⟩ := Option.bind_eq_some_iff.mp cleared
  cases result
  rfl

theorem marks_respond {order : Int32} {a b : Nat → ℚ} {g : ℚ} {n : Fin samples.toNat}
    (responded : self.respond order a b g n = some next)
    : next.marks = self.marks := by
  simp only [respond, Option.bind_eq_bind, Option.bind_eq_some_iff] at responded
  obtain ⟨_, _, _, _, summed, ended, _, _, _, _, _, _, result⟩ := responded
  cases result
  exact (foldlM_succeeds (I := fun blocks => blocks.marks = self.marks)
    (fun _ _ _ kept tapped => (congrArg marks (eq_of_tap tapped)).trans kept) rfl ended).1

/-- A filter call that has a result found the whole next slot inside its block. -/
theorem filter_succeeds {data : Fin samples.toNat → Int32} {order : Int32} {a b : Nat → ℚ}
    {g : ℚ} (forward : order ≠ -1) (filtered : self.filter data order a b g = some next)
    : let bn :=
        (((if self.orderN ≠ order then 0 else self.bn) + 1).toUInt32 % records).toInt32
      next.marks = (bn, order)
      ∧ ∀ n : Fin samples.toNat, index bn n < (samples * records).toNat := by
  intro bn
  have cleared
      : (if self.orderN ≠ order then self.clearFilter else self).bn
        = if self.orderN ≠ order then 0 else self.bn := by
    split <;> rfl
  simp only [filter, if_neg forward, Option.bind_eq_bind, Option.bind_eq_some_iff, cleared]
    at filtered
  obtain ⟨stored, all, ready, zeroed, ended⟩ := filtered
  obtain ⟨marked, each⟩ :=
    foldlM_succeeds (I := fun blocks => blocks.marks = (bn, order))
      (fun _ _ _ kept written => (store_succeeds written).1.trans kept) rfl all
  constructor
  · exact (foldlM_succeeds (I := fun blocks => blocks.marks = (bn, order))
      (fun _ _ _ kept responded => (marks_respond responded).trans kept)
      ((marks_clearSlot zeroed).trans marked) ended).1
  · intro n
    obtain ⟨before, after, kept, written⟩ := each n (List.mem_finRange n)
    have here : before.bn = bn := congrArg Prod.fst kept
    exact here ▸ (store_succeeds written).2

end Wraps

/-- A call of order 0 on a record of zeros. -/
def zeroCall (samples : UInt32) : FilterCall (Fin samples.toNat → Int32) where
  data := fun _ => 0
  order := 0
  a := fun _ => 1
  b := fun _ => 1
  g := 1

theorem admissible_zeroCall : (zeroCall samples).Admissible :=
  ⟨show -1 ≤ Int32.toInt 0 by decide, show Int32.toInt 0 ≤ 15 by decide, one_ne_zero⟩

/-- Zeros give zeros, which fit. -/
theorem scaledFits_zeroCalls (turns : Nat)
    : ScaledFits (List.replicate turns (Call.filter (zeroCall samples))) := by
  intro earlier call last _ n
  have member : Call.filter call ∈ List.replicate turns (Call.filter (zeroCall samples)) := by
    rw [last]
    exact List.mem_append_right _ List.mem_cons_self
  cases (List.mem_replicate.mp member).2
  have response : SmurfFilter.response earlier (zeroCall samples) n = 0 := by
    simp [SmurfFilter.response, DifferenceEquation.respond, FilterCall.taps, zeroCall]
  rw [response, mul_zero]
  exact fitsInt32_zero

/-- Calls of order 0 fill one slot after another, by induction on them. -/
theorem run_zeroCalls {self : FilterBlocks samples 16} {turns : Nat} (few : turns < 16)
    (ended : run samples 16 (List.replicate turns (Call.filter (zeroCall samples))) = some self)
    : self.bn = Int32.ofNat turns
      ∧ (0 < turns
        → self.orderN = 0
          ∧ ∀ n : Fin samples.toNat,
              index (Int32.ofNat turns) n < (samples * 16 : UInt32).toNat) := by
  induction turns generalizing self with
  | zero =>
      cases ended
      exact ⟨rfl, fun none => absurd none (Nat.lt_irrefl 0)⟩
  | succ turns ih =>
      rw [run, List.replicate_succ', List.foldlM_append] at ended
      obtain ⟨before, earlier, last⟩ := Option.bind_eq_some_iff.mp ended
      obtain ⟨slot, order⟩ := ih (by omega) earlier
      have performed : before.perform (Call.filter (zeroCall samples)) = some self := by
        simpa using last
      obtain ⟨marks, inside⟩ := filter_succeeds (show (0 : Int32) ≠ -1 by decide) performed
      have advance
          : ∀ turns < 15,
              ((Int32.ofNat turns + 1).toUInt32 % 16).toInt32 = Int32.ofNat (turns + 1) := by
        decide
      have next
          : (((if before.orderN ≠ 0 then 0 else before.bn) + 1).toUInt32 % 16).toInt32
            = Int32.ofNat (turns + 1) := by
        rw [← advance turns (by omega), slot]
        rcases Nat.eq_zero_or_pos turns with rfl | positive
        · split <;> rfl
        · rw [if_neg (not_not.mpr (order positive).1)]
      rw [next] at marks inside
      exact ⟨congrArg Prod.fst marks, fun _ => ⟨congrArg Prod.snd marks, inside⟩⟩

/-- Where the products wrap, some calls on zeros leave the blocks. -/
theorem exists_run_eq_none (wraps : 2 ^ 32 ≤ samples.toNat * 16)
    : ∃ turns,
        run samples 16 (List.replicate turns (Call.filter (zeroCall samples))) = none := by
  have bounded : samples.toNat < 2 ^ 32 := samples.toNat_lt
  -- the first slot that the block's size does not reach
  let slot := (2 ^ 32 - 1) / samples.toNat
  have few : slot < 16 := (Nat.div_lt_iff_lt_mul (by omega)).mpr (by omega)
  have positive : 0 < slot := Nat.div_pos (by omega) (by omega)
  have starts : slot * samples.toNat ≤ 2 ^ 32 - 1 := Nat.div_mul_le_self ..
  have ends : 2 ^ 32 - 1 < slot * samples.toNat + samples.toNat := by
    have := Nat.lt_div_mul_add (a := 2 ^ 32 - 1) (show 0 < samples.toNat by omega)
    exact this
  refine ⟨slot, Option.eq_none_iff_forall_ne_some.mpr (fun self ended => ?_)⟩
  have reaches := ((run_zeroCalls few ended).2 positive).2 ⟨samples.toNat - 1, by omega⟩
  have start : ((Int32.ofNat slot).toUInt32 * samples).toNat = slot * samples.toNat := by
    rw [UInt32.toNat_mul, Int32.toUInt32_ofNat', UInt32.toNat_ofNat',
      Nat.mod_eq_of_lt (show slot < 2 ^ 32 by omega), Nat.mod_eq_of_lt (by omega)]
  have size : (samples * 16 : UInt32).toNat < 2 ^ 32 := UInt32.toNat_lt _
  rw [index, start] at reaches
  dsimp only at reaches
  omega

/-- Runs of admissible calls follow the difference equation exactly where the scaled responses
of their last call fit: this is so for the numbers of channels with which the blocks have fewer
than `2 ^ 32` entries, and for no others. Witness: with more channels, zeros fill one slot after
another up to the first that the wrapped size does not reach.
-/
theorem followsEquation_iff (samples : UInt32)
    : (∀ calls : List (Call (Fin samples.toNat → Int32)),
        (∀ call ∈ calls, call.Admissible) → (FollowsEquation calls ↔ ScaledFits calls))
      ↔ samples.toNat * 16 < 2 ^ 32 := by
  constructor
  · intro everywhere
    by_contra wraps
    obtain ⟨turns, none⟩ := exists_run_eq_none (Nat.le_of_not_lt wraps)
    have admissible
        : ∀ call ∈ List.replicate turns (Call.filter (zeroCall samples)), call.Admissible := by
      intro call member
      rw [(List.mem_replicate.mp member).2]
      exact admissible_zeroCall
    obtain ⟨self, ended, -⟩ := (everywhere _ admissible).mpr (scaledFits_zeroCalls turns)
    rw [none] at ended
    cases ended
  · exact fun entries calls admissible => followsEquation_iff_scaledFits entries admissible

/-- The value `2 ^ 30` with gain 2, on one channel. -/
def doubledCall : FilterCall (Fin (1 : UInt32).toNat → Int32) where
  data := fun _ => 2 ^ 30
  order := 0
  a := fun _ => 1
  b := fun _ => 1
  g := 2

/-- An admissible call whose scaled response does not fit; and one with `2 ^ 28` channels, for
which the size of the blocks wraps to nothing.
-/
theorem not_followsEquation_too_large
    : doubledCall.Admissible
      ∧ ¬ FollowsEquation [Call.filter doubledCall]
      ∧ (zeroCall (UInt32.ofNat (2 ^ 28))).Admissible
      ∧ ¬ FollowsEquation [Call.filter (zeroCall (UInt32.ofNat (2 ^ 28)))] := by
  have doubled : doubledCall.Admissible :=
    ⟨show -1 ≤ Int32.toInt 0 by decide, show Int32.toInt 0 ≤ 15 by decide, one_ne_zero⟩
  refine ⟨doubled, fun follows => ?_, admissible_zeroCall, ?_⟩
  · have admissible : ∀ call ∈ [Call.filter doubledCall], call.Admissible := by
      intro call member
      rw [List.mem_singleton.mp member]
      exact doubled
    have fits :=
      (followsEquation_iff_scaledFits (by decide) admissible).mp follows [] doubledCall rfl
        (by decide) ⟨0, by decide⟩
    exact absurd fits (by decide +kernel)
  · rintro ⟨self, ended, -⟩
    obtain ⟨-, last⟩ := run_zeroCalls (show 1 < 16 by decide) ended
    have reaches := (last (by decide)).2 ⟨0, by decide⟩
    have nothing : (UInt32.ofNat (2 ^ 28) * 16).toNat = 0 := by decide
    rw [nothing] at reaches
    exact absurd reaches (Nat.not_lt_zero _)

end FilterBlocks

end Smurf
