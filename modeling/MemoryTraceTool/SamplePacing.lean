import MemoryTraceTool.Sampling

/-!
# The pace of byte sampling

One call of `mtt_should_track` takes at most one step off the accumulator.
With a step below the largest sampled size, large requests pile up thresholds
that were reached but not taken off, and the requests that follow are all
recorded until the pile is gone.
-/

namespace MemoryTraceTool.SamplePacing

open Transition

/-- The sampler, with the accumulator that the last recorded call left and the
bytes requested since. -/
structure PacedRun where
  sampler : Sampler
  residue : Word
  since : Nat
  deriving DecidableEq

/-- A call with a sampled size; the sizes from 1 KB on are exempt. -/
def pacedNext (state : PacedRun) (size : Nat) : Option PacedRun :=
  if size < mttSampleExemptThreshold then
    let (tracked, sampler) := mttShouldTrack state.sampler size
    some
      (if tracked then
        { sampler, residue := sampler.sampleBytesAccum, since := 0 }
      else { state with sampler, since := state.since + size })
  else none

/-- The sampler after the initialisation with `MTT_SAMPLE_RATE`. -/
def pacedStart (rate : Nat) : PacedRun :=
  { sampler :=
      { sampleRate := rate
        samplePeriod := 0
        sampleCounter := 0
        sampleBytesAccum := 0
        skippedSampled := 0 }
    residue := 0
    since := 0 }

/-- Sequential calls at one byte rate. -/
def pacedSystem (rate : Nat) : System PacedRun Nat where
  init := fun state => state = pacedStart rate
  next := pacedNext

/-- How many of the calls are recorded. -/
def recordedCount : Sampler → List Nat → Nat
  | _, [] => 0
  | sampler, size :: rest =>
      let (tracked, later) := mttShouldTrack sampler size
      tracked.toNat + recordedCount later rest

/-- The accumulator is below a step; a call is recorded only when a residue
below a step and the bytes since the last recorded call reach a step; and any
further calls record at most one of them above what their bytes reach. -/
structure Paced (rate : Nat) (state : PacedRun) : Prop where
  below : state.sampler.sampleBytesAccum.toNat < 2 ^ rate
  reaches : ∀ size < mttSampleExemptThreshold,
    (mttShouldTrack state.sampler size).1 = true →
      state.residue.toNat < 2 ^ rate ∧
        2 ^ rate ≤ state.residue.toNat + state.since + size
  noBacklog : ∀ sizes : List Nat,
    (∀ size ∈ sizes, size < mttSampleExemptThreshold) →
      recordedCount state.sampler sizes * 2 ^ rate < 2 ^ rate + sizes.sum

/-- The size and the accumulator stay below two steps. -/
def LeavesBelow (rate : Nat) (state : PacedRun) (size : Nat) : Prop :=
  state.sampler.sampleBytesAccum.toNat + size < 2 * 2 ^ rate

/-! ## One call -/

theorem sampleStep_toNat {rate : Nat} (narrow : rate ≤ 30) :
    (sampleStep rate).toNat = 2 ^ rate := by
  have bound : 2 ^ rate < 2 ^ 64 :=
    Nat.pow_lt_pow_right (by decide) (by omega)
  unfold sampleStep
  rw [BitVec.toNat_shiftLeft, Nat.shiftLeft_eq, BitVec.toNat_ofNat,
    Nat.mod_eq_of_lt (by decide : 1 < 2 ^ 64), Nat.one_mul,
    Nat.mod_eq_of_lt bound]

/-- A sampled call adds the size, and takes a step off if that is reached. -/
theorem mttShouldTrack_sampled {sampler : Sampler} {size : Nat}
    (sampled : 0 < sampler.sampleRate)
    (small : size < mttSampleExemptThreshold) :
    mttShouldTrack sampler size =
      if sampleReached sampler.sampleRate sampler.sampleBytesAccum size then
        (true, { sampler with
          sampleBytesAccum := sampler.sampleBytesAccum +
            BitVec.ofNat 64 size - sampleStep sampler.sampleRate })
      else
        (false, { sampler with
          sampleBytesAccum := sampler.sampleBytesAccum + BitVec.ofNat 64 size
          skippedSampled := sampler.skippedSampled + 1 }) := by
  have notBig : ¬ mttBigAllocThreshold ≤ size := by
    unfold mttSampleExemptThreshold at small
    unfold mttBigAllocThreshold
    omega
  simp only [mttShouldTrack, notBig, Nat.not_le.mpr small, sampled, if_true,
    if_false]

theorem mttShouldTrack_sampleRate (sampler : Sampler) (size : Nat) :
    (mttShouldTrack sampler size).2.sampleRate = sampler.sampleRate := by
  unfold mttShouldTrack
  dsimp only
  split_ifs <;> rfl

/-- A recorded call takes a step out of what was there and what it adds. -/
theorem mttShouldTrack_le {sampler : Sampler} {size : Nat}
    (sampled : 0 < sampler.sampleRate) (narrow : sampler.sampleRate ≤ 30)
    (small : size < mttSampleExemptThreshold) :
    (mttShouldTrack sampler size).1.toNat * 2 ^ sampler.sampleRate +
        (mttShouldTrack sampler size).2.sampleBytesAccum.toNat ≤
      sampler.sampleBytesAccum.toNat + size := by
  have step := sampleStep_toNat narrow
  have added : (sampler.sampleBytesAccum + BitVec.ofNat 64 size).toNat ≤
      sampler.sampleBytesAccum.toNat + size := by
    rw [BitVec.toNat_add, BitVec.toNat_ofNat]
    omega
  rw [mttShouldTrack_sampled sampled small]
  by_cases reached :
      sampleReached sampler.sampleRate sampler.sampleBytesAccum size = true
  · rw [if_pos reached]
    have enough := of_decide_eq_true reached
    rw [BitVec.le_def] at enough
    dsimp only
    rw [BitVec.toNat_sub_of_le (BitVec.le_def.mpr enough), step,
      Bool.toNat_true, Nat.one_mul]
    rw [step] at enough
    omega
  · rw [if_neg reached]
    simpa using added

/-- Below the word size the call compares and subtracts numbers. -/
theorem mttShouldTrack_exact {sampler : Sampler} {size : Nat}
    (sampled : 0 < sampler.sampleRate) (narrow : sampler.sampleRate ≤ 30)
    (small : size < mttSampleExemptThreshold)
    (fits : sampler.sampleBytesAccum.toNat + size < 2 ^ 64) :
    ((mttShouldTrack sampler size).1 = true ↔
      2 ^ sampler.sampleRate ≤ sampler.sampleBytesAccum.toNat + size) ∧
    (mttShouldTrack sampler size).2.sampleBytesAccum.toNat =
      sampler.sampleBytesAccum.toNat + size -
        (mttShouldTrack sampler size).1.toNat * 2 ^ sampler.sampleRate := by
  have step := sampleStep_toNat narrow
  have added : (sampler.sampleBytesAccum + BitVec.ofNat 64 size).toNat =
      sampler.sampleBytesAccum.toNat + size := by
    rw [BitVec.toNat_add, BitVec.toNat_ofNat]
    omega
  have reachedIff : sampleReached sampler.sampleRate sampler.sampleBytesAccum
      size = true ↔
        2 ^ sampler.sampleRate ≤ sampler.sampleBytesAccum.toNat + size := by
    unfold sampleReached
    rw [decide_eq_true_iff, BitVec.le_def, step, added]
  rw [mttShouldTrack_sampled sampled small]
  by_cases reached :
      sampleReached sampler.sampleRate sampler.sampleBytesAccum size = true
  · rw [if_pos reached]
    have enough := of_decide_eq_true reached
    refine ⟨by simpa using reachedIff.mp reached, ?_⟩
    dsimp only
    rw [BitVec.toNat_sub_of_le enough, step, added, Bool.toNat_true,
      Nat.one_mul]
  · rw [if_neg reached]
    refine ⟨?_, ?_⟩
    · simpa using (not_congr reachedIff).mp reached
    · simpa using added

/-- Any calls record no more steps than they and the accumulator hold. -/
theorem recordedCount_mul_le {sampler : Sampler} {sizes : List Nat}
    (sampled : 0 < sampler.sampleRate) (narrow : sampler.sampleRate ≤ 30)
    (small : ∀ size ∈ sizes, size < mttSampleExemptThreshold) :
    recordedCount sampler sizes * 2 ^ sampler.sampleRate ≤
      sampler.sampleBytesAccum.toNat + sizes.sum := by
  induction sizes generalizing sampler with
  | nil => simp [recordedCount]
  | cons size rest induction =>
      have rate := mttShouldTrack_sampleRate sampler size
      have first := mttShouldTrack_le sampled narrow
        (small size List.mem_cons_self)
      have later := induction (rate ▸ sampled) (rate ▸ narrow)
        fun other member => small other (List.mem_cons_of_mem _ member)
      rw [rate] at later
      simp only [recordedCount, Nat.add_mul, List.sum_cons]
      omega

/-! ## A run of calls -/

/-- What every run keeps: the accumulator holds the residue of the last
recorded call and the bytes requested since. -/
structure PacedInv (rate : Nat) (state : PacedRun) : Prop where
  sampleRate : state.sampler.sampleRate = rate
  held : state.sampler.sampleBytesAccum.toNat =
    state.residue.toNat + state.since
  residueBelow : state.residue.toNat < 2 ^ rate

section

variable {rate : Nat}

theorem pacedInv_start : PacedInv rate (pacedStart rate) := by
  constructor
  · rfl
  · rfl
  · exact Nat.two_pow_pos rate

theorem two_pow_le_word (narrow : rate ≤ 30) : 2 ^ rate ≤ 2 ^ 30 :=
  Nat.pow_le_pow_right (by decide) narrow

/-- Sizes below 1 KB do not carry a small accumulator over the word size. -/
theorem PacedInv.fits {state : PacedRun} {size : Nat}
    (narrow : rate ≤ 30)
    (below : state.sampler.sampleBytesAccum.toNat < 2 ^ rate)
    (small : size < mttSampleExemptThreshold) :
    state.sampler.sampleBytesAccum.toNat + size < 2 ^ 64 := by
  have := two_pow_le_word narrow
  unfold mttSampleExemptThreshold at small
  omega

/-- With the accumulator below a step nothing is left over from before. -/
theorem PacedInv.paced {state : PacedRun} (inv : PacedInv rate state)
    (positive : 1 ≤ rate) (narrow : rate ≤ 30)
    (below : state.sampler.sampleBytesAccum.toNat < 2 ^ rate) :
    Paced rate state := by
  have sampled : 0 < state.sampler.sampleRate := by
    rw [inv.sampleRate]
    exact positive
  have narrowRate : state.sampler.sampleRate ≤ 30 := by
    rw [inv.sampleRate]
    exact narrow
  constructor
  · exact below
  · intro size small recorded
    have call := mttShouldTrack_exact sampled narrowRate small
      (PacedInv.fits narrow below small)
    have reached := call.1.mp recorded
    rw [inv.sampleRate, inv.held] at reached
    exact ⟨inv.residueBelow, reached⟩
  · intro sizes small
    have count := recordedCount_mul_le sampled narrowRate small
    rw [inv.sampleRate] at count
    omega

/-- A call moves the accumulator as numbers do, and starts a new count of bytes
when it records. -/
theorem pacedNext_inv {state target : PacedRun} {size : Nat}
    (inv : PacedInv rate state) (positive : 1 ≤ rate) (narrow : rate ≤ 30)
    (below : state.sampler.sampleBytesAccum.toNat < 2 ^ rate)
    (taken : pacedNext state size = some target) :
    (target.sampler.sampleBytesAccum.toNat < 2 ^ rate ↔
      LeavesBelow rate state size) ∧
    (LeavesBelow rate state size → PacedInv rate target) := by
  simp only [pacedNext, Option.ite_none_right_eq_some,
    Option.some.injEq] at taken
  obtain ⟨small, rfl⟩ := taken
  have sampled : 0 < state.sampler.sampleRate := by
    rw [inv.sampleRate]
    exact positive
  have narrowRate : state.sampler.sampleRate ≤ 30 := by
    rw [inv.sampleRate]
    exact narrow
  have call := mttShouldTrack_exact sampled narrowRate small
    (PacedInv.fits narrow below small)
  rw [inv.sampleRate] at call
  obtain ⟨recordedIff, moved⟩ := call
  have kept := mttShouldTrack_sampleRate state.sampler size
  unfold LeavesBelow
  cases recorded : (mttShouldTrack state.sampler size).1 with
  | true =>
      have reached := recordedIff.mp recorded
      rw [recorded, Bool.toNat_true, Nat.one_mul] at moved
      rw [if_pos rfl]
      dsimp only
      refine ⟨by omega, fun leaves => ?_⟩
      refine ⟨kept.trans inv.sampleRate, rfl, ?_⟩
      dsimp only
      omega
  | false =>
      have missed : ¬ 2 ^ rate ≤
          state.sampler.sampleBytesAccum.toNat + size := by
        intro reached
        rw [recordedIff.mpr reached] at recorded
        contradiction
      rw [recorded, Bool.toNat_false, Nat.zero_mul, Nat.sub_zero] at moved
      rw [if_neg (by simp)]
      dsimp only
      refine ⟨by omega, fun _ => ?_⟩
      refine ⟨kept.trans inv.sampleRate, ?_, inv.residueBelow⟩
      dsimp only
      rw [moved, inv.held, Nat.add_assoc]

/-- A run is paced in all its states just when each of its calls leaves the
accumulator and its size below two steps. -/
theorem paced_iff_leavesBelow (positive : 1 ≤ rate) (narrow : rate ≤ 30)
    (sizes : List Nat) :
    (∀ passed ∈ (pacedSystem rate).visited (pacedStart rate) sizes,
      Paced rate passed) ↔
      (pacedSystem rate).Meets (LeavesBelow rate) (pacedStart rate) sizes := by
  apply System.forall_visited_iff_meets
  · intro state size target inv paced leaves taken
    exact (pacedNext_inv inv positive narrow paced.below taken).2 leaves
  · intro state size target inv paced taken
    have call := pacedNext_inv inv positive narrow paced.below taken
    constructor
    · intro targetPaced
      exact call.1.mp targetPaced.below
    · intro leaves
      exact (call.2 leaves).paced positive narrow (call.1.mpr leaves)
  · exact pacedInv_start
  · exact pacedInv_start.paced positive narrow (Nat.two_pow_pos rate)

/-- A step of at least 1 KB is above every sampled size. -/
theorem paced_of_wideStep (wide : 10 ≤ rate) (narrow : rate ≤ 30)
    (sizes : List Nat) :
    ∀ passed ∈ (pacedSystem rate).visited (pacedStart rate) sizes,
      Paced rate passed := by
  have step : 2 ^ 10 ≤ 2 ^ rate := Nat.pow_le_pow_right (by decide) wide
  have positive : 1 ≤ rate := by omega
  rw [paced_iff_leavesBelow positive narrow]
  have meets : ∀ state, PacedInv rate state →
      state.sampler.sampleBytesAccum.toNat < 2 ^ rate →
      (pacedSystem rate).Meets (LeavesBelow rate) state sizes := by
    induction sizes with
    | nil => exact fun _ _ _ => trivial
    | cons size rest induction =>
        intro state inv below
        simp only [System.Meets]
        cases taken : (pacedSystem rate).next state size with
        | none => trivial
        | some target =>
            have small : size < mttSampleExemptThreshold :=
              (Option.ite_none_right_eq_some.mp taken).1
            have leaves : LeavesBelow rate state size := by
              unfold LeavesBelow
              unfold mttSampleExemptThreshold at small
              omega
            have call := pacedNext_inv inv positive narrow below taken
            exact ⟨leaves,
              induction target (call.2 leaves) (call.1.mpr leaves)⟩
  exact meets _ pacedInv_start (Nat.two_pow_pos rate)

theorem pacedNext_sampler {state target : PacedRun} {size : Nat}
    (taken : pacedNext state size = some target) :
    target.sampler = (mttShouldTrack state.sampler size).2 := by
  simp only [pacedNext, Option.ite_none_right_eq_some,
    Option.some.injEq] at taken
  obtain ⟨-, rfl⟩ := taken
  split <;> rfl

theorem exists_pacedNext (state : PacedRun) {size : Nat}
    (small : size < mttSampleExemptThreshold) :
    ∃ target, pacedNext state size = some target := by
  unfold pacedNext
  rw [if_pos small]
  exact ⟨_, rfl⟩

/-- Two requests of 1023 bytes leave more than a step of at most 512 bytes. -/
theorem not_paced_of_narrowStep (positive : 1 ≤ rate) (narrow : rate < 10) :
    ¬ ∀ passed ∈ (pacedSystem rate).visited (pacedStart rate) [1023, 1023],
      Paced rate passed := by
  have step : 2 ^ rate ≤ 2 ^ 9 :=
    Nat.pow_le_pow_right (by decide) (by omega)
  have narrowRate : rate ≤ 30 := by omega
  have small : 1023 < mttSampleExemptThreshold := by decide
  rw [paced_iff_leavesBelow positive narrowRate]
  obtain ⟨middle, first⟩ := exists_pacedNext (pacedStart rate) small
  obtain ⟨last, second⟩ := exists_pacedNext middle small
  have sampled : 0 < (pacedStart rate).sampler.sampleRate := positive
  have call := mttShouldTrack_exact sampled narrowRate small
    (PacedInv.fits narrowRate (Nat.two_pow_pos rate) small)
  have reached := call.1.mpr (show 2 ^ rate ≤ 0 + 1023 by omega)
  have left := call.2
  rw [reached, Bool.toNat_true, Nat.one_mul,
    ← pacedNext_sampler first] at left
  -- The first call leaves 1023 - 2 ^ rate bytes, the second one 1023 more.
  have start : (pacedStart rate).sampler.sampleBytesAccum.toNat = 0 := rfl
  have start_rate : (pacedStart rate).sampler.sampleRate = rate := rfl
  rw [start, start_rate] at left
  intro meets
  simp only [System.Meets] at meets
  change (pacedSystem rate).next (pacedStart rate) 1023 = some middle at first
  change (pacedSystem rate).next middle 1023 = some last at second
  rw [first] at meets
  obtain ⟨-, meets⟩ := meets
  rw [second] at meets
  have leaves : LeavesBelow rate middle 1023 := meets.1
  unfold LeavesBelow at leaves
  omega

/-- One step taken off at each recorded call keeps the pace in every run just
for the steps of at least 1 KB; for a smaller step it does so in the runs whose
calls each leave less than two steps. -/
theorem paced_iff_wideStep (positive : 1 ≤ rate) (narrow : rate ≤ 30) :
    ((∀ sizes : List Nat,
        ∀ passed ∈ (pacedSystem rate).visited (pacedStart rate) sizes,
          Paced rate passed) ↔ 10 ≤ rate) ∧
    ∀ sizes : List Nat,
      (∀ passed ∈ (pacedSystem rate).visited (pacedStart rate) sizes,
        Paced rate passed) ↔
      (pacedSystem rate).Meets (LeavesBelow rate) (pacedStart rate) sizes := by
  refine ⟨⟨?_, ?_⟩, paced_iff_leavesBelow positive narrow⟩
  · intro paced
    by_contra short
    exact not_paced_of_narrowStep positive (Nat.not_le.mp short)
      (paced [1023, 1023])
  · intro wide sizes
    exact paced_of_wideStep wide narrow sizes

end

/-- Steps of 32 KB, the smaller of the two rates the manual names. -/
theorem paced_iff_wideStep_fifteen :
    ((pacedSystem 15).visited (pacedStart 15) [1023, 1023]).length = 3 ∧
      ∀ passed ∈ (pacedSystem 15).visited (pacedStart 15) [1023, 1023],
        Paced 15 passed := by
  refine ⟨by decide, ?_⟩
  exact (paced_iff_wideStep (by decide) (by decide)).1.mpr (by decide)
    [1023, 1023]

/-- The run after one request of 1023 bytes at steps of 16 bytes. -/
def backlogRun : PacedRun :=
  { sampler := { (pacedStart 4).sampler with sampleBytesAccum := 1007 }
    residue := 1007
    since := 0 }

/-- With 62 steps left in the accumulator ten requests of one byte are all
recorded. -/
theorem backlogRun_recordsAll :
    pacedNext (pacedStart 4) 1023 = some backlogRun ∧
    recordedCount backlogRun.sampler (List.replicate 10 1) = 10 ∧
    ¬ ∀ rate, 1 ≤ rate → rate ≤ 30 → ∀ sizes : List Nat,
      ∀ passed ∈ (pacedSystem rate).visited (pacedStart rate) sizes,
        Paced rate passed := by
  have taken : pacedNext (pacedStart 4) 1023 = some backlogRun := by decide
  have count :
      recordedCount backlogRun.sampler (List.replicate 10 1) = 10 := by
    decide
  refine ⟨taken, count, ?_⟩
  intro paced
  have member : backlogRun ∈
      (pacedSystem 4).visited (pacedStart 4) [1023] := by
    change backlogRun ∈ [pacedStart 4, backlogRun]
    exact List.mem_cons_of_mem _ List.mem_cons_self
  have bounded := (paced 4 (by decide) (by decide) [1023] backlogRun
    member).noBacklog (List.replicate 10 1) (by decide)
  rw [count] at bounded
  simp at bounded

end MemoryTraceTool.SamplePacing
