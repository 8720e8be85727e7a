import Mathlib.Tactic.Positivity
import Mathlib.Tactic.Ring
import MemoryTraceTool.Basic
import MemoryTraceTool.Lib.Accounts
import MemoryTraceTool.Lib.Transition

/-!
# Byte sampling

`mtt_should_track` decides whether an allocation is recorded.  With a byte
rate it adds the size to `sample_bytes_accum` and records the allocation when
the sum reaches `2 ^ rate`, taking one step off the accumulator again.  The
addition, the comparison and the subtraction are separate atomic operations,
so the second half of this module lets any number of threads interleave them.
-/

namespace MemoryTraceTool

open Transition

/-- The sampling fields of the tracker state. -/
structure Sampler where
  sampleRate : Nat
  samplePeriod : Nat
  sampleCounter : Word
  sampleBytesAccum : Word
  skippedSampled : Word
  deriving DecidableEq, Repr

/-- The sampling step `(size_t)1 << rate`. -/
def sampleStep (rate : Nat) : Word := 1#64 <<< rate

/-- The threshold test on the value returned by `fetch_add`. -/
def sampleReached (rate : Nat) (oldAccum : Word) (size : Nat) : Bool :=
  decide (sampleStep rate ≤ oldAccum + BitVec.ofNat 64 size)

def mttShouldTrack (sampler : Sampler) (size : Nat) : Bool × Sampler :=
  if mttBigAllocThreshold ≤ size then (true, sampler)
  else if mttSampleExemptThreshold ≤ size then (true, sampler)
  else if 0 < sampler.sampleRate then
    let oldAccum := sampler.sampleBytesAccum
    let added := { sampler with
      sampleBytesAccum := oldAccum + BitVec.ofNat 64 size }
    if sampleReached sampler.sampleRate oldAccum size then
      (true, { added with
        sampleBytesAccum :=
          added.sampleBytesAccum - sampleStep sampler.sampleRate })
    else
      (false, { added with skippedSampled := added.skippedSampled + 1 })
  else if sampler.samplePeriod = 0 then (true, sampler)
  else
    let counted := { sampler with sampleCounter := sampler.sampleCounter + 1 }
    if sampler.sampleCounter.toNat % sampler.samplePeriod = 0 then
      (true, counted)
    else
      (false, { counted with skippedSampled := counted.skippedSampled + 1 })

/-- Sizes from 1 KB on are tracked whatever the sampler holds. -/
theorem mttShouldTrack_exempt (sampler : Sampler) {size : Nat}
    (large : mttSampleExemptThreshold ≤ size) :
    mttShouldTrack sampler size = (true, sampler) := by
  unfold mttShouldTrack
  split
  · rfl
  · rfl

/-- The decision of `mtt_should_track`, with the subtraction still to come
after a byte-sampled request that reached the threshold. -/
inductive SampleVerdict where
  | track
  | trackAndSubtract
  | skip
  deriving DecidableEq, Repr

/-- `mtt_should_track` up to its decision: the first update of the shared
counters and the comparison on the value that update returned. -/
def mttShouldTrackEnter (sampler : Sampler) (size : Nat) :
    SampleVerdict × Sampler :=
  if mttBigAllocThreshold ≤ size then (.track, sampler)
  else if mttSampleExemptThreshold ≤ size then (.track, sampler)
  else if 0 < sampler.sampleRate then
    let added := { sampler with
      sampleBytesAccum := sampler.sampleBytesAccum + BitVec.ofNat 64 size }
    if sampleReached sampler.sampleRate sampler.sampleBytesAccum size then
      (.trackAndSubtract, added)
    else
      (.skip, { added with skippedSampled := added.skippedSampled + 1 })
  else if sampler.samplePeriod = 0 then (.track, sampler)
  else
    let counted := { sampler with sampleCounter := sampler.sampleCounter + 1 }
    if sampler.sampleCounter.toNat % sampler.samplePeriod = 0 then
      (.track, counted)
    else
      (.skip, { counted with skippedSampled := counted.skippedSampled + 1 })

def Sampler.subtractStep (sampler : Sampler) : Sampler :=
  { sampler with
    sampleBytesAccum :=
      sampler.sampleBytesAccum - sampleStep sampler.sampleRate }

/-- Decision and subtraction in one go are `mtt_should_track`. -/
theorem mttShouldTrack_eq_enter (sampler : Sampler) (size : Nat) :
    mttShouldTrack sampler size =
      match mttShouldTrackEnter sampler size with
      | (.track, entered) => (true, entered)
      | (.trackAndSubtract, entered) => (true, entered.subtractStep)
      | (.skip, entered) => (false, entered) := by
  unfold mttShouldTrack mttShouldTrackEnter
  dsimp only
  split_ifs <;> rfl

theorem mttShouldTrackEnter_exempt (sampler : Sampler) {size : Nat}
    (large : mttSampleExemptThreshold ≤ size) :
    mttShouldTrackEnter sampler size = (.track, sampler) := by
  unfold mttShouldTrackEnter
  split
  · rfl
  · rfl

/-! ## Interleaved byte sampling -/

/-- Where a thread stands in a byte-sampled call of `mtt_should_track`. -/
inductive SamplePc where
  | idle
  | compare (oldAccum : Word) (size : Nat)
  | subtract
  | skip
  deriving DecidableEq, Repr

/-- The shared words of byte sampling.  `added` and `subtractions` are ghosts:
the bytes added and the number of completed subtractions. -/
structure SampleState (Thread : Type) where
  accum : Word
  skipped : Word
  added : Nat
  subtractions : Nat
  threads : Thread → SamplePc

inductive SampleLabel (Thread : Type) where
  | fetchAdd (thread : Thread) (size : Nat)
  | step (thread : Thread)

variable {Thread : Type}

def SampleState.setThread [DecidableEq Thread] (state : SampleState Thread)
    (thread : Thread) (pc : SamplePc) : SampleState Thread :=
  { state with threads := Function.update state.threads thread pc }

def sampleNext [DecidableEq Thread] (rate : Nat)
    (state : SampleState Thread) :
    SampleLabel Thread → Option (SampleState Thread)
  | .fetchAdd thread size =>
      if state.threads thread = .idle ∧ size < mttSampleExemptThreshold then
        some { state.setThread thread (.compare state.accum size) with
          accum := state.accum + BitVec.ofNat 64 size
          added := state.added + size }
      else none
  | .step thread =>
      match state.threads thread with
      | .idle => none
      | .compare oldAccum size =>
          some (state.setThread thread
            (if sampleReached rate oldAccum size then .subtract else .skip))
      | .subtract =>
          some { state.setThread thread .idle with
            accum := state.accum - sampleStep rate
            subtractions := state.subtractions + 1 }
      | .skip =>
          some { state.setThread thread .idle with
            skipped := state.skipped + 1 }

/-- Any number of threads sampling requests below the exemption threshold at
one byte rate, starting from an empty accumulator. -/
def sampleSystem (Thread : Type) [DecidableEq Thread] (rate : Nat) :
    System (SampleState Thread) (SampleLabel Thread) where
  init := fun state =>
    state.accum = 0 ∧ state.added = 0 ∧ state.subtractions = 0 ∧
      ∀ thread, state.threads thread = .idle
  next := sampleNext rate

/-- A call that runs without interruption computes `mtt_should_track`. -/
theorem sampleNext_alone [DecidableEq Thread] (sampler : Sampler)
    (state : SampleState Thread) (thread : Thread) {size : Nat}
    (sampled : 0 < sampler.sampleRate)
    (small : size < mttSampleExemptThreshold)
    (accum : state.accum = sampler.sampleBytesAccum)
    (skipped : state.skipped = sampler.skippedSampled)
    (idle : state.threads thread = .idle) :
    ∃ target,
      (sampleSystem Thread sampler.sampleRate).run state
          [.fetchAdd thread size, .step thread, .step thread] =
        some target ∧
      target.accum = (mttShouldTrack sampler size).2.sampleBytesAccum ∧
      target.skipped = (mttShouldTrack sampler size).2.skippedSampled ∧
      (target.subtractions = state.subtractions + 1 ↔
        (mttShouldTrack sampler size).1 = true) := by
  have notBig : ¬ mttBigAllocThreshold ≤ size := by
    unfold mttSampleExemptThreshold at small
    unfold mttBigAllocThreshold
    omega
  have notExempt : ¬ mttSampleExemptThreshold ≤ size := Nat.not_le.mpr small
  cases reached : sampleReached sampler.sampleRate state.accum size <;>
    simp [System.run, System.runBy, sampleSystem, sampleNext,
      SampleState.setThread, idle, small, reached, mttShouldTrack, notBig,
      notExempt, sampled, ← accum, ← skipped]

/-! ## The accumulator as an unbounded integer -/

/-- The bytes added minus a full step for each completed subtraction. -/
def SampleState.unboundedAccum (rate : Nat) (state : SampleState Thread) :
    Int :=
  state.added - state.subtractions * 2 ^ rate

/-- Whether the thread has passed the test, or is bound to pass it, and has
not subtracted its step yet. -/
def SamplePc.owes (rate : Nat) : SamplePc → Int
  | .compare oldAccum size => if sampleReached rate oldAccum size then 1 else 0
  | .subtract => 1
  | .idle | .skip => 0

def SampleState.owed [Fintype Thread] (rate : Nat)
    (state : SampleState Thread) : Int :=
  ∑ thread, (state.threads thread).owes rate

/-- A `fetch_add` that passes the test finds enough bytes for its own step and
for the steps still owed by other threads. -/
def CoveredPass [Fintype Thread] (rate : Nat) (state : SampleState Thread) :
    SampleLabel Thread → Prop
  | .fetchAdd _ size =>
      sampleReached rate state.accum size = true →
        2 ^ rate * (state.owed rate + 1) ≤ state.unboundedAccum rate + size
  | .step _ => True

instance [Fintype Thread] (rate : Nat) (state : SampleState Thread)
    (label : SampleLabel Thread) : Decidable (CoveredPass rate state label) :=
  match label with
  | .fetchAdd _ _ => inferInstanceAs (Decidable (_ → _))
  | .step _ => isTrue trivial

/-- Only the calls already begun go on. -/
def CompletesCall (_ : SampleState Thread) : SampleLabel Thread → Prop
  | .fetchAdd _ _ => False
  | .step _ => True

theorem SamplePc.owes_nonneg (rate : Nat) (pc : SamplePc) :
    0 ≤ pc.owes rate := by
  cases pc with
  | compare oldAccum size =>
      dsimp only [SamplePc.owes]
      split <;> decide
  | idle | skip | subtract => simp [SamplePc.owes]

theorem SampleState.owed_nonneg [Fintype Thread] (rate : Nat)
    (state : SampleState Thread) : 0 ≤ state.owed rate :=
  Finset.sum_nonneg fun _ _ => SamplePc.owes_nonneg rate _

theorem SampleState.owed_of_threads [Fintype Thread] [DecidableEq Thread]
    (rate : Nat) {state target : SampleState Thread} {thread : Thread}
    {pc : SamplePc}
    (threads : target.threads = Function.update state.threads thread pc) :
    target.owed rate =
      state.owed rate + (pc.owes rate - (state.threads thread).owes rate) := by
  unfold SampleState.owed
  rw [threads]
  exact Accounts.sum_update Finset.univ (SamplePc.owes rate) state.threads
    (Finset.mem_univ thread) pc

/-- The accumulator is the unbounded one modulo `2 ^ 64`, and the bytes in it
cover every step that is still owed. -/
structure AccumCovered [Fintype Thread] (rate : Nat)
    (state : SampleState Thread) : Prop where
  accum : state.accum = ((state.unboundedAccum rate : Int) : Word)
  covered : 2 ^ rate * state.owed rate ≤ state.unboundedAccum rate

theorem AccumCovered.nonneg [Fintype Thread] {rate : Nat}
    {state : SampleState Thread} (covered : AccumCovered rate state) :
    0 ≤ state.unboundedAccum rate :=
  le_trans (mul_nonneg (by positivity) (state.owed_nonneg rate))
    covered.covered

theorem sampleStep_eq_intCast (rate : Nat) :
    sampleStep rate = ((2 ^ rate : Int) : Word) := by
  apply BitVec.eq_of_toNat_eq
  change _ = (BitVec.ofInt 64 (2 ^ rate)).toNat
  rw [BitVec.toNat_ofInt]
  simp only [sampleStep, BitVec.toNat_shiftLeft, Nat.shiftLeft_eq]
  have remainder :
      ((2 ^ rate : Int) % (2 ^ 64 : Nat)) = ((2 ^ rate % 2 ^ 64 : Nat) : Int) :=
    by norm_cast
  rw [remainder, Int.toNat_natCast]
  simp

/-- What a step does to the accumulator, the ghosts and the steps owed. -/
inductive SampleEffect [Fintype Thread] (rate : Nat)
    (state : SampleState Thread) : SampleLabel Thread →
    SampleState Thread → Prop where
  | added {thread : Thread} {size : Nat} {target : SampleState Thread} :
      target.accum = state.accum + BitVec.ofNat 64 size →
      target.unboundedAccum rate = state.unboundedAccum rate + size →
      target.owed rate = state.owed rate +
        (if sampleReached rate state.accum size then 1 else 0) →
      SampleEffect rate state (.fetchAdd thread size) target
  | unchanged {thread : Thread} {target : SampleState Thread} :
      target.accum = state.accum →
      target.unboundedAccum rate = state.unboundedAccum rate →
      target.owed rate = state.owed rate →
      SampleEffect rate state (.step thread) target
  | subtracted {thread : Thread} {target : SampleState Thread} :
      target.accum = state.accum - sampleStep rate →
      target.unboundedAccum rate = state.unboundedAccum rate - 2 ^ rate →
      target.owed rate = state.owed rate - 1 →
      SampleEffect rate state (.step thread) target

theorem sampleNext_effect [Fintype Thread] [DecidableEq Thread] {rate : Nat}
    {state target : SampleState Thread} {label : SampleLabel Thread}
    (taken : sampleNext rate state label = some target) :
    SampleEffect rate state label target := by
  cases label with
  | fetchAdd thread size =>
      simp only [sampleNext, Option.ite_none_right_eq_some,
        Option.some.injEq] at taken
      obtain ⟨⟨idle, small⟩, rfl⟩ := taken
      refine .added rfl ?_ ?_
      · simp only [SampleState.unboundedAccum, SampleState.setThread]
        push_cast
        ring
      · rw [SampleState.owed_of_threads rate rfl]
        simp [idle, SamplePc.owes]
  | step thread =>
      cases pc : state.threads thread with
      | idle => simp [sampleNext, pc] at taken
      | compare oldAccum size =>
          simp only [sampleNext, pc, Option.some.injEq] at taken
          subst taken
          refine .unchanged rfl rfl ?_
          rw [SampleState.owed_of_threads rate rfl, pc]
          cases reached : sampleReached rate oldAccum size <;>
            simp [SamplePc.owes, reached]
      | subtract =>
          simp only [sampleNext, pc, Option.some.injEq] at taken
          subst taken
          refine .subtracted rfl ?_ ?_
          · simp only [SampleState.unboundedAccum, SampleState.setThread]
            push_cast
            ring
          · rw [SampleState.owed_of_threads rate rfl, pc]
            simp [SamplePc.owes, sub_eq_add_neg]
      | skip =>
          simp only [sampleNext, pc, Option.some.injEq] at taken
          subst taken
          refine .unchanged rfl rfl ?_
          rw [SampleState.owed_of_threads rate rfl, pc]
          simp [SamplePc.owes]

theorem AccumCovered.step [Fintype Thread] [DecidableEq Thread] {rate : Nat}
    {state target : SampleState Thread} {label : SampleLabel Thread}
    (covered : AccumCovered rate state)
    (allowed : CoveredPass rate state label)
    (taken : sampleNext rate state label = some target) :
    AccumCovered rate target := by
  cases sampleNext_effect taken with
  | @added thread size _ accum unbounded owed =>
      constructor
      · rw [accum, unbounded, covered.accum, Word.intCast_add_ofNat]
      · rw [unbounded, owed]
        split
        · rename_i reached
          exact allowed reached
        · rw [add_zero]
          exact le_add_of_le_of_nonneg covered.covered (by positivity)
  | unchanged accum unbounded owed =>
      constructor
      · rw [accum, unbounded, covered.accum]
      · rw [unbounded, owed]
        exact covered.covered
  | subtracted accum unbounded owed =>
      constructor
      · rw [accum, unbounded, covered.accum, sampleStep_eq_intCast]
        push_cast
        rfl
      · rw [unbounded, owed, mul_sub, mul_one]
        exact sub_le_sub_right covered.covered _

theorem accumCovered_reachable [Fintype Thread] [DecidableEq Thread]
    {rate : Nat} {state : SampleState Thread}
    (reachable :
      (sampleSystem Thread rate).ReachableBy (CoveredPass rate) state) :
    AccumCovered rate state := by
  refine reachable.invariant (AccumCovered rate) ?_ ?_
  · rintro initial ⟨accum, added, subtractions, idle⟩
    constructor
    · simp [SampleState.unboundedAccum, accum, added, subtractions]
    · simp [SampleState.unboundedAccum, SampleState.owed, added, subtractions,
        idle, SamplePc.owes]
  · intro before label after covered allowed taken
    exact covered.step allowed taken

/-! ## Uncovered steps are completed into a negative accumulator -/

theorem SamplePc.owes_eq_zero_or_one (rate : Nat) (pc : SamplePc) :
    pc.owes rate = 0 ∨ pc.owes rate = 1 := by
  cases pc with
  | compare oldAccum size =>
      dsimp only [SamplePc.owes]
      split
      · exact Or.inr rfl
      · exact Or.inl rfl
  | subtract => exact Or.inr rfl
  | idle | skip => exact Or.inl rfl

theorem SampleState.exists_owing [Fintype Thread] {rate : Nat}
    (state : SampleState Thread) (owed : 0 < state.owed rate) :
    ∃ thread, (state.threads thread).owes rate = 1 := by
  by_contra none
  have zero : ∀ thread ∈ Finset.univ,
      (state.threads thread).owes rate = 0 := by
    intro thread _
    exact (SamplePc.owes_eq_zero_or_one rate _).resolve_right
      fun one => none ⟨thread, one⟩
  rw [SampleState.owed, Finset.sum_eq_zero zero] at owed
  exact lt_irrefl 0 owed

/-- A thread that owes a step can go on alone until it has subtracted it. -/
theorem exists_subtracted [Fintype Thread] [DecidableEq Thread] {rate : Nat}
    {state : SampleState Thread} {thread : Thread}
    (owes : (state.threads thread).owes rate = 1) :
    ∃ later,
      (sampleSystem Thread rate).StepsBy CompletesCall state later ∧
      later.unboundedAccum rate = state.unboundedAccum rate - 2 ^ rate ∧
      later.owed rate = state.owed rate - 1 := by
  have subtracts : ∀ middle : SampleState Thread,
      middle.threads thread = .subtract →
      ∃ later, sampleNext rate middle (.step thread) = some later ∧
        later.unboundedAccum rate = middle.unboundedAccum rate - 2 ^ rate ∧
        later.owed rate = middle.owed rate - 1 := by
    intro middle pc
    refine ⟨_, by simp only [sampleNext, pc]; rfl, ?_, ?_⟩
    · simp only [SampleState.unboundedAccum, SampleState.setThread]
      push_cast
      ring
    · rw [SampleState.owed_of_threads rate rfl, pc]
      simp [SamplePc.owes, sub_eq_add_neg]
  cases pc : state.threads thread with
  | idle => simp [pc, SamplePc.owes] at owes
  | skip => simp [pc, SamplePc.owes] at owes
  | subtract =>
      obtain ⟨later, taken, unbounded, owed⟩ := subtracts state pc
      have allowed : CompletesCall state (.step thread) := trivial
      exact ⟨later, .tail (.refl state) allowed taken, unbounded, owed⟩
  | compare oldAccum size =>
      have reached : sampleReached rate oldAccum size = true := by
        by_contra missed
        simp [pc, SamplePc.owes, missed] at owes
      let middle := state.setThread thread .subtract
      have compared :
          sampleNext rate state (.step thread) = some middle := by
        simp [sampleNext, pc, reached, middle]
      have sameOwed : middle.owed rate = state.owed rate := by
        rw [SampleState.owed_of_threads rate rfl, pc]
        simp [SamplePc.owes, reached]
      obtain ⟨later, taken, unbounded, owed⟩ :=
        subtracts middle (by simp [middle, SampleState.setThread])
      have first : CompletesCall state (.step thread) := trivial
      have second : CompletesCall middle (.step thread) := trivial
      exact ⟨later, .tail (.tail (.refl state) first compared) second taken,
        unbounded, sameOwed ▸ owed⟩

/-- If the bytes do not cover the steps owed, completing the calls in flight
makes the accumulator negative. -/
theorem exists_negative_of_uncovered [Fintype Thread] [DecidableEq Thread]
    {rate : Nat} (state : SampleState Thread)
    (uncovered : state.unboundedAccum rate < 2 ^ rate * state.owed rate) :
    ∃ later,
      (sampleSystem Thread rate).StepsBy CompletesCall state later ∧
      later.unboundedAccum rate < 0 := by
  obtain ⟨count, owed⟩ := Int.eq_ofNat_of_zero_le (state.owed_nonneg rate)
  induction count generalizing state with
  | zero =>
      rw [owed] at uncovered
      exact ⟨state, .refl state, by simpa using uncovered⟩
  | succ count induction =>
      obtain ⟨thread, owes⟩ :=
        state.exists_owing (show 0 < state.owed rate by omega)
      obtain ⟨middle, steps, unbounded, middleOwed⟩ := exists_subtracted owes
      have stillUncovered :
          middle.unboundedAccum rate < 2 ^ rate * middle.owed rate := by
        rw [unbounded, middleOwed, mul_sub, mul_one]
        exact sub_lt_sub_right uncovered _
      obtain ⟨later, rest, negative⟩ :=
        induction middle stillUncovered (by omega)
      exact ⟨later, steps.trans rest, negative⟩

/-- Runs whose passing additions are covered keep the accumulator nonnegative,
and an addition that is not covered can be completed into a negative one. -/
theorem sampleAccum_nonneg_coveredPass [Fintype Thread] [DecidableEq Thread]
    (rate : Nat) :
    (∀ state,
      (sampleSystem Thread rate).ReachableBy (CoveredPass rate) state →
      0 ≤ state.unboundedAccum rate ∧
        state.accum = ((state.unboundedAccum rate : Int) : Word)) ∧
    (∀ state label target,
      (sampleSystem Thread rate).ReachableBy (CoveredPass rate) state →
      (sampleSystem Thread rate).next state label = some target →
      (CoveredPass rate state label ↔
        ∀ later,
          (sampleSystem Thread rate).StepsBy CompletesCall target later →
          0 ≤ later.unboundedAccum rate)) := by
  refine ⟨?_, ?_⟩
  · intro state reachable
    have covered := accumCovered_reachable reachable
    exact ⟨covered.nonneg, covered.accum⟩
  · intro state label target reachable taken
    constructor
    · intro allowed later steps
      have coveredTarget := (accumCovered_reachable reachable).step allowed taken
      refine AccumCovered.nonneg
        (steps.preserves (AccumCovered rate) ?_ coveredTarget)
      intro before next after covered completes moved
      refine covered.step ?_ moved
      cases next with
      | fetchAdd thread size => exact completes.elim
      | step thread => trivial
    · intro nonneg
      cases sampleNext_effect taken with
      | added accum unbounded owed =>
          intro reached
          by_contra short
          rw [if_pos reached] at owed
          obtain ⟨later, steps, negative⟩ :=
            exists_negative_of_uncovered target
              (by rw [unbounded, owed]; exact lt_of_not_ge short)
          exact absurd (nonneg later steps) (not_le.mpr negative)
      | unchanged => trivial
      | subtracted => trivial

def sampleStart (Thread : Type) : SampleState Thread :=
  { accum := 0
    skipped := 0
    added := 0
    subtractions := 0
    threads := fun _ => .idle }

theorem sampleStart_init (Thread : Type) [DecidableEq Thread] (rate : Nat) :
    (sampleSystem Thread rate).init (sampleStart Thread) :=
  ⟨rfl, rfl, rfl, fun _ => rfl⟩

/-- Two threads add one byte each, and the second one subtracts both. -/
def coveredPasses : List (SampleLabel Worker) :=
  [.fetchAdd .first 1, .fetchAdd .second 1, .step .first, .step .second,
    .step .second]

theorem sampleAccum_nonneg_coveredPasses :
    ∃ state : SampleState Worker,
      state.subtractions = 1 ∧ 0 ≤ state.unboundedAccum 1 := by
  obtain ⟨state, reachable, subtracted⟩ :=
    System.exists_reachableBy_of_runBy (sampleSystem Worker 1)
      (CoveredPass 1) (fun state => state.subtractions == 1) coveredPasses
      (sampleStart_init Worker 1) (by decide)
  exact ⟨state, by simpa using subtracted,
    ((sampleAccum_nonneg_coveredPass 1).1 state reachable).1⟩

/-- Three threads add one byte each; the second and the third both see two
bytes or more, and both subtract two. -/
def overlappingPasses : List (SampleLabel Worker) :=
  [.fetchAdd .first 1, .fetchAdd .second 1, .fetchAdd .third 1,
    .step .second, .step .third, .step .second, .step .third]

theorem sampleAccum_negative_overlappingPasses :
    ¬ ∀ rate : Nat, 1 ≤ rate → rate ≤ 30 →
      ∀ state : SampleState Worker,
        (sampleSystem Worker rate).Reachable state →
        state.subtractions * 2 ^ rate ≤ state.added := by
  intro claimed
  obtain ⟨state, reachable, broken⟩ :=
    System.exists_reachable_of_run (sampleSystem Worker 1)
      (fun state => state.subtractions == 2 && state.added == 3)
      overlappingPasses (sampleStart_init Worker 1) (by decide)
  simp only [Bool.and_eq_true, beq_iff_eq] at broken
  have bound := claimed 1 (by decide) (by decide) state reachable
  rw [broken.1, broken.2] at bound
  contradiction

end MemoryTraceTool
