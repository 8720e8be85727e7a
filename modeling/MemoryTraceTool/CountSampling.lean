import MemoryTraceTool.Sampling

/-!
# Sampling every n-th request

Without a byte rate and with a period, `mtt_should_track` numbers the sampled
requests by a `fetch_add` and records those whose number the period divides.
The number, the comparison and the count of skipped requests are separate, and
the number wraps after `2 ^ 64` requests.
-/

namespace MemoryTraceTool.CountSampling

open Transition

/-- Where a thread stands in a counted call of `mtt_should_track`. -/
inductive CountPc where
  | idle
  | compare (count : Word)
  | skip
  deriving DecidableEq, Repr

/-- `sample_counter` and `skipped_sampled`.  `counted` and `recorded` are
ghosts: the requests that were numbered and those of them that are recorded. -/
structure CountState (Thread : Type) where
  sampleCounter : Word
  skippedSampled : Word
  counted : Nat
  recorded : Nat
  threads : Thread → CountPc

/-- A request comes in, or a thread does its next access. -/
inductive CountLabel (Thread : Type) where
  | request (thread : Thread) (size : Nat)
  | step (thread : Thread)

variable {Thread : Type}

def CountState.setThread [DecidableEq Thread] (state : CountState Thread)
    (thread : Thread) (pc : CountPc) : CountState Thread :=
  { state with threads := Function.update state.threads thread pc }

/-- `(c % period) == 0`. -/
def countReached (period : Nat) (count : Word) : Bool :=
  count.toNat % period == 0

/-- One access to the shared counters at a time. -/
def countNext [DecidableEq Thread] (period : Nat)
    (state : CountState Thread) :
    CountLabel Thread → Option (CountState Thread)
  | .request thread size =>
      if state.threads thread = .idle then
        if mttSampleExemptThreshold ≤ size then some state
        else
          some { state.setThread thread (.compare state.sampleCounter) with
            sampleCounter := state.sampleCounter + 1
            counted := state.counted + 1 }
      else none
  | .step thread =>
      match state.threads thread with
      | .idle => none
      | .compare count =>
          if countReached period count then
            some { state.setThread thread .idle with
              recorded := state.recorded + 1 }
          else some (state.setThread thread .skip)
      | .skip =>
          some { state.setThread thread .idle with
            skippedSampled := state.skippedSampled + 1 }

/-- The counters as `mtt_ensure_init` stores them. -/
def CountState.initial : CountState Thread :=
  { sampleCounter := 0
    skippedSampled := 0
    counted := 0
    recorded := 0
    threads := fun _ => .idle }

/-- Any number of threads with requests of any size at one period. -/
def countSystem (Thread : Type) [DecidableEq Thread] (period : Nat) :
    System (CountState Thread) (CountLabel Thread) where
  init := fun state => state = .initial
  next := countNext period

/-- A call that runs without interruption computes `mtt_should_track`. -/
theorem countNext_alone [DecidableEq Thread] (sampler : Sampler)
    (state : CountState Thread) (thread : Thread) {size : Nat}
    (unrated : sampler.sampleRate = 0) (periodic : 0 < sampler.samplePeriod)
    (small : size < mttSampleExemptThreshold)
    (counter : state.sampleCounter = sampler.sampleCounter)
    (skipped : state.skippedSampled = sampler.skippedSampled)
    (idle : state.threads thread = .idle) :
    ∃ labels target,
      (countSystem Thread sampler.samplePeriod).run state
          (.request thread size :: labels) = some target ∧
      target.threads thread = .idle ∧
      target.sampleCounter = (mttShouldTrack sampler size).2.sampleCounter ∧
      target.skippedSampled =
        (mttShouldTrack sampler size).2.skippedSampled ∧
      (target.recorded = state.recorded + 1 ↔
        (mttShouldTrack sampler size).1 = true) := by
  have notBig : ¬ mttBigAllocThreshold ≤ size := by
    unfold mttSampleExemptThreshold at small
    unfold mttBigAllocThreshold
    omega
  have notExempt : ¬ mttSampleExemptThreshold ≤ size := Nat.not_le.mpr small
  have positive : sampler.samplePeriod ≠ 0 := Nat.ne_of_gt periodic
  by_cases reached : sampler.sampleCounter.toNat % sampler.samplePeriod = 0
  · refine ⟨[.step thread], ?_⟩
    simp [System.run, System.runBy, countSystem, countNext,
      CountState.setThread, countReached, idle, reached, mttShouldTrack,
      notBig, notExempt, unrated, positive, counter, ← skipped]
  · refine ⟨[.step thread, .step thread], ?_⟩
    simp [System.run, System.runBy, countSystem, countNext,
      CountState.setThread, countReached, idle, reached, mttShouldTrack,
      notBig, notExempt, unrated, positive, counter, ← skipped]

/-! ## How many requests are due -/

/-- How many of the numbers below `count` the period divides. -/
def multiplesBelow (period count : Nat) : Nat :=
  (count + (period - 1)) / period

/-- How many of the first `counted` requests are recorded: those of the whole
turns of the counter, and those since it last was zero. -/
def dueRecords (period counted : Nat) : Nat :=
  counted / 2 ^ 64 * multiplesBelow period (2 ^ 64) +
    multiplesBelow period (counted % 2 ^ 64)

theorem multiplesBelow_zero {period : Nat} (positive : 0 < period) :
    multiplesBelow period 0 = 0 := by
  rw [multiplesBelow, Nat.div_eq_zero_iff]
  omega

theorem multiplesBelow_succ {period : Nat} (positive : 0 < period)
    (count : Nat) :
    multiplesBelow period (count + 1) =
      multiplesBelow period count + if count % period = 0 then 1 else 0 := by
  have shifted : count + 1 + (period - 1) = count + period := by omega
  rw [multiplesBelow, multiplesBelow, shifted,
    Nat.add_div_right count positive]
  have split := Nat.div_add_mod count period
  have below := Nat.mod_lt count positive
  have scaled : count + (period - 1) =
      (count % period + (period - 1)) + period * (count / period) := by omega
  rw [scaled, Nat.add_mul_div_left _ _ positive]
  split_ifs with divides
  · have none : (count % period + (period - 1)) / period = 0 := by
      apply Nat.div_eq_of_lt
      omega
    omega
  · have once : (count % period + (period - 1)) / period = 1 := by
      apply Nat.div_eq_of_lt_le <;> omega
    omega

theorem multiplesBelow_bounds {period : Nat} (positive : 0 < period)
    (count : Nat) :
    count ≤ multiplesBelow period count * period ∧
      multiplesBelow period count * period < count + period := by
  have split := Nat.div_add_mod (count + (period - 1)) period
  have below := Nat.mod_lt (count + (period - 1)) positive
  rw [Nat.mul_comm] at split
  rw [multiplesBelow]
  omega

theorem dueRecords_succ {period : Nat} (positive : 0 < period)
    (counted : Nat) :
    dueRecords period (counted + 1) = dueRecords period counted +
      if countReached period (BitVec.ofNat 64 counted) then 1 else 0 := by
  have step := multiplesBelow_succ positive (counted % 2 ^ 64)
  have test : countReached period (BitVec.ofNat 64 counted) = true ↔
      counted % 2 ^ 64 % period = 0 := by
    rw [countReached, beq_iff_eq, BitVec.toNat_ofNat]
  simp only [test]
  by_cases last : counted % 2 ^ 64 + 1 = 2 ^ 64
  · have turned : (counted + 1) / 2 ^ 64 = counted / 2 ^ 64 + 1 := by omega
    have started : (counted + 1) % 2 ^ 64 = 0 := by omega
    rw [last] at step
    rw [dueRecords, dueRecords, turned, started, step,
      multiplesBelow_zero positive, Nat.add_mul]
    omega
  · have same : (counted + 1) / 2 ^ 64 = counted / 2 ^ 64 := by omega
    have next : (counted + 1) % 2 ^ 64 = counted % 2 ^ 64 + 1 := by omega
    rw [dueRecords, dueRecords, same, next, step, Nat.add_assoc]

theorem dueRecords_of_lt {period counted : Nat}
    (unwrapped : counted < 2 ^ 64) :
    dueRecords period counted = multiplesBelow period counted := by
  rw [dueRecords, Nat.div_eq_of_lt unwrapped, Nat.mod_eq_of_lt unwrapped,
    Nat.zero_mul, Nat.zero_add]

/-! ## The requests in flight -/

/-- Whether the call is bound to record its request. -/
def CountPc.passes (period : Nat) : CountPc → Int
  | .compare count => if countReached period count then 1 else 0
  | .idle | .skip => 0

/-- Whether the call is bound to add to `skipped_sampled`. -/
def CountPc.misses (period : Nat) : CountPc → Int
  | .compare count => if countReached period count then 0 else 1
  | .skip => 1
  | .idle => 0

@[simp] theorem CountPc.passes_idle (period : Nat) :
    CountPc.idle.passes period = 0 := rfl

@[simp] theorem CountPc.passes_skip (period : Nat) :
    CountPc.skip.passes period = 0 := rfl

theorem CountPc.passes_compare (period : Nat) (count : Word) :
    (CountPc.compare count).passes period =
      if countReached period count then 1 else 0 := rfl

@[simp] theorem CountPc.misses_idle (period : Nat) :
    CountPc.idle.misses period = 0 := rfl

@[simp] theorem CountPc.misses_skip (period : Nat) :
    CountPc.skip.misses period = 1 := rfl

theorem CountPc.misses_compare (period : Nat) (count : Word) :
    (CountPc.compare count).misses period =
      if countReached period count then 0 else 1 := rfl

/-- The numbers given out are those of the counter; every one of them is
recorded, skipped, or held by a call that is bound to do so. -/
structure Counted [Fintype Thread] (period : Nat)
    (state : CountState Thread) : Prop where
  counter : state.sampleCounter = BitVec.ofNat 64 state.counted
  recorded : state.recorded +
      ∑ thread, (state.threads thread).passes period =
    (dueRecords period state.counted : Int)
  skipped : ∃ skipped : Nat,
    state.skippedSampled = BitVec.ofNat 64 skipped ∧
      skipped + ∑ thread, (state.threads thread).misses period =
        (state.counted : Int) - dueRecords period state.counted

theorem Counted.recorded_of_quiet [Fintype Thread] {period : Nat}
    {state : CountState Thread}
    (holds : Counted period state)
    (quiet : ∀ thread, state.threads thread = .idle) :
    state.recorded = dueRecords period state.counted := by
  have recorded := holds.recorded
  simp only [quiet, CountPc.passes_idle, Finset.sum_const_zero] at recorded
  omega

theorem Counted.skipped_of_quiet [Fintype Thread] {period : Nat}
    {state : CountState Thread}
    (holds : Counted period state)
    (quiet : ∀ thread, state.threads thread = .idle) :
    state.skippedSampled =
      BitVec.ofNat 64 (state.counted - dueRecords period state.counted) := by
  obtain ⟨skipped, word, sum⟩ := holds.skipped
  simp only [quiet, CountPc.misses_idle, Finset.sum_const_zero] at sum
  have same : skipped = state.counted - dueRecords period state.counted := by
    omega
  rw [word, same]

theorem counted_le_of_steps [DecidableEq Thread] {period : Nat}
    {state target : CountState Thread}
    (steps : (countSystem Thread period).StepsBy (fun _ _ => True)
      state target) :
    state.counted ≤ target.counted := by
  refine steps.preserves (fun later => state.counted ≤ later.counted) ?_
    (Nat.le_refl _)
  intro before label after more _ taken
  cases label with
  | request thread size =>
      simp only [countSystem, countNext, Option.ite_none_right_eq_some]
        at taken
      obtain ⟨-, taken⟩ := taken
      split at taken
      · cases taken
        exact more
      · cases taken
        exact Nat.le_succ_of_le more
  | step thread =>
      simp only [countSystem, countNext] at taken
      split at taken
      · contradiction
      · split at taken <;>
          · cases taken
            exact more
      · cases taken
        exact more

section Threads

variable [Fintype Thread] [DecidableEq Thread]

theorem sum_moved (amount : CountPc → Int) {state : CountState Thread}
    {thread : Thread} {before : CountPc}
    (there : state.threads thread = before) (after : CountPc) :
    ∑ other, amount (Function.update state.threads thread after other) =
      ∑ other, amount (state.threads other) +
        (amount after - amount before) := by
  rw [← there]
  exact Accounts.sum_update Finset.univ amount state.threads
    (Finset.mem_univ thread) after

theorem Counted.request {period : Nat} {state : CountState Thread}
    (positive : 0 < period) (holds : Counted period state)
    {thread : Thread} (idle : state.threads thread = .idle) :
    Counted period
      { state.setThread thread (.compare state.sampleCounter) with
        sampleCounter := state.sampleCounter + 1
        counted := state.counted + 1 } := by
  have due := dueRecords_succ positive state.counted
  obtain ⟨skipped, word, sum⟩ := holds.skipped
  have recorded := holds.recorded
  constructor
  · dsimp only
    rw [holds.counter, BitVec.ofNat_add]
    rfl
  · simp only [CountState.setThread]
    rw [sum_moved (CountPc.passes period) idle, holds.counter, due]
    simp only [CountPc.passes_idle, CountPc.passes_compare]
    push_cast
    omega
  · refine ⟨skipped, word, ?_⟩
    simp only [CountState.setThread]
    rw [sum_moved (CountPc.misses period) idle, holds.counter, due]
    simp only [CountPc.misses_idle, CountPc.misses_compare]
    split_ifs <;> push_cast <;> omega

theorem Counted.step {period : Nat} {state target : CountState Thread}
    {label : CountLabel Thread} (positive : 0 < period)
    (holds : Counted period state)
    (taken : countNext period state label = some target) :
    Counted period target := by
  obtain ⟨skipped, word, sum⟩ := holds.skipped
  have recorded := holds.recorded
  cases label with
  | request thread size =>
      simp only [countNext, Option.ite_none_right_eq_some] at taken
      obtain ⟨idle, taken⟩ := taken
      split at taken
      · cases taken
        exact holds
      · cases taken
        exact holds.request positive idle
  | step thread =>
      simp only [countNext] at taken
      split at taken
      · contradiction
      · rename_i count compared
        split at taken
        · rename_i reached
          cases taken
          refine ⟨holds.counter, ?_, skipped, word, ?_⟩
          · simp only [CountState.setThread]
            rw [sum_moved (CountPc.passes period) compared]
            simp only [CountPc.passes_idle, CountPc.passes_compare, reached,
              if_true]
            push_cast
            omega
          · simp only [CountState.setThread]
            rw [sum_moved (CountPc.misses period) compared]
            simp only [CountPc.misses_idle, CountPc.misses_compare, reached,
              if_true]
            omega
        · rename_i missed
          cases taken
          refine ⟨holds.counter, ?_, skipped, word, ?_⟩
          · simp only [CountState.setThread]
            rw [sum_moved (CountPc.passes period) compared]
            simpa [CountPc.passes_compare, missed] using recorded
          · simp only [CountState.setThread]
            rw [sum_moved (CountPc.misses period) compared]
            simpa [CountPc.misses_compare, missed] using sum
      · rename_i missed
        cases taken
        refine ⟨holds.counter, ?_, skipped + 1, ?_, ?_⟩
        · simp only [CountState.setThread]
          rw [sum_moved (CountPc.passes period) missed]
          simpa using recorded
        · dsimp only
          rw [word, BitVec.ofNat_add]
          rfl
        · simp only [CountState.setThread]
          rw [sum_moved (CountPc.misses period) missed]
          simp only [CountPc.misses_idle, CountPc.misses_skip]
          push_cast
          omega

theorem counted_reachable {period : Nat} (positive : 0 < period)
    {state : CountState Thread}
    (reachable : (countSystem Thread period).Reachable state) :
    Counted period state := by
  refine reachable.invariant (Counted period) ?_ ?_
  · intro initial start
    subst start
    have none : dueRecords period 0 = 0 := by
      rw [dueRecords_of_lt (by decide), multiplesBelow_zero positive]
    refine ⟨rfl, ?_, 0, rfl, ?_⟩ <;>
      simp [CountState.initial, none]
  · intro before label after holds _ taken
    exact holds.step positive taken

/-- However the threads interleave, once no call is in flight exactly the due
requests were recorded and `skipped_sampled` counts all the others; and until
the counter wraps, any further requests record their share up to one. -/
theorem mttShouldTrack_counted {period : Nat} (positive : 0 < period)
    {state : CountState Thread}
    (reachable : (countSystem Thread period).Reachable state)
    (quiet : ∀ thread, state.threads thread = .idle) :
    state.recorded = dueRecords period state.counted ∧
      state.skippedSampled = BitVec.ofNat 64
        (state.counted - dueRecords period state.counted) ∧
      ∀ target, (countSystem Thread period).StepsBy (fun _ _ => True)
          state target →
        (∀ thread, target.threads thread = .idle) →
        target.counted < 2 ^ 64 →
        target.recorded * period <
            state.recorded * period + (target.counted - state.counted) +
              period ∧
          state.recorded * period + (target.counted - state.counted) <
            target.recorded * period + period := by
  have holds := counted_reachable positive reachable
  have recorded := holds.recorded_of_quiet quiet
  refine ⟨recorded, holds.skipped_of_quiet quiet, ?_⟩
  intro target steps targetQuiet unwrapped
  have more := counted_le_of_steps steps
  have later := (counted_reachable positive
    (reachable.extend steps)).recorded_of_quiet targetQuiet
  rw [dueRecords_of_lt unwrapped] at later
  rw [dueRecords_of_lt (Nat.lt_of_le_of_lt more unwrapped)] at recorded
  have stateBounds := multiplesBelow_bounds positive state.counted
  have targetBounds := multiplesBelow_bounds positive target.counted
  rw [recorded, later]
  omega

end Threads

/-- Two threads draw the numbers 0 to 3 at a period of two; the call with
number 1 is still undecided when those with 2 and 3 are through. -/
def crossedRequests : List (CountLabel Worker) :=
  [.request .first 8, .request .second 8, .step .first, .request .first 8,
    .step .first, .request .first 8, .step .first, .step .first,
    .request .third 1024, .step .second, .step .second]

theorem mttShouldTrack_counted_crossedRequests :
    ∃ state : CountState Worker,
      (countSystem Worker 2).Reachable state ∧ state.counted = 4 ∧
        state.recorded = 2 ∧ state.skippedSampled = 2 := by
  have start : (countSystem Worker 2).init .initial := rfl
  obtain ⟨state, reachable, tested⟩ :=
    System.exists_reachable_of_run (countSystem Worker 2)
      (fun state => state.counted == 4 &&
        decide (∀ thread, state.threads thread = .idle))
      crossedRequests start (by decide)
  simp only [Bool.and_eq_true, beq_iff_eq, decide_eq_true_eq] at tested
  obtain ⟨recorded, skipped, -⟩ :=
    mttShouldTrack_counted (by decide) reachable tested.2
  rw [tested.1] at recorded skipped
  exact ⟨state, reachable, tested.1, recorded, skipped⟩

end MemoryTraceTool.CountSampling
