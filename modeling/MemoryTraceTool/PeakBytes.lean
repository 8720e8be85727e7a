import MemoryTraceTool.Counters

/-!
# The recorded peak

`peak_bytes` is raised from a second load of `current_bytes`, not from the
value that the addition returned.  Between the two another thread may take
bytes off, and the height that the addition reached is never seen.
-/

namespace MemoryTraceTool

open Transition

variable {Thread : Type} [DecidableEq Thread]

/-! ## Runs with the largest value so far -/

/-- A state together with the largest value that `current_bytes` has had. -/
structure WatchedState (Thread : Type) where
  state : CounterState Thread
  largest : Nat

def watchedNext (watched : WatchedState Thread)
    (label : CounterLabel Thread) : Option (WatchedState Thread) :=
  (counterNext watched.state label).map fun target =>
    { state := target
      largest := max watched.largest target.counters.currentBytes.toNat }

/-- The counter system from an initialised tracker, whose peak is 0. -/
def watchedSystem (Thread : Type) [DecidableEq Thread] :
    System (WatchedState Thread) (CounterLabel Thread) where
  init := fun watched =>
    (counterSystem Thread).init watched.state ∧
      watched.state.counters.peakBytes = 0 ∧ watched.largest = 0
  next := watchedNext

/-- The value of `current_bytes` that a thread compares with the peak. -/
def SectionPc.loaded : SectionPc → Option Word
  | .loadPeak _ _ current | .casPeak _ _ current _ => some current
  | _ => none

/-- The peak that a thread last saw. -/
def SectionPc.compared : SectionPc → Option Word
  | .casPeak _ _ _ oldPeak => some oldPeak
  | _ => none

/-- A thread that has added its bytes and will load `current_bytes`. -/
def SectionPc.WillLoad : SectionPc → Prop
  | .addTotal _ _ | .loadCurrent _ _ => True
  | _ => False

/-- The value is in the peak, or a thread has loaded at least as much and is
still comparing. -/
def CounterState.Recorded (state : CounterState Thread) (value : Nat) : Prop :=
  value ≤ state.counters.peakBytes.toNat ∨
    ∃ thread, ∃ loaded ∈ (state.threads thread).pc.loaded,
      value ≤ loaded.toNat

/-- An operation that takes bytes off finds the present height recorded, and
no subtraction goes below 0. -/
def CounterState.HeightKept (state : CounterState Thread) : SectionPc → Prop
  | .addBytes entry _ =>
      state.counters.currentBytes.toNat + entry.size < 2 ^ 64 ∨
        state.Recorded state.counters.currentBytes.toNat
  | .subBytes entry guard current =>
      state.Recorded state.counters.currentBytes.toNat ∧
        (guard.resets entry.size current = true ∨
          entry.size ≤ state.counters.currentBytes.toNat)
  | _ => True

def KeepsHeight (state : CounterState Thread) : CounterLabel Thread → Prop
  | .step thread _ => state.HeightKept (state.threads thread).pc
  | _ => True

/-! ## What an operation does to the two counters -/

/-- The operations of a section, by what they do to `current_bytes`,
`peak_bytes` and the loaded value. -/
inductive PeakMove (counters : Counters) :
    SectionPc → Counters → SectionPc → Prop where
  | other {pc laterPc : SectionPc} {later : Counters}
      (current : later.currentBytes = counters.currentBytes)
      (peak : later.peakBytes = counters.peakBytes)
      (before : pc.loaded = none) (after : laterPc.loaded = none)
      (waits : pc.WillLoad → laterPc.WillLoad) :
      PeakMove counters pc later laterPc
  | add {later : Counters} (entry : MttEntry) (notice : PeakNotice)
      (current : later.currentBytes =
        counters.currentBytes + BitVec.ofNat 64 entry.size)
      (peak : later.peakBytes = counters.peakBytes) :
      PeakMove counters (.addBytes entry notice) later (.addTotal entry notice)
  | load (entry : MttEntry) (notice : PeakNotice) :
      PeakMove counters (.loadCurrent entry notice) counters
        (.loadPeak entry notice counters.currentBytes)
  | compare (entry : MttEntry) (notice : PeakNotice) (current : Word)
      {pc : SectionPc} (loaded : pc.loaded = some current)
      (waits : ¬ pc.WillLoad) :
      PeakMove counters pc counters
        (.casPeak entry notice current counters.peakBytes)
  | raise {later : Counters} (entry : MttEntry) (notice : PeakNotice)
      (current : Word)
      (higher : counters.peakBytes.toNat < current.toNat)
      (same : later.currentBytes = counters.currentBytes)
      (peak : later.peakBytes = current) :
      PeakMove counters (.casPeak entry notice current counters.peakBytes)
        later (.markPeak entry notice true)
  | give (entry : MttEntry) (notice : PeakNotice) (current oldPeak : Word)
      (lower : current.toNat ≤ oldPeak.toNat) :
      PeakMove counters (.casPeak entry notice current oldPeak) counters
        (.markPeak entry notice false)
  | takeOff {later : Counters} (entry : MttEntry) (guard : UnderflowGuard)
      (current : Word)
      (lowered : later.currentBytes =
        if guard.resets entry.size current then 0
        else counters.currentBytes - BitVec.ofNat 64 entry.size)
      (peak : later.peakBytes = counters.peakBytes) :
      PeakMove counters (.subBytes entry guard current) later
        (.countFree entry)

theorem sectionStep_peak {seed : Word} {buckets laterBuckets : Buckets}
    {spurious : Bool} {counters later : Counters} {pc laterPc : SectionPc}
    (taken : sectionStep seed spurious counters buckets pc =
      some (later, laterBuckets, laterPc)) :
    PeakMove counters pc later laterPc := by
  cases pc with
  | outside | acquire | release => simp [sectionStep] at taken
  | lookup | takeSeq | countAlloc | markPeak | link | countEntry | loadBytes
  | countFree | uncountEntry =>
      simp only [sectionStep, Option.some.injEq, Prod.mk.injEq] at taken
      obtain ⟨rfl, _, rfl⟩ := taken
      exact .other rfl rfl rfl rfl id
  | addTotal =>
      simp only [sectionStep, Option.some.injEq, Prod.mk.injEq] at taken
      obtain ⟨rfl, _, rfl⟩ := taken
      exact .other rfl rfl rfl rfl id
  | check | unlink =>
      simp only [sectionStep] at taken
      split_ifs at taken <;>
      · simp only [Option.some.injEq, Prod.mk.injEq] at taken
        obtain ⟨rfl, _, rfl⟩ := taken
        exact .other rfl rfl rfl rfl id
  | search =>
      simp only [sectionStep] at taken
      split at taken <;>
      · simp only [Option.some.injEq, Prod.mk.injEq] at taken
        obtain ⟨rfl, _, rfl⟩ := taken
        exact .other rfl rfl rfl rfl id
  | addBytes entry notice =>
      simp only [sectionStep, Option.some.injEq, Prod.mk.injEq] at taken
      obtain ⟨rfl, _, rfl⟩ := taken
      exact .add entry notice rfl rfl
  | loadCurrent entry notice =>
      simp only [sectionStep, Option.some.injEq, Prod.mk.injEq] at taken
      obtain ⟨rfl, _, rfl⟩ := taken
      exact .load entry notice
  | loadPeak entry notice current =>
      simp only [sectionStep, Option.some.injEq, Prod.mk.injEq] at taken
      obtain ⟨rfl, _, rfl⟩ := taken
      exact .compare entry notice current rfl id
  | casPeak entry notice current oldPeak =>
      simp only [sectionStep] at taken
      split_ifs at taken with lower swaps
      · simp only [Option.some.injEq, Prod.mk.injEq] at taken
        obtain ⟨rfl, _, rfl⟩ := taken
        obtain ⟨rfl, _⟩ := swaps
        exact .raise entry notice current (BitVec.lt_def.mp lower) rfl rfl
      · simp only [Option.some.injEq, Prod.mk.injEq] at taken
        obtain ⟨rfl, _, rfl⟩ := taken
        exact .compare entry notice current rfl id
      · simp only [Option.some.injEq, Prod.mk.injEq] at taken
        obtain ⟨rfl, _, rfl⟩ := taken
        exact .give entry notice current oldPeak
          (Nat.le_of_not_lt fun less => lower (BitVec.lt_def.mpr less))
  | subBytes entry guard current =>
      simp only [sectionStep] at taken
      split_ifs at taken with resets
      · simp only [Option.some.injEq, Prod.mk.injEq] at taken
        obtain ⟨rfl, _, rfl⟩ := taken
        exact .takeOff entry guard current (if_pos resets).symm rfl
      · simp only [Option.some.injEq, Prod.mk.injEq] at taken
        obtain ⟨rfl, _, rfl⟩ := taken
        exact .takeOff entry guard current (if_neg resets).symm rfl

theorem PeakMove.peak_le {counters later : Counters} {pc laterPc : SectionPc}
    (move : PeakMove counters pc later laterPc) :
    counters.peakBytes.toNat ≤ later.peakBytes.toNat := by
  cases move with
  | other _ peak | add _ _ _ peak | takeOff _ _ _ _ peak => rw [peak]
  | load | compare | give => exact Nat.le_refl _
  | raise _ _ _ higher _ peak =>
      rw [peak]
      exact Nat.le_of_lt higher

theorem peakBytes_le_next {state target : CounterState Thread}
    {label : CounterLabel Thread}
    (taken : counterNext state label = some target) :
    state.counters.peakBytes.toNat ≤ target.counters.peakBytes.toNat := by
  cases counterNext_cases taken with
  | crosses _ _ _ _ counters => rw [counters]
  | operates _ _ _ _ _ _ operated => exact (sectionStep_peak operated).peak_le

omit [DecidableEq Thread] in
theorem CounterState.Crosses.loaded {state : CounterState Thread}
    {locks : Nat → Option Thread} {thread : Thread} {pc laterPc : SectionPc}
    (crossed : state.Crosses locks thread pc laterPc) :
    pc.loaded = none ∧ laterPc.loaded = none := by
  cases crossed with
  | between | enter | unlock => exact ⟨rfl, rfl⟩
  | lock entered =>
      refine ⟨rfl, ?_⟩
      cases entered <;> rfl

omit [DecidableEq Thread] in
theorem CounterState.Crosses.not_willLoad {state : CounterState Thread}
    {locks : Nat → Option Thread} {thread : Thread} {pc laterPc : SectionPc}
    (crossed : state.Crosses locks thread pc laterPc) : ¬ pc.WillLoad := by
  cases crossed <;> exact id

/-! ## The height is recorded -/

/-- The largest value is recorded, or it is the present value and a thread
will load it. -/
structure PeakInvariant (watched : WatchedState Thread) : Prop where
  current_le : watched.state.counters.currentBytes.toNat ≤ watched.largest
  peak_le : watched.state.counters.peakBytes.toNat ≤ watched.largest
  loaded_le : ∀ thread loaded,
    (watched.state.threads thread).pc.loaded = some loaded →
    loaded.toNat ≤ watched.largest
  compared_le : ∀ thread compared,
    (watched.state.threads thread).pc.compared = some compared →
    compared.toNat ≤ watched.state.counters.peakBytes.toNat
  recorded : watched.state.Recorded watched.largest ∨
    watched.state.counters.currentBytes.toNat = watched.largest ∧
      ∃ thread, (watched.state.threads thread).pc.WillLoad

omit [DecidableEq Thread] in
theorem CounterState.Recorded.mono {state : CounterState Thread}
    {value smaller : Nat} (recorded : state.Recorded value)
    (less : smaller ≤ value) : state.Recorded smaller := by
  rcases recorded with inPeak | ⟨thread, loaded, here, above⟩
  · exact .inl (less.trans inPeak)
  · exact .inr ⟨thread, loaded, here, less.trans above⟩

theorem CounterState.Recorded.moves {state target : CounterState Thread}
    {thread : Thread} {moved : SectionThread} {value : Nat}
    (recorded : state.Recorded value)
    (threads : target.threads = Function.update state.threads thread moved)
    (peak : state.counters.peakBytes.toNat ≤ target.counters.peakBytes.toNat)
    (own : ∀ loaded, (state.threads thread).pc.loaded = some loaded →
      loaded.toNat ≤ target.counters.peakBytes.toNat ∨
        moved.pc.loaded = some loaded) :
    target.Recorded value := by
  rcases recorded with inPeak | ⟨other, loaded, here, above⟩
  · exact .inl (inPeak.trans peak)
  · by_cases same : other = thread
    · subst same
      rcases own loaded here with stored | kept
      · exact .inl (above.trans stored)
      · refine .inr ⟨other, loaded, ?_, above⟩
        rw [threads, Function.update_self]
        exact kept
    · refine .inr ⟨other, loaded, ?_, above⟩
      rw [threads, Function.update_of_ne same]
      exact here

theorem SectionPc.compared_of_loaded {pc : SectionPc}
    (loaded : pc.loaded = none) : pc.compared = none := by
  cases pc with
  | casPeak => cases loaded
  | _ => rfl

theorem PeakInvariant.moves {watched : WatchedState Thread}
    {target : CounterState Thread} {thread : Thread} {moved : SectionThread}
    (invariant : PeakInvariant watched)
    (threads : target.threads =
      Function.update watched.state.threads thread moved)
    (peak : watched.state.counters.peakBytes.toNat ≤
      target.counters.peakBytes.toNat)
    (peak_le : target.counters.peakBytes.toNat ≤ watched.largest)
    (loaded : ∀ loaded, moved.pc.loaded = some loaded →
      loaded.toNat ≤ watched.largest)
    (compared : ∀ compared, moved.pc.compared = some compared →
      compared.toNat ≤ target.counters.peakBytes.toNat)
    (recorded :
      let largest := max watched.largest target.counters.currentBytes.toNat
      target.Recorded largest ∨
        target.counters.currentBytes.toNat = largest ∧
          ∃ thread, (target.threads thread).pc.WillLoad) :
    PeakInvariant
      { state := target
        largest := max watched.largest
          target.counters.currentBytes.toNat } := by
  refine ⟨Nat.le_max_right _ _, peak_le.trans (Nat.le_max_left _ _), ?_, ?_,
    recorded⟩
  · intro other value here
    apply Nat.le_trans _ (Nat.le_max_left _ _)
    rcases moved_cases threads other with ⟨rfl, now⟩ | ⟨same, now⟩
    · rw [now] at here
      exact loaded value here
    · rw [now] at here
      exact invariant.loaded_le other value here
  · intro other value here
    rcases moved_cases threads other with ⟨rfl, now⟩ | ⟨same, now⟩
    · rw [now] at here
      exact compared value here
    · rw [now] at here
      exact (invariant.compared_le other value here).trans peak

/-- A move that leaves `current_bytes` alone and loads nothing keeps the
largest value recorded, or a thread that will load it. -/
theorem PeakInvariant.recorded_of_same {watched : WatchedState Thread}
    {target : CounterState Thread} {thread : Thread} {moved : SectionThread}
    (invariant : PeakInvariant watched)
    (threads : target.threads =
      Function.update watched.state.threads thread moved)
    (current : target.counters.currentBytes =
      watched.state.counters.currentBytes)
    (peak : watched.state.counters.peakBytes.toNat ≤
      target.counters.peakBytes.toNat)
    (own : ∀ loaded, (watched.state.threads thread).pc.loaded = some loaded →
      loaded.toNat ≤ target.counters.peakBytes.toNat ∨
        moved.pc.loaded = some loaded)
    (waits : (watched.state.threads thread).pc.WillLoad → moved.pc.WillLoad) :
    let largest := max watched.largest target.counters.currentBytes.toNat
    target.Recorded largest ∨
      target.counters.currentBytes.toNat = largest ∧
        ∃ thread, (target.threads thread).pc.WillLoad := by
  intro largest
  have same : largest = watched.largest := by
    have below := invariant.current_le
    simp only [largest, current]
    omega
  rw [same]
  rcases invariant.recorded with recorded | ⟨highest, other, willLoad⟩
  · exact .inl (recorded.moves threads peak own)
  · refine .inr ⟨by rw [current, highest], other, ?_⟩
    rw [threads]
    by_cases here : other = thread
    · subst here
      rw [Function.update_self]
      exact waits willLoad
    · rw [Function.update_of_ne here]
      exact willLoad

/-- The largest value stays recorded under a move that lowers `current_bytes`
from a recorded height, or raises it to no more than the largest value. -/
theorem PeakInvariant.recorded_of_le {watched : WatchedState Thread}
    {target : CounterState Thread} {thread : Thread} {moved : SectionThread}
    (invariant : PeakInvariant watched)
    (threads : target.threads =
      Function.update watched.state.threads thread moved)
    (peak : target.counters.peakBytes = watched.state.counters.peakBytes)
    (loaded : (watched.state.threads thread).pc.loaded = none)
    (height : watched.state.Recorded
      watched.state.counters.currentBytes.toNat)
    (below : target.counters.currentBytes.toNat ≤ watched.largest) :
    target.Recorded
      (max watched.largest target.counters.currentBytes.toNat) := by
  rw [Nat.max_eq_left below]
  have recorded : watched.state.Recorded watched.largest := by
    rcases invariant.recorded with recorded | ⟨highest, _⟩
    · exact recorded
    · exact highest ▸ height
  refine recorded.moves threads (le_of_eq (by rw [peak])) ?_
  intro value here
  rw [loaded] at here
  cases here

/-- The invariant after a move to a place where nothing is loaded. -/
theorem PeakInvariant.unloads {watched : WatchedState Thread}
    {target : CounterState Thread} {thread : Thread} {moved : SectionThread}
    (invariant : PeakInvariant watched)
    (threads : target.threads =
      Function.update watched.state.threads thread moved)
    (peak : watched.state.counters.peakBytes.toNat ≤
      target.counters.peakBytes.toNat)
    (peak_le : target.counters.peakBytes.toNat ≤ watched.largest)
    (unloaded : moved.pc.loaded = none)
    (recorded :
      let largest := max watched.largest target.counters.currentBytes.toNat
      target.Recorded largest ∨
        target.counters.currentBytes.toNat = largest ∧
          ∃ thread, (target.threads thread).pc.WillLoad) :
    PeakInvariant
      { state := target
        largest := max watched.largest
          target.counters.currentBytes.toNat } := by
  refine invariant.moves threads peak peak_le ?_ ?_ recorded
  · intro loaded here
    rw [unloaded] at here
    cases here
  · intro compared here
    rw [SectionPc.compared_of_loaded unloaded] at here
    cases here

theorem toNat_add_size {current : Word} {size : Nat}
    (fits : current.toNat + size < 2 ^ 64) :
    (current + BitVec.ofNat 64 size).toNat = current.toNat + size := by
  have alone : size < 2 ^ 64 :=
    Nat.lt_of_le_of_lt (Nat.le_add_left _ _) fits
  rw [BitVec.toNat_add, BitVec.toNat_ofNat, Nat.mod_eq_of_lt alone,
    Nat.mod_eq_of_lt fits]

theorem toNat_sub_size_le {current : Word} {size : Nat}
    (enough : size ≤ current.toNat) :
    (current - BitVec.ofNat 64 size).toNat ≤ current.toNat := by
  have alone : size < 2 ^ 64 := Nat.lt_of_le_of_lt enough (BitVec.isLt _)
  have covered : BitVec.ofNat 64 size ≤ current := by
    rw [BitVec.le_def, BitVec.toNat_ofNat, Nat.mod_eq_of_lt alone]
    exact enough
  rw [BitVec.toNat_sub_of_le covered]
  exact Nat.sub_le _ _

/-- After an addition the thread that added will load the sum, if it is the
largest value yet. -/
theorem PeakInvariant.recorded_of_add {watched : WatchedState Thread}
    {target : CounterState Thread} {thread : Thread} {moved : SectionThread}
    {entry : MttEntry} {notice : PeakNotice} (invariant : PeakInvariant watched)
    (keeps : watched.state.HeightKept (.addBytes entry notice))
    (threads : target.threads =
      Function.update watched.state.threads thread moved)
    (before : (watched.state.threads thread).pc = .addBytes entry notice)
    (after : moved.pc = .addTotal entry notice)
    (current : target.counters.currentBytes =
      watched.state.counters.currentBytes + BitVec.ofNat 64 entry.size)
    (peak : target.counters.peakBytes = watched.state.counters.peakBytes) :
    let largest := max watched.largest target.counters.currentBytes.toNat
    target.Recorded largest ∨
      target.counters.currentBytes.toNat = largest ∧
        ∃ thread, (target.threads thread).pc.WillLoad := by
  intro largest
  have own : (target.threads thread).pc.WillLoad := by
    rw [threads, Function.update_self, after]
    trivial
  by_cases highest : target.counters.currentBytes.toNat = largest
  · exact .inr ⟨highest, thread, own⟩
  -- the sum stays below the largest value, so it has wrapped or the height
  -- before it was not the largest value
  have below : target.counters.currentBytes.toNat ≤ watched.largest := by
    omega
  have height : watched.state.Recorded
      watched.state.counters.currentBytes.toNat := by
    rcases keeps with fits | recorded
    · rcases invariant.recorded with recorded | ⟨top, _⟩
      · exact recorded.mono invariant.current_le
      · have sum := toNat_add_size fits
        rw [← current] at sum
        omega
    · exact recorded
  exact .inl (invariant.recorded_of_le threads peak (by rw [before]; rfl)
    height below)

theorem PeakInvariant.recorded_of_load {watched : WatchedState Thread}
    {target : CounterState Thread} {thread : Thread} {moved : SectionThread}
    (invariant : PeakInvariant watched)
    (threads : target.threads =
      Function.update watched.state.threads thread moved)
    (before : (watched.state.threads thread).pc.loaded = none)
    (after : moved.pc.loaded = some watched.state.counters.currentBytes)
    (counters : target.counters = watched.state.counters) :
    target.Recorded
      (max watched.largest target.counters.currentBytes.toNat) := by
  rw [counters, Nat.max_eq_left invariant.current_le]
  rcases invariant.recorded with recorded | ⟨top, _⟩
  · refine recorded.moves threads (by rw [counters]) ?_
    intro loaded own
    rw [before] at own
    cases own
  · refine .inr ⟨thread, _, ?_, le_of_eq top.symm⟩
    rw [threads, Function.update_self]
    exact after

theorem PeakInvariant.operates {watched : WatchedState Thread}
    {target : CounterState Thread} {thread : Thread} {moved : SectionThread}
    {spurious : Bool} (invariant : PeakInvariant watched)
    (keeps : KeepsHeight watched.state (.step thread spurious))
    (threads : target.threads =
      Function.update watched.state.threads thread moved)
    (move : PeakMove watched.state.counters (watched.state.threads thread).pc
      target.counters moved.pc) :
    PeakInvariant
      { state := target
        largest := max watched.largest
          target.counters.currentBytes.toNat } := by
  have grows := move.peak_le
  have current_le := invariant.current_le
  have peak_le := invariant.peak_le
  have loaded_le := invariant.loaded_le thread
  have compared_le := invariant.compared_le thread
  simp only [KeepsHeight, CounterState.HeightKept] at keeps
  generalize before : (watched.state.threads thread).pc = pc
    at move keeps loaded_le compared_le
  obtain ⟨laterPc, after⟩ : ∃ laterPc, laterPc = moved.pc := ⟨_, rfl⟩
  obtain ⟨later, counters⟩ : ∃ later, later = target.counters := ⟨_, rfl⟩
  rw [← after, ← counters] at move
  rw [← counters] at grows
  cases move with
  | other current peak unloaded quiet waits =>
      rw [counters] at current peak
      rw [after] at quiet waits
      rw [← before] at unloaded waits
      refine invariant.unloads threads (le_of_eq (by rw [peak]))
        (le_of_eq_of_le (by rw [peak]) peak_le) quiet
        (invariant.recorded_of_same threads current (le_of_eq (by rw [peak]))
          ?_ waits)
      intro loaded here
      rw [unloaded] at here
      cases here
  | add entry notice current peak =>
      rw [counters] at current peak
      exact invariant.unloads threads (le_of_eq (by rw [peak]))
        (le_of_eq_of_le (by rw [peak]) peak_le) (by rw [← after]; rfl)
        (invariant.recorded_of_add keeps threads before after.symm current
          peak)
  | load entry notice =>
      refine invariant.moves threads (by rw [← counters])
        (by rw [← counters]; exact peak_le) ?_ ?_
        (.inl (invariant.recorded_of_load threads (by rw [before]; rfl)
          (by rw [← after]; rfl) counters.symm))
      · intro loaded own
        rw [← after] at own
        cases own
        exact current_le
      · intro compared own
        rw [← after] at own
        cases own
  | compare entry notice current loaded waits =>
      rw [← before] at loaded waits
      refine invariant.moves threads (by rw [← counters])
        (by rw [← counters]; exact peak_le) ?_ ?_
        (invariant.recorded_of_same threads (by rw [← counters])
          (by rw [← counters]) ?_ fun willLoad => (waits willLoad).elim)
      · intro value own
        rw [← after] at own
        cases own
        exact loaded_le _ (before ▸ loaded)
      · intro compared own
        rw [← after] at own
        cases own
        rw [← counters]
      · intro value own
        rw [loaded] at own
        rw [← after]
        exact .inr own
  | raise entry notice current higher same peak =>
      rw [counters] at same peak
      refine invariant.unloads threads (counters ▸ grows)
        (peak ▸ loaded_le current rfl) (by rw [← after]; rfl)
        (invariant.recorded_of_same threads same (counters ▸ grows) ?_ ?_)
      · intro value own
        rw [before] at own
        cases own
        exact .inl (le_of_eq (by rw [peak]))
      · rw [before]
        exact False.elim
  | give entry notice current oldPeak lower =>
      refine invariant.unloads threads (by rw [← counters])
        (by rw [← counters]; exact peak_le) (by rw [← after]; rfl)
        (invariant.recorded_of_same threads (by rw [← counters])
          (by rw [← counters]) ?_ ?_)
      · intro value own
        rw [before] at own
        cases own
        rw [← counters]
        exact .inl (lower.trans (compared_le oldPeak rfl))
      · rw [before]
        exact False.elim
  | takeOff entry guard current lowered peak =>
      rw [counters] at lowered peak
      obtain ⟨recorded, stays⟩ := keeps
      have below : target.counters.currentBytes.toNat ≤
          watched.state.counters.currentBytes.toNat := by
        rw [lowered]
        split_ifs with resets
        · exact Nat.zero_le _
        · exact toNat_sub_size_le (stays.resolve_left resets)
      exact invariant.unloads threads (le_of_eq (by rw [peak]))
        (le_of_eq_of_le (by rw [peak]) peak_le) (by rw [← after]; rfl)
        (.inl (invariant.recorded_of_le threads peak (by rw [before]; rfl)
          recorded (below.trans current_le)))

theorem PeakInvariant.next {watched later : WatchedState Thread}
    {label : CounterLabel Thread} (invariant : PeakInvariant watched)
    (keeps : KeepsHeight watched.state label)
    (taken : watchedNext watched label = some later) : PeakInvariant later := by
  obtain ⟨target, stepped, rfl⟩ := Option.map_eq_some_iff.mp taken
  cases counterNext_cases stepped with
  | crosses thread _ moved threads counters _ _ crossed =>
      refine invariant.unloads threads (by rw [counters])
        (by rw [counters]; exact invariant.peak_le) crossed.loaded.2
        (invariant.recorded_of_same threads (by rw [counters])
          (by rw [counters]) ?_
          fun willLoad => (crossed.not_willLoad willLoad).elim)
      intro loaded own
      rw [crossed.loaded.1] at own
      cases own
  | operates thread spurious moved threads _ _ operated =>
      exact invariant.operates keeps threads (sectionStep_peak operated)

theorem peakInvariant_initial {watched : WatchedState Thread}
    (initial : (watchedSystem Thread).init watched) :
    PeakInvariant watched := by
  obtain ⟨⟨_, _, _, current, _, _, idle⟩, peak, largest⟩ := initial
  refine ⟨?_, ?_, ?_, ?_, .inl (.inl ?_)⟩
  · rw [current]
    exact Nat.zero_le _
  · rw [peak]
    exact Nat.zero_le _
  · intro thread loaded here
    rw [idle thread] at here
    cases here
  · intro thread compared here
    rw [idle thread] at here
    cases here
  · rw [largest]
    exact Nat.zero_le _

omit [DecidableEq Thread] in
theorem PeakInvariant.peak_eq {watched : WatchedState Thread}
    (invariant : PeakInvariant watched)
    (idle : ∀ thread, watched.state.threads thread = .idle) :
    watched.state.counters.peakBytes.toNat = watched.largest := by
  apply Nat.le_antisymm invariant.peak_le
  rcases invariant.recorded with (stored | ⟨thread, loaded, here, _⟩) |
    ⟨_, thread, here⟩
  · exact stored
  · rw [idle thread] at here
    cases here
  · rw [idle thread] at here
    exact here.elim

/-- In a run that takes no bytes off before their height is recorded, the
peak never decreases, and with no call in flight it is the largest value that
`current_bytes` has had. -/
theorem peakBytes_largest_of_keepsHeight {watched : WatchedState Thread}
    (reachable : (watchedSystem Thread).ReachableBy
      (fun watched label => KeepsHeight watched.state label) watched) :
    (∀ label later, watchedNext watched label = some later →
      watched.state.counters.peakBytes.toNat ≤
        later.state.counters.peakBytes.toNat) ∧
    ((∀ thread, watched.state.threads thread = .idle) →
      watched.state.counters.peakBytes.toNat = watched.largest) := by
  have invariant : PeakInvariant watched :=
    reachable.invariant PeakInvariant (fun _ => peakInvariant_initial)
      fun _ _ _ holds keeps taken => holds.next keeps taken
  constructor
  · intro label later taken
    obtain ⟨target, stepped, rfl⟩ := Option.map_eq_some_iff.mp taken
    exact peakBytes_le_next stepped
  · exact invariant.peak_eq

/-! ## Two runs -/

section

variable [Fintype Thread]

omit [DecidableEq Thread] in
instance (state : CounterState Thread) (value : Nat) :
    Decidable (state.Recorded value) :=
  inferInstanceAs (Decidable (_ ∨ ∃ thread, ∃ loaded ∈
    (state.threads thread).pc.loaded, value ≤ loaded.toNat))

omit [DecidableEq Thread] in
instance (state : CounterState Thread) (pc : SectionPc) :
    Decidable (state.HeightKept pc) := by
  cases pc with
  | addBytes => exact inferInstanceAs (Decidable (_ ∨ _))
  | subBytes => exact inferInstanceAs (Decidable (_ ∧ (_ ∨ _)))
  | _ => exact instDecidableTrue

omit [DecidableEq Thread] in
instance (state : CounterState Thread) (label : CounterLabel Thread) :
    Decidable (KeepsHeight state label) :=
  match label with
  | .step thread _ =>
      inferInstanceAs (Decidable (state.HeightKept (state.threads thread).pc))
  | .call _ _ | .leave _ | .enter _ => instDecidableTrue

end

def watchedStart (Thread : Type) : WatchedState Thread :=
  { state := counterStart Thread
    largest := 0 }

theorem watchedStart_init :
    (watchedSystem Thread).init (watchedStart Thread) :=
  ⟨counterStart_init, rfl, rfl⟩

def trackedFree (thread : Worker) (ptr : Word) : List (CounterLabel Worker) :=
  [.call thread (.free ptr), .enter thread] ++
    List.replicate 8 (.step thread false)

theorem peakBytes_largest_trackedFree :
    ∃ watched : WatchedState Worker,
      watched.state.counters.currentBytes = 0 ∧
      watched.state.counters.peakBytes.toNat = watched.largest := by
  obtain ⟨watched, reachable, ended⟩ :=
    System.exists_reachableBy_of_runBy (watchedSystem Worker)
      (fun watched label => KeepsHeight watched.state label)
      (fun watched =>
        decide (∀ thread, watched.state.threads thread = .idle) &&
          (watched.state.counters.currentBytes == 0))
      (trackedMalloc ++ trackedFree .first 16) watchedStart_init
      (by decide +kernel)
  simp only [Bool.and_eq_true, decide_eq_true_eq, beq_iff_eq] at ended
  exact ⟨watched, ended.2,
    (peakBytes_largest_of_keepsHeight reachable).2 ended.1⟩

/-- The first thread frees its 100 bytes after the second has added 50 and
before it loads the sum. -/
def passedHeight : List (CounterLabel Worker) :=
  [.call .first (.malloc 16 100 .onChange), .enter .first] ++
    List.replicate 13 (.step .first false) ++
    [.call .second (.malloc 32 50 .onChange), .enter .second] ++
    List.replicate 5 (.step .second false) ++
    trackedFree .first 16 ++ List.replicate 8 (.step .second false)

theorem peakBytes_below_passedHeight :
    ∃ watched : WatchedState Worker,
      (watchedSystem Worker).Reachable watched ∧
      (∀ thread, watched.state.threads thread = .idle) ∧
      watched.state.counters.peakBytes.toNat ≠ watched.largest := by
  obtain ⟨watched, reachable, ended⟩ :=
    System.exists_reachable_of_run (watchedSystem Worker)
      (fun watched =>
        decide (∀ thread, watched.state.threads thread = .idle) &&
          decide (watched.state.counters.peakBytes.toNat ≠ watched.largest))
      passedHeight watchedStart_init (by decide +kernel)
  simp only [Bool.and_eq_true, decide_eq_true_eq] at ended
  exact ⟨watched, reachable, ended⟩

end MemoryTraceTool
