import Mathlib.Tactic.Ring
import MemoryTraceTool.EntryTable
import MemoryTraceTool.Lib.Accounts
import MemoryTraceTool.Lib.Transition

/-!
# Counters under the stripe locks

The locked sections of the hooks and of `mtt_malloc`, `mtt_free` and
`mtt_realloc`, taken apart into their atomic operations.  A stripe lock
excludes other sections of the stripe only, so the counters are shared by up
to 64 sections at once.
-/

namespace MemoryTraceTool

open Transition

/-- The shared statistics; each access is one atomic operation. -/
structure Counters where
  allocSeq : Word
  allocCount : Word
  freeCount : Word
  entryCount : Word
  currentBytes : Word
  totalBytes : Word
  peakBytes : Word
  skippedOvercap : Word
  peakUpdated : Bool
  deriving DecidableEq, Repr

/-- The hooks set `peak_updated` when they raised the peak, the API functions
always. -/
inductive PeakNotice where
  | onChange
  | always
  deriving DecidableEq, Repr

/-- The two ways the code guards `current_bytes` against underflow: a plain
comparison, and the `sub_size` of the realloc hook. -/
inductive UnderflowGuard where
  | compare
  | subSize
  deriving DecidableEq, Repr

/-- Whether the guard takes the branch that stores 0. -/
def UnderflowGuard.resets (guard : UnderflowGuard) (size : Nat)
    (current : Word) : Bool :=
  match guard with
  | .compare => !decide (size ≤ current.toNat)
  | .subSize =>
      let subSize := if size ≤ current.toNat then size else 0
      !decide (0 < subSize)

/-- A section run under the stripe lock of an address. -/
inductive Section where
  | find (ptr : Word)
  | insert (ptr : Word) (size : Nat) (notice : PeakNotice)
  | remove (ptr : Word) (guard : UnderflowGuard)
  deriving DecidableEq, Repr

/-- The address whose stripe the section locks. -/
def Section.ptr : Section → Word
  | .find ptr | .insert ptr _ _ | .remove ptr _ => ptr

/-- Atomic operations of the sections, in the order of the code. -/
inductive SectionPc where
  | outside
  | acquire (entered : Section)
  | lookup (ptr : Word)
  | check (ptr : Word) (size : Nat) (notice : PeakNotice)
  | takeSeq (ptr : Word) (size : Nat) (notice : PeakNotice)
  | countAlloc (entry : MttEntry) (notice : PeakNotice)
  | addBytes (entry : MttEntry) (notice : PeakNotice)
  | addTotal (entry : MttEntry) (notice : PeakNotice)
  | loadCurrent (entry : MttEntry) (notice : PeakNotice)
  | loadPeak (entry : MttEntry) (notice : PeakNotice) (current : Word)
  | casPeak (entry : MttEntry) (notice : PeakNotice)
      (current oldPeak : Word)
  | markPeak (entry : MttEntry) (notice : PeakNotice) (changed : Bool)
  | link (entry : MttEntry)
  | countEntry (ptr : Word)
  | search (ptr : Word) (guard : UnderflowGuard)
  | loadBytes (entry : MttEntry) (guard : UnderflowGuard)
  | subBytes (entry : MttEntry) (guard : UnderflowGuard) (current : Word)
  | countFree (entry : MttEntry)
  | unlink (entry : MttEntry)
  | uncountEntry (ptr : Word)
  | release (ptr : Word)
  deriving DecidableEq, Repr

def Section.start : Section → SectionPc
  | .find ptr => .lookup ptr
  | .insert ptr size notice => .check ptr size notice
  | .remove ptr guard => .search ptr guard

/-- The chains of the table by their index. -/
abbrev Buckets := Nat → List MttEntry

/-- The entry that a search for the address finds. -/
def entryOf (seed : Word) (buckets : Buckets) (ptr : Word) :
    Option MttEntry :=
  ChainedTable.find (EntryTable.shape seed) buckets ptr

/-- One atomic operation inside a section.  `spurious` lets the weak CAS of
the peak loop fail without a reason. -/
def sectionStep (seed : Word) (spurious : Bool) (counters : Counters)
    (buckets : Buckets) : SectionPc → Option (Counters × Buckets × SectionPc)
  | .outside | .acquire _ | .release _ => none
  | .lookup ptr => some (counters, buckets, .release ptr)
  | .check ptr size notice =>
      if mttMaxEntries ≤ counters.entryCount.toNat then
        some ({ counters with skippedOvercap := counters.skippedOvercap + 1 },
          buckets, .release ptr)
      else
        some (counters, buckets, .takeSeq ptr size notice)
  | .takeSeq ptr size notice =>
      let allocNum := counters.allocSeq + 1
      some ({ counters with allocSeq := allocNum }, buckets,
        .countAlloc ⟨ptr, size, allocNum.toNat⟩ notice)
  | .countAlloc entry notice =>
      some ({ counters with allocCount := counters.allocCount + 1 }, buckets,
        .addBytes entry notice)
  | .addBytes entry notice =>
      some ({ counters with
        currentBytes := counters.currentBytes + BitVec.ofNat 64 entry.size },
        buckets, .addTotal entry notice)
  | .addTotal entry notice =>
      some ({ counters with
        totalBytes := counters.totalBytes + BitVec.ofNat 64 entry.size },
        buckets, .loadCurrent entry notice)
  | .loadCurrent entry notice =>
      some (counters, buckets, .loadPeak entry notice counters.currentBytes)
  | .loadPeak entry notice current =>
      some (counters, buckets,
        .casPeak entry notice current counters.peakBytes)
  | .casPeak entry notice current oldPeak =>
      if oldPeak < current then
        if counters.peakBytes = oldPeak ∧ spurious = false then
          some ({ counters with peakBytes := current }, buckets,
            .markPeak entry notice true)
        else
          some (counters, buckets,
            .casPeak entry notice current counters.peakBytes)
      else
        some (counters, buckets, .markPeak entry notice false)
  | .markPeak entry notice changed =>
      some ({ counters with
        peakUpdated := counters.peakUpdated || changed || notice == .always },
        buckets, .link entry)
  | .link entry =>
      some (counters,
        ChainedTable.insert (EntryTable.shape seed) buckets entry,
        .countEntry entry.ptr)
  | .countEntry ptr =>
      some ({ counters with entryCount := counters.entryCount + 1 }, buckets,
        .release ptr)
  | .search ptr guard =>
      match entryOf seed buckets ptr with
      | none => some (counters, buckets, .release ptr)
      | some entry => some (counters, buckets, .loadBytes entry guard)
  | .loadBytes entry guard =>
      some (counters, buckets, .subBytes entry guard counters.currentBytes)
  | .subBytes entry guard current =>
      if guard.resets entry.size current then
        some ({ counters with currentBytes := 0 }, buckets, .countFree entry)
      else
        some ({ counters with
          currentBytes := counters.currentBytes - BitVec.ofNat 64 entry.size },
          buckets, .countFree entry)
  | .countFree entry =>
      some ({ counters with freeCount := counters.freeCount + 1 }, buckets,
        .unlink entry)
  | .unlink entry =>
      if (entryOf seed buckets entry.ptr).isSome then
        some (counters,
          ChainedTable.erase (EntryTable.shape seed) buckets entry.ptr,
          .uncountEntry entry.ptr)
      else
        some (counters, buckets, .release entry.ptr)
  | .uncountEntry ptr =>
      some ({ counters with entryCount := counters.entryCount - 1 }, buckets,
        .release ptr)

/-- Which realloc runs: the hook or the API function, each with a fallback for
a missing `raw_realloc`. -/
inductive ReallocPath where
  | hook
  | hookFallback
  | api
  | apiFallback
  deriving DecidableEq, Repr

/-- A call with the addresses libc gave it. -/
inductive CounterCall where
  | malloc (ptr : Word) (size : Nat) (notice : PeakNotice)
  | free (ptr : Word)
  | realloc (path : ReallocPath) (old new : Word) (size : Nat)
  deriving DecidableEq, Repr

/-- The sections of a call that is tracked to its end. -/
def CounterCall.sections : CounterCall → List Section
  | .malloc ptr size notice =>
      if size = 0 then [] else [.insert ptr size notice]
  | .free ptr => if ptr = 0 then [] else [.remove ptr .compare]
  | .realloc path old new size =>
      if size = 0 then [.remove old .compare]
      else match path with
        | .hook =>
            [.find old, .remove old .subSize, .insert new size .onChange]
        | .hookFallback => [.remove old .compare, .insert new size .onChange]
        | .api => [.find old, .remove old .compare, .insert new size .always]
        | .apiFallback => [.remove old .compare, .insert new size .always]

/-- A thread with the sections its call still has to run. -/
structure SectionThread where
  pc : SectionPc
  todo : List Section
  deriving DecidableEq, Repr

def SectionThread.idle : SectionThread :=
  { pc := .outside
    todo := [] }

/-- The tool's counters and table with the sections of all threads. -/
structure CounterState (Thread : Type) where
  counters : Counters
  buckets : Buckets
  hashSeed : Word
  locks : Nat → Option Thread
  threads : Thread → SectionThread

/-- `leave` lets a call return between two sections: sampling, a full pool, a
failed allocation, or no entry found. -/
inductive CounterLabel (Thread : Type) where
  | call (thread : Thread) (call : CounterCall)
  | leave (thread : Thread)
  | enter (thread : Thread)
  | step (thread : Thread) (spurious : Bool)

def CounterLabel.thread {Thread : Type} : CounterLabel Thread → Thread
  | .call thread _ | .leave thread | .enter thread | .step thread _ => thread

variable {Thread : Type} [DecidableEq Thread]

def CounterState.setThread (state : CounterState Thread) (thread : Thread)
    (moved : SectionThread) : CounterState Thread :=
  { state with threads := Function.update state.threads thread moved }

omit [DecidableEq Thread] in
def CounterState.stripe (state : CounterState Thread) (ptr : Word) : Nat :=
  mttStripeOf ptr mttBuckets state.hashSeed

/-- One operation of the section that a thread is in. -/
def counterStep (state : CounterState Thread) (thread : Thread)
    (spurious : Bool) : Option (CounterState Thread) :=
  let current := state.threads thread
  match current.pc with
  | .outside => none
  | .acquire entered =>
      if state.locks (state.stripe entered.ptr) = none then
        some { state.setThread thread { current with pc := entered.start } with
          locks := Function.update state.locks (state.stripe entered.ptr)
            (some thread) }
      else none
  | .release ptr =>
      some { state.setThread thread { current with pc := .outside } with
        locks := Function.update state.locks (state.stripe ptr) none }
  | pc =>
      (sectionStep state.hashSeed spurious state.counters state.buckets pc).map
        fun (counters, buckets, moved) =>
          { state.setThread thread { current with pc := moved } with
            counters := counters
            buckets := buckets }

/-- The threads interleave operation by operation. -/
def counterNext (state : CounterState Thread) :
    CounterLabel Thread → Option (CounterState Thread)
  | .call thread call =>
      if state.threads thread = .idle then
        some (state.setThread thread ⟨.outside, call.sections⟩)
      else none
  | .leave thread =>
      if (state.threads thread).pc = .outside then
        some (state.setThread thread .idle)
      else none
  | .enter thread =>
      match state.threads thread with
      | ⟨.outside, entered :: todo⟩ =>
          some (state.setThread thread ⟨.acquire entered, todo⟩)
      | _ => none
  | .step thread spurious => counterStep state thread spurious

/-- Any number of threads, starting from an initialised tracker without
entries. -/
def counterSystem (Thread : Type) [DecidableEq Thread] :
    System (CounterState Thread) (CounterLabel Thread) where
  init := fun state =>
    state.counters.allocCount = 0 ∧ state.counters.freeCount = 0 ∧
      state.counters.entryCount = 0 ∧ state.counters.currentBytes = 0 ∧
      (∀ bucket, state.buckets bucket = []) ∧
      (∀ stripe, state.locks stripe = none) ∧
      ∀ thread, state.threads thread = .idle
  next := counterNext

/-- The moves of a thread that change no counter and no bucket, with what they
do to the locks. -/
inductive CounterState.Crosses (state : CounterState Thread)
    (locks : Nat → Option Thread) (thread : Thread) :
    SectionPc → SectionPc → Prop where
  | between (same : locks = state.locks) :
      state.Crosses locks thread .outside .outside
  | enter (entered : Section) (same : locks = state.locks) :
      state.Crosses locks thread .outside (.acquire entered)
  | lock (entered : Section)
      (free : state.locks (state.stripe entered.ptr) = none)
      (taken : locks = Function.update state.locks (state.stripe entered.ptr)
        (some thread)) :
      state.Crosses locks thread (.acquire entered) entered.start
  | unlock (ptr : Word)
      (released : locks = Function.update state.locks (state.stripe ptr) none) :
      state.Crosses locks thread (.release ptr) .outside

/-- What one step does: a thread crosses the border of a section, or takes one
atomic operation inside it. -/
inductive CounterMove (state : CounterState Thread) :
    CounterLabel Thread → CounterState Thread → Prop where
  | crosses {label : CounterLabel Thread} {target : CounterState Thread}
      (thread : Thread) (acts : label.thread = thread) (moved : SectionThread)
      (threads : target.threads = Function.update state.threads thread moved)
      (counters : target.counters = state.counters)
      (buckets : target.buckets = state.buckets)
      (seed : target.hashSeed = state.hashSeed)
      (crossed : state.Crosses target.locks thread (state.threads thread).pc
        moved.pc) :
      CounterMove state label target
  | operates {target : CounterState Thread} (thread : Thread)
      (spurious : Bool) (moved : SectionThread)
      (threads : target.threads = Function.update state.threads thread moved)
      (seed : target.hashSeed = state.hashSeed)
      (locks : target.locks = state.locks)
      (operated : sectionStep state.hashSeed spurious state.counters
        state.buckets (state.threads thread).pc =
          some (target.counters, target.buckets, moved.pc)) :
      CounterMove state (.step thread spurious) target

theorem counterStep_cases {state target : CounterState Thread}
    {thread : Thread} {spurious : Bool}
    (taken : counterStep state thread spurious = some target) :
    CounterMove state (.step thread spurious) target := by
  cases pc : (state.threads thread).pc with
  | outside => simp [counterStep, pc] at taken
  | acquire entered =>
      simp only [counterStep, pc, Option.ite_none_right_eq_some,
        Option.some.injEq] at taken
      obtain ⟨free, rfl⟩ := taken
      exact .crosses thread rfl _ rfl rfl rfl rfl (pc ▸ .lock entered free rfl)
  | release ptr =>
      simp only [counterStep, pc, Option.some.injEq] at taken
      subst taken
      exact .crosses thread rfl _ rfl rfl rfl rfl (pc ▸ .unlock ptr rfl)
  | lookup | check | takeSeq | countAlloc | addBytes | addTotal | loadCurrent
  | loadPeak | casPeak | markPeak | link | countEntry | search | loadBytes
  | subBytes | countFree | unlink | uncountEntry =>
      simp only [counterStep, pc, Option.map_eq_some_iff] at taken
      obtain ⟨⟨later, laterBuckets, laterPc⟩, operated, rfl⟩ := taken
      exact .operates thread spurious _ rfl rfl rfl (pc ▸ operated)

theorem counterNext_cases {state target : CounterState Thread}
    {label : CounterLabel Thread}
    (taken : counterNext state label = some target) :
    CounterMove state label target := by
  cases label with
  | call thread call =>
      simp only [counterNext, Option.ite_none_right_eq_some,
        Option.some.injEq] at taken
      obtain ⟨idle, rfl⟩ := taken
      refine .crosses thread rfl _ rfl rfl rfl rfl ?_
      rw [idle]
      exact .between rfl
  | leave thread =>
      simp only [counterNext, Option.ite_none_right_eq_some,
        Option.some.injEq] at taken
      obtain ⟨outside, rfl⟩ := taken
      refine .crosses thread rfl _ rfl rfl rfl rfl ?_
      rw [outside]
      exact .between rfl
  | enter thread =>
      simp only [counterNext] at taken
      split at taken
      · rename_i entered todo ready
        rw [Option.some.injEq] at taken
        subst taken
        refine .crosses thread rfl _ rfl rfl rfl rfl ?_
        rw [ready]
        exact .enter entered rfl
      · cases taken
  | step thread spurious => exact counterStep_cases taken

/-! ## Amounts in the buckets and in flight -/

def chainBytes : List MttEntry → Int
  | [] => 0
  | entry :: rest => entry.size + chainBytes rest

def chainNodes (chain : List MttEntry) : Int :=
  chain.length

/-- The sizes of all entries in the buckets. -/
def bucketBytes (buckets : Buckets) : Int :=
  ∑ bucket ∈ Finset.range mttBuckets, chainBytes (buckets bucket)

/-- The number of entries in the buckets. -/
def bucketNodes (buckets : Buckets) : Int :=
  ∑ bucket ∈ Finset.range mttBuckets, chainNodes (buckets bucket)

/-- Bytes counted but not linked yet, or, negative, uncounted but still
linked. -/
def SectionPc.bytesInFlight : SectionPc → Int
  | .addTotal entry _ | .loadCurrent entry _ | .loadPeak entry _ _
  | .casPeak entry _ _ _ | .markPeak entry _ _ | .link entry => entry.size
  | .countFree entry | .unlink entry => -entry.size
  | _ => 0

/-- The same for the difference of `alloc_count` and `free_count`. -/
def SectionPc.allocsInFlight : SectionPc → Int
  | .addBytes _ _ | .addTotal _ _ | .loadCurrent _ _ | .loadPeak _ _ _
  | .casPeak _ _ _ _ | .markPeak _ _ _ | .link _ => 1
  | .unlink _ => -1
  | _ => 0

/-- The same for `entry_count`, which follows the chain. -/
def SectionPc.entriesInFlight : SectionPc → Int
  | .countEntry _ => -1
  | .uncountEntry _ => 1
  | _ => 0

theorem chainBytes_nonneg (chain : List MttEntry) : 0 ≤ chainBytes chain := by
  induction chain with
  | nil => exact le_refl 0
  | cons entry rest induction =>
      rw [chainBytes]
      omega

theorem chainBytes_eraseP {chain : List MttEntry} {ptr : Word}
    {entry : MttEntry}
    (found : chain.find? (fun other => other.ptr = ptr) = some entry) :
    chainBytes (chain.eraseP fun other => other.ptr = ptr) =
      chainBytes chain - entry.size := by
  induction chain with
  | nil => simp at found
  | cons first rest induction =>
      by_cases here : first.ptr = ptr
      · rw [List.find?_cons_of_pos (by simpa using here),
          Option.some.injEq] at found
        rw [List.eraseP_cons_of_pos (by simpa using here), ← found]
        simp [chainBytes]
      · rw [List.find?_cons_of_neg (by simpa using here)] at found
        rw [List.eraseP_cons_of_neg (by simpa using here)]
        have rest := induction found
        simp only [chainBytes] at rest ⊢
        omega

theorem size_le_chainBytes {chain : List MttEntry} {entry : MttEntry}
    (member : entry ∈ chain) : (entry.size : Int) ≤ chainBytes chain := by
  induction chain with
  | nil => cases member
  | cons first rest induction =>
      have nonneg := chainBytes_nonneg rest
      rw [chainBytes]
      rcases List.mem_cons.mp member with same | later
      · subst same
        omega
      · have bound := induction later
        omega

theorem chainNodes_eraseP {chain : List MttEntry} {ptr : Word}
    {entry : MttEntry}
    (found : chain.find? (fun other => other.ptr = ptr) = some entry) :
    chainNodes (chain.eraseP fun other => other.ptr = ptr) =
      chainNodes chain - 1 := by
  have member := List.mem_of_find?_eq_some found
  have matching := List.find?_some found
  have positive := List.length_pos_of_mem member
  have length : (chain.eraseP fun other => other.ptr = ptr).length =
      chain.length - 1 :=
    List.length_eraseP_of_mem member (by simpa using matching)
  simp only [chainNodes, length]
  omega

variable {seed : Word} {buckets : Buckets}

theorem bucket_mem_range (seed ptr : Word) :
    (EntryTable.shape seed).hash ptr ∈ Finset.range mttBuckets :=
  Finset.mem_range.mpr (mttBucketOf_lt ptr seed)

theorem bucketBytes_insert (entry : MttEntry) :
    bucketBytes (ChainedTable.insert (EntryTable.shape seed) buckets entry) =
      bucketBytes buckets + entry.size := by
  unfold bucketBytes ChainedTable.insert
  rw [Accounts.sum_update _ chainBytes buckets (bucket_mem_range seed _)]
  simp [chainBytes]

theorem bucketNodes_insert (entry : MttEntry) :
    bucketNodes (ChainedTable.insert (EntryTable.shape seed) buckets entry) =
      bucketNodes buckets + 1 := by
  unfold bucketNodes ChainedTable.insert
  rw [Accounts.sum_update _ chainNodes buckets (bucket_mem_range seed _)]
  simp [chainNodes]

theorem bucketBytes_erase {ptr : Word} {entry : MttEntry}
    (found : entryOf seed buckets ptr = some entry) :
    bucketBytes (ChainedTable.erase (EntryTable.shape seed) buckets ptr) =
      bucketBytes buckets - entry.size := by
  unfold bucketBytes ChainedTable.erase
  rw [Accounts.sum_update _ chainBytes buckets (bucket_mem_range seed ptr)]
  refine (congrArg (fun bytes => _ + (bytes - _))
    (chainBytes_eraseP found)).trans ?_
  ring

theorem bucketNodes_erase {ptr : Word} {entry : MttEntry}
    (found : entryOf seed buckets ptr = some entry) :
    bucketNodes (ChainedTable.erase (EntryTable.shape seed) buckets ptr) =
      bucketNodes buckets - 1 := by
  unfold bucketNodes ChainedTable.erase
  rw [Accounts.sum_update _ chainNodes buckets (bucket_mem_range seed ptr)]
  refine (congrArg (fun nodes => _ + (nodes - _))
    (chainNodes_eraseP found)).trans ?_
  ring

/-! ## One atomic operation -/

/-- The address whose stripe lock the section holds. -/
def SectionPc.holds : SectionPc → Option Word
  | .outside | .acquire _ => none
  | .lookup ptr | .check ptr _ _ | .takeSeq ptr _ _ | .countEntry ptr
  | .search ptr _ | .uncountEntry ptr | .release ptr => some ptr
  | .countAlloc entry _ | .addBytes entry _ | .addTotal entry _
  | .loadCurrent entry _ | .loadPeak entry _ _ | .casPeak entry _ _ _
  | .markPeak entry _ _ | .link entry | .loadBytes entry _
  | .subBytes entry _ _ | .countFree entry | .unlink entry => some entry.ptr

theorem sectionStep_holds {spurious : Bool} {counters later : Counters}
    {laterBuckets : Buckets} {pc laterPc : SectionPc}
    (taken : sectionStep seed spurious counters buckets pc =
      some (later, laterBuckets, laterPc)) : laterPc.holds = pc.holds := by
  cases pc with
  | outside | acquire | release => simp [sectionStep] at taken
  | lookup | takeSeq | countAlloc | addBytes | addTotal | loadCurrent
  | loadPeak | markPeak | link | countEntry | loadBytes | countFree
  | uncountEntry =>
      simp only [sectionStep, Option.some.injEq, Prod.mk.injEq] at taken
      obtain ⟨_, _, rfl⟩ := taken
      rfl
  | check | casPeak | subBytes | unlink =>
      simp only [sectionStep] at taken
      split_ifs at taken <;>
      · simp only [Option.some.injEq, Prod.mk.injEq] at taken
        obtain ⟨_, _, rfl⟩ := taken
        rfl
  | search ptr guard =>
      simp only [sectionStep] at taken
      split at taken
      · simp only [Option.some.injEq, Prod.mk.injEq] at taken
        obtain ⟨_, _, rfl⟩ := taken
        rfl
      · rename_i entry found
        simp only [Option.some.injEq, Prod.mk.injEq] at taken
        obtain ⟨_, _, rfl⟩ := taken
        exact congrArg some (ChainedTable.key_of_find found)

/-- A section that holds an address owns the lock of its stripe. -/
def StripesOwned (state : CounterState Thread) : Prop :=
  ∀ thread ptr, (state.threads thread).pc.holds = some ptr →
    state.locks (state.stripe ptr) = some thread

/-- The locks stay owned when no address becomes or ceases to be held. -/
theorem StripesOwned.keeps {state target : CounterState Thread}
    {thread : Thread} {moved : SectionThread} (owned : StripesOwned state)
    (threads : target.threads = Function.update state.threads thread moved)
    (seed : target.hashSeed = state.hashSeed)
    (locks : target.locks = state.locks)
    (holds : moved.pc.holds = (state.threads thread).pc.holds) :
    StripesOwned target := by
  intro other ptr held
  have sameStripe : target.stripe ptr = state.stripe ptr := by
    unfold CounterState.stripe
    rw [seed]
  rw [locks, sameStripe]
  rcases moved_cases threads other with ⟨rfl, here⟩ | ⟨same, here⟩
  · rw [here, holds] at held
    exact owned _ ptr held
  · rw [here] at held
    exact owned other ptr held

/-- An address held by another thread is in another stripe than the one that
a thread locks or unlocks. -/
theorem StripesOwned.next {state target : CounterState Thread}
    {label : CounterLabel Thread} (owned : StripesOwned state)
    (taken : counterNext state label = some target) : StripesOwned target := by
  cases counterNext_cases taken with
  | operates thread spurious moved threads seed locks operated =>
      exact owned.keeps threads seed locks (sectionStep_holds operated)
  | crosses thread _ moved threads _ _ seed crossed =>
      have sameStripe : ∀ ptr, target.stripe ptr = state.stripe ptr := by
        intro ptr
        unfold CounterState.stripe
        rw [seed]
      generalize before : (state.threads thread).pc = pc at crossed
      obtain ⟨later, after⟩ : ∃ later, later = moved.pc := ⟨_, rfl⟩
      rw [← after] at crossed
      cases crossed with
      | between same =>
          exact owned.keeps threads seed same (by rw [← after, before])
      | enter _ same =>
          exact owned.keeps threads seed same (by rw [← after, before]; rfl)
      | lock entered free taken =>
          have starts : entered.start.holds = some entered.ptr := by
            cases entered <;> rfl
          intro other ptr held
          rw [taken, sameStripe]
          rw [threads] at held
          by_cases same : other = thread
          · rw [same, Function.update_self, ← after, starts,
              Option.some.injEq] at held
            rw [← held, same]
            exact Function.update_self _ _ _
          · rw [Function.update_of_ne same] at held
            have owns := owned other ptr held
            refine (Function.update_of_ne ?_ _ _).trans owns
            intro locked
            rw [locked, free] at owns
            cases owns
      | unlock own released =>
          intro other ptr held
          rw [released, sameStripe]
          rcases moved_cases threads other with ⟨rfl, here⟩ | ⟨same, here⟩
          · rw [here, ← after] at held
            cases held
          · rw [here] at held
            have owns := owned other ptr held
            refine (Function.update_of_ne ?_ _ _).trans owns
            intro locked
            have ownLock := owned thread own (by rw [before]; rfl)
            rw [locked, ownLock, Option.some.injEq] at owns
            exact same owns.symm

omit [DecidableEq Thread] in
/-- Sections that hold addresses of one bucket are one section. -/
theorem StripesOwned.alone {state : CounterState Thread}
    (owned : StripesOwned state) {first second : Thread}
    {ptr other : Word} (firstHolds :
      (state.threads first).pc.holds = some ptr)
    (secondHolds : (state.threads second).pc.holds = some other)
    (sameBucket : mttBucketOf ptr mttBuckets state.hashSeed =
      mttBucketOf other mttBuckets state.hashSeed) : first = second := by
  have firstLock := owned first ptr firstHolds
  have secondLock := owned second other secondHolds
  have sameStripe : state.stripe ptr = state.stripe other := by
    unfold CounterState.stripe mttStripeOf
    rw [sameBucket]
  rw [sameStripe, secondLock, Option.some.injEq] at firstLock
  exact firstLock.symm

/-- Only blocks of positive size are recorded. -/
def Section.positive : Section → Prop
  | .insert _ size _ => 0 < size
  | .find _ | .remove _ _ => True

/-- The entry is the one a lookup of its address finds. -/
def Recorded (seed : Word) (buckets : Buckets) (entry : MttEntry) : Prop :=
  entryOf seed buckets entry.ptr = some entry

/-- What a section may rely on between its operations. -/
def SectionFacts (seed : Word) (buckets : Buckets) : SectionPc → Prop
  | .acquire entered => entered.positive
  | .check _ size _ | .takeSeq _ size _ => 0 < size
  | .countAlloc entry _ | .addBytes entry _ | .addTotal entry _
  | .loadCurrent entry _ | .loadPeak entry _ _ | .casPeak entry _ _ _
  | .markPeak entry _ _ | .link entry => 0 < entry.size
  | .loadBytes entry _ | .countFree entry | .unlink entry =>
      Recorded seed buckets entry
  | .subBytes entry _ current =>
      Recorded seed buckets entry ∧ entry.size ≤ current.toNat
  | .outside | .lookup _ | .countEntry _ | .search _ _ | .uncountEntry _
  | .release _ => True

/-- No entry has the size 0. -/
def PositiveSizes (buckets : Buckets) : Prop :=
  ∀ bucket entry, entry ∈ buckets bucket → 0 < entry.size

theorem Recorded.size_pos {entry : MttEntry}
    (recorded : Recorded seed buckets entry)
    (positive : PositiveSizes buckets) : 0 < entry.size :=
  positive _ entry (ChainedTable.mem_of_find recorded)

/-- A size that is positive and covered by the loaded counter never makes the
guard store 0. -/
theorem UnderflowGuard.not_resets (guard : UnderflowGuard) {size : Nat}
    {current : Word} (positive : 0 < size)
    (covered : size ≤ current.toNat) :
    guard.resets size current = false := by
  cases guard with
  | compare => simp [resets, covered]
  | subSize => simp [resets, covered, positive]

/-- An operation changes a counter by the change of the linked and in-flight
amounts. -/
structure Balanced (counters later : Counters) (buckets laterBuckets : Buckets)
    (pc laterPc : SectionPc) : Prop where
  bytes : later.currentBytes -
      ((bucketBytes laterBuckets + laterPc.bytesInFlight : Int) : Word) =
    counters.currentBytes -
      ((bucketBytes buckets + pc.bytesInFlight : Int) : Word)
  entries : later.entryCount -
      ((bucketNodes laterBuckets + laterPc.entriesInFlight : Int) : Word) =
    counters.entryCount -
      ((bucketNodes buckets + pc.entriesInFlight : Int) : Word)
  allocs : later.allocCount - later.freeCount -
      ((bucketNodes laterBuckets + laterPc.allocsInFlight : Int) : Word) =
    counters.allocCount - counters.freeCount -
      ((bucketNodes buckets + pc.allocsInFlight : Int) : Word)

theorem sectionStep_balanced {spurious : Bool} {counters later : Counters}
    {laterBuckets : Buckets} {pc laterPc : SectionPc}
    (taken : sectionStep seed spurious counters buckets pc =
      some (later, laterBuckets, laterPc))
    (facts : SectionFacts seed buckets pc)
    (positive : PositiveSizes buckets) :
    Balanced counters later buckets laterBuckets pc laterPc := by
  cases pc with
  | outside | acquire | release => simp [sectionStep] at taken
  | lookup | takeSeq | addTotal | loadCurrent | loadPeak | markPeak
  | loadBytes =>
      simp only [sectionStep, Option.some.injEq, Prod.mk.injEq] at taken
      obtain ⟨rfl, rfl, rfl⟩ := taken
      exact ⟨rfl, rfl, rfl⟩
  | check ptr size notice =>
      simp only [sectionStep] at taken
      split at taken
      · simp only [Option.some.injEq, Prod.mk.injEq] at taken
        obtain ⟨rfl, rfl, rfl⟩ := taken
        exact ⟨rfl, rfl, rfl⟩
      · simp only [Option.some.injEq, Prod.mk.injEq] at taken
        obtain ⟨rfl, rfl, rfl⟩ := taken
        exact ⟨rfl, rfl, rfl⟩
  | casPeak entry notice current oldPeak =>
      simp only [sectionStep] at taken
      split at taken
      · split at taken
        · simp only [Option.some.injEq, Prod.mk.injEq] at taken
          obtain ⟨rfl, rfl, rfl⟩ := taken
          exact ⟨rfl, rfl, rfl⟩
        · simp only [Option.some.injEq, Prod.mk.injEq] at taken
          obtain ⟨rfl, rfl, rfl⟩ := taken
          exact ⟨rfl, rfl, rfl⟩
      · simp only [Option.some.injEq, Prod.mk.injEq] at taken
        obtain ⟨rfl, rfl, rfl⟩ := taken
        exact ⟨rfl, rfl, rfl⟩
  | search ptr guard =>
      simp only [sectionStep] at taken
      split at taken
      · simp only [Option.some.injEq, Prod.mk.injEq] at taken
        obtain ⟨rfl, rfl, rfl⟩ := taken
        exact ⟨rfl, rfl, rfl⟩
      · simp only [Option.some.injEq, Prod.mk.injEq] at taken
        obtain ⟨rfl, rfl, rfl⟩ := taken
        exact ⟨rfl, rfl, rfl⟩
  | countAlloc entry notice =>
      simp only [sectionStep, Option.some.injEq, Prod.mk.injEq] at taken
      obtain ⟨rfl, rfl, rfl⟩ := taken
      refine ⟨rfl, rfl, ?_⟩
      rw [add_sub_right_comm]
      exact Word.add_balanced _ (by simp [SectionPc.allocsInFlight])
  | addBytes entry notice =>
      simp only [sectionStep, Option.some.injEq, Prod.mk.injEq] at taken
      obtain ⟨rfl, rfl, rfl⟩ := taken
      exact ⟨Word.add_balanced _ (by simp [SectionPc.bytesInFlight]), rfl,
        rfl⟩
  | link entry =>
      simp only [sectionStep, Option.some.injEq, Prod.mk.injEq] at taken
      obtain ⟨rfl, rfl, rfl⟩ := taken
      refine ⟨?_, ?_, ?_⟩
      · rw [bucketBytes_insert]
        simp [SectionPc.bytesInFlight]
      · rw [bucketNodes_insert]
        simp [SectionPc.entriesInFlight]
      · rw [bucketNodes_insert]
        simp [SectionPc.allocsInFlight]
  | countEntry ptr =>
      simp only [sectionStep, Option.some.injEq, Prod.mk.injEq] at taken
      obtain ⟨rfl, rfl, rfl⟩ := taken
      exact ⟨rfl, Word.add_balanced _
        (by simp [SectionPc.entriesInFlight]), rfl⟩
  | subBytes entry guard current =>
      have kept := guard.not_resets (facts.1.size_pos positive) facts.2
      simp only [sectionStep, kept, Bool.false_eq_true, if_false,
        Option.some.injEq, Prod.mk.injEq] at taken
      obtain ⟨rfl, rfl, rfl⟩ := taken
      exact ⟨Word.sub_balanced _ (by simp [SectionPc.bytesInFlight,
        sub_eq_add_neg]), rfl, rfl⟩
  | countFree entry =>
      simp only [sectionStep, Option.some.injEq, Prod.mk.injEq] at taken
      obtain ⟨rfl, rfl, rfl⟩ := taken
      refine ⟨rfl, rfl, ?_⟩
      rw [← sub_sub]
      exact Word.sub_balanced _
        (by simp [SectionPc.allocsInFlight, sub_eq_add_neg])
  | unlink entry =>
      have found : entryOf seed buckets entry.ptr = some entry := facts
      simp only [sectionStep, found, Option.isSome_some, if_true,
        Option.some.injEq, Prod.mk.injEq] at taken
      obtain ⟨rfl, rfl, rfl⟩ := taken
      refine ⟨?_, ?_, ?_⟩
      · rw [bucketBytes_erase found]
        simp [SectionPc.bytesInFlight, sub_eq_add_neg]
      · rw [bucketNodes_erase found]
        simp [SectionPc.entriesInFlight]
      · rw [bucketNodes_erase found]
        simp [SectionPc.allocsInFlight, sub_eq_add_neg]
  | uncountEntry ptr =>
      simp only [sectionStep, Option.some.injEq, Prod.mk.injEq] at taken
      obtain ⟨rfl, rfl, rfl⟩ := taken
      exact ⟨rfl, Word.sub_balanced _
        (by simp [SectionPc.entriesInFlight]), rfl⟩

/-- Frame of one operation: it keeps the held address, changes only the bucket
of that address, and links only positive sizes. -/
structure SectionFrame (seed : Word) (buckets laterBuckets : Buckets)
    (pc laterPc : SectionPc) : Prop where
  holds : laterPc.holds = pc.holds
  chains : ∀ bucket, laterBuckets bucket = buckets bucket ∨
    ∃ ptr, pc.holds = some ptr ∧ mttBucketOf ptr mttBuckets seed = bucket
  positive : PositiveSizes laterBuckets

theorem SectionFrame.same {pc laterPc : SectionPc}
    (holds : laterPc.holds = pc.holds) (positive : PositiveSizes buckets) :
    SectionFrame seed buckets buckets pc laterPc :=
  ⟨holds, fun _ => Or.inl rfl, positive⟩

theorem PositiveSizes.insert (positive : PositiveSizes buckets)
    {entry : MttEntry} (size : 0 < entry.size) :
    PositiveSizes
      (ChainedTable.insert (EntryTable.shape seed) buckets entry) := by
  intro bucket other member
  unfold ChainedTable.insert at member
  by_cases here : bucket = (EntryTable.shape seed).hash
      ((EntryTable.shape seed).key entry)
  · rw [here, Function.update_self] at member
    rcases List.mem_cons.mp member with same | old
    · exact same ▸ size
    · exact positive _ _ old
  · rw [Function.update_of_ne here] at member
    exact positive _ _ member

theorem PositiveSizes.erase (positive : PositiveSizes buckets) (ptr : Word) :
    PositiveSizes
      (ChainedTable.erase (EntryTable.shape seed) buckets ptr) := by
  intro bucket other member
  unfold ChainedTable.erase at member
  by_cases here : bucket = (EntryTable.shape seed).hash ptr
  · rw [here, Function.update_self] at member
    exact positive _ _ (List.mem_of_mem_eraseP member)
  · rw [Function.update_of_ne here] at member
    exact positive _ _ member

theorem sectionStep_frame {spurious : Bool} {counters later : Counters}
    {laterBuckets : Buckets} {pc laterPc : SectionPc}
    (taken : sectionStep seed spurious counters buckets pc =
      some (later, laterBuckets, laterPc))
    (facts : SectionFacts seed buckets pc)
    (positive : PositiveSizes buckets) :
    SectionFrame seed buckets laterBuckets pc laterPc := by
  cases pc with
  | outside | acquire | release => simp [sectionStep] at taken
  | lookup | takeSeq | countAlloc | addBytes | addTotal | loadCurrent
  | loadPeak | markPeak | countEntry | loadBytes | countFree
  | uncountEntry =>
      simp only [sectionStep, Option.some.injEq, Prod.mk.injEq] at taken
      obtain ⟨_, rfl, rfl⟩ := taken
      exact .same rfl positive
  | check | casPeak | subBytes =>
      simp only [sectionStep] at taken
      split_ifs at taken <;>
      · simp only [Option.some.injEq, Prod.mk.injEq] at taken
        obtain ⟨_, rfl, rfl⟩ := taken
        exact .same rfl positive
  | search ptr guard =>
      simp only [sectionStep] at taken
      split at taken
      · simp only [Option.some.injEq, Prod.mk.injEq] at taken
        obtain ⟨_, rfl, rfl⟩ := taken
        exact .same rfl positive
      · rename_i entry found
        simp only [Option.some.injEq, Prod.mk.injEq] at taken
        obtain ⟨_, rfl, rfl⟩ := taken
        have ptrSame : entry.ptr = ptr := ChainedTable.key_of_find found
        exact .same (congrArg some ptrSame) positive
  | link entry =>
      simp only [sectionStep, Option.some.injEq, Prod.mk.injEq] at taken
      obtain ⟨_, rfl, rfl⟩ := taken
      refine ⟨rfl, ?_, positive.insert facts⟩
      intro bucket
      by_cases here : mttBucketOf entry.ptr mttBuckets seed = bucket
      · exact Or.inr ⟨entry.ptr, rfl, here⟩
      · exact Or.inl (Function.update_of_ne (Ne.symm here) _ _)
  | unlink entry =>
      simp only [sectionStep] at taken
      split at taken
      · simp only [Option.some.injEq, Prod.mk.injEq] at taken
        obtain ⟨_, rfl, rfl⟩ := taken
        refine ⟨rfl, ?_, positive.erase entry.ptr⟩
        intro bucket
        by_cases here : mttBucketOf entry.ptr mttBuckets seed = bucket
        · exact Or.inr ⟨entry.ptr, rfl, here⟩
        · exact Or.inl (Function.update_of_ne (Ne.symm here) _ _)
      · simp only [Option.some.injEq, Prod.mk.injEq] at taken
        obtain ⟨_, rfl, rfl⟩ := taken
        exact .same rfl positive

/-- The facts after an operation.  `covered` says what the load of the free
path finds. -/
theorem sectionStep_facts {spurious : Bool} {counters later : Counters}
    {laterBuckets : Buckets} {pc laterPc : SectionPc}
    (taken : sectionStep seed spurious counters buckets pc =
      some (later, laterBuckets, laterPc))
    (facts : SectionFacts seed buckets pc)
    (covered : ∀ entry guard, pc = .loadBytes entry guard →
      entry.size ≤ counters.currentBytes.toNat) :
    SectionFacts seed laterBuckets laterPc := by
  cases pc with
  | outside | acquire | release => simp [sectionStep] at taken
  | lookup | countEntry | uncountEntry =>
      simp only [sectionStep, Option.some.injEq, Prod.mk.injEq] at taken
      obtain ⟨_, rfl, rfl⟩ := taken
      trivial
  | takeSeq | countAlloc | addBytes | addTotal | loadCurrent | loadPeak
  | markPeak | countFree =>
      simp only [sectionStep, Option.some.injEq, Prod.mk.injEq] at taken
      obtain ⟨_, rfl, rfl⟩ := taken
      exact facts
  | check ptr size notice =>
      simp only [sectionStep] at taken
      split at taken
      · simp only [Option.some.injEq, Prod.mk.injEq] at taken
        obtain ⟨_, rfl, rfl⟩ := taken
        trivial
      · simp only [Option.some.injEq, Prod.mk.injEq] at taken
        obtain ⟨_, rfl, rfl⟩ := taken
        exact facts
  | casPeak entry notice current oldPeak =>
      simp only [sectionStep] at taken
      split_ifs at taken <;>
      · simp only [Option.some.injEq, Prod.mk.injEq] at taken
        obtain ⟨_, rfl, rfl⟩ := taken
        exact facts
  | search ptr guard =>
      simp only [sectionStep] at taken
      split at taken
      · simp only [Option.some.injEq, Prod.mk.injEq] at taken
        obtain ⟨_, rfl, rfl⟩ := taken
        trivial
      · rename_i entry found
        simp only [Option.some.injEq, Prod.mk.injEq] at taken
        obtain ⟨_, rfl, rfl⟩ := taken
        have ptrSame : entry.ptr = ptr := ChainedTable.key_of_find found
        change entryOf seed buckets entry.ptr = some entry
        rw [ptrSame, found]
  | loadBytes entry guard =>
      simp only [sectionStep, Option.some.injEq, Prod.mk.injEq] at taken
      obtain ⟨_, rfl, rfl⟩ := taken
      exact ⟨facts, covered entry guard rfl⟩
  | subBytes entry guard current =>
      simp only [sectionStep] at taken
      split_ifs at taken <;>
      · simp only [Option.some.injEq, Prod.mk.injEq] at taken
        obtain ⟨_, rfl, rfl⟩ := taken
        exact facts.1
  | link entry =>
      simp only [sectionStep, Option.some.injEq, Prod.mk.injEq] at taken
      obtain ⟨_, rfl, rfl⟩ := taken
      trivial
  | unlink entry =>
      simp only [sectionStep] at taken
      split at taken
      · simp only [Option.some.injEq, Prod.mk.injEq] at taken
        obtain ⟨_, rfl, rfl⟩ := taken
        trivial
      · simp only [Option.some.injEq, Prod.mk.injEq] at taken
        obtain ⟨_, rfl, rfl⟩ := taken
        trivial

theorem SectionFacts.frame {laterBuckets : Buckets} {pc : SectionPc}
    (facts : SectionFacts seed buckets pc)
    (kept : ∀ ptr, pc.holds = some ptr →
      laterBuckets (mttBucketOf ptr mttBuckets seed) =
        buckets (mttBucketOf ptr mttBuckets seed)) :
    SectionFacts seed laterBuckets pc := by
  have recorded : ∀ entry, pc.holds = some entry.ptr →
      Recorded seed buckets entry → Recorded seed laterBuckets entry := by
    intro entry holds found
    unfold Recorded entryOf ChainedTable.find at found ⊢
    exact (congrArg (List.find? _) (kept entry.ptr holds)).trans found
  cases pc with
  | loadBytes | countFree | unlink => exact recorded _ rfl facts
  | subBytes => exact ⟨recorded _ rfl facts.1, facts.2⟩
  | outside | acquire | lookup | check | takeSeq | countAlloc | addBytes
  | addTotal | loadCurrent | loadPeak | casPeak | markPeak | link
  | countEntry | search | uncountEntry | release => exact facts

/-! ## All threads together -/

/-- Bytes of an entry that is counted and not linked yet. -/
def SectionPc.pendingBytes : SectionPc → Int
  | .addTotal entry _ | .loadCurrent entry _ | .loadPeak entry _ _
  | .casPeak entry _ _ _ | .markPeak entry _ _ | .link entry => entry.size
  | _ => 0

/-- The entry a section is about to take bytes off for, or has taken them off
without having unlinked it. -/
def SectionPc.claims : SectionPc → Option MttEntry
  | .loadBytes entry _ | .countFree entry | .unlink entry => some entry
  | _ => none

/-- The size of the entry that a removal has found and not yet taken off. -/
def SectionPc.claimedBytes (pc : SectionPc) : Int :=
  pc.claims.elim 0 fun entry => entry.size

variable [Fintype Thread]

omit [DecidableEq Thread] in
/-- The sizes of all tracked entries sum to less than `SIZE_MAX`. -/
def TrackedBytesFit (state : CounterState Thread) : Prop :=
  bucketBytes state.buckets +
    ∑ thread, (state.threads thread).pc.pendingBytes < 2 ^ 64 - 1

omit [DecidableEq Thread] in
structure CounterInvariant (state : CounterState Thread) : Prop where
  locks : ∀ thread ptr, (state.threads thread).pc.holds = some ptr →
    state.locks (state.stripe ptr) = some thread
  facts : ∀ thread,
    SectionFacts state.hashSeed state.buckets (state.threads thread).pc
  todo : ∀ thread, ∀ entered ∈ (state.threads thread).todo,
    entered.positive
  positive : PositiveSizes state.buckets
  bytes : state.counters.currentBytes =
    ((bucketBytes state.buckets +
      ∑ thread, (state.threads thread).pc.bytesInFlight : Int) : Word)
  entries : state.counters.entryCount =
    ((bucketNodes state.buckets +
      ∑ thread, (state.threads thread).pc.entriesInFlight : Int) : Word)
  allocs : state.counters.allocCount - state.counters.freeCount =
    ((bucketNodes state.buckets +
      ∑ thread, (state.threads thread).pc.allocsInFlight : Int) : Word)

theorem SectionPc.bytesInFlight_add_claimed_nonneg (pc : SectionPc) :
    0 ≤ pc.bytesInFlight + pc.claimedBytes := by
  cases pc <;> simp [bytesInFlight, claimedBytes, claims]

theorem SectionPc.bytesInFlight_le_pending (pc : SectionPc) :
    pc.bytesInFlight ≤ pc.pendingBytes := by
  cases pc <;> simp [bytesInFlight, pendingBytes]

theorem SectionPc.holds_of_claims {pc : SectionPc} {entry : MttEntry}
    (claims : pc.claims = some entry) : pc.holds = some entry.ptr := by
  cases pc with
  | loadBytes | countFree | unlink =>
      rw [SectionPc.claims, Option.some.injEq] at claims
      exact congrArg (fun entry => some entry.ptr) claims
  | _ => simp [SectionPc.claims] at claims

theorem SectionPc.recorded_of_claims {pc : SectionPc} {entry : MttEntry}
    (claims : pc.claims = some entry) (facts : SectionFacts seed buckets pc) :
    Recorded seed buckets entry := by
  cases pc with
  | loadBytes | countFree | unlink =>
      rw [SectionPc.claims, Option.some.injEq] at claims
      exact claims ▸ facts
  | _ => simp [SectionPc.claims] at claims

omit [DecidableEq Thread] in
theorem CounterInvariant.claims_le {state : CounterState Thread}
    (invariant : CounterInvariant state) :
    ∑ thread, (state.threads thread).pc.claimedBytes ≤
      bucketBytes state.buckets := by
  refine Accounts.sum_claims_le
    (fun thread => (state.threads thread).pc.claims.map fun entry =>
      mttBucketOf entry.ptr mttBuckets state.hashSeed) _ _ _
    (fun bucket _ => chainBytes_nonneg _) ?_ ?_ ?_
  · intro thread bucket placed
    obtain ⟨entry, claims, rfl⟩ := Option.map_eq_some_iff.mp placed
    refine ⟨bucket_mem_range _ _, ?_⟩
    have recorded := SectionPc.recorded_of_claims claims
      (invariant.facts thread)
    have member := ChainedTable.mem_of_find recorded
    rw [SectionPc.claimedBytes, claims]
    exact size_le_chainBytes member
  · intro thread unplaced
    rw [Option.map_eq_none_iff] at unplaced
    simp [SectionPc.claimedBytes, unplaced]
  · intro first second bucket firstPlaced secondPlaced
    obtain ⟨entry, claims, rfl⟩ := Option.map_eq_some_iff.mp firstPlaced
    obtain ⟨other, otherClaims, same⟩ := Option.map_eq_some_iff.mp secondPlaced
    exact StripesOwned.alone invariant.locks (SectionPc.holds_of_claims claims)
      (SectionPc.holds_of_claims otherClaims) same.symm

omit [DecidableEq Thread] in
theorem CounterInvariant.covered {state : CounterState Thread}
    (invariant : CounterInvariant state) (fits : TrackedBytesFit state)
    {thread : Thread} {entry : MttEntry} {guard : UnderflowGuard}
    (pc : (state.threads thread).pc = .loadBytes entry guard) :
    entry.size ≤ state.counters.currentBytes.toNat := by
  have own : (entry.size : Int) ≤
      ∑ other, ((state.threads other).pc.bytesInFlight +
        (state.threads other).pc.claimedBytes) := by
    have single := Finset.single_le_sum
      (fun other _ => SectionPc.bytesInFlight_add_claimed_nonneg
        (state.threads other).pc)
      (Finset.mem_univ thread)
    simpa [pc, SectionPc.bytesInFlight, SectionPc.claimedBytes,
      SectionPc.claims] using single
  rw [Finset.sum_add_distrib] at own
  have claimed := invariant.claims_le
  have pending : ∑ other, (state.threads other).pc.bytesInFlight ≤
      ∑ other, (state.threads other).pc.pendingBytes :=
    Finset.sum_le_sum fun other _ => SectionPc.bytesInFlight_le_pending _
  unfold TrackedBytesFit at fits
  rw [invariant.bytes, Word.toNat_intCast (by omega) (by omega)]
  omega

theorem sum_setThread (amount : SectionPc → Int)
    (threads : Thread → SectionThread) (thread : Thread)
    (moved : SectionThread) :
    ∑ other, amount (Function.update threads thread moved other).pc =
      ∑ other, amount (threads other).pc +
        (amount moved.pc - amount (threads thread).pc) :=
  Accounts.sum_update Finset.univ (fun local_ => amount local_.pc) threads
    (Finset.mem_univ thread) moved

/-- A move between two points without amounts in flight. -/
theorem CounterInvariant.moves {state target : CounterState Thread}
    {thread : Thread} {moved : SectionThread}
    (invariant : CounterInvariant state)
    (threads : target.threads =
      Function.update state.threads thread moved)
    (counters : target.counters = state.counters)
    (buckets : target.buckets = state.buckets)
    (seed : target.hashSeed = state.hashSeed)
    (bytes : moved.pc.bytesInFlight =
      (state.threads thread).pc.bytesInFlight)
    (entries : moved.pc.entriesInFlight =
      (state.threads thread).pc.entriesInFlight)
    (allocs : moved.pc.allocsInFlight =
      (state.threads thread).pc.allocsInFlight)
    (locks : StripesOwned target)
    (facts : SectionFacts state.hashSeed state.buckets moved.pc)
    (todo : ∀ entered ∈ moved.todo, entered.positive) :
    CounterInvariant target := by
  refine ⟨locks, ?_, ?_, ?_, ?_, ?_, ?_⟩
  · intro other
    rw [threads, buckets, seed]
    by_cases same : other = thread
    · rw [same, Function.update_self]
      exact facts
    · rw [Function.update_of_ne same]
      exact invariant.facts other
  · intro other
    rcases moved_cases threads other with ⟨rfl, here⟩ | ⟨same, here⟩
    · rw [here]
      exact todo
    · rw [here]
      exact invariant.todo other
  · rw [buckets]
    exact invariant.positive
  · rw [counters, buckets, threads, sum_setThread SectionPc.bytesInFlight,
      bytes, sub_self, add_zero]
    exact invariant.bytes
  · rw [counters, buckets, threads, sum_setThread SectionPc.entriesInFlight,
      entries, sub_self, add_zero]
    exact invariant.entries
  · rw [counters, buckets, threads, sum_setThread SectionPc.allocsInFlight,
      allocs, sub_self, add_zero]
    exact invariant.allocs

theorem CounterInvariant.operates {state : CounterState Thread}
    {thread : Thread} {spurious : Bool} {later : Counters}
    {laterBuckets : Buckets} {laterPc : SectionPc}
    (invariant : CounterInvariant state) (fits : TrackedBytesFit state)
    (taken : sectionStep state.hashSeed spurious state.counters state.buckets
      (state.threads thread).pc = some (later, laterBuckets, laterPc)) :
    CounterInvariant
      { state.setThread thread
          { state.threads thread with pc := laterPc } with
        counters := later
        buckets := laterBuckets } := by
  have facts := invariant.facts thread
  have balanced := sectionStep_balanced taken facts invariant.positive
  have frame := sectionStep_frame taken facts invariant.positive
  have factsAfter := sectionStep_facts taken facts
    fun entry guard pc => invariant.covered fits pc
  refine ⟨?_, ?_, ?_, frame.positive, ?_, ?_, ?_⟩
  · exact StripesOwned.keeps invariant.locks rfl rfl rfl frame.holds
  · intro other
    simp only [CounterState.setThread]
    by_cases same : other = thread
    · rw [same, Function.update_self]
      exact factsAfter
    · rw [Function.update_of_ne same]
      refine (invariant.facts other).frame ?_
      intro ptr holds
      refine (frame.chains _).resolve_right ?_
      rintro ⟨own, ownHolds, sameBucket⟩
      exact same (StripesOwned.alone invariant.locks ownHolds holds
        sameBucket).symm
  · intro other
    simp only [CounterState.setThread]
    by_cases same : other = thread
    · rw [same, Function.update_self]
      exact invariant.todo thread
    · rw [Function.update_of_ne same]
      exact invariant.todo other
  · simp only [CounterState.setThread]
    rw [sum_setThread SectionPc.bytesInFlight]
    exact Word.rebalance balanced.bytes invariant.bytes
  · simp only [CounterState.setThread]
    rw [sum_setThread SectionPc.entriesInFlight]
    exact Word.rebalance balanced.entries invariant.entries
  · simp only [CounterState.setThread]
    rw [sum_setThread SectionPc.allocsInFlight]
    exact Word.rebalance balanced.allocs invariant.allocs

theorem CounterCall.sections_positive (call : CounterCall) :
    ∀ entered ∈ call.sections, entered.positive := by
  intro entered member
  cases call with
  | malloc ptr size notice =>
      simp only [sections] at member
      split at member
      · cases member
      · rename_i positive
        cases List.mem_singleton.mp member
        exact Nat.pos_of_ne_zero positive
  | free ptr =>
      simp only [sections] at member
      split at member
      · cases member
      · cases List.mem_singleton.mp member
        trivial
  | realloc path old new size =>
      simp only [sections] at member
      split at member
      · cases List.mem_singleton.mp member
        trivial
      · rename_i positive
        have size : 0 < size := Nat.pos_of_ne_zero positive
        cases path with
        | hook | api =>
            simp only [List.mem_cons, List.not_mem_nil, or_false] at member
            rcases member with rfl | rfl | rfl
            · trivial
            · trivial
            · exact size
        | hookFallback | apiFallback =>
            simp only [List.mem_cons, List.not_mem_nil, or_false] at member
            rcases member with rfl | rfl
            · trivial
            · exact size

theorem CounterInvariant.step {state target : CounterState Thread}
    {thread : Thread} {spurious : Bool}
    (invariant : CounterInvariant state) (fits : TrackedBytesFit state)
    (taken : counterStep state thread spurious = some target) :
    CounterInvariant target := by
  have facts := invariant.facts thread
  have moved : counterNext state (.step thread spurious) = some target := taken
  have locks := StripesOwned.next invariant.locks moved
  cases pc : (state.threads thread).pc with
  | outside => simp [counterStep, pc] at taken
  | acquire entered =>
      simp only [counterStep, pc, Option.ite_none_right_eq_some,
        Option.some.injEq] at taken
      obtain ⟨free, rfl⟩ := taken
      rw [pc] at facts
      refine invariant.moves rfl rfl rfl rfl ?_ ?_ ?_ locks ?_
        (invariant.todo thread)
      · rw [pc]
        cases entered <;> rfl
      · rw [pc]
        cases entered <;> rfl
      · rw [pc]
        cases entered <;> rfl
      · cases entered with
        | find | remove => trivial
        | insert => exact facts
  | release ptr =>
      simp only [counterStep, pc, Option.some.injEq] at taken
      subst taken
      refine invariant.moves rfl rfl rfl rfl ?_ ?_ ?_ locks trivial
        (invariant.todo thread)
      all_goals
        rw [pc]
        rfl
  | lookup | check | takeSeq | countAlloc | addBytes | addTotal | loadCurrent
  | loadPeak | casPeak | markPeak | link | countEntry | search | loadBytes
  | subBytes | countFree | unlink | uncountEntry =>
      simp only [counterStep, pc, Option.map_eq_some_iff] at taken
      obtain ⟨⟨later, laterBuckets, laterPc⟩, operated, rfl⟩ := taken
      exact invariant.operates fits (pc ▸ operated)

theorem CounterInvariant.next {state target : CounterState Thread}
    {label : CounterLabel Thread} (invariant : CounterInvariant state)
    (fits : TrackedBytesFit state)
    (taken : counterNext state label = some target) :
    CounterInvariant target := by
  have locks := StripesOwned.next invariant.locks taken
  cases label with
  | call thread call =>
      simp only [counterNext, Option.ite_none_right_eq_some,
        Option.some.injEq] at taken
      obtain ⟨idle, rfl⟩ := taken
      refine invariant.moves rfl rfl rfl rfl ?_ ?_ ?_
        locks trivial
        call.sections_positive
      all_goals
        rw [idle]
        rfl
  | leave thread =>
      simp only [counterNext, Option.ite_none_right_eq_some,
        Option.some.injEq] at taken
      obtain ⟨outside, rfl⟩ := taken
      refine invariant.moves rfl rfl rfl rfl ?_ ?_ ?_
        locks trivial (by
          intro entered member
          cases member)
      all_goals
        rw [outside]
        rfl
  | enter thread =>
      have positive := invariant.todo thread
      simp only [counterNext] at taken
      split at taken
      · rename_i entered todo ready
        rw [Option.some.injEq] at taken
        subst taken
        rw [ready] at positive
        refine invariant.moves rfl rfl rfl rfl ?_ ?_ ?_
          locks
          (positive entered List.mem_cons_self)
          fun later member => positive later (List.mem_cons_of_mem _ member)
        all_goals
          rw [ready]
          rfl
      · cases taken
  | step thread spurious => exact invariant.step fits taken

theorem counterInvariant_initial {state : CounterState Thread}
    (initial : (counterSystem Thread).init state) :
    CounterInvariant state := by
  obtain ⟨allocs, frees, entries, bytes, empty, _, idle⟩ := initial
  have noBytes : bucketBytes state.buckets = 0 := by
    simp [bucketBytes, empty, chainBytes]
  have noNodes : bucketNodes state.buckets = 0 := by
    simp [bucketNodes, empty, chainNodes]
  refine ⟨?_, ?_, ?_, ?_, ?_, ?_, ?_⟩
  · intro thread ptr held
    rw [idle thread] at held
    cases held
  · intro thread
    rw [idle thread]
    trivial
  · intro thread entered member
    rw [idle thread] at member
    cases member
  · intro bucket entry member
    rw [empty bucket] at member
    cases member
  · simp [bytes, noBytes, idle, SectionThread.idle, SectionPc.bytesInFlight]
  · simp [entries, noNodes, idle, SectionThread.idle,
      SectionPc.entriesInFlight]
  · simp [allocs, frees, noNodes, idle, SectionThread.idle,
      SectionPc.allocsInFlight]

theorem counterInvariant_reachable {state : CounterState Thread}
    (reachable : (counterSystem Thread).ReachableBy
      (fun state _ => TrackedBytesFit state) state) :
    CounterInvariant state :=
  reachable.invariant CounterInvariant (fun _ => counterInvariant_initial)
    fun _ _ _ invariant fits taken => invariant.next fits taken

/-! ## Requests that fit -/

/-- The bytes that a section will link at most. -/
def Section.requestedBytes : Section → Int
  | .insert _ size _ => size
  | .find _ | .remove _ _ => 0

def SectionPc.reservedBytes : SectionPc → Int
  | .acquire entered => entered.requestedBytes
  | .check _ size _ | .takeSeq _ size _ => size
  | .countAlloc entry _ | .addBytes entry _ => entry.size
  | pc => pc.pendingBytes

/-- The bytes that the call of a thread may still link. -/
def SectionThread.reservedBytes (local_ : SectionThread) : Int :=
  local_.pc.reservedBytes + (local_.todo.map Section.requestedBytes).sum

def CounterLabel.requestedBytes : CounterLabel Thread → Int
  | .call _ request => (request.sections.map Section.requestedBytes).sum
  | .leave _ | .enter _ | .step _ _ => 0

theorem Section.sum_requested_nonneg (sections : List Section) :
    0 ≤ (sections.map Section.requestedBytes).sum := by
  apply List.sum_nonneg
  intro bytes member
  obtain ⟨entered, -, rfl⟩ := List.mem_map.mp member
  cases entered with
  | find | remove => exact le_refl 0
  | insert ptr size => exact Int.natCast_nonneg size

theorem SectionPc.pendingBytes_le_reserved (pc : SectionPc) :
    pc.pendingBytes ≤ pc.reservedBytes := by
  cases pc with
  | acquire entered =>
      cases entered <;> simp [pendingBytes, reservedBytes,
        Section.requestedBytes]
  | _ => simp [pendingBytes, reservedBytes]

theorem SectionPc.reservedBytes_nonneg (pc : SectionPc) :
    0 ≤ pc.reservedBytes := by
  cases pc with
  | acquire entered =>
      cases entered <;> simp [reservedBytes, Section.requestedBytes]
  | _ => simp [pendingBytes, reservedBytes]

theorem SectionThread.pending_le_reserved (local_ : SectionThread) :
    local_.pc.pendingBytes ≤ local_.reservedBytes :=
  (local_.pc.pendingBytes_le_reserved).trans
    (le_add_of_nonneg_right (Section.sum_requested_nonneg local_.todo))

theorem SectionThread.reservedBytes_nonneg (local_ : SectionThread) :
    0 ≤ local_.reservedBytes :=
  add_nonneg local_.pc.reservedBytes_nonneg
    (Section.sum_requested_nonneg local_.todo)

theorem Section.start_reserved (entered : Section) :
    entered.start.reservedBytes =
      (SectionPc.acquire entered).reservedBytes := by
  cases entered with
  | find | remove | insert => rfl

omit [DecidableEq Thread] [Fintype Thread] in
theorem CounterLabel.requestedBytes_nonneg (label : CounterLabel Thread) :
    0 ≤ label.requestedBytes := by
  cases label with
  | call thread request => exact Section.sum_requested_nonneg request.sections
  | leave | enter | step => exact le_refl 0

theorem sectionStep_reserved {spurious : Bool} {counters later : Counters}
    {laterBuckets : Buckets} {pc laterPc : SectionPc}
    (taken : sectionStep seed spurious counters buckets pc =
      some (later, laterBuckets, laterPc)) :
    bucketBytes laterBuckets + laterPc.reservedBytes ≤
      bucketBytes buckets + pc.reservedBytes := by
  cases pc with
  | outside | acquire | release => simp [sectionStep] at taken
  | lookup | takeSeq | countAlloc | addBytes | addTotal | loadCurrent
  | loadPeak | markPeak | countEntry | loadBytes | countFree
  | uncountEntry =>
      simp only [sectionStep, Option.some.injEq, Prod.mk.injEq] at taken
      obtain ⟨_, rfl, rfl⟩ := taken
      exact le_refl _
  | check | casPeak | subBytes =>
      simp only [sectionStep] at taken
      split_ifs at taken <;>
      · simp only [Option.some.injEq, Prod.mk.injEq] at taken
        obtain ⟨_, rfl, rfl⟩ := taken
        simp [SectionPc.reservedBytes, SectionPc.pendingBytes]
  | search ptr guard =>
      simp only [sectionStep] at taken
      split at taken <;>
      · simp only [Option.some.injEq, Prod.mk.injEq] at taken
        obtain ⟨_, rfl, rfl⟩ := taken
        exact le_refl _
  | link entry =>
      simp only [sectionStep, Option.some.injEq, Prod.mk.injEq] at taken
      obtain ⟨_, rfl, rfl⟩ := taken
      rw [bucketBytes_insert]
      exact (add_zero _).le
  | unlink entry =>
      simp only [sectionStep] at taken
      split at taken
      · rename_i found
        obtain ⟨other, isOther⟩ := Option.isSome_iff_exists.mp found
        simp only [Option.some.injEq, Prod.mk.injEq] at taken
        obtain ⟨_, rfl, rfl⟩ := taken
        rw [bucketBytes_erase isOther]
        simp [SectionPc.reservedBytes, SectionPc.pendingBytes]
      · simp only [Option.some.injEq, Prod.mk.injEq] at taken
        obtain ⟨_, rfl, rfl⟩ := taken
        exact le_refl _

omit [DecidableEq Thread] in
/-- The bytes in the table and those that the calls in flight may add. -/
def CounterState.reservedBytes (state : CounterState Thread) : Int :=
  bucketBytes state.buckets +
    ∑ thread, (state.threads thread).reservedBytes

omit [DecidableEq Thread] in
theorem trackedBytesFit_of_reserved {state : CounterState Thread}
    (small : state.reservedBytes < 2 ^ 64 - 1) : TrackedBytesFit state := by
  have pending : ∑ thread, (state.threads thread).pc.pendingBytes ≤
      ∑ thread, (state.threads thread).reservedBytes :=
    Finset.sum_le_sum fun thread _ => (state.threads thread).pending_le_reserved
  unfold TrackedBytesFit
  unfold CounterState.reservedBytes at small
  omega

theorem reservedBytes_setThread {state target : CounterState Thread}
    {thread : Thread} {moved : SectionThread}
    (threads : target.threads = Function.update state.threads thread moved) :
    target.reservedBytes = state.reservedBytes +
      (bucketBytes target.buckets + moved.reservedBytes) -
      (bucketBytes state.buckets + (state.threads thread).reservedBytes) := by
  have sums := Accounts.sum_update Finset.univ SectionThread.reservedBytes
    state.threads (Finset.mem_univ thread) moved
  rw [CounterState.reservedBytes, CounterState.reservedBytes, threads, sums]
  ring

theorem counterStep_reserved {state target : CounterState Thread}
    {thread : Thread} {spurious : Bool}
    (taken : counterStep state thread spurious = some target) :
    target.reservedBytes ≤ state.reservedBytes := by
  cases pc : (state.threads thread).pc with
  | outside => simp [counterStep, pc] at taken
  | acquire entered =>
      simp only [counterStep, pc, Option.ite_none_right_eq_some,
        Option.some.injEq] at taken
      obtain ⟨-, rfl⟩ := taken
      rw [reservedBytes_setThread rfl]
      apply le_of_eq
      rw [SectionThread.reservedBytes, SectionThread.reservedBytes, pc,
        entered.start_reserved]
      exact add_sub_cancel_right _ _
  | release ptr =>
      simp only [counterStep, pc, Option.some.injEq] at taken
      subst taken
      rw [reservedBytes_setThread rfl]
      apply le_of_eq
      rw [SectionThread.reservedBytes, SectionThread.reservedBytes, pc]
      exact add_sub_cancel_right _ _
  | lookup | check | takeSeq | countAlloc | addBytes | addTotal | loadCurrent
  | loadPeak | casPeak | markPeak | link | countEntry | search | loadBytes
  | subBytes | countFree | unlink | uncountEntry =>
      simp only [counterStep, pc, Option.map_eq_some_iff] at taken
      obtain ⟨⟨later, laterBuckets, laterPc⟩, operated, rfl⟩ := taken
      have operates := sectionStep_reserved operated
      rw [reservedBytes_setThread rfl, SectionThread.reservedBytes,
        SectionThread.reservedBytes, pc]
      dsimp only [CounterState.setThread]
      omega

theorem counterNext_reserved {state target : CounterState Thread}
    {label : CounterLabel Thread}
    (taken : counterNext state label = some target) :
    target.reservedBytes ≤ state.reservedBytes + label.requestedBytes := by
  cases label with
  | call thread call =>
      simp only [counterNext, Option.ite_none_right_eq_some,
        Option.some.injEq] at taken
      obtain ⟨idle, rfl⟩ := taken
      rw [reservedBytes_setThread rfl, idle]
      apply le_of_eq
      simp [CounterState.setThread, SectionThread.reservedBytes,
        SectionThread.idle, SectionPc.reservedBytes, SectionPc.pendingBytes,
        CounterLabel.requestedBytes]
      ring
  | leave thread =>
      simp only [counterNext, Option.ite_none_right_eq_some,
        Option.some.injEq] at taken
      obtain ⟨-, rfl⟩ := taken
      have nonneg := (state.threads thread).reservedBytes_nonneg
      rw [reservedBytes_setThread rfl]
      simp [CounterState.setThread, SectionThread.reservedBytes,
        SectionThread.idle, SectionPc.reservedBytes, SectionPc.pendingBytes,
        CounterLabel.requestedBytes] at nonneg ⊢
      omega
  | enter thread =>
      simp only [counterNext] at taken
      split at taken
      · rename_i entered todo here
        simp only [Option.some.injEq] at taken
        subst taken
        rw [reservedBytes_setThread rfl, here]
        apply le_of_eq
        simp only [CounterState.setThread, SectionThread.reservedBytes,
          SectionPc.reservedBytes, SectionPc.pendingBytes, List.map_cons,
          List.sum_cons, CounterLabel.requestedBytes]
        ring
      · contradiction
  | step thread spurious =>
      rw [CounterLabel.requestedBytes, add_zero]
      exact counterStep_reserved taken

omit [DecidableEq Thread] in
theorem reservedBytes_initial {state : CounterState Thread}
    (empty : ∀ bucket, state.buckets bucket = [])
    (idle : ∀ thread, state.threads thread = .idle) :
    state.reservedBytes = 0 := by
  simp [CounterState.reservedBytes, bucketBytes, empty, chainBytes, idle,
    SectionThread.reservedBytes, SectionThread.idle, SectionPc.reservedBytes,
    SectionPc.pendingBytes]

/-- A run whose calls ask for less than `SIZE_MAX` bytes in all. -/
theorem reachableBy_of_requests {start target : CounterState Thread}
    {labels : List (CounterLabel Thread)}
    (reachable : (counterSystem Thread).ReachableBy
      (fun state _ => TrackedBytesFit state) start)
    (small : start.reservedBytes +
      (labels.map CounterLabel.requestedBytes).sum < 2 ^ 64 - 1)
    (executed : (counterSystem Thread).run start labels = some target) :
    (counterSystem Thread).ReachableBy (fun state _ => TrackedBytesFit state)
      target ∧ TrackedBytesFit target := by
  induction labels generalizing start with
  | nil =>
      simp only [System.run, System.runBy, Option.some.injEq] at executed
      simp only [List.map_nil, List.sum_nil, add_zero] at small
      exact executed ▸ ⟨reachable, trackedBytesFit_of_reserved small⟩
  | cons label rest induction =>
      simp only [System.run, System.runBy, if_true] at executed
      obtain ⟨middle, taken, remaining⟩ := Option.bind_eq_some_iff.mp executed
      have grows := counterNext_reserved taken
      have nonneg : 0 ≤ (rest.map CounterLabel.requestedBytes).sum := by
        apply List.sum_nonneg
        intro bytes member
        obtain ⟨later, -, rfl⟩ := List.mem_map.mp member
        exact later.requestedBytes_nonneg
      have own := label.requestedBytes_nonneg
      simp only [List.map_cons, List.sum_cons] at small
      have fits : TrackedBytesFit start :=
        trackedBytesFit_of_reserved (by omega)
      exact induction (.step reachable fits taken) (by omega) remaining

/-- The same for a list of labels that runs to a state with a decidable
property. -/
theorem exists_reachableBy_of_requests (test : CounterState Thread → Bool)
    {start : CounterState Thread} (labels : List (CounterLabel Thread))
    (initial : (counterSystem Thread).init start)
    (small : (labels.map CounterLabel.requestedBytes).sum < 2 ^ 64 - 1)
    (executed : ((counterSystem Thread).run start labels).any test = true) :
    ∃ target, (counterSystem Thread).ReachableBy
        (fun state _ => TrackedBytesFit state) target ∧
      TrackedBytesFit target ∧ test target = true := by
  obtain ⟨target, ran, tested⟩ := (Option.any_eq_true _ _).mp executed
  have reserved : start.reservedBytes = 0 :=
    reservedBytes_initial initial.2.2.2.2.1 initial.2.2.2.2.2.2
  obtain ⟨reachable, fits⟩ := reachableBy_of_requests (.start initial)
    (by rw [reserved, zero_add]; exact small) ran
  exact ⟨target, reachable, fits, tested⟩

/-! ## The counters with no section in flight -/

theorem chainNodes_le_chainBytes {chain : List MttEntry}
    (positive : ∀ entry ∈ chain, 0 < entry.size) :
    chainNodes chain ≤ chainBytes chain := by
  induction chain with
  | nil => simp [chainNodes, chainBytes]
  | cons entry rest induction =>
      have own := positive entry List.mem_cons_self
      have others := induction fun later member =>
        positive later (List.mem_cons_of_mem _ member)
      simp only [chainNodes, chainBytes, List.length_cons] at others ⊢
      omega

theorem bucketNodes_le_bucketBytes (positive : PositiveSizes buckets) :
    bucketNodes buckets ≤ bucketBytes buckets :=
  Finset.sum_le_sum fun bucket _ =>
    chainNodes_le_chainBytes (positive bucket)

theorem bucketNodes_nonneg (buckets : Buckets) : 0 ≤ bucketNodes buckets :=
  Finset.sum_nonneg fun _ _ => Int.natCast_nonneg _

/-- While the tracked sizes fit, no underflow guard ever stores 0, and once no
call is in flight the counters describe the bucket chains. -/
theorem counters_describe_buckets {state : CounterState Thread}
    (reachable : (counterSystem Thread).ReachableBy
      (fun state _ => TrackedBytesFit state) state)
    (fits : TrackedBytesFit state) :
    (∀ thread entry guard current,
      (state.threads thread).pc = .subBytes entry guard current →
      guard.resets entry.size current = false) ∧
    ((∀ thread, state.threads thread = .idle) →
      state.counters.allocCount - state.counters.freeCount =
        state.counters.entryCount ∧
      (state.counters.entryCount.toNat : Int) = bucketNodes state.buckets ∧
      (state.counters.currentBytes.toNat : Int) =
        bucketBytes state.buckets) := by
  have invariant := counterInvariant_reachable reachable
  constructor
  · intro thread entry guard current pc
    have facts := invariant.facts thread
    rw [pc] at facts
    exact guard.not_resets (facts.1.size_pos invariant.positive) facts.2
  · intro idle
    have bytes := invariant.bytes
    have entries := invariant.entries
    have allocs := invariant.allocs
    simp only [idle, SectionThread.idle, SectionPc.bytesInFlight,
      SectionPc.entriesInFlight, SectionPc.allocsInFlight,
      Finset.sum_const_zero, add_zero] at bytes entries allocs
    simp only [TrackedBytesFit, idle, SectionThread.idle,
      SectionPc.pendingBytes, Finset.sum_const_zero, add_zero] at fits
    have nodes := bucketNodes_nonneg state.buckets
    have fewer := bucketNodes_le_bucketBytes invariant.positive
    refine ⟨allocs.trans entries.symm, ?_, ?_⟩
    · rw [entries, Word.toNat_intCast nodes (by omega)]
      omega
    · rw [bytes, Word.toNat_intCast (by omega) (by omega)]
      omega

def counterStart (Thread : Type) : CounterState Thread :=
  { counters :=
      { allocSeq := 0
        allocCount := 0
        freeCount := 0
        entryCount := 0
        currentBytes := 0
        totalBytes := 0
        peakBytes := 0
        skippedOvercap := 0
        peakUpdated := false }
    buckets := fun _ => []
    hashSeed := 0
    locks := fun _ => none
    threads := fun _ => .idle }

omit [Fintype Thread] in
theorem counterStart_init :
    (counterSystem Thread).init (counterStart Thread) :=
  ⟨rfl, rfl, rfl, rfl, fun _ => rfl, fun _ => rfl, fun _ => rfl⟩

def trackedMalloc : List (CounterLabel Worker) :=
  [.call .first (.malloc 16 8 .onChange), .enter .first] ++
    List.replicate 13 (.step .first false)

/-- Two overlapping allocations, the first of which is freed before the second
is linked. -/
def overlappingCalls : List (CounterLabel Worker) :=
  [.call .first (.malloc 16 8 .onChange), .enter .first] ++
    List.replicate 6 (.step .first false) ++
    [.call .second (.malloc 48 100 .onChange), .enter .second] ++
    List.replicate 7 (.step .second false) ++
    List.replicate 7 (.step .first false) ++
    [.call .first (.free 16), .enter .first] ++
    List.replicate 4 (.step .first false) ++
    List.replicate 2 (.step .second false) ++
    List.replicate 4 (.step .first false) ++
    List.replicate 4 (.step .second false)

theorem counters_describe_overlappingCalls :
    ∃ state : CounterState Worker,
      state.buckets (mttBucketOf 16 mttBuckets 0) = [] ∧
      state.buckets (mttBucketOf 48 mttBuckets 0) = [⟨48, 100, 2⟩] ∧
      (state.counters.entryCount.toNat : Int) = bucketNodes state.buckets ∧
      (state.counters.currentBytes.toNat : Int) =
        bucketBytes state.buckets := by
  obtain ⟨state, reachable, fits, ended⟩ :=
    exists_reachableBy_of_requests
      (fun state => decide (∀ thread, state.threads thread = .idle) &&
        (state.buckets (mttBucketOf 16 mttBuckets 0) == [] &&
          state.buckets (mttBucketOf 48 mttBuckets 0) == [⟨48, 100, 2⟩]))
      overlappingCalls counterStart_init (by decide) (by decide +kernel)
  simp only [Bool.and_eq_true, decide_eq_true_eq, beq_iff_eq] at ended
  obtain ⟨idle, removed, linked⟩ := ended
  have described := (counters_describe_buckets reachable fits).2 idle
  exact ⟨state, removed, linked, described.2⟩

end MemoryTraceTool
