import Mathlib.Algebra.BigOperators.Ring.Finset
import MemoryTraceTool.Counters

/-!
# The capacity of the table

Before an entry is inserted `entry_count` is compared with `MTT_MAX_ENTRIES`
twice, the second time under the stripe lock of the address.  The counter
belongs to all stripes, so sections of other stripes can pass the same
comparison before either has counted its entry.  The pool bounds the table
only because it has no more slots than the table may have entries.
-/

namespace MemoryTraceTool

open Transition

/-! ## The size of the pool -/

def mttPoolTargetBytes : Nat := 20 * 1024 * 1024

def mttPoolEntriesMin : Nat := 1024

def mttPoolEntriesMax : Nat := 131072

/-- `want_pool_entries` of `mtt_ensure_init`, from the size of an entry and the
value of `MTT_POOL_ENTRIES`. -/
def wantPoolEntries (entrySize : Nat) (envPool : Option Int) : Nat :=
  let want := mttPoolTargetBytes / entrySize
  let want := if want < mttPoolEntriesMin then mttPoolEntriesMin else want
  let want := if mttPoolEntriesMax < want then mttPoolEntriesMax else want
  match envPool with
  | none => want
  | some pe =>
      if (mttPoolEntriesMin : Int) ≤ pe ∧ pe ≤ mttPoolEntriesMax then pe.toNat
      else want

theorem wantPoolEntries_le (entrySize : Nat) (envPool : Option Int) :
    wantPoolEntries entrySize envPool ≤ mttMaxEntries := by
  have bound : mttPoolEntriesMax = mttMaxEntries := rfl
  have least : mttPoolEntriesMin ≤ mttMaxEntries := by decide
  simp only [wantPoolEntries]
  cases envPool with
  | none => dsimp only; split_ifs <;> omega
  | some pe => dsimp only; split_ifs <;> omega

/-! ## Sections with the memory of their entries -/

/-- What a call has in hand besides its section: whether it has passed
`mtt_is_over_capacity`, an entry that `mtt_entry_new` gave it, and an entry
that `mtt_entry_remove` has unlinked. -/
structure EntryHands where
  admitted : Bool
  entry : Bool
  dead : Bool
  deriving DecidableEq, Repr

def EntryHands.empty : EntryHands :=
  { admitted := false
    entry := false
    dead := false }

/-- `free` counts the slots in the free lists of the pool; in fallback mode
there is no pool. -/
structure CapacityState (Thread : Type) where
  table : CounterState Thread
  free : Option Nat
  hands : Thread → EntryHands

/-- A step of the table, or one around it on the memory of the entries. -/
inductive CapacityLabel (Thread : Type) where
  | run (label : CounterLabel Thread)
  | overCapacity (thread : Thread)
  | entryNew (thread : Thread)
  | entryDiscard (thread : Thread)
  | entryReturn (thread : Thread)

def SectionPc.ends : SectionPc → Bool
  | .release _ => true
  | _ => false

/-- The realloc without `raw_realloc` takes its entry before anything else, and
without the first comparison. -/
def CounterCall.unchecked : CounterCall → Bool
  | .realloc .hookFallback _ _ size | .realloc .apiFallback _ _ size =>
      size ≠ 0
  | _ => false

variable {Thread : Type} [DecidableEq Thread]

def CapacityState.setHands (state : CapacityState Thread) (thread : Thread)
    (hands : EntryHands) : CapacityState Thread :=
  { state with hands := Function.update state.hands thread hands }

omit [DecidableEq Thread] in
/-- The order of the code: an insertion needs an entry, an admitted call takes
its entry first, and a removed entry goes back before the unlock. -/
def CapacityState.Ready (state : CapacityState Thread) :
    CounterLabel Thread → Prop
  | .call thread _ => state.hands thread = .empty
  | .leave thread =>
      (state.hands thread).entry = false ∧ (state.hands thread).dead = false
  | .enter thread =>
      match (state.table.threads thread).todo.head? with
      | some (.insert _ _ _) => (state.hands thread).entry = true
      | _ => (state.hands thread).admitted = false
  | .step thread _ =>
      match (state.table.threads thread).pc with
      | .release _ => (state.hands thread).dead = false
      | _ => True

/-- `mtt_entry_add` links the entry in hand; `mtt_entry_remove` leaves the
unlinked one. -/
def CapacityState.handsAfter (state : CapacityState Thread) :
    CounterLabel Thread → Thread → EntryHands
  | .call thread call =>
      Function.update state.hands thread
        { EntryHands.empty with admitted := call.unchecked }
  | .leave thread => Function.update state.hands thread .empty
  | .enter _ => state.hands
  | .step thread _ =>
      match (state.table.threads thread).pc with
      | .link _ =>
          Function.update state.hands thread
            { state.hands thread with entry := false }
      | .unlink entry =>
          if (entryOf state.table.hashSeed state.table.buckets
              entry.ptr).isSome then
            Function.update state.hands thread
              { state.hands thread with dead := true }
          else state.hands
      | _ => state.hands

instance (state : CapacityState Thread) (label : CounterLabel Thread) :
    Decidable (state.Ready label) := by
  unfold CapacityState.Ready
  split
  · infer_instance
  · infer_instance
  · split <;> infer_instance
  · split <;> infer_instance

/-- `mtt_is_over_capacity`: a full table ends the tracking of the call. -/
def CapacityState.isOverCapacity (state : CapacityState Thread)
    (thread : Thread) :
    CapacityState Thread :=
  let counters := state.table.counters
  if mttMaxEntries ≤ counters.entryCount.toNat then
    { state with
      table := { state.table.setThread thread .idle with
        counters := { counters with
          skippedOvercap := counters.skippedOvercap + 1 } } }
  else
    state.setHands thread { state.hands thread with admitted := true }

/-- A thread is about to insert and has not compared yet. -/
def CapacityState.MayCompare (state : CapacityState Thread)
    (thread : Thread) : Bool :=
  match state.table.threads thread with
  | ⟨.outside, [.insert _ _ _]⟩ => state.hands thread = .empty
  | _ => false

/-- The steps of the sections with the entries that they need. -/
def capacityNext (state : CapacityState Thread) :
    CapacityLabel Thread → Option (CapacityState Thread)
  | .run label =>
      if state.Ready label then
        (counterNext state.table label).map fun table =>
          { state with
            table := table
            hands := state.handsAfter label }
      else none
  | .overCapacity thread =>
      if state.MayCompare thread then some (state.isOverCapacity thread)
      else none
  | .entryNew thread =>
      let hands := state.hands thread
      if (state.table.threads thread).pc = .outside ∧ hands.admitted = true ∧
          hands.entry = false then
        let taken := state.setHands thread
          { hands with
            admitted := false
            entry := true }
        match state.free with
        | none => some taken
        | some 0 => none
        | some (n + 1) => some { taken with free := some n }
      else none
  | .entryDiscard thread =>
      let hands := state.hands thread
      let current := state.table.threads thread
      if hands.entry = true ∧ current.todo = [] ∧
          (current.pc = .outside ∨ current.pc.ends = true) then
        some { state.setHands thread { hands with entry := false } with
          free := state.free.map (· + 1) }
      else none
  | .entryReturn thread =>
      let hands := state.hands thread
      if hands.dead = true ∧ (state.table.threads thread).pc.ends = true then
        some { state.setHands thread { hands with dead := false } with
          free := state.free.map (· + 1) }
      else none

/-- Any number of threads on an initialised tracker without entries, in
fallback mode or with a pool of any capacity that `mtt_ensure_init` chooses. -/
def capacitySystem (Thread : Type) [DecidableEq Thread] :
    System (CapacityState Thread) (CapacityLabel Thread) where
  init := fun state =>
    (counterSystem Thread).init state.table ∧
      (state.free = none ∨ ∃ entrySize envPool,
        state.free = some (wantPoolEntries entrySize envPool)) ∧
      ∀ thread, state.hands thread = .empty
  next := capacityNext

/-- A section that has passed the comparison under its lock and has not
counted its entry. -/
def SectionPc.passed : SectionPc → Bool
  | .takeSeq _ _ _ | .countAlloc _ _ | .addBytes _ _ | .addTotal _ _
  | .loadCurrent _ _ | .loadPeak _ _ _ | .casPeak _ _ _ _
  | .markPeak _ _ _ | .link _ | .countEntry _ => true
  | _ => false

/-- How many sections have passed the comparison and not yet counted their
entry. -/
def CapacityState.passed [Fintype Thread] (state : CapacityState Thread) :
    Nat :=
  (Finset.univ.filter fun thread =>
    (state.table.threads thread).pc.passed = true).card

/-- A comparison under a lock that succeeds finds room for the entries of the
sections that have passed it before, too. -/
def LeavesRoom [Fintype Thread] (state : CapacityState Thread) :
    CapacityLabel Thread → Prop
  | .run (.step thread _) =>
      match (state.table.threads thread).pc with
      | .check _ _ _ =>
          state.table.counters.entryCount.toNat < mttMaxEntries →
            state.table.counters.entryCount.toNat + state.passed <
              mttMaxEntries
      | _ => True
  | _ => True

/-! ## What an operation does to the entries -/

/-- A section that is to link an entry. -/
def SectionPc.inserts : SectionPc → Bool
  | .acquire (.insert _ _ _) | .check _ _ _ | .takeSeq _ _ _
  | .countAlloc _ _ | .addBytes _ _ | .addTotal _ _ | .loadCurrent _ _
  | .loadPeak _ _ _ | .casPeak _ _ _ _ | .markPeak _ _ _ | .link _ => true
  | _ => false

/-- Where `mtt_entry_remove` may still have the entry it unlinked. -/
def SectionPc.unlinked : SectionPc → Bool
  | .uncountEntry _ | .release _ => true
  | _ => false

/-- Operations that take the entry out of the hands, or put one there. -/
def SectionPc.movesEntry (seed : Word) (buckets : Buckets) :
    SectionPc → Bool
  | .link _ => true
  | .unlink entry => (entryOf seed buckets entry.ptr).isSome
  | _ => false

theorem SectionPc.not_inserts_of_ends {pc : SectionPc}
    (ends : pc.ends = true) : pc.inserts = false := by
  cases pc with
  | release => rfl
  | _ => cases ends

/-- The operations of a section, by what they do to the chains and to
`entry_count`. -/
inductive EntryMove (seed : Word) (counters : Counters) (buckets : Buckets) :
    SectionPc → Counters → Buckets → SectionPc → Prop where
  | other {pc laterPc : SectionPc} {later : Counters}
      (count : later.entryCount = counters.entryCount)
      (before : pc.entriesInFlight = 0) (after : laterPc.entriesInFlight = 0)
      (inside : pc.unlinked = false) (passed : laterPc.passed = pc.passed)
      (inserts : laterPc.inserts = true → pc.inserts = true)
      (hands : pc.movesEntry seed buckets = false) :
      EntryMove seed counters buckets pc later buckets laterPc
  | pass (ptr : Word) (size : Nat) (notice : PeakNotice)
      (room : counters.entryCount.toNat < mttMaxEntries) :
      EntryMove seed counters buckets (.check ptr size notice) counters buckets
        (.takeSeq ptr size notice)
  | link (entry : MttEntry) :
      EntryMove seed counters buckets (.link entry) counters
        (ChainedTable.insert (EntryTable.shape seed) buckets entry)
        (.countEntry entry.ptr)
  | count {later : Counters} (ptr : Word)
      (count : later.entryCount = counters.entryCount + 1) :
      EntryMove seed counters buckets (.countEntry ptr) later buckets
        (.release ptr)
  | unlink {found : MttEntry} (entry : MttEntry)
      (finds : entryOf seed buckets entry.ptr = some found) :
      EntryMove seed counters buckets (.unlink entry) counters
        (ChainedTable.erase (EntryTable.shape seed) buckets entry.ptr)
        (.uncountEntry entry.ptr)
  | uncount {later : Counters} (ptr : Word)
      (count : later.entryCount = counters.entryCount - 1) :
      EntryMove seed counters buckets (.uncountEntry ptr) later buckets
        (.release ptr)

theorem sectionStep_entries {seed : Word} {buckets laterBuckets : Buckets}
    {spurious : Bool} {counters later : Counters} {pc laterPc : SectionPc}
    (taken : sectionStep seed spurious counters buckets pc =
      some (later, laterBuckets, laterPc)) :
    EntryMove seed counters buckets pc later laterBuckets laterPc := by
  cases pc with
  | outside | acquire | release => simp [sectionStep] at taken
  | lookup | takeSeq | countAlloc | addBytes | addTotal | loadCurrent
  | loadPeak | markPeak | loadBytes | countFree =>
      simp only [sectionStep, Option.some.injEq, Prod.mk.injEq] at taken
      obtain ⟨rfl, rfl, rfl⟩ := taken
      exact .other rfl rfl rfl rfl rfl id rfl
  | casPeak | subBytes =>
      simp only [sectionStep] at taken
      split_ifs at taken <;>
      · simp only [Option.some.injEq, Prod.mk.injEq] at taken
        obtain ⟨rfl, rfl, rfl⟩ := taken
        exact .other rfl rfl rfl rfl rfl id rfl
  | search =>
      simp only [sectionStep] at taken
      split at taken <;>
      · simp only [Option.some.injEq, Prod.mk.injEq] at taken
        obtain ⟨rfl, rfl, rfl⟩ := taken
        exact .other rfl rfl rfl rfl rfl id rfl
  | check ptr size notice =>
      simp only [sectionStep] at taken
      split_ifs at taken with full
      · simp only [Option.some.injEq, Prod.mk.injEq] at taken
        obtain ⟨rfl, rfl, rfl⟩ := taken
        exact .other rfl rfl rfl rfl rfl (fun inserts => by cases inserts) rfl
      · simp only [Option.some.injEq, Prod.mk.injEq] at taken
        obtain ⟨rfl, rfl, rfl⟩ := taken
        exact .pass ptr size notice (Nat.lt_of_not_le full)
  | link entry =>
      simp only [sectionStep, Option.some.injEq, Prod.mk.injEq] at taken
      obtain ⟨rfl, rfl, rfl⟩ := taken
      exact .link entry
  | countEntry ptr =>
      simp only [sectionStep, Option.some.injEq, Prod.mk.injEq] at taken
      obtain ⟨rfl, rfl, rfl⟩ := taken
      exact .count ptr rfl
  | unlink entry =>
      simp only [sectionStep] at taken
      cases found : entryOf seed buckets entry.ptr with
      | none =>
          rw [found] at taken
          simp only [Option.isSome_none, Bool.false_eq_true, if_false,
            Option.some.injEq, Prod.mk.injEq] at taken
          obtain ⟨rfl, rfl, rfl⟩ := taken
          refine .other rfl rfl rfl rfl rfl id ?_
          rw [SectionPc.movesEntry, found]
          rfl
      | some other =>
          rw [found] at taken
          simp only [Option.isSome_some, if_true, Option.some.injEq,
            Prod.mk.injEq] at taken
          obtain ⟨rfl, rfl, rfl⟩ := taken
          exact .unlink entry found
  | uncountEntry ptr =>
      simp only [sectionStep, Option.some.injEq, Prod.mk.injEq] at taken
      obtain ⟨rfl, rfl, rfl⟩ := taken
      exact .uncount ptr rfl

/-- An operation changes no chain but that of the address it holds. -/
theorem EntryMove.chains {seed : Word} {buckets laterBuckets : Buckets}
    {counters later : Counters} {pc laterPc : SectionPc}
    (move : EntryMove seed counters buckets pc later laterBuckets laterPc)
    (bucket : Nat) : laterBuckets bucket = buckets bucket ∨
      ∃ ptr, pc.holds = some ptr ∧
        mttBucketOf ptr mttBuckets seed = bucket := by
  cases move with
  | other | pass | count | uncount => exact .inl rfl
  | link entry | unlink entry =>
      by_cases here : mttBucketOf entry.ptr mttBuckets seed = bucket
      · exact .inr ⟨entry.ptr, rfl, here⟩
      · exact .inl (Function.update_of_ne (Ne.symm here) _ _)

/-! ## All threads together -/

def EntryHands.slots (hands : EntryHands) : Int :=
  (if hands.entry then 1 else 0) + if hands.dead then 1 else 0

def SectionPc.passing (pc : SectionPc) : Int :=
  if pc.passed then 1 else 0

/-- The address of an entry that is linked and not counted. -/
def SectionPc.uncounted : SectionPc → Option Word
  | .countEntry ptr => some ptr
  | _ => none

def SectionPc.counting (pc : SectionPc) : Int :=
  pc.uncounted.elim 0 fun _ => 1

theorem SectionPc.holds_of_uncounted {pc : SectionPc} {ptr : Word}
    (uncounted : pc.uncounted = some ptr) : pc.holds = some ptr := by
  cases pc with
  | countEntry => exact uncounted
  | _ => cases uncounted

theorem SectionPc.uncounted_of_inFlight {pc : SectionPc}
    (inFlight : pc.entriesInFlight = 0) : pc.uncounted = none := by
  cases pc with
  | countEntry => cases inFlight
  | _ => rfl

theorem SectionPc.inFlight_add_counting_nonneg (pc : SectionPc) :
    0 ≤ pc.entriesInFlight + pc.counting := by
  cases pc <;> simp [entriesInFlight, counting, uncounted]

theorem EntryHands.slots_nonneg (hands : EntryHands) : 0 ≤ hands.slots := by
  rw [slots]
  split_ifs <;> decide

theorem EntryHands.inFlight_le_slots {hands : EntryHands} {pc : SectionPc}
    (uncounting : ∀ ptr, pc = .uncountEntry ptr → hands.dead = true) :
    pc.entriesInFlight ≤ hands.slots := by
  have nonneg := hands.slots_nonneg
  cases pc with
  | uncountEntry ptr =>
      have one : SectionPc.entriesInFlight (.uncountEntry ptr) = 1 := rfl
      rw [one, slots, uncounting ptr rfl, if_pos rfl]
      split_ifs <;> decide
  | countEntry ptr =>
      have less : SectionPc.entriesInFlight (.countEntry ptr) = -1 := rfl
      omega
  | _ => exact nonneg

variable [Fintype Thread]

omit [DecidableEq Thread] in
theorem CapacityState.passed_eq (state : CapacityState Thread) :
    (state.passed : Int) =
      ∑ thread, (state.table.threads thread).pc.passing := by
  rw [CapacityState.passed, Finset.card_filter, Nat.cast_sum]
  apply Finset.sum_congr rfl
  intro thread _
  rw [SectionPc.passing]
  split_ifs <;> rfl

omit [DecidableEq Thread] in
/-- `entry_count` follows the chains; the slots of the pool are in the free
lists, in the chains or in the hands of the threads; without a pool the passed
comparisons leave room. -/
structure CapacityInvariant (state : CapacityState Thread) : Prop where
  owned : StripesOwned state.table
  linked : ∀ thread ptr,
    (state.table.threads thread).pc.uncounted = some ptr →
    state.table.buckets
      (mttBucketOf ptr mttBuckets state.table.hashSeed) ≠ []
  entries : (state.table.counters.entryCount.toNat : Int) =
    bucketNodes state.table.buckets +
      ∑ thread, (state.table.threads thread).pc.entriesInFlight
  ready : ∀ thread, (state.table.threads thread).pc.inserts = true →
    (state.hands thread).entry = true
  uncounting : ∀ thread ptr,
    (state.table.threads thread).pc = .uncountEntry ptr →
    (state.hands thread).dead = true
  dead : ∀ thread, (state.hands thread).dead = true →
    (state.table.threads thread).pc.unlinked = true
  pool : ∀ slots, state.free = some slots →
    bucketNodes state.table.buckets + ∑ thread, (state.hands thread).slots +
      slots ≤ mttMaxEntries
  fallback : state.free = none →
    state.table.counters.entryCount.toNat +
      ∑ thread, (state.table.threads thread).pc.passing ≤ mttMaxEntries

namespace CapacityInvariant

variable {state target : CapacityState Thread} {thread : Thread}
  {moved : SectionThread} {hands : EntryHands}

omit [DecidableEq Thread] in
theorem counting_le (invariant : CapacityInvariant state) :
    ∑ thread, (state.table.threads thread).pc.counting ≤
      bucketNodes state.table.buckets := by
  refine Accounts.sum_claims_le
    (fun thread => (state.table.threads thread).pc.uncounted.map fun ptr =>
      mttBucketOf ptr mttBuckets state.table.hashSeed) _ _ _
    (fun bucket _ => Int.natCast_nonneg _) ?_ ?_ ?_
  · intro thread bucket here
    obtain ⟨ptr, counts, rfl⟩ := Option.map_eq_some_iff.mp here
    refine ⟨bucket_mem_range _ _, ?_⟩
    have nonempty := invariant.linked thread ptr counts
    have positive := List.length_pos_of_ne_nil nonempty
    rw [SectionPc.counting, counts]
    simp only [chainNodes, Option.elim_some]
    omega
  · intro thread absent
    rw [Option.map_eq_none_iff] at absent
    rw [SectionPc.counting, absent]
    exact Int.le_refl 0
  · intro first second bucket firstHere secondHere
    obtain ⟨ptr, counts, rfl⟩ := Option.map_eq_some_iff.mp firstHere
    obtain ⟨other, otherCounts, same⟩ := Option.map_eq_some_iff.mp secondHere
    exact invariant.owned.alone (SectionPc.holds_of_uncounted counts)
      (SectionPc.holds_of_uncounted otherCounts) same.symm

omit [DecidableEq Thread] in
/-- A section that takes an entry off `entry_count` finds it counted. -/
theorem uncount_pos (invariant : CapacityInvariant state) {ptr : Word}
    (uncounts : (state.table.threads thread).pc = .uncountEntry ptr) :
    1 ≤ state.table.counters.entryCount.toNat := by
  have own := Finset.single_le_sum
    (fun other _ => (state.table.threads other).pc.inFlight_add_counting_nonneg)
    (Finset.mem_univ thread)
  rw [Finset.sum_add_distrib, uncounts] at own
  have counted : SectionPc.entriesInFlight (.uncountEntry ptr) +
      SectionPc.counting (.uncountEntry ptr) = 1 := rfl
  have entries := invariant.entries
  have bound := invariant.counting_le
  omega

omit [DecidableEq Thread] in
theorem entryCount_le (invariant : CapacityInvariant state) :
    state.table.counters.entryCount.toNat ≤ mttMaxEntries := by
  cases mode : state.free with
  | none =>
      have bound := invariant.fallback mode
      have nonneg : 0 ≤ ∑ thread, (state.table.threads thread).pc.passing := by
        apply Finset.sum_nonneg
        intro thread _
        rw [SectionPc.passing]
        split_ifs <;> decide
      omega
  | some slots =>
      have bound := invariant.pool slots mode
      have inHand : ∑ thread, (state.table.threads thread).pc.entriesInFlight ≤
          ∑ thread, (state.hands thread).slots := by
        apply Finset.sum_le_sum
        intro thread _
        exact EntryHands.inFlight_le_slots (invariant.uncounting thread)
      have entries := invariant.entries
      omega

/-- The invariant after a move of one thread, from what changes with it. -/
theorem moves (invariant : CapacityInvariant state)
    (owned : StripesOwned target.table)
    (threads : target.table.threads =
      Function.update state.table.threads thread moved)
    (seed : target.table.hashSeed = state.table.hashSeed)
    (handsAt : target.hands = Function.update state.hands thread hands)
    (linked : ∀ other ptr,
      (target.table.threads other).pc.uncounted = some ptr →
      target.table.buckets
        (mttBucketOf ptr mttBuckets state.table.hashSeed) ≠ [])
    (entries : (target.table.counters.entryCount.toNat : Int) -
        state.table.counters.entryCount.toNat =
      bucketNodes target.table.buckets - bucketNodes state.table.buckets +
        (moved.pc.entriesInFlight -
          (state.table.threads thread).pc.entriesInFlight))
    (ready : moved.pc.inserts = true → hands.entry = true)
    (uncounting : ∀ ptr, moved.pc = .uncountEntry ptr → hands.dead = true)
    (dead : hands.dead = true → moved.pc.unlinked = true)
    (pool : ∀ slots, target.free = some slots → ∃ before,
      state.free = some before ∧
        bucketNodes target.table.buckets + hands.slots + slots ≤
          bucketNodes state.table.buckets + (state.hands thread).slots + before)
    (fallback : target.free = none → state.free = none ∧
      target.table.counters.entryCount.toNat + (moved.pc.passing -
        (state.table.threads thread).pc.passing) +
        ∑ other, (state.table.threads other).pc.passing ≤ mttMaxEntries) :
    CapacityInvariant target := by
  refine ⟨owned, ?_, ?_, ?_, ?_, ?_, ?_, ?_⟩
  · intro other ptr counts
    rw [seed]
    exact linked other ptr counts
  · have before := invariant.entries
    rw [threads, sum_setThread SectionPc.entriesInFlight]
    omega
  · intro other inserts
    rw [threads] at inserts
    rw [handsAt]
    by_cases here : other = thread
    · rw [here, Function.update_self] at inserts ⊢
      exact ready inserts
    · rw [Function.update_of_ne here] at inserts ⊢
      exact invariant.ready other inserts
  · intro other ptr uncounts
    rw [threads] at uncounts
    rw [handsAt]
    by_cases here : other = thread
    · rw [here, Function.update_self] at uncounts ⊢
      exact uncounting ptr uncounts
    · rw [Function.update_of_ne here] at uncounts ⊢
      exact invariant.uncounting other ptr uncounts
  · intro other holdsDead
    rw [handsAt] at holdsDead
    rw [threads]
    by_cases here : other = thread
    · rw [here, Function.update_self] at holdsDead ⊢
      exact dead holdsDead
    · rw [Function.update_of_ne here] at holdsDead ⊢
      exact invariant.dead other holdsDead
  · intro slots mode
    obtain ⟨before, earlier, kept⟩ := pool slots mode
    have bound := invariant.pool before earlier
    rw [handsAt, Accounts.sum_update Finset.univ EntryHands.slots state.hands
      (Finset.mem_univ thread)]
    omega
  · intro mode
    obtain ⟨_, bound⟩ := fallback mode
    rw [threads, sum_setThread SectionPc.passing]
    omega

/-- Entries that wait to be counted stay linked: the section that changes
their chain is their own. -/
theorem linked_next (invariant : CapacityInvariant state)
    {table : CounterState Thread}
    (threads : table.threads =
      Function.update state.table.threads thread moved)
    (chains : ∀ bucket, table.buckets bucket = state.table.buckets bucket ∨
      ∃ ptr, (state.table.threads thread).pc.holds = some ptr ∧
        mttBucketOf ptr mttBuckets state.table.hashSeed = bucket)
    (own : ∀ ptr, moved.pc.uncounted = some ptr →
      table.buckets (mttBucketOf ptr mttBuckets state.table.hashSeed) ≠ []) :
    ∀ other ptr, (table.threads other).pc.uncounted = some ptr →
      table.buckets (mttBucketOf ptr mttBuckets state.table.hashSeed) ≠ [] := by
  intro other ptr counts
  rcases moved_cases threads other with ⟨rfl, here⟩ | ⟨different, here⟩
  · rw [here] at counts
    exact own ptr counts
  · rw [here] at counts
    rcases chains (mttBucketOf ptr mttBuckets state.table.hashSeed) with
      same | ⟨held, holds, sameBucket⟩
    · rw [same]
      exact invariant.linked other ptr counts
    · exact (different (invariant.owned.alone
        (SectionPc.holds_of_uncounted counts) holds sameBucket.symm)).elim

omit [Fintype Thread] in
theorem handsAfter_eq (state : CapacityState Thread) (thread : Thread)
    (spurious : Bool)
    (kept : (state.table.threads thread).pc.movesEntry state.table.hashSeed
      state.table.buckets = false) :
    state.handsAfter (.step thread spurious) =
      Function.update state.hands thread (state.hands thread) := by
  rw [Function.update_eq_self]
  simp only [CapacityState.handsAfter]
  split
  · rename_i entry pc
    rw [pc] at kept
    cases kept
  · rename_i entry pc
    rw [pc, SectionPc.movesEntry] at kept
    rw [if_neg (by rw [kept]; exact Bool.false_ne_true)]
  · rfl

/-- What an operation of a section does, with the hands of its thread
afterwards. -/
structure Effect (state : CapacityState Thread) (thread : Thread)
    (hands : EntryHands) (pc : SectionPc) (later : Counters)
    (chains : Buckets) (laterPc : SectionPc) : Prop where
  linked : ∀ ptr, laterPc.uncounted = some ptr →
    chains (mttBucketOf ptr mttBuckets state.table.hashSeed) ≠ []
  entries : (later.entryCount.toNat : Int) -
      state.table.counters.entryCount.toNat =
    bucketNodes chains - bucketNodes state.table.buckets +
      (laterPc.entriesInFlight - pc.entriesInFlight)
  ready : laterPc.inserts = true → hands.entry = true
  uncounting : ∀ ptr, laterPc = .uncountEntry ptr → hands.dead = true
  dead : hands.dead = true → laterPc.unlinked = true
  slots : bucketNodes chains + hands.slots ≤
    bucketNodes state.table.buckets + (state.hands thread).slots
  fallback : state.free = none →
    later.entryCount.toNat + (laterPc.passing - pc.passing) +
      ∑ other, (state.table.threads other).pc.passing ≤ mttMaxEntries

theorem of_effect {table : CounterState Thread}
    {handsAfter : Thread → EntryHands} {pc laterPc : SectionPc}
    {later : Counters} {chains : Buckets} (invariant : CapacityInvariant state)
    (owned : StripesOwned table)
    (threads : table.threads =
      Function.update state.table.threads thread moved)
    (seed : table.hashSeed = state.table.hashSeed)
    (handsAt : handsAfter = Function.update state.hands thread hands)
    (own : ∀ bucket, table.buckets bucket = state.table.buckets bucket ∨
      ∃ ptr, (state.table.threads thread).pc.holds = some ptr ∧
        mttBucketOf ptr mttBuckets state.table.hashSeed = bucket)
    (before : (state.table.threads thread).pc = pc)
    (counters : table.counters = later) (buckets : table.buckets = chains)
    (after : moved.pc = laterPc)
    (effect : Effect state thread hands pc later chains laterPc) :
    CapacityInvariant
      { state with
        table := table
        hands := handsAfter } := by
  subst before counters buckets after
  refine invariant.moves owned threads seed handsAt
    (invariant.linked_next threads own effect.linked) effect.entries
    effect.ready effect.uncounting effect.dead ?_ ?_
  · intro slots mode
    refine ⟨slots, mode, ?_⟩
    exact Int.add_le_add_right effect.slots slots
  · intro mode
    exact ⟨mode, effect.fallback mode⟩

section Effects

variable (invariant : CapacityInvariant state) {later : Counters}
  {chains : Buckets} {pc laterPc : SectionPc}
include invariant
omit [DecidableEq Thread]

theorem other_effect (before : (state.table.threads thread).pc = pc)
    (count : later.entryCount = state.table.counters.entryCount)
    (inFlight : pc.entriesInFlight = 0)
    (inFlightAfter : laterPc.entriesInFlight = 0)
    (inside : pc.unlinked = false) (passed : laterPc.passed = pc.passed)
    (inserts : laterPc.inserts = true → pc.inserts = true) :
    Effect state thread (state.hands thread) pc later state.table.buckets
      laterPc where
  linked := by
    intro ptr counts
    rw [SectionPc.uncounted_of_inFlight inFlightAfter] at counts
    cases counts
  entries := by
    rw [inFlight, inFlightAfter, count]
    omega
  ready := by
    intro insertsAfter
    apply invariant.ready thread
    rw [before]
    exact inserts insertsAfter
  uncounting := by
    intro ptr uncounts
    rw [uncounts] at inFlightAfter
    cases inFlightAfter
  dead := by
    intro holdsDead
    have unlinked := invariant.dead thread holdsDead
    rw [before, inside] at unlinked
    cases unlinked
  slots := le_refl _
  fallback := by
    intro mode
    have room := invariant.fallback mode
    rw [count, SectionPc.passing, passed, ← SectionPc.passing]
    omega

/-- No section that is about to leave the chains as they are has an entry in
its hands. -/
theorem not_dead (before : (state.table.threads thread).pc = pc)
    (inside : pc.unlinked = false) : (state.hands thread).dead = false := by
  cases holdsDead : (state.hands thread).dead with
  | false => rfl
  | true =>
      have unlinked := invariant.dead thread holdsDead
      rw [before, inside] at unlinked
      cases unlinked

theorem pass_effect {ptr : Word} {size : Nat} {notice : PeakNotice}
    (before : (state.table.threads thread).pc = .check ptr size notice)
    (room : state.free = none →
      state.table.counters.entryCount.toNat + state.passed < mttMaxEntries) :
    Effect state thread (state.hands thread) (.check ptr size notice)
      state.table.counters state.table.buckets
      (.takeSeq ptr size notice) where
  linked := by
    intro other counts
    cases counts
  entries := by simp [SectionPc.entriesInFlight]
  ready := by
    intro _
    apply invariant.ready thread
    rw [before]
    rfl
  uncounting := by
    intro other uncounts
    cases uncounts
  dead := by
    intro holdsDead
    rw [invariant.not_dead before rfl] at holdsDead
    cases holdsDead
  slots := le_refl _
  fallback := by
    intro mode
    have places := room mode
    have passed := state.passed_eq
    have one : SectionPc.passing (.takeSeq ptr size notice) -
        SectionPc.passing (.check ptr size notice) = 1 := rfl
    omega

theorem link_effect {entry : MttEntry}
    (before : (state.table.threads thread).pc = .link entry) :
    Effect state thread { state.hands thread with entry := false }
      (.link entry) state.table.counters
      (ChainedTable.insert (EntryTable.shape state.table.hashSeed)
        state.table.buckets entry)
      (.countEntry entry.ptr) where
  linked := by
    intro ptr counts
    cases counts
    exact ne_of_eq_of_ne (Function.update_self _ _ _) (List.cons_ne_nil _ _)
  entries := by
    rw [bucketNodes_insert]
    simp [SectionPc.entriesInFlight]
  ready := by
    intro inserts
    cases inserts
  uncounting := by
    intro ptr uncounts
    cases uncounts
  dead := by
    intro holdsDead
    rw [invariant.not_dead before rfl] at holdsDead
    cases holdsDead
  slots := by
    have ready := invariant.ready thread (by rw [before]; rfl)
    rw [bucketNodes_insert]
    simp only [EntryHands.slots, ready, Bool.false_eq_true, if_true, if_false]
    omega
  fallback := by
    intro mode
    have room := invariant.fallback mode
    have same : SectionPc.passing (.countEntry entry.ptr) -
        SectionPc.passing (.link entry) = 0 := rfl
    omega

theorem count_effect {ptr : Word}
    (before : (state.table.threads thread).pc = .countEntry ptr)
    (count : later.entryCount = state.table.counters.entryCount + 1) :
    Effect state thread (state.hands thread) (.countEntry ptr) later
      state.table.buckets (.release ptr) := by
  have bound := invariant.entryCount_le
  have counted : later.entryCount.toNat =
      state.table.counters.entryCount.toNat + 1 := by
    have limit : mttMaxEntries + 1 < 2 ^ 64 := by decide
    have one : BitVec.toNat (1 : Word) = 1 := rfl
    rw [count, BitVec.toNat_add]
    exact Nat.mod_eq_of_lt (by omega)
  constructor
  · intro other counts
    cases counts
  · have one : SectionPc.entriesInFlight (.release ptr) -
        SectionPc.entriesInFlight (.countEntry ptr) = 1 := rfl
    omega
  · intro inserts
    cases inserts
  · intro other uncounts
    cases uncounts
  · intro holdsDead
    rw [invariant.not_dead before rfl] at holdsDead
    cases holdsDead
  · exact le_refl _
  · intro mode
    have room := invariant.fallback mode
    have less : SectionPc.passing (.release ptr) -
        SectionPc.passing (.countEntry ptr) = -1 := rfl
    omega

theorem unlink_effect {entry found : MttEntry}
    (before : (state.table.threads thread).pc = .unlink entry)
    (finds : entryOf state.table.hashSeed state.table.buckets entry.ptr =
      some found) :
    Effect state thread { state.hands thread with dead := true }
      (.unlink entry) state.table.counters
      (ChainedTable.erase (EntryTable.shape state.table.hashSeed)
        state.table.buckets entry.ptr)
      (.uncountEntry entry.ptr) where
  linked := by
    intro ptr counts
    cases counts
  entries := by
    have one : SectionPc.entriesInFlight (.uncountEntry entry.ptr) -
        SectionPc.entriesInFlight (.unlink entry) = 1 := rfl
    rw [bucketNodes_erase finds]
    omega
  ready := by
    intro inserts
    cases inserts
  uncounting := fun _ _ => rfl
  dead := fun _ => rfl
  slots := by
    have alive := invariant.not_dead before rfl
    rw [bucketNodes_erase finds]
    simp only [EntryHands.slots, alive, Bool.false_eq_true, if_true, if_false]
    omega
  fallback := by
    intro mode
    have room := invariant.fallback mode
    have same : SectionPc.passing (.uncountEntry entry.ptr) -
        SectionPc.passing (.unlink entry) = 0 := rfl
    omega

theorem uncount_effect {ptr : Word}
    (before : (state.table.threads thread).pc = .uncountEntry ptr)
    (count : later.entryCount = state.table.counters.entryCount - 1) :
    Effect state thread (state.hands thread) (.uncountEntry ptr) later
      state.table.buckets (.release ptr) := by
  have positive := invariant.uncount_pos before
  have counted : later.entryCount.toNat =
      state.table.counters.entryCount.toNat - 1 := by
    rw [count]
    exact BitVec.toNat_sub_of_le positive
  constructor
  · intro other counts
    cases counts
  · have less : SectionPc.entriesInFlight (.release ptr) -
        SectionPc.entriesInFlight (.uncountEntry ptr) = -1 := rfl
    omega
  · intro inserts
    cases inserts
  · intro other uncounts
    cases uncounts
  · exact fun _ => rfl
  · exact le_refl _
  · intro mode
    have room := invariant.fallback mode
    have same : SectionPc.passing (.release ptr) -
        SectionPc.passing (.uncountEntry ptr) = 0 := rfl
    omega

end Effects

theorem operates {spurious : Bool} {table : CounterState Thread}
    (invariant : CapacityInvariant state)
    (room : state.free = none →
      LeavesRoom state (.run (.step thread spurious)))
    (owned : StripesOwned table)
    (threads : table.threads =
      Function.update state.table.threads thread moved)
    (seed : table.hashSeed = state.table.hashSeed)
    (move : EntryMove state.table.hashSeed state.table.counters
      state.table.buckets (state.table.threads thread).pc table.counters
      table.buckets moved.pc) :
    CapacityInvariant
      { state with
        table := table
        hands := state.handsAfter (.step thread spurious) } := by
  have own := move.chains
  have keeps := handsAfter_eq state thread spurious
  simp only [LeavesRoom] at room
  generalize before : (state.table.threads thread).pc = pc
    at move room keeps
  generalize counters : table.counters = later at move
  generalize buckets : table.buckets = chains at move
  generalize after : moved.pc = laterPc at move
  cases move with
  | other count inFlight inFlightAfter inside passed inserts kept =>
      exact invariant.of_effect owned threads seed (keeps kept) own before
        counters buckets after
        (invariant.other_effect before count inFlight inFlightAfter inside
          passed inserts)
  | pass ptr size notice free =>
      exact invariant.of_effect owned threads seed (keeps rfl) own before
        counters buckets after
        (invariant.pass_effect before fun mode => room mode free)
  | link entry =>
      have handsAt : state.handsAfter (.step thread spurious) =
          Function.update state.hands thread
            { state.hands thread with entry := false } := by
        simp only [CapacityState.handsAfter, before]
      exact invariant.of_effect owned threads seed handsAt own before
        counters buckets after (invariant.link_effect before)
  | count ptr count =>
      exact invariant.of_effect owned threads seed (keeps rfl) own before
        counters buckets after (invariant.count_effect before count)
  | unlink entry finds =>
      have handsAt : state.handsAfter (.step thread spurious) =
          Function.update state.hands thread
            { state.hands thread with dead := true } := by
        simp only [CapacityState.handsAfter, before, finds, Option.isSome_some,
          if_true]
      exact invariant.of_effect owned threads seed handsAt own before
        counters buckets after (invariant.unlink_effect before finds)
  | uncount ptr count =>
      exact invariant.of_effect owned threads seed (keeps rfl) own before
        counters buckets after (invariant.uncount_effect before count)

/-- Crossing the border of a section changes neither the chains nor
`entry_count`. -/
theorem crosses {table : CounterState Thread}
    {handsAfter : Thread → EntryHands} (invariant : CapacityInvariant state)
    (owned : StripesOwned table)
    (threads : table.threads =
      Function.update state.table.threads thread moved)
    (count : table.counters.entryCount = state.table.counters.entryCount)
    (buckets : table.buckets = state.table.buckets)
    (seed : table.hashSeed = state.table.hashSeed)
    (crossed : state.table.Crosses table.locks thread
      (state.table.threads thread).pc moved.pc)
    (handsAt : handsAfter = Function.update state.hands thread hands)
    (slots : hands.slots = (state.hands thread).slots)
    (ready : moved.pc.inserts = true → hands.entry = true)
    (dead : hands.dead = true → moved.pc.unlinked = true) :
    CapacityInvariant
      { state with
        table := table
        hands := handsAfter } := by
  have quiet : (state.table.threads thread).pc.entriesInFlight = 0 ∧
      (state.table.threads thread).pc.passing = 0 ∧
      moved.pc.entriesInFlight = 0 ∧ moved.pc.passing = 0 := by
    generalize (state.table.threads thread).pc = pc at crossed
    generalize moved.pc = laterPc at crossed
    cases crossed with
    | between | enter | unlock => exact ⟨rfl, rfl, rfl, rfl⟩
    | lock entered => cases entered <;> exact ⟨rfl, rfl, rfl, rfl⟩
  obtain ⟨inFlight, passing, inFlightAfter, passingAfter⟩ := quiet
  refine invariant.moves owned threads seed handsAt
    (invariant.linked_next threads (fun bucket => .inl (by rw [buckets])) ?_)
    ?_ ready ?_ dead ?_ ?_
  · intro ptr counts
    rw [SectionPc.uncounted_of_inFlight inFlightAfter] at counts
    cases counts
  · dsimp only
    rw [inFlight, inFlightAfter, count, buckets]
    omega
  · intro ptr uncounts
    rw [uncounts] at inFlightAfter
    cases inFlightAfter
  · intro free mode
    refine ⟨free, mode, ?_⟩
    dsimp only
    rw [buckets, slots]
  · intro mode
    have room := invariant.fallback mode
    refine ⟨mode, ?_⟩
    dsimp only
    rw [passing, passingAfter, count]
    omega

theorem handles {free : Option Nat} (invariant : CapacityInvariant state)
    (ready : (state.table.threads thread).pc.inserts = true →
      hands.entry = true)
    (uncounting : ∀ ptr,
      (state.table.threads thread).pc = .uncountEntry ptr → hands.dead = true)
    (dead : hands.dead = true →
      (state.table.threads thread).pc.unlinked = true)
    (pool : ∀ slots, free = some slots → ∃ before,
      state.free = some before ∧
        hands.slots + slots ≤ (state.hands thread).slots + before)
    (fallback : free = none → state.free = none) :
    CapacityInvariant { state.setHands thread hands with free := free } := by
  refine invariant.moves invariant.owned
    (Function.update_eq_self thread state.table.threads).symm rfl rfl
    invariant.linked ?_ ready uncounting dead ?_ ?_
  · simp [CapacityState.setHands]
  · intro slots mode
    obtain ⟨before, earlier, bound⟩ := pool slots mode
    refine ⟨before, earlier, ?_⟩
    simp only [CapacityState.setHands]
    omega
  · intro mode
    have room := invariant.fallback (fallback mode)
    refine ⟨fallback mode, ?_⟩
    simp only [CapacityState.setHands]
    omega

theorem runs {label : CounterLabel Thread} {table : CounterState Thread}
    (invariant : CapacityInvariant state)
    (room : state.free = none → LeavesRoom state (.run label))
    (allowed : state.Ready label)
    (taken : counterNext state.table label = some table) :
    CapacityInvariant
      { state with
        table := table
        hands := state.handsAfter label } := by
  have owned := invariant.owned.next taken
  cases label with
  | call thread call =>
      simp only [counterNext, Option.ite_none_right_eq_some,
        Option.some.injEq] at taken
      obtain ⟨idle, rfl⟩ := taken
      refine invariant.crosses owned rfl rfl rfl rfl ?_ rfl ?_ ?_ ?_
      · rw [idle]
        exact .between rfl
      · rw [show state.hands thread = .empty from allowed]
        rfl
      · intro inserts
        cases inserts
      · intro holdsDead
        cases holdsDead
  | leave thread =>
      simp only [counterNext, Option.ite_none_right_eq_some,
        Option.some.injEq] at taken
      obtain ⟨outside, rfl⟩ := taken
      obtain ⟨entry, dead⟩ := allowed
      refine invariant.crosses owned rfl rfl rfl rfl ?_ rfl ?_ ?_ ?_
      · rw [outside]
        exact .between rfl
      · rw [EntryHands.slots, EntryHands.slots, entry, dead]
        rfl
      · intro inserts
        cases inserts
      · intro holdsDead
        cases holdsDead
  | enter thread =>
      simp only [counterNext] at taken
      split at taken
      · rename_i entered todo ready
        rw [Option.some.injEq] at taken
        subst taken
        refine invariant.crosses owned rfl rfl rfl rfl ?_
          (Function.update_eq_self thread state.hands).symm rfl ?_ ?_
        · rw [ready]
          exact .enter entered rfl
        · intro inserts
          simp only [CapacityState.Ready, ready, List.head?_cons] at allowed
          cases entered with
          | insert => exact allowed
          | find | remove => cases inserts
        · intro holdsDead
          have unlinked := invariant.dead thread holdsDead
          rw [ready] at unlinked
          cases unlinked
      · cases taken
  | step thread spurious =>
      cases counterStep_cases taken with
      | operates _ _ moved threads seed locks operated =>
          exact invariant.operates room owned threads seed
            (sectionStep_entries operated)
      | crosses other acts moved threads counters buckets seed crossed =>
          cases acts
          have ready := invariant.ready thread
          have dead := invariant.dead thread
          have kept := handsAfter_eq state thread spurious
          have through := crossed
          simp only [CounterLabel.thread] at threads crossed through
          simp only [CapacityState.Ready] at allowed
          generalize before : (state.table.threads thread).pc = pc
            at crossed ready dead kept allowed
          obtain ⟨laterPc, after⟩ : ∃ laterPc, laterPc = moved.pc := ⟨_, rfl⟩
          rw [← after] at crossed
          cases crossed with
          | between | enter =>
              simp [counterNext, counterStep, before] at taken
          | lock entered =>
              refine invariant.crosses owned threads (by rw [counters]) buckets
                seed through (kept rfl) rfl ?_ ?_
              · intro inserts
                rw [← after] at inserts
                apply ready
                cases entered with
                | insert => rfl
                | find | remove => cases inserts
              · intro holdsDead
                cases dead holdsDead
          | unlock ptr =>
              refine invariant.crosses owned threads (by rw [counters]) buckets
                seed through (kept rfl) rfl ?_ ?_
              · intro inserts
                rw [← after] at inserts
                cases inserts
              · intro holdsDead
                rw [allowed] at holdsDead
                cases holdsDead

theorem compares (invariant : CapacityInvariant state)
    (may : state.MayCompare thread = true) :
    CapacityInvariant (state.isOverCapacity thread) := by
  have waiting : (state.table.threads thread).pc = .outside ∧
      state.hands thread = .empty := by
    simp only [CapacityState.MayCompare] at may
    split at may
    · rename_i pc
      rw [pc]
      exact ⟨rfl, of_decide_eq_true may⟩
    · cases may
  obtain ⟨outside, empty⟩ := waiting
  simp only [CapacityState.isOverCapacity]
  split_ifs
  · refine invariant.crosses
      (invariant.owned.keeps rfl rfl rfl (by rw [outside]; rfl)) rfl rfl rfl
      rfl ?_ (Function.update_eq_self thread state.hands).symm rfl ?_ ?_
    · rw [outside]
      exact .between rfl
    · intro inserts
      cases inserts
    · intro holdsDead
      rw [empty] at holdsDead
      cases holdsDead
  · refine invariant.handles ?_ ?_ ?_ ?_ id
    · intro inserts
      rw [outside] at inserts
      cases inserts
    · intro ptr uncounts
      rw [outside] at uncounts
      cases uncounts
    · intro holdsDead
      rw [empty] at holdsDead
      cases holdsDead
    · intro slots mode
      exact ⟨slots, mode, le_of_eq rfl⟩

theorem next {label : CapacityLabel Thread}
    (invariant : CapacityInvariant state)
    (room : state.free = none → LeavesRoom state label)
    (taken : capacityNext state label = some target) :
    CapacityInvariant target := by
  cases label with
  | run label =>
      simp only [capacityNext, Option.ite_none_right_eq_some,
        Option.map_eq_some_iff] at taken
      obtain ⟨allowed, table, stepped, rfl⟩ := taken
      exact invariant.runs room allowed stepped
  | overCapacity thread =>
      simp only [capacityNext, Option.ite_none_right_eq_some,
        Option.some.injEq] at taken
      obtain ⟨may, rfl⟩ := taken
      exact invariant.compares may
  | entryNew thread =>
      simp only [capacityNext, Option.ite_none_right_eq_some] at taken
      obtain ⟨⟨outside, _, noEntry⟩, taken⟩ := taken
      have taking (free : Option Nat)
          (pool : ∀ slots, free = some slots → state.free = some (slots + 1))
          (fallback : free = none → state.free = none) :
          CapacityInvariant
            { state.setHands thread
                { state.hands thread with
                  admitted := false
                  entry := true } with free := free } := by
        refine invariant.handles ?_ ?_ (invariant.dead thread) ?_ fallback
        · intro _
          rfl
        · intro ptr uncounts
          rw [outside] at uncounts
          cases uncounts
        · intro slots mode
          refine ⟨slots + 1, pool slots mode, ?_⟩
          simp only [EntryHands.slots, noEntry, Bool.false_eq_true, if_true,
            if_false]
          omega
      split at taken
      · rename_i mode
        cases taken
        refine taking state.free ?_ id
        intro slots here
        rw [mode] at here
        cases here
      · cases taken
      · rename_i n mode
        cases taken
        refine taking (some n) ?_ (fun absent => by cases absent)
        intro slots here
        cases here
        exact mode
  | entryDiscard thread =>
      simp only [capacityNext, Option.ite_none_right_eq_some,
        Option.some.injEq] at taken
      obtain ⟨⟨entry, _, away⟩, rfl⟩ := taken
      refine invariant.handles ?_ (invariant.uncounting thread)
        (invariant.dead thread) ?_ ?_
      · intro inserts
        rcases away with outside | ends
        · rw [outside] at inserts
          cases inserts
        · rw [SectionPc.not_inserts_of_ends ends] at inserts
          cases inserts
      · intro slots mode
        obtain ⟨before, earlier, rfl⟩ := Option.map_eq_some_iff.mp mode
        refine ⟨before, earlier, ?_⟩
        simp only [EntryHands.slots, entry, Bool.false_eq_true, if_true,
          if_false]
        omega
      · exact Option.map_eq_none_iff.mp
  | entryReturn thread =>
      simp only [capacityNext, Option.ite_none_right_eq_some,
        Option.some.injEq] at taken
      obtain ⟨⟨dead, ends⟩, rfl⟩ := taken
      refine invariant.handles ?_ ?_ ?_ ?_ ?_
      · intro inserts
        rw [SectionPc.not_inserts_of_ends ends] at inserts
        cases inserts
      · intro ptr uncounts
        rw [uncounts] at ends
        cases ends
      · intro holdsDead
        cases holdsDead
      · intro slots mode
        obtain ⟨before, earlier, rfl⟩ := Option.map_eq_some_iff.mp mode
        refine ⟨before, earlier, ?_⟩
        simp only [EntryHands.slots, dead, Bool.false_eq_true, if_true,
          if_false]
        omega
      · exact Option.map_eq_none_iff.mp

theorem initial (initial : (capacitySystem Thread).init state) :
    CapacityInvariant state := by
  obtain ⟨⟨_, _, count, _, empty, _, idle⟩, mode, hands⟩ := initial
  have noNodes : bucketNodes state.table.buckets = 0 := by
    simp [bucketNodes, empty, chainNodes]
  have none : state.table.counters.entryCount.toNat = 0 := by
    rw [count]
    rfl
  refine ⟨?_, ?_, ?_, ?_, ?_, ?_, ?_, ?_⟩
  · intro thread ptr held
    rw [idle thread] at held
    cases held
  · intro thread ptr counts
    rw [idle thread] at counts
    cases counts
  · simp [none, noNodes, idle, SectionThread.idle, SectionPc.entriesInFlight]
  · intro thread inserts
    rw [idle thread] at inserts
    cases inserts
  · intro thread ptr uncounts
    rw [idle thread] at uncounts
    cases uncounts
  · intro thread holdsDead
    rw [hands thread] at holdsDead
    cases holdsDead
  · intro slots pool
    rcases mode with fallback | ⟨entrySize, envPool, capacity⟩
    · rw [fallback] at pool
      cases pool
    · rw [capacity, Option.some.injEq] at pool
      subst pool
      have bound := wantPoolEntries_le entrySize envPool
      simp only [noNodes, hands, EntryHands.slots, EntryHands.empty]
      simpa using bound
  · intro _
    simp [none, idle, SectionThread.idle, SectionPc.passing,
      SectionPc.passed]

end CapacityInvariant

/-- With a pool, `entry_count` never exceeds `MTT_MAX_ENTRIES`; in fallback
mode it does not in a run whose comparisons under the locks leave room for the
sections that have passed theirs. -/
theorem entryCount_le_of_leavesRoom {state : CapacityState Thread}
    (reachable : (capacitySystem Thread).ReachableBy
      (fun state label => state.free = none → LeavesRoom state label) state) :
    state.table.counters.entryCount.toNat ≤ mttMaxEntries := by
  have invariant : CapacityInvariant state :=
    reachable.invariant CapacityInvariant (fun _ => .initial)
      fun _ _ _ holds room taken => holds.next room taken
  exact invariant.entryCount_le

/-- A tracker without entries and without a pool. -/
def CapacityState.start (Thread : Type) : CapacityState Thread :=
  { table := counterStart Thread
    free := none
    hands := fun _ => .empty }

omit [Fintype Thread] in
theorem CapacityState.start_init :
    (capacitySystem Thread).init (start Thread) :=
  ⟨counterStart_init, .inl rfl, fun _ => rfl⟩

instance (state : CapacityState Thread) (label : CapacityLabel Thread) :
    Decidable (LeavesRoom state label) := by
  unfold LeavesRoom
  split
  · split <;> infer_instance
  · infer_instance

/-- Two allocations that pass the first comparison together; the entry of one
is removed before the call of the other is over, and its node goes back. -/
def overlappingCompares : List (CapacityLabel Worker) :=
  let step thread := CapacityLabel.run (.step thread false)
  [.run (.call .first (.malloc 16 8 .onChange)), .overCapacity .first,
    .run (.call .second (.malloc 48 100 .onChange)), .overCapacity .second,
    .entryNew .second, .entryNew .first,
    .run (.enter .first), .run (.enter .second)] ++
    List.replicate 6 (step .first) ++ List.replicate 7 (step .second) ++
    List.replicate 7 (step .first) ++
    [.run (.call .first (.free 16)), .run (.enter .first)] ++
    List.replicate 4 (step .first) ++ List.replicate 6 (step .second) ++
    List.replicate 3 (step .first) ++ [.entryReturn .first, step .first]

theorem entryCount_le_overlappingCompares :
    ∃ state : CapacityState Worker, state.free = none ∧
      state.table.buckets (mttBucketOf 16 mttBuckets 0) = [] ∧
      state.table.buckets (mttBucketOf 48 mttBuckets 0) = [⟨48, 100, 2⟩] ∧
      state.table.counters.entryCount.toNat ≤ mttMaxEntries := by
  obtain ⟨state, reachable, ended⟩ :=
    System.exists_reachableBy_of_runBy (capacitySystem Worker)
      (fun state label => state.free = none → LeavesRoom state label)
      (fun state => decide (state.free = none) &&
        (state.table.buckets (mttBucketOf 16 mttBuckets 0) == [] &&
          state.table.buckets (mttBucketOf 48 mttBuckets 0) ==
            [⟨48, 100, 2⟩]))
      overlappingCompares CapacityState.start_init (by decide +kernel)
  simp only [Bool.and_eq_true, decide_eq_true_eq, beq_iff_eq] at ended
  obtain ⟨fallback, removed, linked⟩ := ended
  exact ⟨state, fallback, removed, linked, entryCount_le_of_leavesRoom reachable⟩

/-! ## A run that passes the limit -/

section

variable {Thread : Type} [DecidableEq Thread]

/-- The state after one thread has moved. -/
def CapacityState.moved (state : CapacityState Thread) (thread : Thread)
    (pc : SectionPc) (counters : Counters) (buckets : Buckets)
    (hands : EntryHands) : CapacityState Thread :=
  { state with
    table := { state.table.setThread thread ⟨pc, []⟩ with
      counters := counters
      buckets := buckets }
    hands := Function.update state.hands thread hands }

def CapacityState.setLock (state : CapacityState Thread) (stripe : Nat)
    (owner : Option Thread) : CapacityState Thread :=
  { state with
    table := { state.table with
      locks := Function.update state.table.locks stripe owner } }

/-- The state in which a thread stands before a section, with these hands. -/
def CapacityState.awaits (state : CapacityState Thread) (thread : Thread)
    (entered : Section) (hands : EntryHands) : CapacityState Thread :=
  { state with
    table := state.table.setThread thread ⟨.outside, [entered]⟩
    hands := Function.update state.hands thread hands }

theorem capacityNext_operation {state : CapacityState Thread} {thread : Thread}
    {pc laterPc : SectionPc} {later : Counters} {laterBuckets : Buckets}
    (here : state.table.threads thread = ⟨pc, []⟩)
    (operated : sectionStep state.table.hashSeed false state.table.counters
      state.table.buckets pc = some (later, laterBuckets, laterPc))
    (kept : pc.movesEntry state.table.hashSeed state.table.buckets = false) :
    capacityNext state (.run (.step thread false)) =
      some (state.moved thread laterPc later laterBuckets
        (state.hands thread)) := by
  have pcHere : (state.table.threads thread).pc = pc := by rw [here]
  have hands := CapacityInvariant.handsAfter_eq state thread false
    (by rw [pcHere]; exact kept)
  have ready : state.Ready (.step thread false) := by
    simp only [CapacityState.Ready, pcHere]
    cases pc with
    | release => cases operated
    | _ => trivial
  have stepped : counterNext state.table (.step thread false) =
      some { state.table.setThread thread ⟨laterPc, []⟩ with
        counters := later
        buckets := laterBuckets } := by
    simp only [counterNext, counterStep, here]
    cases pc with
    | outside | acquire | release => cases operated
    | _ => simp only [operated, Option.map_some]
  simp only [capacityNext, if_pos ready, stepped, Option.map_some, hands]
  rfl

theorem CapacityState.moved_self {state : CapacityState Thread}
    {thread : Thread} {pc : SectionPc}
    (here : state.table.threads thread = ⟨pc, []⟩) :
    state.moved thread pc state.table.counters state.table.buckets
      (state.hands thread) = state := by
  simp only [CapacityState.moved, CounterState.setThread, ← here,
    Function.update_eq_self]

theorem CapacityState.moved_moved (state : CapacityState Thread)
    (thread : Thread) (pc laterPc : SectionPc) (counters later : Counters)
    (buckets laterBuckets : Buckets) (hands handsLater : EntryHands) :
    (state.moved thread pc counters buckets hands).moved thread laterPc later
      laterBuckets handsLater =
    state.moved thread laterPc later laterBuckets handsLater := by
  simp [CapacityState.moved, CounterState.setThread]

/-- Runs without any condition. -/
abbrev CapacityState.Runs (state target : CapacityState Thread) : Prop :=
  (capacitySystem Thread).StepsBy (fun _ _ => True) state target

namespace CapacityState

variable {state : CapacityState Thread} {thread : Thread}
  {counters later : Counters} {buckets laterBuckets : Buckets}
  {hands : EntryHands}

/-- The state in which a thread has passed the comparison. -/
def admitted (state : CapacityState Thread) (thread : Thread) (ptr : Word)
    (size : Nat) (notice : PeakNotice) : CapacityState Thread :=
  (state.moved thread (.takeSeq ptr size notice) state.table.counters
    state.table.buckets ⟨false, true, false⟩).setLock (state.table.stripe ptr)
      (some thread)

/-- The state in which that thread has returned. -/
def returned (state : CapacityState Thread) (thread : Thread) (ptr : Word)
    (counters : Counters) (buckets : Buckets) : CapacityState Thread :=
  (state.moved thread .outside counters buckets .empty).setLock
    (state.table.stripe ptr) none

theorem Runs.step {middle target : CapacityState Thread}
    {label : CapacityLabel Thread} (runs : state.Runs middle)
    (taken : capacityNext middle label = some target) : state.Runs target :=
  .tail runs trivial taken

theorem Runs.operates {pc laterPc : SectionPc}
    (runs : state.Runs (state.moved thread pc counters buckets hands))
    (operated : sectionStep state.table.hashSeed false counters buckets pc =
      some (later, laterBuckets, laterPc))
    (kept : pc.movesEntry state.table.hashSeed buckets = false) :
    state.Runs (state.moved thread laterPc later laterBuckets hands) := by
  have here : (state.moved thread pc counters buckets hands).table.threads
      thread = ⟨pc, []⟩ := Function.update_self _ _ _
  have taken := capacityNext_operation here operated kept
  have own : (state.moved thread pc counters buckets hands).hands thread =
      hands := Function.update_self _ _ _
  rw [moved_moved, own] at taken
  exact runs.step taken

theorem Runs.links {entry : MttEntry}
    (runs : state.Runs
      (state.moved thread (.link entry) counters buckets hands)) :
    state.Runs (state.moved thread (.countEntry entry.ptr) counters
      (ChainedTable.insert (EntryTable.shape state.table.hashSeed) buckets
        entry) { hands with entry := false }) := by
  refine runs.step (?_ : capacityNext _ (.run (.step thread false)) = _)
  simp [capacityNext, Ready, handsAfter, counterNext,
    counterStep, sectionStep, moved, CounterState.setThread]

theorem Runs.unlocks {ptr : Word}
    (runs : state.Runs (state.moved thread (.release ptr) counters buckets
      .empty)) :
    state.Runs (state.returned thread ptr counters buckets) := by
  refine runs.step (?_ : capacityNext _ (.run (.step thread false)) = _)
  simp [capacityNext, Ready, handsAfter, counterNext,
    counterStep, returned, moved, setLock, CounterState.setThread,
    EntryHands.empty, CounterState.stripe]

/-- Alone, a thread leaves the loop on the peak after one comparison. -/
theorem Runs.compares {entry : MttEntry} {notice : PeakNotice} {current : Word}
    (runs : state.Runs (state.moved thread
      (.casPeak entry notice current counters.peakBytes) counters buckets
      hands)) :
    ∃ later changed, state.Runs (state.moved thread
        (.markPeak entry notice changed) later buckets hands) ∧
      later.entryCount = counters.entryCount := by
  by_cases higher : counters.peakBytes < current
  · refine ⟨{ counters with peakBytes := current }, true,
      runs.operates ?_ rfl, rfl⟩
    simp [sectionStep, higher]
  · refine ⟨counters, false, runs.operates ?_ rfl, rfl⟩
    simp [sectionStep, higher]

/-- From a passed comparison a thread runs alone to the end of its call. -/
theorem finishes {ptr : Word} {size : Nat} {notice : PeakNotice}
    (here : state.table.threads thread = ⟨.takeSeq ptr size notice, []⟩)
    (hands : state.hands thread = ⟨false, true, false⟩) :
    ∃ counters buckets,
      state.Runs (state.returned thread ptr counters buckets) ∧
      counters.entryCount = state.table.counters.entryCount + 1 := by
  have start : state.Runs (state.moved thread (.takeSeq ptr size notice)
      state.table.counters state.table.buckets ⟨false, true, false⟩) := by
    rw [← hands, moved_self here]
    exact .refl state
  have summed := (((start.operates rfl rfl).operates rfl rfl).operates rfl
    rfl).operates rfl rfl
  have loaded := (summed.operates rfl rfl).operates rfl rfl
  obtain ⟨raised, changed, compared, kept⟩ := loaded.compares
  have linked := (compared.operates rfl rfl).links
  exact ⟨_, _, (linked.operates rfl rfl).unlocks,
    congrArg (· + 1) kept⟩

/-- With room in the table, an unlocked stripe and no pool, an idle thread
gets to the operation after the comparison. -/
theorem admits (ptr : Word) {size : Nat} (notice : PeakNotice)
    (positive : size ≠ 0) (idle : state.table.threads thread = .idle)
    (empty : state.hands thread = .empty) (mode : state.free = none)
    (free : state.table.locks (state.table.stripe ptr) = none)
    (room : state.table.counters.entryCount.toNat < mttMaxEntries) :
    state.Runs (state.admitted thread ptr size notice) := by
  have called : capacityNext state
      (.run (.call thread (.malloc ptr size notice))) =
        some (state.awaits thread (.insert ptr size notice) .empty) := by
    simp [capacityNext, Ready, handsAfter, counterNext, awaits, idle, empty,
      CounterCall.sections, CounterCall.unchecked, positive, EntryHands.empty]
  have compared : capacityNext
      (state.awaits thread (.insert ptr size notice) .empty)
      (.overCapacity thread) =
        some (state.awaits thread (.insert ptr size notice)
          ⟨true, false, false⟩) := by
    simp [capacityNext, MayCompare, isOverCapacity, setHands, awaits,
      CounterState.setThread, EntryHands.empty, Nat.not_le_of_lt room]
  have taken : capacityNext
      (state.awaits thread (.insert ptr size notice) ⟨true, false, false⟩)
      (.entryNew thread) =
        some (state.awaits thread (.insert ptr size notice)
          ⟨false, true, false⟩) := by
    simp [capacityNext, setHands, awaits, CounterState.setThread, mode]
  have entered : capacityNext
      (state.awaits thread (.insert ptr size notice) ⟨false, true, false⟩)
      (.run (.enter thread)) =
        some (state.moved thread (.acquire (.insert ptr size notice))
          state.table.counters state.table.buckets ⟨false, true, false⟩) := by
    simp [capacityNext, Ready, handsAfter, counterNext, awaits, moved,
      CounterState.setThread]
  have locked : capacityNext
      (state.moved thread (.acquire (.insert ptr size notice))
        state.table.counters state.table.buckets ⟨false, true, false⟩)
      (.run (.step thread false)) =
        some ((state.moved thread (.check ptr size notice)
          state.table.counters state.table.buckets
          ⟨false, true, false⟩).setLock (state.table.stripe ptr)
            (some thread)) := by
    have unlocked : state.table.locks (mttStripeOf ptr mttBuckets
        state.table.hashSeed) = none := free
    simp [capacityNext, Ready, handsAfter, counterNext, counterStep, moved,
      setLock, CounterState.setThread, CounterState.stripe, Section.ptr,
      Section.start, unlocked]
  have passed : capacityNext
      ((state.moved thread (.check ptr size notice) state.table.counters
        state.table.buckets ⟨false, true, false⟩).setLock
          (state.table.stripe ptr) (some thread))
      (.run (.step thread false)) =
        some (state.admitted thread ptr size notice) := by
    simp [capacityNext, Ready, handsAfter, counterNext, counterStep,
      sectionStep, admitted, moved, setLock, CounterState.setThread,
      Nat.not_le_of_lt room]
  exact (((((.step (.refl state) called : state.Runs _).step compared).step
    taken).step entered).step locked).step passed

/-- No call is in flight, without a pool, and the table counts `count`
entries. -/
structure Rests (state : CapacityState Thread) (count : Nat) : Prop where
  mode : state.free = none
  seed : state.table.hashSeed = 0
  idle : ∀ thread, state.table.threads thread = .idle
  hands : ∀ thread, state.hands thread = .empty
  locks : ∀ stripe, state.table.locks stripe = none
  count : state.table.counters.entryCount.toNat = count

theorem toNat_add_one {count later : Word} (room : count.toNat ≤ mttMaxEntries)
    (next : later = count + 1) : later.toNat = count.toNat + 1 := by
  have limit : mttMaxEntries + 1 < 2 ^ 64 := by decide
  have one : BitVec.toNat (1 : Word) = 1 := rfl
  rw [next, BitVec.toNat_add, one]
  exact Nat.mod_eq_of_lt (by omega)

theorem admitted_here (state : CapacityState Thread) (thread : Thread)
    (ptr : Word) (size : Nat) (notice : PeakNotice) :
    (state.admitted thread ptr size notice).table.threads thread =
        ⟨.takeSeq ptr size notice, []⟩ ∧
      (state.admitted thread ptr size notice).hands thread =
        ⟨false, true, false⟩ :=
  ⟨Function.update_self _ _ _, Function.update_self _ _ _⟩

theorem admitted_other {other : Thread} (different : other ≠ thread)
    (ptr : Word) (size : Nat) (notice : PeakNotice) :
    (state.admitted thread ptr size notice).table.threads other =
        state.table.threads other ∧
      (state.admitted thread ptr size notice).hands other =
        state.hands other :=
  ⟨Function.update_of_ne different _ _, Function.update_of_ne different _ _⟩

theorem returned_other {other : Thread} (different : other ≠ thread)
    (ptr : Word) (counters : Counters) (buckets : Buckets) :
    (state.returned thread ptr counters buckets).table.threads other =
        state.table.threads other ∧
      (state.returned thread ptr counters buckets).hands other =
        state.hands other :=
  ⟨Function.update_of_ne different _ _, Function.update_of_ne different _ _⟩

theorem Rests.malloc {count : Nat} (rests : state.Rests count)
    (room : count < mttMaxEntries) (thread : Thread) (ptr : Word) :
    ∃ target, state.Runs target ∧ target.Rests (count + 1) := by
  have free : state.table.counters.entryCount.toNat < mttMaxEntries := by
    rw [rests.count]
    exact room
  have admitted := admits ptr .onChange (by decide : 8 ≠ 0)
    (rests.idle thread) (rests.hands thread) rests.mode (rests.locks _) free
  have here := state.admitted_here thread ptr 8 .onChange
  obtain ⟨counters, buckets, finished, counted⟩ := finishes here.1 here.2
  refine ⟨_, admitted.trans finished, rests.mode, rests.seed, ?_, ?_, ?_, ?_⟩
  · intro other
    by_cases here : other = thread
    · subst here
      exact Function.update_self _ _ _
    · exact (Function.update_of_ne here _ _).trans
        ((admitted_other here ptr 8 .onChange).1.trans (rests.idle other))
  · intro other
    by_cases here : other = thread
    · subst here
      exact Function.update_self _ _ _
    · exact (Function.update_of_ne here _ _).trans
        ((admitted_other here ptr 8 .onChange).2.trans (rests.hands other))
  · intro stripe
    by_cases here : stripe = state.table.stripe ptr
    · subst here
      exact Function.update_self _ _ _
    · exact (Function.update_of_ne here _ _).trans
        ((Function.update_of_ne here _ _).trans (rests.locks stripe))
  · exact (toNat_add_one (Nat.le_of_lt free) counted).trans
      (congrArg (· + 1) rests.count)

/-- Two threads in different stripes pass the comparison before either has
counted its entry. -/
theorem Rests.race {count : Nat} (rests : state.Rests count)
    (room : count < mttMaxEntries) {first second : Thread}
    (different : first ≠ second) {ptr other : Word}
    (apart : mttStripeOf ptr mttBuckets 0 ≠ mttStripeOf other mttBuckets 0) :
    ∃ target, state.Runs target ∧
      target.table.counters.entryCount.toNat = count + 2 := by
  have free : state.table.counters.entryCount.toNat < mttMaxEntries := by
    rw [rests.count]
    exact room
  have stripes : state.table.stripe other ≠ state.table.stripe ptr := by
    rw [CounterState.stripe, CounterState.stripe, rests.seed]
    exact apart.symm
  have firstPasses := admits ptr .onChange (by decide : 8 ≠ 0)
    (rests.idle first) (rests.hands first) rests.mode (rests.locks _) free
  have waiting := state.admitted_other different.symm ptr 8 .onChange
  have unlocked : (state.admitted first ptr 8 .onChange).table.locks
      (state.table.stripe other) = none := by
    simp only [admitted, setLock]
    rw [Function.update_of_ne stripes]
    exact rests.locks _
  have secondPasses : (state.admitted first ptr 8 .onChange).Runs
      ((state.admitted first ptr 8 .onChange).admitted second other 8
        .onChange) :=
    admits other .onChange (by decide)
      (waiting.1.trans (rests.idle second))
      (waiting.2.trans (rests.hands second)) rests.mode unlocked free
  have firstHere := state.admitted_here first ptr 8 .onChange
  have firstStays := (state.admitted first ptr 8 .onChange).admitted_other
    different other 8 .onChange
  obtain ⟨counters, buckets, firstReturns, firstCounts⟩ := finishes
    (firstStays.1.trans firstHere.1) (firstStays.2.trans firstHere.2)
  have secondHere := (state.admitted first ptr 8 .onChange).admitted_here second
    other 8 .onChange
  have secondStays := ((state.admitted first ptr 8 .onChange).admitted second
    other 8 .onChange).returned_other different.symm ptr counters buckets
  obtain ⟨_, _, secondReturns, secondCounts⟩ := finishes
    (secondStays.1.trans secondHere.1) (secondStays.2.trans secondHere.2)
  refine ⟨_, ((firstPasses.trans secondPasses).trans firstReturns).trans
    secondReturns, ?_⟩
  have one : counters.entryCount.toNat =
      state.table.counters.entryCount.toNat + 1 :=
    toNat_add_one (Nat.le_of_lt free) firstCounts
  have full : counters.entryCount.toNat ≤ mttMaxEntries := by omega
  have two := toNat_add_one full secondCounts
  exact two.trans ((congrArg (· + 1) one).trans
    (congrArg (· + 2) rests.count))

/-- One thread fills the table, each block at an address of its own. -/
theorem fills (thread : Thread) {count : Nat} (bound : count ≤ mttMaxEntries) :
    ∃ target, (start Thread).Runs target ∧ target.Rests count := by
  induction count with
  | zero =>
      exact ⟨start Thread, .refl _, rfl, rfl, fun _ => rfl, fun _ => rfl,
        fun _ => rfl, rfl⟩
  | succ count induction =>
      obtain ⟨middle, runs, rests⟩ := induction (Nat.le_of_succ_le bound)
      obtain ⟨target, further, rested⟩ := rests.malloc bound thread
        (BitVec.ofNat 64 (16 * (count + 1)))
      exact ⟨target, runs.trans further, rested⟩

end CapacityState

end

theorem entryCount_exceeds_max :
    ∃ state : CapacityState Worker, (capacitySystem Worker).Reachable state ∧
      mttMaxEntries < state.table.counters.entryCount.toNat := by
  obtain ⟨full, filled, rests⟩ := CapacityState.fills Worker.first
    (by decide : mttMaxEntries - 1 ≤ mttMaxEntries)
  obtain ⟨state, raced, count⟩ := rests.race (by decide)
    (by decide : Worker.first ≠ .second)
    (by decide : mttStripeOf 0x7f0000000010 mttBuckets 0 ≠
      mttStripeOf 0x7f0000000020 mttBuckets 0)
  refine ⟨state, ?_, ?_⟩
  · exact ((System.ReachableBy.start CapacityState.start_init).extend
      filled).extend raced
  · rw [count]
    decide

end MemoryTraceTool
