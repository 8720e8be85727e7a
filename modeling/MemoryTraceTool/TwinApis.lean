import MemoryTraceTool.Nesting

/-!
# The hooks and the API functions

`malloc`, `free` and `realloc` exist twice: as hooks and as `mtt_malloc`,
`mtt_free` and `mtt_realloc`.  Here both run on an initialised and enabled
tracker, the hooks for a caller with a slot at depth 0 that is neither
blacklisted nor a thread of the tool.
-/

namespace MemoryTraceTool.Twin

open Accounting
open Nesting (checkApiRequest countMoved forgetEntry)
open ForkChild (TrackedEntry)

/-- The functions that are resolved, the startup phase, and what the raw
allocator, the clock and the unwinder answer during a call: `block` for the
caller's block, `entryBlock` for an entry outside the pool.  Other threads hold
the locks of the `contended` stripes of the pool. -/
structure Answers where
  rawMalloc : Bool
  rawFree : Bool
  rawRealloc : Bool
  startup : Bool
  block : Option Word
  entryBlock : Bool
  contended : List Nat
  now : Int
  stack : List Word
  deriving DecidableEq

/-- A call of the raw allocator that succeeded. -/
inductive RawCall where
  | malloc (ptr : Word)
  | realloc (ptr new : Word)
  | free (ptr : Word)
  deriving DecidableEq

/-- What a call returns, the tracker it leaves, and the calls of the raw
allocator for blocks of the application. -/
structure Outcome where
  value : Option Word
  tracker : Tracker
  raw : List RawCall

/-- The blocks that are allocated after a call of the raw allocator. -/
def RawCall.apply (blocks : Word → Bool) : RawCall → Word → Bool
  | .malloc ptr => Function.update blocks ptr true
  | .realloc ptr new =>
      Function.update (Function.update blocks ptr false) new true
  | .free ptr => Function.update blocks ptr false

def Outcome.blocks (outcome : Outcome) (blocks : Word → Bool) : Word → Bool :=
  outcome.raw.foldl RawCall.apply blocks

section Functions

variable (answers : Answers) (tracker : Tracker)

def Answers.snap (ptr size : Word) : MttAllocSnap 64 :=
  { ptr, size, timestamp := answers.now, stack := answers.stack }

/-- `mtt_pool_contains` on an initialised tracker. -/
def mttPoolContains (ptr : Word) : Bool :=
  match tracker.pool with
  | none => false
  | some pool =>
      ptr != 0 && decide (pool.base.toNat ≤ ptr.toNat) &&
        decide (ptr.toNat < pool.base.toNat + pool.capacity * mttEntrySize)

/-- `raw_malloc`, and nothing else. -/
def rawMalloc : Outcome :=
  { value := answers.block
    tracker
    raw := answers.block.toList.map RawCall.malloc }

/-- The lock of its own stripe is waited for; another one that is contended is
passed over, with whatever its list holds. -/
def reachSlot (contended : List Nat) (lists : Nat → List Nat)
    (stripe : Nat) : Option (Nat × (Nat → List Nat)) :=
  (List.range mttLockStripes).findSome? fun offset =>
    let index := (stripe + offset) % mttLockStripes
    if offset ≠ 0 ∧ index ∈ contended then none
    else
      match lists index with
      | slot :: rest => some (slot, Function.update lists index rest)
      | [] => none

/-- `mtt_entry_new`; a contended stripe is passed. -/
def mttEntryNew (snap : MttAllocSnap 64) : Option (TrackedEntry × Tracker) :=
  match tracker.pool with
  | some pool =>
      (reachSlot answers.contended pool.freeLists
        (mttStripeOf snap.ptr mttBuckets tracker.hashSeed)).map
          fun (slot, freeLists) =>
            ({ slot, snap },
              { tracker with
                pool := some { pool with freeLists, used := pool.used + 1 } })
  | none =>
      if answers.entryBlock then some ({ slot := none, snap }, tracker)
      else none

/-- `mtt_entry_new`, and the locked section that adds the entry. -/
def newEntry (api : Bool) (ptr size : Word) : Tracker :=
  match mttEntryNew answers tracker (answers.snap ptr size) with
  | none => tracker
  | some (entry, taken) => recordEntry taken api entry

/-- The body that the two allocating functions have in common. -/
def allocate (api : Bool) (check : Tracker → Word → Bool × Tracker)
    (size : Word) : Outcome :=
  if !answers.rawMalloc then { value := none, tracker, raw := [] }
  else if size = 0 then rawMalloc answers tracker
  else if answers.startup then rawMalloc answers tracker
  else
    match answers.block with
    | none => { value := none, tracker, raw := [] }
    | some ptr =>
        let (passes, checked) := check tracker size
        { value := some ptr
          tracker := if passes then newEntry answers checked api ptr size
            else checked
          raw := [.malloc ptr] }

/-- The hook of `malloc`. -/
def malloc (size : Word) : Outcome :=
  allocate answers tracker false checkRequest size

/-- `mtt_malloc`. -/
def mttMalloc (size : Word) : Outcome :=
  allocate answers tracker true checkApiRequest size

/-- The hook of `free`. -/
def free (ptr : Word) : Outcome :=
  if ptr = 0 then { value := none, tracker, raw := [] }
  else if mttPoolContains tracker ptr then { value := none, tracker, raw := [] }
  else if !answers.rawFree then { value := none, tracker, raw := [] }
  else
    { value := none
      tracker := freeTracked tracker ptr answers.now
      raw := [.free ptr] }

/-- `mtt_free`. -/
def mttFree (ptr : Word) : Outcome :=
  if ptr = 0 then { value := none, tracker, raw := [] }
  else if !answers.rawFree then { value := none, tracker, raw := [] }
  else
    { value := none
      tracker := forgetEntry ptr tracker
      raw := [.free ptr] }

/-- Take the bytes of a block off that `raw_realloc` has moved. -/
def countReplaced (api : Bool) (entry : TrackedEntry) : Tracker :=
  if api then countFree tracker entry else countMoved tracker entry

/-- The capacity check and the new entry of a block that was moved. -/
def recordMoved (api : Bool) (new size : Word) : Tracker :=
  let (overCap, checked) := Accounting.mttIsOverCapacity tracker
  if overCap then checked else newEntry answers checked api new size

/-- The path with `raw_realloc`: a found entry is replaced. -/
def moveBlock (api : Bool) (ptr size : Word) : Outcome :=
  match answers.block with
  | none => { value := none, tracker, raw := [] }
  | some new =>
      { value := some new
        tracker :=
          match Accounting.mttEntryFind tracker ptr with
          | none => tracker
          | some entry =>
              recordMoved answers
                (Accounting.mttEntryRemove (countReplaced tracker api entry)
                  ptr)
                api new size
        raw := [.realloc ptr new] }

/-- The path without `raw_realloc`: the new block and its entry come first,
the old ones go last. -/
def copyBlock (api : Bool) (ptr size : Word) : Outcome :=
  match answers.block with
  | none => { value := none, tracker, raw := [] }
  | some new =>
      match mttEntryNew answers tracker (answers.snap new size) with
      | none =>
          { value := none
            tracker
            raw := [.malloc new, .free new] }
      | some (entry, taken) =>
          { value := some new
            tracker := recordEntry (forgetEntry ptr taken) api entry
            raw := [.malloc new, .free ptr] }

/-- The two reallocating functions on a block and a size above 0. -/
def reallocate (api : Bool) (ptr size : Word) : Outcome :=
  if !answers.rawMalloc then { value := none, tracker, raw := [] }
  else if answers.rawRealloc then moveBlock answers tracker api ptr size
  else copyBlock answers tracker api ptr size

/-- The hook of `realloc`. -/
def realloc (ptr size : Word) : Outcome :=
  if ptr = 0 then malloc answers tracker size
  else if size = 0 then free answers tracker ptr
  else reallocate answers tracker false ptr size

/-- `mtt_realloc`. -/
def mttRealloc (ptr size : Word) : Outcome :=
  if ptr = 0 then mttMalloc answers tracker size
  else if size = 0 then mttFree answers tracker ptr
  else reallocate answers tracker true ptr size

end Functions

/-! ## What a reallocation does to the table -/

/-- The entry of the old block is gone, the others stay, and at most one entry
with the new address and size is added. -/
structure Replaces (tracker later : Tracker) (ptr new size : Word) : Prop where
  others : ∀ bucket entry,
    entry ∈ ChainedTable.erase (entryShape tracker.hashSeed) tracker.chains
        ptr bucket ↔
      entry ∈ tracker.chains bucket ∧ entry.snap.ptr ≠ ptr
  table : later.chains =
      ChainedTable.erase (entryShape tracker.hashSeed) tracker.chains ptr ∨
    ∃ added : TrackedEntry, added.snap.ptr = new ∧ added.snap.size = size ∧
      later.chains = ChainedTable.insert (entryShape tracker.hashSeed)
        (ChainedTable.erase (entryShape tracker.hashSeed) tracker.chains ptr)
        added

/-- The bucket table and the seed are the same. -/
structure SameTable (tracker later : Tracker) : Prop where
  chains : later.chains = tracker.chains
  hashSeed : later.hashSeed = tracker.hashSeed

theorem mttEntryDiscard_sameTable (tracker : Tracker) (entry : TrackedEntry) :
    SameTable tracker (Accounting.mttEntryDiscard tracker entry) := by
  unfold Accounting.mttEntryDiscard
  split <;> exact ⟨rfl, rfl⟩

theorem mttEntryNew_eq_some {answers : Answers} {tracker taken : Tracker}
    {snap : MttAllocSnap 64} {entry : TrackedEntry}
    (new : mttEntryNew answers tracker snap = some (entry, taken)) :
    entry.snap = snap ∧ ∃ pool, taken = { tracker with pool } := by
  unfold mttEntryNew at new
  split at new
  · obtain ⟨⟨slot, lists⟩, _, made⟩ := Option.map_eq_some_iff.mp new
    cases made
    exact ⟨rfl, _, rfl⟩
  · split at new
    · cases new
      exact ⟨rfl, _, rfl⟩
    · cases new

theorem mttEntryNew_sameTable {answers : Answers} {tracker taken : Tracker}
    {snap : MttAllocSnap 64} {entry : TrackedEntry}
    (new : mttEntryNew answers tracker snap = some (entry, taken)) :
    SameTable tracker taken ∧ entry.snap = snap := by
  obtain ⟨isSnap, pool, rfl⟩ := mttEntryNew_eq_some new
  exact ⟨⟨rfl, rfl⟩, isSnap⟩

theorem reachSlot_nil (lists : Nat → List Nat) (stripe : Nat) :
    reachSlot [] lists stripe = ForkChild.takeFreeSlot lists stripe := by
  unfold reachSlot ForkChild.takeFreeSlot
  congr 1
  funext offset
  cases listed : lists ((stripe + offset) % mttLockStripes) with
  | nil => simp [listed]
  | cons slot rest => simp [listed]

/-- Without contention the scan is that of a thread that runs alone. -/
theorem mttEntryNew_uncontended {answers : Answers}
    (alone : answers.contended = []) (tracker : Tracker)
    (snap : MttAllocSnap 64) :
    mttEntryNew answers tracker snap =
      Accounting.mttEntryNew tracker answers.entryBlock snap := by
  unfold mttEntryNew Accounting.mttEntryNew
  rw [alone]
  cases tracker.pool with
  | some pool => simp only [reachSlot_nil]
  | none => rfl

theorem mttIsOverCapacity_sameTable (tracker : Tracker) :
    SameTable tracker (Accounting.mttIsOverCapacity tracker).2 := by
  unfold Accounting.mttIsOverCapacity
  split <;> exact ⟨rfl, rfl⟩

/-- The locked section adds the entry or leaves the table alone. -/
theorem recordEntry_chains (tracker : Tracker) (api : Bool)
    (entry : TrackedEntry) :
    (recordEntry tracker api entry).chains = tracker.chains ∨
      (recordEntry tracker api entry).chains =
        ChainedTable.insert (entryShape tracker.hashSeed) tracker.chains
          entry := by
  unfold recordEntry
  split
  · exact .inl (mttEntryDiscard_sameTable _ entry).chains
  · exact .inr rfl

theorem newEntry_chains (answers : Answers) (tracker : Tracker) (api : Bool)
    (ptr size : Word) :
    (newEntry answers tracker api ptr size).chains = tracker.chains ∨
      ∃ added : TrackedEntry, added.snap.ptr = ptr ∧ added.snap.size = size ∧
        (newEntry answers tracker api ptr size).chains =
          ChainedTable.insert (entryShape tracker.hashSeed) tracker.chains
            added := by
  unfold newEntry
  cases new : mttEntryNew answers tracker (answers.snap ptr size) with
  | none => exact .inl rfl
  | some given =>
      obtain ⟨entry, taken⟩ := given
      obtain ⟨same, snap⟩ := mttEntryNew_sameTable new
      rcases recordEntry_chains taken api entry with kept | added
      · exact .inl (kept.trans same.chains)
      · refine .inr ⟨entry, by rw [snap]; rfl, by rw [snap]; rfl, ?_⟩
        rw [← same.chains, ← same.hashSeed]
        exact added

theorem mttEntryRemove_chains (tracker : Tracker) {ptr : Word}
    (nonNull : ptr ≠ 0) :
    (Accounting.mttEntryRemove tracker ptr).chains =
        ChainedTable.erase (entryShape tracker.hashSeed) tracker.chains ptr ∧
      (Accounting.mttEntryRemove tracker ptr).hashSeed =
        tracker.hashSeed := by
  unfold Accounting.mttEntryRemove
  cases found : Accounting.mttEntryFind tracker ptr with
  | none =>
      simp only [Accounting.mttEntryFind, nonNull, if_false] at found
      exact ⟨(ChainedTable.erase_eq_self found).symm, rfl⟩
  | some entry =>
      have same := mttEntryDiscard_sameTable
        { tracker with
          chains := ChainedTable.erase (entryShape tracker.hashSeed)
            tracker.chains ptr
          entryCount := tracker.entryCount - 1 } entry
      exact ⟨same.chains, same.hashSeed⟩

theorem countReplaced_sameTable (tracker : Tracker) (api : Bool)
    (entry : TrackedEntry) :
    SameTable tracker (countReplaced tracker api entry) := by
  unfold countReplaced
  split <;> exact ⟨rfl, rfl⟩

theorem forgetEntry_chains (tracker : Tracker) {ptr : Word}
    (nonNull : ptr ≠ 0) :
    (forgetEntry ptr tracker).chains =
        ChainedTable.erase (entryShape tracker.hashSeed) tracker.chains ptr ∧
      (forgetEntry ptr tracker).hashSeed = tracker.hashSeed := by
  unfold forgetEntry
  cases found : Accounting.mttEntryFind tracker ptr with
  | none =>
      simp only [Accounting.mttEntryFind, nonNull, if_false] at found
      exact ⟨(ChainedTable.erase_eq_self found).symm, rfl⟩
  | some entry => exact mttEntryRemove_chains (countFree tracker entry) nonNull

/-- A table from which the old entry was taken and that then got at most one
entry for the new block. -/
theorem Replaces.of_erased {tracker erased later : Tracker}
    {ptr new size : Word} (wellFormed :
      ChainedTable.WellFormed (entryShape tracker.hashSeed) tracker.chains)
    (chains : erased.chains =
      ChainedTable.erase (entryShape tracker.hashSeed) tracker.chains ptr)
    (hashSeed : erased.hashSeed = tracker.hashSeed)
    (added : later.chains = erased.chains ∨
      ∃ added : TrackedEntry, added.snap.ptr = new ∧ added.snap.size = size ∧
        later.chains = ChainedTable.insert (entryShape erased.hashSeed)
          erased.chains added) : Replaces tracker later ptr new size where
  others := fun _ _ => wellFormed.mem_erase_iff
  table := by
    rw [chains, hashSeed] at added
    exact added

theorem moveBlock_replaces {answers : Answers} {tracker : Tracker}
    {ptr size new : Word} (nonNull : ptr ≠ 0) (wellFormed :
      ChainedTable.WellFormed (entryShape tracker.hashSeed) tracker.chains)
    (api : Bool)
    (moved : (moveBlock answers tracker api ptr size).value = some new) :
    Replaces tracker (moveBlock answers tracker api ptr size).tracker ptr new
      size := by
  unfold moveBlock at moved ⊢
  cases block : answers.block with
  | none => simp [block] at moved
  | some given =>
      simp only [block, Option.some.injEq] at moved ⊢
      subst moved
      cases found : Accounting.mttEntryFind tracker ptr with
      | none =>
          refine .of_erased wellFormed ?_ rfl (.inl rfl)
          simp only [Accounting.mttEntryFind, nonNull, if_false] at found
          exact (ChainedTable.erase_eq_self found).symm
      | some entry =>
          have counted := countReplaced_sameTable tracker api entry
          obtain ⟨chains, hashSeed⟩ := mttEntryRemove_chains
            (countReplaced tracker api entry) nonNull
          have checked := mttIsOverCapacity_sameTable
            (Accounting.mttEntryRemove (countReplaced tracker api entry) ptr)
          rw [counted.chains, counted.hashSeed] at chains
          rw [counted.hashSeed] at hashSeed
          refine .of_erased wellFormed (checked.chains.trans chains)
            (checked.hashSeed.trans hashSeed) ?_
          unfold recordMoved
          dsimp only
          split
          · exact .inl rfl
          · exact newEntry_chains answers _ api given size

theorem copyBlock_replaces {answers : Answers} {tracker : Tracker}
    {ptr size new : Word} (nonNull : ptr ≠ 0) (wellFormed :
      ChainedTable.WellFormed (entryShape tracker.hashSeed) tracker.chains)
    (api : Bool)
    (copied : (copyBlock answers tracker api ptr size).value = some new) :
    Replaces tracker (copyBlock answers tracker api ptr size).tracker ptr new
      size := by
  unfold copyBlock at copied ⊢
  cases block : answers.block with
  | none => simp [block] at copied
  | some given =>
      simp only [block] at copied ⊢
      cases taking : mttEntryNew answers tracker
          (answers.snap given size) with
      | none => simp [taking] at copied
      | some pair =>
          obtain ⟨entry, taken⟩ := pair
          simp only [taking, Option.some.injEq] at copied ⊢
          subst copied
          obtain ⟨same, snap⟩ := mttEntryNew_sameTable taking
          obtain ⟨chains, hashSeed⟩ := forgetEntry_chains taken nonNull
          rw [same.chains, same.hashSeed] at chains
          rw [same.hashSeed] at hashSeed
          refine .of_erased wellFormed chains hashSeed ?_
          rcases recordEntry_chains (forgetEntry ptr taken) api entry with
            kept | added
          · exact .inl kept
          · exact .inr ⟨entry, by rw [snap]; rfl, by rw [snap]; rfl, added⟩

theorem reallocate_null {answers : Answers} {tracker : Tracker}
    {ptr size : Word} {blocks : Word → Bool} (api : Bool)
    (live : blocks ptr = true)
    (fresh : answers.rawRealloc = false → ∀ new ∈ answers.block,
      blocks new = false)
    (failed : (reallocate answers tracker api ptr size).value = none) :
    (reallocate answers tracker api ptr size).tracker = tracker ∧
      (reallocate answers tracker api ptr size).blocks blocks ptr = true := by
  unfold reallocate at failed ⊢
  split at failed
  · rename_i missing
    rw [if_pos missing]
    exact ⟨rfl, live⟩
  · rename_i resolved
    rw [if_neg resolved]
    split at failed
    · rename_i native
      rw [if_pos native]
      unfold moveBlock at failed ⊢
      cases block : answers.block with
      | none => exact ⟨rfl, live⟩
      | some new => simp [block] at failed
    · rename_i fallback
      rw [if_neg fallback]
      unfold copyBlock at failed ⊢
      cases block : answers.block with
      | none => exact ⟨rfl, live⟩
      | some new =>
          simp only [block] at failed ⊢
          cases taking : mttEntryNew answers tracker
              (answers.snap new size) with
          | some pair => simp [taking] at failed
          | none =>
              refine ⟨rfl, ?_⟩
              have other : ptr ≠ new := by
                rintro rfl
                have dead := fresh (by simpa using fallback) ptr block
                rw [live] at dead
                cases dead
              simp [Outcome.blocks, RawCall.apply, other, live]

theorem reallocate_replaces {answers : Answers} {tracker : Tracker}
    {ptr size new : Word} (nonNull : ptr ≠ 0) (wellFormed :
      ChainedTable.WellFormed (entryShape tracker.hashSeed) tracker.chains)
    (api : Bool)
    (returned : (reallocate answers tracker api ptr size).value = some new) :
    Replaces tracker (reallocate answers tracker api ptr size).tracker ptr new
      size := by
  unfold reallocate at returned ⊢
  split at returned
  · cases returned
  · rename_i resolved
    rw [if_neg resolved]
    split at returned
    · rename_i native
      rw [if_pos native]
      exact moveBlock_replaces nonNull wellFormed api returned
    · rename_i fallback
      rw [if_neg fallback]
      exact copyBlock_replaces nonNull wellFormed api returned

/-- What a reallocating function may leave behind. -/
structure Atomic (tracker : Tracker) (blocks : Word → Bool) (ptr size : Word)
    (outcome : Outcome) : Prop where
  null : outcome.value = none →
    outcome.tracker = tracker ∧ outcome.blocks blocks ptr = true
  replaced : ∀ new, outcome.value = some new →
    Replaces tracker outcome.tracker ptr new size

theorem quietTracker_wellFormed (pool : Option EntryPool)
    {entries : List TrackedEntry}
    (distinct : (entries.map fun entry => entry.snap.ptr).Nodup) :
    ChainedTable.WellFormed (entryShape (quietTracker pool entries).hashSeed)
      (quietTracker pool entries).chains where
  placed := by
    intro bucket entry member
    exact of_decide_eq_true (List.mem_filter.mp member).2
  distinct := by
    intro bucket
    exact (List.filter_sublist.map _).nodup distinct

/-- A block of 16 bytes. -/
def oldEntry : TrackedEntry :=
  { slot := none
    snap := { ptr := 4096, size := 16, timestamp := 100, stack := [] } }

/-- Neither `raw_realloc` nor room for an entry. -/
def withoutEntry : Answers :=
  { rawMalloc := true
    rawFree := true
    rawRealloc := false
    startup := false
    block := some 8192
    entryBlock := false
    contended := []
    now := 200
    stack := [] }

/-- A pool with one free slot, in a list whose lock another thread holds. -/
def sparePool : EntryPool :=
  { base := 65536
    capacity := 1
    freeLists := fun index => if index = 5 then [0] else []
    used := 0 }

def contendedAnswers : Answers :=
  { withoutEntry with contended := [5] }

inductive TwinCall where
  | malloc (size : Word)
  | free (ptr : Word)
  | realloc (ptr size : Word)
  deriving DecidableEq

/-- The call through the hook or through the API function. -/
def TwinCall.run (api : Bool) (answers : Answers) (tracker : Tracker) :
    TwinCall → Outcome
  | .malloc size =>
      if api then mttMalloc answers tracker size
      else Twin.malloc answers tracker size
  | .free ptr =>
      if api then mttFree answers tracker ptr
      else Twin.free answers tracker ptr
  | .realloc ptr size =>
      if api then mttRealloc answers tracker ptr size
      else Twin.realloc answers tracker ptr size

structure SameResult (left right : Outcome) : Prop where
  value : left.value = right.value
  tracker : left.tracker = right.tracker

theorem sameResult_iff {left right : Outcome}
    (value : left.value = right.value) :
    SameResult left right ↔ left.tracker = right.tracker :=
  ⟨SameResult.tracker, fun tracker => ⟨value, tracker⟩⟩

theorem sameResult_self (outcome : Outcome) : SameResult outcome outcome :=
  ⟨rfl, rfl⟩

/-- The record of a block of that size raises the peak, or the flag that it
would set is up already. -/
def RaisesPeak (tracker : Tracker) (size : Word) : Prop :=
  tracker.peakUpdated = true ∨
    tracker.peakBytes < tracker.currentBytes + size

/-- `mtt_entry_new` has an entry to give for the block: a slot in a list whose
lock it gets, or an answer of `raw_malloc`. -/
def Answers.Reaches (answers : Answers) (tracker : Tracker) (ptr : Word) :
    Prop :=
  match tracker.pool with
  | some pool =>
      ∃ offset < mttLockStripes,
        (offset ≠ 0 → (mttStripeOf ptr mttBuckets tracker.hashSeed + offset) %
          mttLockStripes ∉ answers.contended) ∧
        pool.freeLists ((mttStripeOf ptr mttBuckets tracker.hashSeed +
          offset) % mttLockStripes) ≠ []
  | none => answers.entryBlock = true

/-- A sampled-out request does not find the table full, and a recorded one
raises the peak. -/
def AgreesOnMalloc (answers : Answers) (tracker : Tracker) (size : Word) :
    Prop :=
  answers.rawMalloc = true → size ≠ 0 → answers.startup = false →
    ∀ ptr, answers.block = some ptr →
    if (mttShouldTrack tracker.sampler size.toNat).1 then
      tracker.entryCount < mttMaxEntries →
        answers.Reaches tracker ptr → RaisesPeak tracker size
    else tracker.entryCount < mttMaxEntries

/-- A tracked block lies outside the pool, is older than a second, and has not
passed the leak threshold. -/
def AgreesOnFree (answers : Answers) (tracker : Tracker) (ptr : Word) : Prop :=
  ptr ≠ 0 → answers.rawFree = true → ∀ entry,
    Accounting.mttEntryFind tracker ptr = some entry →
    mttPoolContains tracker ptr = false ∧
      1 < answers.now - entry.snap.timestamp ∧
      ¬ (0 < tracker.leakThresholdSec ∧
        tracker.leakThresholdSec < answers.now - entry.snap.timestamp)

/-- The record of the new block raises the peak of the tracker without the old
one, and `raw_realloc` does not replace an entry of no bytes. -/
def AgreesOnRealloc (answers : Answers) (tracker : Tracker)
    (ptr size : Word) : Prop :=
  answers.rawMalloc = true → ∀ new, answers.block = some new →
    if answers.rawRealloc then
      ∀ entry, Accounting.mttEntryFind tracker ptr = some entry →
        (entry.snap.size = 0 → tracker.currentBytes = 0) ∧
          ((forgetEntry ptr tracker).entryCount < mttMaxEntries →
            answers.Reaches (forgetEntry ptr tracker) new →
            RaisesPeak (forgetEntry ptr tracker) size)
    else
      answers.Reaches tracker new →
        (forgetEntry ptr tracker).entryCount < mttMaxEntries →
        RaisesPeak (forgetEntry ptr tracker) size

def TwinCall.Agrees (answers : Answers) (tracker : Tracker) :
    TwinCall → Prop
  | .malloc size => AgreesOnMalloc answers tracker size
  | .free ptr => AgreesOnFree answers tracker ptr
  | .realloc ptr size =>
      if ptr = 0 then AgreesOnMalloc answers tracker size
      else if size = 0 then AgreesOnFree answers tracker ptr
      else AgreesOnRealloc answers tracker ptr size

/-! ## One call -/

theorem recordEntry_eq_iff (tracker : Tracker) (entry : TrackedEntry) :
    recordEntry tracker false entry = recordEntry tracker true entry ↔
      (tracker.entryCount < mttMaxEntries →
        RaisesPeak tracker entry.snap.size) := by
  by_cases full : mttMaxEntries ≤ tracker.entryCount
  · simp [recordEntry, full, Nat.not_lt.mpr full]
  · have room : tracker.entryCount < mttMaxEntries := Nat.lt_of_not_le full
    simp only [recordEntry, full, if_false, room, true_implies]
    constructor
    · intro same
      have flag := congrArg Tracker.peakUpdated same
      simpa [Accounting.mttEntryAdd, RaisesPeak] using flag
    · intro raises
      have flag : (tracker.peakUpdated || false ||
          decide (tracker.peakBytes <
            tracker.currentBytes + entry.snap.size)) = true := by
        simpa [RaisesPeak] using raises
      rw [flag]
      simp

theorem reachSlot_eq_none_iff {contended : List Nat}
    {lists : Nat → List Nat} {stripe : Nat} :
    reachSlot contended lists stripe = none ↔
      ¬ ∃ offset < mttLockStripes,
        (offset ≠ 0 → (stripe + offset) % mttLockStripes ∉ contended) ∧
          lists ((stripe + offset) % mttLockStripes) ≠ [] := by
  unfold reachSlot
  rw [List.findSome?_eq_none_iff]
  push Not
  apply forall_congr'
  intro offset
  rw [List.mem_range]
  apply imp_congr_right
  intro _
  dsimp only
  split
  · rename_i passed
    constructor
    · intro _ free
      exact (free passed.1 passed.2).elim
    · exact fun _ => rfl
  · rename_i tried
    have free : offset ≠ 0 →
        (stripe + offset) % mttLockStripes ∉ contended :=
      fun other held => tried ⟨other, held⟩
    cases lists ((stripe + offset) % mttLockStripes) with
    | nil => simp
    | cons slot rest => simpa using free

theorem mttEntryNew_eq_none_iff (answers : Answers) (tracker : Tracker)
    (ptr size : Word) :
    mttEntryNew answers tracker (answers.snap ptr size) = none ↔
      ¬ answers.Reaches tracker ptr := by
  unfold mttEntryNew Answers.Reaches Answers.snap
  cases tracker.pool with
  | some pool => exact Option.map_eq_none_iff.trans reachSlot_eq_none_iff
  | none => simp

theorem newEntry_eq_iff (answers : Answers) (tracker : Tracker)
    (ptr size : Word) :
    newEntry answers tracker false ptr size =
        newEntry answers tracker true ptr size ↔
      (tracker.entryCount < mttMaxEntries →
        answers.Reaches tracker ptr → RaisesPeak tracker size) := by
  unfold newEntry
  cases new : mttEntryNew answers tracker (answers.snap ptr size) with
  | none =>
      have without : ¬ answers.Reaches tracker ptr :=
        (mttEntryNew_eq_none_iff answers tracker ptr size).mp new
      simp [without]
  | some given =>
      obtain ⟨entry, taken⟩ := given
      have has : answers.Reaches tracker ptr := by
        by_contra without
        rw [(mttEntryNew_eq_none_iff answers tracker ptr size).mpr
          without] at new
        cases new
      obtain ⟨snap, pool, rfl⟩ := mttEntryNew_eq_some new
      simp only [recordEntry_eq_iff, snap, has, true_implies]
      rfl

/-- The two checks differ on a request that is sampled out: the hook then still
asks whether the table is full. -/
theorem checkApiRequest_eq_iff (tracker : Tracker) (size : Word) :
    checkRequest tracker size = checkApiRequest tracker size ↔
      ((mttShouldTrack tracker.sampler size.toNat).1 = false →
        tracker.entryCount < mttMaxEntries) := by
  unfold checkRequest checkApiRequest Accounting.mttIsOverCapacity
  by_cases full : mttMaxEntries ≤ tracker.entryCount
  · cases tracked : (mttShouldTrack tracker.sampler size.toNat).1 <;>
      simp [tracked, full]
  · have room : tracker.entryCount < mttMaxEntries := Nat.lt_of_not_le full
    cases tracked : (mttShouldTrack tracker.sampler size.toNat).1 <;>
      simp [tracked, full, room]

theorem checkRequest_passed {tracker : Tracker} {size : Word}
    (passes : (checkRequest tracker size).1 = true) :
    (checkRequest tracker size).2 =
        { tracker with
          sampler := (mttShouldTrack tracker.sampler size.toNat).2 } ∧
      (mttShouldTrack tracker.sampler size.toNat).1 = true ∧
      tracker.entryCount < mttMaxEntries := by
  have both := passes
  rw [checkRequest_passes] at both
  simp only [Bool.and_eq_true, Bool.not_eq_true', decide_eq_false_iff_not,
    Nat.not_le] at both
  refine ⟨?_, both⟩
  unfold checkRequest Accounting.mttIsOverCapacity
  simp [Nat.not_le.mpr both.2]

theorem checkedEntry_eq_iff (answers : Answers) (tracker : Tracker)
    (ptr size : Word) :
    (if (checkRequest tracker size).1 then
        newEntry answers (checkRequest tracker size).2 false ptr size
      else (checkRequest tracker size).2) =
        (if (checkApiRequest tracker size).1 then
          newEntry answers (checkApiRequest tracker size).2 true ptr size
        else (checkApiRequest tracker size).2) ↔
      if (mttShouldTrack tracker.sampler size.toNat).1 then
        tracker.entryCount < mttMaxEntries →
          answers.Reaches tracker ptr → RaisesPeak tracker size
      else tracker.entryCount < mttMaxEntries := by
  have checks := checkApiRequest_eq_iff tracker size
  have passes := checkRequest_passes tracker size
  cases tracked : (mttShouldTrack tracker.sampler size.toNat).1 with
  | true =>
      rw [tracked] at checks
      rw [← checks.mpr (by simp), if_pos rfl]
      cases passed : (checkRequest tracker size).1 with
      | true =>
          obtain ⟨sampled, _, room⟩ := checkRequest_passed passed
          rw [if_pos rfl, if_pos rfl, newEntry_eq_iff, sampled]
          exact Iff.rfl
      | false =>
          have full : ¬ tracker.entryCount < mttMaxEntries := by
            simpa [tracked, passed] using passes
          simp [full]
  | false =>
      have sampledOut : (checkRequest tracker size).1 = false := by
        simpa [tracked] using passes
      have apiSampledOut : (checkApiRequest tracker size).1 = false := by
        simp [checkApiRequest, tracked]
      simp only [tracked, true_implies] at checks
      simpa [sampledOut, apiSampledOut, Prod.ext_iff] using checks

theorem malloc_sameResult_iff (answers : Answers) (tracker : Tracker)
    (size : Word) :
    SameResult (Twin.malloc answers tracker size)
        (mttMalloc answers tracker size) ↔
      AgreesOnMalloc answers tracker size := by
  unfold Twin.malloc mttMalloc allocate AgreesOnMalloc
  by_cases resolved : answers.rawMalloc = true
  · by_cases empty : size = 0
    · simp [empty, sameResult_self]
    · by_cases startup : answers.startup = true
      · simp [startup, sameResult_self]
      · cases block : answers.block with
        | none => simp [resolved, startup, sameResult_self]
        | some ptr =>
            have entries := checkedEntry_eq_iff answers tracker ptr size
            rw [if_neg empty, if_neg empty]
            simpa only [resolved, startup, ne_eq, empty, not_false_eq_true,
              Option.some.injEq, forall_eq', true_implies, Bool.not_true,
              Bool.false_eq_true, if_false, sameResult_iff] using entries
  · simp [resolved, sameResult_self]

/-! ### `free` -/

theorem countAge_eq_self_iff (tracker : Tracker) (age : Int) :
    countAge tracker age = tracker ↔
      1 < age ∧
        ¬ (0 < tracker.leakThresholdSec ∧ tracker.leakThresholdSec < age) := by
  have moves : ∀ count : Word, count + 1 ≠ count := by
    intro count same
    exact absurd same (left_ne_add.mpr (by decide)).symm
  constructor
  · intro same
    have temp := congrArg Tracker.tempAllocCount same
    have expired := congrArg Tracker.freeExpiredCount same
    simp only [countAge] at temp expired
    constructor
    · by_contra young
      rw [if_pos (Int.not_lt.mp young)] at temp
      exact moves _ temp
    · intro old
      rw [if_pos old] at expired
      exact moves _ expired
  · intro unmoved
    unfold countAge
    rw [if_neg (Int.not_le.mpr unmoved.1), if_neg unmoved.2]

/-- The table and the pool are the same. -/
structure SameStore (left right : Tracker) : Prop where
  chains : right.chains = left.chains
  entryCount : right.entryCount = left.entryCount
  hashSeed : right.hashSeed = left.hashSeed
  pool : right.pool = left.pool

theorem mttEntryRemove_touches (tracker : Tracker) (ptr : Word) :
    ∃ chains entryCount pool, ∀ other, SameStore tracker other →
      Accounting.mttEntryRemove other ptr =
        { other with chains, entryCount, pool } := by
  refine ⟨(Accounting.mttEntryRemove tracker ptr).chains,
    (Accounting.mttEntryRemove tracker ptr).entryCount,
    (Accounting.mttEntryRemove tracker ptr).pool, ?_⟩
  intro other same
  cases other with
  | mk chains entryCount hashSeed pool =>
      obtain ⟨rfl, rfl, rfl, rfl⟩ := same
      simp only [Accounting.mttEntryRemove, Accounting.mttEntryFind]
      split
      · simp only [*]
      · simp only [*, Accounting.mttEntryDiscard]
        split <;> simp only [*]

/-- The counters and the setting that a removal leaves alone. -/
structure KeepsCounters (before after : Tracker) : Prop where
  leakThresholdSec : after.leakThresholdSec = before.leakThresholdSec
  freeCount : after.freeCount = before.freeCount
  currentBytes : after.currentBytes = before.currentBytes
  peakBytes : after.peakBytes = before.peakBytes
  peakUpdated : after.peakUpdated = before.peakUpdated

theorem mttEntryRemove_keepsCounters (tracker : Tracker) (ptr : Word) :
    KeepsCounters tracker (Accounting.mttEntryRemove tracker ptr) := by
  obtain ⟨_, _, _, touches⟩ := mttEntryRemove_touches tracker ptr
  rw [touches tracker ⟨rfl, rfl, rfl, rfl⟩]
  constructor <;> rfl

theorem mttEntryRemove_entryCount (tracker : Tracker) (ptr : Word) :
    (Accounting.mttEntryRemove tracker ptr).entryCount =
      if (Accounting.mttEntryFind tracker ptr).isSome then
        tracker.entryCount - 1
      else tracker.entryCount := by
  unfold Accounting.mttEntryRemove
  cases Accounting.mttEntryFind tracker ptr with
  | none => rfl
  | some entry =>
      simp only [Accounting.mttEntryDiscard]
      split <;> rfl

theorem mttEntryRemove_countAge (tracker : Tracker) (ptr : Word) (age : Int) :
    Accounting.mttEntryRemove (countAge tracker age) ptr =
      countAge (Accounting.mttEntryRemove tracker ptr) age := by
  obtain ⟨_, _, _, touches⟩ := mttEntryRemove_touches tracker ptr
  rw [touches tracker ⟨rfl, rfl, rfl, rfl⟩,
    touches (countAge tracker age) ⟨rfl, rfl, rfl, rfl⟩]
  rfl

theorem freeTracked_eq_forgetEntry_iff {tracker : Tracker} {ptr : Word}
    {entry : TrackedEntry} (now : Int)
    (found : Accounting.mttEntryFind tracker ptr = some entry) :
    freeTracked tracker ptr now = forgetEntry ptr tracker ↔
      1 < now - entry.snap.timestamp ∧
        ¬ (0 < tracker.leakThresholdSec ∧
          tracker.leakThresholdSec < now - entry.snap.timestamp) := by
  unfold freeTracked forgetEntry
  simp only [found]
  rw [mttEntryRemove_countAge, countAge_eq_self_iff,
    (mttEntryRemove_keepsCounters (countFree tracker entry)
      ptr).leakThresholdSec]
  exact Iff.rfl

theorem forgetEntry_ne_self {tracker : Tracker} {ptr : Word}
    {entry : TrackedEntry}
    (found : Accounting.mttEntryFind tracker ptr = some entry) :
    tracker ≠ forgetEntry ptr tracker := by
  intro same
  have count := congrArg Tracker.freeCount same
  simp only [forgetEntry, found] at count
  rw [(mttEntryRemove_keepsCounters (countFree tracker entry)
    ptr).freeCount] at count
  exact left_ne_add.mpr (by decide) count

theorem free_sameResult_iff (answers : Answers) (tracker : Tracker)
    (ptr : Word) :
    SameResult (Twin.free answers tracker ptr)
        (mttFree answers tracker ptr) ↔
      AgreesOnFree answers tracker ptr := by
  unfold Twin.free mttFree AgreesOnFree
  by_cases null : ptr = 0
  · simp [null, sameResult_self]
  rw [if_neg null, if_neg null]
  by_cases resolved : answers.rawFree = true
  · simp only [resolved, ne_eq, null, not_false_eq_true, true_implies,
      Bool.not_true, Bool.false_eq_true, if_false]
    cases found : Accounting.mttEntryFind tracker ptr with
    | none =>
        have unchanged : forgetEntry ptr tracker = tracker := by
          simp [forgetEntry, found]
        have alsoHook : freeTracked tracker ptr answers.now = tracker := by
          simp [freeTracked, found]
        split <;> simp [unchanged, alsoHook, sameResult_iff]
    | some entry =>
        cases inside : mttPoolContains tracker ptr with
        | true =>
            rw [if_pos rfl, sameResult_iff]
            · simp [forgetEntry_ne_self found]
            · rfl
        | false =>
            rw [if_neg Bool.false_ne_true, sameResult_iff]
            · rw [freeTracked_eq_forgetEntry_iff answers.now found]
              simp
            · rfl
  · simp [resolved, sameResult_self]

/-! ### `realloc` -/

theorem countMoved_eq_countFree_iff (tracker : Tracker)
    (entry : TrackedEntry) :
    countMoved tracker entry = countFree tracker entry ↔
      (entry.snap.size = 0 → tracker.currentBytes = 0) := by
  constructor
  · intro same empty
    have bytes := congrArg Tracker.currentBytes same
    simp only [countMoved, countFree, empty] at bytes
    have nonneg : 0 ≤ tracker.currentBytes := by bv_omega
    rw [if_pos nonneg, if_neg (by simp), sub_zero] at bytes
    exact bytes.symm
  · intro covered
    unfold countMoved countFree
    by_cases empty : entry.snap.size = 0
    · rw [covered empty, empty]
      rfl
    · have positive : 0 < entry.snap.size := by bv_omega
      simp only [positive, and_true]

theorem mttEntryNew_withBytes (answers : Answers) (tracker : Tracker)
    (snap : MttAllocSnap 64) (currentBytes : Word) :
    mttEntryNew answers { tracker with currentBytes } snap =
      (mttEntryNew answers tracker snap).map fun given =>
        (given.1, { given.2 with currentBytes }) := by
  unfold mttEntryNew
  cases tracker with
  | mk chains entryCount hashSeed pool =>
      cases pool with
      | none => cases answers.entryBlock <;> rfl
      | some pool => simp [Function.comp_def]

theorem recordEntry_currentBytes {tracker : Tracker} (api : Bool)
    (entry : TrackedEntry) (room : tracker.entryCount < mttMaxEntries) :
    (recordEntry tracker api entry).currentBytes =
      tracker.currentBytes + entry.snap.size := by
  unfold recordEntry
  rw [if_neg (Nat.not_le.mpr room)]
  rfl

theorem recordMoved_currentBytes (answers : Answers) (tracker : Tracker)
    (new size : Word) :
    ∃ added : Word, ∀ api currentBytes,
      (recordMoved answers { tracker with currentBytes } api new
        size).currentBytes = currentBytes + added := by
  by_cases full : mttMaxEntries ≤ tracker.entryCount
  · refine ⟨0, ?_⟩
    intro api currentBytes
    simp [recordMoved, Accounting.mttIsOverCapacity, full]
  have room : tracker.entryCount < mttMaxEntries := Nat.lt_of_not_le full
  have unfolded : ∀ api currentBytes,
      recordMoved answers { tracker with currentBytes } api new size =
        newEntry answers { tracker with currentBytes } api new size := by
    intro api currentBytes
    simp [recordMoved, Accounting.mttIsOverCapacity, full]
  cases given : mttEntryNew answers tracker (answers.snap new size) with
  | none =>
      refine ⟨0, ?_⟩
      intro api currentBytes
      rw [unfolded]
      simp [newEntry, mttEntryNew_withBytes, given]
  | some pair =>
      obtain ⟨entry, taken⟩ := pair
      obtain ⟨_, pool, rfl⟩ := mttEntryNew_eq_some given
      refine ⟨entry.snap.size, ?_⟩
      intro api currentBytes
      rw [unfolded]
      simp only [newEntry, mttEntryNew_withBytes, given, Option.map_some]
      exact recordEntry_currentBytes api entry room

theorem recordMoved_eq_iff (answers : Answers) (tracker : Tracker)
    (new size : Word) :
    recordMoved answers tracker false new size =
        recordMoved answers tracker true new size ↔
      (tracker.entryCount < mttMaxEntries →
        answers.Reaches tracker new → RaisesPeak tracker size) := by
  by_cases full : mttMaxEntries ≤ tracker.entryCount
  · simp [recordMoved, Accounting.mttIsOverCapacity, full, Nat.not_lt.mpr full]
  · simpa [recordMoved, Accounting.mttIsOverCapacity, full] using
      newEntry_eq_iff answers tracker new size

/-- Without the old entry the two trackers differ in `current_bytes` only. -/
theorem mttEntryRemove_countMoved {tracker : Tracker} {ptr : Word}
    {entry : TrackedEntry}
    (found : Accounting.mttEntryFind tracker ptr = some entry) :
    Accounting.mttEntryRemove (countMoved tracker entry) ptr =
      { forgetEntry ptr tracker with
        currentBytes := (countMoved tracker entry).currentBytes } := by
  obtain ⟨_, _, _, touches⟩ := mttEntryRemove_touches tracker ptr
  simp only [forgetEntry, found]
  rw [touches (countMoved tracker entry) ⟨rfl, rfl, rfl, rfl⟩,
    touches (countFree tracker entry) ⟨rfl, rfl, rfl, rfl⟩]
  rfl

theorem moveBlock_sameResult_iff (answers : Answers) (tracker : Tracker)
    (ptr size : Word) :
    SameResult (moveBlock answers tracker false ptr size)
        (moveBlock answers tracker true ptr size) ↔
      (∀ new, answers.block = some new → ∀ entry,
        Accounting.mttEntryFind tracker ptr = some entry →
          (entry.snap.size = 0 → tracker.currentBytes = 0) ∧
            ((forgetEntry ptr tracker).entryCount < mttMaxEntries →
              answers.Reaches (forgetEntry ptr tracker) new →
              RaisesPeak (forgetEntry ptr tracker) size)) := by
  unfold moveBlock
  cases answers.block with
  | none => simp [sameResult_self]
  | some new =>
      cases found : Accounting.mttEntryFind tracker ptr with
      | none => simp [sameResult_self]
      | some entry =>
          rw [sameResult_iff]
          swap
          · rfl
          have recorded := recordMoved_eq_iff answers (forgetEntry ptr tracker)
            new size
          have removed : Accounting.mttEntryRemove (countFree tracker entry)
              ptr = forgetEntry ptr tracker := by
            simp only [forgetEntry, found]
          simp only [countReplaced, if_true, Bool.false_eq_true, if_false,
            removed, Option.some.injEq, forall_eq', ← recorded,
            ← countMoved_eq_countFree_iff]
          constructor
          · intro same
            have counted : countMoved tracker entry =
                countFree tracker entry := by
              have bytes := congrArg Tracker.currentBytes same
              obtain ⟨added, adds⟩ :=
                recordMoved_currentBytes answers (forgetEntry ptr tracker) new
                  size
              have forgotten := adds true (forgetEntry ptr tracker).currentBytes
              rw [mttEntryRemove_countMoved found, adds] at bytes
              rw [← bytes] at forgotten
              have kept := (mttEntryRemove_keepsCounters
                (countFree tracker entry) ptr).currentBytes
              rw [removed] at kept
              rw [kept, add_left_inj] at forgotten
              exact congrArg (fun currentBytes =>
                { countFree tracker entry with currentBytes }) forgotten
            refine ⟨counted, ?_⟩
            rw [counted, removed] at same
            exact same
          · rintro ⟨counted, same⟩
            rw [counted, removed]
            exact same

theorem forgetEntry_withPool (tracker : Tracker) (ptr size : Word)
    (pool : Option EntryPool) :
    ((forgetEntry ptr { tracker with pool }).entryCount <
        mttMaxEntries →
      RaisesPeak (forgetEntry ptr { tracker with pool }) size) ↔
    ((forgetEntry ptr tracker).entryCount < mttMaxEntries →
      RaisesPeak (forgetEntry ptr tracker) size) := by
  have sameFind : Accounting.mttEntryFind { tracker with pool } ptr =
      Accounting.mttEntryFind tracker ptr := rfl
  unfold forgetEntry RaisesPeak
  rw [sameFind]
  cases found : Accounting.mttEntryFind tracker ptr with
  | none => exact Iff.rfl
  | some entry =>
      have pooled := mttEntryRemove_keepsCounters
        (countFree { tracker with pool } entry) ptr
      have kept := mttEntryRemove_keepsCounters (countFree tracker entry) ptr
      dsimp only
      rw [pooled.currentBytes, pooled.peakBytes, pooled.peakUpdated,
        kept.currentBytes, kept.peakBytes, kept.peakUpdated,
        mttEntryRemove_entryCount, mttEntryRemove_entryCount]
      exact Iff.rfl

theorem copyBlock_sameResult_iff (answers : Answers) (tracker : Tracker)
    (ptr size : Word) :
    SameResult (copyBlock answers tracker false ptr size)
        (copyBlock answers tracker true ptr size) ↔
      (∀ new, answers.block = some new → answers.Reaches tracker new →
        (forgetEntry ptr tracker).entryCount < mttMaxEntries →
        RaisesPeak (forgetEntry ptr tracker) size) := by
  unfold copyBlock
  cases answers.block with
  | none => simp [sameResult_self]
  | some new =>
      cases given : mttEntryNew answers tracker (answers.snap new size) with
      | none =>
          have without : ¬ answers.Reaches tracker new :=
            (mttEntryNew_eq_none_iff answers tracker new size).mp given
          simp only [given]
          simp [without, sameResult_self]
      | some pair =>
          obtain ⟨entry, taken⟩ := pair
          have has : answers.Reaches tracker new := by
            by_contra without
            rw [(mttEntryNew_eq_none_iff answers tracker new size).mpr
              without] at given
            cases given
          obtain ⟨snap, pool, rfl⟩ := mttEntryNew_eq_some given
          have sameSize : entry.snap.size = size := by
            rw [snap]
            rfl
          simp only [given]
          rw [sameResult_iff]
          swap
          · rfl
          simp only [recordEntry_eq_iff, sameSize, forgetEntry_withPool, has,
            Option.some.injEq, forall_eq', true_implies]

theorem realloc_sameResult_iff (answers : Answers) (tracker : Tracker)
    (ptr size : Word) :
    SameResult (Twin.realloc answers tracker ptr size)
        (mttRealloc answers tracker ptr size) ↔
      (TwinCall.realloc ptr size).Agrees answers tracker := by
  simp only [Twin.realloc, mttRealloc, TwinCall.Agrees]
  by_cases null : ptr = 0
  · rw [if_pos null, if_pos null, if_pos null]
    exact malloc_sameResult_iff answers tracker size
  rw [if_neg null, if_neg null, if_neg null]
  by_cases empty : size = 0
  · rw [if_pos empty, if_pos empty, if_pos empty]
    exact free_sameResult_iff answers tracker ptr
  rw [if_neg empty, if_neg empty, if_neg empty]
  unfold reallocate AgreesOnRealloc
  by_cases resolved : answers.rawMalloc = true
  · cases native : answers.rawRealloc with
    | true =>
        simpa [resolved, native] using
          moveBlock_sameResult_iff answers tracker ptr size
    | false =>
        simpa [resolved, native] using
          copyBlock_sameResult_iff answers tracker ptr size
  · simp [resolved, sameResult_self]

theorem run_sameResult_iff (answers : Answers) (tracker : Tracker)
    (call : TwinCall) :
    SameResult (call.run false answers tracker)
        (call.run true answers tracker) ↔
      call.Agrees answers tracker := by
  cases call with
  | malloc size => exact malloc_sameResult_iff answers tracker size
  | free ptr => exact free_sameResult_iff answers tracker ptr
  | realloc ptr size => exact realloc_sameResult_iff answers tracker ptr size

/-! ## Runs of mixed calls -/

/-- What a run returns and leaves, call by call; `choice` says which calls go
to the API function, each being numbered by the calls after it. -/
def results (choice : Nat → Bool) :
    Tracker → List (Answers × TwinCall) → List (Option Word × Tracker)
  | _, [] => []
  | tracker, (answers, call) :: rest =>
      let outcome := call.run (choice rest.length) answers tracker
      (outcome.value, outcome.tracker) :: results choice outcome.tracker rest

/-- The two APIs agree on each call of the run through the hooks. -/
def AgreesAlong : Tracker → List (Answers × TwinCall) → Prop
  | _, [] => True
  | tracker, (answers, call) :: rest =>
      call.Agrees answers tracker ∧
        AgreesAlong (call.run false answers tracker).tracker rest

theorem results_congr {left right : Nat → Bool}
    {calls : List (Answers × TwinCall)} {tracker : Tracker}
    (same : ∀ index < calls.length, left index = right index) :
    results left tracker calls = results right tracker calls := by
  induction calls generalizing tracker with
  | nil => rfl
  | cons pair rest ih =>
      obtain ⟨answers, call⟩ := pair
      simp only [results]
      rw [same rest.length (by simp), ih]
      intro index below
      exact same index (by simp; omega)

/-- The two APIs give one result per call, and so does any mix of them in a
run, just when they agree on each call. -/
theorem mixedApis_agree_iff (tracker : Tracker) :
    (∀ answers (call : TwinCall),
      SameResult (call.run false answers tracker)
          (call.run true answers tracker) ↔
        call.Agrees answers tracker) ∧
      ∀ calls, (∀ choice, results choice tracker calls =
          results (fun _ => false) tracker calls) ↔
        AgreesAlong tracker calls := by
  constructor
  · intro answers call
    exact run_sameResult_iff answers tracker call
  intro calls
  induction calls generalizing tracker with
  | nil => simp [results, AgreesAlong]
  | cons pair rest ih =>
      obtain ⟨answers, call⟩ := pair
      constructor
      · intro same
        have heads := same fun _ => true
        simp only [results, List.cons.injEq, Prod.mk.injEq] at heads
        refine ⟨?_, (ih _).mp ?_⟩
        · rw [← run_sameResult_iff]
          exact ⟨heads.1.1.symm, heads.1.2.symm⟩
        · intro choice
          have tails := same (Function.update choice rest.length false)
          simp only [results, Function.update_self, List.cons.injEq,
            true_and] at tails
          rw [← tails]
          apply results_congr
          intro index below
          rw [Function.update_of_ne (Nat.ne_of_lt below)]
      · rintro ⟨agrees, along⟩ choice
        have sameHead := (run_sameResult_iff answers tracker call).mpr agrees
        have tails := (ih _).mpr along choice
        simp only [results]
        cases choice rest.length with
        | false => rw [tails]
        | true => rw [← sameHead.value, ← sameHead.tracker, tails]

/-- A block of 16 bytes from an allocator that is fully resolved. -/
def plainAnswers : Answers :=
  { withoutEntry with rawRealloc := true, entryBlock := true }

/-- Below the peak only `mtt_malloc` sets `peak_updated`. -/
theorem malloc_differs_belowPeak :
    ¬ ∀ answers tracker (call : TwinCall),
      SameResult (call.run false answers tracker)
        (call.run true answers tracker) := by
  intro agree
  have same := agree plainAnswers
    { quietTracker none [] with peakBytes := 100 } (.malloc 16)
  have flags := congrArg Tracker.peakUpdated same.tracker
  revert flags
  decide

end MemoryTraceTool.Twin
