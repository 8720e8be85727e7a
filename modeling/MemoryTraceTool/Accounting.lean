import MemoryTraceTool.ForkChild
import MemoryTraceTool.Sampling

/-!
# Accounting for requests

From the sampling check on a call of the `malloc` hook is recorded, sampled
out, or dropped because there is no room for its record.  Each way out has its
own counter.
-/

namespace MemoryTraceTool.Accounting

open Transition ForkChild

/-- The entry pool; the free lists hold indices of its slots. -/
structure EntryPool where
  base : Word
  capacity : Nat
  freeLists : Nat → List Nat
  used : Word

/-- The state in which blocks are recorded.  Without a pool every entry comes
from `raw_malloc`. -/
structure Tracker where
  chains : Nat → List TrackedEntry
  entryCount : Nat
  hashSeed : Word
  pool : Option EntryPool
  sampler : Sampler
  allocSeq : Word
  allocCount : Word
  freeCount : Word
  currentBytes : Word
  peakBytes : Word
  totalBytes : Word
  skippedOvercap : Word
  peakUpdated : Bool
  tempAllocCount : Word
  freeExpiredCount : Word
  leakThresholdSec : Int

def entryShape (seed : Word) : ChainedTable.Shape Word TrackedEntry where
  hash := fun ptr => mttBucketOf ptr mttBuckets seed
  key := fun entry => entry.snap.ptr

/-- `mtt_is_over_capacity`, which counts what it turns away. -/
def mttIsOverCapacity (tracker : Tracker) : Bool × Tracker :=
  if mttMaxEntries ≤ tracker.entryCount then
    (true, { tracker with skippedOvercap := tracker.skippedOvercap + 1 })
  else (false, tracker)

/-- Take an entry from the pool, or from `raw_malloc` without a pool. -/
def mttEntryNew (tracker : Tracker) (rawMalloc : Bool)
    (snap : MttAllocSnap 64) : Option (TrackedEntry × Tracker) :=
  match tracker.pool with
  | some pool =>
      (takeFreeSlot pool.freeLists
        (mttStripeOf snap.ptr mttBuckets tracker.hashSeed)).map
          fun (slot, freeLists) =>
            ({ slot, snap },
              { tracker with
                pool := some { pool with freeLists, used := pool.used + 1 } })
  | none => if rawMalloc then some ({ slot := none, snap }, tracker) else none

/-- A slot goes back to the list of the stripe of its own address. -/
def mttEntryDiscard (tracker : Tracker) (entry : TrackedEntry) : Tracker :=
  match tracker.pool, entry.slot with
  | some pool, some slot =>
      let address := pool.base + BitVec.ofNat 64 (slot * mttEntrySize)
      let index := mttStripeOf address mttBuckets tracker.hashSeed
      { tracker with
        pool := some
          { pool with
            freeLists := Function.update pool.freeLists index
              (slot :: pool.freeLists index)
            used := pool.used - 1 } }
  | _, _ => tracker

def mttEntryAdd (tracker : Tracker) (entry : TrackedEntry) : Tracker :=
  { tracker with
    chains := ChainedTable.insert (entryShape tracker.hashSeed) tracker.chains
      entry
    entryCount := tracker.entryCount + 1 }

/-- `mtt_entry_find`; no entry has the address NULL. -/
def mttEntryFind (tracker : Tracker) (ptr : Word) : Option TrackedEntry :=
  if ptr = 0 then none
  else ChainedTable.find (entryShape tracker.hashSeed) tracker.chains ptr

/-- `mtt_entry_remove` with the search for the entry in it. -/
def mttEntryRemove (tracker : Tracker) (ptr : Word) : Tracker :=
  match mttEntryFind tracker ptr with
  | none => tracker
  | some entry =>
      mttEntryDiscard
        { tracker with
          chains := ChainedTable.erase (entryShape tracker.hashSeed)
            tracker.chains ptr
          entryCount := tracker.entryCount - 1 }
        entry

/-- The section under the stripe lock in which an allocating function records
its entry; `mtt_malloc` and `mtt_realloc` set `peak_updated` in any case. -/
def recordEntry (tracker : Tracker) (setsPeakUpdated : Bool)
    (entry : TrackedEntry) : Tracker :=
  if mttMaxEntries ≤ tracker.entryCount then
    mttEntryDiscard
      { tracker with skippedOvercap := tracker.skippedOvercap + 1 } entry
  else
    let currentBytes := tracker.currentBytes + entry.snap.size
    let risen := decide (tracker.peakBytes < currentBytes)
    mttEntryAdd
      { tracker with
        allocSeq := tracker.allocSeq + 1
        allocCount := tracker.allocCount + 1
        currentBytes
        totalBytes := tracker.totalBytes + entry.snap.size
        peakBytes := if risen then currentBytes else tracker.peakBytes
        peakUpdated := tracker.peakUpdated || setsPeakUpdated || risen }
      entry

/-- Take the bytes of a freed block off `current_bytes`, and count it. -/
def countFree (tracker : Tracker) (entry : TrackedEntry) : Tracker :=
  { tracker with
    currentBytes :=
      if entry.snap.size ≤ tracker.currentBytes then
        tracker.currentBytes - entry.snap.size
      else 0
    freeCount := tracker.freeCount + 1 }

/-- The age counters, which only the `free` hook keeps. -/
def countAge (tracker : Tracker) (age : Int) : Tracker :=
  { tracker with
    tempAllocCount :=
      if age ≤ 1 then tracker.tempAllocCount + 1 else tracker.tempAllocCount
    freeExpiredCount :=
      if 0 < tracker.leakThresholdSec ∧ tracker.leakThresholdSec < age then
        tracker.freeExpiredCount + 1
      else tracker.freeExpiredCount }

/-- The section of the `free` hook under the stripe lock. -/
def freeTracked (tracker : Tracker) (ptr : Word) (now : Int) : Tracker :=
  match mttEntryFind tracker ptr with
  | none => tracker
  | some entry =>
      mttEntryRemove
        (countAge (countFree tracker entry) (now - entry.snap.timestamp)) ptr

/-- What a call records, and whether `raw_malloc` has room for an entry. -/
structure MallocRequest where
  snap : MttAllocSnap 64
  rawMalloc : Bool
  deriving DecidableEq

/-- The sampling and capacity checks of the `malloc` hook; it makes both. -/
def checkRequest (tracker : Tracker) (size : Word) : Bool × Tracker :=
  let (trackOk, sampler) := mttShouldTrack tracker.sampler size.toNat
  let (overCap, checked) := mttIsOverCapacity { tracker with sampler }
  (trackOk && !overCap, checked)

/-- The `malloc` hook from the sampling check on. -/
def mallocTracked (tracker : Tracker) (request : MallocRequest) : Tracker :=
  let (passes, checked) := checkRequest tracker request.snap.size
  if passes then
    match mttEntryNew checked request.rawMalloc request.snap with
    | none => checked
    | some (entry, taken) => recordEntry taken false entry
  else checked

/-! ## Runs of calls -/

/-- The tracker, and the number of `malloc` calls so far. -/
structure AccountState where
  tracker : Tracker
  mallocCalls : Nat

inductive AccountLabel where
  | malloc (request : MallocRequest)
  | free (ptr : Word) (now : Int)

/-- Calls of the two hooks; the counters of the ways out start at zero, with
any table, pool and sampler. -/
def accountSystem : System AccountState AccountLabel where
  init := fun state =>
    state.mallocCalls = 0 ∧ state.tracker.allocCount = 0 ∧
      state.tracker.sampler.skippedSampled = 0 ∧
      state.tracker.skippedOvercap = 0
  next := fun state label =>
    match label with
    | .malloc request =>
        if request.snap.size = 0 then none
        else
          some
            { tracker := mallocTracked state.tracker request
              mallocCalls := state.mallocCalls + 1 }
    | .free ptr now =>
        some { state with tracker := freeTracked state.tracker ptr now }

/-- The calls that the three counters stand for. -/
def Tracker.counted (tracker : Tracker) : Word :=
  tracker.allocCount + tracker.sampler.skippedSampled + tracker.skippedOvercap

/-- Each call has been counted once. -/
def CountsCalls (state : AccountState) : Prop :=
  BitVec.ofNat 64 state.mallocCalls = state.tracker.counted

/-- `mtt_entry_new` has an entry to give: a slot in any free list, or an
answer of `raw_malloc`. -/
def Tracker.HasEntry (tracker : Tracker) (rawMalloc : Bool) : Prop :=
  match tracker.pool with
  | some pool => ∃ index < mttLockStripes, pool.freeLists index ≠ []
  | none => rawMalloc = true

/-- A request that is sampled out does not find the table full, and one that
is to be tracked finds the table full or an entry. -/
def OneWayOut (state : AccountState) : AccountLabel → Prop
  | .malloc request =>
      if (mttShouldTrack state.tracker.sampler request.snap.size.toNat).1 then
        mttMaxEntries ≤ state.tracker.entryCount ∨
          state.tracker.HasEntry request.rawMalloc
      else state.tracker.entryCount < mttMaxEntries
  | .free _ _ => True

/-! ## One call -/

theorem mttShouldTrack_skippedSampled (sampler : Sampler) (size : Nat) :
    (mttShouldTrack sampler size).2.skippedSampled =
      if (mttShouldTrack sampler size).1 then sampler.skippedSampled
      else sampler.skippedSampled + 1 := by
  unfold mttShouldTrack
  dsimp only
  split_ifs <;> simp_all

theorem counted_mttEntryDiscard (tracker : Tracker) (entry : TrackedEntry) :
    (mttEntryDiscard tracker entry).counted = tracker.counted := by
  unfold mttEntryDiscard
  split <;> rfl

theorem counted_mttEntryRemove (tracker : Tracker) (ptr : Word) :
    (mttEntryRemove tracker ptr).counted = tracker.counted := by
  unfold mttEntryRemove
  split
  · rfl
  · exact counted_mttEntryDiscard _ _

theorem counted_freeTracked (tracker : Tracker) (ptr : Word) (now : Int) :
    (freeTracked tracker ptr now).counted = tracker.counted := by
  unfold freeTracked
  split
  · rfl
  · exact counted_mttEntryRemove _ _

/-- The scan of the lists fails only when all of them are empty. -/
theorem takeFreeSlot_eq_none_iff {lists : Nat → List Nat} {stripe : Nat} :
    takeFreeSlot lists stripe = none ↔
      ∀ index < mttLockStripes, lists index = [] := by
  unfold takeFreeSlot
  rw [List.findSome?_eq_none_iff]
  constructor
  · intro failed index inside
    let offset := (index + mttLockStripes - stripe % mttLockStripes) %
      mttLockStripes
    have reached : (stripe + offset) % mttLockStripes = index := by
      simp only [offset, mttLockStripes] at inside ⊢
      omega
    have bound : offset ∈ List.range mttLockStripes :=
      List.mem_range.mpr (Nat.mod_lt _ (by decide))
    have turn := failed offset bound
    simp only [reached] at turn
    cases list : lists index with
    | nil => rfl
    | cons slot rest => simp [list] at turn
  · intro empty offset _
    have nil := empty _ (Nat.mod_lt (stripe + offset)
      (show 0 < mttLockStripes by decide))
    simp only [nil]

theorem mttEntryNew_eq_none_iff {tracker : Tracker} {rawMalloc : Bool}
    {snap : MttAllocSnap 64} :
    mttEntryNew tracker rawMalloc snap = none ↔
      ¬ tracker.HasEntry rawMalloc := by
  unfold mttEntryNew Tracker.HasEntry
  cases tracker.pool with
  | some pool =>
      rw [Option.map_eq_none_iff, takeFreeSlot_eq_none_iff]
      simp
  | none => simp

/-- What taking an entry leaves alone. -/
structure Takes (before after : Tracker) : Prop where
  counted : after.counted = before.counted
  entryCount : after.entryCount = before.entryCount

theorem mttEntryNew_takes {tracker later : Tracker} {rawMalloc : Bool}
    {snap : MttAllocSnap 64} {entry : TrackedEntry}
    (taken : mttEntryNew tracker rawMalloc snap = some (entry, later)) :
    Takes tracker later := by
  unfold mttEntryNew at taken
  split at taken
  · obtain ⟨⟨slot, lists⟩, _, made⟩ := Option.map_eq_some_iff.mp taken
    cases made
    exact ⟨rfl, rfl⟩
  · split at taken
    · cases taken
      exact ⟨rfl, rfl⟩
    · cases taken

theorem counted_recordEntry {tracker : Tracker} (setsPeakUpdated : Bool)
    (entry : TrackedEntry) (room : tracker.entryCount < mttMaxEntries) :
    (recordEntry tracker setsPeakUpdated entry).counted =
      tracker.counted + 1 := by
  unfold recordEntry
  rw [if_neg (Nat.not_le.mpr room)]
  simp only [mttEntryAdd, Tracker.counted]
  abel

theorem counted_checkRequest (tracker : Tracker) (size : Word) :
    (checkRequest tracker size).2.counted =
      tracker.counted +
        (if (mttShouldTrack tracker.sampler size.toNat).1 then 0 else 1) +
        if mttMaxEntries ≤ tracker.entryCount then 1 else 0 := by
  have skipped := mttShouldTrack_skippedSampled tracker.sampler size.toNat
  simp only [checkRequest, mttIsOverCapacity]
  split_ifs at skipped ⊢ <;>
    simp only [Tracker.counted, skipped, add_zero] <;> abel

theorem checkRequest_passes (tracker : Tracker) (size : Word) :
    (checkRequest tracker size).1 =
      ((mttShouldTrack tracker.sampler size.toNat).1 &&
        !decide (mttMaxEntries ≤ tracker.entryCount)) := by
  simp only [checkRequest, mttIsOverCapacity]
  split <;> simp [*]

theorem checkRequest_keeps (tracker : Tracker) (size : Word) :
    (checkRequest tracker size).2.entryCount = tracker.entryCount ∧
      (checkRequest tracker size).2.pool = tracker.pool := by
  simp only [checkRequest, mttIsOverCapacity]
  split <;> exact ⟨rfl, rfl⟩

theorem counted_mallocTracked_passes {tracker : Tracker}
    {request : MallocRequest}
    (tracked : (mttShouldTrack tracker.sampler request.snap.size.toNat).1)
    (room : tracker.entryCount < mttMaxEntries) :
    (mallocTracked tracker request).counted = tracker.counted + 1 ↔
      tracker.HasEntry request.rawMalloc := by
  have passes := checkRequest_passes tracker request.snap.size
  have counted := counted_checkRequest tracker request.snap.size
  obtain ⟨entryCount, pool⟩ := checkRequest_keeps tracker request.snap.size
  have hasEntry : (checkRequest tracker request.snap.size).2.HasEntry
      request.rawMalloc ↔ tracker.HasEntry request.rawMalloc := by
    unfold Tracker.HasEntry
    rw [pool]
  rw [tracked, decide_eq_false (Nat.not_le.mpr room)] at passes
  rw [if_pos tracked, if_neg (Nat.not_le.mpr room), add_zero, add_zero]
    at counted
  have unfolded : mallocTracked tracker request =
      match mttEntryNew (checkRequest tracker request.snap.size).2
        request.rawMalloc request.snap with
      | none => (checkRequest tracker request.snap.size).2
      | some (entry, taken) => recordEntry taken false entry := by
    simp [mallocTracked, passes]
  rw [unfolded, ← hasEntry]
  cases taken : mttEntryNew (checkRequest tracker request.snap.size).2
      request.rawMalloc request.snap with
  | none =>
      have missing := mttEntryNew_eq_none_iff.mp taken
      simp only [counted]
      constructor
      · intro same
        exact ((left_ne_add.mpr (by decide)) same).elim
      · intro has
        exact (missing has).elim
  | some given =>
      obtain ⟨entry, later⟩ := given
      have takes := mttEntryNew_takes taken
      have some : (checkRequest tracker request.snap.size).2.HasEntry
          request.rawMalloc := by
        by_contra missing
        rw [mttEntryNew_eq_none_iff.mpr missing] at taken
        cases taken
      have roomLater : later.entryCount < mttMaxEntries := by
        rw [takes.entryCount, entryCount]
        exact room
      simp only [counted_recordEntry false entry roomLater, takes.counted,
        counted, true_iff]
      exact some

theorem counted_mallocTracked_fails {tracker : Tracker}
    {request : MallocRequest}
    (fails : (checkRequest tracker request.snap.size).1 = false) :
    (mallocTracked tracker request).counted =
      (checkRequest tracker request.snap.size).2.counted := by
  simp [mallocTracked, fails]

theorem counted_mallocTracked_iff (state : AccountState)
    (request : MallocRequest) :
    (mallocTracked state.tracker request).counted =
        state.tracker.counted + 1 ↔
      OneWayOut state (.malloc request) := by
  have passes := checkRequest_passes state.tracker request.snap.size
  have counted := counted_checkRequest state.tracker request.snap.size
  simp only [OneWayOut]
  by_cases tracked :
      (mttShouldTrack state.tracker.sampler request.snap.size.toNat).1
  · by_cases full : mttMaxEntries ≤ state.tracker.entryCount
    · rw [tracked, decide_eq_true full] at passes
      rw [counted_mallocTracked_fails passes, counted, if_pos tracked,
        if_pos tracked, if_pos full, add_zero]
      simp [full]
    · rw [counted_mallocTracked_passes tracked (Nat.not_le.mp full),
        if_pos tracked]
      simp [full]
  · rw [Bool.eq_false_of_not_eq_true tracked] at passes
    rw [counted_mallocTracked_fails passes, counted, if_neg tracked,
      if_neg tracked]
    by_cases full : mttMaxEntries ≤ state.tracker.entryCount
    · rw [if_pos full]
      constructor
      · intro same
        exact ((left_ne_add.mpr (by decide)) same.symm).elim
      · intro room
        exact (Nat.not_le.mpr room full).elim
    · rw [if_neg full, add_zero]
      simp [Nat.not_le.mp full]

theorem accountNext_counts_iff {state later : AccountState}
    {label : AccountLabel} (counts : CountsCalls state)
    (taken : accountSystem.next state label = some later) :
    CountsCalls later ↔ OneWayOut state label := by
  cases label with
  | free ptr now =>
      cases taken
      simp only [CountsCalls, counted_freeTracked, OneWayOut, iff_true]
      exact counts
  | malloc request =>
      simp only [accountSystem] at taken
      split at taken
      · cases taken
      · cases taken
        rw [← counted_mallocTracked_iff, ← (show _ = _ from counts)]
        simp only [CountsCalls, BitVec.ofNat_add]
        exact eq_comm

/-- In a run of the two hooks each `malloc` call is counted once exactly as
long as every call has one way out. -/
theorem countsCalls_iff_oneWayOut {state : AccountState}
    (init : accountSystem.init state) (labels : List AccountLabel) :
    (∀ passed ∈ accountSystem.visited state labels, CountsCalls passed) ↔
      accountSystem.Meets OneWayOut state labels := by
  have counts : CountsCalls state := by
    obtain ⟨calls, allocCount, skippedSampled, skippedOvercap⟩ := init
    simp [CountsCalls, Tracker.counted, calls, allocCount, skippedSampled,
      skippedOvercap]
  have decided : ∀ state label target, True → CountsCalls state →
      accountSystem.next state label = some target →
      (CountsCalls target ↔ OneWayOut state label) := by
    intro state label target _ counts taken
    exact accountNext_counts_iff counts taken
  have preserved : ∀ state label target, True → CountsCalls state →
      OneWayOut state label → accountSystem.next state label = some target →
      True := fun _ _ _ _ _ _ _ => trivial
  exact System.forall_visited_iff_meets preserved decided trivial counts labels

/-- A tracker without sampling, with counters at zero. -/
def quietTracker (pool : Option EntryPool) (entries : List TrackedEntry) :
    Tracker :=
  { chains := fun bucket =>
      entries.filter fun entry => mttBucketOf entry.snap.ptr mttBuckets 0 = bucket
    entryCount := entries.length
    hashSeed := 0
    pool
    sampler :=
      { sampleRate := 0
        samplePeriod := 0
        sampleCounter := 0
        sampleBytesAccum := 0
        skippedSampled := 0 }
    allocSeq := 0
    allocCount := 0
    freeCount := 0
    currentBytes := 0
    peakBytes := 0
    totalBytes := 0
    skippedOvercap := 0
    peakUpdated := false
    tempAllocCount := 0
    freeExpiredCount := 0
    leakThresholdSec := 60 }

def smallRequest : MallocRequest :=
  { snap := { ptr := 4096, size := 16, timestamp := 100, stack := [] }
    rawMalloc := true }

theorem countsCalls_fallbackTracker :
    CountsCalls ⟨mallocTracked (quietTracker none []) smallRequest, 1⟩ := by
  have oneWay : accountSystem.Meets OneWayOut ⟨quietTracker none [], 0⟩
      [.malloc smallRequest, .free 4096 101] := ⟨.inr rfl, trivial, trivial⟩
  apply (countsCalls_iff_oneWayOut ⟨rfl, rfl, rfl, rfl⟩ _).mpr oneWay
  exact List.mem_cons_of_mem _ List.mem_cons_self

/-- The slots of the smallest pool, all in the table. -/
def poolEntries : List TrackedEntry :=
  (List.range 1024).map fun slot =>
    { slot := some slot
      snap :=
        { ptr := BitVec.ofNat 64 (16 * (slot + 1))
          size := 16
          timestamp := 100
          stack := [] } }

/-- A pool without a free slot. -/
def exhaustedState : AccountState :=
  { tracker := quietTracker
      (some
        { base := 0x10000000
          capacity := 1024
          freeLists := fun _ => []
          used := 1024 })
      poolEntries
    mallocCalls := 0 }

/-- A call that finds no free slot is not counted. -/
theorem countsCalls_fails_withoutSlot :
    ¬ ∀ state, accountSystem.init state → ∀ labels,
      ∀ passed ∈ accountSystem.visited state labels, CountsCalls passed := by
  intro claimed
  let later : AccountState :=
    { tracker := mallocTracked exhaustedState.tracker smallRequest
      mallocCalls := 1 }
  have taken : accountSystem.next exhaustedState (.malloc smallRequest) =
      some later := rfl
  have every := claimed exhaustedState ⟨rfl, rfl, rfl, rfl⟩
    [.malloc smallRequest]
  simp only [System.visited, taken, List.forall_mem_cons] at every
  have oneWay := (accountNext_counts_iff every.1 taken).mp every.2.1
  have tracked : (mttShouldTrack exhaustedState.tracker.sampler
      smallRequest.snap.size.toNat).1 = true := rfl
  simp only [OneWayOut, tracked, if_true] at oneWay
  rcases oneWay with full | hasEntry
  · simp [exhaustedState, quietTracker, poolEntries, mttMaxEntries] at full
  · obtain ⟨index, _, slots⟩ := hasEntry
    exact slots rfl

end MemoryTraceTool.Accounting
