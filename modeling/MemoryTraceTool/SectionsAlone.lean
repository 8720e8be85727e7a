import MemoryTraceTool.Accounting
import MemoryTraceTool.Counters

/-!
# Sections that run alone

The counters under the stripe locks are modelled operation by operation, and
the accounting of a request in one piece.  A section that no other thread
interrupts leaves behind what the accounting says.
-/

namespace MemoryTraceTool.SectionsAlone

open Accounting ForkChild

/-! ## What both models say of a block -/

def recordOf (entry : MttEntry) : Word × Nat :=
  (entry.ptr, entry.size)

def trackedRecordOf (entry : TrackedEntry) : Word × Nat :=
  (entry.snap.ptr, entry.snap.size.toNat)

/-- Records are keyed by the address of the block, like the entries. -/
def recordShape (seed : Word) : ChainedTable.Shape Word (Word × Nat) where
  hash := fun ptr => mttBucketOf ptr mttBuckets seed
  key := Prod.fst

theorem recordOf_views (seed : Word) :
    (EntryTable.shape seed).Views (recordShape seed) recordOf :=
  ⟨rfl, fun _ => rfl⟩

theorem trackedRecordOf_views (seed : Word) :
    (entryShape seed).Views (recordShape seed) trackedRecordOf :=
  ⟨rfl, fun _ => rfl⟩

/-- The sections and the accounting hold the same blocks and counters. -/
structure SameAccounts (tracker : Tracker) (counters : Counters)
    (buckets : Buckets) : Prop where
  records : ChainedTable.viewed recordOf buckets =
    ChainedTable.viewed trackedRecordOf tracker.chains
  allocSeq : counters.allocSeq = tracker.allocSeq
  allocCount : counters.allocCount = tracker.allocCount
  freeCount : counters.freeCount = tracker.freeCount
  entryCount : counters.entryCount = BitVec.ofNat 64 tracker.entryCount
  currentBytes : counters.currentBytes = tracker.currentBytes
  totalBytes : counters.totalBytes = tracker.totalBytes
  peakBytes : counters.peakBytes = tracker.peakBytes
  skippedOvercap : counters.skippedOvercap = tracker.skippedOvercap
  peakUpdated : counters.peakUpdated = tracker.peakUpdated

/-- Operations of one section in a row. -/
def SectionSteps (seed : Word) : Counters × Buckets × SectionPc →
    Counters × Buckets × SectionPc → Prop :=
  Relation.ReflTransGen fun before after =>
    sectionStep seed false before.1 before.2.1 before.2.2 = some after

variable {tracker : Tracker} {counters : Counters} {buckets : Buckets}

/-- A slot that goes back to the pool changes no account. -/
theorem SameAccounts.discard (same : SameAccounts tracker counters buckets)
    (entry : TrackedEntry) :
    SameAccounts (mttEntryDiscard tracker entry) counters buckets := by
  unfold mttEntryDiscard
  split
  · exact ⟨same.records, same.allocSeq, same.allocCount, same.freeCount,
      same.entryCount, same.currentBytes, same.totalBytes, same.peakBytes,
      same.skippedOvercap, same.peakUpdated⟩
  · exact same

theorem SameAccounts.find (same : SameAccounts tracker counters buckets)
    {ptr : Word} (nonNull : ptr ≠ 0) :
    (entryOf tracker.hashSeed buckets ptr).map recordOf =
      (Accounting.mttEntryFind tracker ptr).map trackedRecordOf := by
  rw [Accounting.mttEntryFind, if_neg nonNull, entryOf,
    ← ChainedTable.find_viewed (recordOf_views tracker.hashSeed),
    ← ChainedTable.find_viewed (trackedRecordOf_views tracker.hashSeed),
    same.records]

theorem SameAccounts.insert (same : SameAccounts tracker counters buckets)
    (entry : MttEntry) (tracked : TrackedEntry)
    (alike : recordOf entry = trackedRecordOf tracked) :
    ChainedTable.viewed recordOf
        (ChainedTable.insert (EntryTable.shape tracker.hashSeed) buckets
          entry) =
      ChainedTable.viewed trackedRecordOf
        (ChainedTable.insert (entryShape tracker.hashSeed) tracker.chains
          tracked) := by
  rw [← ChainedTable.insert_viewed (recordOf_views tracker.hashSeed),
    ← ChainedTable.insert_viewed (trackedRecordOf_views tracker.hashSeed),
    same.records, alike]

theorem SameAccounts.erase (same : SameAccounts tracker counters buckets)
    (ptr : Word) :
    ChainedTable.viewed recordOf
        (ChainedTable.erase (EntryTable.shape tracker.hashSeed) buckets ptr) =
      ChainedTable.viewed trackedRecordOf
        (ChainedTable.erase (entryShape tracker.hashSeed) tracker.chains
          ptr) := by
  rw [← ChainedTable.erase_viewed (recordOf_views tracker.hashSeed),
    ← ChainedTable.erase_viewed (trackedRecordOf_views tracker.hashSeed),
    same.records]

/-! ## Recording a block -/

/-- Alone, the loop on the peak ends after one comparison. -/
theorem peak_alone (seed : Word) (counters : Counters) (buckets : Buckets)
    (entry : MttEntry) (notice : PeakNotice) (current : Word) :
    SectionSteps seed
      (counters, buckets,
        .casPeak entry notice current counters.peakBytes)
      ({ counters with
          peakBytes :=
            if counters.peakBytes < current then current
            else counters.peakBytes },
        buckets,
        .markPeak entry notice (decide (counters.peakBytes < current))) := by
  apply Relation.ReflTransGen.single
  by_cases risen : counters.peakBytes < current
  · simp [sectionStep, risen]
  · simp [sectionStep, risen]

theorem insert_alone (same : SameAccounts tracker counters buckets)
    (counted : tracker.entryCount < 2 ^ 64) (entry : TrackedEntry)
    (notice : PeakNotice) :
    ∃ laterCounters laterBuckets,
      SectionSteps tracker.hashSeed
        (counters, buckets, .check entry.snap.ptr entry.snap.size.toNat notice)
        (laterCounters, laterBuckets, .release entry.snap.ptr) ∧
      SameAccounts (recordEntry tracker (notice == .always) entry)
        laterCounters laterBuckets := by
  have count : counters.entryCount.toNat = tracker.entryCount := by
    rw [same.entryCount, BitVec.toNat_ofNat, Nat.mod_eq_of_lt counted]
  by_cases full : mttMaxEntries ≤ tracker.entryCount
  · refine ⟨{ counters with skippedOvercap := counters.skippedOvercap + 1 },
      buckets, .single ?_, ?_⟩
    · simp [sectionStep, count, full]
    · rw [recordEntry, if_pos full]
      apply SameAccounts.discard
      exact ⟨same.records, same.allocSeq, same.allocCount, same.freeCount,
        same.entryCount, same.currentBytes, same.totalBytes, same.peakBytes,
        congrArg (· + 1) same.skippedOvercap, same.peakUpdated⟩
  · have room : sectionStep tracker.hashSeed false counters buckets
        (.check entry.snap.ptr entry.snap.size.toNat notice) =
          some (counters, buckets,
            .takeSeq entry.snap.ptr entry.snap.size.toNat notice) := by
      simp [sectionStep, count, full]
    let numbered : MttEntry :=
      ⟨entry.snap.ptr, entry.snap.size.toNat, (counters.allocSeq + 1).toNat⟩
    let added : Counters :=
      { counters with
        allocSeq := counters.allocSeq + 1
        allocCount := counters.allocCount + 1
        currentBytes := counters.currentBytes +
          BitVec.ofNat 64 entry.snap.size.toNat
        totalBytes := counters.totalBytes +
          BitVec.ofNat 64 entry.snap.size.toNat }
    have counts : SectionSteps tracker.hashSeed
        (counters, buckets, .check entry.snap.ptr entry.snap.size.toNat notice)
        (added, buckets,
          .casPeak numbered notice added.currentBytes added.peakBytes) :=
      .head room <| .head rfl <| .head rfl <| .head rfl <| .head rfl <|
        .head rfl <| .single rfl
    have raises := peak_alone tracker.hashSeed added buckets numbered notice
      added.currentBytes
    refine ⟨_, _, counts.trans (raises.trans
      (.head rfl <| .head rfl <| .single rfl)), ?_⟩
    have size : BitVec.ofNat 64 entry.snap.size.toNat = entry.snap.size :=
      BitVec.ofNat_toNat ..
    have current : added.currentBytes =
        tracker.currentBytes + entry.snap.size := by
      simp only [added, size, same.currentBytes]
    have total : added.totalBytes = tracker.totalBytes + entry.snap.size := by
      simp only [added, size, same.totalBytes]
    have peak : added.peakBytes = tracker.peakBytes := same.peakBytes
    have updated : added.peakUpdated = tracker.peakUpdated := same.peakUpdated
    rw [recordEntry, if_neg full]
    constructor
    · exact same.insert numbered entry rfl
    · exact congrArg (· + 1) same.allocSeq
    · exact congrArg (· + 1) same.allocCount
    · exact same.freeCount
    · change counters.entryCount + 1 = BitVec.ofNat 64 (tracker.entryCount + 1)
      rw [same.entryCount, BitVec.ofNat_add]
      rfl
    · exact current
    · exact total
    · simp only [Accounting.mttEntryAdd, decide_eq_true_eq, peak, current]
    · exact same.skippedOvercap
    · simp only [Accounting.mttEntryAdd, peak, current, updated,
        Bool.or_right_comm]

/-! ## Forgetting a block -/

/-- Alone, the section of `free` takes off what it has loaded. -/
theorem subtract_alone (seed : Word) (counters : Counters) (buckets : Buckets)
    (entry : MttEntry) :
    SectionSteps seed (counters, buckets, .loadBytes entry .compare)
      ({ counters with
          currentBytes :=
            if entry.size ≤ counters.currentBytes.toNat then
              counters.currentBytes - BitVec.ofNat 64 entry.size
            else 0
          freeCount := counters.freeCount + 1 },
        buckets, .unlink entry) := by
  by_cases covered : entry.size ≤ counters.currentBytes.toNat
  · have subtracts : sectionStep seed false counters buckets
        (.subBytes entry .compare counters.currentBytes) =
          some ({ counters with
            currentBytes := counters.currentBytes -
              BitVec.ofNat 64 entry.size }, buckets, .countFree entry) := by
      simp [sectionStep, UnderflowGuard.resets, covered]
    rw [if_pos covered]
    exact .head rfl <| .head subtracts <| .single rfl
  · have resets : sectionStep seed false counters buckets
        (.subBytes entry .compare counters.currentBytes) =
          some ({ counters with currentBytes := 0 }, buckets,
            .countFree entry) := by
      simp [sectionStep, UnderflowGuard.resets, covered]
    rw [if_neg covered]
    exact .head rfl <| .head resets <| .single rfl

theorem remove_alone (same : SameAccounts tracker counters buckets)
    {ptr : Word} (nonNull : ptr ≠ 0)
    (counted : Accounting.mttEntryFind tracker ptr ≠ none →
      0 < tracker.entryCount) (now : Int) :
    ∃ laterCounters laterBuckets,
      SectionSteps tracker.hashSeed
        (counters, buckets, .search ptr .compare)
        (laterCounters, laterBuckets, .release ptr) ∧
      SameAccounts (freeTracked tracker ptr now) laterCounters
        laterBuckets := by
  have alike := same.find nonNull
  cases found : Accounting.mttEntryFind tracker ptr with
  | none =>
      rw [found, Option.map_none, Option.map_eq_none_iff] at alike
      refine ⟨counters, buckets, .single ?_, ?_⟩
      · simp [sectionStep, alike]
      · rw [freeTracked, found]
        exact same
  | some entry =>
      rw [found, Option.map_some, Option.map_eq_some_iff] at alike
      obtain ⟨here, isHere, alike⟩ := alike
      have ptrHere : here.ptr = ptr := ChainedTable.key_of_find isHere
      have sizeHere : here.size = entry.snap.size.toNat :=
        congrArg Prod.snd alike
      have positive : 0 < tracker.entryCount :=
        counted (by rw [found]; exact Option.some_ne_none entry)
      have finds : sectionStep tracker.hashSeed false counters buckets
          (.search ptr .compare) =
            some (counters, buckets, .loadBytes here .compare) := by
        simp [sectionStep, isHere]
      let freed : Counters :=
        { counters with
          currentBytes :=
            if here.size ≤ counters.currentBytes.toNat then
              counters.currentBytes - BitVec.ofNat 64 here.size
            else 0
          freeCount := counters.freeCount + 1 }
      have unlinks : sectionStep tracker.hashSeed false freed buckets
          (.unlink here) =
            some (freed, ChainedTable.erase
              (EntryTable.shape tracker.hashSeed) buckets ptr,
              .uncountEntry ptr) := by
        simp [sectionStep, ptrHere, isHere]
      refine ⟨{ freed with entryCount := freed.entryCount - 1 }, _,
        .head finds <|
          (subtract_alone tracker.hashSeed counters buckets here).trans <|
            .head unlinks <| .single rfl, ?_⟩
      have stillFound : Accounting.mttEntryFind
          (countAge (countFree tracker entry) (now - entry.snap.timestamp))
          ptr = some entry := found
      have size : BitVec.ofNat 64 here.size = entry.snap.size := by
        rw [sizeHere]
        exact BitVec.ofNat_toNat ..
      have current : freed.currentBytes =
          if entry.snap.size ≤ tracker.currentBytes then
            tracker.currentBytes - entry.snap.size
          else 0 := by
        simp only [freed, size, same.currentBytes, BitVec.le_def, ← sizeHere]
      rw [freeTracked, found]
      dsimp only
      rw [Accounting.mttEntryRemove, stillFound]
      apply SameAccounts.discard
      constructor
      · exact same.erase ptr
      · exact same.allocSeq
      · exact same.allocCount
      · exact congrArg (· + 1) same.freeCount
      · change counters.entryCount - 1 =
          BitVec.ofNat 64 (tracker.entryCount - 1)
        rw [same.entryCount]
        exact BitVec.ofNat_sub_ofNat_of_le _ 1 (by decide) positive
      · exact current
      · exact same.totalBytes
      · exact same.peakBytes
      · exact same.skippedOvercap
      · exact same.peakUpdated

end MemoryTraceTool.SectionsAlone
