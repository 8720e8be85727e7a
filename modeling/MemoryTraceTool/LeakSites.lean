import Mathlib.Algebra.Order.Group.Nat
import MemoryTraceTool.Lib.GroupShortage
import MemoryTraceTool.StackHash

/-!
# Leak sites

A scan groups its snapshot of the live blocks into leak sites, one per hash of
the call stack, in a chained table of at most 2048 sites; a block without a
stack is grouped by its size.  The sites are then collected bucket by bucket
and sorted.  Each allocation of these stages may fail.
-/

namespace MemoryTraceTool

def mttLeakDedupSize : Nat := 2048

/-- A live block as copied from the entry table; its number of frames is the
length of `stack`. -/
structure MttAllocSnap (w : Nat) where
  ptr : BitVec w
  size : BitVec w
  timestamp : Int
  stack : List (BitVec w)
  deriving DecidableEq

/-- `mtt_leak_site_t` without its link. -/
structure MttLeakSite (w : Nat) where
  stackHash : Word
  firstSeen : Int
  lastSeen : Int
  count : Nat
  perLeakSize : BitVec w
  totalSize : BitVec w
  diffSize : BitVec w
  isExpired : Bool
  deriving DecidableEq

/-- The time of a scan and the age from which a block counts as leaked. -/
structure ScanClock where
  now : Int
  leakThresholdSec : Int
  deriving DecidableEq

/-- The key of a block without a stack. -/
def sizeHash (size : BitVec w) : Word :=
  size.setWidth 64 * 0x9E3779B97F4A7C15#64

/-- The hash under which the scan groups a block; a stack goes through the
stack cache. -/
def snapHash (fails : Bool) (cache : MttStackCache w)
    (snap : MttAllocSnap w) : Word × MttStackCache w :=
  if snap.stack ≠ [] then
    match mttStackCacheLookup fails cache snap.stack with
    | (some entry, later) => (entry.hash, later)
    | (none, later) => (mttStackHashCompute snap.stack, later)
  else (sizeHash snap.size, cache)

/-- Older than the threshold, if there is one. -/
def ScanClock.expired (clock : ScanClock) (timestamp : Int) : Bool :=
  decide (0 < clock.leakThresholdSec ∧
    clock.leakThresholdSec < clock.now - timestamp)

/-- The site of a key that was not seen before. -/
def newLeakSite (clock : ScanClock) (hash : Word) (snap : MttAllocSnap w) :
    MttLeakSite w :=
  { stackHash := hash
    firstSeen := if 0 < snap.timestamp then snap.timestamp else clock.now
    lastSeen := snap.timestamp
    count := 1
    perLeakSize := snap.size
    totalSize := snap.size
    diffSize := 0
    isExpired := clock.expired snap.timestamp }

/-- One block more for a site. -/
def addToLeakSite (clock : ScanClock) (site : MttLeakSite w)
    (snap : MttAllocSnap w) : MttLeakSite w :=
  { site with
    firstSeen :=
      if site.firstSeen = 0 then
        if 0 < snap.timestamp then snap.timestamp else clock.now
      else site.firstSeen
    count := site.count + 1
    totalSize := site.totalSize + snap.size
    lastSeen :=
      if site.lastSeen < snap.timestamp then snap.timestamp
      else site.lastSeen
    isExpired :=
      if site.isExpired then true else clock.expired snap.timestamp }

/-- Sites are chained by the low bits of their hash. -/
def leakShape (w : Nat) : ChainedTable.Shape Word (MttLeakSite w) where
  hash := fun hash =>
    (hash &&& BitVec.ofNat 64 (mttLeakDedupSize - 1)).toNat
  key := MttLeakSite.stackHash

/-- The grouping of the blocks of a scan by the hash of their stacks. -/
def leakRule (clock : ScanClock) (hashOf : MttAllocSnap w → Word) :
    Grouping.Rule (MttAllocSnap w) Word (MttLeakSite w) where
  key := hashOf
  start := fun snap => newLeakSite clock (hashOf snap) snap
  extend := addToLeakSite clock

/-- Which calls of `raw_malloc` fail: the one for a stack cache entry at a
position of the snapshot, those for leak sites in their order, and the one for
the sorted array. -/
structure LeakFailures where
  stackEntry : Nat → Bool
  leakSite : Nat → Bool
  sorted : Bool

def LeakFailures.none : LeakFailures :=
  { stackEntry := fun _ => false
    leakSite := fun _ => false
    sorted := false }

/-- The stack cache and the sites while stage 2 runs. -/
structure LeakDedup (w : Nat) where
  cache : MttStackCache w
  sites : Grouping.Asking (MttLeakSite w)

/-- One turn of the loop of stage 2. -/
def dedupStep (clock : ScanClock) (failures : LeakFailures)
    (state : LeakDedup w) (item : MttAllocSnap w × Nat) : LeakDedup w :=
  let (hash, cache) := snapHash (failures.stackEntry item.2) state.cache item.1
  { cache
    sites := Grouping.tryUpsert (leakRule clock fun _ => hash) (leakShape w)
      mttLeakDedupSize failures.leakSite state.sites item.1 }

/-- The blocks of the snapshot one after the other. -/
def dedup (clock : ScanClock) (failures : LeakFailures)
    (cache : MttStackCache w) (snaps : List (MttAllocSnap w)) :
    LeakDedup w :=
  snaps.zipIdx.foldl (dedupStep clock failures)
    { cache, sites := { table := .empty, asked := 0 } }

/-- `cmp_leak_by_count`: by count, then by total size, in descending order. -/
def cmpLeakByCount (first second : MttLeakSite w) : Int :=
  if first.count < second.count then 1
  else if second.count < first.count then -1
  else if first.totalSize < second.totalSize then 1
  else if second.totalSize < first.totalSize then -1
  else 0

/-- What stages 2 to 4 leave behind; without an array nothing is sorted. -/
structure LeakTable (w : Nat) where
  cache : MttStackCache w
  sites : List (MttLeakSite w)
  sorted : List (MttLeakSite w)
  leakBytesTotal : BitVec w

/-- Stages 2 to 4 of `scan_and_report_locked`. -/
def scanLeakTableWith (failures : LeakFailures) (clock : ScanClock)
    (cache : MttStackCache w) (snaps : List (MttAllocSnap w)) : LeakTable w :=
  let state := dedup clock failures cache snaps
  let table := state.sites.table
  let sites := ChainedTable.collect table.chains mttLeakDedupSize
  { cache := state.cache
    sites
    sorted :=
      if failures.sorted then []
      else (sites.take table.count).mergeSort fun first second =>
        cmpLeakByCount first second ≤ 0
    leakBytesTotal := (sites.map MttLeakSite.totalSize).sum }

/-- These stages when all allocations succeed. -/
def scanLeakTable (clock : ScanClock) (cache : MttStackCache w)
    (snaps : List (MttAllocSnap w)) : LeakTable w :=
  scanLeakTableWith .none clock cache snaps

/-! ## The keys -/

/-- The key of a block, however the cache is filled. -/
def snapKey (snap : MttAllocSnap w) : Word :=
  if snap.stack = [] then sizeHash snap.size
  else mttStackHashCompute snap.stack

theorem snapHash_fst (fails : Bool) (cache : MttStackCache w)
    (snap : MttAllocSnap w) : (snapHash fails cache snap).1 = snapKey snap := by
  unfold snapHash snapKey
  by_cases frameless : snap.stack = []
  · rw [if_neg (not_not.mpr frameless), if_pos frameless]
  · rw [if_pos frameless, if_neg frameless]
    split
    · rename_i entry later found
      have looked :
          (mttStackCacheLookup fails cache snap.stack).1 = some entry := by
        rw [found]
      exact mttStackCacheLookup_hash looked
    · rfl

/-- Different sizes have different keys: the multiplier is odd. -/
theorem sizeHash_injective (narrow : w ≤ 64) :
    Function.Injective (sizeHash (w := w)) := by
  intro first second same
  have inverse : (0x9E3779B97F4A7C15#64 : Word) * 0xF1DE83E19937733D#64 = 1 :=
    by decide
  have wide : first.setWidth 64 = second.setWidth 64 := by
    have scaled := congrArg (· * 0xF1DE83E19937733D#64) same
    simp only [sizeHash, mul_assoc, inverse, mul_one] at scaled
    exact scaled
  apply BitVec.eq_of_toNat_eq
  have values := congrArg BitVec.toNat wide
  rwa [BitVec.toNat_setWidth_of_le narrow, BitVec.toNat_setWidth_of_le narrow]
    at values

theorem leakShape_hash_lt (hash : Word) :
    (leakShape w).hash hash < mttLeakDedupSize := by
  simp only [leakShape, BitVec.toNat_and]
  exact Nat.lt_of_le_of_lt Nat.and_le_right (by decide)

theorem leakRule_fits (clock : ScanClock) (hashOf : MttAllocSnap w → Word) :
    Grouping.Fits (leakRule clock hashOf) (leakShape w) :=
  ⟨fun _ => rfl, fun _ _ => rfl⟩

/-- The table that stage 2 builds does not depend on the cache. -/
theorem dedup_sites (clock : ScanClock) (failures : LeakFailures)
    (cache : MttStackCache w) (snaps : List (MttAllocSnap w)) :
    (dedup clock failures cache snaps).sites =
      Grouping.tryBuild (leakRule clock snapKey) (leakShape w)
        mttLeakDedupSize failures.leakSite snaps := by
  unfold dedup Grouping.tryBuild
  generalize ({ table := .empty, asked := 0 } :
    Grouping.Asking (MttLeakSite w)) = sites
  generalize 0 = position
  induction snaps generalizing cache sites position with
  | nil => rfl
  | cons snap snaps induction =>
      rw [List.zipIdx_cons, List.foldl_cons, List.foldl_cons]
      have step : dedupStep clock failures { cache, sites }
            (snap, position) =
          { cache := (snapHash (failures.stackEntry position) cache snap).2
            sites := Grouping.tryUpsert (leakRule clock snapKey)
              (leakShape w) mttLeakDedupSize failures.leakSite sites
              snap } := by
        simp only [dedupStep, Grouping.tryUpsert, leakRule, snapHash_fst]
      rw [step]
      exact induction _ _ _

/-- The blocks of the snapshot that are not left out for want of a site. -/
def keptSnaps (failures : LeakFailures) (snaps : List (MttAllocSnap w)) :
    List (MttAllocSnap w) :=
  (Grouping.keep (leakRule ⟨0, 0⟩ snapKey) mttLeakDedupSize
    failures.leakSite snaps).items

theorem dedup_table (clock : ScanClock) (failures : LeakFailures)
    (cache : MttStackCache w) (snaps : List (MttAllocSnap w)) :
    (dedup clock failures cache snaps).sites.table =
      Grouping.build (leakRule clock snapKey) (leakShape w) mttLeakDedupSize
        (keptSnaps failures snaps) := by
  rw [dedup_sites, Grouping.tryBuild_eq (leakRule_fits clock snapKey)]
  rfl

theorem keptSnaps_none (snaps : List (MttAllocSnap w)) :
    keptSnaps .none snaps = snaps :=
  (Grouping.keep_eq_self_iff snaps).mpr fun _ _ => rfl

/-- A scan whose allocations fail does with the snapshot what one whose
allocations succeed does with the blocks that are kept. -/
theorem dedup_table_kept (clock : ScanClock) (failures : LeakFailures)
    (cache other : MttStackCache w) (snaps : List (MttAllocSnap w)) :
    (dedup clock failures cache snaps).sites.table =
      (dedup clock .none other (keptSnaps failures snaps)).sites.table := by
  rw [dedup_table, dedup_table, keptSnaps_none]

/-! ## The sites -/

/-- The blocks of a snapshot with one key. -/
def blocksOf (snaps : List (MttAllocSnap w)) (key : Word) :
    List (MttAllocSnap w) :=
  snaps.filter fun snap => snapKey snap = key

/-- The bytes of these blocks, as a `size_t`. -/
def liveBytes (snaps : List (MttAllocSnap w)) (key : Word) : BitVec w :=
  ((blocksOf snaps key).map MttAllocSnap.size).sum

/-- The keys that get a site: the first 2048 different ones. -/
def admittedKeys (snaps : List (MttAllocSnap w)) : List Word :=
  snaps.foldl (fun keys snap =>
    Grouping.admitKey mttLeakDedupSize keys (snapKey snap)) []

theorem admittedKeys_eq (clock : ScanClock) (snaps : List (MttAllocSnap w)) :
    admittedKeys snaps =
      Grouping.admitted (leakRule clock snapKey) mttLeakDedupSize snaps :=
  rfl

/-- The site that the blocks of one key build up. -/
def siteOf (clock : ScanClock) (blocks : List (MttAllocSnap w)) :
    Option (MttLeakSite w) :=
  Grouping.summary (leakRule clock snapKey) blocks

theorem represents_dedup (clock : ScanClock) (cache : MttStackCache w)
    (snaps : List (MttAllocSnap w)) :
    Grouping.Represents (leakRule clock snapKey) (leakShape w)
      mttLeakDedupSize snaps (dedup clock .none cache snaps).sites.table := by
  rw [dedup_table, keptSnaps_none]
  exact Grouping.represents_build (leakRule_fits clock snapKey) snaps

theorem scanLeakTable_sites (clock : ScanClock) (cache : MttStackCache w)
    (snaps : List (MttAllocSnap w)) :
    (scanLeakTable clock cache snaps).sites =
      ChainedTable.collect (dedup clock .none cache snaps).sites.table.chains
        mttLeakDedupSize := by
  simp only [scanLeakTable, scanLeakTableWith]

theorem scanLeakTableWith_leakBytesTotal (failures : LeakFailures)
    (clock : ScanClock) (cache : MttStackCache w)
    (snaps : List (MttAllocSnap w)) :
    (scanLeakTableWith failures clock cache snaps).leakBytesTotal =
      ((scanLeakTableWith failures clock cache snaps).sites.map
        MttLeakSite.totalSize).sum := by
  simp only [scanLeakTableWith]

theorem mem_sites_iff {clock : ScanClock} {cache : MttStackCache w}
    {snaps : List (MttAllocSnap w)} {site : MttLeakSite w} :
    site ∈ (scanLeakTable clock cache snaps).sites ↔
      site.stackHash ∈ admittedKeys snaps ∧
        siteOf clock (blocksOf snaps site.stackHash) = some site := by
  rw [scanLeakTable_sites, admittedKeys_eq clock]
  exact (represents_dedup clock cache snaps).mem_collect_iff leakShape_hash_lt

theorem perm_siteKeys (clock : ScanClock) (cache : MttStackCache w)
    (snaps : List (MttAllocSnap w)) :
    ((scanLeakTable clock cache snaps).sites.map MttLeakSite.stackHash).Perm
      (admittedKeys snaps) := by
  rw [scanLeakTable_sites, admittedKeys_eq clock]
  exact (represents_dedup clock cache snaps).perm_keys leakShape_hash_lt

theorem mem_admittedKeys_iff {snaps : List (MttAllocSnap w)}
    (few : (snaps.map snapKey).dedup.length ≤ mttLeakDedupSize) {key : Word} :
    key ∈ admittedKeys snaps ↔ key ∈ snaps.map snapKey := by
  rw [admittedKeys_eq ⟨0, 0⟩]
  exact Grouping.mem_admitted_iff few

/-- All keys get a site exactly if there are at most 2048 of them. -/
theorem admitted_all_iff {snaps : List (MttAllocSnap w)} :
    (∀ snap ∈ snaps, snapKey snap ∈ admittedKeys snaps) ↔
      (snaps.map snapKey).dedup.length ≤ mttLeakDedupSize := by
  constructor
  · intro all
    have within : (snaps.map snapKey).dedup ⊆ admittedKeys snaps := by
      intro key member
      obtain ⟨snap, inSnaps, rfl⟩ :=
        List.mem_map.mp (List.mem_dedup.mp member)
      exact all snap inSnaps
    have fewer := ((List.nodup_dedup _).subperm within).length_le
    rw [admittedKeys_eq ⟨0, 0⟩] at fewer
    exact fewer.trans (Grouping.length_admitted_le snaps)
  · intro few snap member
    exact (mem_admittedKeys_iff few).mpr (List.mem_map_of_mem member)

theorem count_adds (clock : ScanClock) :
    Grouping.Adds (leakRule clock (snapKey (w := w))) MttLeakSite.count
      fun _ => 1 :=
  ⟨fun _ => rfl, fun _ _ => rfl⟩

theorem totalSize_adds (clock : ScanClock) :
    Grouping.Adds (leakRule clock (snapKey (w := w))) MttLeakSite.totalSize
      MttAllocSnap.size :=
  ⟨fun _ => rfl, fun _ _ => rfl⟩

theorem siteOf_count {clock : ScanClock} {blocks : List (MttAllocSnap w)}
    {site : MttLeakSite w} (found : siteOf clock blocks = some site) :
    site.count = blocks.length := by
  have sum := (count_adds clock).summary found
  simpa using sum

theorem siteOf_totalSize {clock : ScanClock}
    {blocks : List (MttAllocSnap w)} {site : MttLeakSite w}
    (found : siteOf clock blocks = some site) :
    site.totalSize = (blocks.map MttAllocSnap.size).sum :=
  (totalSize_adds clock).summary found

/-- Collecting stops at the number of sites and so leaves none out. -/
theorem take_sites (clock : ScanClock) (cache : MttStackCache w)
    (snaps : List (MttAllocSnap w)) :
    let table := (dedup clock .none cache snaps).sites.table
    (ChainedTable.collect table.chains mttLeakDedupSize).take table.count =
      ChainedTable.collect table.chains mttLeakDedupSize := by
  intro table
  have represents := represents_dedup clock cache snaps
  have keys := (represents.perm_keys leakShape_hash_lt).length_eq
  rw [List.length_map, ← represents.count] at keys
  exact List.take_of_length_le (Nat.le_of_eq keys)

theorem sorted_eq (clock : ScanClock) (cache : MttStackCache w)
    (snaps : List (MttAllocSnap w)) :
    (scanLeakTable clock cache snaps).sorted =
      (scanLeakTable clock cache snaps).sites.mergeSort fun first second =>
        cmpLeakByCount first second ≤ 0 := by
  simp only [scanLeakTable, scanLeakTableWith, take_sites]
  rfl

theorem sorted_perm (clock : ScanClock) (cache : MttStackCache w)
    (snaps : List (MttAllocSnap w)) :
    (scanLeakTable clock cache snaps).sorted.Perm
      (scanLeakTable clock cache snaps).sites := by
  rw [sorted_eq]
  exact List.mergeSort_perm _ _

/-- More blocks come first, and among equally many, more bytes. -/
def LeakOrder (first second : MttLeakSite w) : Prop :=
  second.count < first.count ∨
    second.count = first.count ∧ second.totalSize ≤ first.totalSize

theorem cmpLeakByCount_le_iff {first second : MttLeakSite w} :
    cmpLeakByCount first second ≤ 0 ↔ LeakOrder first second := by
  simp only [cmpLeakByCount, LeakOrder, BitVec.le_def, BitVec.lt_def]
  split
  · constructor
    · intro impossible
      cases impossible
    · omega
  · split
    · constructor
      · exact fun _ => .inl (by assumption)
      · exact fun _ => by decide
    · split
      · constructor
        · intro impossible
          cases impossible
        · omega
      · constructor
        · intro _
          right
          omega
        · intro _
          split <;> decide

theorem sorted_pairwise (clock : ScanClock) (cache : MttStackCache w)
    (snaps : List (MttAllocSnap w)) :
    (scanLeakTable clock cache snaps).sorted.Pairwise LeakOrder := by
  rw [sorted_eq]
  have ordered : ((scanLeakTable clock cache snaps).sites.mergeSort
      fun first second => cmpLeakByCount first second ≤ 0).Pairwise
      fun first second => decide (cmpLeakByCount first second ≤ 0) := by
    apply List.pairwise_mergeSort
    · intro first second third below above
      simp only [decide_eq_true_eq, cmpLeakByCount_le_iff, LeakOrder,
        BitVec.le_def] at below above ⊢
      omega
    · intro first second
      simp only [Bool.or_eq_true, decide_eq_true_eq, cmpLeakByCount_le_iff,
        LeakOrder, BitVec.le_def]
      omega
  apply ordered.imp
  intro first second below
  exact cmpLeakByCount_le_iff.mp (of_decide_eq_true below)

theorem sum_admitted {Amount : Type} [AddCommMonoid Amount]
    (clock : ScanClock) (cache : MttStackCache w)
    (snaps : List (MttAllocSnap w)) (amount : MttAllocSnap w → Amount) :
    ((scanLeakTable clock cache snaps).sites.map fun site =>
      ((blocksOf snaps site.stackHash).map amount).sum).sum =
        ((snaps.filter fun snap => snapKey snap ∈ admittedKeys snaps).map
          amount).sum := by
  have distinct : (admittedKeys snaps).Nodup := by
    rw [admittedKeys_eq clock]
    exact Grouping.nodup_admitted snaps
  have perKey : ((admittedKeys snaps).map fun key =>
      ((Grouping.ofKey (leakRule clock snapKey) key snaps).map amount).sum).sum =
        ((snaps.filter fun snap => snapKey snap ∈ admittedKeys snaps).map
          amount).sum :=
    Grouping.sum_map_ofKey distinct amount snaps
  have sites := (perm_siteKeys clock cache snaps).map fun key =>
    ((blocksOf snaps key).map amount).sum
  rw [List.map_map] at sites
  exact sites.sum_eq.trans perKey

/-- When all keys get a site, the sums over the blocks of each site add up to
the sum over the snapshot. -/
theorem sum_blocksOf {Amount : Type} [AddCommMonoid Amount]
    {snaps : List (MttAllocSnap w)}
    (few : (snaps.map snapKey).dedup.length ≤ mttLeakDedupSize)
    (clock : ScanClock) (cache : MttStackCache w)
    (amount : MttAllocSnap w → Amount) :
    ((scanLeakTable clock cache snaps).sites.map fun site =>
      ((blocksOf snaps site.stackHash).map amount).sum).sum =
        (snaps.map amount).sum := by
  have all : (snaps.filter fun snap => snapKey snap ∈ admittedKeys snaps) =
      snaps := by
    apply List.filter_eq_self.mpr
    intro snap member
    exact decide_eq_true ((mem_admittedKeys_iff few).mpr
      (List.mem_map_of_mem member))
  rw [sum_admitted, all]

/-- The sites account for every block of the snapshot exactly once. -/
structure LeakTable.Describes (table : LeakTable w)
    (snaps : List (MttAllocSnap w)) : Prop where
  keys : (table.sites.map MttLeakSite.stackHash).Perm
    (snaps.map snapKey).dedup
  count : ∀ site ∈ table.sites,
    site.count = (blocksOf snaps site.stackHash).length
  totalSize : ∀ site ∈ table.sites,
    site.totalSize = liveBytes snaps site.stackHash
  counts : (table.sites.map MttLeakSite.count).sum = snaps.length
  leakBytes : table.leakBytesTotal = (snaps.map MttAllocSnap.size).sum
  permutation : table.sorted.Perm table.sites
  ordered : table.sorted.Pairwise LeakOrder

/-- As long as there are at most 2048 keys, no block is lost or counted twice,
and blocks of different sizes without a stack never share a site. -/
theorem scanLeakTable_describes (narrow : w ≤ 64) (clock : ScanClock)
    (cache : MttStackCache w) (snaps : List (MttAllocSnap w))
    (few : (snaps.map snapKey).dedup.length ≤ mttLeakDedupSize) :
    (scanLeakTable clock cache snaps).Describes snaps ∧
      ∀ first second : MttAllocSnap w, first.stack = [] →
        second.stack = [] → first.size ≠ second.size →
        snapKey first ≠ snapKey second := by
  have count : ∀ site ∈ (scanLeakTable clock cache snaps).sites,
      site.count = (blocksOf snaps site.stackHash).length :=
    fun site member => siteOf_count (mem_sites_iff.mp member).2
  have totalSize : ∀ site ∈ (scanLeakTable clock cache snaps).sites,
      site.totalSize = liveBytes snaps site.stackHash :=
    fun site member => siteOf_totalSize (mem_sites_iff.mp member).2
  constructor
  · constructor
    · refine (perm_siteKeys clock cache snaps).trans ?_
      rw [admittedKeys_eq clock, List.perm_ext_iff_of_nodup
        (Grouping.nodup_admitted snaps) (List.nodup_dedup _)]
      intro key
      rw [List.mem_dedup]
      exact mem_admittedKeys_iff few
    · exact count
    · exact totalSize
    · rw [List.map_congr_left count]
      have sum := sum_blocksOf few clock cache fun _ => 1
      simpa using sum
    · rw [scanLeakTable, scanLeakTableWith_leakBytesTotal, ← scanLeakTable,
        List.map_congr_left totalSize]
      exact sum_blocksOf few clock cache MttAllocSnap.size
    · exact sorted_perm clock cache snaps
    · exact sorted_pairwise clock cache snaps
  · intro first second noFrames noneEither different same
    apply different
    apply sizeHash_injective narrow
    simpa [snapKey, noFrames, noneEither] using same

/-- A block without a stack. -/
def framelessSnap (size : Word) (timestamp : Int) : MttAllocSnap 64 :=
  { ptr := 0, size, timestamp, stack := [] }

theorem scanLeakTable_describes_threeBlocks :
    (scanLeakTable ⟨100, 60⟩ (.empty 64)
      [framelessSnap 16 10, framelessSnap 24 20,
        framelessSnap 16 30]).Describes
      [framelessSnap 16 10, framelessSnap 24 20, framelessSnap 16 30] :=
  (scanLeakTable_describes (by decide) ⟨100, 60⟩ (.empty 64) _
    (by decide)).1

end MemoryTraceTool
