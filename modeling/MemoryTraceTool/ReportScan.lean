import MemoryTraceTool.LeakGrowth
import MemoryTraceTool.Lib.Heap

/-!
# The memory of a scan

One call of `scan_and_report_locked`, with each of its allocations: which of
them fail is part of the input, as is the outcome of each file operation.  A
pointer is a block of the heap, and following a null pointer or giving back a
block that is not in use ends the scan with a fault.
-/

namespace MemoryTraceTool

open Heap

/-! ## Blocks and allocations -/

/-- What a block was allocated for. -/
inductive ScanBlock where
  | tsBuffer
  | tsData
  | snapshot
  | stackEntry
  | leakSite
  | sorted
  | pairs
  | prevDiffHashes
  | prevDiffSizes
  | cachedSites
  | cachedSite
  | cachedPairs
  deriving DecidableEq, Repr

/-- The calls of `raw_malloc` in one scan.  The time series is cached in stage
0 and again in stage 7; the stack cache is searched in stages 2, 3 and 5. -/
inductive AllocPoint where
  | tsBuffer (stage : Nat)
  | tsData (stage : Nat)
  | snapshot (attempt : Nat)
  | stackEntry (stage index : Nat)
  | leakSite (index : Nat)
  | sorted
  | pairs
  | prevDiffHashes
  | prevDiffSizes
  | cachedSites
  | cachedSite (index : Nat)
  | cachedPairs
  deriving DecidableEq, Repr

def AllocPoint.kind : AllocPoint → ScanBlock
  | .tsBuffer _ => .tsBuffer
  | .tsData _ => .tsData
  | .snapshot _ => .snapshot
  | .stackEntry _ _ => .stackEntry
  | .leakSite _ => .leakSite
  | .sorted => .sorted
  | .pairs => .pairs
  | .prevDiffHashes => .prevDiffHashes
  | .prevDiffSizes => .prevDiffSizes
  | .cachedSites => .cachedSites
  | .cachedSite _ => .cachedSite
  | .cachedPairs => .cachedPairs

abbrev Pointer := Block ScanBlock

abbrev ScanHeap := Memory ScanBlock

/-! ## What a scan reads and keeps -/

/-- A leak site in memory. -/
structure LeakNode (w : Nat) where
  id : Nat
  site : MttLeakSite w

/-- A stack cache entry in memory. -/
structure StackNode (w : Nat) where
  id : Nat
  entry : MttStackEntry w

/-- The stack cache with its entries in memory. -/
structure StackNodes (w : Nat) where
  entries : Nat → List (StackNode w)
  count : Nat

def StackNodes.empty (w : Nat) : StackNodes w :=
  { entries := fun _ => []
    count := 0 }

structure SiteStackPair (w : Nat) where
  site : Option Pointer
  stackEntry : Option (StackNode w)

/-- The arrays of `g_reporter`, each with the number of its block. -/
structure ReporterMemory (w : Nat) where
  cachedSites : Option (Nat × List (Option (LeakNode w)))
  cachedSiteCount : Nat
  cachedPairs : Option (Nat × List (SiteStackPair w))
  cachedTsData : Option Nat
  prevDiffHashes : Option (Nat × List Word)
  prevDiffSizes : Option (Nat × List (BitVec w))
  prevDiffCount : Nat

def ReporterMemory.empty (w : Nat) : ReporterMemory w :=
  { cachedSites := none
    cachedSiteCount := 0
    cachedPairs := none
    cachedTsData := none
    prevDiffHashes := none
    prevDiffSizes := none
    prevDiffCount := 0 }

structure ScanMemory (w : Nat) where
  heap : ScanHeap
  cache : StackNodes w
  reporter : ReporterMemory w
  leakBytesTotal : BitVec w
  expiredAllocCount : Nat

def ScanMemory.initial (w : Nat) : ScanMemory w :=
  { heap := .empty
    cache := .empty w
    reporter := .empty w
    leakBytesTotal := 0
    expiredAllocCount := 0 }

/-- The clock, the entries in the order the snapshot visits them, the value of
`entry_count` read before, the allocations that fail, the points of the time
series at its two updates, and the outcomes of the file operations. -/
structure ScanInput (w : Nat) where
  clock : ScanClock
  entryTotal : Nat
  active : List (MttAllocSnap w)
  fails : AllocPoint → Bool
  tsReady : Bool
  tsCount : Nat → Nat
  reportOpens : Bool
  reportRenames : Bool
  reportFileSet : Bool
  jsonOpens : Bool

def ScanInput.request (input : ScanInput w) (point : AllocPoint)
    (heap : ScanHeap) : Option Nat × ScanHeap :=
  heap.malloc (input.fails point) point.kind

/-! ## Stages 0 and 1 -/

def tsDataBlocks (reporter : ReporterMemory w) : List Pointer :=
  reporter.cachedTsData.toList.map fun id => ⟨.tsData, id⟩

/-- The update of `cached_ts_data`, at both places. -/
def refreshTsCache (input : ScanInput w) (stage : Nat)
    (reporter : ReporterMemory w) (heap : ScanHeap) :
    Except Fault (ReporterMemory w × ScanHeap) :=
  if input.tsReady then
    match input.request (.tsBuffer stage) heap with
    | (none, heap) => .ok (reporter, heap)
    | (some buffer, heap) =>
        if 0 < input.tsCount stage then
          match input.request (.tsData stage) heap with
          | (none, heap) => do
              let heap ← heap.free ⟨.tsBuffer, buffer⟩
              return (reporter, heap)
          | (some data, heap) => do
              let heap ← heap.freeAll (tsDataBlocks reporter)
              let heap ← heap.free ⟨.tsBuffer, buffer⟩
              return ({ reporter with cachedTsData := some data }, heap)
        else do
          let heap ← heap.free ⟨.tsBuffer, buffer⟩
          return (reporter, heap)
  else .ok (reporter, heap)

/-- Ask for a snapshot array, for half as many entries after each failure; the
fuel bounds the attempts. -/
def allocSnapshot (input : ScanInput w) :
    Nat → Nat → Nat → ScanHeap → Option (Nat × Nat) × ScanHeap
  | 0, _, _, heap => (none, heap)
  | fuel + 1, attempt, tryEntries, heap =>
      match input.request (.snapshot attempt) heap with
      | (some id, heap) => (some (id, tryEntries), heap)
      | (none, heap) =>
          if 1024 ≤ tryEntries / 2 then
            allocSnapshot input fuel (attempt + 1) (tryEntries / 2) heap
          else (none, heap)

/-- Stage 1: the snapshot array, if there is one, and what is copied into it;
`none` when the scan is skipped. -/
def takeSnapshot (input : ScanInput w) (heap : ScanHeap) :
    Option (Option Nat × List (MttAllocSnap w)) × ScanHeap :=
  if 0 < input.entryTotal then
    match allocSnapshot input (input.entryTotal + 1) 0 input.entryTotal
      heap with
    | (none, heap) => (none, heap)
    | (some (id, tryEntries), heap) =>
        (some (some id, input.active.take tryEntries), heap)
  else (some (none, []), heap)

/-! ## Stages 2 to 5 -/

/-- `mtt_stack_cache_lookup` with its allocation. -/
def lookupStackNode (input : ScanInput w) (point : AllocPoint)
    (cache : StackNodes w) (heap : ScanHeap) (frames : List (BitVec w)) :
    Option (StackNode w) × StackNodes w × ScanHeap :=
  if frames = [] then (none, cache, heap)
  else
    let hash := mttStackHashCompute frames
    let bucket := (hash &&& BitVec.ofNat 64 (mttStackCacheSize - 1)).toNat
    let clean := frames.map mttFixThumbAddr
    match (cache.entries bucket).find? fun node =>
      node.entry.hash = hash ∧ node.entry.frames = clean with
    | some node => (some node, cache, heap)
    | none =>
        if mttStackCacheSize ≤ cache.count then (none, cache, heap)
        else
          match input.request point heap with
          | (none, heap) => (none, cache, heap)
          | (some id, heap) =>
              let node : StackNode w := { id, entry := { hash, frames := clean } }
              (some node,
                { entries := Function.update cache.entries bucket
                    (node :: cache.entries bucket)
                  count := cache.count + 1 },
                heap)

def leakNodeShape (w : Nat) : ChainedTable.Shape Word (LeakNode w) where
  hash := (leakShape w).hash
  key := fun node => node.site.stackHash

structure DedupState (w : Nat) where
  cache : StackNodes w
  table : Grouping.Table (LeakNode w)
  heap : ScanHeap

/-- The hash of a block, stage 2. -/
def nodeHash (input : ScanInput w) (index : Nat) (state : DedupState w)
    (snap : MttAllocSnap w) : Word × DedupState w :=
  if snap.stack ≠ [] then
    match lookupStackNode input (.stackEntry 2 index) state.cache state.heap
      snap.stack with
    | (some node, cache, heap) =>
        (node.entry.hash, { state with cache, heap })
    | (none, cache, heap) =>
        (mttStackHashCompute snap.stack, { state with cache, heap })
  else (sizeHash snap.size, state)

/-- Count a block to the site of its hash, or make it a new site. -/
def countLeak (input : ScanInput w) (index : Nat) (hash : Word)
    (state : DedupState w) (snap : MttAllocSnap w) : DedupState w :=
  match ChainedTable.find (leakNodeShape w) state.table.chains hash with
  | some _ =>
      { state with
        table :=
          { state.table with
            chains := ChainedTable.modify (leakNodeShape w)
              state.table.chains hash fun node =>
                { node with
                  site := addToLeakSite input.clock node.site snap } } }
  | none =>
      if state.table.count < mttLeakDedupSize then
        match input.request (.leakSite index) state.heap with
        | (none, heap) => { state with heap }
        | (some id, heap) =>
            { state with
              table :=
                { chains := ChainedTable.insert (leakNodeShape w)
                    state.table.chains
                    { id, site := newLeakSite input.clock hash snap }
                  count := state.table.count + 1 }
              heap }
      else state

/-- One turn of the loop of stage 2. -/
def dedupNode (input : ScanInput w) (state : DedupState w)
    (item : MttAllocSnap w × Nat) : DedupState w :=
  let (hash, state) := nodeHash input item.2 state item.1
  countLeak input item.2 hash state item.1

def leakNodes (table : Grouping.Table (LeakNode w)) : List (LeakNode w) :=
  ChainedTable.collect table.chains mttLeakDedupSize

/-- The first block of the snapshot whose stack has the hash. -/
def snapOfHash (snaps : List (MttAllocSnap w)) (hash : Word) :
    Option (MttAllocSnap w) :=
  snaps.find? fun snap =>
    snap.stack ≠ [] ∧ mttStackHashCompute snap.stack = hash

/-- The search of stages 3 and 5 for the stack entry of a site. -/
def lookupSiteStack (input : ScanInput w) (point : AllocPoint)
    (snaps : List (MttAllocSnap w)) (hash : Word) (cache : StackNodes w)
    (heap : ScanHeap) : Option (StackNode w) × StackNodes w × ScanHeap :=
  match snapOfHash snaps hash with
  | some snap => lookupStackNode input point cache heap snap.stack
  | none => (none, cache, heap)

/-- One turn of the loop of stage 3. -/
def resolveNode (input : ScanInput w) (snaps : List (MttAllocSnap w))
    (state : StackNodes w × ScanHeap) (item : LeakNode w × Nat) :
    StackNodes w × ScanHeap :=
  (lookupSiteStack input (.stackEntry 3 item.2) snaps
    item.1.site.stackHash state.1 state.2).2

/-- One turn of the loop of stage 5. -/
def pairNode (input : ScanInput w) (snaps : List (MttAllocSnap w))
    (state : List (SiteStackPair w) × StackNodes w × ScanHeap)
    (item : LeakNode w × Nat) :
    List (SiteStackPair w) × StackNodes w × ScanHeap :=
  let found := lookupSiteStack input (.stackEntry 5 item.2) snaps
    item.1.site.stackHash state.2.1 state.2.2
  (state.1 ++
      [{ site := some ⟨.leakSite, item.1.id⟩, stackEntry := found.1 }],
    found.2)

/-- The arrays of the last scan, read up to `prev_diff_count`. -/
def readPrevDiff (reporter : ReporterMemory w) :
    Except Fault (List (Word × BitVec w)) :=
  if reporter.prevDiffCount = 0 then .ok []
  else
    match reporter.prevDiffHashes, reporter.prevDiffSizes with
    | some (_, hashes), some (_, sizes) =>
        .ok ((hashes.zip sizes).take reporter.prevDiffCount)
    | _, _ => .error .nullDereference

/-- The local variables of the scan after stage 5. -/
structure Collected (w : Nat) where
  cache : StackNodes w
  heap : ScanHeap
  snapshot : Option Nat
  nodes : List (LeakNode w)
  sorted : Option (Nat × List (LeakNode w))
  siteCount : Nat
  pairs : Option (Nat × List (SiteStackPair w))

def Collected.leakBytesTotal (collected : Collected w) : BitVec w :=
  (collected.nodes.map fun node => node.site.totalSize).sum

/-- Stage 4.6. -/
def Collected.expiredAllocCount (collected : Collected w) : Nat :=
  match collected.sorted with
  | some (_, sorted) => sorted.countP fun node => node.site.isExpired
  | none => 0

/-- Stage 4: the sorted array, if there are sites and it can be allocated, and
the number of sites. -/
def sortNodes (input : ScanInput w) (table : Grouping.Table (LeakNode w))
    (heap : ScanHeap) : Option (Nat × List (LeakNode w)) × Nat × ScanHeap :=
  if 0 < table.count then
    match input.request .sorted heap with
    | (none, heap) => (none, table.count, heap)
    | (some id, heap) =>
        let sorted := ((leakNodes table).take table.count).mergeSort
          fun first second => cmpLeakByCount first.site second.site ≤ 0
        (some (id, sorted), sorted.length, heap)
  else (none, table.count, heap)

/-- Stage 4.5. -/
def diffNodes (reporter : ReporterMemory w) (siteCount : Nat)
    (sorted : Option (Nat × List (LeakNode w))) :
    Except Fault (Option (Nat × List (LeakNode w))) :=
  match sorted with
  | some (id, nodes) =>
      if 0 < siteCount then do
        let prevDiff ← readPrevDiff reporter
        return some (id, nodes.map fun node =>
          { node with site := setDiffSize prevDiff node.site })
      else .ok (some (id, nodes))
  | none => .ok none

/-- Stage 5. -/
def pairNodes (input : ScanInput w) (snaps : List (MttAllocSnap w))
    (siteCount : Nat) (sorted : Option (Nat × List (LeakNode w)))
    (cache : StackNodes w) (heap : ScanHeap) :
    Option (Nat × List (SiteStackPair w)) × StackNodes w × ScanHeap :=
  match sorted with
  | some (_, nodes) =>
      if 0 < siteCount then
        match input.request .pairs heap with
        | (none, heap) => (none, cache, heap)
        | (some id, heap) =>
            let paired := nodes.zipIdx.foldl (pairNode input snaps)
              ([], cache, heap)
            (some (id, paired.1), paired.2)
      else (none, cache, heap)
  | none => (none, cache, heap)

/-- Stages 2 to 5. -/
def collectSites (input : ScanInput w) (reporter : ReporterMemory w)
    (cache : StackNodes w) (heap : ScanHeap) (snapshot : Option Nat)
    (snaps : List (MttAllocSnap w)) : Except Fault (Collected w) := do
  let state := snaps.zipIdx.foldl (dedupNode input)
    { cache, table := .empty, heap }
  let nodes := leakNodes state.table
  let (cache, heap) := nodes.zipIdx.foldl (resolveNode input snaps)
    (state.cache, state.heap)
  let (sorted, siteCount, heap) := sortNodes input state.table heap
  let sorted ← diffNodes reporter siteCount sorted
  let (pairs, cache, heap) := pairNodes input snaps siteCount sorted cache heap
  return { cache, heap, snapshot, nodes, sorted, siteCount, pairs }

/-! ## Stages 6 and 7 -/

/-- The offline report of stage 6, the sites it lists. -/
def writeJsonReport (input : ScanInput w) (collected : Collected w) :
    Except Fault (List (LeakNode w)) :=
  if input.reportFileSet && input.jsonOpens then
    match collected.sorted with
    | some (_, nodes) => .ok (nodes.take collected.siteCount)
    | none =>
        if collected.siteCount = 0 then .ok []
        else .error .nullDereference
  else .ok []

def prevDiffBlocks (reporter : ReporterMemory w) : List Pointer :=
  (reporter.prevDiffHashes.toList.map fun array =>
      (⟨.prevDiffHashes, array.1⟩ : Pointer)) ++
    reporter.prevDiffSizes.toList.map fun array =>
      (⟨.prevDiffSizes, array.1⟩ : Pointer)

/-- Stage 6.5. -/
def savePrevDiff (input : ScanInput w) (collected : Collected w)
    (reporter : ReporterMemory w) (heap : ScanHeap) :
    Except Fault (ReporterMemory w × ScanHeap) := do
  let heap ← heap.freeAll (prevDiffBlocks reporter)
  let reporter :=
    { reporter with
      prevDiffHashes := none
      prevDiffSizes := none
      prevDiffCount := 0 }
  match collected.sorted with
  | some (_, nodes) =>
      if 0 < collected.siteCount then
        let (hashes, heap) := input.request .prevDiffHashes heap
        let (sizes, heap) := input.request .prevDiffSizes heap
        return ({ reporter with
            prevDiffHashes := hashes.map fun id =>
              (id, nodes.map fun node => node.site.stackHash)
            prevDiffSizes := sizes.map fun id =>
              (id, nodes.map fun node => node.site.totalSize)
            prevDiffCount :=
              if hashes.isSome && sizes.isSome then collected.siteCount
              else 0 },
          heap)
      else return (reporter, heap)
  | none => return (reporter, heap)

/-- The cached copies of the sites, those that could be allocated. -/
def cachedCopies (reporter : ReporterMemory w) : List (LeakNode w) :=
  match reporter.cachedSites with
  | some (_, copies) =>
      (copies.take reporter.cachedSiteCount).filterMap fun copy => copy
  | none => []

def cachedSiteBlocks (reporter : ReporterMemory w) : List Pointer :=
  ((cachedCopies reporter).map fun node =>
      (⟨.cachedSite, node.id⟩ : Pointer)) ++
    reporter.cachedSites.toList.map fun array =>
      (⟨.cachedSites, array.1⟩ : Pointer)

def cachedPairBlocks (reporter : ReporterMemory w) : List Pointer :=
  reporter.cachedPairs.toList.map fun array => ⟨.cachedPairs, array.1⟩

/-- One turn of the loop that copies the sites. -/
def copyNode (input : ScanInput w)
    (state : List (Option (LeakNode w)) × ScanHeap)
    (item : LeakNode w × Nat) :
    List (Option (LeakNode w)) × ScanHeap :=
  match input.request (.cachedSite item.2) state.2 with
  | (none, heap) => (state.1 ++ [none], heap)
  | (some id, heap) => (state.1 ++ [some { item.1 with id }], heap)

/-- The deep copy of the sorted sites; a failed allocation leaves the old
count in place. -/
def refreshCachedSites (input : ScanInput w) (collected : Collected w)
    (reporter : ReporterMemory w) (heap : ScanHeap) :
    ReporterMemory w × ScanHeap :=
  match collected.sorted with
  | some (_, nodes) =>
      if 0 < collected.siteCount then
        match input.request .cachedSites heap with
        | (none, heap) => (reporter, heap)
        | (some id, heap) =>
            let copied := nodes.zipIdx.foldl (copyNode input) ([], heap)
            ({ reporter with
                cachedSites := some (id, copied.1)
                cachedSiteCount := collected.siteCount },
              copied.2)
      else ({ reporter with cachedSiteCount := 0 }, heap)
  | none => ({ reporter with cachedSiteCount := 0 }, heap)

/-- The pointer to a cached copy. -/
def copyPointer (copy : Option (LeakNode w)) : Option Pointer :=
  copy.map fun node => ⟨.cachedSite, node.id⟩

/-- The copy of the pairs, pointed at the copied sites if there are any. -/
def refreshCachedPairs (input : ScanInput w) (collected : Collected w)
    (reporter : ReporterMemory w) (heap : ScanHeap) :
    ReporterMemory w × ScanHeap :=
  match collected.pairs with
  | some (_, pairs) =>
      if 0 < collected.siteCount then
        match input.request .cachedPairs heap with
        | (none, heap) => (reporter, heap)
        | (some id, heap) =>
            let copied :=
              match reporter.cachedSites with
              | some (_, copies) =>
                  List.zipWith (fun pair copy =>
                    { pair with site := copyPointer copy }) pairs copies
              | none => pairs
            ({ reporter with cachedPairs := some (id, copied) }, heap)
      else (reporter, heap)
  | none => (reporter, heap)

/-- Stage 7. -/
def refreshCache (input : ScanInput w) (collected : Collected w)
    (reporter : ReporterMemory w) (heap : ScanHeap) :
    Except Fault (ReporterMemory w × ScanHeap) := do
  let heap ← heap.freeAll (cachedSiteBlocks reporter)
  let heap ← heap.freeAll (cachedPairBlocks reporter)
  let reporter := { reporter with cachedSites := none, cachedPairs := none }
  let (reporter, heap) := refreshCachedSites input collected reporter heap
  let (reporter, heap) := refreshCachedPairs input collected reporter heap
  refreshTsCache input 7 reporter heap

/-- What is given back at the end. -/
def temporaries (collected : Collected w) : List Pointer :=
  (collected.snapshot.toList.map fun id => (⟨.snapshot, id⟩ : Pointer)) ++
    (collected.sorted.toList.map fun array =>
      (⟨.sorted, array.1⟩ : Pointer)) ++
    (collected.pairs.toList.map fun array => (⟨.pairs, array.1⟩ : Pointer)) ++
    collected.nodes.map fun node => (⟨.leakSite, node.id⟩ : Pointer)

/-- Stages 6 to 7; when the report file cannot be opened they are left out,
while the outcome of its renaming changes nothing that is kept. -/
def publish (input : ScanInput w) (collected : Collected w)
    (reporter : ReporterMemory w) :
    Except Fault (ReporterMemory w × ScanHeap) :=
  if input.reportOpens then do
    let _ ← writeJsonReport input collected
    let (reporter, heap) ← savePrevDiff input collected reporter
      collected.heap
    refreshCache input collected reporter heap
  else .ok (reporter, collected.heap)

/-- The sorted sites of the scan, each with its own stack entry. -/
def ownSites (collected : Collected w) :
    List (MttLeakSite w × Option (StackNode w)) :=
  match collected.sorted, collected.pairs with
  | some (_, nodes), some (_, pairs) =>
      List.zipWith (fun node pair => (node.site, pair.stackEntry)) nodes pairs
  | some (_, nodes), none => nodes.map fun node => (node.site, none)
  | none, _ => []

/-- The memory after the scan, and its sites unless it was skipped. -/
structure ScanResult (w : Nat) where
  memory : ScanMemory w
  sites : Option (List (MttLeakSite w × Option (StackNode w)))

def scanAndReportLocked (input : ScanInput w) (memory : ScanMemory w) :
    Except Fault (ScanResult w) := do
  let (reporter, heap) ← refreshTsCache input 0 memory.reporter memory.heap
  match takeSnapshot input heap with
  | (none, heap) =>
      return { memory := { memory with reporter, heap }, sites := none }
  | (some (snapshot, snaps), heap) =>
      let collected ← collectSites input reporter memory.cache heap snapshot
        snaps
      let (reporter, heap) ← publish input collected reporter
      let heap ← heap.freeAll (temporaries collected)
      return {
        memory :=
          { heap
            cache := collected.cache
            reporter
            leakBytesTotal := collected.leakBytesTotal
            expiredAllocCount := collected.expiredAllocCount }
        sites := some (ownSites collected) }

end MemoryTraceTool
