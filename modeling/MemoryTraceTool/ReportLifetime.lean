import MemoryTraceTool.ScanFailures
import MemoryTraceTool.Lib.Transition

/-!
# The report between scans, requests and the exit

A scan replaces the arrays of `g_reporter`, the HTTP thread reads them and the
handler of `atexit` gives them back.  The served arrays are touched under
`cache_lock` only, so that each of these sections is one step.  The arrays of
the last scan have no lock: each turn of the loop that compares with them is a
step, and so are giving them back and forgetting them.
-/

namespace MemoryTraceTool.ReportLifetime

open Heap Transition

variable {w : Nat}

/-! ## Scans, requests and the handler -/

/-- The loop of stage 4.5: the sites that have their difference, the sites
that wait for it, and the next element of the arrays to compare with. -/
structure DiffLoop (w : Nat) where
  done : List (LeakNode w)
  rest : List (LeakNode w)
  index : Nat

/-- The scan that holds `scan_mutex`, between two of its stages or turns.  The
heap and the cache of a `Collected` are those of stage 5. -/
inductive ScanPhase (w : Nat) where
  | idle
  | begun (input : ScanInput w)
  | timed (input : ScanInput w)
  | sorted (input : ScanInput w) (sorting : Sorting w)
  | comparing (input : ScanInput w) (sorting : Sorting w) (loop : DiffLoop w)
  | compared (input : ScanInput w) (sorting : Sorting w)
  | collected (input : ScanInput w) (sites : Collected w)
  | written (input : ScanInput w) (sites : Collected w)
  | discarded (input : ScanInput w) (sites : Collected w)
  | saved (input : ScanInput w) (sites : Collected w)
  | served (sites : Collected w)

/-- `mtt_atexit_handler`: before it, after its section under `cache_lock`,
after it has given back the arrays of the last scan, and after it has
forgotten them. -/
inductive ExitPhase where
  | before
  | cleared
  | discarded
  | done
  deriving DecidableEq, Repr

structure LifetimeState (w : Nat) where
  heap : ScanHeap
  cache : StackNodes w
  reporter : ReporterMemory w
  scan : ScanPhase w
  exit : ExitPhase
  faulted : Bool

inductive LifetimeLabel (w : Nat) where
  | begin (input : ScanInput w)
  | scan
  | serve
  | exit

def LifetimeState.initial (w : Nat) : LifetimeState w :=
  { heap := .empty
    cache := .empty w
    reporter := .empty w
    scan := .idle
    exit := .before
    faulted := false }

/-- A fault ends the process. -/
def LifetimeState.orFault {Result : Type} (state : LifetimeState w)
    (outcome : Except Fault Result) (next : Result → LifetimeState w) :
    LifetimeState w :=
  match outcome with
  | .ok result => next result
  | .error _ => { state with faulted := true }

/-- The growth of a site since the last scan. -/
def setGrowth (prevTotal : BitVec w) (node : LeakNode w) : LeakNode w :=
  { node with
    site :=
      { node.site with
        diffSize :=
          if prevTotal < node.site.totalSize then
            node.site.totalSize - prevTotal
          else 0 } }

def DiffLoop.settle (loop : DiffLoop w) (prevTotal : BitVec w)
    (node : LeakNode w) (others : List (LeakNode w)) : DiffLoop w :=
  { done := loop.done ++ [setGrowth prevTotal node]
    rest := others
    index := 0 }

/-- One turn of the loop, for the first site that waits. -/
def DiffLoop.turn (loop : DiffLoop w) (reporter : ReporterMemory w)
    (heap : ScanHeap) (node : LeakNode w) (others : List (LeakNode w)) :
    Except Fault (DiffLoop w) :=
  if loop.index < reporter.prevDiffCount then do
    let hash ← heap.readArray .prevDiffHashes reporter.prevDiffHashes
      loop.index
    if hash = node.site.stackHash then do
      let size ← heap.readArray .prevDiffSizes reporter.prevDiffSizes
        loop.index
      return loop.settle size node others
    else return { loop with index := loop.index + 1 }
  else return loop.settle 0 node others

/-- The arrays of the last scan are forgotten. -/
def forgetPrevDiff (reporter : ReporterMemory w) : ReporterMemory w :=
  { reporter with
    prevDiffHashes := none
    prevDiffSizes := none
    prevDiffCount := 0 }

/-- Stage 6.5 after the old arrays have been given back. -/
def storePrevDiff (input : ScanInput w) (sites : Collected w)
    (reporter : ReporterMemory w) (heap : ScanHeap) :
    ReporterMemory w × ScanHeap :=
  let reporter := forgetPrevDiff reporter
  match sites.sorted with
  | some (_, nodes) =>
      if 0 < sites.siteCount then
        let (hashes, heap) := input.request .prevDiffHashes heap
        let (sizes, heap) := input.request .prevDiffSizes heap
        ({ reporter with
            prevDiffHashes := hashes.map fun id =>
              (id, nodes.map fun node => node.site.stackHash)
            prevDiffSizes := sizes.map fun id =>
              (id, nodes.map fun node => node.site.totalSize)
            prevDiffCount :=
              if hashes.isSome && sizes.isSome then sites.siteCount
              else 0 },
          heap)
      else (reporter, heap)
  | none => (reporter, heap)

/-- What the HTTP thread may follow. -/
def servedPointers (reporter : ReporterMemory w) : List Pointer :=
  cachedSiteBlocks reporter ++ cachedPairBlocks reporter ++
    pairPointers reporter

/-- The section of the handler under `cache_lock`. -/
def cachedBlocks (reporter : ReporterMemory w) : List Pointer :=
  cachedSiteBlocks reporter ++ cachedPairBlocks reporter ++
    tsDataBlocks reporter

def clearCache (reporter : ReporterMemory w) : ReporterMemory w :=
  { reporter with
    cachedSites := none
    cachedPairs := none
    cachedTsData := none
    cachedSiteCount := 0 }

/-- Every block of the list is in use. -/
def AllLive (heap : ScanHeap) (blocks : List Pointer) : Prop :=
  ∀ block ∈ blocks, block ∈ heap.live

instance (heap : ScanHeap) (blocks : List Pointer) :
    Decidable (AllLive heap blocks) :=
  inferInstanceAs (Decidable (∀ block ∈ blocks, block ∈ heap.live))

/-- The next stage of the scan. -/
def scanStep (state : LifetimeState w) : Option (LifetimeState w) :=
  match state.scan with
  | .idle => none
  | .begun input =>
      some <| state.orFault
        (refreshTsCache input 0 state.reporter state.heap) fun result =>
          { state with
            reporter := result.1
            heap := result.2
            scan := .timed input }
  | .timed input =>
      match takeSnapshot input state.heap with
      | (none, heap) => some { state with heap, scan := .idle }
      | (some (snapshot, snaps), heap) =>
          let (sorting, cache, heap) :=
            sortSites input state.cache heap snapshot snaps
          some { state with heap, cache, scan := .sorted input sorting }
  | .sorted input sorting =>
      match sorting.sorted with
      | some (_, nodes) =>
          if 0 < sorting.siteCount then
            let loop : DiffLoop w := { done := [], rest := nodes, index := 0 }
            some { state with scan := .comparing input sorting loop }
          else some { state with scan := .compared input sorting }
      | none => some { state with scan := .compared input sorting }
  | .comparing input sorting loop =>
      match loop.rest with
      | node :: others =>
          some <| state.orFault
            (loop.turn state.reporter state.heap node others) fun loop =>
              { state with scan := .comparing input sorting loop }
      | [] =>
          let sorted := sorting.sorted.map fun array => (array.1, loop.done)
          some
            { state with scan := .compared input { sorting with sorted } }
  | .compared input sorting =>
      let sites := pairSites input sorting state.cache state.heap
      some
        { state with
          heap := sites.heap
          cache := sites.cache
          scan := .collected input sites }
  | .collected input sites =>
      if input.reportOpens then
        some <| state.orFault (writeJsonReport input sites) fun _ =>
          { state with scan := .written input sites }
      else some { state with scan := .served sites }
  | .written input sites =>
      some <| state.orFault
        (state.heap.freeAll (prevDiffBlocks state.reporter)) fun heap =>
          { state with heap, scan := .discarded input sites }
  | .discarded input sites =>
      let stored := storePrevDiff input sites state.reporter state.heap
      some
        { state with
          reporter := stored.1
          heap := stored.2
          scan := .saved input sites }
  | .saved input sites =>
      some <| state.orFault
        (refreshCache input sites state.reporter state.heap) fun result =>
          { state with
            reporter := result.1
            heap := result.2
            scan := .served sites }
  | .served sites =>
      some <| state.orFault (state.heap.freeAll (temporaries sites))
        fun heap => { state with heap, scan := .idle }

/-- The next part of the handler. -/
def exitStep (state : LifetimeState w) : Option (LifetimeState w) :=
  match state.exit with
  | .before =>
      some <| state.orFault
        (state.heap.freeAll (cachedBlocks state.reporter)) fun heap =>
          { state with
            heap
            reporter := clearCache state.reporter
            exit := .cleared }
  | .cleared =>
      some <| state.orFault
        (state.heap.freeAll (prevDiffBlocks state.reporter)) fun heap =>
          { state with heap, exit := .discarded }
  | .discarded =>
      some
        { state with
          reporter := forgetPrevDiff state.reporter
          exit := .done }
  | .done => none

def lifetimeNext (state : LifetimeState w) :
    LifetimeLabel w → Option (LifetimeState w)
  | .begin input =>
      match state.faulted, state.scan with
      | false, .idle => some { state with scan := .begun input }
      | _, _ => none
  | .scan => if state.faulted then none else scanStep state
  | .serve =>
      if state.faulted then none
      else if AllLive state.heap (servedPointers state.reporter) then
        some state
      else some { state with faulted := true }
  | .exit => if state.faulted then none else exitStep state

/-- One scan at a time, requests at any time, and one exit. -/
def lifetimeSystem (w : Nat) :
    System (LifetimeState w) (LifetimeLabel w) where
  init := fun state => state = .initial w
  next := lifetimeNext

/-! ## The arrays of the last scan -/

/-- A reporter with the arrays of the last scan of another. -/
def graft (source target : ReporterMemory w) : ReporterMemory w :=
  { target with
    prevDiffHashes := source.prevDiffHashes
    prevDiffSizes := source.prevDiffSizes
    prevDiffCount := source.prevDiffCount }

/-- The stage does not look at the arrays of the last scan. -/
def Commutes (stage : ReporterMemory w → ScanHeap →
    Except Fault (ReporterMemory w × ScanHeap)) : Prop :=
  ∀ source target heap, stage (graft source target) heap =
    (stage target heap).map fun result => (graft source result.1, result.2)

theorem refreshTsCache_commutes (input : ScanInput w) (stage : Nat) :
    Commutes (refreshTsCache input stage) := by
  intro source target heap
  have blocks : tsDataBlocks (graft source target) = tsDataBlocks target :=
    rfl
  simp only [refreshTsCache, blocks]
  split
  · split
    · rfl
    · rename_i buffer later asked
      split
      · split
        · rename_i last none
          cases last.free ⟨.tsBuffer, buffer⟩ <;> rfl
        · rename_i data last got
          cases last.freeAll (tsDataBlocks target) with
          | error fault => rfl
          | ok freed =>
              rw [ok_bind, ok_bind]
              cases freed.free ⟨.tsBuffer, buffer⟩ <;> rfl
      · cases later.free ⟨.tsBuffer, buffer⟩ <;> rfl
  · rfl

theorem refreshCachedSites_graft (input : ScanInput w) (sites : Collected w)
    (source target : ReporterMemory w) (heap : ScanHeap) :
    refreshCachedSites input sites (graft source target) heap =
      (graft source (refreshCachedSites input sites target heap).1,
        (refreshCachedSites input sites target heap).2) := by
  unfold refreshCachedSites
  split
  · split
    · split <;> rfl
    · rfl
  · rfl

theorem refreshCachedPairs_graft (input : ScanInput w) (sites : Collected w)
    (source target : ReporterMemory w) (heap : ScanHeap) :
    refreshCachedPairs input sites (graft source target) heap =
      (graft source (refreshCachedPairs input sites target heap).1,
        (refreshCachedPairs input sites target heap).2) := by
  unfold refreshCachedPairs
  split
  · split
    · split <;> rfl
    · rfl
  · rfl

theorem refreshCache_commutes (input : ScanInput w) (sites : Collected w) :
    Commutes (refreshCache input sites) := by
  intro source target heap
  have siteBlocks : cachedSiteBlocks (graft source target) =
      cachedSiteBlocks target := rfl
  have pairBlocks : cachedPairBlocks (graft source target) =
      cachedPairBlocks target := rfl
  have cleared : { graft source target with
      cachedSites := none, cachedPairs := none } =
    graft source { target with cachedSites := none, cachedPairs := none } :=
    rfl
  simp only [refreshCache, siteBlocks, pairBlocks, cleared]
  cases heap.freeAll (cachedSiteBlocks target) with
  | error fault => rfl
  | ok first =>
      rw [ok_bind, ok_bind]
      cases first.freeAll (cachedPairBlocks target) with
      | error fault => rfl
      | ok second =>
          rw [ok_bind, ok_bind, refreshCachedSites_graft]
          dsimp only
          rw [refreshCachedPairs_graft]
          exact refreshTsCache_commutes input 7 _ _ _

/-- What the reporter owns when its arrays of the last scan have been given
back and are not forgotten yet. -/
def owner (discarding : Bool) (reporter : ReporterMemory w) :
    ReporterMemory w :=
  if discarding then forgetPrevDiff reporter else reporter

theorem Commutes.runs {stage : ReporterMemory w → ScanHeap →
      Except Fault (ReporterMemory w × ScanHeap)}
    (commutes : Commutes stage) {discarding : Bool}
    {reporter final : ReporterMemory w} {heap later : ScanHeap}
    (ran : stage (owner discarding reporter) heap = .ok (final, later)) :
    stage reporter heap = .ok (graft reporter final, later) ∧
      owner discarding (graft reporter final) = final := by
  have restored : graft reporter (owner discarding reporter) = reporter := by
    cases discarding <;> rfl
  have outer := commutes reporter (owner discarding reporter) heap
  have inner := commutes (owner discarding reporter)
    (owner discarding reporter) heap
  rw [restored, ran] at outer
  refine ⟨outer, ?_⟩
  have self : graft (owner discarding reporter) (owner discarding reporter) =
      owner discarding reporter := rfl
  rw [self, ran] at inner
  obtain ⟨same, -⟩ := Prod.mk.inj (Except.ok.inj inner)
  cases discarding with
  | false => exact same.symm
  | true => exact same.symm

theorem savePrevDiff_eq (input : ScanInput w) (sites : Collected w)
    (reporter : ReporterMemory w) (heap : ScanHeap) :
    savePrevDiff input sites reporter heap = (do
      let heap ← heap.freeAll (prevDiffBlocks reporter)
      return storePrevDiff input sites reporter heap) := by
  unfold savePrevDiff storePrevDiff
  cases heap.freeAll (prevDiffBlocks reporter) with
  | error fault => rfl
  | ok later =>
      simp only [ok_bind]
      cases sites.sorted with
      | none => rfl
      | some array =>
          dsimp only
          split <;> rfl

/-! ## Who owns the blocks between the steps -/

/-- The blocks that the scan has still to give back. -/
def ScanPhase.temps : ScanPhase w → Multiset Pointer
  | .idle | .begun _ | .timed _ => 0
  | .sorted _ sorting | .comparing _ sorting _ | .compared _ sorting =>
      sorting.blocks
  | .collected _ sites | .written _ sites | .discarded _ sites
  | .saved _ sites | .served sites => temporaries sites

/-- The scan has given back the old arrays and still points at them. -/
def ScanPhase.discards : ScanPhase w → Bool
  | .discarded _ _ => true
  | _ => false

/-- No scan holds `scan_mutex`. -/
def ScanPhase.isIdle : ScanPhase w → Bool
  | .idle => true
  | .begun _ | .timed _ | .sorted _ _ | .comparing _ _ _ | .compared _ _
  | .collected _ _ | .written _ _ | .discarded _ _ | .saved _ _
  | .served _ => false

theorem ScanPhase.eq_idle {scan : ScanPhase w} (idle : scan.isIdle = true) :
    scan = .idle := by
  cases scan with
  | idle => rfl
  | begun | timed | sorted | comparing | compared | collected | written
  | discarded | saved | served => cases idle

/-- The next step looks at the old arrays or gives them back. -/
def ScanPhase.usesPrevDiff : ScanPhase w → Bool
  | .comparing _ _ _ | .written _ _ => true
  | _ => false

/-- The scan is in the loop over the old arrays, or has given them back and
still points at them. -/
def ScanPhase.insidePrevDiff : ScanPhase w → Bool
  | .comparing _ _ _ | .discarded _ _ => true
  | _ => false

def LifetimeState.discarding (state : LifetimeState w) : Bool :=
  state.scan.discards || state.exit == .discarded

/-- The allocations that fail let each scan get through, and neither the scan
nor the handler comes to the arrays of the last scan while the other compares
with them or has given them back without forgetting them. -/
def Apart : LifetimeState w → LifetimeLabel w → Prop
  | _, .begin input => SafeFailures input
  | state, .scan =>
      state.exit = .discarded → state.scan.usesPrevDiff = false
  | state, .exit =>
      state.exit = .cleared → state.scan.insidePrevDiff = false
  | _, .serve => True

/-- The arrays hold what is counted. -/
def PrevDiffFilled (reporter : ReporterMemory w) : Prop :=
  (∀ array ∈ reporter.prevDiffHashes,
      reporter.prevDiffCount ≤ array.2.length) ∧
    ∀ array ∈ reporter.prevDiffSizes,
      reporter.prevDiffCount ≤ array.2.length

/-- The sites of a scan after stage 4, if it gets through its failures. -/
structure SortedSafely (input : ScanInput w) (sorting : Sorting w) : Prop where
  sorts : SortingFrom input sorting
  taken : (takeSnapshot input .empty).1.map Prod.snd = some sorting.snaps
  safe : SafeFailures input

/-- A site without its growth. -/
def eraseGrowth (node : LeakNode w) : LeakNode w :=
  { node with site := { node.site with diffSize := 0 } }

/-- The sites of a scan that gets through its failures. -/
structure CollectedSafely (rest : Multiset Pointer) (input : ScanInput w)
    (sites : Collected w) : Prop where
  collected : ∃ before snaps snapshot,
    CollectedFrom input rest before snaps snapshot sites
  safe : input.reportOpens = true →
    ¬ JsonFaults input sites ∧ ¬ PairsDangle input sites

def PhaseSound (rest : Multiset Pointer) : ScanPhase w → Prop
  | .idle | .served _ => True
  | .begun input | .timed input => SafeFailures input
  | .sorted input sorting | .compared input sorting =>
      SortedSafely input sorting
  | .comparing input sorting loop =>
      SortedSafely input sorting ∧ ∃ id nodes,
        sorting.sorted = some (id, nodes) ∧
          (loop.done ++ loop.rest).map eraseGrowth = nodes.map eraseGrowth
  | .collected input sites => CollectedSafely rest input sites
  | .written input sites | .discarded input sites | .saved input sites =>
      CollectedSafely rest input sites ∧ input.reportOpens = true

/-- Everything in use belongs to the reporter, to the scan or to the stack
cache. -/
structure Kept (rest : Multiset Pointer) (state : LifetimeState w) :
    Prop where
  kinds : ∀ pointer ∈ rest, pointer.kind = .stackEntry
  holds : Holds rest state.scan.temps
    (owner state.discarding state.reporter) state.cache state.heap
  pairs : PairsSound rest state.reporter
  readable : PrevDiffReadable state.reporter
  filled : PrevDiffFilled state.reporter
  phase : PhaseSound rest state.scan
  apart : state.scan.discards = true → state.exit ≠ .discarded
  intact : state.faulted = false

theorem kept_initial (w : Nat) : Kept 0 (.initial w) := by
  constructor
  · intro pointer member
    cases Multiset.notMem_zero pointer member
  · refine ⟨Memory.valid_empty, rfl, ?_⟩
    intro bucket node member
    cases member
  · intro pointer member
    cases member
  · exact .inl rfl
  · exact ⟨nofun, nofun⟩
  · trivial
  · intro discards
    cases discards
  · rfl

theorem readable_owner {discarding : Bool} {reporter : ReporterMemory w}
    (readable : PrevDiffReadable reporter) :
    PrevDiffReadable (owner discarding reporter) := by
  cases discarding with
  | false => exact readable
  | true => exact .inl rfl

/-! ## The stages -/

section Stages

variable {rest : Multiset Pointer} {heap : ScanHeap} {cache : StackNodes w}
  {reporter : ReporterMemory w} {exit : ExitPhase} {input : ScanInput w}
  {sorting : Sorting w} {sites : Collected w}

/-! ### What each stage leads to -/

theorem scanStep_begun {final : ReporterMemory w} {later : ScanHeap}
    (ran : refreshTsCache input 0 reporter heap = .ok (final, later)) :
    scanStep ⟨heap, cache, reporter, .begun input, exit, false⟩ =
      some ⟨later, cache, final, .timed input, exit, false⟩ := by
  simp only [scanStep, ran]
  rfl

theorem scanStep_skipped {later : ScanHeap}
    (skipped : takeSnapshot input heap = (none, later)) :
    scanStep ⟨heap, cache, reporter, .timed input, exit, false⟩ =
      some ⟨later, cache, reporter, .idle, exit, false⟩ := by
  simp only [scanStep, skipped]

theorem scanStep_timed {snapshot : Option Nat}
    {snaps : List (MttAllocSnap w)} {sorting : Sorting w}
    {cacheLater : StackNodes w} {taken later : ScanHeap}
    (took : takeSnapshot input heap = (some (snapshot, snaps), taken))
    (sorts : sortSites input cache taken snapshot snaps =
      (sorting, cacheLater, later)) :
    scanStep ⟨heap, cache, reporter, .timed input, exit, false⟩ =
      some ⟨later, cacheLater, reporter, .sorted input sorting, exit,
        false⟩ := by
  simp only [scanStep, took, sorts]

theorem scanStep_unsorted
    (none : sorting.sorted = none ∨ sorting.siteCount = 0) :
    scanStep ⟨heap, cache, reporter, .sorted input sorting, exit, false⟩ =
      some ⟨heap, cache, reporter, .compared input sorting, exit,
        false⟩ := by
  rcases none with none | zero
  · simp only [scanStep, none]
  · cases sorted : sorting.sorted with
    | none => simp only [scanStep, sorted]
    | some array => simp [scanStep, sorted, zero]

theorem scanStep_sorted {id : Nat} {nodes : List (LeakNode w)}
    (sorted : sorting.sorted = some (id, nodes))
    (positive : 0 < sorting.siteCount) :
    scanStep ⟨heap, cache, reporter, .sorted input sorting, exit, false⟩ =
      some ⟨heap, cache, reporter,
        .comparing input sorting ⟨[], nodes, 0⟩, exit, false⟩ := by
  simp only [scanStep, sorted, if_pos positive]

theorem scanStep_comparing {loop next : DiffLoop w} {node : LeakNode w}
    {others : List (LeakNode w)} (waits : loop.rest = node :: others)
    (turns : loop.turn reporter heap node others = .ok next) :
    scanStep
        ⟨heap, cache, reporter, .comparing input sorting loop, exit, false⟩ =
      some ⟨heap, cache, reporter, .comparing input sorting next, exit,
        false⟩ := by
  simp only [scanStep, waits, turns]
  rfl

theorem scanStep_settled {done : List (LeakNode w)} {index : Nat} :
    scanStep
        ⟨heap, cache, reporter, .comparing input sorting ⟨done, [], index⟩,
          exit, false⟩ =
      some ⟨heap, cache, reporter,
        .compared input
          { sorting with
            sorted := sorting.sorted.map fun array => (array.1, done) },
        exit, false⟩ := rfl

theorem scanStep_compared :
    scanStep ⟨heap, cache, reporter, .compared input sorting, exit, false⟩ =
      some ⟨(pairSites input sorting cache heap).heap,
        (pairSites input sorting cache heap).cache, reporter,
        .collected input (pairSites input sorting cache heap), exit,
        false⟩ := rfl

theorem scanStep_closed (closed : input.reportOpens = false) :
    scanStep ⟨heap, cache, reporter, .collected input sites, exit, false⟩ =
      some ⟨heap, cache, reporter, .served sites, exit, false⟩ := by
  simp only [scanStep, closed, Bool.false_eq_true, if_false]

theorem scanStep_opened {listed : List (LeakNode w)}
    (opens : input.reportOpens = true)
    (json : writeJsonReport input sites = .ok listed) :
    scanStep ⟨heap, cache, reporter, .collected input sites, exit, false⟩ =
      some ⟨heap, cache, reporter, .written input sites, exit, false⟩ := by
  simp only [scanStep, opens, if_true, json]
  rfl

theorem scanStep_written {later : ScanHeap}
    (freed : heap.freeAll (prevDiffBlocks reporter) = .ok later) :
    scanStep ⟨heap, cache, reporter, .written input sites, exit, false⟩ =
      some ⟨later, cache, reporter, .discarded input sites, exit, false⟩ := by
  simp only [scanStep, freed]
  rfl

theorem scanStep_discarded {final : ReporterMemory w} {later : ScanHeap}
    (stored : storePrevDiff input sites reporter heap = (final, later)) :
    scanStep ⟨heap, cache, reporter, .discarded input sites, exit, false⟩ =
      some ⟨later, cache, final, .saved input sites, exit, false⟩ := by
  simp only [scanStep, stored]

theorem scanStep_saved {final : ReporterMemory w} {later : ScanHeap}
    (ran : refreshCache input sites reporter heap = .ok (final, later)) :
    scanStep ⟨heap, cache, reporter, .saved input sites, exit, false⟩ =
      some ⟨later, cache, final, .served sites, exit, false⟩ := by
  simp only [scanStep, ran]
  rfl

theorem scanStep_served {later : ScanHeap}
    (freed : heap.freeAll (temporaries sites) = .ok later) :
    scanStep ⟨heap, cache, reporter, .served sites, exit, false⟩ =
      some ⟨later, cache, reporter, .idle, exit, false⟩ := by
  simp only [scanStep, freed]
  rfl

/-! ### Each stage keeps the blocks -/

theorem Kept.begun
    (kept : Kept rest ⟨heap, cache, reporter, .begun input, exit, false⟩) :
    ∃ later, scanStep ⟨heap, cache, reporter, .begun input, exit, false⟩ =
      some later ∧ Kept rest later := by
  have holds : Holds rest 0 (owner (exit == .discarded) reporter) cache heap :=
    kept.holds
  obtain ⟨data, heapLater, ran, done⟩ := refreshTsCache_holds input 0 holds
  obtain ⟨same, owned⟩ := (refreshTsCache_commutes input 0).runs ran
  refine ⟨_, scanStep_begun same, kept.kinds, ?_, ?_, kept.readable,
    kept.filled, kept.phase, nofun, rfl⟩
  · rw [← owned] at done
    exact done
  · have pairs := kept.pairs
    cases exit == .discarded <;> exact pairs

/-- Without the arrays of the last scan in between, the reporter owns what it
points at. -/
theorem Kept.prevDiff_live {scan : ScanPhase w}
    (kept : Kept rest ⟨heap, cache, reporter, scan, exit, false⟩)
    (present : scan.discards = false) (away : exit ≠ .discarded) :
    Holds rest scan.temps reporter cache heap := by
  have holds := kept.holds
  have whole : LifetimeState.discarding
      ⟨heap, cache, reporter, scan, exit, false⟩ = false := by
    simp [LifetimeState.discarding, present, away]
  rw [whole] at holds
  exact holds

theorem allLive_prevDiff {temps : Multiset Pointer}
    (holds : Holds rest temps reporter cache heap) :
    AllLive heap (prevDiffBlocks reporter) := by
  intro block member
  rw [holds.live]
  unfold ReporterMemory.owned
  simp only [Multiset.mem_add, Multiset.mem_coe]
  exact .inl (.inl (.inl (.inl (.inr member))))

theorem Kept.timed
    (kept : Kept rest ⟨heap, cache, reporter, .timed input, exit, false⟩) :
    ∃ later more,
      scanStep ⟨heap, cache, reporter, .timed input, exit, false⟩ =
        some later ∧ Kept more later := by
  have holds : Holds rest 0 (owner (exit == .discarded) reporter) cache
      heap := kept.holds
  have snapsSame := takeSnapshot_snaps input heap .empty
  rcases takeSnapshot_holds input holds with
    skipped | ⟨snapshot, snaps, heapTook, took, taken⟩
  · exact ⟨_, rest, scanStep_skipped skipped, kept.kinds, kept.holds,
      kept.pairs, kept.readable, kept.filled, trivial, nofun, rfl⟩
  · rw [add_zero] at taken
    obtain ⟨sorting, cacheLater, heapLater, more, sorts, ⟨rfl, rfl⟩, grows,
      sortingFrom, done⟩ := sortSites_holds input snapshot snaps taken
    rw [took] at snapsSame
    refine ⟨_, more, scanStep_timed took sorts, grows.kinds kept.kinds, done,
      PairsSound.mono kept.pairs grows, kept.readable, kept.filled,
      ⟨sortingFrom, snapsSame.symm, kept.phase⟩, nofun, rfl⟩

theorem Kept.sorted
    (kept : Kept rest
      ⟨heap, cache, reporter, .sorted input sorting, exit, false⟩) :
    ∃ later,
      scanStep ⟨heap, cache, reporter, .sorted input sorting, exit, false⟩ =
        some later ∧ Kept rest later := by
  cases sorted : sorting.sorted with
  | none =>
      exact ⟨_, scanStep_unsorted (.inl sorted), kept.kinds, kept.holds,
        kept.pairs, kept.readable, kept.filled, kept.phase, nofun, rfl⟩
  | some array =>
      obtain ⟨id, nodes⟩ := array
      rcases Nat.eq_zero_or_pos sorting.siteCount with zero | positive
      · exact ⟨_, scanStep_unsorted (.inr zero), kept.kinds, kept.holds,
          kept.pairs, kept.readable, kept.filled, kept.phase, nofun, rfl⟩
      · exact ⟨_, scanStep_sorted sorted positive, kept.kinds, kept.holds,
          kept.pairs, kept.readable, kept.filled,
          ⟨kept.phase, id, nodes, sorted, rfl⟩, nofun, rfl⟩

/-- What the arrays of the last scan hold while they are in use. -/
structure ReadsAs (reporter : ReporterMemory w) (heap : ScanHeap)
    (pairs : List (Word × BitVec w)) : Prop where
  count : reporter.prevDiffCount = pairs.length
  hashes : ∀ index pair, pairs[index]? = some pair →
    heap.readArray .prevDiffHashes reporter.prevDiffHashes index =
      .ok pair.1
  sizes : ∀ index pair, pairs[index]? = some pair →
    heap.readArray .prevDiffSizes reporter.prevDiffSizes index = .ok pair.2

theorem exists_readsAs (live : AllLive heap (prevDiffBlocks reporter))
    (readable : PrevDiffReadable reporter)
    (filled : PrevDiffFilled reporter) :
    ∃ pairs, readPrevDiff reporter = .ok pairs ∧
      ReadsAs reporter heap pairs := by
  unfold readPrevDiff
  by_cases none : reporter.prevDiffCount = 0
  · rw [if_pos none]
    exact ⟨[], rfl, none, nofun, nofun⟩
  · rw [if_neg none]
    obtain ⟨hashes, sizes⟩ := readable.resolve_left none
    obtain ⟨⟨hashBlock, hashArray⟩, hashesSet⟩ :=
      Option.isSome_iff_exists.mp hashes
    obtain ⟨⟨sizeBlock, sizeArray⟩, sizesSet⟩ :=
      Option.isSome_iff_exists.mp sizes
    have hashesFilled : reporter.prevDiffCount ≤ hashArray.length :=
      filled.1 _ hashesSet
    have sizesFilled : reporter.prevDiffCount ≤ sizeArray.length :=
      filled.2 _ sizesSet
    have hashLive : (⟨.prevDiffHashes, hashBlock⟩ : Pointer) ∈
        heap.live := by
      apply live
      simp [prevDiffBlocks, hashesSet]
    have sizeLive : (⟨.prevDiffSizes, sizeBlock⟩ : Pointer) ∈
        heap.live := by
      apply live
      simp [prevDiffBlocks, sizesSet]
    have both : ∀ (index : Nat) (pair : Word × BitVec w),
        ((hashArray.zip sizeArray).take reporter.prevDiffCount)[index]? =
            some pair →
          hashArray[index]? = some pair.1 ∧
            sizeArray[index]? = some pair.2 := by
      intro index pair there
      rw [List.getElem?_take] at there
      split at there
      · exact List.getElem?_zip_eq_some.mp there
      · cases there
    rw [hashesSet, sizesSet]
    refine ⟨_, rfl, ?_, ?_, ?_⟩
    · rw [List.length_take, List.length_zip]
      omega
    · intro index pair there
      rw [hashesSet]
      exact Memory.readArray_ok hashLive (both index pair there).1
    · intro index pair there
      rw [sizesSet]
      exact Memory.readArray_ok sizeLive (both index pair there).2

theorem ReadsAs.turn {pairs : List (Word × BitVec w)}
    (reads : ReadsAs reporter heap pairs) (loop : DiffLoop w)
    (node : LeakNode w) (others : List (LeakNode w)) :
    loop.turn reporter heap node others = .ok (
      match pairs[loop.index]? with
      | some (hash, size) =>
          if hash = node.site.stackHash then loop.settle size node others
          else { loop with index := loop.index + 1 }
      | none => loop.settle 0 node others) := by
  unfold DiffLoop.turn
  rw [reads.count]
  cases there : pairs[loop.index]? with
  | none =>
      have outside := List.getElem?_eq_none_iff.mp there
      rw [if_neg (Nat.not_lt.mpr outside)]
      rfl
  | some pair =>
      have below : loop.index < pairs.length := by
        by_contra outside
        rw [List.getElem?_eq_none (Nat.not_lt.mp outside)] at there
        cases there
      rw [if_pos below, reads.hashes _ _ there, ok_bind]
      dsimp only
      split
      · rw [reads.sizes _ _ there, ok_bind]
        rfl
      · rfl

theorem eraseGrowth_settle (loop : DiffLoop w) (prevTotal : BitVec w)
    (node : LeakNode w) (others : List (LeakNode w)) :
    ((loop.settle prevTotal node others).done ++
        (loop.settle prevTotal node others).rest).map eraseGrowth =
      (loop.done ++ node :: others).map eraseGrowth := by
  simp [DiffLoop.settle, eraseGrowth, setGrowth]

theorem sortedFrom_of_eraseGrowth {table : Grouping.Table (LeakNode w)}
    {id siteCount : Nat} {nodes done : List (LeakNode w)}
    (sortedFrom : SortedFrom input table (some (id, nodes)) siteCount)
    (same : done.map eraseGrowth = nodes.map eraseGrowth) :
    SortedFrom input table (some (id, done)) siteCount := by
  have parts : ∀ {Part : Type} (part : LeakNode w → Part),
      (∀ node, part (eraseGrowth node) = part node) →
        done.map part = nodes.map part := by
    intro Part part kept
    have mapped := congrArg (List.map part) same
    rw [List.map_map, List.map_map] at mapped
    exact (List.map_congr_left fun node _ => (kept node).symm).trans
      (mapped.trans (List.map_congr_left fun node _ => kept node))
  constructor
  · simpa using sortedFrom.absent
  · exact sortedFrom.count
  · intro other listed found
    cases found
    obtain ⟨perm, length⟩ := sortedFrom.listed id nodes rfl
    have lengths := congrArg List.length same
    rw [List.length_map, List.length_map] at lengths
    rw [parts (fun node => node.id) fun _ => rfl, lengths]
    exact ⟨perm, length⟩
  · intro other listed found
    cases found
    rw [parts (fun node => node.site.totalSize) fun _ => rfl]
    exact sortedFrom.totals id nodes rfl

theorem Kept.comparing {loop : DiffLoop w}
    (kept : Kept rest
      ⟨heap, cache, reporter, .comparing input sorting loop, exit, false⟩)
    (away : exit ≠ .discarded) :
    ∃ later, scanStep
        ⟨heap, cache, reporter, .comparing input sorting loop, exit, false⟩ =
      some later ∧ Kept rest later := by
  have live := allLive_prevDiff (kept.prevDiff_live rfl away)
  obtain ⟨pairs, -, reads⟩ := exists_readsAs live kept.readable kept.filled
  obtain ⟨safely, id, nodes, sorted, same⟩ := kept.phase
  obtain ⟨done, waiting, index⟩ := loop
  cases waiting with
  | nil =>
      rw [List.append_nil] at same
      have sortedFrom := safely.sorts.sorted
      rw [sorted] at sortedFrom
      refine ⟨_, scanStep_settled, kept.kinds, ?_, kept.pairs, kept.readable,
        kept.filled, ⟨⟨safely.sorts.length, safely.sorts.found, ?_⟩,
          safely.taken, safely.safe⟩, nofun, rfl⟩
      · have holds : Holds rest sorting.blocks
            (owner (exit == .discarded) reporter) cache heap := kept.holds
        have blocks : ({ sorting with
            sorted := sorting.sorted.map fun array => (array.1, done) } :
              Sorting w).blocks = sorting.blocks := by
          unfold Sorting.blocks
          rw [sorted]
          rfl
        rw [← blocks] at holds
        exact holds
      · rw [sorted]
        exact sortedFrom_of_eraseGrowth sortedFrom same
  | cons node others =>
      have turned := reads.turn ⟨done, node :: others, index⟩ node others
      refine ⟨_, scanStep_comparing rfl turned, kept.kinds, kept.holds,
        kept.pairs, kept.readable, kept.filled,
        ⟨safely, id, nodes, sorted, ?_⟩, nofun, rfl⟩
      rw [← same]
      split
      · split
        · exact eraseGrowth_settle _ _ node others
        · rfl
      · exact eraseGrowth_settle _ _ node others

theorem Kept.compared
    (kept : Kept rest
      ⟨heap, cache, reporter, .compared input sorting, exit, false⟩) :
    ∃ later more, scanStep
        ⟨heap, cache, reporter, .compared input sorting, exit, false⟩ =
      some later ∧ Kept more later := by
  have holds : Holds rest sorting.blocks
      (owner (exit == .discarded) reporter) cache heap := kept.holds
  have safely := kept.phase
  obtain ⟨more, grows, collectedFrom⟩ :=
    pairSites_holds safely.sorts holds
  have safe := (safeFailures_iff collectedFrom safely.taken).mp safely.safe
  exact ⟨_, more, scanStep_compared, grows.kinds kept.kinds,
    collectedFrom.holds, PairsSound.mono kept.pairs grows, kept.readable,
    kept.filled, ⟨⟨_, _, _, collectedFrom⟩, safe⟩, nofun, rfl⟩

theorem Kept.collected
    (kept : Kept rest
      ⟨heap, cache, reporter, .collected input sites, exit, false⟩) :
    ∃ later,
      scanStep ⟨heap, cache, reporter, .collected input sites, exit, false⟩ =
        some later ∧ Kept rest later := by
  cases opens : input.reportOpens with
  | false =>
      exact ⟨_, scanStep_closed opens, kept.kinds, kept.holds, kept.pairs,
        kept.readable, kept.filled, trivial, nofun, rfl⟩
  | true =>
      obtain ⟨listed, json⟩ := (writeJsonReport_iff sites opens).mpr
        (kept.phase.safe opens).1
      exact ⟨_, scanStep_opened opens json, kept.kinds, kept.holds,
        kept.pairs, kept.readable, kept.filled, ⟨kept.phase, opens⟩, nofun,
        rfl⟩

theorem discardPrevDiff_holds {temps : Multiset Pointer}
    (holds : Holds rest temps reporter cache heap) :
    ∃ later, heap.freeAll (prevDiffBlocks reporter) = .ok later ∧
      Holds rest temps (forgetPrevDiff reporter) cache later := by
  have given : Holds rest (prevDiffBlocks reporter + temps)
      (forgetPrevDiff reporter) cache heap := by
    apply holds.transfer
    rw [← add_assoc]
    exact congrArg (· + temps) (owned_withoutPrevDiff reporter).symm
  obtain ⟨later, freed, done, -⟩ := given.freeAll
  exact ⟨later, freed, done⟩

theorem Kept.written
    (kept : Kept rest
      ⟨heap, cache, reporter, .written input sites, exit, false⟩)
    (away : exit ≠ .discarded) :
    ∃ later,
      scanStep ⟨heap, cache, reporter, .written input sites, exit, false⟩ =
        some later ∧ Kept rest later := by
  have holds : Holds rest (temporaries sites) reporter cache heap :=
    kept.prevDiff_live rfl away
  obtain ⟨heapLater, freed, done⟩ := discardPrevDiff_holds holds
  exact ⟨_, scanStep_written freed, kept.kinds, done, kept.pairs,
    kept.readable, kept.filled, kept.phase, fun _ => away, rfl⟩

theorem sameReport_pairsSound {later : ReporterMemory w}
    (same : SameReport reporter later) (sound : PairsSound rest reporter) :
    PairsSound rest later := by
  have pointers : pairPointers later = pairPointers reporter := by
    simp only [pairPointers, same.pairs]
  have blocks : cachedSiteBlocks later = cachedSiteBlocks reporter := by
    simp only [cachedSiteBlocks, cachedCopies, same.sites, same.count]
  intro pointer member
  rw [pointers] at member
  rw [blocks]
  exact sound pointer member

theorem storePrevDiff_filled (input : ScanInput w)
    (listed : ∀ id nodes, sites.sorted = some (id, nodes) →
      (nodes.map fun node => node.id).Perm
          (sites.nodes.map fun node => node.id) ∧
        nodes.length = sites.siteCount)
    (reporter : ReporterMemory w) (heap : ScanHeap) :
    PrevDiffFilled (storePrevDiff input sites reporter heap).1 := by
  unfold storePrevDiff
  split
  · rename_i id nodes sorted
    have length := (listed id nodes sorted).2
    split
    · constructor
      · intro array there
        obtain ⟨block, -, rfl⟩ := Option.map_eq_some_iff.mp there
        dsimp only
        rw [List.length_map, length]
        split
        · exact le_rfl
        · exact Nat.zero_le _
      · intro array there
        obtain ⟨block, -, rfl⟩ := Option.map_eq_some_iff.mp there
        dsimp only
        rw [List.length_map, length]
        split
        · exact le_rfl
        · exact Nat.zero_le _
    · exact ⟨nofun, nofun⟩
  · exact ⟨nofun, nofun⟩

theorem Kept.discarded
    (kept : Kept rest
      ⟨heap, cache, reporter, .discarded input sites, exit, false⟩) :
    ∃ later,
      scanStep ⟨heap, cache, reporter, .discarded input sites, exit, false⟩ =
        some later ∧ Kept rest later := by
  have away : exit ≠ .discarded := kept.apart rfl
  have discarding : (exit == .discarded) = false := by simp [away]
  have holds : Holds rest (temporaries sites) (forgetPrevDiff reporter) cache
      heap := kept.holds
  obtain ⟨final, heapLater, saves, done, report, readable⟩ :=
    savePrevDiff_holds input sites holds
  have stored : storePrevDiff input sites reporter heap =
      (final, heapLater) := by
    rw [savePrevDiff_eq] at saves
    exact Except.ok.inj saves
  refine ⟨_, scanStep_discarded stored, kept.kinds, ?_, ?_, readable, ?_,
    kept.phase, nofun, rfl⟩
  · change Holds rest (temporaries sites)
      (owner (exit == .discarded) final) cache heapLater
    rw [discarding]
    exact done
  · have sameReport : SameReport reporter final :=
      ⟨report.sites, report.count, report.pairs⟩
    exact sameReport_pairsSound sameReport kept.pairs
  · obtain ⟨⟨before, snaps, snapshot, collectedFrom⟩, -⟩ := kept.phase.1
    have filled := storePrevDiff_filled input collectedFrom.listed
      reporter heap
    rw [stored] at filled
    exact filled

theorem Kept.saved
    (kept : Kept rest
      ⟨heap, cache, reporter, .saved input sites, exit, false⟩) :
    ∃ later,
      scanStep ⟨heap, cache, reporter, .saved input sites, exit, false⟩ =
        some later ∧ Kept rest later := by
  have holds : Holds rest (temporaries sites)
      (owner (exit == .discarded) reporter) cache heap := kept.holds
  obtain ⟨⟨before, snaps, snapshot, collectedFrom⟩, safe⟩ := kept.phase.1
  obtain ⟨final, heapLater, ran, done, -, pairsCopied, -⟩ :=
    refreshCache_holds collectedFrom (readable_owner kept.readable) holds
  obtain ⟨same, owned⟩ := (refreshCache_commutes input sites).runs ran
  have sound := pairsCopied.sound (safe kept.phase.2).2
  refine ⟨_, scanStep_saved same, kept.kinds, ?_, sound, kept.readable,
    kept.filled, trivial, nofun, rfl⟩
  rw [← owned] at done
  exact done

theorem Kept.served
    (kept : Kept rest ⟨heap, cache, reporter, .served sites, exit, false⟩) :
    ∃ later,
      scanStep ⟨heap, cache, reporter, .served sites, exit, false⟩ =
        some later ∧ Kept rest later := by
  have holds : Holds rest (temporaries sites)
      (owner (exit == .discarded) reporter) cache heap := kept.holds
  obtain ⟨heapLater, freed, done, -⟩ := holds.giveBack
  exact ⟨_, scanStep_served freed, kept.kinds, done, kept.pairs,
    kept.readable, kept.filled, trivial, nofun, rfl⟩

/-- A step that can only lead to good states has led to one. -/
theorem of_taken {State : Type} {step : Option State} {Good : State → Prop}
    {later : State} (leads : ∃ target, step = some target ∧ Good target)
    (taken : step = some later) : Good later := by
  obtain ⟨target, same, good⟩ := leads
  rw [same] at taken
  exact Option.some.inj taken ▸ good

/-- Every stage that is kept apart from the handler goes through. -/
theorem Kept.scans {state later : LifetimeState w}
    (kept : Kept rest state)
    (away : state.exit = .discarded → state.scan.usesPrevDiff = false)
    (taken : scanStep state = some later) : ∃ more, Kept more later := by
  obtain ⟨heap, cache, reporter, scan, exit, faulted⟩ := state
  obtain rfl : faulted = false := kept.intact
  have notDiscarded : scan.usesPrevDiff = true → exit ≠ .discarded := by
    intro uses isDiscarded
    have unused := away isDiscarded
    change scan.usesPrevDiff = false at unused
    rw [uses] at unused
    cases unused
  cases scan with
  | idle => cases taken
  | begun input =>
      exact ⟨rest, of_taken kept.begun taken⟩
  | timed input =>
      obtain ⟨target, more, same, done⟩ := kept.timed
      rw [same] at taken
      exact ⟨more, Option.some.inj taken ▸ done⟩
  | sorted input sorting =>
      exact ⟨rest, of_taken kept.sorted taken⟩
  | comparing input sorting loop =>
      exact ⟨rest, of_taken (kept.comparing (notDiscarded rfl)) taken⟩
  | compared input sorting =>
      obtain ⟨target, more, same, done⟩ := kept.compared
      rw [same] at taken
      exact ⟨more, Option.some.inj taken ▸ done⟩
  | collected input sites =>
      exact ⟨rest, of_taken kept.collected taken⟩
  | written input sites =>
      exact ⟨rest, of_taken (kept.written (notDiscarded rfl)) taken⟩
  | discarded input sites =>
      exact ⟨rest, of_taken kept.discarded taken⟩
  | saved input sites =>
      exact ⟨rest, of_taken kept.saved taken⟩
  | served sites =>
      exact ⟨rest, of_taken kept.served taken⟩

end Stages

/-! ## The handler and the requests -/

section Handler

variable {rest : Multiset Pointer} {heap : ScanHeap} {cache : StackNodes w}
  {reporter : ReporterMemory w} {scan : ScanPhase w}

theorem owned_clearCache (reporter : ReporterMemory w) :
    (clearCache reporter).owned + (cachedBlocks reporter : Multiset Pointer) =
      reporter.owned := by
  change ((0 : Multiset Pointer) + prevDiffBlocks reporter +
      (0 : Multiset Pointer) + (0 : Multiset Pointer)) +
        (cachedBlocks reporter : Multiset Pointer) =
    (tsDataBlocks reporter : Multiset Pointer) + prevDiffBlocks reporter +
      cachedSiteBlocks reporter + cachedPairBlocks reporter
  unfold cachedBlocks
  simp only [← Multiset.coe_add]
  abel

theorem Kept.cleared
    (kept : Kept rest ⟨heap, cache, reporter, scan, .before, false⟩) :
    ∃ later, exitStep ⟨heap, cache, reporter, scan, .before, false⟩ =
      some later ∧ Kept rest later := by
  have discarding : LifetimeState.discarding
      ⟨heap, cache, reporter, scan, .before, false⟩ = scan.discards := by
    simp [LifetimeState.discarding]
  have holds := kept.holds
  rw [discarding] at holds
  have given : Holds rest (cachedBlocks reporter + scan.temps)
      (clearCache (owner scan.discards reporter)) cache heap := by
    apply holds.transfer
    have blocks : cachedBlocks reporter =
        cachedBlocks (owner scan.discards reporter) := by
      cases scan.discards <;> rfl
    rw [blocks, ← add_assoc, owned_clearCache]
  obtain ⟨heapLater, freed, done, -⟩ := given.freeAll
  refine ⟨⟨heapLater, cache, clearCache reporter, scan, .cleared, false⟩, ?_,
    kept.kinds, ?_, ?_, kept.readable, kept.filled, kept.phase,
    fun _ => nofun, rfl⟩
  · simp only [exitStep, freed]
    rfl
  · have sameOwner : owner scan.discards (clearCache reporter) =
        clearCache (owner scan.discards reporter) := by
      cases scan.discards <;> rfl
    have still : LifetimeState.discarding
        ⟨heapLater, cache, clearCache reporter, scan, .cleared, false⟩ =
          scan.discards := by
      simp [LifetimeState.discarding]
    rw [still, sameOwner]
    exact done
  · intro pointer member
    cases member

theorem outside_discards (outside : scan.insidePrevDiff = false) :
    scan.discards = false := by
  cases scan with
  | discarded => cases outside
  | idle | begun | timed | sorted | comparing | compared | collected
  | written | saved | served => rfl

theorem Kept.exitDiscarded
    (kept : Kept rest ⟨heap, cache, reporter, scan, .cleared, false⟩)
    (away : scan.discards = false) :
    ∃ later, exitStep ⟨heap, cache, reporter, scan, .cleared, false⟩ =
      some later ∧ Kept rest later := by
  have holds := kept.prevDiff_live away nofun
  obtain ⟨heapLater, freed, done⟩ := discardPrevDiff_holds holds
  refine ⟨⟨heapLater, cache, reporter, scan, .discarded, false⟩, ?_,
    kept.kinds, ?_, kept.pairs, kept.readable, kept.filled, kept.phase, ?_,
    rfl⟩
  · simp only [exitStep, freed]
    rfl
  · have still : LifetimeState.discarding
        ⟨heapLater, cache, reporter, scan, .discarded, false⟩ = true := by
      simp [LifetimeState.discarding]
    rw [still]
    exact done
  · intro discards
    change scan.discards = true at discards
    rw [away] at discards
    cases discards

theorem Kept.forgotten
    (kept : Kept rest ⟨heap, cache, reporter, scan, .discarded, false⟩) :
    Kept rest
      ⟨heap, cache, forgetPrevDiff reporter, scan, .done, false⟩ := by
  have away : scan.discards = false := by
    cases discards : scan.discards with
    | false => rfl
    | true => exact (kept.apart discards rfl).elim
  refine ⟨kept.kinds, ?_, kept.pairs, .inl rfl, ⟨nofun, nofun⟩, kept.phase,
    fun _ => nofun, rfl⟩
  have before : LifetimeState.discarding
      ⟨heap, cache, reporter, scan, .discarded, false⟩ = true := by
    simp [LifetimeState.discarding]
  have after : LifetimeState.discarding
      ⟨heap, cache, forgetPrevDiff reporter, scan, .done, false⟩ = false := by
    simp [LifetimeState.discarding, away]
  have holds := kept.holds
  rw [before] at holds
  rw [after]
  exact holds

theorem Kept.exits {state later : LifetimeState w}
    (kept : Kept rest state)
    (away : state.exit = .cleared → state.scan.insidePrevDiff = false)
    (taken : exitStep state = some later) : Kept rest later := by
  obtain ⟨heap, cache, reporter, scan, exit, faulted⟩ := state
  obtain rfl : faulted = false := kept.intact
  cases exit with
  | before =>
      exact of_taken kept.cleared taken
  | cleared =>
      exact of_taken (kept.exitDiscarded (outside_discards (away rfl))) taken
  | discarded =>
      cases taken
      exact kept.forgotten
  | done => cases taken

/-- What the HTTP thread follows is in use at any time. -/
theorem Kept.served_live {state : LifetimeState w} (kept : Kept rest state) :
    AllLive state.heap (servedPointers state.reporter) := by
  have holds := kept.holds
  have sites : cachedSiteBlocks (owner state.discarding state.reporter) =
      cachedSiteBlocks state.reporter := by
    cases state.discarding <;> rfl
  have pairs : cachedPairBlocks (owner state.discarding state.reporter) =
      cachedPairBlocks state.reporter := by
    cases state.discarding <;> rfl
  have owned : ∀ pointer, pointer ∈ cachedSiteBlocks state.reporter ∨
      pointer ∈ cachedPairBlocks state.reporter →
      pointer ∈ state.heap.live := by
    intro pointer member
    rw [holds.live]
    unfold ReporterMemory.owned
    simp only [Multiset.mem_add, Multiset.mem_coe, sites, pairs]
    exact .inl (.inl (member.imp .inr id))
  intro pointer member
  unfold servedPointers at member
  rcases List.mem_append.mp member with array | inside
  · exact owned pointer (List.mem_append.mp array)
  · rcases kept.pairs pointer inside with copied | cached
    · exact owned pointer (.inl copied)
    · rw [holds.live]
      exact Multiset.mem_add.mpr (.inr cached)

/-- Without a fault each part takes its own step. -/
theorem Kept.next_scan {state : LifetimeState w} (kept : Kept rest state) :
    lifetimeNext state .scan = scanStep state := by
  simp only [lifetimeNext, kept.intact, Bool.false_eq_true, if_false]

theorem Kept.next_exit {state : LifetimeState w} (kept : Kept rest state) :
    lifetimeNext state .exit = exitStep state := by
  simp only [lifetimeNext, kept.intact, Bool.false_eq_true, if_false]

theorem Kept.next_serve {state : LifetimeState w} (kept : Kept rest state) :
    lifetimeNext state .serve = some state := by
  simp only [lifetimeNext, kept.intact, Bool.false_eq_true, if_false,
    if_pos kept.served_live]

theorem Kept.next {state later : LifetimeState w} {label : LifetimeLabel w}
    (kept : Kept rest state) (apart : Apart state label)
    (taken : lifetimeNext state label = some later) :
    ∃ more, Kept more later := by
  cases label with
  | begin input =>
      simp only [lifetimeNext] at taken
      split at taken
      · rename_i intact idle
        cases taken
        refine ⟨rest, kept.kinds, ?_, kept.pairs, kept.readable, kept.filled,
          apart, nofun, kept.intact⟩
        have holds := kept.holds
        unfold LifetimeState.discarding at holds ⊢
        rw [idle] at holds
        exact holds
      · cases taken
  | scan =>
      rw [kept.next_scan] at taken
      exact kept.scans apart taken
  | serve =>
      rw [kept.next_serve] at taken
      cases taken
      exact ⟨rest, kept⟩
  | exit =>
      rw [kept.next_exit] at taken
      exact ⟨rest, kept.exits apart taken⟩

theorem kept_reachable {state : LifetimeState w}
    (reachable : (lifetimeSystem w).ReachableBy Apart state) :
    ∃ rest, Kept rest state := by
  apply reachable.invariant (fun state => ∃ rest, Kept rest state)
  · intro start initial
    rw [initial]
    exact ⟨0, kept_initial w⟩
  · intro before label after invariant apart taken
    obtain ⟨rest, kept⟩ := invariant
    exact kept.next apart taken

end Handler

/-! ## Scans alone -/

section Alone

/-- A scan that nothing interrupts gets from one state to another. -/
def Scans (state target : LifetimeState w) : Prop :=
  ∃ count, (lifetimeSystem w).run state (List.replicate count .scan) =
    some target

theorem Scans.refl (state : LifetimeState w) : Scans state state :=
  ⟨0, rfl⟩

theorem Scans.step {state next target : LifetimeState w}
    (intact : state.faulted = false) (taken : scanStep state = some next)
    (scans : Scans next target) : Scans state target := by
  obtain ⟨count, ran⟩ := scans
  have step : (lifetimeSystem w).next state .scan = some next := by
    simp only [lifetimeSystem, lifetimeNext, intact, Bool.false_eq_true,
      if_false, taken]
  refine ⟨count + 1, ?_⟩
  simp only [List.replicate_succ, System.run, System.runBy, if_true, step,
    Option.bind_some]
  exact ran

variable {rest : Multiset Pointer} {heap later : ScanHeap}
  {cache : StackNodes w}
  {reporter : ReporterMemory w} {exit : ExitPhase}
  {input : ScanInput w} {sorting : Sorting w} {sites : Collected w}
  {target : LifetimeState w} {pairs : List (Word × BitVec w)}

theorem prevTotal_cons (pair : Word × BitVec w)
    (pairs : List (Word × BitVec w)) (hash : Word) :
    prevTotal (pair :: pairs) hash =
      if pair.1 = hash then pair.2 else prevTotal pairs hash := by
  unfold prevTotal
  rw [List.find?_cons]
  by_cases same : pair.1 = hash
  · simp [same]
  · simp [same]

theorem scans_site (reads : ReadsAs reporter heap pairs)
    {done others : List (LeakNode w)} {node : LeakNode w} {index : Nat}
    (scans : Scans
      ⟨heap, cache, reporter,
        .comparing input sorting
          ⟨done ++ [setGrowth
              (prevTotal (pairs.drop index) node.site.stackHash) node],
            others, 0⟩, exit, false⟩ target) :
    Scans
      ⟨heap, cache, reporter,
        .comparing input sorting ⟨done, node :: others, index⟩, exit,
        false⟩ target := by
  induction left : pairs.length - index generalizing index with
  | zero =>
      have outside : pairs.length ≤ index := by omega
      have turned := reads.turn ⟨done, node :: others, index⟩ node others
      rw [List.getElem?_eq_none outside] at turned
      rw [List.drop_eq_nil_of_le outside] at scans
      exact scans.step rfl (scanStep_comparing rfl turned)
  | succ left induction =>
      have below : index < pairs.length := by omega
      have turned := reads.turn ⟨done, node :: others, index⟩ node others
      rw [List.getElem?_eq_getElem below] at turned
      rw [List.drop_eq_getElem_cons below, prevTotal_cons] at scans
      by_cases same : pairs[index].1 = node.site.stackHash
      · simp only [if_pos same] at turned scans
        exact scans.step rfl (scanStep_comparing rfl turned)
      · simp only [if_neg same] at turned scans
        exact (induction scans (by omega)).step rfl
          (scanStep_comparing rfl turned)

/-- The loop computes the differences of stage 4.5. -/
theorem scans_loop (reads : ReadsAs reporter heap pairs)
    {done nodes : List (LeakNode w)}
    (scans : Scans
      ⟨heap, cache, reporter,
        .comparing input sorting
          ⟨done ++ nodes.map fun node =>
              { node with site := setDiffSize pairs node.site }, [], 0⟩,
        exit, false⟩ target) :
    Scans
      ⟨heap, cache, reporter,
        .comparing input sorting ⟨done, nodes, 0⟩, exit, false⟩ target := by
  induction nodes generalizing done with
  | nil =>
      rw [List.map_nil, List.append_nil] at scans
      exact scans
  | cons node others induction =>
      apply scans_site reads
      apply induction
      rw [List.append_assoc]
      exact scans

theorem scans_compared (live : AllLive heap (prevDiffBlocks reporter))
    (readable : PrevDiffReadable reporter)
    (filled : PrevDiffFilled reporter)
    {sorted : Option (Nat × List (LeakNode w))}
    (differs : diffNodes reporter sorting.siteCount sorting.sorted =
      .ok sorted)
    (scans : Scans
      ⟨heap, cache, reporter, .compared input { sorting with sorted }, exit,
        false⟩ target) :
    Scans
      ⟨heap, cache, reporter, .sorted input sorting, exit, false⟩
        target := by
  obtain ⟨pairs, reading, reads⟩ := exists_readsAs live readable filled
  obtain ⟨snapshot, snaps, table, before, siteCount⟩ := sorting
  cases before with
  | none =>
      cases differs
      exact scans.step rfl (scanStep_unsorted (.inl rfl))
  | some array =>
      obtain ⟨id, nodes⟩ := array
      rcases Nat.eq_zero_or_pos siteCount with zero | positive
      · subst zero
        cases differs
        exact scans.step rfl (scanStep_unsorted (.inr rfl))
      · simp only [diffNodes, if_pos positive, reading] at differs
        cases differs
        apply Scans.step rfl (scanStep_sorted rfl positive)
        apply scans_loop reads
        exact scans.step rfl scanStep_settled

theorem scans_published {published : ReporterMemory w × ScanHeap}
    (publishes : publish input sites reporter = .ok published)
    (frees : published.2.freeAll (temporaries sites) = .ok later) :
    Scans
      ⟨sites.heap, cache, reporter, .collected input sites, exit, false⟩
      ⟨later, cache, published.1, .idle, exit, false⟩ := by
  have ends : Scans
      ⟨published.2, cache, published.1, .served sites, exit, false⟩
      ⟨later, cache, published.1, .idle, exit, false⟩ :=
    (Scans.refl _).step rfl (scanStep_served frees)
  cases opens : input.reportOpens with
  | false =>
      simp only [publish, opens, Bool.false_eq_true, if_false] at publishes
      cases publishes
      exact ends.step rfl (scanStep_closed opens)
  | true =>
      rw [publish_opens sites opens] at publishes
      obtain ⟨listed, json, publishes⟩ := bind_eq_ok publishes
      obtain ⟨⟨stored, heapStored⟩, saves, refreshes⟩ := bind_eq_ok publishes
      rw [savePrevDiff_eq] at saves
      obtain ⟨heapFreed, discards, stores⟩ := bind_eq_ok saves
      have keeps : storePrevDiff input sites reporter heapFreed =
          (stored, heapStored) := Except.ok.inj stores
      have serves : refreshCache input sites stored heapStored =
          .ok published := refreshes
      apply Scans.step rfl (scanStep_opened opens json)
      apply Scans.step rfl (scanStep_written discards)
      apply Scans.step rfl (scanStep_discarded keeps)
      exact ends.step rfl (scanStep_saved serves)

/-- A scan that nothing interrupts computes `scan_and_report_locked`. -/
theorem Kept.scan_alone {memory : ScanMemory w} {result : ScanResult w}
    (kept : Kept rest
      ⟨memory.heap, memory.cache, memory.reporter, .idle, exit, false⟩)
    (away : exit ≠ .discarded)
    (ran : scanAndReportLocked input memory = .ok result) :
    Scans
      ⟨memory.heap, memory.cache, memory.reporter, .begun input, exit, false⟩
      ⟨result.memory.heap, result.memory.cache, result.memory.reporter,
        .idle, exit, false⟩ := by
  have holds : Holds rest 0 memory.reporter memory.cache memory.heap :=
    kept.prevDiff_live rfl away
  obtain ⟨data, heapTs, ts, timed⟩ := refreshTsCache_holds input 0 holds
  apply Scans.step rfl (scanStep_begun ts)
  rcases takeSnapshot_holds input timed with
    skipped | ⟨snapshot, snaps, heapTook, took, taken⟩
  · rw [scanAndReportLocked, ts, ok_bind] at ran
    dsimp only at ran
    rw [skipped] at ran
    cases ran
    exact (Scans.refl _).step rfl (scanStep_skipped skipped)
  · rw [add_zero] at taken
    have readable : PrevDiffReadable
        ({ memory.reporter with cachedTsData := data } :
          ReporterMemory w) :=
      kept.readable
    obtain ⟨sorting, cacheLater, heapLater, more, sorts, -, -, sortingFrom,
      sortedHolds⟩ := sortSites_holds input snapshot snaps taken
    obtain ⟨sorted, differs, -, -⟩ := diffNodes_ok readable sortingFrom.sorted
    have collects : collectSites input
        { memory.reporter with cachedTsData := data } memory.cache heapTook
        snapshot snaps =
          .ok (pairSites input { sorting with sorted } cacheLater
            heapLater) := by
      rw [collectSites_eq input snapshot snaps sorts, differs, ok_bind]
      rfl
    rw [scan_collected ts took collects] at ran
    obtain ⟨published, publishes, ran⟩ := bind_eq_ok ran
    obtain ⟨heapLast, frees, ran⟩ := bind_eq_ok ran
    cases ran
    apply Scans.step rfl (scanStep_timed took sorts)
    apply scans_compared (allLive_prevDiff sortedHolds) readable kept.filled
      differs
    exact (scans_published publishes frees).step rfl scanStep_compared

end Alone

/-! ## After the exit -/

def LifetimeLabel.begins : LifetimeLabel w → Bool
  | .begin _ => true
  | .scan | .serve | .exit => false

/-- No scan begins. -/
def NoScan (state : LifetimeState w) (label : LifetimeLabel w) : Prop :=
  Apart state label ∧ label.begins = false

/-- What the handler has given back so far is not pointed at. -/
structure Released (state : LifetimeState w) : Prop where
  idle : state.scan = .idle
  cleared : state.exit ≠ .before → clearCache state.reporter = state.reporter
  forgotten : state.exit = .done →
    forgetPrevDiff state.reporter = state.reporter

theorem LifetimeState.orFault_intact {Result : Type}
    {state : LifetimeState w} {outcome : Except Fault Result}
    {next : Result → LifetimeState w}
    (intact : (state.orFault outcome next).faulted = false) :
    ∃ result, state.orFault outcome next = next result := by
  cases outcome with
  | ok result => exact ⟨result, rfl⟩
  | error fault => cases intact

theorem Released.next {rest : Multiset Pointer} {state later : LifetimeState w}
    {label : LifetimeLabel w} (released : Released state)
    (kept : Kept rest state) (apart : NoScan state label)
    (taken : lifetimeNext state label = some later) : Released later := by
  cases label with
  | begin input => cases apart.2
  | scan =>
      rw [kept.next_scan, scanStep, released.idle] at taken
      cases taken
  | serve =>
      rw [kept.next_serve] at taken
      cases taken
      exact released
  | exit =>
      rw [kept.next_exit] at taken
      have intact := (kept.exits apart.1 taken).intact
      have idle := released.idle
      have cleared := released.cleared
      obtain ⟨heap, cache, reporter, scan, exit, faulted⟩ := state
      cases exit with
      | before =>
          cases taken
          obtain ⟨heapLater, same⟩ := LifetimeState.orFault_intact intact
          rw [same]
          exact ⟨idle, fun _ => rfl, nofun⟩
      | cleared =>
          cases taken
          obtain ⟨heapLater, same⟩ := LifetimeState.orFault_intact intact
          rw [same]
          exact ⟨idle, fun _ => cleared nofun, nofun⟩
      | discarded =>
          cases taken
          refine ⟨idle, fun _ => ?_, fun _ => rfl⟩
          exact congrArg forgetPrevDiff (cleared nofun)
      | done => cases taken

/-- When nothing is pointed at any more, only the stack cache is in use. -/
theorem Released.stackEntries {rest : Multiset Pointer}
    {state : LifetimeState w} (released : Released state)
    (kept : Kept rest state) (done : state.exit = .done) :
    ∀ block ∈ state.heap.live, block.kind = .stackEntry := by
  have cleared := released.cleared (by rw [done]; nofun)
  have forgotten := released.forgotten done
  have holds := kept.holds
  have whole : state.discarding = false := by
    simp [LifetimeState.discarding, released.idle, done, ScanPhase.discards]
  have nothing : (forgetPrevDiff (clearCache state.reporter)).owned = 0 := by
    rfl
  rw [cleared, forgotten] at nothing
  rw [whole, released.idle] at holds
  have live : state.heap.live = rest := by
    rw [holds.live]
    change state.reporter.owned + 0 + rest = rest
    rw [nothing, zero_add, zero_add]
  intro block member
  rw [live] at member
  exact kept.kinds block member

/-- As long as a scan and the handler come to the arrays of the last scan one
after the other, nothing is given back twice and nothing is followed that has
been given back, whatever else interleaves; between two scans no temporary is
in use, and when no scan follows the handler leaves the stack cache only. -/
theorem lifetime_safe {state : LifetimeState w}
    (reachable : (lifetimeSystem w).ReachableBy Apart state) :
    state.faulted = false ∧
      AllLive state.heap (servedPointers state.reporter) ∧
      (state.scan = .idle → ∀ block ∈ state.heap.live,
        block.kind.isTemporary = false) ∧
      (state.scan = .idle → state.exit = .before → ∀ target,
        (lifetimeSystem w).StepsBy NoScan state target →
        target.exit = .done →
        ∀ block ∈ target.heap.live, block.kind = .stackEntry) := by
  obtain ⟨rest, kept⟩ := kept_reachable reachable
  refine ⟨kept.intact, kept.served_live, ?_, ?_⟩
  · intro idle block member
    have holds := kept.holds
    rw [holds.live, idle] at member
    rcases Multiset.mem_add.mp member with owned | stack
    · rw [ScanPhase.temps, add_zero] at owned
      exact owned_isTemporary _ block owned
    · rw [kept.kinds block stack]
      rfl
  · intro idle before target steps done
    have invariant : (∃ rest, Kept rest target) ∧ Released target := by
      apply steps.preserves
        (fun state => (∃ rest, Kept rest state) ∧ Released state)
      · intro middle label later invariant apart taken
        obtain ⟨⟨rest, kept⟩, released⟩ := invariant
        exact ⟨kept.next apart.1 taken, released.next kept apart taken⟩
      · refine ⟨⟨rest, kept⟩, idle, ?_, ?_⟩
        · intro after
          exact (after before).elim
        · intro isDone
          rw [before] at isDone
          cases isDone
    obtain ⟨⟨last, keptLast⟩, released⟩ := invariant
    exact released.stackEntries keptLast done

/-- A condition on single steps that can be computed and keeps scan and
handler apart. -/
def Orderly : LifetimeState w → LifetimeLabel w → Prop
  | _, .begin input =>
      input.fails .sorted = false ∧ input.fails .cachedSites = false
  | state, .scan => state.exit ≠ .discarded
  | state, .exit => state.scan.insidePrevDiff = false
  | _, .serve => True

instance : ∀ (state : LifetimeState w) (label : LifetimeLabel w),
    Decidable (Orderly state label)
  | _, .begin input =>
      inferInstanceAs (Decidable (input.fails .sorted = false ∧
        input.fails .cachedSites = false))
  | state, .scan => inferInstanceAs (Decidable (state.exit ≠ .discarded))
  | state, .exit =>
      inferInstanceAs (Decidable (state.scan.insidePrevDiff = false))
  | _, .serve => inferInstanceAs (Decidable True)

theorem apart_of_orderly (state : LifetimeState w) (label : LifetimeLabel w)
    (orderly : Orderly state label) : Apart state label := by
  cases label with
  | begin input =>
      intro finds opens
      obtain ⟨sorted, sites⟩ := orderly
      refine ⟨?_, ?_⟩
      · intro fails
        rw [sorted] at fails
        cases fails
      · intro _ _ fails
        rw [sites] at fails
        cases fails
  | scan => exact fun discarded => (orderly discarded).elim
  | serve => trivial
  | exit => exact fun _ => orderly

/-- A scan of one block with all its stages. -/
def wholeScan : List (LifetimeLabel 64) :=
  [.begin (oneBlockScan fun _ => false), .scan, .scan, .scan, .scan, .scan,
    .scan, .scan, .serve, .scan, .scan, .scan, .serve, .scan]

theorem lifetime_safe_wholeScan :
    ∃ target : LifetimeState 64, target.heap.freed.card = 9 ∧
      ∀ block ∈ target.heap.live, block.kind = .stackEntry := by
  have start : (lifetimeSystem 64).init (.initial 64) := rfl
  obtain ⟨state, reachable, tested⟩ :=
    System.exists_reachableBy_of_runBy (lifetimeSystem 64) Orderly
      (fun state => state.scan.isIdle && state.exit == .before &&
        ((lifetimeSystem 64).runBy
          (fun state label => Orderly state label ∧ label.begins = false)
          state [.exit, .serve, .exit, .exit]).any fun target =>
            target.exit == .done && target.heap.freed.card == 9)
      wholeScan start (by decide +kernel)
  simp only [Bool.and_eq_true, beq_iff_eq] at tested
  obtain ⟨⟨isIdle, before⟩, ends⟩ := tested
  have idle : state.scan = .idle := ScanPhase.eq_idle isIdle
  cases executed : (lifetimeSystem 64).runBy
      (fun state label => Orderly state label ∧ label.begins = false)
      state [.exit, .serve, .exit, .exit] with
  | none =>
      rw [executed] at ends
      cases ends
  | some target =>
      rw [executed, Option.any_some, Bool.and_eq_true, beq_iff_eq,
        beq_iff_eq] at ends
      have safe := lifetime_safe (reachable.mono apart_of_orderly)
      refine ⟨target, ends.2, safe.2.2.2 idle before target ?_ ends.1⟩
      apply (System.stepsBy_of_runBy executed).mono
      intro passed label orderly
      exact ⟨apart_of_orderly passed label orderly.1, orderly.2⟩

/-! ## Scan and handler at once -/

section Overlap

variable {rest : Multiset Pointer} {state : LifetimeState w}

/-- The arrays of the last scan are of kinds of their own. -/
def isPrevDiff (block : Pointer) : Prop :=
  block.kind = .prevDiffHashes ∨ block.kind = .prevDiffSizes

theorem isPrevDiff_of_mem {reporter : ReporterMemory w} {block : Pointer}
    (member : block ∈ prevDiffBlocks reporter) : isPrevDiff block := by
  simp only [prevDiffBlocks, List.mem_append, List.mem_map] at member
  rcases member with ⟨array, -, rfl⟩ | ⟨array, -, rfl⟩
  · exact .inl rfl
  · exact .inr rfl

theorem not_isPrevDiff_of_owned {reporter : ReporterMemory w}
    {block : Pointer} (member : block ∈ (forgetPrevDiff reporter).owned) :
    ¬ isPrevDiff block := by
  change block ∈ (tsDataBlocks reporter : Multiset Pointer) + 0 +
    cachedSiteBlocks reporter + cachedPairBlocks reporter at member
  rw [add_zero] at member
  simp only [Multiset.mem_add, Multiset.mem_coe, tsDataBlocks,
    cachedSiteBlocks, cachedPairBlocks, List.mem_append,
    List.mem_map] at member
  obtain (⟨id, -, rfl⟩ | ⟨node, -, rfl⟩ | ⟨array, -, rfl⟩) |
    ⟨array, -, rfl⟩ := member
  all_goals simp [isPrevDiff]

theorem not_isPrevDiff_of_temps {scan : ScanPhase w} {block : Pointer}
    (member : block ∈ scan.temps) : ¬ isPrevDiff block := by
  have listed : ∀ sites : Collected w,
      block ∈ (temporaries sites : Multiset Pointer) →
        ¬ isPrevDiff block := by
    intro sites inside
    simp only [Multiset.mem_coe, temporaries, List.mem_append,
      List.mem_map] at inside
    obtain ((⟨id, -, rfl⟩ | ⟨array, -, rfl⟩) | ⟨array, -, rfl⟩) |
      ⟨node, -, rfl⟩ := inside
    all_goals simp [isPrevDiff]
  cases scan with
  | idle | begun | timed => cases Multiset.notMem_zero block member
  | sorted _ sorting | comparing _ sorting _ | compared _ sorting =>
      simp only [ScanPhase.temps, Sorting.blocks, snapshotBlocks,
        sortedBlocks, nodeBlocks, Multiset.mem_add, Multiset.mem_coe,
        List.mem_map] at member
      obtain (⟨id, -, rfl⟩ | ⟨array, -, rfl⟩) | ⟨node, -, rfl⟩ := member
      all_goals simp [isPrevDiff]
  | collected | written | discarded | saved | served =>
      exact listed _ member

/-- The arrays of the last scan are not in use once they are given back. -/
theorem Kept.dead (kept : Kept rest state)
    (discarding : state.discarding = true) {block : Pointer}
    (isBlock : isPrevDiff block) : block ∉ state.heap.live := by
  have holds := kept.holds
  rw [discarding] at holds
  rw [holds.live]
  intro member
  rcases Multiset.mem_add.mp member with inUse | stack
  · rcases Multiset.mem_add.mp inUse with owned | temporary
    · exact not_isPrevDiff_of_owned owned isBlock
    · exact not_isPrevDiff_of_temps temporary isBlock
  · have kind := kept.kinds block stack
    rcases isBlock with hashes | sizes
    · rw [hashes] at kind
      cases kind
    · rw [sizes] at kind
      cases kind

/-- Arrays that have been given back are not given back again. -/
theorem Kept.badFree (kept : Kept rest state)
    (discarding : state.discarding = true)
    (arrays : prevDiffBlocks state.reporter ≠ []) :
    state.heap.freeAll (prevDiffBlocks state.reporter) = .error .badFree := by
  cases blocks : prevDiffBlocks state.reporter with
  | nil => exact (arrays blocks).elim
  | cons block others =>
      have isBlock : isPrevDiff block := by
        apply isPrevDiff_of_mem
        rw [blocks]
        exact List.mem_cons_self
      rw [Memory.freeAll, Memory.free, if_neg (kept.dead discarding isBlock)]

/-- The next turn of the loop reads the arrays. -/
def DiffLoop.Reads (loop : DiffLoop w) (reporter : ReporterMemory w) : Prop :=
  loop.rest ≠ [] ∧ loop.index < reporter.prevDiffCount

instance (loop : DiffLoop w) (reporter : ReporterMemory w) :
    Decidable (loop.Reads reporter) :=
  decidable_of_iff (loop.rest.isEmpty = false ∧
    loop.index < reporter.prevDiffCount) (by simp [DiffLoop.Reads])

theorem Kept.badRead (kept : Kept rest state)
    (discarding : state.discarding = true) {input : ScanInput w}
    {sorting : Sorting w} {loop : DiffLoop w}
    (scan : state.scan = .comparing input sorting loop)
    (reads : loop.Reads state.reporter) {later : LifetimeState w}
    (taken : lifetimeNext state .scan = some later) :
    later.faulted = true := by
  have dead : ∀ array ∈ state.reporter.prevDiffHashes,
      (⟨.prevDiffHashes, array.1⟩ : Pointer) ∉ state.heap.live :=
    fun array _ => kept.dead discarding (.inl rfl)
  obtain ⟨fault, read⟩ := Memory.readArray_dead dead loop.index
  obtain ⟨waits, below⟩ := reads
  cases rest : loop.rest with
  | nil => exact (waits rest).elim
  | cons node others =>
      have turned : loop.turn state.reporter state.heap node others =
          .error fault := by
        rw [DiffLoop.turn, if_pos below, read]
        rfl
      simp only [kept.next_scan, scanStep, scan, rest, turned] at taken
      cases taken
      rfl

/-- Where scan and handler do meet, the second of them gives back the arrays
of the last scan once more, if there are any, or the scan reads them after
they have been given back. -/
theorem overlap_faults
    (reachable : (lifetimeSystem w).ReachableBy Apart state)
    (arrays : prevDiffBlocks state.reporter ≠ []) :
    (state.exit = .cleared → state.scan.discards = true →
      ∀ later, lifetimeNext state .exit = some later →
        later.faulted = true) ∧
      (∀ input sites, state.exit = .discarded →
        state.scan = .written input sites →
        ∀ later, lifetimeNext state .scan = some later →
          later.faulted = true) ∧
      ∀ input sorting loop, state.scan = .comparing input sorting loop →
        loop.Reads state.reporter →
        (state.exit = .discarded →
          ∀ later, lifetimeNext state .scan = some later →
            later.faulted = true) ∧
          (state.exit = .cleared →
            ∀ middle, lifetimeNext state .exit = some middle →
            ∀ later, lifetimeNext middle .scan = some later →
              later.faulted = true) := by
  obtain ⟨rest, kept⟩ := kept_reachable reachable
  refine ⟨?_, ?_, ?_⟩
  · intro cleared discards later taken
    have discarding : state.discarding = true := by
      simp [LifetimeState.discarding, discards]
    simp only [kept.next_exit, exitStep, cleared,
      kept.badFree discarding arrays] at taken
    cases taken
    rfl
  · intro input sites discarded written later taken
    have discarding : state.discarding = true := by
      simp [LifetimeState.discarding, discarded]
    simp only [kept.next_scan, scanStep, written,
      kept.badFree discarding arrays] at taken
    cases taken
    rfl
  · intro input sorting loop scan reads
    constructor
    · intro discarded later taken
      have discarding : state.discarding = true := by
        simp [LifetimeState.discarding, discarded]
      exact kept.badRead discarding scan reads taken
    · intro cleared middle freed later taken
      rw [kept.next_exit] at freed
      obtain ⟨heap, cache, reporter, phase, exit, faulted⟩ := state
      obtain rfl : faulted = false := kept.intact
      change phase = _ at scan
      change exit = _ at cleared
      subst scan cleared
      have live := kept.prevDiff_live rfl nofun
      obtain ⟨heapLater, gave, done⟩ := discardPrevDiff_holds live
      have stepped : exitStep ⟨heap, cache, reporter,
          .comparing input sorting loop, .cleared, false⟩ =
            some ⟨heapLater, cache, reporter,
              .comparing input sorting loop, .discarded, false⟩ := by
        simp only [exitStep, gave]
        rfl
      have keptLater := of_taken (kept.exitDiscarded rfl) freed
      rw [stepped] at freed
      cases freed
      exact keptLater.badRead rfl rfl reads taken

end Overlap

/-- The handler comes to the arrays of the first scan when the second has
given them back. -/
def overlapRun : List (LifetimeLabel 64) :=
  wholeScan ++ [.begin (oneBlockScan fun _ => false), .scan, .scan, .exit,
    .scan, .scan, .scan, .scan, .scan, .serve, .scan]

theorem overlap_faults_overlapRun :
    ∃ state later : LifetimeState 64,
      (lifetimeSystem 64).ReachableBy Apart state ∧
        lifetimeNext state .exit = some later ∧ later.faulted = true := by
  have start : (lifetimeSystem 64).init (.initial 64) := rfl
  obtain ⟨state, reachable, tested⟩ :=
    System.exists_reachableBy_of_runBy (lifetimeSystem 64) Orderly
      (fun state => state.exit == .cleared && state.scan.discards &&
        (prevDiffBlocks state.reporter != [] &&
          (lifetimeNext state .exit).isSome))
      overlapRun start (by decide +kernel)
  simp only [Bool.and_eq_true, beq_iff_eq, bne_iff_ne] at tested
  obtain ⟨⟨cleared, discards⟩, arrays, takes⟩ := tested
  obtain ⟨later, taken⟩ := Option.isSome_iff_exists.mp takes
  have apart := reachable.mono apart_of_orderly
  obtain ⟨faults, -⟩ := overlap_faults apart arrays
  exact ⟨state, later, apart, taken, faults cleared discards later taken⟩

end MemoryTraceTool.ReportLifetime
