import MemoryTraceTool.Lib.Transition
import MemoryTraceTool.ScanFailures

/-!
# The sites served over HTTP

The HTTP handlers read a deep copy of the sorted sites and find the stack entry
of a site by comparing pointers.  All allocations succeed here; the files may
fail to open or to be renamed.
-/

namespace MemoryTraceTool

open Heap Transition

/-- The search of `handle_api_data` for the stack entry of a cached site. -/
def servedStack (reporter : ReporterMemory w) (site : Option Pointer) :
    Option (StackNode w) :=
  match reporter.cachedPairs with
  | none => none
  | some (_, pairs) =>
      match (pairs.take reporter.cachedSiteCount).find? fun pair =>
        pair.site = site with
      | some pair => pair.stackEntry
      | none => none

/-- The sites that the handlers list, with the stack entries they find. -/
def servedSites (reporter : ReporterMemory w) :
    List (MttLeakSite w × Option (StackNode w)) :=
  (cachedCopies reporter).map fun node =>
    (node.site, servedStack reporter (some ⟨.cachedSite, node.id⟩))

/-- The memory, and the sites of the last scan unless that was skipped. -/
structure ServedState (w : Nat) where
  memory : ScanMemory w
  sites : Option (List (MttLeakSite w × Option (StackNode w)))

/-- One scan after the other. -/
def scanSystem (w : Nat) : System (ServedState w) (ScanInput w) where
  init state := state = ⟨.initial w, none⟩
  next state input :=
    match scanAndReportLocked input state.memory with
    | .ok result => some ⟨result.memory, result.sites⟩
    | .error _ => none

/-- The served sites are those of the last scan, and their sizes sum to the
reported total. -/
def ServesOwn (state : ServedState w) : Prop :=
  ∀ own, state.sites = some own →
    servedSites state.memory.reporter = own ∧
      (own.map fun served => served.1.totalSize).sum =
        state.memory.leakBytesTotal

/-- No allocation of the scan fails. -/
def NeverFails (input : ScanInput w) : Prop :=
  ∀ point, input.fails point = false

variable {input : ScanInput w} {rest temps : Multiset Pointer}
  {reporter : ReporterMemory w} {cache : StackNodes w} {heap : ScanHeap}

theorem NeverFails.safe (never : NeverFails input) : SafeFailures input := by
  intro _ _
  constructor
  · intro fails
    rw [never] at fails
    cases fails
  · intro _ _ fails
    rw [never] at fails
    cases fails

theorem NeverFails.request (never : NeverFails input) (point : AllocPoint)
    (heap : ScanHeap) :
    ∃ id later, input.request point heap = (some id, later) := by
  unfold ScanInput.request
  rw [never point]
  exact ⟨_, _, rfl⟩

/-! ## The copies -/

theorem copyNodes_sites (never : NeverFails input)
    (items : List (LeakNode w × Nat)) (copies : List (LeakNode w))
    (heap : ScanHeap) :
    ∃ more heapLater,
      items.foldl (copyNode input) (copies.map some, heap) =
        ((copies ++ more).map some, heapLater) ∧
      more.map LeakNode.site = items.map fun item => item.1.site := by
  induction items generalizing copies heap with
  | nil => exact ⟨[], heap, by simp, rfl⟩
  | cons item items induction =>
      obtain ⟨id, later, asked⟩ := never.request (.cachedSite item.2) heap
      obtain ⟨more, heapLater, copied, sites⟩ :=
        induction (copies ++ [{ item.1 with id }]) later
      refine ⟨{ item.1 with id } :: more, heapLater, ?_, ?_⟩
      · rw [List.foldl_cons, copyNode, asked]
        simp only [List.map_append, List.append_assoc] at copied ⊢
        exact copied
      · rw [List.map_cons, sites, List.map_cons]

/-- Each copied site finds the pair at its own place. -/
theorem find_repointed {pairs : List (SiteStackPair w)}
    {copies : List (LeakNode w)} (length : copies.length = pairs.length)
    (distinct : (copies.map LeakNode.id).Nodup) {index : Nat}
    (inside : index < copies.length) :
    (List.zipWith (fun pair copy =>
        { pair with site := copyPointer copy }) pairs
          (copies.map some)).find? (fun pair =>
            pair.site = some (⟨.cachedSite, copies[index].id⟩ : Pointer)) =
      some { pairs[index] with
        site := some ⟨.cachedSite, copies[index].id⟩ } := by
  rw [List.find?_eq_some_iff_getElem]
  constructor
  · simp
  · refine ⟨index, by simp [length] at inside ⊢; omega, ?_, ?_⟩
    · simp [copyPointer]
    · intro earlier before
      have different : copies[earlier].id ≠ copies[index].id := by
        intro same
        have equal := (@List.Nodup.getElem_inj_iff _ _ distinct earlier
          (by rw [List.length_map]; omega) index
          (by rw [List.length_map]; omega)).mp (by simpa using same)
        omega
      simp [copyPointer, different]

theorem served_of_copies {pairs : List (SiteStackPair w)}
    {copies : List (LeakNode w)} {id number : Nat}
    (sites : reporter.cachedSites = some (id, copies.map some))
    (set : reporter.cachedPairs = some (number,
      List.zipWith (fun pair copy => { pair with site := copyPointer copy })
        pairs (copies.map some)))
    (count : reporter.cachedSiteCount = copies.length)
    (length : copies.length = pairs.length)
    (distinct : (copies.map LeakNode.id).Nodup) :
    servedSites reporter =
      List.zipWith (fun node pair => (node.site, pair.stackEntry)) copies
        pairs := by
  have copied : cachedCopies reporter = copies := by
    simp only [cachedCopies, sites, count]
    rw [List.take_of_length_le (by simp)]
    simp
  apply List.ext_getElem
  · simp [servedSites, copied, length]
  · intro index inside _
    simp only [servedSites, copied, List.length_map] at inside
    simp only [servedSites, copied, List.getElem_map, List.getElem_zipWith]
    have found := find_repointed length distinct inside
    simp only [servedStack, set, count]
    rw [List.take_of_length_le (by simp), found]

theorem copies_distinct (holds : Holds rest temps reporter cache heap) :
    ((cachedCopies reporter).map LeakNode.id).Nodup := by
  have part : (cachedSiteBlocks reporter : Multiset Pointer) ≤ heap.live := by
    rw [holds.live, ReporterMemory.owned]
    refine Multiset.le_iff_exists_add.mpr ⟨tsDataBlocks reporter +
      prevDiffBlocks reporter + cachedPairBlocks reporter + temps + rest, ?_⟩
    abel
  have blocks := Multiset.nodup_of_le (Multiset.map_le_map part)
    holds.valid.nodup_live
  rw [Multiset.map_coe, Multiset.coe_nodup, cachedSiteBlocks,
    List.map_append, List.map_map] at blocks
  exact (List.nodup_append.mp blocks).1

/-- The copying loops of a scan without failures serve its own sites. -/
theorem refreshed_serves (never : NeverFails input)
    {snaps : List (MttAllocSnap w)} {snapshot : Option Nat}
    {collected : Collected w} {before saved final : ReporterMemory w}
    (collectedFrom : CollectedFrom input rest before snaps snapshot collected)
    (refreshed : RefreshedFrom input collected saved final)
    (holds : Holds rest temps final cache heap) :
    servedSites final = ownSites collected := by
  obtain ⟨first, copied, middle, sites, same⟩ := refreshed
  cases sorted : collected.sorted with
  | none =>
      have unpaired := collectedFrom.pairs.mpr (.inl sorted)
      simp only [refreshCachedSites, sorted] at sites
      cases sites
      simp only [refreshCachedPairs, unpaired] at same
      have empty : final.cachedSites = none := same.sites
      simp [servedSites, cachedCopies, empty, ownSites, sorted]
  | some array =>
      obtain ⟨number, nodes⟩ := array
      have nodesLength := (collectedFrom.listed number nodes sorted).2
      have counted : 0 < collected.siteCount := by
        apply Nat.pos_of_ne_zero
        intro zero
        have absent := collectedFrom.sorted.mpr (.inl zero)
        rw [sorted] at absent
        cases absent
      cases paired : collected.pairs with
      | none =>
          obtain unsorted | fails := collectedFrom.pairs.mp paired
          · rw [sorted] at unsorted
            cases unsorted
          · rw [never] at fails
            cases fails
      | some pairArray =>
          obtain ⟨pairsId, pairs⟩ := pairArray
          obtain ⟨other, otherNodes, sortedAs, pairsFrom⟩ :=
            collectedFrom.paired pairsId pairs paired
          rw [sorted] at sortedAs
          cases sortedAs
          have pairsLength : pairs.length = nodes.length := by
            have lengths := congrArg List.length pairsFrom.sites
            rwa [List.length_map, List.length_map] at lengths
          obtain ⟨id, allocated, askedSites⟩ :=
            never.request .cachedSites first
          obtain ⟨copies, later, copiedAs, copiedSites⟩ :=
            copyNodes_sites never nodes.zipIdx [] allocated
          have siteList : copies.map LeakNode.site =
              nodes.map LeakNode.site := by
            have firsts := congrArg (List.map LeakNode.site)
              (List.zipIdx_map_fst 0 nodes)
            rw [List.map_map] at firsts
            exact copiedSites.trans firsts
          have copiesLength : copies.length = nodes.length := by
            have lengths := congrArg List.length siteList
            rwa [List.length_map, List.length_map] at lengths
          simp only [refreshCachedSites, sorted, if_pos counted, askedSites]
            at sites
          rw [List.map_nil] at copiedAs
          rw [copiedAs] at sites
          cases sites
          obtain ⟨pairId, paidFor, askedPairs⟩ :=
            never.request .cachedPairs later
          simp only [refreshCachedPairs, paired, if_pos counted, askedPairs]
            at same
          have count : final.cachedSiteCount = copies.length :=
            same.count.trans (nodesLength.symm.trans copiesLength.symm)
          have distinct : (copies.map LeakNode.id).Nodup := by
            have unique := copies_distinct holds
            simp only [cachedCopies, same.sites, count] at unique
            rw [List.nil_append, List.take_of_length_le (by simp)] at unique
            simpa using unique
          rw [served_of_copies same.sites same.pairs count
            (copiesLength.trans pairsLength.symm) distinct]
          have left := congrArg (fun list => List.zipWith
            (fun site pair => (site, pair.stackEntry)) list pairs) siteList
          simp only [List.zipWith_map_left] at left
          simp only [ownSites, sorted, paired]
          exact left

/-! ## Whole scans -/

theorem ownSites_total {snaps : List (MttAllocSnap w)}
    {snapshot : Option Nat} {collected : Collected w}
    {before : ReporterMemory w} (never : NeverFails input)
    (collectedFrom : CollectedFrom input rest before snaps snapshot
      collected) :
    ((ownSites collected).map fun served => served.1.totalSize).sum =
      collected.leakBytesTotal := by
  cases sorted : collected.sorted with
  | none =>
      have none : collected.nodes = [] := by
        obtain zero | fails := collectedFrom.sorted.mp sorted
        · exact List.eq_nil_of_length_eq_zero
            (collectedFrom.count.symm.trans zero)
        · rw [never] at fails
          cases fails
      simp [ownSites, sorted, Collected.leakBytesTotal, none]
  | some array =>
      obtain ⟨number, nodes⟩ := array
      cases paired : collected.pairs with
      | none =>
          obtain unsorted | fails := collectedFrom.pairs.mp paired
          · rw [sorted] at unsorted
            cases unsorted
          · rw [never] at fails
            cases fails
      | some pairArray =>
          obtain ⟨pairsId, pairs⟩ := pairArray
          obtain ⟨other, otherNodes, sortedAs, pairsFrom⟩ :=
            collectedFrom.paired pairsId pairs paired
          rw [sorted] at sortedAs
          cases sortedAs
          have lengths := congrArg List.length pairsFrom.sites
          rw [List.length_map, List.length_map] at lengths
          have totals : (ownSites collected).map
              (fun served => served.1.totalSize) =
                nodes.map fun node => node.site.totalSize := by
            simp only [ownSites, sorted, paired]
            apply List.ext_getElem
            · simp [lengths]
            · intro index inside _
              simp
          rw [totals, Collected.leakBytesTotal]
          exact (collectedFrom.totals number nodes sorted).sum_eq

theorem scan_serves {memory : ScanMemory w} (sound : SoundMemory memory)
    (never : NeverFails input) (opens : input.reportOpens = true)
    {result : ScanResult w}
    (ran : scanAndReportLocked input memory = .ok result) :
    ServesOwn ⟨result.memory, result.sites⟩ := by
  obtain ⟨rest, holds, -⟩ := sound.kept
  obtain ⟨data, heap, ts, refreshed⟩ := refreshTsCache_holds input 0 holds
  intro own last
  rcases takeSnapshot_holds input refreshed with
    skipped | ⟨snapshot, snaps, later, took, taken⟩
  · rw [scanAndReportLocked, ts, ok_bind] at ran
    dsimp only at ran
    rw [skipped] at ran
    cases ran
    cases last
  · rw [add_zero] at taken
    have readable : PrevDiffReadable
        ({ memory.reporter with cachedTsData := data } : ReporterMemory w) :=
      sound.readable
    obtain ⟨collected, more, collects, -, collectedFrom⟩ :=
      collectSites_holds input readable snapshot snaps taken
    have sortedIfAny : ¬ JsonFaults input collected := by
      intro faults
      obtain zero | fails := collectedFrom.sorted.mp faults.2.2.2.1
      · exact faults.2.2.2.2 zero
      · rw [never] at fails
        cases fails
    obtain ⟨reporter, heapOut, published, owns, -, -, saved, copied⟩ :=
      publish_holds collectedFrom opens sortedIfAny
    obtain ⟨final, freed, -, -⟩ := owns.giveBack
    rw [scan_collected ts took collects, published, ok_bind] at ran
    dsimp only at ran
    rw [freed] at ran
    cases ran
    cases last
    exact ⟨refreshed_serves never collectedFrom copied owns,
      ownSites_total never collectedFrom⟩

/-- While the report file opens in every scan, the sites served over HTTP are
always those of the last scan. -/
theorem served_of_opens {state : ServedState w}
    (reachable : (scanSystem w).ReachableBy (fun _ input =>
      NeverFails input ∧ input.reportOpens = true) state) :
    ServesOwn state := by
  have both : SoundMemory state.memory ∧ ServesOwn state := by
    refine reachable.invariant (fun state =>
      SoundMemory state.memory ∧ ServesOwn state) ?_ ?_
    · intro state initial
      subst initial
      refine ⟨soundMemory_initial w, ?_⟩
      intro own last
      cases last
    · intro state input target inv allowed taken
      obtain ⟨result, ran, -, soundLater⟩ :=
        (scan_clean_iff inv.1 input).1 allowed.1.safe
      simp only [scanSystem, ran, Option.some.injEq] at taken
      subst taken
      exact ⟨soundLater, scan_serves inv.1 allowed.1 allowed.2 ran⟩
  exact both.2

/-! ## A scan whose report file does not open -/

theorem ownSites_ne_nil {snaps : List (MttAllocSnap w)}
    {snapshot : Option Nat} {collected : Collected w}
    {before : ReporterMemory w} (never : NeverFails input)
    (collectedFrom : CollectedFrom input rest before snaps snapshot collected)
    (found : 0 < collected.siteCount) : ownSites collected ≠ [] := by
  cases sorted : collected.sorted with
  | none =>
      obtain zero | fails := collectedFrom.sorted.mp sorted
      · omega
      · rw [never] at fails
        cases fails
  | some array =>
      obtain ⟨number, nodes⟩ := array
      have length := (collectedFrom.listed number nodes sorted).2
      cases paired : collected.pairs with
      | none =>
          obtain unsorted | fails := collectedFrom.pairs.mp paired
          · rw [sorted] at unsorted
            cases unsorted
          · rw [never] at fails
            cases fails
      | some pairArray =>
          obtain ⟨pairsId, pairs⟩ := pairArray
          obtain ⟨other, otherNodes, sortedAs, pairsFrom⟩ :=
            collectedFrom.paired pairsId pairs paired
          rw [sorted] at sortedAs
          cases sortedAs
          have lengths := congrArg List.length pairsFrom.sites
          rw [List.length_map, List.length_map] at lengths
          intro empty
          have none := congrArg List.length empty
          simp only [ownSites, sorted, paired, List.length_zipWith,
            List.length_nil] at none
          omega

theorem scan_sites_ne_nil {memory : ScanMemory w}
    (sound : SoundMemory memory) (never : NeverFails input)
    (finds : input.FindsSites) {result : ScanResult w}
    (ran : scanAndReportLocked input memory = .ok result) :
    ∃ own, result.sites = some own ∧ own ≠ [] := by
  obtain ⟨rest, holds, -⟩ := sound.kept
  obtain ⟨data, heap, ts, refreshed⟩ := refreshTsCache_holds input 0 holds
  obtain ⟨snaps, listed, index⟩ := finds
  rw [← takeSnapshot_snaps input heap] at listed
  rcases takeSnapshot_holds input refreshed with
    skipped | ⟨snapshot, copied, later, took, taken⟩
  · rw [skipped] at listed
    cases listed
  · rw [took] at listed
    cases listed
    rw [add_zero] at taken
    have readable : PrevDiffReadable
        ({ memory.reporter with cachedTsData := data } : ReporterMemory w) :=
      sound.readable
    obtain ⟨collected, more, collects, -, collectedFrom⟩ :=
      collectSites_holds input readable snapshot _ taken
    rw [scan_collected ts took collects] at ran
    obtain ⟨published, -, ran⟩ := bind_eq_ok ran
    obtain ⟨freed, -, ran⟩ := bind_eq_ok ran
    cases ran
    exact ⟨_, rfl, ownSites_ne_nil never collectedFrom
      (collectedFrom.found.mpr index)⟩

/-- A scan that cannot open its report file leaves what is served as it
was. -/
theorem scan_closed {memory : ScanMemory w} (sound : SoundMemory memory)
    (closed : input.reportOpens = false) {result : ScanResult w}
    (ran : scanAndReportLocked input memory = .ok result) :
    servedSites result.memory.reporter = servedSites memory.reporter := by
  obtain ⟨rest, holds, -⟩ := sound.kept
  obtain ⟨data, heap, ts, refreshed⟩ := refreshTsCache_holds input 0 holds
  rcases takeSnapshot_holds input refreshed with
    skipped | ⟨snapshot, copied, later, took, taken⟩
  · rw [scanAndReportLocked, ts, ok_bind] at ran
    dsimp only at ran
    rw [skipped] at ran
    cases ran
    rfl
  · rw [add_zero] at taken
    have readable : PrevDiffReadable
        ({ memory.reporter with cachedTsData := data } : ReporterMemory w) :=
      sound.readable
    obtain ⟨collected, more, collects, -, collectedFrom⟩ :=
      collectSites_holds input readable snapshot _ taken
    have published : publish input collected
        { memory.reporter with cachedTsData := data } =
          .ok ({ memory.reporter with cachedTsData := data },
            collected.heap) := by
      rw [publish, closed]
      rfl
    obtain ⟨final, freed, -, -⟩ := collectedFrom.holds.giveBack
    rw [scan_collected ts took collects, published, ok_bind] at ran
    dsimp only at ran
    rw [freed] at ran
    cases ran
    rfl

/-- A scan of one block without a stack; its report file does not open. -/
def closedScan : ScanInput 64 :=
  { oneBlockScan (fun _ => false) with
    reportOpens := false
    reportFileSet := false }

theorem NeverFails.next (never : NeverFails input) (state : ServedState w)
    (sound : SoundMemory state.memory) :
    ∃ result, scanAndReportLocked input state.memory = .ok result ∧
      (scanSystem w).next state input =
        some ⟨result.memory, result.sites⟩ ∧
      SoundMemory result.memory := by
  obtain ⟨result, ran, -, later⟩ := (scan_clean_iff sound input).1 never.safe
  exact ⟨result, ran, by simp only [scanSystem, ran], later⟩

/-- The first scan finds a site, and the served list stays empty. -/
theorem closed_scan_serves_nothing : ∃ state,
    (scanSystem 64).ReachableBy (fun _ input => NeverFails input) state ∧
      ¬ ServesOwn state := by
  have never : NeverFails closedScan := fun _ => rfl
  have sound := soundMemory_initial 64
  have finds : closedScan.FindsSites :=
    @oneBlockScan_finds (fun _ => false) rfl rfl
  obtain ⟨result, ran, taken, -⟩ :=
    never.next ⟨.initial 64, none⟩ sound
  refine ⟨_, .step (.start rfl) never taken, ?_⟩
  obtain ⟨own, last, nonempty⟩ := scan_sites_ne_nil sound never finds ran
  have same := scan_closed sound rfl ran
  intro serves
  exact nonempty ((serves own last).1.symm.trans same)

/-- Three blocks of two stacks. -/
def twoStackScan : ScanInput 64 :=
  { oneBlockScan (fun _ => false) with
    entryTotal := 3
    active :=
      [{ ptr := 0x1000, size := 10, timestamp := 5, stack := [0x41, 0x42] },
        { ptr := 0x2000, size := 24, timestamp := 6, stack := [0x41] },
        { ptr := 0x3000, size := 32, timestamp := 9, stack := [0x41, 0x42] }]
    tsReady := true
    tsCount := fun _ => 2 }

/-- A later scan: one block is gone, another has come without a stack, and the
finished report cannot be renamed. -/
def unrenamedScan : ScanInput 64 :=
  { twoStackScan with
    clock := { now := 110, leakThresholdSec := 60 }
    active :=
      [{ ptr := 0x1000, size := 10, timestamp := 5, stack := [0x41, 0x42] },
        { ptr := 0x3000, size := 32, timestamp := 9, stack := [0x41, 0x42] },
        { ptr := 0x4000, size := 48, timestamp := 105, stack := [] }]
    reportRenames := false }

theorem unrenamedScan_finds : unrenamedScan.FindsSites := by
  refine ⟨unrenamedScan.active, ?_, 0, by decide, rfl⟩
  simp [takeSnapshot, allocSnapshot, ScanInput.request, unrenamedScan,
    twoStackScan, oneBlockScan, Memory.malloc_succeeds]

theorem served_after_two_scans : ∃ (state : ServedState 64)
    (own : List (MttLeakSite 64 × Option (StackNode 64))),
    state.sites = some own ∧ own ≠ [] ∧
      servedSites state.memory.reporter = own ∧
      (own.map fun served => served.1.totalSize).sum =
        state.memory.leakBytesTotal := by
  have first : NeverFails twoStackScan := fun _ => rfl
  have second : NeverFails unrenamedScan := fun _ => rfl
  obtain ⟨middle, -, taken, sound⟩ :=
    first.next ⟨.initial 64, none⟩ (soundMemory_initial 64)
  obtain ⟨final, ran, takenLater, -⟩ :=
    second.next ⟨middle.memory, middle.sites⟩ sound
  obtain ⟨own, last, nonempty⟩ :=
    scan_sites_ne_nil sound second unrenamedScan_finds ran
  have serves := served_of_opens (.step (.step (.start rfl)
    ⟨first, rfl⟩ taken) ⟨second, rfl⟩ takenLater) own last
  exact ⟨_, own, last, nonempty, serves⟩

end MemoryTraceTool
