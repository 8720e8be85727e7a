import MemoryTraceTool.ReportScan

/-!
# Scans whose allocations fail

Whatever allocations fail, a scan gives back what it took, except in two cases:
without a sorted array the offline report follows a null pointer, and pairs
copied without a copy of their sites point at sites that are given back.
-/

namespace MemoryTraceTool

open Heap

/-! ## Who owns the blocks -/

/-- The blocks that `g_reporter` has to give back. -/
def ReporterMemory.owned (reporter : ReporterMemory w) : Multiset Pointer :=
  (tsDataBlocks reporter : Multiset Pointer) + prevDiffBlocks reporter +
    cachedSiteBlocks reporter + cachedPairBlocks reporter

/-- The pointers inside the cached pairs. -/
def pairPointers (reporter : ReporterMemory w) : List Pointer :=
  match reporter.cachedPairs with
  | some (_, pairs) =>
      pairs.flatMap fun pair =>
        pair.site.toList ++ pair.stackEntry.toList.map fun node =>
          ⟨.stackEntry, node.id⟩
  | none => []

/-- Everything that can be reached from `g_reporter`. -/
def ReporterMemory.reachable (reporter : ReporterMemory w) :
    Multiset Pointer :=
  reporter.owned + pairPointers reporter

/-- The blocks in use are those of the reporter, the temporaries of the scan
and the rest, to which the stack cache belongs. -/
structure Holds (rest temps : Multiset Pointer) (reporter : ReporterMemory w)
    (cache : StackNodes w) (heap : ScanHeap) : Prop where
  valid : heap.Valid
  live : heap.live = reporter.owned + temps + rest
  cached : ∀ bucket, ∀ node ∈ cache.entries bucket,
    (⟨.stackEntry, node.id⟩ : Pointer) ∈ rest

/-- The rest grows by stack entries only. -/
def Grows (rest later : Multiset Pointer) : Prop :=
  ∃ entries : Multiset Pointer, later = entries + rest ∧
    ∀ pointer ∈ entries, pointer.kind = .stackEntry

theorem Grows.refl (rest : Multiset Pointer) : Grows rest rest := by
  refine ⟨0, (zero_add rest).symm, ?_⟩
  intro pointer member
  cases Multiset.notMem_zero pointer member

theorem Grows.trans {rest middle later : Multiset Pointer}
    (first : Grows rest middle) (second : Grows middle later) :
    Grows rest later := by
  obtain ⟨entries, rfl, kinds⟩ := first
  obtain ⟨more, rfl, moreKinds⟩ := second
  refine ⟨more + entries, (add_assoc more entries rest).symm, ?_⟩
  intro pointer member
  rcases Multiset.mem_add.mp member with inMore | inEntries
  · exact moreKinds pointer inMore
  · exact kinds pointer inEntries

theorem Grows.mem {rest later : Multiset Pointer} (grows : Grows rest later)
    {pointer : Pointer} (member : pointer ∈ rest) : pointer ∈ later := by
  obtain ⟨entries, rfl, -⟩ := grows
  exact Multiset.mem_add.mpr (.inr member)

theorem Grows.kinds {rest later : Multiset Pointer} (grows : Grows rest later)
    (kinds : ∀ pointer ∈ rest, pointer.kind = .stackEntry) :
    ∀ pointer ∈ later, pointer.kind = .stackEntry := by
  obtain ⟨entries, rfl, newKinds⟩ := grows
  intro pointer member
  rcases Multiset.mem_add.mp member with new | old
  · exact newKinds pointer new
  · exact kinds pointer old

variable {input : ScanInput w} {rest temps : Multiset Pointer}
  {reporter : ReporterMemory w} {cache : StackNodes w} {heap : ScanHeap}

/-- A failed allocation changes nothing, and a block that is allocated joins
the temporaries. -/
theorem Holds.request (holds : Holds rest temps reporter cache heap)
    (input : ScanInput w) (point : AllocPoint) :
    (input.fails point = true ∧ input.request point heap = (none, heap)) ∨
    (input.fails point = false ∧ ∃ id later,
      input.request point heap = (some id, later) ∧
      Holds rest (⟨point.kind, id⟩ ::ₘ temps) reporter cache later) := by
  unfold ScanInput.request
  cases input.fails point with
  | true => exact .inl ⟨rfl, rfl⟩
  | false =>
      refine .inr ⟨rfl, heap.next, _, rfl, ?_⟩
      constructor
      · exact holds.valid.grow point.kind
      · simp only [holds.live, Multiset.add_cons, Multiset.cons_add]
      · exact holds.cached

/-- The block of an allocation, if it succeeds. -/
def gotBlocks (point : AllocPoint) (got : Option Nat) : List Pointer :=
  got.toList.map fun id => ⟨point.kind, id⟩

theorem Holds.request_any (holds : Holds rest temps reporter cache heap)
    (input : ScanInput w) (point : AllocPoint) :
    ∃ got later, input.request point heap = (got, later) ∧
      (got = none ↔ input.fails point = true) ∧
      Holds rest (gotBlocks point got + temps) reporter cache later := by
  obtain ⟨fails, failed⟩ | ⟨succeeds, id, later, asked, taken⟩ :=
    holds.request input point
  · refine ⟨none, heap, failed, by simp [fails], ?_⟩
    rw [show (gotBlocks point none : Multiset Pointer) = 0 from rfl, zero_add]
    exact holds
  · exact ⟨some id, later, asked, by simp [succeeds], taken⟩

theorem Holds.freeAll {blocks : List Pointer}
    (holds : Holds rest (blocks + temps) reporter cache heap) :
    ∃ later, heap.freeAll blocks = .ok later ∧
      Holds rest temps reporter cache later ∧
      ∀ block ∈ blocks, block ∈ later.freed := by
  have owned : heap.live = blocks + (reporter.owned + temps + rest) := by
    rw [holds.live]
    abel
  refine ⟨_, Memory.freeAll_ok owned,
    ⟨holds.valid.release owned, rfl, holds.cached⟩, ?_⟩
  intro block member
  exact Multiset.mem_add.mpr (.inl member)

theorem Holds.free {block : Pointer}
    (holds : Holds rest (block ::ₘ temps) reporter cache heap) :
    ∃ later, heap.free block = .ok later ∧
      Holds rest temps reporter cache later := by
  have owned : heap.live = block ::ₘ (reporter.owned + temps + rest) := by
    rw [holds.live, Multiset.add_cons, Multiset.cons_add]
  refine ⟨_, Memory.free_ok owned, ?_⟩
  have single : heap.live =
      {block} + (reporter.owned + temps + rest) := owned
  exact ⟨holds.valid.release single, rfl, holds.cached⟩

/-- Blocks change hands between the reporter and the temporaries. -/
theorem Holds.transfer {other : ReporterMemory w}
    {otherTemps : Multiset Pointer}
    (holds : Holds rest temps reporter cache heap)
    (same : reporter.owned + temps = other.owned + otherTemps) :
    Holds rest otherTemps other cache heap :=
  ⟨holds.valid, by rw [holds.live, same], holds.cached⟩

/-! ## The time series -/

theorem owned_withoutTsData (reporter : ReporterMemory w) :
    ({ reporter with cachedTsData := none } : ReporterMemory w).owned +
      tsDataBlocks reporter = reporter.owned := by
  change ((0 : Multiset Pointer) + prevDiffBlocks reporter +
      cachedSiteBlocks reporter + cachedPairBlocks reporter) +
        tsDataBlocks reporter =
    (tsDataBlocks reporter : Multiset Pointer) + prevDiffBlocks reporter +
      cachedSiteBlocks reporter + cachedPairBlocks reporter
  abel

theorem refreshTsCache_holds (input : ScanInput w) (stage : Nat)
    (holds : Holds rest temps reporter cache heap) :
    ∃ data later, refreshTsCache input stage reporter heap =
        .ok ({ reporter with cachedTsData := data }, later) ∧
      Holds rest temps { reporter with cachedTsData := data } cache later := by
  unfold refreshTsCache
  split
  · obtain ⟨-, noBuffer⟩ | ⟨-, buffer, first, asked, buffered⟩ :=
      holds.request input (.tsBuffer stage)
    · rw [noBuffer]
      exact ⟨reporter.cachedTsData, heap, rfl, holds⟩
    · rw [asked]
      dsimp only
      split
      · obtain ⟨-, noData⟩ | ⟨-, data, second, askedData, taken⟩ :=
          buffered.request input (.tsData stage)
        · rw [noData]
          obtain ⟨later, freed, after⟩ := buffered.free
          refine ⟨reporter.cachedTsData, later, ?_, after⟩
          exact congrArg (Except.map fun heap => (reporter, heap)) freed
        · rw [askedData]
          have filled := owned_withoutTsData
            ({ reporter with cachedTsData := some data } : ReporterMemory w)
          have given : Holds rest (tsDataBlocks reporter +
              (⟨.tsData, data⟩ ::ₘ ⟨.tsBuffer, buffer⟩ ::ₘ temps))
              { reporter with cachedTsData := none } cache second :=
            taken.transfer (by
              rw [← add_assoc, owned_withoutTsData]
              rfl)
          obtain ⟨third, freedData, after, -⟩ := given.freeAll
          have stored : Holds rest (⟨.tsBuffer, buffer⟩ ::ₘ temps)
              { reporter with cachedTsData := some data } cache third :=
            after.transfer (by
              rw [← Multiset.singleton_add _ (_ ::ₘ temps), ← add_assoc]
              exact congrArg (· + _) filled)
          obtain ⟨later, freedBuffer, done⟩ := stored.free
          refine ⟨some data, later, ?_, done⟩
          simp only [freedData]
          exact congrArg (Except.map fun heap =>
            (({ reporter with cachedTsData := some data } :
              ReporterMemory w), heap)) freedBuffer
      · obtain ⟨later, freed, after⟩ := buffered.free
        refine ⟨reporter.cachedTsData, later, ?_, after⟩
        exact congrArg (Except.map fun heap => (reporter, heap)) freed
  · exact ⟨reporter.cachedTsData, heap, rfl, holds⟩

/-! ## The snapshot -/

def snapshotBlocks (snapshot : Option Nat) : List Pointer :=
  snapshot.toList.map fun id => ⟨.snapshot, id⟩

theorem allocSnapshot_holds (input : ScanInput w)
    (fuel attempt tryEntries : Nat)
    (holds : Holds rest temps reporter cache heap) :
    allocSnapshot input fuel attempt tryEntries heap = (none, heap) ∨
    ∃ id entries later, allocSnapshot input fuel attempt tryEntries heap =
        (some (id, entries), later) ∧
      Holds rest (⟨.snapshot, id⟩ ::ₘ temps) reporter cache later := by
  induction fuel generalizing attempt tryEntries with
  | zero => exact .inl rfl
  | succ fuel induction =>
      unfold allocSnapshot
      obtain ⟨-, failed⟩ | ⟨-, id, later, asked, taken⟩ :=
        holds.request input (.snapshot attempt)
      · rw [failed]
        dsimp only
        split
        · exact induction (attempt + 1) (tryEntries / 2)
        · exact .inl rfl
      · rw [asked]
        exact .inr ⟨id, tryEntries, later, rfl, taken⟩

theorem takeSnapshot_holds (input : ScanInput w)
    (holds : Holds rest temps reporter cache heap) :
    takeSnapshot input heap = (none, heap) ∨
    ∃ snapshot snaps later, takeSnapshot input heap =
        (some (snapshot, snaps), later) ∧
      Holds rest (snapshotBlocks snapshot + temps) reporter cache later := by
  unfold takeSnapshot
  split
  · obtain failed | ⟨id, entries, later, asked, taken⟩ :=
      allocSnapshot_holds input (input.entryTotal + 1) 0
        input.entryTotal holds
    · rw [failed]
      exact .inl rfl
    · rw [asked]
      exact .inr ⟨some id, _, later, rfl, taken⟩
  · refine .inr ⟨none, [], heap, rfl, ?_⟩
    rw [show (snapshotBlocks none : Multiset Pointer) = 0 from rfl, zero_add]
    exact holds

theorem allocSnapshot_entries (input : ScanInput w)
    (fuel attempt tryEntries : Nat)
    (first second : ScanHeap) :
    (allocSnapshot input fuel attempt tryEntries first).1.map Prod.snd =
      (allocSnapshot input fuel attempt tryEntries second).1.map
        Prod.snd := by
  induction fuel generalizing attempt tryEntries first second with
  | zero => rfl
  | succ fuel induction =>
      unfold allocSnapshot ScanInput.request
      cases input.fails (.snapshot attempt) with
      | false => rfl
      | true =>
          simp only [Memory.malloc_fails]
          split
          · exact induction _ _ first second
          · rfl

theorem takeSnapshot_snaps (input : ScanInput w) (first second : ScanHeap) :
    (takeSnapshot input first).1.map Prod.snd =
      (takeSnapshot input second).1.map Prod.snd := by
  have same := allocSnapshot_entries input (input.entryTotal + 1)
    0 input.entryTotal first second
  unfold takeSnapshot
  split
  · revert same
    generalize allocSnapshot input (input.entryTotal + 1) 0 input.entryTotal
      first = one
    generalize allocSnapshot input (input.entryTotal + 1) 0 input.entryTotal
      second = other
    intro same
    obtain ⟨_ | ⟨id, entries⟩, heap⟩ := one
    · obtain ⟨_ | ⟨otherId, otherEntries⟩, otherHeap⟩ := other
      · rfl
      · simp at same
    · obtain ⟨_ | ⟨otherId, otherEntries⟩, otherHeap⟩ := other
      · simp at same
      · simp only [Option.map_some, Option.some.injEq] at same
        simp [same]
  · rfl

/-! ## Stack entries -/

theorem lookupStackNode_holds (input : ScanInput w) (point : AllocPoint)
    (kind : point.kind = .stackEntry) (frames : List (BitVec w))
    (holds : Holds rest temps reporter cache heap) :
    ∃ found cacheLater heapLater more,
      lookupStackNode input point cache heap frames =
        (found, cacheLater, heapLater) ∧
      Grows rest more ∧ Holds more temps reporter cacheLater heapLater ∧
      ∀ node ∈ found, (⟨.stackEntry, node.id⟩ : Pointer) ∈ more := by
  unfold lookupStackNode
  split
  · exact ⟨none, cache, heap, rest, rfl, .refl rest, holds, by simp⟩
  · dsimp only
    split
    · rename_i node found
      refine ⟨some node, cache, heap, rest, rfl, .refl rest, holds, ?_⟩
      intro other same
      rw [← Option.some.inj same]
      exact holds.cached _ node (List.mem_of_find?_eq_some found)
    · split
      · exact ⟨none, cache, heap, rest, rfl, .refl rest, holds, by simp⟩
      · obtain ⟨-, failed⟩ | ⟨-, id, later, asked, taken⟩ :=
          holds.request input point
        · rw [failed]
          exact ⟨none, cache, heap, rest, rfl, .refl rest, holds, by simp⟩
        · rw [asked]
          rw [kind] at taken
          have grows : Grows rest (⟨.stackEntry, id⟩ ::ₘ rest) := by
            refine ⟨{⟨.stackEntry, id⟩}, rfl, ?_⟩
            intro pointer member
            rw [Multiset.mem_singleton.mp member]
          refine ⟨_, _, later, ⟨.stackEntry, id⟩ ::ₘ rest, rfl, grows, ?_, ?_⟩
          · constructor
            · exact taken.valid
            · rw [taken.live]
              simp only [Multiset.add_cons, Multiset.cons_add]
            · intro bucket node member
              dsimp only at member
              by_cases same : bucket = (mttStackHashCompute frames &&&
                  BitVec.ofNat 64 (mttStackCacheSize - 1)).toNat
              · rw [same, Function.update_self] at member
                rcases List.mem_cons.mp member with rfl | old
                · exact Multiset.mem_cons_self _ _
                · exact Multiset.mem_cons_of_mem (holds.cached _ node old)
              · rw [Function.update_of_ne same] at member
                exact Multiset.mem_cons_of_mem (holds.cached _ node member)
          · intro node same
            rw [← Option.some.inj same]
            exact Multiset.mem_cons_self _ _

theorem lookupSiteStack_holds (input : ScanInput w) (point : AllocPoint)
    (kind : point.kind = .stackEntry) (snaps : List (MttAllocSnap w))
    (hash : Word) (holds : Holds rest temps reporter cache heap) :
    ∃ found cacheLater heapLater more,
      lookupSiteStack input point snaps hash cache heap =
        (found, cacheLater, heapLater) ∧
      Grows rest more ∧ Holds more temps reporter cacheLater heapLater ∧
      ∀ node ∈ found, (⟨.stackEntry, node.id⟩ : Pointer) ∈ more := by
  unfold lookupSiteStack
  split
  · exact lookupStackNode_holds input point kind _ holds
  · exact ⟨none, cache, heap, rest, rfl, .refl rest, holds, by simp⟩

/-! ## Leak sites -/

def nodeBlocks (nodes : List (LeakNode w)) : List Pointer :=
  nodes.map fun node => ⟨.leakSite, node.id⟩

/-- The first stages after `count` blocks of the snapshot; there is a site
exactly if one of their allocations would have succeeded. -/
structure DedupHolds (input : ScanInput w) (rest temps : Multiset Pointer)
    (reporter : ReporterMemory w) (count : Nat) (state : DedupState w) :
    Prop where
  holds : ∃ more, Grows rest more ∧
    Holds more (nodeBlocks (leakNodes state.table) + temps) reporter
      state.cache state.heap
  length : state.table.count = (leakNodes state.table).length
  found : 0 < state.table.count ↔
    ∃ index < count, input.fails (.leakSite index) = false

theorem nodeHash_holds {count : Nat} {state : DedupState w} (index : Nat)
    (holds : DedupHolds input rest temps reporter count state)
    (snap : MttAllocSnap w) :
    DedupHolds input rest temps reporter count
      (nodeHash input index state snap).2 := by
  unfold nodeHash
  split
  · obtain ⟨more, grows, owned⟩ := holds.holds
    obtain ⟨found, cacheLater, heapLater, later, searched, growsLater, after,
      -⟩ := lookupStackNode_holds input (.stackEntry 2 index) rfl
        snap.stack owned
    rw [searched]
    cases found with
    | none =>
        exact ⟨⟨later, grows.trans growsLater, after⟩, holds.length,
          holds.found⟩
    | some node =>
        exact ⟨⟨later, grows.trans growsLater, after⟩, holds.length,
          holds.found⟩
  · exact holds

theorem exists_lt_succ_iff {count : Nat} {property : Nat → Prop} :
    (∃ index < count + 1, property index) ↔
      (∃ index < count, property index) ∨ property count := by
  constructor
  · intro found
    obtain ⟨index, below, holds⟩ := found
    by_cases last : index = count
    · exact .inr (last ▸ holds)
    · exact .inl ⟨index, by omega, holds⟩
  · intro found
    obtain ⟨index, below, holds⟩ | holds := found
    · exact ⟨index, by omega, holds⟩
    · exact ⟨count, Nat.lt_succ_self count, holds⟩

theorem leakNodeShape_lt (hash : Word) :
    (leakNodeShape w).hash hash < mttLeakDedupSize :=
  @leakShape_hash_lt w hash

theorem countLeak_holds {count : Nat} {state : DedupState w} (hash : Word)
    (holds : DedupHolds input rest temps reporter count state)
    (snap : MttAllocSnap w) :
    DedupHolds input rest temps reporter (count + 1)
      (countLeak input count hash state snap) := by
  have present : 0 < state.table.count →
      (0 < state.table.count ↔
        ∃ index < count + 1, input.fails (.leakSite index) = false) := by
    intro some
    have earlier := holds.found.mp some
    exact iff_of_true some (exists_lt_succ_iff.mpr (.inl earlier))
  obtain ⟨more, grows, owned⟩ := holds.holds
  unfold countLeak
  cases looked : ChainedTable.find (leakNodeShape w) state.table.chains
    hash with
  | some node =>
      have same : ∀ {Part : Type} (part : LeakNode w → Part)
          (kept : ∀ node : LeakNode w, part { node with
            site := addToLeakSite input.clock node.site snap } = part node),
          (leakNodes { state.table with
            chains := ChainedTable.modify (leakNodeShape w)
              state.table.chains hash fun node => { node with
                site := addToLeakSite input.clock node.site snap } }).map
                  part = (leakNodes state.table).map part :=
        fun part kept => ChainedTable.map_collect_modify part kept _
      have inTable : node ∈ leakNodes state.table :=
        List.mem_flatMap.mpr ⟨_, List.mem_range.mpr (leakNodeShape_lt hash),
          ChainedTable.mem_of_find looked⟩
      have some : 0 < state.table.count := by
        rw [holds.length]
        exact List.length_pos_of_mem inTable
      constructor
      · refine ⟨more, grows, ?_⟩
        have blocks := same (fun node => (⟨.leakSite, node.id⟩ : Pointer))
          fun _ => rfl
        simp only [nodeBlocks] at owned ⊢
        rw [blocks]
        exact owned
      · have lengths := congrArg List.length (same (fun node => node.id)
          fun _ => rfl)
        rw [List.length_map, List.length_map] at lengths
        exact holds.length.trans lengths.symm
      · exact present some
  | none =>
      dsimp only
      split
      · obtain ⟨fails, failed⟩ | ⟨succeeds, id, later, asked, taken⟩ :=
          owned.request input (.leakSite count)
        · rw [failed]
          refine ⟨⟨more, grows, owned⟩, holds.length, ?_⟩
          rw [exists_lt_succ_iff, fails]
          simpa using holds.found
        · rw [asked]
          have inserted : (leakNodes
              { chains := ChainedTable.insert (leakNodeShape w)
                  state.table.chains
                  { id, site := newLeakSite input.clock hash snap }
                count := state.table.count + 1 }).Perm
              ({ id, site := newLeakSite input.clock hash snap } ::
                leakNodes state.table) :=
            ChainedTable.collect_insert_perm (leakNodeShape_lt _)
          constructor
          · refine ⟨more, grows, taken.transfer ?_⟩
            have blocks : (nodeBlocks (leakNodes
                { chains := ChainedTable.insert (leakNodeShape w)
                    state.table.chains
                    { id, site := newLeakSite input.clock hash snap }
                  count := state.table.count + 1 }) : Multiset Pointer) =
                ⟨.leakSite, id⟩ ::ₘ nodeBlocks (leakNodes state.table) :=
              Multiset.coe_eq_coe.mpr (inserted.map _)
            rw [blocks, Multiset.cons_add]
            rfl
          · rw [inserted.length_eq, List.length_cons, holds.length]
          · exact iff_of_true (Nat.succ_pos _)
              (exists_lt_succ_iff.mpr (.inr succeeds))
      · rename_i full
        refine ⟨⟨more, grows, owned⟩, holds.length, present ?_⟩
        have positive : 0 < mttLeakDedupSize := by decide
        omega

theorem dedupNodes_holds (input : ScanInput w) (snaps : List (MttAllocSnap w))
    (holds : Holds rest temps reporter cache heap) :
    DedupHolds input rest temps reporter snaps.length
      (snaps.zipIdx.foldl (dedupNode input)
        { cache, table := .empty, heap }) := by
  induction snaps using List.reverseRecOn with
  | nil =>
      have none : leakNodes (.empty : Grouping.Table (LeakNode w)) = [] := by
        simp [leakNodes, ChainedTable.collect, Grouping.Table.empty]
      refine ⟨⟨rest, .refl rest, ?_⟩, ?_, ?_⟩
      · simp only [List.zipIdx_nil, List.foldl_nil, none]
        rw [nodeBlocks, List.map_nil, Multiset.coe_nil, zero_add]
        exact holds
      · simp only [List.zipIdx_nil, List.foldl_nil, none]
        rfl
      · simp [Grouping.Table.empty]
  | append_singleton snaps snap induction =>
      rw [List.zipIdx_append, List.foldl_append, List.length_append,
        Nat.zero_add]
      exact countLeak_holds _ (nodeHash_holds snaps.length induction snap) snap

/-! ## Stages 3 to 5 -/

theorem resolveNodes_holds (input : ScanInput w) (snaps : List (MttAllocSnap w))
    (items : List (LeakNode w × Nat)) {cache : StackNodes w} {heap : ScanHeap}
    (holds : Holds rest temps reporter cache heap) :
    ∃ cacheLater heapLater more,
      items.foldl (resolveNode input snaps) (cache, heap) =
        (cacheLater, heapLater) ∧
      Grows rest more ∧ Holds more temps reporter cacheLater heapLater := by
  induction items generalizing rest cache heap with
  | nil => exact ⟨cache, heap, rest, rfl, .refl rest, holds⟩
  | cons item items induction =>
      obtain ⟨found, cacheNext, heapNext, more, searched, grows, after, -⟩ :=
        lookupSiteStack_holds input (.stackEntry 3 item.2) rfl
          snaps item.1.site.stackHash holds
      obtain ⟨cacheLater, heapLater, later, rest, growsLater, done⟩ :=
        induction after
      refine ⟨cacheLater, heapLater, later, ?_, grows.trans growsLater, done⟩
      rw [List.foldl_cons, ← rest, resolveNode, searched]

def sortedBlocks (sorted : Option (Nat × List (LeakNode w))) :
    List Pointer :=
  sorted.toList.map fun array => ⟨.sorted, array.1⟩

/-- The sites that the sorted array lists are those of the table. -/
structure SortedFrom (input : ScanInput w)
    (table : Grouping.Table (LeakNode w))
    (sorted : Option (Nat × List (LeakNode w))) (siteCount : Nat) : Prop where
  absent : sorted = none ↔
    table.count = 0 ∨ input.fails .sorted = true
  count : siteCount = table.count
  listed : ∀ id nodes, sorted = some (id, nodes) →
    (nodes.map fun node => node.id).Perm
        ((leakNodes table).map fun node => node.id) ∧
      nodes.length = siteCount
  totals : ∀ id nodes, sorted = some (id, nodes) →
    (nodes.map fun node => node.site.totalSize).Perm
      ((leakNodes table).map fun node => node.site.totalSize)

theorem sortNodes_holds (input : ScanInput w)
    {table : Grouping.Table (LeakNode w)}
    (length : table.count = (leakNodes table).length)
    (holds : Holds rest temps reporter cache heap) :
    ∃ sorted siteCount later,
      sortNodes input table heap = (sorted, siteCount, later) ∧
      SortedFrom input table sorted siteCount ∧
      Holds rest (sortedBlocks sorted + temps) reporter cache later := by
  have nothing : Holds rest (sortedBlocks
      (none : Option (Nat × List (LeakNode w))) + temps) reporter cache
        heap := by
    rw [show (sortedBlocks (none : Option (Nat × List (LeakNode w))) :
      Multiset Pointer) = 0 from rfl, zero_add]
    exact holds
  unfold sortNodes
  split
  · rename_i positive
    obtain ⟨fails, failed⟩ | ⟨succeeds, id, later, asked, taken⟩ :=
      holds.request input .sorted
    · rw [failed]
      refine ⟨none, table.count, heap, rfl, ?_, nothing⟩
      constructor
      · simp [fails]
      · rfl
      · intro id nodes same
        cases same
      · intro id nodes same
        cases same
    · rw [asked]
      refine ⟨_, _, later, rfl, ?_, taken⟩
      have sortedPerm := List.mergeSort_perm
        ((leakNodes table).take table.count)
        fun first second => cmpLeakByCount first.site second.site ≤ 0
      have all : (leakNodes table).take table.count = leakNodes table :=
        List.take_of_length_le (Nat.le_of_eq length.symm)
      rw [all] at sortedPerm
      constructor
      · simp only [reduceCtorEq, false_iff, not_or]
        exact ⟨Nat.pos_iff_ne_zero.mp positive, by simp [succeeds]⟩
      · rw [all, sortedPerm.length_eq, length]
      · intro other nodes same
        cases same
        rw [all]
        exact ⟨sortedPerm.map _, rfl⟩
      · intro other nodes same
        cases same
        rw [all]
        exact sortedPerm.map _
  · rename_i none
    refine ⟨_, table.count, heap, rfl, ?_, nothing⟩
    constructor
    · simp [Nat.eq_zero_of_not_pos none]
    · rfl
    · intro id nodes same
      cases same
    · intro id nodes same
      cases same

/-- The arrays of the last scan are there if they are read. -/
def PrevDiffReadable (reporter : ReporterMemory w) : Prop :=
  reporter.prevDiffCount = 0 ∨
    reporter.prevDiffHashes.isSome ∧ reporter.prevDiffSizes.isSome

theorem readPrevDiff_ok (readable : PrevDiffReadable reporter) :
    ∃ prevDiff, readPrevDiff reporter = .ok prevDiff := by
  unfold readPrevDiff
  split
  · exact ⟨_, rfl⟩
  · rename_i counted
    obtain ⟨hashes, sizes⟩ := readable.resolve_left counted
    obtain ⟨hashArray, hashesSet⟩ := Option.isSome_iff_exists.mp hashes
    obtain ⟨sizeArray, sizesSet⟩ := Option.isSome_iff_exists.mp sizes
    rw [hashesSet, sizesSet]
    exact ⟨_, rfl⟩

theorem diffNodes_ok (readable : PrevDiffReadable reporter)
    {table : Grouping.Table (LeakNode w)}
    {sorted : Option (Nat × List (LeakNode w))} {siteCount : Nat}
    (sortedFrom : SortedFrom input table sorted siteCount) :
    ∃ differed, diffNodes reporter siteCount sorted = .ok differed ∧
      SortedFrom input table differed siteCount ∧
      sortedBlocks differed = sortedBlocks sorted := by
  cases sorted with
  | none => exact ⟨none, rfl, sortedFrom, rfl⟩
  | some array =>
      obtain ⟨id, nodes⟩ := array
      simp only [diffNodes]
      split
      · obtain ⟨prevDiff, read⟩ := readPrevDiff_ok readable
        rw [read]
        refine ⟨_, rfl, ?_, rfl⟩
        constructor
        · simpa using sortedFrom.absent
        · exact sortedFrom.count
        · intro other listed same
          cases same
          obtain ⟨perm, length⟩ := sortedFrom.listed id nodes rfl
          rw [List.map_map, List.length_map]
          exact ⟨perm, length⟩
        · intro other listed same
          cases same
          rw [List.map_map]
          exact sortedFrom.totals id nodes rfl
      · exact ⟨_, rfl, sortedFrom, rfl⟩

def pairBlocks (pairs : Option (Nat × List (SiteStackPair w))) :
    List Pointer :=
  pairs.toList.map fun array => ⟨.pairs, array.1⟩

/-- The pairs point at the sorted sites and at entries of the cache. -/
structure PairsFrom (rest : Multiset Pointer) (nodes : List (LeakNode w))
    (pairs : List (SiteStackPair w)) : Prop where
  sites : pairs.map (fun pair => pair.site) =
    nodes.map fun node => some (⟨.leakSite, node.id⟩ : Pointer)
  entries : ∀ pair ∈ pairs, ∀ node ∈ pair.stackEntry,
    (⟨.stackEntry, node.id⟩ : Pointer) ∈ rest

theorem pairNodes_fold (input : ScanInput w) (snaps : List (MttAllocSnap w))
    (items : List (LeakNode w × Nat)) {nodes : List (LeakNode w)}
    {pairs : List (SiteStackPair w)} {cache : StackNodes w} {heap : ScanHeap}
    (holds : Holds rest temps reporter cache heap)
    (pairsFrom : PairsFrom rest nodes pairs) :
    ∃ pairsLater cacheLater heapLater more,
      items.foldl (pairNode input snaps) (pairs, cache, heap) =
        (pairsLater, cacheLater, heapLater) ∧
      Grows rest more ∧ Holds more temps reporter cacheLater heapLater ∧
      PairsFrom more (nodes ++ items.map Prod.fst) pairsLater := by
  induction items generalizing rest nodes pairs cache heap with
  | nil =>
      refine ⟨pairs, cache, heap, rest, rfl, .refl rest, holds, ?_⟩
      rw [List.map_nil, List.append_nil]
      exact pairsFrom
  | cons item items induction =>
      obtain ⟨found, cacheNext, heapNext, more, searched, grows, after,
        belongs⟩ := lookupSiteStack_holds input
          (.stackEntry 5 item.2) rfl snaps item.1.site.stackHash holds
      have extended : PairsFrom more (nodes ++ [item.1]) (pairs ++
          [{ site := some ⟨.leakSite, item.1.id⟩, stackEntry := found }]) := by
        constructor
        · rw [List.map_append, List.map_append, pairsFrom.sites]
          rfl
        · intro pair member node same
          rcases List.mem_append.mp member with old | new
          · exact grows.mem (pairsFrom.entries pair old node same)
          · rw [List.mem_singleton.mp new] at same
            exact belongs node same
      obtain ⟨pairsLater, cacheLater, heapLater, later, rest, growsLater,
        done, listed⟩ := induction after extended
      refine ⟨pairsLater, cacheLater, heapLater, later, ?_,
        grows.trans growsLater, done, ?_⟩
      · rw [List.foldl_cons, ← rest, pairNode, searched]
      · rw [List.append_assoc] at listed
        exact listed

theorem pairNodes_holds (input : ScanInput w) (snaps : List (MttAllocSnap w))
    {table : Grouping.Table (LeakNode w)}
    {sorted : Option (Nat × List (LeakNode w))} {siteCount : Nat}
    (sortedFrom : SortedFrom input table sorted siteCount)
    (holds : Holds rest temps reporter cache heap) :
    ∃ pairs cacheLater heapLater more,
      pairNodes input snaps siteCount sorted cache heap =
        (pairs, cacheLater, heapLater) ∧
      Grows rest more ∧
      Holds more (pairBlocks pairs + temps) reporter cacheLater heapLater ∧
      (pairs = none ↔ sorted = none ∨ input.fails .pairs = true) ∧
      ∀ id array, pairs = some (id, array) → ∃ number nodes,
        sorted = some (number, nodes) ∧ PairsFrom more nodes array := by
  have nothing : Holds rest (pairBlocks
      (none : Option (Nat × List (SiteStackPair w))) + temps) reporter cache
        heap := by
    rw [show (pairBlocks (none : Option (Nat × List (SiteStackPair w))) :
      Multiset Pointer) = 0 from rfl, zero_add]
    exact holds
  cases sorted with
  | none =>
      refine ⟨none, cache, heap, rest, rfl, .refl rest, nothing, ?_, ?_⟩
      · simp
      · intro id array same
        cases same
  | some array =>
      obtain ⟨number, nodes⟩ := array
      have positive : 0 < siteCount := by
        rw [sortedFrom.count]
        apply Nat.pos_of_ne_zero
        intro zero
        exact Option.some_ne_none _ (sortedFrom.absent.mpr (.inl zero))
      unfold pairNodes
      simp only [if_pos positive]
      obtain ⟨fails, failed⟩ | ⟨succeeds, id, later, asked, taken⟩ :=
        holds.request input .pairs
      · rw [failed]
        refine ⟨none, cache, heap, rest, rfl, .refl rest, nothing, ?_, ?_⟩
        · simp [fails]
        · intro id array same
          cases same
      · rw [asked]
        have start : PairsFrom rest ([] : List (LeakNode w)) [] := by
          constructor
          · rfl
          · intro pair member
            cases member
        obtain ⟨pairs, cacheLater, heapLater, more, paired, grows, done,
          listed⟩ := pairNodes_fold input snaps nodes.zipIdx taken
            start
        rw [List.nil_append, List.zipIdx_map_fst] at listed
        refine ⟨some (id, pairs), cacheLater, heapLater, more, ?_, grows, done,
          ?_, ?_⟩
        · simp only [paired]
        · simp [succeeds]
        · intro other array same
          cases same
          exact ⟨number, nodes, rfl, listed⟩

/-! ## What stages 2 to 5 leave -/

/-- The local variables of a scan whose blocks are temporaries. -/
structure CollectedFrom (input : ScanInput w) (rest : Multiset Pointer)
    (reporter : ReporterMemory w) (snaps : List (MttAllocSnap w))
    (snapshot : Option Nat) (collected : Collected w) : Prop where
  snapshot : collected.snapshot = snapshot
  holds : Holds rest (temporaries collected) reporter collected.cache
    collected.heap
  found : 0 < collected.siteCount ↔
    ∃ index < snaps.length, input.fails (.leakSite index) = false
  sorted : collected.sorted = none ↔
    collected.siteCount = 0 ∨ input.fails .sorted = true
  listed : ∀ id nodes, collected.sorted = some (id, nodes) →
    (nodes.map fun node => node.id).Perm
        (collected.nodes.map fun node => node.id) ∧
      nodes.length = collected.siteCount
  totals : ∀ id nodes, collected.sorted = some (id, nodes) →
    (nodes.map fun node => node.site.totalSize).Perm
      (collected.nodes.map fun node => node.site.totalSize)
  count : collected.siteCount = collected.nodes.length
  pairs : collected.pairs = none ↔
    collected.sorted = none ∨ input.fails .pairs = true
  paired : ∀ id array, collected.pairs = some (id, array) →
    ∃ number nodes, collected.sorted = some (number, nodes) ∧
      PairsFrom rest nodes array

theorem temporaries_eq (collected : Collected w) :
    temporaries collected =
      snapshotBlocks collected.snapshot ++ sortedBlocks collected.sorted ++
        pairBlocks collected.pairs ++ nodeBlocks collected.nodes :=
  rfl

/-- The local variables of a scan after stage 4. -/
structure Sorting (w : Nat) where
  snapshot : Option Nat
  snaps : List (MttAllocSnap w)
  table : Grouping.Table (LeakNode w)
  sorted : Option (Nat × List (LeakNode w))
  siteCount : Nat

/-- Stages 2 to 4. -/
def sortSites (input : ScanInput w) (cache : StackNodes w) (heap : ScanHeap)
    (snapshot : Option Nat) (snaps : List (MttAllocSnap w)) :
    Sorting w × StackNodes w × ScanHeap :=
  let state := snaps.zipIdx.foldl (dedupNode input)
    { cache, table := .empty, heap }
  let (cache, heap) := (leakNodes state.table).zipIdx.foldl
    (resolveNode input snaps) (state.cache, state.heap)
  let (sorted, siteCount, heap) := sortNodes input state.table heap
  ({ snapshot, snaps, table := state.table, sorted, siteCount }, cache, heap)

/-- Stage 5. -/
def pairSites (input : ScanInput w) (sorting : Sorting w)
    (cache : StackNodes w) (heap : ScanHeap) : Collected w :=
  let (pairs, cache, heap) := pairNodes input sorting.snaps sorting.siteCount
    sorting.sorted cache heap
  { cache
    heap
    snapshot := sorting.snapshot
    nodes := leakNodes sorting.table
    sorted := sorting.sorted
    siteCount := sorting.siteCount
    pairs }

theorem collectSites_eq (input : ScanInput w) (snapshot : Option Nat)
    (snaps : List (MttAllocSnap w)) {sorting : Sorting w}
    {cacheLater : StackNodes w} {heapLater : ScanHeap}
    (sorts : sortSites input cache heap snapshot snaps =
      (sorting, cacheLater, heapLater)) :
    collectSites input reporter cache heap snapshot snaps = (do
      let sorted ← diffNodes reporter sorting.siteCount sorting.sorted
      return pairSites input { sorting with sorted } cacheLater heapLater) := by
  have parts : ∀ all, sortSites input cache heap snapshot snaps = all →
      collectSites input reporter cache heap snapshot snaps = (do
        let sorted ← diffNodes reporter all.1.siteCount all.1.sorted
        return pairSites input { all.1 with sorted } all.2.1 all.2.2) := by
    rintro _ rfl
    unfold collectSites sortSites pairSites
    dsimp only
  exact parts _ sorts

/-- The temporaries of a scan after stage 4. -/
def Sorting.blocks (sorting : Sorting w) : Multiset Pointer :=
  snapshotBlocks sorting.snapshot + sortedBlocks sorting.sorted +
    nodeBlocks (leakNodes sorting.table)

structure SortingFrom (input : ScanInput w) (sorting : Sorting w) : Prop where
  length : sorting.table.count = (leakNodes sorting.table).length
  found : 0 < sorting.table.count ↔
    ∃ index < sorting.snaps.length, input.fails (.leakSite index) = false
  sorted : SortedFrom input sorting.table sorting.sorted sorting.siteCount

theorem sortSites_holds (input : ScanInput w) (snapshot : Option Nat)
    (snaps : List (MttAllocSnap w))
    (holds : Holds rest (snapshotBlocks snapshot) reporter cache heap) :
    ∃ sorting cacheLater heapLater more,
      sortSites input cache heap snapshot snaps =
        (sorting, cacheLater, heapLater) ∧
      (sorting.snapshot = snapshot ∧ sorting.snaps = snaps) ∧
      Grows rest more ∧ SortingFrom input sorting ∧
      Holds more sorting.blocks reporter cacheLater heapLater := by
  have deduped := dedupNodes_holds input snaps holds
  generalize states : snaps.zipIdx.foldl (dedupNode input)
    { cache, table := .empty, heap } = state at deduped
  obtain ⟨first, growsFirst, owned⟩ := deduped.holds
  obtain ⟨cacheTwo, heapTwo, second, resolved, growsSecond, afterTwo⟩ :=
    resolveNodes_holds input snaps
      (leakNodes state.table).zipIdx owned
  obtain ⟨sorted, siteCount, heapThree, sortedAs, sortedFrom, afterThree⟩ :=
    sortNodes_holds input deduped.length afterTwo
  refine ⟨⟨snapshot, snaps, state.table, sorted, siteCount⟩, cacheTwo,
    heapThree, second, ?_, ⟨rfl, rfl⟩, growsFirst.trans growsSecond,
    ⟨deduped.length, deduped.found, sortedFrom⟩, ?_⟩
  · simp only [sortSites, states, resolved, sortedAs]
  · apply afterThree.transfer
    unfold Sorting.blocks
    abel

theorem pairSites_holds {sorting : Sorting w}
    (sortingFrom : SortingFrom input sorting)
    (holds : Holds rest sorting.blocks reporter cache heap) :
    ∃ more, Grows rest more ∧
      CollectedFrom input more reporter sorting.snaps sorting.snapshot
        (pairSites input sorting cache heap) := by
  obtain ⟨snapshot, snaps, table, sorted, siteCount⟩ := sorting
  have owned : Holds rest (sortedBlocks sorted +
      (snapshotBlocks snapshot + nodeBlocks (leakNodes table)))
        reporter cache heap := by
    apply holds.transfer
    unfold Sorting.blocks
    abel
  have sortedFrom : SortedFrom input table sorted siteCount :=
    sortingFrom.sorted
  obtain ⟨pairs, cacheLater, heapLater, more, pairedAs, grows, after,
    pairsAbsent, pairsFrom⟩ := pairNodes_holds input snaps sortedFrom owned
  have pairing : pairSites input ⟨snapshot, snaps, table, sorted, siteCount⟩
      cache heap =
        ⟨cacheLater, heapLater, snapshot, leakNodes table, sorted, siteCount,
          pairs⟩ := by
    simp only [pairSites, pairedAs]
  have found := sortingFrom.found
  rw [← sortedFrom.count] at found
  have absent : sorted = none ↔
      siteCount = 0 ∨ input.fails .sorted = true := by
    rw [sortedFrom.absent, sortedFrom.count]
  have length : table.count = (leakNodes table).length :=
    sortingFrom.length
  have listed := sortedFrom.listed
  have totals := sortedFrom.totals
  refine ⟨more, grows, ?_⟩
  rw [pairing]
  generalize leakNodes table = nodes at *
  refine ⟨rfl, ?_, found, absent, listed, totals,
    sortedFrom.count.trans length, pairsAbsent, pairsFrom⟩
  apply after.transfer
  rw [temporaries_eq]
  simp only [← Multiset.coe_add]
  abel

theorem collectSites_holds (input : ScanInput w)
    (readable : PrevDiffReadable reporter)
    (snapshot : Option Nat) (snaps : List (MttAllocSnap w))
    (holds : Holds rest (snapshotBlocks snapshot) reporter cache heap) :
    ∃ collected more,
      collectSites input reporter cache heap snapshot snaps = .ok collected ∧
      Grows rest more ∧
      CollectedFrom input more reporter snaps snapshot collected := by
  obtain ⟨sorting, cacheLater, heapLater, second, sorts, ⟨rfl, rfl⟩,
    growsSecond, sortingFrom, after⟩ :=
      sortSites_holds input snapshot snaps holds
  obtain ⟨differed, diffs, differedFrom, blocks⟩ :=
    diffNodes_ok readable sortingFrom.sorted
  have owned : Holds second
      ({ sorting with sorted := differed } : Sorting w).blocks reporter
        cacheLater heapLater := by
    unfold Sorting.blocks at after ⊢
    rw [blocks]
    exact after
  have compared : SortingFrom input { sorting with sorted := differed } :=
    ⟨sortingFrom.length, sortingFrom.found, differedFrom⟩
  obtain ⟨more, grows, collectedFrom⟩ := pairSites_holds compared owned
  refine ⟨_, more, ?_, growsSecond.trans grows, collectedFrom⟩
  rw [collectSites_eq input _ _ sorts, diffs, ok_bind]
  rfl

/-! ## Stage 6.5 -/

theorem owned_withoutPrevDiff (reporter : ReporterMemory w) :
    ({ reporter with
        prevDiffHashes := none
        prevDiffSizes := none
        prevDiffCount := 0 } : ReporterMemory w).owned +
      prevDiffBlocks reporter = reporter.owned := by
  change ((tsDataBlocks reporter : Multiset Pointer) + (0 : Multiset Pointer) +
      cachedSiteBlocks reporter + cachedPairBlocks reporter) +
        prevDiffBlocks reporter =
    (tsDataBlocks reporter : Multiset Pointer) + prevDiffBlocks reporter +
      cachedSiteBlocks reporter + cachedPairBlocks reporter
  abel

theorem owned_setPrevDiff (reporter : ReporterMemory w)
    (hashes : Option (Nat × List Word)) (sizes : Option (Nat × List (BitVec w)))
    (count : Nat) :
    ({ reporter with
        prevDiffHashes := hashes
        prevDiffSizes := sizes
        prevDiffCount := count } : ReporterMemory w).owned =
      ({ reporter with
        prevDiffHashes := none
        prevDiffSizes := none
        prevDiffCount := 0 } : ReporterMemory w).owned +
      prevDiffBlocks { reporter with
        prevDiffHashes := hashes
        prevDiffSizes := sizes
        prevDiffCount := count } :=
  (owned_withoutPrevDiff { reporter with
    prevDiffHashes := hashes
    prevDiffSizes := sizes
    prevDiffCount := count }).symm

theorem prevDiffBlocks_set (reporter : ReporterMemory w)
    (hashes sizes : Option Nat) (hashArray : List Word)
    (sizeArray : List (BitVec w)) (count : Nat) :
    prevDiffBlocks { reporter with
        prevDiffHashes := hashes.map fun id => (id, hashArray)
        prevDiffSizes := sizes.map fun id => (id, sizeArray)
        prevDiffCount := count } =
      gotBlocks .prevDiffHashes hashes ++ gotBlocks .prevDiffSizes sizes := by
  cases hashes <;> cases sizes <;> rfl

/-- The arrays of the served report are the same. -/
structure SameReport (reporter later : ReporterMemory w) : Prop where
  sites : later.cachedSites = reporter.cachedSites
  count : later.cachedSiteCount = reporter.cachedSiteCount
  pairs : later.cachedPairs = reporter.cachedPairs

theorem savePrevDiff_holds (input : ScanInput w) (collected : Collected w)
    (holds : Holds rest temps reporter cache heap) :
    ∃ later heapLater,
      savePrevDiff input collected reporter heap = .ok (later, heapLater) ∧
      Holds rest temps later cache heapLater ∧
      SameReport reporter later ∧ PrevDiffReadable later := by
  have given : Holds rest (prevDiffBlocks reporter + temps)
      ({ reporter with
        prevDiffHashes := none
        prevDiffSizes := none
        prevDiffCount := 0 } : ReporterMemory w) cache heap :=
    holds.transfer (by rw [← add_assoc, owned_withoutPrevDiff])
  obtain ⟨first, freed, cleared, -⟩ := given.freeAll
  simp only [savePrevDiff, freed, ok_bind]
  cases collected.sorted with
  | none => exact ⟨_, first, rfl, cleared, ⟨rfl, rfl, rfl⟩, .inl rfl⟩
  | some array =>
      obtain ⟨number, nodes⟩ := array
      dsimp only
      split
      · obtain ⟨hashes, second, askedHashes, -, withHashes⟩ :=
          cleared.request_any input .prevDiffHashes
        obtain ⟨sizes, third, askedSizes, -, withSizes⟩ :=
          withHashes.request_any input .prevDiffSizes
        rw [askedHashes]
        dsimp only
        rw [askedSizes]
        refine ⟨_, third, rfl, withSizes.transfer ?_, ⟨rfl, rfl, rfl⟩, ?_⟩
        · have set := owned_setPrevDiff reporter
            (hashes.map fun id => (id, nodes.map fun node =>
              node.site.stackHash))
            (sizes.map fun id => (id, nodes.map fun node =>
              node.site.totalSize))
            (if hashes.isSome && sizes.isSome then collected.siteCount else 0)
          rw [prevDiffBlocks_set, ← Multiset.coe_add] at set
          refine Eq.trans ?_ (congrArg (· + temps) set).symm
          abel
        · unfold PrevDiffReadable
          cases hashes <;> cases sizes <;> simp
      · exact ⟨_, first, rfl, cleared, ⟨rfl, rfl, rfl⟩, .inl rfl⟩

/-! ## Stage 7 -/

theorem owned_withoutReport (reporter : ReporterMemory w) :
    ({ reporter with
        cachedSites := none
        cachedPairs := none } : ReporterMemory w).owned +
      (cachedSiteBlocks reporter + cachedPairBlocks reporter) =
        reporter.owned := by
  change ((tsDataBlocks reporter : Multiset Pointer) +
      prevDiffBlocks reporter + (0 : Multiset Pointer) +
        (0 : Multiset Pointer)) + _ =
    (tsDataBlocks reporter : Multiset Pointer) + prevDiffBlocks reporter +
      cachedSiteBlocks reporter + cachedPairBlocks reporter
  abel

/-- The blocks of copied sites. -/
def copyBlocks (copies : List (Option (LeakNode w))) : List Pointer :=
  (copies.filterMap fun copy => copy).map fun node => ⟨.cachedSite, node.id⟩

theorem copyNodes_holds (input : ScanInput w) (items : List (LeakNode w × Nat))
    {copies : List (Option (LeakNode w))} {heap : ScanHeap}
    (holds : Holds rest (copyBlocks copies + temps) reporter cache heap) :
    ∃ copiesLater heapLater,
      items.foldl (copyNode input) (copies, heap) =
        (copiesLater, heapLater) ∧
      copiesLater.length = copies.length + items.length ∧
      Holds rest (copyBlocks copiesLater + temps) reporter cache
        heapLater := by
  induction items generalizing copies heap with
  | nil => exact ⟨copies, heap, rfl, rfl, holds⟩
  | cons item items induction =>
      obtain ⟨-, failed⟩ | ⟨-, id, later, asked, taken⟩ :=
        holds.request input (.cachedSite item.2)
      · have same : copyBlocks (copies ++ [none]) = copyBlocks copies := by
          simp [copyBlocks]
        rw [← same] at holds
        obtain ⟨copiesLater, heapLater, copied, length, done⟩ :=
          induction holds
        refine ⟨copiesLater, heapLater, ?_, ?_, done⟩
        · rw [List.foldl_cons, copyNode, failed]
          exact copied
        · rw [length, List.length_append, List.length_cons]
          simp only [List.length_cons, List.length_nil]
          omega
      · have grown : (copyBlocks (copies ++ [some { item.1 with id }]) :
            Multiset Pointer) = ⟨.cachedSite, id⟩ ::ₘ copyBlocks copies := by
          simp [copyBlocks]
        have holdsLater : Holds rest
            (copyBlocks (copies ++ [some { item.1 with id }]) + temps)
            reporter cache later := by
          rw [grown, Multiset.cons_add]
          exact taken
        obtain ⟨copiesLater, heapLater, copied, length, done⟩ :=
          induction holdsLater
        refine ⟨copiesLater, heapLater, ?_, ?_, done⟩
        · rw [List.foldl_cons, copyNode, asked]
          exact copied
        · rw [length, List.length_append, List.length_cons]
          simp only [List.length_cons, List.length_nil]
          omega

/-- The reporter after its sites have been copied: nothing else has changed. -/
structure SitesCopied (input : ScanInput w) (collected : Collected w)
    (reporter later : ReporterMemory w) : Prop where
  pairs : later.cachedPairs = reporter.cachedPairs
  readable : PrevDiffReadable reporter → PrevDiffReadable later
  absent : later.cachedSites = none ↔
    collected.sorted = none ∨ collected.siteCount = 0 ∨
      input.fails .cachedSites = true
  length : ∀ id copies, later.cachedSites = some (id, copies) →
    copies.length = collected.siteCount ∧
      cachedSiteBlocks later = copyBlocks copies ++ [⟨.cachedSites, id⟩]

theorem refreshCachedSites_holds (input : ScanInput w) {collected : Collected w}
    (lengths : ∀ id nodes, collected.sorted = some (id, nodes) →
      nodes.length = collected.siteCount)
    (clear : reporter.cachedSites = none)
    (holds : Holds rest temps reporter cache heap) :
    ∃ later heapLater,
      refreshCachedSites input collected reporter heap = (later, heapLater) ∧
      Holds rest temps later cache heapLater ∧
      SitesCopied input collected reporter later := by
  have uncounted : ∀ count,
      Holds rest temps { reporter with cachedSiteCount := count } cache
        heap := by
    intro count
    refine holds.transfer ?_
    simp [ReporterMemory.owned, tsDataBlocks, prevDiffBlocks,
      cachedSiteBlocks, cachedPairBlocks, cachedCopies, clear]
  unfold refreshCachedSites
  cases sorted : collected.sorted with
  | none =>
      refine ⟨_, heap, rfl, uncounted 0, rfl, fun readable => readable, ?_, ?_⟩
      · simp [clear, sorted]
      · intro id copies same
        simp [clear] at same
  | some array =>
      obtain ⟨number, nodes⟩ := array
      dsimp only
      split
      · rename_i positive
        obtain ⟨fails, failed⟩ | ⟨succeeds, id, first, asked, taken⟩ :=
          holds.request input .cachedSites
        · rw [failed]
          refine ⟨_, heap, rfl, holds, rfl, fun readable => readable, ?_, ?_⟩
          · simp [clear, fails]
          · intro id copies same
            simp [clear] at same
        · rw [asked]
          have start : Holds rest
              (copyBlocks ([] : List (Option (LeakNode w))) +
              (⟨.cachedSites, id⟩ ::ₘ temps)) reporter cache first := by
            rw [show (copyBlocks ([] : List (Option (LeakNode w))) :
              Multiset Pointer) = 0 from rfl, zero_add]
            exact taken
          obtain ⟨copies, later, copied, length, done⟩ :=
            copyNodes_holds input nodes.zipIdx start
          have count : copies.length = collected.siteCount := by
            rw [length, List.length_zipIdx, lengths number nodes sorted]
            simp
          have all : copies.take collected.siteCount = copies :=
            List.take_of_length_le (Nat.le_of_eq count)
          have blocks : cachedSiteBlocks { reporter with
                cachedSites := some (id, copies)
                cachedSiteCount := collected.siteCount } =
              copyBlocks copies ++ [⟨.cachedSites, id⟩] := by
            simp only [cachedSiteBlocks, cachedCopies, all]
            rfl
          refine ⟨{ reporter with
              cachedSites := some (id, copies)
              cachedSiteCount := collected.siteCount }, later,
            by simp only [copied], done.transfer ?_, rfl,
            fun readable => readable, ?_, ?_⟩
          · have before : cachedSiteBlocks reporter = [] := by
              simp [cachedSiteBlocks, cachedCopies, clear]
            change ((tsDataBlocks reporter : Multiset Pointer) +
                prevDiffBlocks reporter + cachedSiteBlocks reporter +
                  cachedPairBlocks reporter) + _ =
              ((tsDataBlocks reporter : Multiset Pointer) +
                prevDiffBlocks reporter +
                  cachedSiteBlocks { reporter with
                    cachedSites := some (id, copies)
                    cachedSiteCount := collected.siteCount } +
                  cachedPairBlocks reporter) + temps
            rw [blocks, before, ← Multiset.coe_add,
              ← Multiset.singleton_add _ temps, Multiset.coe_nil,
              Multiset.coe_singleton]
            abel
          · simp [sorted, succeeds, Nat.pos_iff_ne_zero.mp positive]
          · intro other array same
            cases same
            exact ⟨count, blocks⟩
      · rename_i none
        refine ⟨_, heap, rfl, uncounted 0, rfl, fun readable => readable, ?_,
          ?_⟩
        · simp [clear, Nat.eq_zero_of_not_pos none]
        · intro id copies same
          simp [clear] at same

/-- Without the copied sites, the copied pairs point at the sites of the leak
table. -/
def PairsDangle (input : ScanInput w) (collected : Collected w) : Prop :=
  collected.pairs ≠ none ∧ input.fails .cachedSites = true ∧
    input.fails .cachedPairs = false

/-- Pointers of the cached pairs that lead to blocks in use. -/
def PairsSound (rest : Multiset Pointer) (reporter : ReporterMemory w) :
    Prop :=
  ∀ pointer ∈ pairPointers reporter,
    pointer ∈ cachedSiteBlocks reporter ∨ pointer ∈ rest

theorem mem_pairPointers {id : Nat} {pairs : List (SiteStackPair w)}
    (set : reporter.cachedPairs = some (id, pairs)) {pointer : Pointer} :
    pointer ∈ pairPointers reporter ↔
      ∃ pair ∈ pairs, pair.site = some pointer ∨
        ∃ node ∈ pair.stackEntry, pointer = ⟨.stackEntry, node.id⟩ := by
  simp only [pairPointers, set, List.mem_flatMap, List.mem_append,
    Option.mem_toList, List.mem_map]
  constructor
  · intro found
    obtain ⟨pair, member, site | ⟨node, same, rfl⟩⟩ := found
    · exact ⟨pair, member, .inl site⟩
    · exact ⟨pair, member, .inr ⟨node, same, rfl⟩⟩
  · intro found
    obtain ⟨pair, member, site | ⟨node, same, rfl⟩⟩ := found
    · exact ⟨pair, member, .inl site⟩
    · exact ⟨pair, member, .inr ⟨node, same, rfl⟩⟩

theorem mem_copyBlocks {copies : List (Option (LeakNode w))}
    {copy : Option (LeakNode w)} (member : copy ∈ copies) {pointer : Pointer}
    (same : copyPointer copy = some pointer) : pointer ∈ copyBlocks copies := by
  cases copy with
  | none => cases same
  | some node =>
      cases same
      exact List.mem_map.mpr ⟨node, List.mem_filterMap.mpr
        ⟨some node, member, rfl⟩, rfl⟩

/-- Copied pairs whose sites have been copied too point at the copies. -/
theorem repointed_sound {nodes : List (LeakNode w)}
    {pairs : List (SiteStackPair w)} (pairsFrom : PairsFrom rest nodes pairs)
    {copies : List (Option (LeakNode w))} {number : Nat}
    (sites : cachedSiteBlocks reporter =
      copyBlocks copies ++ [⟨.cachedSites, number⟩]) (id : Nat)
    {copied : List (SiteStackPair w)}
    (same : copied = List.zipWith (fun pair copy =>
      { pair with site := copyPointer copy }) pairs copies) :
    PairsSound rest
      { reporter with cachedPairs := some (id, copied) } := by
  intro pointer member
  obtain ⟨pair, inPairs, points⟩ := (mem_pairPointers rfl).mp member
  subst same
  obtain ⟨index, inside, rfl⟩ := List.getElem_of_mem inPairs
  rw [List.length_zipWith] at inside
  rw [List.getElem_zipWith] at points
  obtain site | ⟨node, entry, rfl⟩ := points
  · left
    change pointer ∈ cachedSiteBlocks reporter
    rw [sites]
    apply List.mem_append_left
    exact mem_copyBlocks (List.getElem_mem (by omega)) site
  · right
    exact pairsFrom.entries _ (List.getElem_mem (by omega)) node entry

/-- After stage 7 the pairs are sound unless they dangle. -/
structure PairsCopied (input : ScanInput w) (rest : Multiset Pointer)
    (collected : Collected w) (later : ReporterMemory w) : Prop where
  sound : ¬ PairsDangle input collected → PairsSound rest later
  dangling : PairsDangle input collected →
    ∃ node ∈ collected.nodes,
      (⟨.leakSite, node.id⟩ : Pointer) ∈ pairPointers later

/-- Pairs copied as they are point at a site of the leak table. -/
theorem dangling_mem {snaps : List (MttAllocSnap w)} {snapshot : Option Nat}
    {collected : Collected w} {before : ReporterMemory w}
    (collectedFrom : CollectedFrom input rest before snaps snapshot collected)
    {number : Nat} {nodes : List (LeakNode w)}
    (sorted : collected.sorted = some (number, nodes))
    (counted : collected.siteCount ≠ 0) {pairs : List (SiteStackPair w)}
    (pairsFrom : PairsFrom rest nodes pairs) {id : Nat}
    (set : reporter.cachedPairs = some (id, pairs)) :
    ∃ node ∈ collected.nodes,
      (⟨.leakSite, node.id⟩ : Pointer) ∈ pairPointers reporter := by
  obtain ⟨perm, length⟩ := collectedFrom.listed number nodes sorted
  cases nodes with
  | nil => exact (counted length.symm).elim
  | cons first more =>
      have inTable : first.id ∈ collected.nodes.map fun node => node.id :=
        perm.mem_iff.mp List.mem_cons_self
      obtain ⟨node, member, same⟩ := List.mem_map.mp inTable
      have listed : some (⟨.leakSite, first.id⟩ : Pointer) ∈
          pairs.map fun pair => pair.site := by
        rw [pairsFrom.sites]
        exact List.mem_cons_self
      obtain ⟨pair, inPairs, points⟩ := List.mem_map.mp listed
      refine ⟨node, member, (mem_pairPointers set).mpr ⟨pair, inPairs, ?_⟩⟩
      rw [same]
      exact .inl points

theorem refreshCachedPairs_holds {snaps : List (MttAllocSnap w)}
    {snapshot : Option Nat} {collected : Collected w}
    {before later : ReporterMemory w}
    (collectedFrom : CollectedFrom input rest before snaps snapshot collected)
    (copied : SitesCopied input collected reporter later)
    (clear : reporter.cachedPairs = none)
    (holds : Holds rest temps later cache heap) :
    ∃ final heapLater,
      refreshCachedPairs input collected later heap = (final, heapLater) ∧
      Holds rest temps final cache heapLater ∧
      (PrevDiffReadable later → PrevDiffReadable final) ∧
      PairsCopied input rest collected final := by
  have unpaired : later.cachedPairs = none := copied.pairs.trans clear
  have soundWithout : PairsSound rest later := by
    intro pointer member
    simp [pairPointers, unpaired] at member
  unfold refreshCachedPairs
  cases paired : collected.pairs with
  | none =>
      refine ⟨later, heap, rfl, holds, fun readable => readable,
        fun _ => soundWithout, ?_⟩
      intro dangle
      exact (dangle.1 paired).elim
  | some array =>
      obtain ⟨pairsId, pairs⟩ := array
      obtain ⟨number, nodes, sorted, pairsFrom⟩ :=
        collectedFrom.paired pairsId pairs paired
      have counted : collected.siteCount ≠ 0 := by
        intro zero
        have absent := collectedFrom.sorted.mpr (.inl zero)
        rw [sorted] at absent
        cases absent
      dsimp only
      rw [if_pos (Nat.pos_of_ne_zero counted)]
      obtain ⟨fails, failed⟩ | ⟨succeeds, id, heapLater, asked, taken⟩ :=
        holds.request input .cachedPairs
      · rw [failed]
        refine ⟨later, heap, rfl, holds, fun readable => readable,
          fun _ => soundWithout, ?_⟩
        intro dangle
        rw [dangle.2.2] at fails
        cases fails
      · rw [asked]
        have owned : ∀ copies, Holds rest temps
            { later with cachedPairs := some (id, copies) } cache
              heapLater := by
          intro copies
          refine taken.transfer ?_
          change ((tsDataBlocks later : Multiset Pointer) +
              prevDiffBlocks later + cachedSiteBlocks later +
                cachedPairBlocks later) + (⟨.cachedPairs, id⟩ ::ₘ temps) =
            ((tsDataBlocks later : Multiset Pointer) +
              prevDiffBlocks later + cachedSiteBlocks later +
                ([⟨.cachedPairs, id⟩] : List Pointer)) + temps
          rw [show cachedPairBlocks later = [] by
              simp [cachedPairBlocks, unpaired],
            ← Multiset.singleton_add _ temps, Multiset.coe_nil,
            Multiset.coe_singleton]
          abel
        refine ⟨{ later with cachedPairs := some (id, _) }, heapLater, rfl,
          owned _, fun readable => readable, ?_⟩
        obtain cachedSites | ⟨⟨copiesId, copies⟩, cachedSites⟩ :=
          Option.eq_none_or_eq_some later.cachedSites
        · have missing : input.fails .cachedSites = true := by
            obtain unsorted | zero | fails := copied.absent.mp cachedSites
            · rw [sorted] at unsorted
              cases unsorted
            · exact (counted zero).elim
            · exact fails
          constructor
          · intro safe
            exact (safe ⟨by simp [paired], missing, succeeds⟩).elim
          · intro _
            apply dangling_mem collectedFrom sorted counted pairsFrom
            simp only [cachedSites]
            rfl
        · constructor
          · intro _
            apply repointed_sound pairsFrom
              (copied.length copiesId copies cachedSites).2
            simp only [cachedSites]
          · intro dangle
            have absent := copied.absent.mpr (.inr (.inr dangle.2.1))
            rw [cachedSites] at absent
            cases absent

/-- The served report of `final` comes from the two copying loops. -/
def RefreshedFrom (input : ScanInput w) (collected : Collected w)
    (reporter final : ReporterMemory w) : Prop :=
  ∃ first copied middle,
    refreshCachedSites input collected
        { reporter with cachedSites := none, cachedPairs := none } first =
      (copied, middle) ∧
    SameReport (refreshCachedPairs input collected copied middle).1 final

theorem refreshCache_holds {snaps : List (MttAllocSnap w)}
    {snapshot : Option Nat} {collected : Collected w}
    {before : ReporterMemory w}
    (collectedFrom : CollectedFrom input rest before snaps snapshot collected)
    (readable : PrevDiffReadable reporter)
    (holds : Holds rest temps reporter cache heap) :
    ∃ final heapLater,
      refreshCache input collected reporter heap = .ok (final, heapLater) ∧
      Holds rest temps final cache heapLater ∧ PrevDiffReadable final ∧
      PairsCopied input rest collected final ∧
      RefreshedFrom input collected reporter final := by
  have given : Holds rest (cachedSiteBlocks reporter +
      (cachedPairBlocks reporter + temps))
      ({ reporter with
        cachedSites := none
        cachedPairs := none } : ReporterMemory w) cache heap :=
    holds.transfer (by
      rw [← add_assoc, ← add_assoc, add_assoc _
        (cachedSiteBlocks reporter : Multiset Pointer), owned_withoutReport])
  obtain ⟨first, freedSites, afterSites, -⟩ := given.freeAll
  obtain ⟨second, freedPairs, afterPairs, -⟩ := afterSites.freeAll
  obtain ⟨third, heapThree, sites, afterCopies, copied⟩ :=
    @refreshCachedSites_holds w rest _ _ _ _ input collected
      (fun id nodes sorted => (collectedFrom.listed id nodes sorted).2) rfl
      afterPairs
  obtain ⟨fourth, heapFour, pairs, afterPairing, readableLater, pairsCopied⟩ :=
    refreshCachedPairs_holds collectedFrom copied rfl afterCopies
  obtain ⟨data, heapFive, ts, done⟩ :=
    refreshTsCache_holds input 7 afterPairing
  refine ⟨_, heapFive, ?_, done, ?_, ?_, ?_⟩
  · simp only [refreshCache, freedSites, freedPairs, ok_bind, sites, pairs]
    exact ts
  · exact readableLater (copied.readable readable)
  · exact ⟨pairsCopied.sound, pairsCopied.dangling⟩
  · refine ⟨second, third, heapThree, sites, ?_⟩
    rw [pairs]
    exact ⟨rfl, rfl, rfl⟩

/-! ## Whole scans -/

/-- The offline report is written from an array that could not be allocated. -/
def JsonFaults (input : ScanInput w) (collected : Collected w) : Prop :=
  input.reportOpens = true ∧ input.reportFileSet = true ∧
    input.jsonOpens = true ∧ collected.sorted = none ∧
    collected.siteCount ≠ 0

theorem writeJsonReport_iff (collected : Collected w)
    (opens : input.reportOpens = true) :
    (∃ listed, writeJsonReport input collected = .ok listed) ↔
      ¬ JsonFaults input collected := by
  unfold writeJsonReport JsonFaults
  cases input.reportFileSet with
  | false => simp
  | true =>
      cases input.jsonOpens with
      | false => simp
      | true =>
          cases collected.sorted with
          | some array => simp
          | none =>
              by_cases zero : collected.siteCount = 0
              · simp [zero]
              · simp [zero, opens]

/-- Blocks that no scan keeps. -/
def ScanBlock.isTemporary : ScanBlock → Bool
  | .tsBuffer | .snapshot | .leakSite | .sorted | .pairs => true
  | _ => false

/-- Every temporary of the scan has been given back once, and what can be
reached from the reporter is in use. -/
structure CleanScan (before : ScanMemory w) (result : ScanResult w) : Prop where
  temporaries : ∀ block ∈ result.memory.heap.live + result.memory.heap.freed,
    before.heap.next ≤ block.id → block.kind.isTemporary = true →
      result.memory.heap.freed.count block = 1
  reachable : ∀ pointer ∈ result.memory.reporter.reachable,
    pointer ∈ result.memory.heap.live

/-- Memory from which a scan may start. -/
structure SoundMemory (memory : ScanMemory w) : Prop where
  kept : ∃ rest, Holds rest 0 memory.reporter memory.cache memory.heap ∧
    PairsSound rest memory.reporter
  readable : PrevDiffReadable memory.reporter

theorem soundMemory_initial (w : Nat) : SoundMemory (.initial w) := by
  constructor
  · refine ⟨0, ⟨Memory.valid_empty, rfl, ?_⟩, ?_⟩
    · intro bucket node member
      cases member
    · intro pointer member
      cases member
  · exact .inl rfl

theorem owned_isTemporary (reporter : ReporterMemory w) :
    ∀ block ∈ reporter.owned, block.kind.isTemporary = false := by
  intro block member
  simp only [ReporterMemory.owned, Multiset.mem_add, Multiset.mem_coe,
    tsDataBlocks, prevDiffBlocks, cachedSiteBlocks, cachedPairBlocks,
    List.mem_append, List.mem_map] at member
  obtain ((⟨id, -, rfl⟩ | ⟨array, -, rfl⟩ | ⟨array, -, rfl⟩) |
    ⟨node, -, rfl⟩ | ⟨array, -, rfl⟩) | ⟨array, -, rfl⟩ := member
  all_goals rfl

theorem PairsSound.reachable_live (holds : Holds rest 0 reporter cache heap)
    (sound : PairsSound rest reporter) :
    ∀ pointer ∈ reporter.reachable, pointer ∈ heap.live := by
  intro pointer member
  rw [holds.live, add_zero, Multiset.mem_add]
  rcases Multiset.mem_add.mp member with owned | points
  · exact .inl owned
  · rcases sound pointer (Multiset.mem_coe.mp points) with copied | kept
    · left
      unfold ReporterMemory.owned
      simp only [Multiset.mem_add, Multiset.mem_coe]
      exact .inl (.inr copied)
    · exact .inr kept

theorem PairsSound.mono {later : Multiset Pointer}
    (sound : PairsSound rest reporter) (grows : Grows rest later) :
    PairsSound later reporter := by
  intro pointer member
  exact (sound pointer member).imp_right grows.mem

/-- A scan that only adds stack entries to the rest has given back its
temporaries. -/
theorem temporaries_freed {before : ScanHeap} {later : Multiset Pointer}
    (valid : before.Valid) (part : rest ≤ before.live)
    (grows : Grows rest later) (holds : Holds later 0 reporter cache heap) :
    ∀ block ∈ heap.live + heap.freed, before.next ≤ block.id →
      block.kind.isTemporary = true → heap.freed.count block = 1 := by
  intro block known recent temporary
  refine holds.valid.count_freed known ?_
  intro live
  rw [holds.live, add_zero] at live
  rcases Multiset.mem_add.mp live with owned | kept
  · rw [owned_isTemporary reporter block owned] at temporary
    cases temporary
  · obtain ⟨entries, rfl, kinds⟩ := grows
    rcases Multiset.mem_add.mp kept with entry | old
    · rw [kinds block entry] at temporary
      cases temporary
    · have below := valid.bounded block
        (Multiset.mem_add.mpr (.inl (Multiset.mem_of_le part old)))
      omega

/-- The scan makes at least one leak site. -/
def ScanInput.FindsSites (input : ScanInput w) : Prop :=
  ∃ snaps, (takeSnapshot input .empty).1.map Prod.snd = some snaps ∧
    ∃ index < snaps.length, input.fails (.leakSite index) = false

/-- The failures a scan with sites and a report file gets through. -/
def SafeFailures (input : ScanInput w) : Prop :=
  input.FindsSites → input.reportOpens = true →
    (input.fails .sorted = true →
      ¬ (input.reportFileSet = true ∧ input.jsonOpens = true)) ∧
    (input.fails .sorted = false → input.fails .pairs = false →
      input.fails .cachedSites = true → input.fails .cachedPairs = true)

theorem safeFailures_iff {snaps : List (MttAllocSnap w)}
    {snapshot : Option Nat} {collected : Collected w}
    (collectedFrom : CollectedFrom input rest reporter snaps snapshot
      collected)
    (taken : (takeSnapshot input .empty).1.map Prod.snd = some snaps) :
    SafeFailures input ↔ (input.reportOpens = true →
      ¬ JsonFaults input collected ∧ ¬ PairsDangle input collected) := by
  have finds : input.FindsSites ↔ collected.siteCount ≠ 0 := by
    rw [← Nat.pos_iff_ne_zero, collectedFrom.found]
    constructor
    · intro found
      obtain ⟨other, same, index⟩ := found
      rw [taken] at same
      rw [Option.some.inj same]
      exact index
    · intro index
      exact ⟨snaps, taken, index⟩
  unfold SafeFailures JsonFaults PairsDangle
  rw [finds]
  simp only [ne_eq, collectedFrom.pairs, collectedFrom.sorted]
  by_cases zero : collected.siteCount = 0
  · simp [zero]
  · cases input.reportOpens <;> cases input.fails .sorted <;>
      cases input.fails .pairs <;> cases input.fails .cachedSites <;>
      cases input.fails .cachedPairs <;> simp [zero]

/-! ## The end of a scan -/

theorem publish_opens (collected : Collected w)
    (opens : input.reportOpens = true) (before : ReporterMemory w) :
    publish input collected before = (do
      let _ ← writeJsonReport input collected
      let (reporter, heap) ← savePrevDiff input collected before collected.heap
      refreshCache input collected reporter heap) := by
  rw [publish, if_pos opens]

/-- The report stages after an offline report that could be written. -/
theorem publish_holds {snaps : List (MttAllocSnap w)} {snapshot : Option Nat}
    {collected : Collected w} {before : ReporterMemory w}
    (collectedFrom : CollectedFrom input rest before snaps snapshot collected)
    (opens : input.reportOpens = true)
    (written : ¬ JsonFaults input collected) :
    ∃ final heapLater,
      publish input collected before = .ok (final, heapLater) ∧
      Holds rest (temporaries collected) final collected.cache heapLater ∧
      PrevDiffReadable final ∧ PairsCopied input rest collected final ∧
      ∃ saved, RefreshedFrom input collected saved final := by
  obtain ⟨listed, json⟩ := (writeJsonReport_iff collected opens).mpr written
  obtain ⟨saved, heapSaved, save, owns, -, readableSaved⟩ :=
    savePrevDiff_holds input collected collectedFrom.holds
  obtain ⟨final, heapLater, refresh, done, readableFinal, pairsCopied,
    refreshed⟩ := refreshCache_holds collectedFrom readableSaved owns
  refine ⟨final, heapLater, ?_, done, readableFinal, pairsCopied, saved,
    refreshed⟩
  rw [publish_opens collected opens, json, ok_bind, save, ok_bind]
  exact refresh

theorem Holds.giveBack {collected : Collected w}
    (holds : Holds rest (temporaries collected) reporter cache heap) :
    ∃ later, heap.freeAll (temporaries collected) = .ok later ∧
      Holds rest 0 reporter cache later ∧
      ∀ block ∈ temporaries collected, block ∈ later.freed := by
  rw [← add_zero (temporaries collected : Multiset Pointer)] at holds
  exact holds.freeAll

/-- Safe failures let the scan end with everything in place. -/
theorem finish_safe {snaps : List (MttAllocSnap w)} {snapshot : Option Nat}
    {collected : Collected w} {before : ReporterMemory w}
    (collectedFrom : CollectedFrom input rest before snaps snapshot collected)
    (readable : PrevDiffReadable before) (sound : PairsSound rest before)
    (safe : input.reportOpens = true →
      ¬ JsonFaults input collected ∧ ¬ PairsDangle input collected) :
    ∃ reporter heap later,
      publish input collected before = .ok (reporter, heap) ∧
      heap.freeAll (temporaries collected) = .ok later ∧
      Holds rest 0 reporter collected.cache later ∧
      PairsSound rest reporter ∧ PrevDiffReadable reporter := by
  cases opens : input.reportOpens with
  | false =>
      obtain ⟨later, freed, done, -⟩ := collectedFrom.holds.giveBack
      refine ⟨before, collected.heap, later, ?_, freed, done, sound, readable⟩
      rw [publish, opens]
      rfl
  | true =>
      obtain ⟨written, undangled⟩ := safe opens
      obtain ⟨reporter, heap, published, holds, readableLater, pairsCopied,
        -⟩ := publish_holds collectedFrom opens written
      obtain ⟨later, freed, done, -⟩ := holds.giveBack
      exact ⟨reporter, heap, later, published, freed, done,
        pairsCopied.sound undangled, readableLater⟩

/-- Other failures end the scan early or leave a pointer to a block that has
been given back. -/
theorem finish_unsafe {snaps : List (MttAllocSnap w)} {snapshot : Option Nat}
    {collected : Collected w} {before reporter : ReporterMemory w}
    (collectedFrom : CollectedFrom input rest before snaps snapshot collected)
    (opens : input.reportOpens = true) {later : ScanHeap}
    (published : publish input collected before = .ok (reporter, heap))
    (freed : heap.freeAll (temporaries collected) = .ok later)
    (reaches : ∀ pointer ∈ reporter.reachable, pointer ∈ later.live) :
    ¬ JsonFaults input collected ∧ ¬ PairsDangle input collected := by
  have written : ¬ JsonFaults input collected := by
    rw [← writeJsonReport_iff collected opens]
    cases json : writeJsonReport input collected with
    | ok listed => exact ⟨listed, rfl⟩
    | error fault =>
        rw [publish_opens collected opens, json] at published
        cases published
  refine ⟨written, ?_⟩
  intro dangle
  obtain ⟨final, heapFinal, same, holds, -, pairsCopied, -⟩ :=
    publish_holds collectedFrom opens written
  rw [published] at same
  cases same
  obtain ⟨laterFinal, freedFinal, done, given⟩ := holds.giveBack
  rw [freed] at freedFinal
  cases freedFinal
  obtain ⟨node, member, points⟩ := pairsCopied.dangling dangle
  refine done.valid.not_live_of_freed (given ⟨.leakSite, node.id⟩ ?_) ?_
  · exact List.mem_append_right _ (List.mem_map.mpr ⟨node, member, rfl⟩)
  · exact reaches _ (Multiset.mem_add.mpr (.inr points))

theorem scan_collected {memory : ScanMemory w} {reporter : ReporterMemory w}
    {later : ScanHeap} {snapshot : Option Nat} {snaps : List (MttAllocSnap w)}
    {collected : Collected w}
    (ts : refreshTsCache input 0 memory.reporter memory.heap =
      .ok (reporter, heap))
    (took : takeSnapshot input heap = (some (snapshot, snaps), later))
    (collects : collectSites input reporter memory.cache later snapshot snaps =
      .ok collected) :
    scanAndReportLocked input memory = (do
      let (reporter, heap) ← publish input collected reporter
      let heap ← heap.freeAll (temporaries collected)
      return {
        memory :=
          { heap
            cache := collected.cache
            reporter
            leakBytesTotal := collected.leakBytesTotal
            expiredAllocCount := collected.expiredAllocCount }
        sites := some (ownSites collected) }) := by
  rw [scanAndReportLocked, ts, ok_bind]
  dsimp only
  rw [took]
  dsimp only
  rw [collects, ok_bind]

/-- A scan from sound memory is clean exactly if its failures are safe, and it
leaves sound memory then. -/
theorem scan_clean_iff {memory : ScanMemory w} (sound : SoundMemory memory)
    (input : ScanInput w) :
    (SafeFailures input → ∃ result,
      scanAndReportLocked input memory = .ok result ∧
      CleanScan memory result ∧ SoundMemory result.memory) ∧
    ((∃ result, scanAndReportLocked input memory = .ok result ∧
      CleanScan memory result) → SafeFailures input) := by
  obtain ⟨rest, holds, pairsSound⟩ := sound.kept
  have part : rest ≤ memory.heap.live := by
    rw [holds.live]
    exact Multiset.le_add_left _ _
  obtain ⟨data, heap, ts, refreshed⟩ :=
    refreshTsCache_holds input 0 holds
  have snapsSame := takeSnapshot_snaps input heap .empty
  rcases takeSnapshot_holds input refreshed with
    skipped | ⟨snapshot, snaps, later, took, taken⟩
  · have noSites : ¬ input.FindsSites := by
      intro finds
      obtain ⟨snaps, same, -⟩ := finds
      rw [← snapsSame, skipped] at same
      cases same
    refine ⟨fun _ => ?_, fun _ finds => (noSites finds).elim⟩
    refine ⟨⟨{ memory with reporter := _, heap }, none⟩, ?_, ⟨?_, ?_⟩,
      ⟨⟨rest, refreshed, pairsSound⟩, sound.readable⟩⟩
    · rw [scanAndReportLocked, ts, ok_bind]
      dsimp only
      rw [skipped]
      rfl
    · exact temporaries_freed holds.valid part (.refl rest) refreshed
    · exact PairsSound.reachable_live refreshed pairsSound
  · rw [add_zero] at taken
    have readable : PrevDiffReadable
        ({ memory.reporter with cachedTsData := data } : ReporterMemory w) :=
      sound.readable
    obtain ⟨collected, more, collects, grows, collectedFrom⟩ :=
      collectSites_holds input readable snapshot snaps taken
    have soundMore : PairsSound more
        { memory.reporter with cachedTsData := data } :=
      PairsSound.mono pairsSound grows
    rw [took] at snapsSame
    have scanned := scan_collected ts took collects
    have safeIff := safeFailures_iff collectedFrom snapsSame.symm
    constructor
    · intro safe
      obtain ⟨reporter, heapOut, final, published, freed, done, pairsOut,
        readableOut⟩ := finish_safe collectedFrom readable soundMore
          (safeIff.mp safe)
      refine ⟨⟨⟨final, collected.cache, reporter, collected.leakBytesTotal,
        collected.expiredAllocCount⟩, some (ownSites collected)⟩, ?_,
        ⟨?_, ?_⟩, ⟨⟨more, done, pairsOut⟩, readableOut⟩⟩
      · rw [scanned, published, ok_bind]
        dsimp only
        rw [freed]
        rfl
      · exact temporaries_freed holds.valid part grows done
      · exact pairsOut.reachable_live done
    · intro clean
      obtain ⟨result, ran, clean⟩ := clean
      rw [safeIff]
      intro opens
      rw [scanned] at ran
      cases published : publish input collected
        { memory.reporter with cachedTsData := data } with
      | error fault =>
          rw [published] at ran
          cases ran
      | ok out =>
          obtain ⟨reporter, heapOut⟩ := out
          rw [published, ok_bind] at ran
          dsimp only at ran
          cases freed : heapOut.freeAll (temporaries collected) with
          | error fault =>
              rw [freed] at ran
              cases ran
          | ok final =>
              rw [freed, ok_bind] at ran
              cases ran
              exact finish_unsafe collectedFrom opens published freed
                clean.reachable

/-- Every scan of a sequence is clean. -/
def ScansClean : List (ScanInput w) → ScanMemory w → Prop
  | [], _ => True
  | input :: rest, memory =>
      ∃ result, scanAndReportLocked input memory = .ok result ∧
        CleanScan memory result ∧ ScansClean rest result.memory

/-- All scans of a process are clean exactly if, whenever one has found sites
and can write its report, it has a sorted array or no offline report to write,
and it copies the pairs only along with the sites. -/
theorem scansClean_iff (inputs : List (ScanInput w)) :
    ScansClean inputs (.initial w) ↔ ∀ input ∈ inputs, SafeFailures input := by
  have fromSound : ∀ (inputs : List (ScanInput w)) (memory : ScanMemory w),
      SoundMemory memory →
        (ScansClean inputs memory ↔ ∀ input ∈ inputs, SafeFailures input) := by
    intro inputs
    induction inputs with
    | nil => simp [ScansClean]
    | cons input rest induction =>
        intro memory sound
        obtain ⟨forward, backward⟩ := scan_clean_iff sound input
        rw [List.forall_mem_cons]
        constructor
        · intro clean
          obtain ⟨result, ran, cleanHere, later⟩ := clean
          have safe := backward ⟨result, ran, cleanHere⟩
          obtain ⟨other, same, -, soundLater⟩ := forward safe
          rw [ran] at same
          cases same
          exact ⟨safe, (induction _ soundLater).mp later⟩
        · intro safe
          obtain ⟨result, ran, cleanHere, soundLater⟩ := forward safe.1
          exact ⟨result, ran, cleanHere,
            (induction _ soundLater).mpr safe.2⟩
  exact fromSound inputs _ (soundMemory_initial w)

/-- A scan of one block without a stack, with an offline report to write. -/
def oneBlockScan (fails : AllocPoint → Bool) : ScanInput 64 :=
  { clock := { now := 100, leakThresholdSec := 0 }
    entryTotal := 1
    active := [{ ptr := 0x1000, size := 10, timestamp := 5, stack := [] }]
    fails
    tsReady := false
    tsCount := fun _ => 0
    reportOpens := true
    reportRenames := true
    reportFileSet := true
    jsonOpens := true }

theorem oneBlockScan_finds {fails : AllocPoint → Bool}
    (snapshot : fails (.snapshot 0) = false)
    (site : fails (.leakSite 0) = false) : (oneBlockScan fails).FindsSites := by
  refine ⟨(oneBlockScan fails).active, ?_, 0, Nat.one_pos, site⟩
  simp [takeSnapshot, allocSnapshot, ScanInput.request, oneBlockScan,
    snapshot, Memory.malloc_succeeds]

theorem not_scansClean_of_unsafe {input : ScanInput w}
    (unsafeInput : ¬ SafeFailures input) :
    ¬ ScansClean [input] (.initial w) := by
  intro clean
  obtain ⟨result, ran, cleanHere, -⟩ := clean
  exact unsafeInput
    ((scan_clean_iff (soundMemory_initial w) input).2 ⟨result, ran, cleanHere⟩)

/-- One failed allocation is enough: without the sorted array the offline
report follows a null pointer, and without the copied sites the copied pairs
dangle. -/
theorem one_failure_not_clean :
    ¬ ScansClean [oneBlockScan fun point => point = .sorted] (.initial 64) ∧
    ¬ ScansClean [oneBlockScan fun point => point = .cachedSites]
      (.initial 64) := by
  constructor
  · apply not_scansClean_of_unsafe
    intro safe
    have finds : (oneBlockScan fun point => point = .sorted).FindsSites :=
      oneBlockScan_finds rfl rfl
    exact (safe finds rfl).1 rfl ⟨rfl, rfl⟩
  · apply not_scansClean_of_unsafe
    intro safe
    have finds :
        (oneBlockScan fun point => point = .cachedSites).FindsSites :=
      oneBlockScan_finds rfl rfl
    have copied := (safe finds rfl).2 rfl rfl rfl
    cases copied

end MemoryTraceTool
