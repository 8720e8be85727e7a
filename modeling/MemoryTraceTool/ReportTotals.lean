import MemoryTraceTool.ReportScan
import MemoryTraceTool.StripeSnapshot

/-!
# The totals of a report

The hooks keep `current_bytes` and `entry_count` while they change the table;
a scan copies the table, groups the copies into leak sites and adds these up
again.  With no call in flight the sums agree exactly when the scan got its
whole snapshot and every key of it a site, whatever else could not be
allocated.
-/

namespace MemoryTraceTool.ReportTotals

open Transition

/-! ## The entries in the order of a pass -/

def scanOrder (buckets : Buckets) : List MttEntry :=
  (List.range mttLockStripes).flatMap (stripeEntries buckets)

theorem mem_flatMap_stripeBuckets {bucket : Nat} :
    bucket ∈ (List.range mttLockStripes).flatMap stripeBuckets ↔
      bucket < mttBuckets := by
  rw [List.mem_flatMap]
  constructor
  · intro found
    obtain ⟨lockIdx, stripe, member⟩ := found
    exact ((mem_stripeBuckets (List.mem_range.mp stripe)).mp member).1
  · intro below
    have stripe : bucket % mttLockStripes < mttLockStripes :=
      Nat.mod_lt _ (by decide)
    exact ⟨bucket % mttLockStripes, List.mem_range.mpr stripe,
      (mem_stripeBuckets stripe).mpr ⟨below, rfl⟩⟩

theorem nodup_flatMap_stripeBuckets :
    ((List.range mttLockStripes).flatMap stripeBuckets).Nodup := by
  apply List.nodup_flatMap.mpr
  constructor
  · intro lockIdx _
    exact nodup_stripeBuckets lockIdx
  · refine List.Pairwise.imp_of_mem ?_ List.nodup_range
    intro first second firstStripe secondStripe different bucket
      inFirst inSecond
    rw [List.mem_range] at firstStripe secondStripe
    have ofFirst := ((mem_stripeBuckets firstStripe).mp inFirst).2
    have ofSecond := ((mem_stripeBuckets secondStripe).mp inSecond).2
    exact different (ofFirst.symm.trans ofSecond)

theorem scanOrder_perm (buckets : Buckets) :
    (scanOrder buckets).Perm ((List.range mttBuckets).flatMap buckets) := by
  have indices : ((List.range mttLockStripes).flatMap stripeBuckets).Perm
      (List.range mttBuckets) := by
    rw [List.perm_ext_iff_of_nodup nodup_flatMap_stripeBuckets
      List.nodup_range]
    intro bucket
    rw [mem_flatMap_stripeBuckets, List.mem_range]
  have visited := indices.flatMap_right buckets
  rw [List.flatMap_assoc] at visited
  exact visited

theorem chainBytes_eq_sum (chain : List MttEntry) :
    chainBytes chain = ((chain.map MttEntry.size).sum : Nat) := by
  induction chain with
  | nil => rfl
  | cons entry rest induction =>
      rw [chainBytes, induction, List.map_cons, List.sum_cons, Nat.cast_add]

theorem measure_flatMap_range {Item : Type} (items : Nat → List Item)
    (measure : List Item → Nat) (empty : measure [] = 0)
    (append : ∀ first second,
      measure (first ++ second) = measure first + measure second)
    (count : Nat) :
    measure ((List.range count).flatMap items) =
      ∑ i ∈ Finset.range count, measure (items i) := by
  induction count with
  | zero => exact empty
  | succ count induction =>
      rw [List.range_succ, List.flatMap_append, append, induction,
        Finset.sum_range_succ, List.flatMap_singleton]

theorem bucketBytes_eq_scanOrder (buckets : Buckets) :
    bucketBytes buckets =
      (((scanOrder buckets).map MttEntry.size).sum : Nat) := by
  have total := measure_flatMap_range buckets
    (fun entries => (entries.map MttEntry.size).sum) rfl
    (fun first second => by rw [List.map_append, List.sum_append]) mttBuckets
  rw [((scanOrder_perm buckets).map MttEntry.size).sum_eq, total,
    bucketBytes, Nat.cast_sum]
  exact Finset.sum_congr rfl fun bucket _ => chainBytes_eq_sum _

theorem bucketNodes_eq_scanOrder (buckets : Buckets) :
    bucketNodes buckets = (scanOrder buckets).length := by
  have total := measure_flatMap_range buckets List.length rfl
    (fun _ _ => List.length_append) mttBuckets
  rw [(scanOrder_perm buckets).length_eq, total, bucketNodes, Nat.cast_sum]
  rfl

theorem mem_scanOrder {buckets : Buckets} {entry : MttEntry} :
    entry ∈ scanOrder buckets ↔
      ∃ bucket < mttBuckets, entry ∈ buckets bucket := by
  rw [(scanOrder_perm buckets).mem_iff, List.mem_flatMap]
  simp only [List.mem_range]

/-! ## A pass with no call in flight -/

section Pass

variable {Thread : Type} [DecidableEq Thread]

/-- What a pass has copied when it comes to a stripe. -/
def copiedBefore (buckets : Buckets) (lockIdx entryTotal : Nat) :
    List MttEntry :=
  ((List.range lockIdx).flatMap (stripeEntries buckets)).take entryTotal

theorem copyBuckets_copiedBefore (buckets : Buckets)
    (lockIdx entryTotal : Nat) :
    copyBuckets entryTotal buckets (stripeBuckets lockIdx)
        (copiedBefore buckets lockIdx entryTotal) =
      copiedBefore buckets (lockIdx + 1) entryTotal := by
  rw [copyBuckets_eq, copiedBefore, copiedBefore, List.range_succ,
    List.flatMap_append, List.take_append, List.length_take]
  congr 1
  simp only [List.flatMap_cons, List.flatMap_nil, List.append_nil,
    stripeEntries]
  congr 1
  omega

/-- A pass that stops at a full snapshot has missed nothing that would have
fit. -/
theorem copiedBefore_eq_take {buckets : Buckets} {lockIdx entryTotal : Nat}
    (below : lockIdx ≤ mttLockStripes)
    (stops : ¬ (lockIdx < mttLockStripes ∧
      (copiedBefore buckets lockIdx entryTotal).length < entryTotal)) :
    copiedBefore buckets lockIdx entryTotal =
      (scanOrder buckets).take entryTotal := by
  obtain ⟨left, together⟩ := Nat.exists_eq_add_of_le below
  rw [scanOrder, together, List.range_add, List.flatMap_append,
    List.take_append, copiedBefore]
  cases left with
  | zero => simp
  | succ left =>
      have full : entryTotal ≤
          ((List.range lockIdx).flatMap (stripeEntries buckets)).length := by
        rw [copiedBefore, List.length_take] at stops
        omega
      rw [Nat.sub_eq_zero_of_le full, List.take_zero, List.append_nil]

def isPass : SnapshotLabel Thread → Bool
  | .pass => true
  | .run _ => false

/-- What holds during a pass while no call runs. -/
def PassCopies (table : CounterState Thread) (state : SnapshotState Thread) :
    Prop :=
  state.table = table ∧
    match state.pc with
    | .before => True
    | .visit lockIdx entryTotal =>
        entryTotal = table.counters.entryCount.toNat ∧
          lockIdx < mttLockStripes ∧
          state.snaps = copiedBefore table.buckets lockIdx entryTotal
    | .done =>
        state.snaps = (scanOrder table.buckets).take
          table.counters.entryCount.toNat

omit [DecidableEq Thread] in
theorem passCopies_after {table : CounterState Thread}
    {state : SnapshotState Thread} {lockIdx : Nat}
    (same : state.table = table) (below : lockIdx ≤ mttLockStripes)
    (copies : state.snaps = copiedBefore table.buckets lockIdx
      table.counters.entryCount.toNat)
    (pc : state.pc = .after lockIdx table.counters.entryCount.toNat
      state.snaps.length) : PassCopies table state := by
  refine ⟨same, ?_⟩
  rw [pc, PassPc.after]
  by_cases goes : lockIdx < mttLockStripes ∧
      state.snaps.length < table.counters.entryCount.toNat
  · rw [if_pos goes]
    exact ⟨rfl, goes.1, copies⟩
  · rw [if_neg goes]
    rw [copies] at goes ⊢
    exact copiedBefore_eq_take below goes

/-- With no call in flight a pass copies the table in its order, as far as
`entry_count` reaches. -/
theorem pass_copies {state later : SnapshotState Thread}
    (before : state.pc = .before)
    (steps : (snapshotSystem Thread).StepsBy
      (fun _ label => isPass label = true) state later)
    (done : later.pc = .done) :
    later.snaps = (scanOrder state.table.buckets).take
      state.table.counters.entryCount.toNat := by
  have start : PassCopies state.table state := by
    refine ⟨rfl, ?_⟩
    rw [before]
    trivial
  have copied := steps.preserves (PassCopies state.table) ?_ start
  · have ended := copied.2
    rw [done] at ended
    exact ended
  · intro source label target copies passing taken
    cases label with
    | run label => cases passing
    | pass => ?_
    obtain ⟨same, copies⟩ := copies
    change passNext source = some target at taken
    unfold passNext at taken
    split at taken
    · cases taken
      refine passCopies_after ?_ (Nat.zero_le _) ?_ ?_
      · exact same
      · simp [copiedBefore]
      · simp [same]
    · rename_i lockIdx entryTotal visiting
      rw [visiting] at copies
      obtain ⟨rfl, below, copies⟩ := copies
      split at taken
      · cases taken
        rw [same, copies, copyBuckets_copiedBefore]
        refine passCopies_after ?_ below ?_ ?_
        · rfl
        · rfl
        · rfl
      · cases taken
    · cases taken

end Pass

/-! ## The totals -/

section Sums

variable {Item : Type}

theorem sum_le_of_sublist {kept items : List Item}
    (sublist : kept.Sublist items) (amount : Item → Nat) :
    (kept.map amount).sum ≤ (items.map amount).sum := by
  induction sublist with
  | slnil => exact Nat.le_refl _
  | cons item _ induction =>
      rw [List.map_cons, List.sum_cons]
      omega
  | cons_cons item _ induction =>
      rw [List.map_cons, List.sum_cons, List.map_cons, List.sum_cons]
      omega

/-- Leaving out an item of positive amount makes the sum smaller. -/
theorem sum_eq_iff_of_sublist {kept items : List Item}
    (sublist : kept.Sublist items) {amount : Item → Nat}
    (positive : ∀ item ∈ items, 0 < amount item) :
    (kept.map amount).sum = (items.map amount).sum ↔ kept = items := by
  constructor
  · intro same
    induction sublist with
    | slnil => rfl
    | @cons kept rest item sublist induction =>
        have less := sum_le_of_sublist sublist amount
        have more := positive item List.mem_cons_self
        rw [List.map_cons, List.sum_cons] at same
        omega
    | @cons_cons kept rest item sublist induction =>
        rw [List.map_cons, List.sum_cons, List.map_cons, List.sum_cons,
          Nat.add_left_cancel_iff] at same
        rw [induction (fun other member =>
          positive other (List.mem_cons_of_mem _ member)) same]
  · intro same
    rw [same]

theorem toNat_ofNat_of_lt {value : Nat} (small : value < 2 ^ 64) :
    (BitVec.ofNat 64 value).toNat = value := by
  rw [BitVec.toNat_ofNat]
  exact Nat.mod_eq_of_lt small

theorem sum_ofNat (amount : Item → Nat) (items : List Item) :
    (items.map fun item => BitVec.ofNat 64 (amount item)).sum =
      BitVec.ofNat 64 (items.map amount).sum := by
  induction items with
  | nil => rfl
  | cons item items induction =>
      rw [List.map_cons, List.sum_cons, induction, List.map_cons,
        List.sum_cons, BitVec.ofNat_add]

end Sums

/-! ## The snapshot array -/

section Snapshot

variable {w : Nat} {input : ScanInput w}

/-- An array is as large as asked for only if the first request succeeds. -/
theorem allocSnapshot_size {fuel attempt tryEntries id size : Nat}
    {heap : ScanHeap}
    (obtained : (allocSnapshot input fuel attempt tryEntries heap).1 =
      some (id, size)) :
    size ≤ tryEntries ∧
      (0 < tryEntries →
        (size = tryEntries ↔ input.fails (.snapshot attempt) = false)) := by
  induction fuel generalizing attempt tryEntries heap with
  | zero => cases obtained
  | succ fuel induction =>
      rw [allocSnapshot, ScanInput.request] at obtained
      cases fails : input.fails (.snapshot attempt) with
      | false =>
          rw [fails, Heap.Memory.malloc_succeeds] at obtained
          cases obtained
          exact ⟨Nat.le_refl _, fun _ => ⟨fun _ => rfl, fun _ => rfl⟩⟩
      | true =>
          rw [fails, Heap.Memory.malloc_fails] at obtained
          dsimp only at obtained
          split at obtained
          · have halved := (induction obtained).1
            refine ⟨by omega, fun positive => ⟨?_, ?_⟩⟩
            · intro whole
              omega
            · intro succeeds
              cases succeeds
          · cases obtained

theorem takeSnapshot_take {heap later : ScanHeap} {array : Option Nat}
    {snaps : List (MttAllocSnap w)}
    (taken : takeSnapshot input heap = (some (array, snaps), later))
    (total : input.active.length = input.entryTotal) :
    ∃ size ≤ input.entryTotal, snaps = input.active.take size ∧
      (size = input.entryTotal ↔
        (0 < input.entryTotal → input.fails (.snapshot 0) = false)) := by
  unfold takeSnapshot at taken
  split at taken
  · rename_i positive
    split at taken
    · cases taken
    · rename_i id size heap obtained
      cases taken
      have sized := allocSnapshot_size (congrArg Prod.fst obtained)
      refine ⟨size, sized.1, rfl, ?_⟩
      rw [sized.2 positive]
      exact ⟨fun succeeds _ => succeeds, fun succeeds => succeeds positive⟩
  · rename_i none
    cases taken
    refine ⟨0, Nat.zero_le _, rfl, ?_⟩
    constructor
    · intro _ positive
      exact absurd positive none
    · intro _
      omega

end Snapshot

/-- A copied entry, with the time and the stack that were recorded with it. -/
def snapOf (describe : MttEntry → Int × List Word) (entry : MttEntry) :
    MttAllocSnap 64 :=
  { ptr := entry.ptr
    size := BitVec.ofNat 64 entry.size
    timestamp := (describe entry).1
    stack := (describe entry).2 }

/-! ## The report -/

section Report

variable (describe : MttEntry → Int × List Word) (clock : ScanClock)
  (cache : MttStackCache 64)

/-- The blocks of a snapshot that a site counts. -/
def countedSnaps (failures : LeakFailures) (snaps : List (MttAllocSnap 64)) :
    List (MttAllocSnap 64) :=
  (keptSnaps failures snaps).filter fun snap =>
    (admittedKeys (keptSnaps failures snaps)).contains (snapKey snap)

theorem countedSnaps_eq (failures : LeakFailures)
    (snaps : List (MttAllocSnap 64)) :
    countedSnaps failures snaps =
      (keptSnaps failures snaps).filter fun snap =>
        snapKey snap ∈ admittedKeys (keptSnaps failures snaps) := by
  apply List.filter_congr
  intro snap _
  exact List.contains_eq_mem _ _

theorem countedSnaps_sublist (failures : LeakFailures)
    (snaps : List (MttAllocSnap 64)) :
    (countedSnaps failures snaps).Sublist snaps :=
  List.filter_sublist.trans (keptSnaps_sublist failures snaps)

theorem countedSnaps_eq_iff {failures : LeakFailures}
    {snaps : List (MttAllocSnap 64)} :
    countedSnaps failures snaps = snaps ↔
      (snaps.map snapKey).dedup.length ≤ mttLeakDedupSize ∧
        ∀ request < (snaps.map snapKey).dedup.length,
          failures.leakSite request = false := by
  constructor
  · intro all
    have kept : keptSnaps failures snaps = snaps := by
      apply (keptSnaps_sublist failures snaps).eq_of_length_le
      rw [← congrArg List.length all]
      exact List.length_filter_le ..
    have admitted : ∀ snap ∈ snaps, snapKey snap ∈ admittedKeys snaps := by
      intro snap member
      rw [← all, countedSnaps_eq, kept, List.mem_filter] at member
      exact of_decide_eq_true member.2
    have few := admitted_all_iff.mp admitted
    refine ⟨few, ?_⟩
    have granted := (Grouping.keep_eq_self_iff snaps).mp kept
    intro request below
    apply granted request
    have keys : (snaps.map snapKey).dedup ⊆ admittedKeys snaps := by
      intro key member
      exact (mem_admittedKeys_iff few).mpr (List.mem_dedup.mp member)
    exact Nat.lt_of_lt_of_le below
      ((List.nodup_dedup _).subperm keys).length_le
  · intro whole
    have kept := keptSnaps_eq_self whole.2
    rw [countedSnaps_eq, kept]
    apply List.filter_eq_self.mpr
    intro snap member
    exact decide_eq_true (admitted_all_iff.mpr whole.1 snap member)

theorem sum_counted {Amount : Type} [AddCommMonoid Amount]
    (failures : LeakFailures) (snaps : List (MttAllocSnap 64))
    (measure : MttLeakSite 64 → Amount) (amount : MttAllocSnap 64 → Amount)
    (measured : ∀ (blocks : List (MttAllocSnap 64)) (site : MttLeakSite 64),
      siteOf clock blocks = some site →
        measure site = (blocks.map amount).sum) :
    ((scanLeakTableWith failures clock cache snaps).sites.map measure).sum =
      ((countedSnaps failures snaps).map amount).sum := by
  rw [scanLeakTableWith_sites, countedSnaps_eq, ← sum_admitted clock cache]
  apply congrArg List.sum
  apply List.map_congr_left
  intro site member
  exact measured _ site (mem_sites_iff.mp member).2

/-- What a scan of the copied entries says is the truth about some of them,
and about all of them exactly if there is a site for each key. -/
theorem exists_counted (failures : LeakFailures) (taken : List MttEntry) :
    let snaps := taken.map (snapOf describe)
    let table := scanLeakTableWith failures clock cache snaps
    ∃ counted : List MttEntry, counted.Sublist taken ∧
      table.leakBytesTotal =
        BitVec.ofNat 64 (counted.map MttEntry.size).sum ∧
      (table.sites.map MttLeakSite.count).sum = counted.length ∧
      (counted = taken ↔ countedSnaps failures snaps = snaps) := by
  intro snaps table
  obtain ⟨counted, within, same⟩ :=
    List.sublist_map_iff.mp (countedSnaps_sublist failures snaps)
  refine ⟨counted, within, ?_, ?_, ?_⟩
  · have bytes := sum_counted clock cache failures snaps
      MttLeakSite.totalSize MttAllocSnap.size
      (fun _ _ found => siteOf_totalSize found)
    rw [same, List.map_map] at bytes
    rw [scanLeakTableWith_leakBytesTotal, bytes, ← sum_ofNat]
    rfl
  · have blocks := sum_counted clock cache failures snaps
      MttLeakSite.count (fun _ => 1)
      (fun blocks _ found => by simpa using siteOf_count found)
    rw [same, List.map_map] at blocks
    simpa [Function.comp_def] using blocks
  · rw [same]
    constructor
    · intro all
      rw [all]
    · intro all
      apply within.eq_of_length
      have lengths := congrArg List.length all
      rwa [List.length_map, List.length_map] at lengths

/-- The blocks listed by the report; without an array of the sites there are
none. -/
theorem sum_sorted (failures : LeakFailures)
    (snaps : List (MttAllocSnap 64)) :
    ((scanLeakTableWith failures clock cache snaps).sorted.map
      MttLeakSite.count).sum =
        if failures.sorted then 0
        else ((scanLeakTableWith failures clock cache snaps).sites.map
          MttLeakSite.count).sum := by
  rw [scanLeakTableWith_sorted, scanLeakTableWith_sites]
  split
  · rfl
  · exact ((sorted_perm clock cache _).map MttLeakSite.count).sum_eq

end Report

/-- The scan got the array it asked for, and every key has a site. -/
structure Whole (input : ScanInput 64) (failures : LeakFailures) : Prop where
  snapshot : 0 < input.entryTotal → input.fails (.snapshot 0) = false
  keys : (input.active.map snapKey).dedup.length ≤ mttLeakDedupSize
  leakSite : ∀ request < (input.active.map snapKey).dedup.length,
    failures.leakSite request = false

theorem counted_eq_iff {describe : MttEntry → Int × List Word}
    {input : ScanInput 64} {failures : LeakFailures}
    {entries counted : List MttEntry} {size : Nat}
    (active : input.active = entries.map (snapOf describe))
    (total : entries.length = input.entryTotal)
    (small : size ≤ input.entryTotal)
    (sized : size = input.entryTotal ↔
      (0 < input.entryTotal → input.fails (.snapshot 0) = false))
    (within : counted.Sublist (entries.take size))
    (every : counted = entries.take size ↔
      countedSnaps failures ((entries.take size).map (snapOf describe)) =
        (entries.take size).map (snapOf describe)) :
    counted = entries ↔ Whole input failures := by
  have whole : size = input.entryTotal → entries.take size = entries :=
    fun same => List.take_of_length_le (by omega)
  constructor
  · intro all
    have fewer := within.length_le
    rw [all, List.length_take] at fewer
    have same : size = input.entryTotal := by omega
    rw [whole same, ← active, countedSnaps_eq_iff] at every
    have sites := every.mp all
    exact ⟨sized.mp same, sites.1, sites.2⟩
  · intro complete
    have same := sized.mpr complete.snapshot
    rw [whole same, ← active, countedSnaps_eq_iff] at every
    exact every.mpr ⟨complete.keys, complete.leakSite⟩

section Totals

variable {Thread : Type} [DecidableEq Thread] [Fintype Thread]

/-- With no call in flight the counters are the sums over the table. -/
theorem counters_scanOrder {table : CounterState Thread}
    (reachable : (counterSystem Thread).ReachableBy
      (fun state _ => TrackedBytesFit state) table)
    (fits : TrackedBytesFit table)
    (idle : ∀ thread, table.threads thread = .idle) :
    ((scanOrder table.buckets).map MttEntry.size).sum < 2 ^ 64 ∧
      table.counters.currentBytes =
        BitVec.ofNat 64 ((scanOrder table.buckets).map MttEntry.size).sum ∧
      table.counters.entryCount.toNat = (scanOrder table.buckets).length ∧
      ∀ entry ∈ scanOrder table.buckets, 0 < entry.size := by
  have invariant := counterInvariant_reachable reachable
  have bytes := invariant.bytes
  have entries := invariant.entries
  simp only [idle, SectionThread.idle, SectionPc.bytesInFlight,
    SectionPc.entriesInFlight, Finset.sum_const_zero, add_zero] at bytes entries
  simp only [TrackedBytesFit, idle, SectionThread.idle,
    SectionPc.pendingBytes, Finset.sum_const_zero, add_zero] at fits
  have fewer := bucketNodes_le_bucketBytes invariant.positive
  rw [bucketBytes_eq_scanOrder] at bytes fits fewer
  rw [bucketNodes_eq_scanOrder] at entries fewer
  refine ⟨by omega, ?_, ?_, ?_⟩
  · rw [bytes]
    exact BitVec.ofInt_natCast ..
  · rw [entries, Word.toNat_intCast (by omega) (by omega)]
    omega
  · intro entry member
    obtain ⟨bucket, _, inBucket⟩ := mem_scanOrder.mp member
    exact invariant.positive bucket entry inBucket

/-- In every state that the hooks can leave, with no call in flight, a scan
reports at most the bytes and blocks that are tracked.  It reports all bytes
exactly if it got the array it asked for and a site for every key, and lists
all blocks exactly if it also got the array of the sites. -/
theorem report_totals {state passed : SnapshotState Thread}
    (before : state.pc = .before)
    (steps : (snapshotSystem Thread).StepsBy
      (fun _ label => isPass label = true) state passed)
    (done : passed.pc = .done)
    (reachable : (counterSystem Thread).ReachableBy
      (fun state _ => TrackedBytesFit state) state.table)
    (fits : TrackedBytesFit state.table)
    (idle : ∀ thread, state.table.threads thread = .idle)
    (describe : MttEntry → Int × List Word) (cache : MttStackCache 64)
    {input : ScanInput 64} (failures : LeakFailures)
    (total : input.entryTotal = state.table.counters.entryCount.toNat)
    (active : input.active = passed.snaps.map (snapOf describe))
    {heap later : ScanHeap} {array : Option Nat}
    {snaps : List (MttAllocSnap 64)}
    (taken : takeSnapshot input heap = (some (array, snaps), later)) :
    let report := scanLeakTableWith failures input.clock cache snaps
    (report.leakBytesTotal ≤ state.table.counters.currentBytes ∧
      (report.sorted.map MttLeakSite.count).sum ≤
        state.table.counters.entryCount.toNat) ∧
    (report.leakBytesTotal = state.table.counters.currentBytes ↔
      Whole input failures) ∧
    ((report.sorted.map MttLeakSite.count).sum =
      state.table.counters.entryCount.toNat ↔
        input.entryTotal = 0 ∨
          Whole input failures ∧ failures.sorted = false) := by
  intro report
  obtain ⟨small, bytes, nodes, positive⟩ :=
    counters_scanOrder reachable fits idle
  have everything : passed.snaps = scanOrder state.table.buckets := by
    rw [pass_copies before steps done]
    exact List.take_of_length_le (Nat.le_of_eq nodes.symm)
  rw [everything] at active
  have asMany : (scanOrder state.table.buckets).length = input.entryTotal := by
    rw [total, nodes]
  have length : input.active.length = input.entryTotal := by
    rw [active, List.length_map, asMany]
  obtain ⟨size, fewer, rfl, sized⟩ := takeSnapshot_take taken length
  have copies : input.active.take size =
      ((scanOrder state.table.buckets).take size).map (snapOf describe) := by
    rw [active, List.map_take]
  obtain ⟨counted, within, totalBytes, totalBlocks, all⟩ :=
    exists_counted describe input.clock cache failures
      ((scanOrder state.table.buckets).take size)
  rw [← copies] at totalBytes totalBlocks
  have sublist := within.trans (List.take_sublist _ _)
  have exactly := counted_eq_iff active asMany fewer sized within all
  have least := sum_le_of_sublist sublist MttEntry.size
  have listed := sum_sorted input.clock cache failures (input.active.take size)
  rw [totalBlocks] at listed
  have lengths := sublist.length_le
  refine ⟨⟨?_, ?_⟩, ?_, ?_⟩
  · rw [totalBytes, bytes, BitVec.le_def, toNat_ofNat_of_lt (by omega),
      toNat_ofNat_of_lt small]
    exact least
  · rw [listed, nodes]
    split <;> omega
  · rw [totalBytes, bytes, ← exactly, ← sum_eq_iff_of_sublist sublist positive]
    constructor
    · intro same
      have values := congrArg BitVec.toNat same
      rwa [toNat_ofNat_of_lt (by omega), toNat_ofNat_of_lt small] at values
    · intro same
      rw [same]
  · rw [listed, nodes, ← exactly, asMany]
    cases failures.sorted with
    | true =>
        simp only [if_true]
        constructor
        · exact fun none => .inl none.symm
        · rintro (none | ⟨-, impossible⟩)
          · exact none.symm
          · cases impossible
    | false =>
        simp only [Bool.false_eq_true, if_false, and_true]
        constructor
        · intro same
          exact .inr (sublist.eq_of_length (same.trans asMany.symm))
        · rintro (none | same)
          · omega
          · rw [same, asMany]

end Totals

/-- Two blocks of calls that overlap, and a third one that is freed again. -/
def overlappingBlocks : List (CounterLabel Worker) :=
  [.call .first (.malloc 512 8 .onChange), .enter .first] ++
    List.replicate 6 (.step .first false) ++
    [.call .second (.malloc 464 24 .onChange), .enter .second] ++
    List.replicate 13 (.step .second false) ++
    [.call .second (.malloc 416 100 .onChange), .enter .second] ++
    List.replicate 13 (.step .second false) ++
    List.replicate 7 (.step .first false) ++
    [.call .second (.free 416), .enter .second] ++
    List.replicate 8 (.step .second false)

def passStart (table : CounterState Worker) : SnapshotState Worker :=
  { table
    pc := .before
    snaps := []
    stayed := fun _ => false }

def leftBlocks : List MttEntry :=
  [⟨512, 8, 1⟩, ⟨464, 24, 2⟩]

/-- A frame for each size, and so a site for each block. -/
def frameOfSize (entry : MttEntry) : Int × List Word :=
  (40, [BitVec.ofNat 64 entry.size])

def leftSnaps : List (MttAllocSnap 64) :=
  leftBlocks.map (snapOf frameOfSize)

def leftInput : ScanInput 64 where
  clock := ⟨100, 60⟩
  entryTotal := 2
  active := leftSnaps
  fails := fun _ => false
  tsReady := false
  tsCount := fun _ => 0
  reportOpens := true
  reportRenames := true
  reportFileSet := false
  jsonOpens := false

/-- The second request for a site fails. -/
def secondFails : LeakFailures :=
  { stackEntry := fun _ => false
    leakSite := fun request => request = 1
    sorted := false }

/-- The pass over the table ends at stripe 2. -/
def passCopiesLeft (table : CounterState Worker) : Bool :=
  ((snapshotSystem Worker).runBy (fun _ label => isPass label = true)
    (passStart table) (List.replicate 4 .pass)).any fun passed =>
      decide (passed.pc = .done) && decide (passed.snaps = leftBlocks)

theorem leftInput_whole_iff (failures : LeakFailures) :
    Whole leftInput failures ↔
      failures.leakSite 0 = false ∧ failures.leakSite 1 = false := by
  have two : (leftInput.active.map snapKey).dedup.length = 2 := by
    decide +kernel
  constructor
  · intro whole
    have sites := whole.leakSite
    rw [two] at sites
    exact ⟨sites 0 (by decide), sites 1 (by decide)⟩
  · rintro ⟨first, second⟩
    refine ⟨fun _ => rfl, ?_, ?_⟩
    · rw [two]
      exact Nat.le_of_ble_eq_true rfl
    · rw [two]
      intro request below
      obtain rfl | rfl : request = 0 ∨ request = 1 := by omega
      · exact first
      · exact second

theorem report_totals_overlappingBlocks :
    ∃ table : CounterState Worker,
      table.counters.entryCount = 2 ∧
      (scanLeakTableWith sixthFails ⟨100, 60⟩ (.empty 64)
        leftSnaps).leakBytesTotal = table.counters.currentBytes ∧
      (scanLeakTableWith secondFails ⟨100, 60⟩ (.empty 64)
        leftSnaps).leakBytesTotal ≠ table.counters.currentBytes := by
  obtain ⟨table, reachable, fits, ended⟩ :=
    exists_reachableBy_of_requests
      (fun state => decide (∀ thread, state.threads thread = .idle) &&
        decide (state.counters.entryCount = 2) && passCopiesLeft state)
      overlappingBlocks counterStart_init (by decide) (by decide +kernel)
  simp only [Bool.and_eq_true, decide_eq_true_eq] at ended
  obtain ⟨⟨idle, two⟩, passes⟩ := ended
  obtain ⟨passed, executed, tested⟩ := (Option.any_eq_true _ _).mp passes
  rw [Bool.and_eq_true, decide_eq_true_eq, decide_eq_true_eq] at tested
  obtain ⟨done, copied⟩ := tested
  have steps := System.stepsBy_of_runBy executed
  have before : (passStart table).pc = .before := rfl
  have active : leftInput.active = passed.snaps.map (snapOf frameOfSize) := by
    rw [copied]
    rfl
  have total : leftInput.entryTotal =
      (passStart table).table.counters.entryCount.toNat := by
    rw [passStart, two]
    rfl
  have taken : takeSnapshot leftInput .empty =
      (some (some 0, leftSnaps),
        (Heap.Memory.malloc .empty false .snapshot).2) := rfl
  have totals (failures : LeakFailures) :=
    report_totals before steps done reachable fits idle frameOfSize (.empty 64)
      failures total active taken
  refine ⟨table, two, ?_, ?_⟩
  · exact (totals sixthFails).2.1.mpr
      ((leftInput_whole_iff sixthFails).mpr ⟨rfl, rfl⟩)
  · intro same
    have whole := (totals secondFails).2.1.mp same
    have succeeds := ((leftInput_whole_iff secondFails).mp whole).2
    exact absurd succeeds (by decide)

end MemoryTraceTool.ReportTotals
