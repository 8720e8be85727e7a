import MemoryTraceTool.EntryCapacity

/-!
# The snapshot of a scan

A scan reads `entry_count` once, without a lock, and then copies the entries of
one stripe after the other, each under its lock.  The count is the size of the
copy; what the hooks insert into the stripes in the meantime takes the place of
entries in later ones.
-/

namespace MemoryTraceTool

open Transition

/-! ## The copying loops -/

/-- `while (e != NULL && snap_count < entry_total)`. -/
def copyChain (entryTotal : Nat) :
    List MttEntry → List MttEntry → List MttEntry
  | [], snaps => snaps
  | entry :: rest, snaps =>
      if snaps.length < entryTotal then
        copyChain entryTotal rest (snaps ++ [entry])
      else snaps

/-- The loop over the buckets of one stripe. -/
def copyBuckets (entryTotal : Nat) (buckets : Buckets) :
    List Nat → List MttEntry → List MttEntry
  | [], snaps => snaps
  | bucket :: rest, snaps =>
      if snaps.length < entryTotal then
        copyBuckets entryTotal buckets rest
          (copyChain entryTotal (buckets bucket) snaps)
      else snaps

/-- `b = lock_idx; b < bucket_count; b += MTT_LOCK_STRIPES`. -/
def stripeBuckets (lockIdx : Nat) : List Nat :=
  (List.range (mttBuckets / mttLockStripes)).map fun turn =>
    lockIdx + turn * mttLockStripes

/-- The entries of the buckets of one stripe. -/
def stripeEntries (buckets : Buckets) (lockIdx : Nat) : List MttEntry :=
  (stripeBuckets lockIdx).flatMap buckets

theorem copyChain_eq (entryTotal : Nat) (chain snaps : List MttEntry) :
    copyChain entryTotal chain snaps =
      snaps ++ chain.take (entryTotal - snaps.length) := by
  induction chain generalizing snaps with
  | nil => simp [copyChain]
  | cons entry rest induction =>
      rw [copyChain]
      split_ifs with room
      · have left : entryTotal - snaps.length =
            entryTotal - (snaps ++ [entry]).length + 1 := by
          rw [List.length_append, List.length_singleton]
          omega
        rw [induction, left, List.take_succ_cons, List.append_assoc,
          List.singleton_append]
      · rw [Nat.sub_eq_zero_of_le (Nat.le_of_not_lt room), List.take_zero,
          List.append_nil]

theorem copyBuckets_eq (entryTotal : Nat) (buckets : Buckets)
    (indices : List Nat) (snaps : List MttEntry) :
    copyBuckets entryTotal buckets indices snaps =
      snaps ++ (indices.flatMap buckets).take (entryTotal - snaps.length) := by
  induction indices generalizing snaps with
  | nil => simp [copyBuckets]
  | cons bucket rest induction =>
      rw [copyBuckets]
      split_ifs with room
      · rw [induction, copyChain_eq, List.flatMap_cons, List.take_append,
          List.append_assoc]
        congr 3
        rw [List.length_append, List.length_take]
        omega
      · rw [Nat.sub_eq_zero_of_le (Nat.le_of_not_lt room), List.take_zero,
          List.append_nil]

/-- With room for its entries, a stripe is copied whole. -/
theorem copyBuckets_of_fits {entryTotal : Nat} {buckets : Buckets}
    {lockIdx : Nat} {snaps : List MttEntry}
    (fits : snaps.length + (stripeEntries buckets lockIdx).length ≤
      entryTotal) :
    copyBuckets entryTotal buckets (stripeBuckets lockIdx) snaps =
      snaps ++ stripeEntries buckets lockIdx := by
  rw [copyBuckets_eq]
  congr 1
  apply List.take_of_length_le
  rw [stripeEntries] at fits
  omega

theorem mem_stripeBuckets {lockIdx bucket : Nat}
    (stripe : lockIdx < mttLockStripes) :
    bucket ∈ stripeBuckets lockIdx ↔
      bucket < mttBuckets ∧ bucket % mttLockStripes = lockIdx := by
  have stripes : mttLockStripes = 64 := rfl
  have all : mttBuckets = 4096 := rfl
  rw [stripeBuckets, List.mem_map, all]
  rw [stripes] at stripe ⊢
  constructor
  · intro member
    obtain ⟨turn, inside, rfl⟩ := member
    have bound := List.mem_range.mp inside
    omega
  · intro here
    refine ⟨bucket / 64, List.mem_range.mpr ?_, ?_⟩ <;> omega

/-! ## One pass among the hooks -/

/-- Where the pass stands: before the read of `entry_count`, before the lock of
a stripe, or at its end. -/
inductive PassPc where
  | before
  | visit (lockIdx entryTotal : Nat)
  | done
  deriving DecidableEq, Repr

/-- `stayed` tells which entries have been in the table since the pass read
`entry_count`; it stands still at the end of the pass. -/
structure SnapshotState (Thread : Type) where
  table : CounterState Thread
  pc : PassPc
  snaps : List MttEntry
  stayed : MttEntry → Bool

/-- A step of the hooks, or of the pass. -/
inductive SnapshotLabel (Thread : Type) where
  | run (label : CounterLabel Thread)
  | pass

variable {Thread : Type}

/-- The entry is in its chain. -/
def CounterState.hasEntry (table : CounterState Thread) (entry : MttEntry) :
    Bool :=
  decide (entry ∈
    table.buckets (mttBucketOf entry.ptr mttBuckets table.hashSeed))

/-- The test of the outer loop. -/
def PassPc.after (lockIdx entryTotal snapCount : Nat) : PassPc :=
  if lockIdx < mttLockStripes ∧ snapCount < entryTotal then
    .visit lockIdx entryTotal
  else .done

/-- The pass reads `entry_count`, or copies its next stripe. -/
def passNext (state : SnapshotState Thread) : Option (SnapshotState Thread) :=
  match state.pc with
  | .before =>
      some { state with
        pc := .after 0 state.table.counters.entryCount.toNat 0
        snaps := []
        stayed := state.table.hasEntry }
  | .visit lockIdx entryTotal =>
      if state.table.locks lockIdx = none then
        let snaps := copyBuckets entryTotal state.table.buckets
          (stripeBuckets lockIdx) state.snaps
        some { state with
          pc := .after (lockIdx + 1) entryTotal snaps.length
          snaps := snaps }
      else none
  | .done => none

variable [DecidableEq Thread]

/-- The hooks go on between the stripes. -/
def snapshotNext (state : SnapshotState Thread) :
    SnapshotLabel Thread → Option (SnapshotState Thread)
  | .run label =>
      (counterNext state.table label).map fun table =>
        { state with
          table := table
          stayed := fun entry =>
            state.stayed entry &&
              (decide (state.pc = .done) || table.hasEntry entry) }
  | .pass => passNext state

/-- Any number of threads in the hooks, and one pass. -/
def snapshotSystem (Thread : Type) [DecidableEq Thread] :
    System (SnapshotState Thread) (SnapshotLabel Thread) where
  init := fun state =>
    (counterSystem Thread).init state.table ∧ state.pc = .before
  next := snapshotNext

/-- Stripes that the pass has not come to, and holds no copies for, are
empty. -/
def SnapshotState.RestEmpty (state : SnapshotState Thread) (lockIdx : Nat) :
    Prop :=
  ∀ other < mttLockStripes, lockIdx ≤ other →
    stripeEntries state.table.buckets other = []

/-- The hooks link an address only when it has no entry, and each stripe that
the pass copies fits into the room left; the pass runs out of room only at the
last entry of the table. -/
def SnapshotFits (state : SnapshotState Thread) :
    SnapshotLabel Thread → Prop
  | .run (.step thread _) =>
      match (state.table.threads thread).pc with
      | .link entry =>
          entryOf state.table.hashSeed state.table.buckets entry.ptr = none
      | _ => True
  | .run _ => True
  | .pass =>
      match state.pc with
      | .before =>
          state.table.counters.entryCount.toNat = 0 → state.RestEmpty 0
      | .visit lockIdx entryTotal =>
          let needed := state.snaps.length +
            (stripeEntries state.table.buckets lockIdx).length
          needed ≤ entryTotal ∧
            (needed = entryTotal → state.RestEmpty (lockIdx + 1))
      | .done => True

/-! ## What the pass has copied -/

omit [DecidableEq Thread] in
theorem CounterState.hasEntry_iff {table : CounterState Thread}
    {entry : MttEntry} : table.hasEntry entry = true ↔
      entry ∈ table.buckets
        (mttBucketOf entry.ptr mttBuckets table.hashSeed) :=
  decide_eq_true_iff

omit [DecidableEq Thread] in
theorem CounterState.mem_stripeEntries {table : CounterState Thread}
    {entry : MttEntry} (present : table.hasEntry entry = true) :
    entry ∈ stripeEntries table.buckets (table.stripe entry.ptr) := by
  refine List.mem_flatMap.mpr ⟨_, ?_, hasEntry_iff.mp present⟩
  exact (mem_stripeBuckets (mttStripeOf_lt _ _)).mpr
    ⟨mttBucketOf_lt _ _, (mttStripeOf_eq_mod _ _).symm⟩

omit [DecidableEq Thread] in
theorem CounterState.stripe_of_mem {table : CounterState Thread}
    (wellFormed : ChainedTable.WellFormed (EntryTable.shape table.hashSeed)
      table.buckets) {lockIdx : Nat} (stripe : lockIdx < mttLockStripes)
    {entry : MttEntry} (member : entry ∈ stripeEntries table.buckets lockIdx) :
    table.stripe entry.ptr = lockIdx := by
  obtain ⟨bucket, inStripe, inChain⟩ := List.mem_flatMap.mp member
  have own : mttBucketOf entry.ptr mttBuckets table.hashSeed = bucket :=
    wellFormed.placed bucket entry inChain
  rw [CounterState.stripe, mttStripeOf_eq_mod, own]
  exact ((mem_stripeBuckets stripe).mp inStripe).2

theorem nodup_stripeBuckets (lockIdx : Nat) :
    (stripeBuckets lockIdx).Nodup := by
  apply List.nodup_range.map
  intro first second same
  have turns : lockIdx + first * mttLockStripes =
      lockIdx + second * mttLockStripes := same
  exact Nat.eq_of_mul_eq_mul_right (by decide) (Nat.add_left_cancel turns)

/-- The copies are those of the stripes before `lockIdx`: all entries that
have stayed there, and no address twice. -/
structure Copied (state : SnapshotState Thread) (lockIdx : Nat) : Prop where
  complete : ∀ entry, state.stayed entry = true →
    state.table.stripe entry.ptr < lockIdx → entry ∈ state.snaps
  visited : ∀ entry ∈ state.snaps, state.table.stripe entry.ptr < lockIdx
  distinct : (state.snaps.map MttEntry.ptr).Nodup

/-- What holds between the steps of the hooks and the pass. -/
structure SnapshotInvariant (state : SnapshotState Thread) : Prop where
  wellFormed : ChainedTable.WellFormed
    (EntryTable.shape state.table.hashSeed) state.table.buckets
  present : ∀ lockIdx entryTotal, state.pc = .visit lockIdx entryTotal →
    ∀ entry, state.stayed entry = true → state.table.hasEntry entry = true
  visits : ∀ lockIdx entryTotal, state.pc = .visit lockIdx entryTotal →
    lockIdx < mttLockStripes ∧ Copied state lockIdx
  ended : state.pc = .done → Copied state mttLockStripes

namespace SnapshotInvariant

variable {state target : SnapshotState Thread}

omit [DecidableEq Thread] in
/-- The copies of a stripe come to those of the stripes before it. -/
theorem copies (invariant : SnapshotInvariant state)
    {lockIdx entryTotal : Nat} (here : state.pc = .visit lockIdx entryTotal)
    (fits : state.snaps.length +
      (stripeEntries state.table.buckets lockIdx).length ≤ entryTotal)
    (pc : PassPc) :
    Copied
      { state with
        pc := pc
        snaps := copyBuckets entryTotal state.table.buckets
          (stripeBuckets lockIdx) state.snaps } (lockIdx + 1) := by
  obtain ⟨stripe, copied⟩ := invariant.visits lockIdx entryTotal here
  have stripeOf {entry : MttEntry} := @CounterState.stripe_of_mem _
    state.table invariant.wellFormed lockIdx stripe entry
  rw [copyBuckets_of_fits fits]
  refine ⟨?_, ?_, ?_⟩
  · intro entry stayed below
    apply List.mem_append.mpr
    rcases Nat.lt_succ_iff_lt_or_eq.mp below with earlier | now
    · exact .inl (copied.complete entry stayed earlier)
    · have present := invariant.present lockIdx entryTotal here entry stayed
      exact .inr (now ▸ state.table.mem_stripeEntries present)
  · intro entry member
    rcases List.mem_append.mp member with old | new
    · exact Nat.lt_succ_of_lt (copied.visited entry old)
    · exact Nat.lt_succ_of_le (Nat.le_of_eq (stripeOf new))
  · rw [List.map_append]
    refine List.Nodup.append copied.distinct
      (invariant.wellFormed.nodup_flatMap (nodup_stripeBuckets lockIdx)) ?_
    intro ptr old new
    obtain ⟨entry, copy, rfl⟩ := List.mem_map.mp old
    obtain ⟨other, fresh, same⟩ := List.mem_map.mp new
    have earlier := copied.visited entry copy
    have samePtr : other.ptr = entry.ptr := same
    rw [← samePtr, stripeOf fresh] at earlier
    exact Nat.lt_irrefl _ earlier

omit [DecidableEq Thread] in
theorem copied_all {lockIdx : Nat} (copied : Copied state lockIdx)
    (bound : lockIdx ≤ mttLockStripes)
    (present : ∀ entry, state.stayed entry = true →
      state.table.hasEntry entry = true)
    (rest : state.RestEmpty lockIdx) : Copied state mttLockStripes := by
  refine ⟨?_, ?_, copied.distinct⟩
  · intro entry stayed _
    apply copied.complete entry stayed
    by_contra late
    have empty := rest (state.table.stripe entry.ptr) (mttStripeOf_lt _ _)
      (Nat.le_of_not_lt late)
    have member := state.table.mem_stripeEntries (present entry stayed)
    rw [empty] at member
    cases member
  · intro entry member
    exact Nat.lt_of_lt_of_le (copied.visited entry member) bound

omit [DecidableEq Thread] in
theorem afterTest {lockIdx entryTotal : Nat}
    (wellFormed : ChainedTable.WellFormed
      (EntryTable.shape state.table.hashSeed) state.table.buckets)
    (pc : state.pc = .after lockIdx entryTotal state.snaps.length)
    (bound : lockIdx ≤ mttLockStripes)
    (present : ∀ entry, state.stayed entry = true →
      state.table.hasEntry entry = true)
    (copied : Copied state lockIdx)
    (rest : entryTotal ≤ state.snaps.length → state.RestEmpty lockIdx) :
    SnapshotInvariant state := by
  rw [PassPc.after] at pc
  split_ifs at pc with goesOn
  · refine ⟨wellFormed, fun _ _ _ => present, ?_, ?_⟩
    · intro other total here
      rw [pc] at here
      cases here
      exact ⟨goesOn.1, copied⟩
    · intro ended
      rw [pc] at ended
      cases ended
  · refine ⟨wellFormed, fun _ _ _ => present, ?_, ?_⟩
    · intro other total here
      rw [pc] at here
      cases here
    · intro _
      apply copied_all copied bound present
      by_cases last : lockIdx < mttLockStripes
      · exact rest (Nat.le_of_not_lt fun room => goesOn ⟨last, room⟩)
      · intro other stripe above
        exact (last (Nat.lt_of_le_of_lt above stripe)).elim

omit [DecidableEq Thread] in
theorem starts (invariant : SnapshotInvariant state)
    (fits : state.table.counters.entryCount.toNat = 0 → state.RestEmpty 0) :
    SnapshotInvariant
      { state with
        pc := .after 0 state.table.counters.entryCount.toNat 0
        snaps := []
        stayed := state.table.hasEntry } := by
  refine afterTest invariant.wellFormed rfl (Nat.zero_le _)
    (fun _ present => present) ⟨?_, ?_, List.nodup_nil⟩ ?_
  · intro entry _ below
    exact (Nat.not_lt_zero _ below).elim
  · intro entry member
    cases member
  · intro none
    exact fits (Nat.le_zero.mp none)

omit [DecidableEq Thread] in
theorem visits_next (invariant : SnapshotInvariant state)
    {lockIdx entryTotal : Nat} (here : state.pc = .visit lockIdx entryTotal)
    (fits : state.snaps.length +
      (stripeEntries state.table.buckets lockIdx).length ≤ entryTotal)
    (last : state.snaps.length +
      (stripeEntries state.table.buckets lockIdx).length = entryTotal →
        state.RestEmpty (lockIdx + 1))
    {snaps : List MttEntry}
    (copies : snaps = copyBuckets entryTotal state.table.buckets
      (stripeBuckets lockIdx) state.snaps) :
    SnapshotInvariant
      { state with
        pc := .after (lockIdx + 1) entryTotal snaps.length
        snaps := snaps } := by
  obtain ⟨stripe, _⟩ := invariant.visits lockIdx entryTotal here
  refine afterTest invariant.wellFormed rfl stripe
    (invariant.present lockIdx entryTotal here) ?_ ?_
  · subst copies
    exact invariant.copies here fits _
  · intro full
    apply last
    dsimp only at full
    rw [copies, copyBuckets_of_fits fits, List.length_append] at full
    exact Nat.le_antisymm fits full

omit [DecidableEq Thread] in
theorem passes (invariant : SnapshotInvariant state)
    (fits : SnapshotFits state .pass)
    (taken : passNext state = some target) : SnapshotInvariant target := by
  simp only [passNext] at taken
  simp only [SnapshotFits] at fits
  split at taken
  · rename_i here
    rw [Option.some.injEq] at taken
    subst taken
    rw [here] at fits
    exact invariant.starts fits
  · rename_i lockIdx entryTotal here
    rw [here] at fits
    obtain ⟨free, taken⟩ := Option.ite_none_right_eq_some.mp taken
    rw [Option.some.injEq] at taken
    subst taken
    exact invariant.visits_next here fits.1 fits.2 rfl
  · cases taken

/-- The steps of the hooks keep what is copied: the chains stay well formed
and only entries that are still there have stayed. -/
theorem runs {label : CounterLabel Thread} {table : CounterState Thread}
    (invariant : SnapshotInvariant state)
    (fits : SnapshotFits state (.run label))
    (taken : counterNext state.table label = some table) :
    SnapshotInvariant
      { state with
        table := table
        stayed := fun entry =>
          state.stayed entry &&
            (decide (state.pc = .done) || table.hasEntry entry) } := by
  have kept : table.hashSeed = state.table.hashSeed ∧
      ChainedTable.WellFormed (EntryTable.shape state.table.hashSeed)
        table.buckets := by
    cases counterNext_cases taken with
    | crosses _ _ _ _ _ buckets seed =>
        rw [buckets]
        exact ⟨seed, invariant.wellFormed⟩
    | operates thread spurious moved threads seed _ operated =>
        refine ⟨seed, ?_⟩
        have move := sectionStep_entries operated
        simp only [SnapshotFits] at fits
        generalize (state.table.threads thread).pc = pc at move fits
        generalize table.buckets = buckets at move ⊢
        generalize table.counters = counters at move
        generalize moved.pc = laterPc at move
        cases move with
        | other | pass | count | uncount => exact invariant.wellFormed
        | link entry => exact invariant.wellFormed.insert fits
        | unlink entry => exact invariant.wellFormed.erase entry.ptr
  obtain ⟨seed, wellFormed⟩ := kept
  have stripes : ∀ ptr, table.stripe ptr = state.table.stripe ptr := by
    intro ptr
    rw [CounterState.stripe, CounterState.stripe, seed]
  have copied {lockIdx : Nat} (before : Copied state lockIdx) : Copied
      { state with
        table := table
        stayed := fun entry =>
          state.stayed entry &&
            (decide (state.pc = .done) || table.hasEntry entry) } lockIdx := by
    refine ⟨?_, ?_, before.distinct⟩
    · intro entry stayed below
      rw [stripes] at below
      exact before.complete entry (Bool.and_eq_true_iff.mp stayed).1 below
    · intro entry member
      rw [stripes]
      exact before.visited entry member
  refine ⟨seed.symm ▸ wellFormed, ?_, ?_, ?_⟩
  · intro lockIdx entryTotal here entry stayed
    have still := (Bool.and_eq_true_iff.mp stayed).2
    rw [here] at still
    simpa using still
  · intro lockIdx entryTotal here
    obtain ⟨stripe, before⟩ := invariant.visits lockIdx entryTotal here
    exact ⟨stripe, copied before⟩
  · intro ended
    exact copied (invariant.ended ended)

theorem next {label : SnapshotLabel Thread}
    (invariant : SnapshotInvariant state) (fits : SnapshotFits state label)
    (taken : snapshotNext state label = some target) :
    SnapshotInvariant target := by
  cases label with
  | run label =>
      obtain ⟨table, stepped, rfl⟩ := Option.map_eq_some_iff.mp taken
      exact invariant.runs fits stepped
  | pass => exact invariant.passes fits taken

theorem initial (initial : (snapshotSystem Thread).init state) :
    SnapshotInvariant state := by
  obtain ⟨⟨_, _, _, _, empty, _, _⟩, before⟩ := initial
  refine ⟨?_, ?_, ?_, ?_⟩
  · have none : state.table.buckets = fun _ => [] := funext empty
    rw [none]
    exact .empty _
  · intro _ _ here
    rw [before] at here
    cases here
  · intro _ _ here
    rw [before] at here
    cases here
  · intro here
    rw [before] at here
    cases here

end SnapshotInvariant

/-- A pass that has room for every stripe, among hooks that link no address
twice, copies every entry that stays in the table once, and no address
twice. -/
theorem snapshot_of_fits {state : SnapshotState Thread}
    (reachable : (snapshotSystem Thread).ReachableBy SnapshotFits state)
    (done : state.pc = .done) :
    (∀ entry, state.stayed entry = true → state.snaps.count entry = 1) ∧
      (state.snaps.map MttEntry.ptr).Nodup := by
  have invariant : SnapshotInvariant state :=
    reachable.invariant SnapshotInvariant (fun _ => .initial)
      fun _ _ _ holds fits taken => holds.next fits taken
  have copied := invariant.ended done
  refine ⟨?_, copied.distinct⟩
  intro entry stayed
  exact List.count_eq_one_of_mem copied.distinct.of_map
    (copied.complete entry stayed (mttStripeOf_lt _ _))

/-! ## Two passes -/

section

variable {Thread : Type}

instance (state : SnapshotState Thread) (lockIdx : Nat) :
    Decidable (state.RestEmpty lockIdx) :=
  inferInstanceAs (Decidable (∀ other < mttLockStripes, lockIdx ≤ other →
    stripeEntries state.table.buckets other = []))

instance (state : SnapshotState Thread) (label : SnapshotLabel Thread) :
    Decidable (SnapshotFits state label) := by
  unfold SnapshotFits
  split
  · split <;> infer_instance
  · infer_instance
  · split <;> infer_instance

def snapshotStart (Thread : Type) : SnapshotState Thread :=
  { table := counterStart Thread
    pc := .before
    snaps := []
    stayed := fun _ => false }

end

theorem snapshotStart_init :
    (snapshotSystem Thread).init (snapshotStart Thread) :=
  ⟨counterStart_init, rfl⟩

/-- A malloc on its own, up to its unlock. -/
def wholeMalloc (ptr : Word) : List (SnapshotLabel Worker) :=
  [.run (.call .first (.malloc ptr 8 .onChange)), .run (.enter .first)] ++
    List.replicate 13 (.run (.step .first false))

/-- The blocks of stripes 0, 2 and 4 are in the table when the pass reads
`entry_count`.  Before it comes to stripe 4, that block is freed and another
one allocated in stripe 6. -/
def passAmongHooks : List (SnapshotLabel Worker) :=
  wholeMalloc 512 ++ wholeMalloc 464 ++ wholeMalloc 416 ++
    [.pass, .run (.call .second (.free 416)), .run (.enter .second)] ++
    List.replicate 5 (.run (.step .second false)) ++ [.pass] ++
    List.replicate 3 (.run (.step .second false)) ++ wholeMalloc 368 ++
    List.replicate 6 .pass

theorem snapshot_of_passAmongHooks :
    ∃ state : SnapshotState Worker,
      state.snaps = [⟨512, 8, 1⟩, ⟨464, 8, 2⟩, ⟨368, 8, 4⟩] ∧
      state.snaps.count ⟨512, 8, 1⟩ = 1 ∧
      state.snaps.count ⟨464, 8, 2⟩ = 1 ∧
      (state.snaps.map MttEntry.ptr).Nodup := by
  obtain ⟨state, reachable, ended⟩ :=
    System.exists_reachableBy_of_runBy (snapshotSystem Worker) SnapshotFits
      (fun state => decide (state.pc = .done) &&
        (state.snaps == [⟨512, 8, 1⟩, ⟨464, 8, 2⟩, ⟨368, 8, 4⟩]) &&
        (state.stayed ⟨512, 8, 1⟩ && state.stayed ⟨464, 8, 2⟩))
      passAmongHooks snapshotStart_init (by decide +kernel)
  simp only [Bool.and_eq_true, decide_eq_true_eq, beq_iff_eq] at ended
  obtain ⟨⟨done, copies⟩, firstStayed, secondStayed⟩ := ended
  have snapshot := snapshot_of_fits reachable done
  exact ⟨state, copies, snapshot.1 _ firstStayed, snapshot.1 _ secondStayed,
    snapshot.2⟩

/-- A block in stripe 0 comes after the read of `entry_count` and takes the
place of the one in stripe 2. -/
theorem snapshot_misses_block :
    ∃ state : SnapshotState Worker,
      (snapshotSystem Worker).Reachable state ∧ state.pc = .done ∧
      state.stayed ⟨464, 8, 1⟩ = true ∧ state.snaps.count ⟨464, 8, 1⟩ ≠ 1 := by
  obtain ⟨state, reachable, ended⟩ :=
    System.exists_reachable_of_run (snapshotSystem Worker)
      (fun state => decide (state.pc = .done) &&
        state.stayed ⟨464, 8, 1⟩ && decide (state.snaps.count ⟨464, 8, 1⟩ ≠ 1))
      (wholeMalloc 464 ++ [.pass] ++ wholeMalloc 512 ++ [.pass])
      snapshotStart_init (by decide +kernel)
  simp only [Bool.and_eq_true, decide_eq_true_eq] at ended
  exact ⟨state, reachable, ended.1.1, ended.1.2, ended.2⟩

end MemoryTraceTool
