import MemoryTraceTool.Lib.LockedListSteps
import MemoryTraceTool.LeakSites
import MemoryTraceTool.StripeSnapshot
import MemoryTraceTool.TableLists

/-!
# The table under threads

The hooks and the scan as programs on the free lists and the bucket chains,
one access to memory in each step.  The stripe locks guard the buckets and the
pool locks the free lists; the fields of an entry belong to the thread that
took it until it is in a list.
-/

namespace MemoryTraceTool.TableSections

open Transition LockedLists

/-- `bucket_locks` and `pool_locks`. -/
inductive TableLock where
  | bucket (stripe : Nat)
  | pool (stripe : Nat)
  deriving DecidableEq, Repr

/-- The fields of an `mtt_entry_t` other than `next`. -/
structure EntryFields extends MttAllocSnap 64 where
  allocNum : Word
  deriving DecidableEq

def EntryFields.zero : EntryFields :=
  { ptr := 0, size := 0, timestamp := 0, stack := [], allocNum := 0 }

/-- What a hook reads outside the table: the block of `raw_malloc` or
`raw_realloc`, the tests before `mtt_entry_new`, the test of `entry_count`
under the lock, `alloc_seq`, the clock and the stack. -/
structure Outside where
  block : Word
  admitted : Bool
  full : Bool
  allocSeq : Word
  now : Int
  stack : List Word

inductive TableResult where
  | returned (ptr : Word)
  | freed
  | snapshot (snaps : List (MttAllocSnap 64))

abbrev TableProg : Type :=
  Prog TableLock PoolList Word EntryFields Outside TableResult

section Programs

variable (setup : TableLists.TableSetup)

def stripe (ptr : Word) : Nat :=
  mttStripeOf ptr mttBuckets setup.layout.hashSeed

/-- `mtt_stripe_lock`. -/
def mttStripeLock (ptr : Word) (rest : TableProg) : TableProg :=
  .lock (.bucket (stripe setup ptr)) rest

/-- `mtt_stripe_unlock`. -/
def mttStripeUnlock (ptr : Word) (rest : TableProg) : TableProg :=
  .unlock (.bucket (stripe setup ptr)) rest

/-- Take the first entry of a free list. -/
def takeHead (idx : Nat) (rest : Option Word → TableProg) : TableProg :=
  .find true (.free idx) (fun _ => true) fun found =>
    rest (found.map Prod.fst)

/-- The loop over the other stripes, the distances `k` still to come. -/
def scanNeighbours (idx : Nat) (rest : Option Word → TableProg) :
    List Nat → TableProg
  | [] => rest none
  | k :: later =>
      let tryIdx := (idx + k) &&& (mttLockStripes - 1)
      .tryLock (.pool tryIdx) fun locked =>
        if locked then
          takeHead tryIdx fun taken =>
            .unlock (.pool tryIdx)
              (match taken with
              | some e => rest (some e)
              | none => scanNeighbours idx rest later)
        else scanNeighbours idx rest later

/-- The fields are cleared and filled, and the stack is captured. -/
def fillEntry (e ptr size : Word) (rest : TableProg) : TableProg :=
  .reset e .zero <| .ask fun clock =>
    let filled : EntryFields :=
      { EntryFields.zero with ptr, size, timestamp := clock.now }
    .reset e filled <| .ask fun unwound =>
      .write e { filled with stack := unwound.stack } rest

/-- `mtt_entry_new`, the search of the pool and the fallback. -/
def mttEntryNew (ptr size : Word) (rest : Option Word → TableProg) :
    TableProg :=
  let filled := fun taken : Option Word =>
    match taken with
    | none => rest none
    | some e => fillEntry e ptr size (rest (some e))
  if setup.pooled then
    let idx := stripe setup ptr
    .lock (.pool idx) <| takeHead idx fun taken =>
      .unlock (.pool idx)
        (match taken with
        | some e => filled (some e)
        | none => scanNeighbours idx filled
            (List.range' 1 (mttLockStripes - 1)))
  else .gain filled

/-- The bucket is computed from the `ptr` field. -/
def mttEntryAdd (e : Word) (rest : TableProg) : TableProg :=
  .read e fun fields => .push (setup.bucket fields.ptr) e rest

/-- `mtt_entry_find`, under the stripe lock of its caller. -/
def mttEntryFind (ptr : Word) (rest : Option Word → TableProg) : TableProg :=
  if ptr = 0 then rest none
  else
    .find false (setup.bucket ptr) (fun fields => decide (fields.ptr = ptr))
      fun found => rest (found.map Prod.fst)

/-- The common end of `mtt_entry_remove` and `mtt_entry_discard`. -/
def mttEntryDiscard (e : Word) (rest : TableProg) : TableProg :=
  if setup.pooled then
    let idx := stripe setup e
    .reset e .zero <| .lock (.pool idx) <| .push (.free idx) e <|
      .unlock (.pool idx) rest
  else if setup.rawFree then .dispose e rest
  else rest

/-- `mtt_entry_remove`, under the stripe lock of its caller. -/
def mttEntryRemove (ptr : Word) (rest : TableProg) : TableProg :=
  if ptr = 0 then rest
  else
    .find true (setup.bucket ptr) (fun fields => decide (fields.ptr = ptr))
      fun found =>
        match found with
        | none => rest
        | some (dead, _) => mttEntryDiscard setup dead rest

/-- The entry gets its number and goes into the table. -/
def record (e : Word) (rest : TableProg) : TableProg :=
  .ask fun outside => .read e fun fields =>
    .write e { fields with allocNum := outside.allocSeq + 1 } <|
      mttEntryAdd setup e rest

/-- `malloc` and `mtt_malloc`, on the path that tracks. -/
def malloc (size : Word) : TableProg :=
  .ask fun outside =>
    let ptr := outside.block
    let done : TableProg := .done (.returned ptr)
    if ptr = 0 ∨ outside.admitted = false then done
    else
      mttEntryNew setup ptr size fun taken =>
        match taken with
        | none => done
        | some e =>
            mttStripeLock setup ptr <| .ask fun count =>
              if count.full then
                mttStripeUnlock setup ptr (mttEntryDiscard setup e done)
              else record setup e (mttStripeUnlock setup ptr done)

/-- The locked section that takes the entry of a block out of the table. -/
def untrack (ptr : Word) (rest : TableProg) : TableProg :=
  mttStripeLock setup ptr <| mttEntryFind setup ptr fun found =>
    match found with
    | none => mttStripeUnlock setup ptr rest
    | some _ => mttEntryRemove setup ptr (mttStripeUnlock setup ptr rest)

/-- `free` and `mtt_free`. -/
def free (ptr : Word) : TableProg :=
  untrack setup ptr (.done .freed)

/-- `realloc` and `mtt_realloc` with `raw_realloc`: the entry is looked up
once before the block is moved and once again after it. -/
def realloc (ptr size : Word) : TableProg :=
  mttStripeLock setup ptr <| mttEntryFind setup ptr fun oldE =>
    mttStripeUnlock setup ptr <| .ask fun outside =>
      let newPtr := outside.block
      let done : TableProg := .done (.returned newPtr)
      if newPtr = 0 ∨ oldE = none then done
      else
        untrack setup ptr <| .ask fun test =>
          if test.admitted then
            mttEntryNew setup newPtr size fun taken =>
              match taken with
              | none => done
              | some newE =>
                  mttStripeLock setup newPtr <| .ask fun count =>
                    if count.full then
                      mttEntryDiscard setup newE
                        (mttStripeUnlock setup newPtr done)
                    else
                      record setup newE (mttStripeUnlock setup newPtr done)
          else done

/-- `realloc` and `mtt_realloc` without `raw_realloc`. -/
def reallocByCopy (ptr size : Word) : TableProg :=
  .ask fun outside =>
    let newPtr := outside.block
    if newPtr = 0 then .done (.returned 0)
    else
      mttEntryNew setup newPtr size fun taken =>
        match taken with
        | none => .done (.returned 0)
        | some newE =>
            untrack setup ptr <| mttStripeLock setup newPtr <|
              .ask fun count =>
                let done : TableProg := .done (.returned newPtr)
                if count.full then
                  mttStripeUnlock setup newPtr
                    (mttEntryDiscard setup newE done)
                else
                  record setup newE (mttStripeUnlock setup newPtr done)

/-- The loop over the buckets of a stripe. -/
def copyStripe (entryTotal : Nat)
    (rest : List (MttAllocSnap 64) → TableProg) :
    List Nat → List (MttAllocSnap 64) → TableProg
  | [], snaps => rest snaps
  | bucket :: later, snaps =>
      if snaps.length < entryTotal then
        .collect (.bucket bucket) (entryTotal - snaps.length) fun copied =>
          copyStripe entryTotal rest later
            (snaps ++ copied.map EntryFields.toMttAllocSnap)
      else rest snaps

/-- The loop over the stripes, each under its lock. -/
def copyStripes (entryTotal : Nat) :
    List Nat → List (MttAllocSnap 64) → TableProg
  | [], snaps => .done (.snapshot snaps)
  | lockIdx :: later, snaps =>
      if snaps.length < entryTotal then
        .lock (.bucket lockIdx) <|
          copyStripe entryTotal
            (fun snaps =>
              .unlock (.bucket lockIdx) (copyStripes entryTotal later snaps))
            (stripeBuckets lockIdx) snaps
      else .done (.snapshot snaps)

/-- The snapshot of a scan; `entryTotal` is the size of its array. -/
def scan (entryTotal : Nat) : TableProg :=
  copyStripes entryTotal (List.range mttLockStripes) []

end Programs

/-- What threads do with the table. -/
inductive TableCall where
  | malloc (size : Word)
  | free (ptr : Word)
  | realloc (ptr size : Word)
  | reallocByCopy (ptr size : Word)
  | scan (entryTotal : Nat)

/-- The program of each call. -/
def tableProgram (setup : TableLists.TableSetup) : TableCall → TableProg
  | .malloc size => malloc setup size
  | .free ptr => free setup ptr
  | .realloc ptr size => realloc setup ptr size
  | .reallocByCopy ptr size => reallocByCopy setup ptr size
  | .scan entryTotal => scan entryTotal

/-! ## The discipline of the table -/

section Discipline

variable (setup : TableLists.TableSetup)

/-- The entries of a pool are its slots. -/
def Pooled (node : Word) : Prop :=
  setup.pooled = true → ∃ slot, setup.layout.address slot = node

/-- A bucket holds the entries of its blocks, a pool lock is taken after a
stripe lock, and no slot of a pool gets lost. -/
def tableDiscipline : Discipline TableLock PoolList Word EntryFields where
  lockOf := fun
    | .free stripe => .pool stripe
    | .bucket index => .bucket (index % mttLockStripes)
  rank := fun
    | .bucket _ => 0
    | .pool _ => 1
  Fits := fun list node fields =>
    Pooled setup node ∧
      match list with
      | .free _ => True
      | .bucket index => fields.ptr ≠ 0 ∧
          mttBucketOf fields.ptr mttBuckets setup.layout.hashSeed = index
  Permanent := fun node =>
    setup.pooled = true ∧ ∃ slot, setup.layout.address slot = node

/-- No pool lock. -/
def PoolFree (held : Set TableLock) : Prop :=
  ∀ idx, TableLock.pool idx ∉ held

variable {setup} {held : Set TableLock} {own : Word → Option EntryFields}

theorem lockOf_bucket (ptr : Word) :
    (tableDiscipline setup).lockOf (setup.bucket ptr) =
      .bucket (stripe setup ptr) := by
  unfold stripe
  rw [mttStripeOf_eq_mod]
  rfl

theorem PoolFree.rank (poolFree : PoolFree held) (idx : Nat) :
    ∀ other ∈ held, (tableDiscipline setup).rank other <
      (tableDiscipline setup).rank (.pool idx) := by
  intro other member
  cases other with
  | bucket index => exact Nat.zero_lt_one
  | pool index => exact absurd member (poolFree index)

theorem insert_diff {mutex : TableLock} (unheld : mutex ∉ held) :
    insert mutex held \ {mutex} = held := by
  rw [Set.insert_sdiff_of_mem _ (Set.mem_singleton mutex),
    Set.sdiff_singleton_eq_self unheld]

theorem takeHead_safe {idx : Nat} {rest : Option Word → TableProg}
    (locked : TableLock.pool idx ∈ held)
    (missing : (rest none).Safe (tableDiscipline setup) held own)
    (found : ∀ e fields, own e = none → Pooled setup e →
      (rest (some e)).Safe (tableDiscipline setup) held
        (Function.update own e (some fields))) :
    (takeHead idx rest).Safe (tableDiscipline setup) held own := by
  refine ⟨locked, missing, ?_⟩
  intro e fields fresh fits _
  exact found e fields fresh fits.1

theorem scanNeighbours_safe {idx : Nat} {rest : Option Word → TableProg}
    (poolFree : PoolFree held)
    (missing : (rest none).Safe (tableDiscipline setup) held own)
    (found : ∀ e fields, own e = none → Pooled setup e →
      (rest (some e)).Safe (tableDiscipline setup) held
        (Function.update own e (some fields)))
    (distances : List Nat) :
    (scanNeighbours idx rest distances).Safe (tableDiscipline setup) held
      own := by
  induction distances with
  | nil => exact missing
  | cons k later induction =>
      have unheld := poolFree ((idx + k) &&& (mttLockStripes - 1))
      refine ⟨?_, induction⟩
      simp only [↓reduceIte]
      apply takeHead_safe (Set.mem_insert _ held)
      · refine ⟨Set.mem_insert _ held, ?_⟩
        rw [insert_diff unheld]
        exact induction
      · intro e fields fresh pooled
        refine ⟨Set.mem_insert _ held, ?_⟩
        rw [insert_diff unheld]
        exact found e fields fresh pooled

theorem fillEntry_safe {e ptr size : Word} {rest : TableProg}
    (mine : own e ≠ none)
    (filled : ∀ fields, fields.ptr = ptr →
      rest.Safe (tableDiscipline setup) held
        (Function.update own e (some fields))) :
    (fillEntry e ptr size rest).Safe (tableDiscipline setup) held own := by
  refine ⟨mine, fun clock => ⟨by simp, fun unwound => ⟨by simp, ?_⟩⟩⟩
  rw [Function.update_idem, Function.update_idem]
  exact filled _ rfl

/-- The caller gets an entry of its own with the address of its block, or
nothing. -/
theorem mttEntryNew_safe {ptr size : Word} {rest : Option Word → TableProg}
    (poolFree : PoolFree held)
    (missing : (rest none).Safe (tableDiscipline setup) held own)
    (found : ∀ e fields, own e = none → Pooled setup e → fields.ptr = ptr →
      (rest (some e)).Safe (tableDiscipline setup) held
        (Function.update own e (some fields))) :
    (mttEntryNew setup ptr size rest).Safe (tableDiscipline setup) held
      own := by
  have filled : ∀ e fields, own e = none → Pooled setup e →
      (fillEntry e ptr size (rest (some e))).Safe (tableDiscipline setup) held
        (Function.update own e (some fields)) := by
    intro e fields fresh pooled
    apply fillEntry_safe (by simp)
    intro later same
    rw [Function.update_idem]
    exact found e later fresh pooled same
  unfold mttEntryNew
  split
  · have unheld := poolFree (stripe setup ptr)
    refine ⟨poolFree.rank _, takeHead_safe (Set.mem_insert _ held) ?_ ?_⟩
    · refine ⟨Set.mem_insert _ held, ?_⟩
      rw [insert_diff unheld]
      apply scanNeighbours_safe poolFree
      · exact missing
      · exact filled
    · intro e fields fresh pooled
      refine ⟨Set.mem_insert _ held, ?_⟩
      rw [insert_diff unheld]
      exact filled e fields fresh pooled
  · rename_i unpooled
    refine ⟨missing, ?_⟩
    intro e fields fresh
    exact filled e fields fresh fun pooled => absurd pooled unpooled

theorem mttEntryAdd_safe {e : Word} {fields : EntryFields}
    {rest : TableProg} (mine : own e = some fields) (pooled : Pooled setup e)
    (nonNull : fields.ptr ≠ 0)
    (locked : TableLock.bucket (stripe setup fields.ptr) ∈ held)
    (safe : rest.Safe (tableDiscipline setup) held
      (Function.update own e none)) :
    (mttEntryAdd setup e rest).Safe (tableDiscipline setup) held own := by
  refine ⟨fields, mine, ?_, ⟨fields, mine, pooled, nonNull, rfl⟩, safe⟩
  rw [lockOf_bucket]
  exact locked

theorem mttEntryDiscard_safe {e : Word} {fields : EntryFields}
    {rest : TableProg} (poolFree : PoolFree held)
    (mine : own e = some fields) (pooled : Pooled setup e)
    (safe : rest.Safe (tableDiscipline setup) held
      (Function.update own e none)) :
    (mttEntryDiscard setup e rest).Safe (tableDiscipline setup) held own := by
  unfold mttEntryDiscard
  split
  · have unheld := poolFree (stripe setup e)
    refine ⟨by simp [mine], poolFree.rank _, Set.mem_insert _ held,
      ⟨.zero, by simp, pooled, trivial⟩, Set.mem_insert _ held, ?_⟩
    rw [insert_diff unheld, Function.update_idem]
    exact safe
  · rename_i unpooled
    split
    · exact ⟨by simp [mine], fun permanent => unpooled permanent.1, safe⟩
    · apply safe.more
      constructor
      · intro cell owned
        have different : cell ≠ e := by
          rintro rfl
          simp at owned
        rw [Function.update_of_ne different]
      · intro cell _ _ permanent
        exact unpooled permanent.1

theorem mttEntryFind_safe {ptr : Word} {rest : Option Word → TableProg}
    (locked : TableLock.bucket (stripe setup ptr) ∈ held)
    (safe : ∀ found, (rest found).Safe (tableDiscipline setup) held own) :
    (mttEntryFind setup ptr rest).Safe (tableDiscipline setup) held own := by
  unfold mttEntryFind
  split
  · exact safe none
  · refine ⟨?_, safe none, fun e fields _ _ _ => safe (some e)⟩
    rw [lockOf_bucket]
    exact locked

theorem mttEntryRemove_safe {ptr : Word} {rest : TableProg}
    (poolFree : PoolFree held)
    (locked : TableLock.bucket (stripe setup ptr) ∈ held)
    (safe : rest.Safe (tableDiscipline setup) held own) :
    (mttEntryRemove setup ptr rest).Safe (tableDiscipline setup) held
      own := by
  unfold mttEntryRemove
  split
  · exact safe
  · refine ⟨?_, safe, ?_⟩
    · rw [lockOf_bucket]
      exact locked
    · intro dead fields fresh fits _
      apply mttEntryDiscard_safe poolFree (Function.update_self ..) fits.1
      rw [Function.update_idem, ← fresh, Function.update_eq_self]
      exact safe

theorem mttStripeLock_safe {ptr : Word} {rest : TableProg}
    (safe : rest.Safe (tableDiscipline setup)
      {.bucket (stripe setup ptr)} own) :
    (mttStripeLock setup ptr rest).Safe (tableDiscipline setup) ∅ own := by
  refine ⟨fun _ member => absurd member (Set.notMem_empty _), ?_⟩
  rw [insert_empty_eq]
  exact safe

theorem mttStripeUnlock_safe (ptr : Word) {rest : TableProg}
    (safe : rest.Safe (tableDiscipline setup) ∅ own) :
    (mttStripeUnlock setup ptr rest).Safe (tableDiscipline setup)
      {.bucket (stripe setup ptr)} own := by
  refine ⟨Set.mem_singleton _, ?_⟩
  rw [Set.sdiff_self]
  exact safe

theorem poolFree_empty : PoolFree ∅ :=
  fun _ => Set.notMem_empty _

theorem poolFree_bucket (index : Nat) : PoolFree {.bucket index} := by
  intro idx member
  cases member

theorem record_safe {e ptr : Word} {fields : EntryFields} {rest : TableProg}
    (mine : own e = some fields) (isPtr : fields.ptr = ptr)
    (pooled : Pooled setup e) (nonNull : ptr ≠ 0)
    (locked : TableLock.bucket (stripe setup ptr) ∈ held)
    (safe : rest.Safe (tableDiscipline setup) held
      (Function.update own e none)) :
    (record setup e rest).Safe (tableDiscipline setup) held own := by
  intro outside
  refine ⟨fields, mine, by simp [mine], ?_⟩
  apply mttEntryAdd_safe (Function.update_self ..) pooled
  · exact isPtr ▸ nonNull
  · exact isPtr ▸ locked
  · rw [Function.update_idem]
    exact safe

theorem untrack_safe {ptr : Word} {rest : TableProg}
    (safe : rest.Safe (tableDiscipline setup) ∅ own) :
    (untrack setup ptr rest).Safe (tableDiscipline setup) ∅ own := by
  apply mttStripeLock_safe
  apply mttEntryFind_safe (Set.mem_singleton _)
  intro found
  have unlocks := mttStripeUnlock_safe ptr safe
  cases found with
  | none => exact unlocks
  | some e =>
      exact mttEntryRemove_safe (poolFree_bucket _) (Set.mem_singleton _)
        unlocks

variable (setup) in
theorem done_safe (result : TableResult) :
    (Prog.done result : TableProg).Safe (tableDiscipline setup) ∅
      fun _ => none :=
  ⟨rfl, fun _ owned => absurd rfl owned⟩

/-- The entry of a caller that has nothing else goes back. -/
theorem discardLast_safe {e : Word} {fields : EntryFields}
    {rest : TableProg} (poolFree : PoolFree held) (pooled : Pooled setup e)
    (safe : rest.Safe (tableDiscipline setup) held fun _ => none) :
    (mttEntryDiscard setup e rest).Safe (tableDiscipline setup) held
      (Function.update (fun _ => none) e (some fields)) := by
  apply mttEntryDiscard_safe poolFree (Function.update_self ..) pooled
  rw [Function.update_idem, Function.update_eq_self]
  exact safe

/-- The entry of a caller that has nothing else goes into the table. -/
theorem recordLast_safe {e ptr : Word} {fields : EntryFields}
    {rest : TableProg} (isPtr : fields.ptr = ptr) (pooled : Pooled setup e)
    (nonNull : ptr ≠ 0)
    (locked : TableLock.bucket (stripe setup ptr) ∈ held)
    (safe : rest.Safe (tableDiscipline setup) held fun _ => none) :
    (record setup e rest).Safe (tableDiscipline setup) held
      (Function.update (fun _ => none) e (some fields)) := by
  apply record_safe (Function.update_self ..) isPtr pooled nonNull locked
  rw [Function.update_idem, Function.update_eq_self]
  exact safe

theorem malloc_safe (size : Word) :
    (malloc setup size).Safe (tableDiscipline setup) ∅ fun _ => none := by
  intro outside
  dsimp only
  split
  · exact done_safe setup _
  · rename_i tracked
    rw [not_or] at tracked
    apply mttEntryNew_safe poolFree_empty (done_safe setup _)
    intro e fields _ pooled isPtr
    apply mttStripeLock_safe
    intro count
    dsimp only
    split
    · exact mttStripeUnlock_safe _
        (discardLast_safe poolFree_empty pooled (done_safe setup _))
    · exact recordLast_safe isPtr pooled tracked.1 (Set.mem_singleton _)
        (mttStripeUnlock_safe _ (done_safe setup _))

theorem free_safe (ptr : Word) :
    (free setup ptr).Safe (tableDiscipline setup) ∅ fun _ => none :=
  untrack_safe (done_safe setup _)

theorem realloc_safe (ptr size : Word) :
    (realloc setup ptr size).Safe (tableDiscipline setup) ∅
      fun _ => none := by
  apply mttStripeLock_safe
  apply mttEntryFind_safe (Set.mem_singleton _)
  intro oldE
  apply mttStripeUnlock_safe ptr
  intro outside
  dsimp only
  split
  · exact done_safe setup _
  · rename_i tracked
    rw [not_or] at tracked
    apply untrack_safe
    intro test
    dsimp only
    split
    · apply mttEntryNew_safe poolFree_empty (done_safe setup _)
      intro newE fields _ pooled isPtr
      have unlocks := mttStripeUnlock_safe outside.block
        (done_safe setup (.returned outside.block))
      apply mttStripeLock_safe
      intro count
      dsimp only
      split
      · exact discardLast_safe (poolFree_bucket _) pooled unlocks
      · exact recordLast_safe isPtr pooled tracked.1 (Set.mem_singleton _)
          unlocks
    · exact done_safe setup _

theorem reallocByCopy_safe (ptr size : Word) :
    (reallocByCopy setup ptr size).Safe (tableDiscipline setup) ∅
      fun _ => none := by
  intro outside
  dsimp only
  split
  · exact done_safe setup _
  · rename_i nonNull
    apply mttEntryNew_safe poolFree_empty (done_safe setup _)
    intro newE fields _ pooled isPtr
    apply untrack_safe
    apply mttStripeLock_safe
    intro count
    dsimp only
    split
    · exact mttStripeUnlock_safe _
        (discardLast_safe poolFree_empty pooled (done_safe setup _))
    · exact recordLast_safe isPtr pooled nonNull (Set.mem_singleton _)
        (mttStripeUnlock_safe _ (done_safe setup _))

theorem copyStripe_safe {entryTotal : Nat}
    {rest : List (MttAllocSnap 64) → TableProg} {buckets : List Nat}
    (locked : ∀ bucket ∈ buckets,
      TableLock.bucket (bucket % mttLockStripes) ∈ held)
    (safe : ∀ snaps, (rest snaps).Safe (tableDiscipline setup) held own)
    (snaps : List (MttAllocSnap 64)) :
    (copyStripe entryTotal rest buckets snaps).Safe (tableDiscipline setup)
      held own := by
  induction buckets generalizing snaps with
  | nil => exact safe snaps
  | cons bucket later induction =>
      rw [copyStripe]
      split
      · refine ⟨locked bucket List.mem_cons_self, ?_⟩
        intro copied
        exact induction (fun other member =>
          locked other (List.mem_cons_of_mem _ member)) _
      · exact safe snaps

theorem copyStripes_safe {entryTotal : Nat} {stripes : List Nat}
    (inside : ∀ lockIdx ∈ stripes, lockIdx < mttLockStripes)
    (snaps : List (MttAllocSnap 64)) :
    (copyStripes entryTotal stripes snaps).Safe (tableDiscipline setup) ∅
      fun _ => none := by
  induction stripes generalizing snaps with
  | nil => exact done_safe setup _
  | cons lockIdx later induction =>
      rw [copyStripes]
      split
      · have unheld := Set.notMem_empty (TableLock.bucket lockIdx)
        refine ⟨fun _ member => absurd member (Set.notMem_empty _),
          copyStripe_safe ?_ ?_ snaps⟩
        · intro bucket member
          have stripe := (mem_stripeBuckets
            (inside lockIdx List.mem_cons_self)).mp member
          rw [stripe.2]
          exact Set.mem_insert _ ∅
        · intro copied
          refine ⟨Set.mem_insert _ ∅, ?_⟩
          rw [insert_diff unheld]
          exact induction (fun other member =>
            inside other (List.mem_cons_of_mem _ member)) copied
      · exact done_safe setup _

theorem tableProgram_safe (call : TableCall) :
    (tableProgram setup call).Safe (tableDiscipline setup) ∅
      fun _ => none := by
  cases call with
  | malloc size => exact malloc_safe size
  | free ptr => exact free_safe ptr
  | realloc ptr size => exact realloc_safe ptr size
  | reallocByCopy ptr size => exact reallocByCopy_safe ptr size
  | scan entryTotal =>
      exact copyStripes_safe (fun _ member => List.mem_range.mp member) []

end Discipline

/-! ## Runs -/

section Runs

variable (setup : TableLists.TableSetup) (Thread : Type)

abbrev TableState : Type :=
  FineState Thread TableLock PoolList Word EntryFields Outside TableResult

abbrev TableStep : Type := LockedLists.Label Thread TableCall Word Outside

/-- The table after `mtt_ensure_init`, and idle threads.  NULL is never given
by `raw_malloc`. -/
def tableInit (state : TableState Thread) : Prop :=
  (∃ next, state.memory =
    if setup.pooled then
      TableLists.initFreeLists setup ⟨fun _ => none, next⟩
    else ⟨fun _ => none, next⟩) ∧
  (∀ mutex, state.shared.owner mutex = none) ∧
  state.shared.live 0 = true ∧
  (∀ slot, setup.pooled = true →
    state.shared.live (setup.layout.address slot) = true) ∧
  ∀ thread, ∃ result, state.threads thread = .run (.done result)

/-- A slot of a new pool and its free list. -/
def Spread (node : Word) (list : PoolList) : Prop :=
  setup.pooled = true ∧ ∃ slot, setup.layout.address slot = node ∧
    list = .free (slot.val % mttLockStripes)

/-- The same with whole operations: every bucket is empty, and each slot is in
its free list. -/
def operationInit (state : AtomicState Thread TableLock PoolList Word
    EntryFields Outside TableResult) : Prop :=
  (∀ list, (state.lists list).Nodup ∧
    ∀ node, node ∈ state.lists list ↔ Spread setup node list) ∧
  (∀ mutex, state.shared.owner mutex = none) ∧
  ∀ thread, ∃ result, state.threads thread = .done result

variable [DecidableEq Thread]

/-- Any number of threads in the hooks and scans, one access in each step. -/
def accessSystem : System (TableState Thread) (TableStep Thread) :=
  fineSystem (tableProgram setup) (tableInit setup Thread)

/-- The same threads, one operation on a list in each step. -/
def operationSystem : System (AtomicState Thread TableLock PoolList Word
    EntryFields Outside TableResult) (TableStep Thread) :=
  atomicSystem (tableProgram setup) (operationInit setup Thread)

variable {setup} {Thread}

omit [DecidableEq Thread] in
theorem initLists_represents (setup : TableLists.TableSetup)
    (next : Word → Option Word) :
    ∃ lists place, Chain.Represents
      (if setup.pooled then
        TableLists.initFreeLists setup ⟨fun _ => none, next⟩
      else ⟨fun _ => none, next⟩) lists place ∧
      ∀ node list, place node = some list ↔ Spread setup node list := by
  cases pooled : setup.pooled with
  | false =>
      refine ⟨fun _ => [], fun _ => none, .empty next, ?_⟩
      intro node list
      simp [Spread, pooled]
  | true =>
      let slots := (List.finRange setup.layout.capacity.toNat).map
        setup.layout.address
      let destination := fun node =>
        PoolList.free (setup.slotOf node % mttLockStripes)
      have distinct : slots.Nodup := by
        apply (List.nodup_finRange _).map
        intro first second same
        have numbers := congrArg setup.slotOf same
        rw [setup.slotOf_address, setup.slotOf_address] at numbers
        exact Fin.ext numbers
      obtain ⟨lists, represents⟩ := (Chain.Represents.empty next).pushAll
        destination distinct fun _ _ => rfl
      have spread : slots.foldl
          (fun memory node => memory.push (destination node) node)
          ⟨fun _ => none, next⟩ =
            TableLists.initFreeLists setup ⟨fun _ => none, next⟩ := by
        simp only [slots, List.foldl_map, destination, setup.slotOf_address]
        rfl
      rw [spread] at represents
      refine ⟨lists, _, represents, ?_⟩
      intro node list
      constructor
      · intro placed
        split at placed
        · rename_i member
          obtain ⟨slot, _, rfl⟩ := List.mem_map.mp member
          have same := Option.some.inj placed
          simp only [destination, setup.slotOf_address] at same
          exact ⟨pooled, slot, rfl, same.symm⟩
        · cases placed
      · rintro ⟨_, slot, rfl, rfl⟩
        have member : setup.layout.address slot ∈ slots :=
          List.mem_map.mpr ⟨slot, List.mem_finRange slot, rfl⟩
        rw [if_pos member]
        simp only [destination, setup.slotOf_address]

omit [DecidableEq Thread] in
theorem tableInit_typed {state : TableState Thread}
    (initial : tableInit setup Thread state) :
    ∃ target place, operationInit setup Thread target ∧
      Typed (tableDiscipline setup) target place ∧ Refines state target := by
  obtain ⟨⟨next, memory⟩, unowned, _, live, idle⟩ := initial
  obtain ⟨lists, place, represents, spread⟩ :=
    initLists_represents setup next
  rw [← memory] at represents
  choose results finished using idle
  let target : AtomicState Thread TableLock PoolList Word EntryFields Outside
      TableResult :=
    { shared := state.shared
      lists := lists
      threads := fun thread => .done (results thread) }
  have isInitial : operationInit setup Thread target := by
    refine ⟨fun list => ⟨represents.distinct list, ?_⟩, unowned,
      fun thread => ⟨_, rfl⟩⟩
    intro node
    rw [← spread node list]
    exact represents.placed list node
  have listed : ∀ node target, (place node).map Place.listed =
      some target ↔ ∃ list, place node = some list ∧
        target = (.listed list : Place Thread PoolList) := by
    intro node target
    rw [Option.map_eq_some_iff]
    exact exists_congr fun list => and_congr_right fun _ => eq_comm
  refine ⟨target, fun node => (place node).map Place.listed, isInitial, ?_,
    ?_⟩
  · constructor
    · constructor
      · intro list node
        rw [listed, represents.placed list node]
        simp
      · exact represents.distinct
      · intro list node placed
        obtain ⟨_, there, same⟩ := (listed node _).mp placed
        cases same
        obtain ⟨_, slot, isSlot, rfl⟩ := (spread node list).mp there
        exact ⟨fun _ => ⟨slot, isSlot⟩, trivial⟩
      · intro node placed
        cases there : place node with
        | none =>
            rw [there] at placed
            exact absurd rfl placed
        | some list =>
            obtain ⟨pooled, slot, rfl, _⟩ := (spread node list).mp there
            exact live slot pooled
      · rintro node ⟨pooled, slot, rfl⟩ missing
        rw [Option.map_eq_none_iff,
          (spread _ _).mpr ⟨pooled, slot, rfl, rfl⟩] at missing
        contradiction
    · intro thread
      refine ⟨?_, ?_⟩
      · ext mutex
        simp [Shared.held, target, unowned mutex]
      · intro node kept
        have there := keeps_ne_none.mp kept
        obtain ⟨_, _, same⟩ := (listed node _).mp there
        cases same
  · refine ⟨rfl, represents.linked, ?_⟩
    intro thread
    rw [finished thread]
    exact .run

variable {state : TableState Thread}

theorem table_typed (reachable : (accessSystem setup Thread).Reachable state) :
    ∃ target place, (operationSystem setup Thread).Reachable target ∧
      Typed (tableDiscipline setup) target place ∧ Refines state target :=
  exists_atomic tableProgram_safe (fun _ => tableInit_typed) reachable

/-- A pool of four slots. -/
def pooledSetup : TableLists.TableSetup where
  layout := { base := 4096, entrySize := 560, capacity := 4, hashSeed := 7 }
  pooled := true
  rawFree := true
  nonNull := by decide
  positive := by decide
  fits := by decide

def pooledStart : TableState Worker :=
  { shared :=
      { data := fun _ => .zero
        owner := fun _ => none
        live := fun _ => true }
    memory := TableLists.initFreeLists pooledSetup
      ⟨fun _ => none, fun _ => none⟩
    threads := fun _ => .run (.done .freed) }

theorem pooledStart_init : tableInit pooledSetup Worker pooledStart :=
  ⟨⟨fun _ => none, rfl⟩, fun _ => rfl, rfl, fun _ _ => rfl,
    fun _ => ⟨.freed, rfl⟩⟩

def trackedBlock (block : Word) : Outside :=
  { block, admitted := true, full := false, allocSeq := 0, now := 0
    stack := [] }

/-- The first thread is about to link its entry; the second one comes to a free
list. -/
def linkingSteps : List (TableStep Worker) :=
  .call .first (.malloc 16) ::
    List.replicate 19 (.step .first (trackedBlock 368) none) ++
    [.call .second (.malloc 24), .step .second (trackedBlock 416) none,
      .step .second (trackedBlock 416) none]

theorem linking_reachable : ∃ state : TableState Worker,
    (accessSystem pooledSetup Worker).Reachable state ∧
      (state.threads .first).accesses = [.next 4656] ∧
      (state.threads .second).accesses = [.head (.free 3)] := by
  obtain ⟨state, reachable, found⟩ :=
    (accessSystem pooledSetup Worker).exists_reachable_of_run
      (fun state => decide
        ((state.threads .first).accesses = [.next 4656] ∧
          (state.threads .second).accesses = [.head (.free 3)]))
      linkingSteps pooledStart_init (by decide +kernel)
  exact ⟨state, reachable, of_decide_eq_true found⟩

/-- No two threads are ever about to access the same head, `next` field or
entry, and none accesses an entry that was given back. -/
theorem table_no_race
    (reachable : (accessSystem setup Thread).Reachable state)
    {thread other : Thread} (different : other ≠ thread)
    {location : Location PoolList Word}
    (accessed : location ∈ (state.threads thread).accesses) :
    location ∉ (state.threads other).accesses ∧
      ∀ node, location.cell = some node →
        state.shared.live node = true := by
  obtain ⟨target, place, _, typed, refines⟩ := table_typed reachable
  exact ⟨refines.noRace typed different accessed,
    fun _ => refines.alive typed accessed⟩

theorem table_no_race_linking : ∃ state : TableState Worker,
    (state.threads .first).accesses = [.next 4656] ∧
      .next 4656 ∉ (state.threads .second).accesses ∧
      state.shared.live 4656 = true := by
  obtain ⟨state, reachable, first, _⟩ := linking_reachable
  have accessed : Location.next 4656 ∈ (state.threads .first).accesses := by
    rw [first]
    exact List.mem_singleton_self _
  have apart : Worker.second ≠ Worker.first := by decide
  obtain ⟨unraced, alive⟩ := table_no_race reachable apart accessed
  exact ⟨state, first, unraced, alive 4656 rfl⟩

/-- Whatever the interleaving of the accesses, the memory is that of a run in
which each operation is one step, and the threads between two operations are
where they are in that run. -/
theorem table_linearizes
    (reachable : (accessSystem setup Thread).Reachable state) :
    ∃ target, (operationSystem setup Thread).Reachable target ∧
      state.shared = target.shared ∧
      (∀ list, Chain.Linked state.memory.next (state.memory.head list)
        (target.lists list)) ∧
      ∀ thread prog, state.threads thread = .run prog →
        target.threads thread = prog := by
  obtain ⟨target, place, reached, _, refines⟩ := table_typed reachable
  refine ⟨target, reached, refines.shared, refines.linked, ?_⟩
  intro thread prog current
  have doing := refines.doing thread
  rw [current] at doing
  cases doing
  rfl

theorem table_linearizes_linking : ∃ (state : TableState Worker)
    (target : AtomicState Worker TableLock PoolList Word EntryFields Outside
      TableResult), (state.threads .first).accesses = [.next 4656] ∧
      (operationSystem pooledSetup Worker).Reachable target ∧
      state.shared = target.shared := by
  obtain ⟨state, reachable, first, _⟩ := linking_reachable
  obtain ⟨target, reached, same, _⟩ := table_linearizes reachable
  exact ⟨state, target, first, reached, same⟩

/-- Each slot of the pool is in exactly one list, or in no list while a call
works on it; and a bucket holds, once each, entries of blocks that belong
there. -/
theorem table_slots
    (reachable : (accessSystem setup Thread).Reachable state) :
    ∃ lists : PoolList → List Word,
      (∀ list, Chain.Linked state.memory.next (state.memory.head list)
        (lists list) ∧ (lists list).Nodup) ∧
      (∀ index, ∀ node ∈ lists (.bucket index),
        (state.shared.data node).ptr ≠ 0 ∧
          mttBucketOf (state.shared.data node).ptr mttBuckets
            setup.layout.hashSeed = index) ∧
      (setup.pooled = true → ∀ slot,
        (∃! list, setup.layout.address slot ∈ lists list) ∨
          (∀ list, setup.layout.address slot ∉ lists list) ∧
            ∃ thread, (state.threads thread).isDone = false) := by
  obtain ⟨target, place, _, typed, refines⟩ := table_typed reachable
  refine ⟨target.lists, fun list => ⟨refines.linked list,
    typed.distinct list⟩, ?_, ?_⟩
  · intro index node member
    have fits := typed.fits _ node ((typed.placed _ node).mp member)
    rw [refines.shared]
    exact fits.2
  · intro pooled slot
    have present := typed.permanent (setup.layout.address slot)
      ⟨pooled, slot, rfl⟩
    obtain ⟨there, placed⟩ := Option.ne_none_iff_exists'.mp present
    cases there with
    | listed list =>
        refine .inl ⟨list, (typed.placed _ _).mpr placed, ?_⟩
        intro other member
        have alsoPlaced := (typed.placed _ _).mp member
        rw [placed] at alsoPlaced
        simpa using alsoPlaced.symm
    | kept thread =>
        refine .inr ⟨?_, thread, ?_⟩
        · intro list member
          have alsoPlaced := (typed.placed _ _).mp member
          rw [placed] at alsoPlaced
          simp at alsoPlaced
        · rw [Bool.eq_false_iff]
          intro idle
          have finished := (refines.doing thread).isDone idle
          have safe := typed.safe thread
          cases current : target.threads thread with
          | done result =>
              rw [current] at safe
              exact safe.2 _ (keeps_ne_none.mpr placed) ⟨pooled, slot, rfl⟩
          | _ => simp [current, Prog.isDone] at finished

theorem table_slots_linking : ∃ (state : TableState Worker)
    (lists : PoolList → List Word),
      (state.threads .first).accesses = [.next 4656] ∧
      ∀ slot, (∃! list, pooledSetup.layout.address slot ∈ lists list) ∨
        (∀ list, pooledSetup.layout.address slot ∉ lists list) ∧
          ∃ thread, (state.threads thread).isDone = false := by
  obtain ⟨state, reachable, first, _⟩ := linking_reachable
  obtain ⟨lists, _, _, slots⟩ := table_slots reachable
  exact ⟨state, lists, first, slots rfl⟩

/-- As long as a call is going on, some call going on can take a step. -/
theorem table_progress
    (reachable : (accessSystem setup Thread).Reachable state)
    (outside : Outside) {thread : Thread}
    (busy : (state.threads thread).isDone = false) :
    ∃ other, (state.threads other).isDone = false ∧
      ((accessSystem setup Thread).next state
        (.step other outside none)).isSome := by
  obtain ⟨target, place, _, typed, refines⟩ := table_typed reachable
  have below : ∀ mutex, (tableDiscipline setup).rank mutex < 2 := by
    intro mutex
    cases mutex with
    | bucket stripe => exact Nat.zero_lt_two
    | pool stripe => exact Nat.one_lt_two
  exact refines.progress (tableProgram setup) typed below outside busy

theorem table_progress_linking : ∃ (state : TableState Worker) (thread : Worker),
    (state.threads .first).accesses = [.next 4656] ∧
      ((accessSystem pooledSetup Worker).next state
        (.step thread (trackedBlock 0) none)).isSome := by
  obtain ⟨state, reachable, first, _⟩ := linking_reachable
  have busy : (state.threads .first).isDone = false := by
    rw [Bool.eq_false_iff]
    intro idle
    cases current : state.threads .first with
    | run prog =>
        rw [current] at first idle
        cases prog with
        | done result => simp [Control.accesses] at first
        | _ => simp [Control.isDone, Prog.isDone] at idle
    | _ => simp [current, Control.isDone] at idle
  obtain ⟨thread, _, steps⟩ := table_progress reachable (trackedBlock 0) busy
  exact ⟨state, thread, first, steps⟩

end Runs

end MemoryTraceTool.TableSections
