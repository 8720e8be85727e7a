import MemoryTraceTool.Basic
import MemoryTraceTool.Lib.ChainedTable

/-!
# The entry table

The records of tracked blocks, chained in 4096 buckets by the hash of the
block's address.  The callers of these functions hold the lock of the
address's stripe.
-/

namespace MemoryTraceTool

/-- `mtt_entry_t` without the stack and the links. -/
structure MttEntry where
  ptr : Word
  size : Nat
  allocNum : Nat
  deriving DecidableEq, Repr

/-- The chains by bucket, and the number of entries. -/
structure EntryTable where
  buckets : Nat → List MttEntry
  entryCount : Nat
  hashSeed : Word

namespace EntryTable

/-- Entries are keyed by their block address and hashed with the seed. -/
def shape (seed : Word) : ChainedTable.Shape Word MttEntry where
  hash := fun ptr => mttBucketOf ptr mttBuckets seed
  key := MttEntry.ptr

def WellFormed (table : EntryTable) : Prop :=
  ChainedTable.WellFormed (shape table.hashSeed) table.buckets

def empty (seed : Word) : EntryTable :=
  { buckets := fun _ => []
    entryCount := 0
    hashSeed := seed }

theorem empty_wellFormed (seed : Word) : (empty seed).WellFormed :=
  .empty (shape seed)

end EntryTable

/-- `mtt_entry_find`. -/
def mttEntryFind (table : EntryTable) (ptr : Word) : Option MttEntry :=
  if ptr = 0 then none
  else ChainedTable.find (EntryTable.shape table.hashSeed) table.buckets ptr

/-- `mtt_entry_add`: the entry comes first in its chain. -/
def mttEntryAdd (table : EntryTable) (entry : MttEntry) : EntryTable :=
  { table with
    buckets :=
      ChainedTable.insert (EntryTable.shape table.hashSeed) table.buckets entry
    entryCount := table.entryCount + 1 }

/-- `mtt_entry_remove` takes the first entry of the address out of its bucket;
the pool side of the removal is modelled separately. -/
def mttEntryRemove (table : EntryTable) (ptr : Word) : EntryTable :=
  if (mttEntryFind table ptr).isSome then
    { table with
      buckets :=
        ChainedTable.erase (EntryTable.shape table.hashSeed) table.buckets ptr
      entryCount := table.entryCount - 1 }
  else
    table

/-- `mtt_is_over_capacity`. -/
def mttIsOverCapacity (table : EntryTable) : Bool :=
  decide (mttMaxEntries ≤ table.entryCount)

theorem mttEntryFind_empty (seed ptr : Word) :
    mttEntryFind (EntryTable.empty seed) ptr = none := by
  simp [mttEntryFind, EntryTable.empty, ChainedTable.find]

theorem mttEntryFind_ptr {table : EntryTable} {ptr : Word} {entry : MttEntry}
    (found : mttEntryFind table ptr = some entry) : entry.ptr = ptr := by
  unfold mttEntryFind at found
  split at found
  · contradiction
  · exact ChainedTable.key_of_find found

theorem mttEntryFind_add (table : EntryTable) {entry : MttEntry}
    (nonNull : entry.ptr ≠ 0) (ptr : Word) :
    mttEntryFind (mttEntryAdd table entry) ptr =
      if entry.ptr = ptr then some entry else mttEntryFind table ptr := by
  unfold mttEntryFind
  by_cases null : ptr = 0
  · rw [if_pos null, if_pos null, null, if_neg nonNull]
  · simp only [null, if_false]
    exact ChainedTable.find_insert entry ptr

theorem mttEntryFind_remove {table : EntryTable}
    (wellFormed : table.WellFormed) (ptr other : Word) :
    mttEntryFind (mttEntryRemove table ptr) other =
      if other = ptr then none else mttEntryFind table other := by
  unfold mttEntryRemove
  split
  · unfold mttEntryFind
    by_cases null : other = 0
    · simp [null]
    · simp only [null, if_false]
      exact ChainedTable.WellFormed.find_erase wellFormed ptr other
  · rename_i absent
    by_cases same : other = ptr
    · simpa [same] using absent
    · rw [if_neg same]

theorem EntryTable.WellFormed.add {table : EntryTable}
    (wellFormed : table.WellFormed) {entry : MttEntry}
    (nonNull : entry.ptr ≠ 0)
    (fresh : mttEntryFind table entry.ptr = none) :
    (mttEntryAdd table entry).WellFormed := by
  rw [mttEntryFind, if_neg nonNull] at fresh
  exact ChainedTable.WellFormed.insert wellFormed fresh

theorem EntryTable.WellFormed.remove {table : EntryTable}
    (wellFormed : table.WellFormed) (ptr : Word) :
    (mttEntryRemove table ptr).WellFormed := by
  unfold mttEntryRemove
  split
  · exact ChainedTable.WellFormed.erase wellFormed ptr
  · exact wellFormed

theorem mttEntryFind_of_mem {table : EntryTable}
    (wellFormed : table.WellFormed) {bucket : Nat} {entry : MttEntry}
    (member : entry ∈ table.buckets bucket) (nonNull : entry.ptr ≠ 0) :
    mttEntryFind table entry.ptr = some entry := by
  rw [mttEntryFind, if_neg nonNull]
  exact ChainedTable.WellFormed.find_of_mem wellFormed member

theorem mem_of_mttEntryFind {table : EntryTable} {ptr : Word}
    {entry : MttEntry} (found : mttEntryFind table ptr = some entry) :
    ∃ bucket, entry ∈ table.buckets bucket := by
  unfold mttEntryFind at found
  split at found
  · cases found
  · exact ⟨_, ChainedTable.mem_of_find found⟩

theorem mem_mttEntryAdd {table : EntryTable} {entry other : MttEntry}
    {bucket : Nat} (member : other ∈ (mttEntryAdd table entry).buckets bucket) :
    other = entry ∨ other ∈ table.buckets bucket :=
  ChainedTable.mem_of_insert member

theorem mem_mttEntryRemove {table : EntryTable}
    (wellFormed : table.WellFormed) {ptr : Word} (nonNull : ptr ≠ 0)
    {bucket : Nat} {entry : MttEntry}
    (member : entry ∈ (mttEntryRemove table ptr).buckets bucket) :
    entry ∈ table.buckets bucket ∧ entry.ptr ≠ ptr := by
  unfold mttEntryRemove at member
  split at member
  · exact ⟨ChainedTable.mem_of_erase member,
      ChainedTable.WellFormed.key_ne_of_mem_erase wellFormed member⟩
  · rename_i absent
    refine ⟨member, ?_⟩
    rintro rfl
    apply absent
    rw [mttEntryFind_of_mem wellFormed member nonNull]
    rfl

end MemoryTraceTool
