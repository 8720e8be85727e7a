import Mathlib.Order.Interval.Finset.Nat
import MemoryTraceTool.PoolMemory

/-!
# The bucket table as stacks of entries

Entries are linked into the bucket chains through their `next` fields.  With a
pool they come from its free lists and go back to them, without one from
`raw_malloc` and to `raw_free`.  Whatever is added, found and removed, the
chains hold one stack of entries for each address.
-/

namespace MemoryTraceTool.TableLists

open Transition

/-- The pool that `mtt_ensure_init` obtained, one block of memory, if any; and
whether `raw_free` is resolved. -/
structure TableSetup where
  layout : PoolLayout
  pooled : Bool
  rawFree : Bool
  nonNull : layout.base ≠ 0
  positive : 0 < layout.entrySize
  fits : layout.base.toNat + layout.capacity.toNat * layout.entrySize ≤ 2 ^ 64

/-- The memory of the table.  `taken` are the entries that `mtt_entry_new`
returned and that are in no bucket, `live` those that `raw_malloc` gave. -/
structure EntryHeap where
  memory : Chain.Memory PoolList Word
  entry : Word → MttEntry
  entryCount : Word
  taken : List Word
  live : Word → Bool

/-- No chain of entries is longer. -/
def addressCount : Nat := 2 ^ 64

section Functions

variable (setup : TableSetup) (heap : EntryHeap)

def EntryHeap.keyIs (ptr node : Word) : Bool :=
  decide ((heap.entry node).ptr = ptr)

def TableSetup.bucket (ptr : Word) : PoolList :=
  .bucket (mttBucketOf ptr mttBuckets setup.layout.hashSeed)

/-- `mtt_entry_find`: the walk along the chain of the address. -/
def mttEntryFind (ptr : Word) : Option Word :=
  if ptr = 0 then none
  else
    (Chain.Memory.locate heap.memory.next (heap.keyIs ptr) addressCount none
      (heap.memory.head (setup.bucket ptr))).map Prod.snd

/-- `mtt_entry_add`: the node becomes the head of its chain. -/
def mttEntryAdd (node : Word) : EntryHeap :=
  { heap with
    memory := heap.memory.push (setup.bucket (heap.entry node).ptr) node
    entryCount := heap.entryCount + 1 }

/-- The common end of `mtt_entry_remove` and `mtt_entry_discard`. -/
def giveBack (dead : Word) : EntryHeap :=
  if setup.pooled then
    let stripe := mttStripeOf dead mttBuckets setup.layout.hashSeed
    { heap with
      entry := Function.update heap.entry dead ⟨0, 0, 0⟩
      memory := (heap.memory.setNext dead none).push (.free stripe) dead }
  else if setup.rawFree then
    { heap with live := Function.update heap.live dead false }
  else heap

/-- `mtt_entry_remove`: the node is linked around and given back. -/
def mttEntryRemove (ptr : Word) : EntryHeap :=
  if ptr = 0 then heap
  else
    match heap.memory.unlink addressCount (setup.bucket ptr)
      (heap.keyIs ptr) with
    | none => heap
    | some (dead, memory) =>
        giveBack setup
          { heap with memory, entryCount := heap.entryCount - 1 } dead

end Functions

/-- `mtt_entry_new` takes the first slot of some free list, or a node from
`raw_malloc`; `alloc_num` is written before the entry is added. -/
inductive TableLabel where
  | takeSlot (stripe : Nat) (ptr : Word) (size : Nat)
  | allocate (node ptr : Word) (size : Nat)
  | discard (node : Word)
  | add (node : Word) (allocNum : Nat)
  | find (ptr : Word)
  | remove (ptr : Word)
  deriving DecidableEq

/-- The node of an entry and what it holds. -/
abbrev Record : Type := Word × MttEntry

section Steps

variable (setup : TableSetup)

/-- A filled entry in the hands of the caller. -/
def EntryHeap.hand (heap : EntryHeap) (node ptr : Word) (size : Nat) :
    EntryHeap :=
  { heap with
    entry := Function.update heap.entry node ⟨ptr, size, 0⟩
    memory := heap.memory.setNext node none
    taken := node :: heap.taken }

/-- The caller's write to `alloc_num`. -/
def EntryHeap.number (heap : EntryHeap) (node : Word) (allocNum : Nat) :
    EntryHeap :=
  { heap with
    entry := Function.update heap.entry node
      { heap.entry node with allocNum } }

/-- The callers add what `mtt_entry_new` returned, for a block that is not
NULL, and `raw_malloc` gives no node twice. -/
def tableNext (heap : EntryHeap) : TableLabel → Option EntryHeap
  | .takeSlot stripe ptr size =>
      if setup.pooled then
        (heap.memory.pop (.free stripe)).map fun (node, memory) =>
          { heap with memory }.hand node ptr size
      else none
  | .allocate node ptr size =>
      if setup.pooled = false ∧ node ≠ 0 ∧ heap.live node = false then
        some ({ heap with live := Function.update heap.live node true }.hand
          node ptr size)
      else none
  | .discard node =>
      if heap.taken.contains node then
        some (giveBack setup { heap with taken := heap.taken.erase node } node)
      else none
  | .add node allocNum =>
      if heap.taken.contains node ∧ (heap.entry node).ptr ≠ 0 then
        some (mttEntryAdd setup
          { heap.number node allocNum with taken := heap.taken.erase node }
          node)
      else none
  | .find _ => some heap
  | .remove ptr => some (mttEntryRemove setup heap ptr)

/-- The entries of each address, the one added last first. -/
def listsNext (heap : EntryHeap) (lists : Word → List Record) :
    TableLabel → Word → List Record
  | .add node allocNum =>
      let entry := { heap.entry node with allocNum }
      Function.update lists entry.ptr ((node, entry) :: lists entry.ptr)
  | .remove ptr => Function.update lists ptr (lists ptr).tail
  | .takeSlot _ _ _ | .allocate _ _ _ | .discard _ | .find _ => lists

/-- The loop of `mtt_ensure_init` that spreads the slots over the lists. -/
def initFreeLists (memory : Chain.Memory PoolList Word) :
    Chain.Memory PoolList Word :=
  (List.finRange setup.layout.capacity.toNat).foldl
    (fun memory slot => memory.push (.free (slot.val % mttLockStripes))
      (setup.layout.address slot))
    memory

/-- Calls on a table that has just been initialised, and beside it the lists
of the entries of each address. -/
def tableSystem : System (EntryHeap × (Word → List Record)) TableLabel where
  init := fun state =>
    (∃ next, state.1.memory =
      if setup.pooled then initFreeLists setup ⟨fun _ => none, next⟩
      else ⟨fun _ => none, next⟩) ∧
      state.1.entryCount = 0 ∧ state.1.taken = [] ∧
      state.2 = fun _ => []
  next := fun state label =>
    (tableNext setup state.1 label).map fun heap =>
      (heap, listsNext state.1 state.2 label)

end Steps

/-! ## The chains behind the lists -/

def recordShape (seed : Word) : ChainedTable.Shape Word Record where
  hash := fun ptr => mttBucketOf ptr mttBuckets seed
  key := fun record => record.2.ptr

/-- The records of the buckets. -/
def table (heap : EntryHeap) (chains : PoolList → List Word) (index : Nat) :
    List Record :=
  (chains (.bucket index)).map fun node => (node, heap.entry node)

/-- Where the entries are: `held` are those of the callers, `chains` the lists
in memory.  The buckets hold the lists, each entry in its own bucket. -/
structure Refined (setup : TableSetup) (heap : EntryHeap) (held : List Word)
    (lists : Word → List Record) (chains : PoolList → List Word)
    (place : Word → Option PoolList) : Prop where
  represents : Chain.Represents heap.memory chains place
  nonNull : ∀ node, place node ≠ none ∨ node ∈ held → node ≠ 0
  heldOnce : held.Nodup
  heldOut : ∀ node ∈ held, place node = none
  live : setup.pooled = false →
    ∀ node, place node ≠ none ∨ node ∈ held → heap.live node = true
  placed : ∀ node index, place node = some (.bucket index) →
    index = mttBucketOf (heap.entry node).ptr mttBuckets
        setup.layout.hashSeed ∧
      (heap.entry node).ptr ≠ 0
  lists : lists = ChainedTable.stack (recordShape setup.layout.hashSeed)
    (table heap chains)
  count : heap.entryCount = BitVec.ofNat 64
    (ChainedTable.collect (table heap chains) mttBuckets).length

theorem table_congr {heap later : EntryHeap}
    {chains laterChains : PoolList → List Word}
    (sameChains : ∀ index, laterChains (.bucket index) = chains (.bucket index))
    (sameEntries : ∀ index, ∀ node ∈ chains (.bucket index),
      later.entry node = heap.entry node) :
    table later laterChains = table heap chains := by
  funext index
  unfold table
  rw [sameChains index]
  apply List.map_congr_left
  intro node member
  rw [sameEntries index node member]

theorem find_table (setup : TableSetup) (heap : EntryHeap)
    (chains : PoolList → List Word) (ptr : Word) :
    ChainedTable.find (recordShape setup.layout.hashSeed) (table heap chains)
        ptr =
      ((chains (setup.bucket ptr)).find? (heap.keyIs ptr)).map
        fun node => (node, heap.entry node) :=
  List.find?_map

theorem length_lt_addressCount {nodes : List Word} (distinct : nodes.Nodup)
    (nonNull : ∀ node ∈ nodes, node ≠ 0) : nodes.length < addressCount := by
  have inside : (nodes.map BitVec.toNat).toFinset ⊆
      Finset.Ico 1 addressCount := by
    intro value member
    obtain ⟨node, present, rfl⟩ := List.mem_map.mp (List.mem_toFinset.mp member)
    have nonzero : node.toNat ≠ 0 := fun zero =>
      nonNull node present (BitVec.eq_of_toNat_eq zero)
    exact Finset.mem_Ico.mpr ⟨Nat.pos_of_ne_zero nonzero, node.isLt⟩
  have bound := Finset.card_le_card inside
  rw [List.toFinset_card_of_nodup (distinct.map fun _ _ same =>
    BitVec.eq_of_toNat_eq same), List.length_map, Nat.card_Ico] at bound
  have positive : 0 < addressCount := by
    unfold addressCount
    exact Nat.two_pow_pos 64
  omega

namespace Refined

variable {setup : TableSetup} {heap : EntryHeap} {held : List Word}
  {lists : Word → List Record} {chains : PoolList → List Word}
  {place : Word → Option PoolList}

theorem enough (refined : Refined setup heap held lists chains place)
    (list : PoolList) : (chains list).length < addressCount := by
  apply length_lt_addressCount (refined.represents.distinct list)
  intro node member
  refine refined.nonNull node (.inl ?_)
  rw [(refined.represents.placed list node).mp member]
  exact Option.some_ne_none list

theorem head?_lists (refined : Refined setup heap held lists chains place)
    (ptr : Word) :
    (lists ptr).head? =
      ((chains (setup.bucket ptr)).find? (heap.keyIs ptr)).map
        fun node => (node, heap.entry node) := by
  rw [refined.lists, ← ChainedTable.find_eq_head?_stack, find_table]

theorem find (refined : Refined setup heap held lists chains place)
    (ptr : Word) :
    mttEntryFind setup heap ptr = (lists ptr).head?.map Prod.fst := by
  have found : (lists ptr).head?.map Prod.fst =
      (chains (setup.bucket ptr)).find? (heap.keyIs ptr) := by
    rw [refined.head?_lists, Option.map_map]
    exact Option.map_id'
  rw [found]
  unfold mttEntryFind
  split
  · rename_i null
    symm
    rw [List.find?_eq_none]
    intro node member
    have placed := (refined.represents.placed _ node).mp member
    have key := (refined.placed node _ placed).2
    rw [null]
    simpa [EntryHeap.keyIs] using key
  · rcases refined.represents.locate (heap.keyIs ptr)
      (refined.enough (setup.bucket ptr)) with
      ⟨missing, walked⟩ | ⟨_, node, found, walked⟩
    · rw [missing, walked]
      rfl
    · rw [found, walked]
      rfl

/-- A list that is not a bucket gives up a cell. -/
theorem pop (refined : Refined setup heap held lists chains place)
    {stripe : Nat} {node : Word} {memory : Chain.Memory PoolList Word}
    (popped : heap.memory.pop (.free stripe) = some (node, memory)) :
    place node ≠ none ∧ node ∉ held ∧ ∃ rest,
      Refined setup { heap with memory } held lists
        (Function.update chains (.free stripe) rest)
        (Function.update place node none) := by
  obtain ⟨rest, _, placed, represents⟩ := refined.represents.pop popped
  have linked : place node ≠ none := by
    rw [placed]
    exact Option.some_ne_none _
  refine ⟨linked, fun member => linked (refined.heldOut node member), rest, ?_⟩
  have stillPlaced : ∀ other, Function.update place node none other ≠ none →
      place other ≠ none ∧
        Function.update place node none other = place other := by
    intro other present
    by_cases same : other = node
    · subst same
      simp at present
    · rw [Function.update_of_ne same] at present ⊢
      exact ⟨present, rfl⟩
  have sameTable : table { heap with memory }
      (Function.update chains (.free stripe) rest) = table heap chains :=
    table_congr (fun index => Function.update_of_ne (by simp) ..)
      fun _ _ _ => rfl
  constructor
  · exact represents
  · intro other used
    apply refined.nonNull other
    exact used.imp_left fun present => (stillPlaced other present).1
  · exact refined.heldOnce
  · intro other member
    by_cases same : other = node
    · rw [same, Function.update_self]
    · rw [Function.update_of_ne same]
      exact refined.heldOut other member
  · intro unpooled other used
    apply refined.live unpooled other
    exact used.imp_left fun present => (stillPlaced other present).1
  · intro other index there
    have present : Function.update place node none other ≠ none := by
      rw [there]
      exact Option.some_ne_none _
    rw [(stillPlaced other present).2] at there
    exact refined.placed other index there
  · rw [sameTable]
    exact refined.lists
  · rw [sameTable]
    exact refined.count

theorem overwrite (refined : Refined setup heap held lists chains place)
    {node : Word} (free : place node = none) (entry : MttEntry) :
    Refined setup
      { heap with entry := Function.update heap.entry node entry } held lists
      chains place := by
  have sameEntry : ∀ other, place other ≠ none →
      Function.update heap.entry node entry other = heap.entry other := by
    intro other present
    apply Function.update_of_ne
    rintro rfl
    exact present free
  have sameTable : table
      { heap with entry := Function.update heap.entry node entry } chains =
        table heap chains := by
    apply table_congr (fun _ => rfl)
    intro index other member
    apply sameEntry other
    rw [(refined.represents.placed _ other).mp member]
    exact Option.some_ne_none _
  refine { refined with placed := ?_, lists := ?_, count := ?_ }
  · intro other index there
    have kept := sameEntry other (by
      rw [there]
      exact Option.some_ne_none _)
    simp only [kept]
    exact refined.placed other index there
  · rw [sameTable]
    exact refined.lists
  · rw [sameTable]
    exact refined.count

/-- `mtt_entry_new` hands out an entry that is in no list. -/
theorem hand (refined : Refined setup heap held lists chains place)
    {node : Word} (free : place node = none) (fresh : node ∉ held)
    (nonNull : node ≠ 0)
    (live : setup.pooled = false → heap.live node = true) (ptr : Word)
    (size : Nat) :
    Refined setup (heap.hand node ptr size) (node :: held) lists chains
      place := by
  have filled := refined.overwrite free ⟨ptr, size, 0⟩
  constructor
  · exact filled.represents.setNext free none
  · rintro other (present | member)
    · exact refined.nonNull other (.inl present)
    · rcases List.mem_cons.mp member with same | earlier
      · rw [same]
        exact nonNull
      · exact refined.nonNull other (.inr earlier)
  · exact List.nodup_cons.mpr ⟨fresh, refined.heldOnce⟩
  · intro other member
    rcases List.mem_cons.mp member with same | earlier
    · rw [same]
      exact free
    · exact refined.heldOut other earlier
  · rintro unpooled other (present | member)
    · exact refined.live unpooled other (.inl present)
    · rcases List.mem_cons.mp member with same | earlier
      · rw [same]
        exact live unpooled
      · exact refined.live unpooled other (.inr earlier)
  · exact filled.placed
  · exact filled.lists
  · exact filled.count

/-- Which entries the callers remember does not matter. -/
theorem retake (refined : Refined setup heap held lists chains place)
    (taken : List Word) :
    Refined setup { heap with taken } held lists chains place :=
  { refined with }

/-- An entry leaves the hands of the callers. -/
theorem drop {node : Word}
    (refined : Refined setup heap (node :: held) lists chains place) :
    Refined setup heap held lists chains place := by
  refine { refined with
    nonNull := ?_, heldOnce := ?_, heldOut := ?_, live := ?_ }
  · intro other used
    exact refined.nonNull other (used.imp_right (List.mem_cons_of_mem _))
  · exact (List.nodup_cons.mp refined.heldOnce).2
  · intro other member
    exact refined.heldOut other (List.mem_cons_of_mem _ member)
  · intro unpooled other used
    exact refined.live unpooled other
      (used.imp_right (List.mem_cons_of_mem _))

theorem perm {other : List Word} (same : held.Perm other)
    (refined : Refined setup heap held lists chains place) :
    Refined setup heap other lists chains place := by
  refine { refined with
    nonNull := ?_, heldOnce := ?_, heldOut := ?_, live := ?_ }
  · intro node used
    exact refined.nonNull node (used.imp_right same.mem_iff.mpr)
  · exact same.nodup_iff.mp refined.heldOnce
  · intro node member
    exact refined.heldOut node (same.mem_iff.mpr member)
  · intro unpooled node used
    exact refined.live unpooled node (used.imp_right same.mem_iff.mpr)

theorem link {node : Word}
    (refined : Refined setup heap (node :: held) lists chains place)
    (list : PoolList) (bucket : ∀ index, list = .bucket index →
      index = mttBucketOf (heap.entry node).ptr mttBuckets
          setup.layout.hashSeed ∧
        (heap.entry node).ptr ≠ 0)
    {entryCount : Word} {laterLists : Word → List Record}
    (sameLists : laterLists = ChainedTable.stack
      (recordShape setup.layout.hashSeed)
      (table heap (Function.update chains list (node :: chains list))))
    (counted : entryCount = BitVec.ofNat 64 (ChainedTable.collect
      (table heap (Function.update chains list (node :: chains list)))
      mttBuckets).length) :
    Refined setup
      { heap with memory := heap.memory.push list node, entryCount } held
      laterLists (Function.update chains list (node :: chains list))
      (Function.update place node (some list)) := by
  have out := (List.nodup_cons.mp refined.heldOnce).1
  have free := refined.heldOut node List.mem_cons_self
  have placeOf : ∀ other, Function.update place node (some list) other ≠ none →
      other = node ∨ place other ≠ none := by
    intro other present
    by_cases same : other = node
    · exact .inl same
    · rw [Function.update_of_ne same] at present
      exact .inr present
  have used : ∀ other, (Function.update place node (some list) other ≠ none ∨
      other ∈ held) → place other ≠ none ∨ other ∈ node :: held := by
    rintro other (present | member)
    · rcases placeOf other present with same | earlier
      · exact .inr (List.mem_cons.mpr (.inl same))
      · exact .inl earlier
    · exact .inr (List.mem_cons_of_mem _ member)
  constructor
  · exact refined.represents.push free list
  · intro other present
    exact refined.nonNull other (used other present)
  · exact (List.nodup_cons.mp refined.heldOnce).2
  · intro other member
    have different : other ≠ node := by
      rintro rfl
      exact out member
    rw [Function.update_of_ne different]
    exact refined.heldOut other (List.mem_cons_of_mem _ member)
  · intro unpooled other present
    exact refined.live unpooled other (used other present)
  · intro other index there
    by_cases same : other = node
    · subst same
      rw [Function.update_self, Option.some.injEq] at there
      exact bucket index there
    · rw [Function.update_of_ne same] at there
      exact refined.placed other index there
  · exact sameLists
  · exact counted

theorem giveBack {dead : Word}
    (refined : Refined setup heap (dead :: held) lists chains place) :
    ∃ laterChains laterPlace,
      Refined setup (TableLists.giveBack setup heap dead) held lists
        laterChains laterPlace := by
  have free := refined.heldOut dead List.mem_cons_self
  have out := (List.nodup_cons.mp refined.heldOnce).1
  unfold TableLists.giveBack
  split
  · have zeroed := refined.overwrite free ⟨0, 0, 0⟩
    have cleared : Refined setup
        { heap with
          entry := Function.update heap.entry dead ⟨0, 0, 0⟩
          memory := heap.memory.setNext dead none }
        (dead :: held) lists chains place :=
      { zeroed with represents := refined.represents.setNext free none }
    let list := PoolList.free
      (mttStripeOf dead mttBuckets setup.layout.hashSeed)
    have sameTable : table
        { heap with entry := Function.update heap.entry dead ⟨0, 0, 0⟩ }
        (Function.update chains list (dead :: chains list)) =
          table { heap with
            entry := Function.update heap.entry dead ⟨0, 0, 0⟩ } chains :=
      table_congr (fun index => Function.update_of_ne (by simp [list]) ..)
        fun _ _ _ => rfl
    refine ⟨_, _, cleared.link list ?_ ?_ ?_⟩
    · intro index impossible
      exact absurd impossible PoolList.noConfusion
    · exact zeroed.lists.trans (congrArg _ sameTable.symm)
    · have counted := zeroed.count
      rw [← sameTable] at counted
      exact counted
  · rename_i unpooled
    split
    · refine ⟨chains, place, ?_⟩
      refine { refined.drop with live := ?_ }
      intro _ other used
      have different : other ≠ dead := by
        rintro rfl
        exact used.elim (fun present => present free) out
      exact (Function.update_of_ne different ..).trans
        (refined.drop.live (by simpa using unpooled) other used)
    · exact ⟨chains, place, refined.drop⟩

/-- The step of `mtt_entry_add`: a caller's entry is pushed on its list. -/
theorem add {node : Word} {allocNum : Nat} {taken : List Word}
    (refined : Refined setup heap (node :: held) lists chains place)
    (nonNull : (heap.entry node).ptr ≠ 0) :
    ∃ laterChains laterPlace,
      Refined setup
        (mttEntryAdd setup { heap.number node allocNum with taken } node) held
        (listsNext heap lists (.add node allocNum)) laterChains
        laterPlace := by
  have free := refined.heldOut node List.mem_cons_self
  let entry : MttEntry := { heap.entry node with allocNum }
  have numbered := refined.overwrite free entry
  have entryOf : (heap.number node allocNum).entry node = entry :=
    Function.update_self ..
  let list := setup.bucket entry.ptr
  have inserted : table (heap.number node allocNum)
      (Function.update chains list (node :: chains list)) =
        ChainedTable.insert (recordShape setup.layout.hashSeed)
          (table (heap.number node allocNum) chains) (node, entry) := by
    funext index
    unfold table ChainedTable.insert
    by_cases here : index = mttBucketOf entry.ptr mttBuckets
        setup.layout.hashSeed
    · subst here
      simp [list, TableSetup.bucket, recordShape, entryOf]
    · have other : PoolList.bucket index ≠ list := by
        intro same
        exact here (PoolList.bucket.inj same)
      simp only [recordShape]
      rw [Function.update_of_ne other, Function.update_of_ne here]
  have bucketed : mttBucketOf entry.ptr mttBuckets setup.layout.hashSeed <
      mttBuckets := mttBucketOf_lt entry.ptr setup.layout.hashSeed
  have linked : Refined setup
      { heap.number node allocNum with
        memory := heap.memory.push list node
        entryCount := heap.entryCount + 1 } held
      (listsNext heap lists (.add node allocNum))
      (Function.update chains list (node :: chains list))
      (Function.update place node (some list)) := by
    apply numbered.link list
    · intro index same
      have here := PoolList.bucket.inj same
      simp only [Function.update_self]
      exact ⟨here.symm, nonNull⟩
    · calc
        _ = Function.update lists entry.ptr
            ((node, entry) :: lists entry.ptr) := rfl
        _ = ChainedTable.stack (recordShape setup.layout.hashSeed)
            (ChainedTable.insert (recordShape setup.layout.hashSeed)
              (table (heap.number node allocNum) chains) (node, entry)) := by
          rw [ChainedTable.stack_insert]
          simp only [numbered.lists]
          rfl
        _ = _ := congrArg _ inserted.symm
    · have longer : (ChainedTable.collect
          (ChainedTable.insert (recordShape setup.layout.hashSeed)
            (table (heap.number node allocNum) chains) (node, entry))
          mttBuckets).length =
            (ChainedTable.collect (table (heap.number node allocNum) chains)
              mttBuckets).length + 1 :=
        (ChainedTable.collect_insert_perm bucketed).length_eq
      rw [← inserted] at longer
      have counted := congrArg (· + 1) numbered.count
      refine counted.trans ?_
      exact (BitVec.ofNat_add ..).symm.trans
        (congrArg (BitVec.ofNat 64) longer.symm)
  have address : setup.bucket ((heap.number node allocNum).entry node).ptr =
      list := by rw [entryOf]
  have retaken := linked.retake taken
  refine ⟨Function.update chains list (node :: chains list),
    Function.update place node (some list), ?_⟩
  simp only [mttEntryAdd, address]
  exact retaken

/-- Unlinking the first entry of an address pops the list of the address. -/
theorem unlinked (refined : Refined setup heap held lists chains place)
    {ptr node : Word} {memory : Chain.Memory PoolList Word}
    (found : (chains (setup.bucket ptr)).find? (heap.keyIs ptr) = some node)
    (represents : Chain.Represents memory
      (Function.update chains (setup.bucket ptr)
        ((chains (setup.bucket ptr)).eraseP (heap.keyIs ptr)))
      (Function.update place node none)) :
    Refined setup
      { heap with memory, entryCount := heap.entryCount - 1 }
      (node :: held) (Function.update lists ptr (lists ptr).tail)
      (Function.update chains (setup.bucket ptr)
        ((chains (setup.bucket ptr)).eraseP (heap.keyIs ptr)))
      (Function.update place node none) := by
  have placed := (refined.represents.placed _ node).mp
    (List.mem_of_find?_eq_some found)
  have linked : place node ≠ none := by
    rw [placed]
    exact Option.some_ne_none _
  have erased : table heap
      (Function.update chains (setup.bucket ptr)
        ((chains (setup.bucket ptr)).eraseP (heap.keyIs ptr))) =
      ChainedTable.erase (recordShape setup.layout.hashSeed)
        (table heap chains) ptr := by
    funext index
    unfold table ChainedTable.erase
    by_cases here : index = mttBucketOf ptr mttBuckets setup.layout.hashSeed
    · subst here
      simp only [recordShape, TableSetup.bucket, Function.update_self,
        List.eraseP_map]
      rfl
    · have other : PoolList.bucket index ≠ setup.bucket ptr := by
        intro same
        exact here (PoolList.bucket.inj same)
      simp only [recordShape]
      rw [Function.update_of_ne other, Function.update_of_ne here]
  have inTable : ChainedTable.find (recordShape setup.layout.hashSeed)
      (table heap chains) ptr = some (node, heap.entry node) := by
    rw [find_table, found]
    rfl
  have shorter := ChainedTable.length_collect_erase
    (mttBucketOf_lt ptr setup.layout.hashSeed) inTable
  have used : ∀ other, Function.update place node none other ≠ none ∨
      other ∈ node :: held → place other ≠ none ∨ other ∈ held := by
    intro other present
    by_cases same : other = node
    · rw [same]
      exact .inl linked
    · rw [Function.update_of_ne same, List.mem_cons] at present
      exact present.imp_right fun member => member.resolve_left same
  constructor
  · exact represents
  · intro other present
    exact refined.nonNull other (used other present)
  · exact List.nodup_cons.mpr
      ⟨fun member => linked (refined.heldOut node member), refined.heldOnce⟩
  · intro other member
    by_cases same : other = node
    · rw [same, Function.update_self]
    · rw [Function.update_of_ne same]
      exact refined.heldOut other
        ((List.mem_cons.mp member).resolve_left same)
  · intro unpooled other present
    exact refined.live unpooled other (used other present)
  · intro other index there
    by_cases same : other = node
    · rw [same, Function.update_self] at there
      cases there
    · rw [Function.update_of_ne same] at there
      exact refined.placed other index there
  · let shape := recordShape setup.layout.hashSeed
    have popped : ChainedTable.stack shape
        (ChainedTable.erase shape (table heap chains) ptr) =
          Function.update (ChainedTable.stack shape (table heap chains)) ptr
            (ChainedTable.stack shape (table heap chains) ptr).tail :=
      ChainedTable.stack_erase ptr
    rw [← erased, ← refined.lists] at popped
    exact popped.symm
  · have before := refined.count
    rw [← erased] at shorter
    rw [← shorter, BitVec.ofNat_add] at before
    have after : heap.entryCount - 1 = BitVec.ofNat 64
        (ChainedTable.collect (table heap
          (Function.update chains (setup.bucket ptr)
            ((chains (setup.bucket ptr)).eraseP (heap.keyIs ptr))))
          mttBuckets).length := by
      rw [before]
      exact add_sub_cancel_right _ _
    exact after

theorem remove (refined : Refined setup heap held lists chains place)
    (ptr : Word) :
    ∃ laterChains laterPlace,
      Refined setup (mttEntryRemove setup heap ptr) held
        (Function.update lists ptr (lists ptr).tail) laterChains
        laterPlace := by
  have unchanged : (lists ptr).head? = none →
      Function.update lists ptr (lists ptr).tail = lists := by
    intro empty
    have nil := List.head?_eq_none_iff.mp empty
    rw [nil]
    exact (congrArg _ nil.symm).trans (Function.update_eq_self ptr lists)
  unfold mttEntryRemove
  split
  · rename_i null
    have head := refined.find ptr
    rw [mttEntryFind, if_pos null] at head
    refine ⟨chains, place, ?_⟩
    rw [unchanged (Option.map_eq_none_iff.mp head.symm)]
    exact refined
  · rcases refined.represents.unlink (heap.keyIs ptr)
      (refined.enough (setup.bucket ptr)) with
      ⟨missing, none⟩ | ⟨node, memory, found, some, _, represents⟩
    · rw [none]
      refine ⟨chains, place, ?_⟩
      have head := refined.head?_lists ptr
      rw [missing, Option.map_none] at head
      rw [unchanged head]
      exact refined
    · rw [some]
      exact (refined.unlinked found represents).giveBack

end Refined

/-! ## Every reachable table -/

section Runs

variable {setup : TableSetup}

theorem TableSetup.toNat_offset (setup : TableSetup)
    (slot : setup.layout.Slot) :
    (BitVec.ofNat 64 (slot.val * setup.layout.entrySize)).toNat =
        slot.val * setup.layout.entrySize ∧
      slot.val * setup.layout.entrySize <
        2 ^ 64 - setup.layout.base.toNat := by
  have inside := Nat.mul_lt_mul_of_pos_right slot.isLt setup.positive
  have fits := setup.fits
  refine ⟨?_, by omega⟩
  rw [BitVec.toNat_ofNat]
  exact Nat.mod_eq_of_lt (by omega)

/-- The number of the slot at an address of the pool. -/
def TableSetup.slotOf (setup : TableSetup) (node : Word) : Nat :=
  (node - setup.layout.base).toNat / setup.layout.entrySize

theorem TableSetup.slotOf_address (setup : TableSetup)
    (slot : setup.layout.Slot) :
    setup.slotOf (setup.layout.address slot) = slot.val := by
  unfold TableSetup.slotOf PoolLayout.address
  rw [add_sub_cancel_left, (setup.toNat_offset slot).1]
  exact Nat.mul_div_cancel _ setup.positive

theorem TableSetup.address_ne_zero (setup : TableSetup)
    (slot : setup.layout.Slot) : setup.layout.address slot ≠ 0 := by
  obtain ⟨offset, inside⟩ := setup.toNat_offset slot
  have nonzero : setup.layout.base.toNat ≠ 0 := fun zero =>
    setup.nonNull (BitVec.eq_of_toNat_eq zero)
  intro null
  have sum := congrArg BitVec.toNat null
  unfold PoolLayout.address at sum
  rw [BitVec.toNat_add, offset, Nat.mod_eq_of_lt (by omega)] at sum
  simp only [BitVec.ofNat_eq_ofNat, BitVec.toNat_ofNat, Nat.zero_mod] at sum
  omega

theorem initFreeLists_represents (setup : TableSetup)
    (next : Word → Option Word) :
    ∃ chains place, Chain.Represents
      (initFreeLists setup ⟨fun _ => none, next⟩) chains place ∧
      ∀ node list, place node = some list →
        node ≠ 0 ∧ ∃ stripe, list = .free stripe := by
  let slots := (List.finRange setup.layout.capacity.toNat).map
    setup.layout.address
  let destination := fun node =>
    PoolList.free (setup.slotOf node % mttLockStripes)
  have distinct : slots.Nodup := by
    apply (List.nodup_finRange _).map
    intro first second same
    have numbers := congrArg setup.slotOf same
    rw [setup.slotOf_address, setup.slotOf_address] at numbers
    exact Fin.ext numbers
  obtain ⟨chains, represents⟩ := (Chain.Represents.empty next).pushAll
    destination distinct fun _ _ => rfl
  have spread : slots.foldl
      (fun memory node => memory.push (destination node) node)
      ⟨fun _ => none, next⟩ = initFreeLists setup ⟨fun _ => none, next⟩ := by
    simp only [slots, List.foldl_map, destination, setup.slotOf_address]
    rfl
  rw [spread] at represents
  refine ⟨chains, _, represents, ?_⟩
  intro node list placed
  split at placed
  · rename_i member
    obtain ⟨slot, _, rfl⟩ := List.mem_map.mp member
    exact ⟨setup.address_ne_zero slot, _, (Option.some.inj placed).symm⟩
  · cases placed

/-- A heap without entries in buckets or hands. -/
theorem Refined.of_empty {heap : EntryHeap} {chains : PoolList → List Word}
    {place : Word → Option PoolList}
    (represents : Chain.Represents heap.memory chains place)
    (free : ∀ node list, place node = some list →
      node ≠ 0 ∧ ∃ stripe, list = .free stripe)
    (unpooled : setup.pooled = false → ∀ node, place node = none)
    (entryCount : heap.entryCount = 0) :
    Refined setup heap [] (fun _ => []) chains place := by
  have empty : table heap chains = fun _ => [] := by
    funext index
    have none : chains (.bucket index) = [] := by
      rw [List.eq_nil_iff_forall_not_mem]
      intro node member
      have placed := (represents.placed _ node).mp member
      obtain ⟨_, _, impossible⟩ := free node _ placed
      cases impossible
    rw [table, none]
    rfl
  constructor
  · exact represents
  · rintro node (present | member)
    · obtain ⟨list, placed⟩ := Option.ne_none_iff_exists'.mp present
      exact (free node list placed).1
    · cases member
  · exact List.nodup_nil
  · intro node member
    cases member
  · rintro fallback node (present | member)
    · exact absurd (unpooled fallback node) present
    · cases member
  · intro node index placed
    obtain ⟨_, _, impossible⟩ := free node _ placed
    cases impossible
  · rw [empty]
    rfl
  · rw [empty, entryCount]
    simp [ChainedTable.collect]

theorem refined_init {heap : EntryHeap} {lists : Word → List Record}
    (initial : (tableSystem setup).init (heap, lists)) :
    ∃ chains place, Refined setup heap heap.taken lists chains place := by
  obtain ⟨⟨next, memory⟩, entryCount, taken, empty⟩ := initial
  dsimp only at memory entryCount taken empty
  rw [taken, empty]
  cases pooled : setup.pooled with
  | true =>
      rw [if_pos pooled] at memory
      obtain ⟨chains, place, represents, free⟩ :=
        initFreeLists_represents setup next
      rw [← memory] at represents
      refine ⟨chains, place, .of_empty represents free ?_ entryCount⟩
      intro fallback
      rw [pooled] at fallback
      cases fallback
  | false =>
      rw [if_neg (by simp [pooled])] at memory
      have represents : Chain.Represents
          (⟨fun _ => none, next⟩ : Chain.Memory PoolList Word)
          (fun _ => []) (fun _ => none) := .empty next
      rw [← memory] at represents
      refine ⟨_, _, .of_empty represents ?_ (fun _ _ => rfl) entryCount⟩
      intro node list placed
      cases placed

theorem giveBack_taken (setup : TableSetup) (heap : EntryHeap) (dead : Word) :
    (giveBack setup heap dead).taken = heap.taken := by
  unfold giveBack
  split
  · rfl
  · split <;> rfl

theorem mttEntryRemove_taken (setup : TableSetup) (heap : EntryHeap)
    (ptr : Word) : (mttEntryRemove setup heap ptr).taken = heap.taken := by
  unfold mttEntryRemove
  split
  · rfl
  · split
    · rfl
    · exact giveBack_taken setup _ _

theorem refined_next {heap later : EntryHeap} {lists : Word → List Record}
    {label : TableLabel} {chains : PoolList → List Word}
    {place : Word → Option PoolList}
    (refined : Refined setup heap heap.taken lists chains place)
    (next : tableNext setup heap label = some later) :
    ∃ laterChains laterPlace, Refined setup later later.taken
      (listsNext heap lists label) laterChains laterPlace := by
  cases label with
  | takeSlot stripe ptr size =>
      simp only [tableNext] at next
      split at next
      · rename_i pooled
        obtain ⟨⟨node, memory⟩, popped, rfl⟩ := Option.map_eq_some_iff.mp next
        obtain ⟨linked, fresh, rest, taken⟩ := refined.pop popped
        refine ⟨_, _, taken.hand ?_ fresh ?_ ?_ ptr size⟩
        · exact Function.update_self ..
        · exact refined.nonNull node (.inl linked)
        · intro unpooled
          rw [pooled] at unpooled
          cases unpooled
      · cases next
  | allocate node ptr size =>
      simp only [tableNext] at next
      split at next
      · rename_i allowed
        obtain ⟨unpooled, nonNull, dead⟩ := allowed
        obtain rfl := Option.some.inj next
        have unused : ¬ (place node ≠ none ∨ node ∈ heap.taken) := by
          intro used
          rw [refined.live unpooled node used] at dead
          cases dead
        have given : Refined setup
            { heap with live := Function.update heap.live node true }
            heap.taken lists chains place := by
          refine { refined with live := ?_ }
          intro _ other used
          have different : other ≠ node := by
            rintro rfl
            exact unused used
          exact (Function.update_of_ne different ..).trans
            (refined.live unpooled other used)
        refine ⟨chains, place, given.hand ?_ ?_ nonNull ?_ ptr size⟩
        · by_contra present
          exact unused (.inl present)
        · exact fun member => unused (.inr member)
        · intro _
          exact Function.update_self ..
      · cases next
  | discard node =>
      simp only [tableNext] at next
      split at next
      · rename_i contained
        have member := List.contains_iff_mem.mp contained
        obtain rfl := Option.some.inj next
        rw [giveBack_taken]
        exact ((refined.perm (List.perm_cons_erase member)).retake
          (heap.taken.erase node)).giveBack
      · cases next
  | add node allocNum =>
      simp only [tableNext] at next
      split at next
      · rename_i allowed
        have member := List.contains_iff_mem.mp allowed.1
        obtain rfl := Option.some.inj next
        exact (refined.perm (List.perm_cons_erase member)).add allowed.2
      · cases next
  | find ptr =>
      obtain rfl := Option.some.inj next
      exact ⟨chains, place, refined⟩
  | remove ptr =>
      obtain rfl := Option.some.inj next
      rw [mttEntryRemove_taken]
      exact refined.remove ptr

/-- The chains of the buckets: each entry in the bucket of its address, whose
lock is that of the address's stripe, and the lists of all addresses. -/
structure BucketChains (setup : TableSetup) (heap : EntryHeap)
    (lists : Word → List Record) (chains : Nat → List Word) : Prop where
  linked : ∀ index, Chain.Linked heap.memory.next
    (heap.memory.head (.bucket index)) (chains index)
  distinct : ∀ index, (chains index).Nodup
  placed : ∀ index, ∀ node ∈ chains index,
    index = mttBucketOf (heap.entry node).ptr mttBuckets
        setup.layout.hashSeed ∧
      index % mttLockStripes = mttStripeOf (heap.entry node).ptr mttBuckets
        setup.layout.hashSeed
  entries : ∀ ptr, lists ptr =
    ((chains (mttBucketOf ptr mttBuckets setup.layout.hashSeed)).filter
      (heap.keyIs ptr)).map fun node => (node, heap.entry node)
  count : heap.entryCount.toNat =
    ((List.range mttBuckets).map fun index => (chains index).length).sum

/-- The entries of all buckets have different addresses. -/
theorem Refined.total_lt {heap : EntryHeap} {held : List Word}
    {lists : Word → List Record} {chains : PoolList → List Word}
    {place : Word → Option PoolList}
    (refined : Refined setup heap held lists chains place) :
    ((List.range mttBuckets).map fun index =>
      (chains (.bucket index)).length).sum < 2 ^ 64 := by
  have total : ((List.range mttBuckets).map fun index =>
      (chains (.bucket index)).length).sum =
        ((List.range mttBuckets).flatMap fun index =>
          chains (.bucket index)).length := List.length_flatMap.symm
  rw [total]
  apply length_lt_addressCount
  · rw [List.nodup_flatMap]
    refine ⟨fun index _ => refined.represents.distinct (.bucket index), ?_⟩
    apply List.nodup_range.pairwise_of_forall_ne
    intro first _ second _ different node here there
    have firstPlaced := (refined.represents.placed _ node).mp here
    have secondPlaced := (refined.represents.placed _ node).mp there
    rw [firstPlaced, Option.some.injEq] at secondPlaced
    exact different (PoolList.bucket.inj secondPlaced)
  · intro node member
    obtain ⟨index, _, inChain⟩ := List.mem_flatMap.mp member
    refine refined.nonNull node (.inl ?_)
    rw [(refined.represents.placed _ node).mp inChain]
    exact Option.some_ne_none _

/-- Whatever was added, found and removed, a lookup gives the entry of the
address that was added last, and the chains hold the lists. -/
theorem table_refines_lists {heap : EntryHeap} {lists : Word → List Record}
    (reachable : (tableSystem setup).Reachable (heap, lists)) :
    (∀ ptr, mttEntryFind setup heap ptr = (lists ptr).head?.map Prod.fst) ∧
      ∃ chains, BucketChains setup heap lists chains := by
  obtain ⟨chains, place, refined⟩ := reachable.invariant
    (fun state => ∃ chains place,
      Refined setup state.1 state.1.taken state.2 chains place)
    (fun _ initial => refined_init initial)
    (by
      rintro ⟨heap, lists⟩ label target ⟨chains, place, refined⟩ _ taken
      obtain ⟨later, next, rfl⟩ := Option.map_eq_some_iff.mp taken
      exact refined_next refined next)
  refine ⟨refined.find, fun index => chains (.bucket index), ?_⟩
  constructor
  · exact fun index => refined.represents.linked (.bucket index)
  · exact fun index => refined.represents.distinct (.bucket index)
  · intro index node member
    obtain ⟨rfl, _⟩ := refined.placed node index
      ((refined.represents.placed _ node).mp member)
    exact ⟨rfl, (mttStripeOf_eq_mod _ _).symm⟩
  · intro ptr
    have listed := congrFun refined.lists ptr
    simp only [ChainedTable.stack, table, List.filter_map] at listed
    exact listed
  · rw [refined.count, BitVec.toNat_ofNat, ChainedTable.collect,
      List.length_flatMap]
    simp only [table, List.length_map]
    exact Nat.mod_eq_of_lt refined.total_lt

/-- Two entries of one address and one of another in the same bucket, from a
table without a pool; the later of the two was removed. -/
def fallbackSetup : TableSetup where
  layout := { base := 4096, entrySize := 560, capacity := 0, hashSeed := 7 }
  pooled := false
  rawFree := true
  nonNull := by decide
  positive := by decide
  fits := by decide

def emptyHeap : EntryHeap :=
  { memory := ⟨fun _ => none, fun _ => none⟩
    entry := fun _ => ⟨0, 0, 0⟩
    entryCount := 0
    taken := []
    live := fun _ => false }

def fallbackCalls : List TableLabel :=
  [.allocate 4096 64 16, .add 4096 1, .allocate 8192 64 24, .add 8192 2,
    .allocate 12288 131136 32, .add 12288 3, .remove 64]

theorem table_refines_lists_fallback :
    ∃ heap lists, lists 64 = [(4096, ⟨64, 16, 1⟩)] ∧
      (∀ ptr, mttEntryFind fallbackSetup heap ptr =
        (lists ptr).head?.map Prod.fst) ∧
      ∃ chains, BucketChains fallbackSetup heap lists chains := by
  obtain ⟨⟨heap, lists⟩, reachable, kept⟩ :=
    (tableSystem fallbackSetup).exists_reachable_of_run
      (fun state => state.2 64 == [(4096, ⟨64, 16, 1⟩)]) fallbackCalls
      (show (tableSystem fallbackSetup).init (emptyHeap, fun _ => []) from
        ⟨⟨_, rfl⟩, rfl, rfl, rfl⟩)
      (by decide +kernel)
  refine ⟨heap, lists, by simpa using kept, table_refines_lists reachable⟩

end Runs

end MemoryTraceTool.TableLists
