import Mathlib.Algebra.Order.Group.Multiset

/-!
# A heap of allocated blocks

Blocks carry the kind of object they were allocated for and a number of their
own.  The heap remembers the blocks in use and those given back; giving back a
block that is not in use is a fault, as is the use of a null pointer and a read
outside the blocks in use.
-/

namespace Heap

/-- What can go wrong with a pointer. -/
inductive Fault where
  | nullDereference
  | badFree
  | badRead
  deriving DecidableEq, Repr

structure Block (Kind : Type u) where
  kind : Kind
  id : Nat
  deriving DecidableEq

/-- The blocks in use, those given back, and the next name. -/
structure Memory (Kind : Type u) where
  next : Nat
  live : Multiset (Block Kind)
  freed : Multiset (Block Kind)

theorem ok_bind {Value Result : Type u} (value : Value)
    (next : Value → Except Fault Result) :
    (Except.ok value >>= next) = next value := rfl

/-- A chain of calls that ends well began well. -/
theorem bind_eq_ok {Value Result : Type u} {first : Except Fault Value}
    {next : Value → Except Fault Result} {result : Result}
    (ran : (first >>= next) = .ok result) :
    ∃ value, first = .ok value ∧ next value = .ok result := by
  cases first with
  | error fault => cases ran
  | ok value => exact ⟨value, rfl, ran⟩

variable {Kind : Type u} [DecidableEq Kind]

def Memory.empty : Memory Kind :=
  { next := 0
    live := 0
    freed := 0 }

omit [DecidableEq Kind] in
/-- Allocate a block, or fail and leave the heap as it was. -/
def Memory.malloc (memory : Memory Kind) (fails : Bool) (kind : Kind) :
    Option Nat × Memory Kind :=
  if fails then (none, memory)
  else
    (some memory.next,
      { memory with
        next := memory.next + 1
        live := ⟨kind, memory.next⟩ ::ₘ memory.live })

/-- Giving back a block that is not in use is a fault. -/
def Memory.free (memory : Memory Kind) (block : Block Kind) :
    Except Fault (Memory Kind) :=
  if block ∈ memory.live then
    .ok { memory with
      live := memory.live.erase block
      freed := block ::ₘ memory.freed }
  else .error .badFree

def Memory.freeAll (memory : Memory Kind) :
    List (Block Kind) → Except Fault (Memory Kind)
  | [] => .ok memory
  | block :: rest =>
      match memory.free block with
      | .ok later => later.freeAll rest
      | .error fault => .error fault

/-- `array[index]`, where the array is a block of the heap. -/
def Memory.readArray {Value : Type} (memory : Memory Kind) (kind : Kind)
    (array : Option (Nat × List Value)) (index : Nat) : Except Fault Value :=
  match array with
  | none => .error .nullDereference
  | some (id, values) =>
      match values[index]? with
      | none => .error .badRead
      | some value =>
          if ⟨kind, id⟩ ∈ memory.live then .ok value else .error .badRead

/-- No two blocks, in use or given back, have the same number. -/
structure Memory.Valid (memory : Memory Kind) : Prop where
  bounded : ∀ block ∈ memory.live + memory.freed, block.id < memory.next
  distinct : ((memory.live + memory.freed).map Block.id).Nodup

namespace Memory

variable {memory : Memory Kind}

omit [DecidableEq Kind] in
theorem valid_empty : (empty : Memory Kind).Valid := by
  constructor
  · intro block member
    simp [empty] at member
  · simp [empty]

omit [DecidableEq Kind] in
theorem malloc_fails (memory : Memory Kind) (kind : Kind) :
    memory.malloc true kind = (none, memory) := rfl

omit [DecidableEq Kind] in
theorem malloc_succeeds (memory : Memory Kind) (kind : Kind) :
    memory.malloc false kind =
      (some memory.next,
        { memory with
          next := memory.next + 1
          live := ⟨kind, memory.next⟩ ::ₘ memory.live }) := rfl

omit [DecidableEq Kind] in
theorem Valid.grow (valid : memory.Valid) (kind : Kind) :
    ({ memory with
        next := memory.next + 1
        live := ⟨kind, memory.next⟩ ::ₘ memory.live } :
      Memory Kind).Valid := by
  constructor
  · intro block member
    rw [Multiset.cons_add, Multiset.mem_cons] at member
    obtain rfl | old := member
    · exact Nat.lt_succ_self _
    · exact Nat.lt_succ_of_lt (valid.bounded block old)
  · rw [Multiset.cons_add, Multiset.map_cons, Multiset.nodup_cons]
    refine ⟨?_, valid.distinct⟩
    intro member
    obtain ⟨block, old, same⟩ := Multiset.mem_map.mp member
    have below := valid.bounded block old
    simp only at same
    omega

theorem free_ok {block : Block Kind} {rest : Multiset (Block Kind)}
    (owned : memory.live = block ::ₘ rest) :
    memory.free block =
      .ok { memory with
        live := rest
        freed := block ::ₘ memory.freed } := by
  rw [free, if_pos (by rw [owned]; exact Multiset.mem_cons_self ..), owned,
    Multiset.erase_cons_head]

/-- Giving back blocks that are in use leaves the others in use. -/
theorem freeAll_ok {blocks : List (Block Kind)}
    {rest : Multiset (Block Kind)}
    (owned : memory.live = blocks + rest) :
    memory.freeAll blocks =
      .ok { memory with
        live := rest
        freed := blocks + memory.freed } := by
  induction blocks generalizing memory with
  | nil =>
      have same : memory.live = rest := by simpa using owned
      simp [freeAll, ← same]
  | cons block blocks induction =>
      rw [← Multiset.cons_coe, Multiset.cons_add] at owned
      rw [freeAll, free_ok owned]
      simp only
      rw [induction rfl, ← Multiset.cons_coe, Multiset.cons_add,
        Multiset.add_cons]

theorem readArray_ok {Value : Type} {kind : Kind} {id index : Nat}
    {values : List Value} {value : Value}
    (live : (⟨kind, id⟩ : Block Kind) ∈ memory.live)
    (there : values[index]? = some value) :
    memory.readArray kind (some (id, values)) index = .ok value := by
  simp only [readArray, there, if_pos live]

theorem readArray_dead {Value : Type} {kind : Kind}
    {array : Option (Nat × List Value)}
    (dead : ∀ block ∈ array, (⟨kind, block.1⟩ : Block Kind) ∉ memory.live)
    (index : Nat) :
    ∃ fault, memory.readArray kind array index = .error fault := by
  cases array with
  | none => exact ⟨.nullDereference, rfl⟩
  | some block =>
      refine ⟨.badRead, ?_⟩
      simp only [readArray, if_neg (dead block rfl)]
      split <;> rfl

omit [DecidableEq Kind] in
theorem Valid.release (valid : memory.Valid)
    {blocks rest : Multiset (Block Kind)}
    (owned : memory.live = blocks + rest) :
    ({ memory with
        live := rest
        freed := blocks + memory.freed } : Memory Kind).Valid := by
  have same : rest + (blocks + memory.freed) = memory.live + memory.freed := by
    rw [owned, ← add_assoc, add_comm rest blocks]
  constructor
  · rw [same]
    exact valid.bounded
  · rw [same]
    exact valid.distinct

omit [DecidableEq Kind] in
theorem Valid.nodup_live (valid : memory.Valid) :
    (memory.live.map Block.id).Nodup := by
  have distinct := valid.distinct
  rw [Multiset.map_add] at distinct
  exact (Multiset.nodup_add.mp distinct).1

omit [DecidableEq Kind] in
/-- A block that has been given back is no longer in use. -/
theorem Valid.not_live_of_freed (valid : memory.Valid) {block : Block Kind}
    (freed : block ∈ memory.freed) : block ∉ memory.live := by
  intro live
  have distinct := valid.distinct
  rw [Multiset.map_add] at distinct
  exact Multiset.disjoint_left.mp (Multiset.nodup_add.mp distinct).2.2
    (Multiset.mem_map_of_mem _ live) (Multiset.mem_map_of_mem _ freed)

/-- A block that is no longer in use has been given back exactly once. -/
theorem Valid.count_freed (valid : memory.Valid) {block : Block Kind}
    (known : block ∈ memory.live + memory.freed)
    (dead : block ∉ memory.live) : memory.freed.count block = 1 := by
  have distinct := Multiset.Nodup.of_map _ valid.distinct
  have freed : block ∈ memory.freed :=
    (Multiset.mem_add.mp known).resolve_left dead
  exact Multiset.count_eq_one_of_mem (Multiset.nodup_add.mp distinct).2.1 freed

end Memory

end Heap
