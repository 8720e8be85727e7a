import Mathlib.Algebra.BigOperators.Ring.Finset
import Mathlib.Data.Fintype.BigOperators
import MemoryTraceTool.EntryTable
import MemoryTraceTool.Lib.Accounts
import MemoryTraceTool.Lib.Chain
import MemoryTraceTool.Lib.Transition

/-!
# The entry pool

Entries live in the slots of one array.  The `next` field of a slot links it
into one of 64 free lists or one of 4096 bucket chains; `mtt_entry_new`,
`mtt_entry_add`, `mtt_entry_remove` and `mtt_entry_discard` move slots between
them under the pool lock or the stripe lock of one list at a time.
-/

namespace MemoryTraceTool

open Transition

/-- Where the pool is and how its addresses are hashed. -/
structure PoolLayout where
  base : Word
  entrySize : Nat
  capacity : Word
  hashSeed : Word

namespace PoolLayout

/-- An index into the pool array. -/
abbrev Slot (layout : PoolLayout) : Type :=
  Fin layout.capacity.toNat

variable (layout : PoolLayout)

def address (slot : layout.Slot) : Word :=
  layout.base + BitVec.ofNat 64 (slot.val * layout.entrySize)

def bucketOf (ptr : Word) : Nat :=
  mttBucketOf ptr mttBuckets layout.hashSeed

def stripeOf (ptr : Word) : Nat :=
  mttStripeOf ptr mttBuckets layout.hashSeed

end PoolLayout

/-- The lists that share the `next` field. -/
inductive PoolList where
  | free (stripe : Nat)
  | bucket (index : Nat)
  deriving DecidableEq, Repr

/-- Steps inside the entry functions, one for each critical section and for
the accesses between them. -/
inductive PoolPc (Slot : Type) where
  | idle
  | take (ptr : Word) (size : Nat)
  | steal (ptr : Word) (size : Nat) (k : Nat)
  | fill (slot : Slot) (ptr : Word) (size : Nat)
  | zero (slot : Slot)
  | giveBack (slot : Slot)
  | uncount
  deriving DecidableEq, Repr

/-- A thread with the entries it has taken but neither added nor discarded. -/
structure PoolThread (Slot : Type) where
  pc : PoolPc Slot
  ready : List Slot
  deriving DecidableEq, Repr

structure PoolState (layout : PoolLayout) (Thread : Type) where
  memory : Chain.Memory PoolList layout.Slot
  entry : layout.Slot → MttEntry
  poolUsed : Word
  entryCount : Word
  threads : Thread → PoolThread layout.Slot

/-- The calls of the entry functions, and steps inside them.  `free` tells
whether a `trylock` succeeds. -/
inductive PoolLabel (layout : PoolLayout) (Thread : Type) where
  | entryNew (thread : Thread) (ptr : Word) (size : Nat)
  | entryAdd (thread : Thread) (slot : layout.Slot) (allocNum : Nat)
  | entryDiscard (thread : Thread) (slot : layout.Slot)
  | entryRemove (thread : Thread) (ptr : Word)
  | step (thread : Thread) (free : Bool)

variable {layout : PoolLayout} {Thread : Type} [DecidableEq Thread]

def PoolState.setThread (state : PoolState layout Thread) (thread : Thread)
    (moved : PoolThread layout.Slot) : PoolState layout Thread :=
  { state with threads := Function.update state.threads thread moved }

def PoolState.setEntry (state : PoolState layout Thread) (slot : layout.Slot)
    (entry : MttEntry) : PoolState layout Thread :=
  { state with entry := Function.update state.entry slot entry }

/-- Take the first slot of a free list, under the lock of its stripe. -/
def takeFree (memory : Chain.Memory PoolList layout.Slot) (stripe : Nat) :
    Option (layout.Slot × Chain.Memory PoolList layout.Slot) :=
  memory.pop (.free stripe)

/-- A slot was taken, or the search goes on. -/
def PoolState.taken (state : PoolState layout Thread) (thread : Thread)
    (ptr : Word) (size : Nat) (next : PoolPc layout.Slot) :
    Option (layout.Slot × Chain.Memory PoolList layout.Slot) →
    PoolState layout Thread
  | some (slot, memory) =>
      { state.setThread thread
          { state.threads thread with pc := .fill slot ptr size } with
        memory := memory
        poolUsed := state.poolUsed + 1 }
  | none =>
      state.setThread thread { state.threads thread with pc := next }

def poolStep (state : PoolState layout Thread) (thread : Thread)
    (free : Bool) : Option (PoolState layout Thread) :=
  let current := state.threads thread
  match current.pc with
  | .idle => none
  | .take ptr size =>
      some (state.taken thread ptr size (.steal ptr size 1)
        (takeFree state.memory (layout.stripeOf ptr)))
  | .steal ptr size k =>
      if k < mttLockStripes then
        let tryIdx := (layout.stripeOf ptr + k) &&& (mttLockStripes - 1)
        some (state.taken thread ptr size (.steal ptr size (k + 1))
          (if free then takeFree state.memory tryIdx else none))
      else
        some (state.setThread thread { current with pc := .idle })
  | .fill slot ptr size =>
      let filled := state.setEntry slot ⟨ptr, size, 0⟩
      some { filled.setThread thread ⟨.idle, slot :: current.ready⟩ with
        memory := state.memory.setNext slot none }
  | .zero slot =>
      let zeroed := state.setEntry slot ⟨0, 0, 0⟩
      some { zeroed.setThread thread { current with pc := .giveBack slot } with
        memory := state.memory.setNext slot none }
  | .giveBack slot =>
      some { state.setThread thread { current with pc := .uncount } with
        memory := state.memory.push
          (.free (layout.stripeOf (layout.address slot))) slot }
  | .uncount =>
      some { state.setThread thread { current with pc := .idle } with
        poolUsed := state.poolUsed - 1 }

/-- Insert an entry at the head of its bucket, under the stripe lock. -/
def mttEntryAddSlot (state : PoolState layout Thread) (thread : Thread)
    (slot : layout.Slot) (allocNum : Nat) : PoolState layout Thread :=
  let entry := { state.entry slot with allocNum := allocNum }
  let numbered := state.setEntry slot entry
  { numbered.setThread thread
      ⟨.idle, (state.threads thread).ready.erase slot⟩ with
    memory := state.memory.push (.bucket (layout.bucketOf entry.ptr)) slot
    entryCount := state.entryCount + 1 }

/-- Unlink the entry of an address, under the stripe lock; a chain is at most
as long as the pool. -/
def mttEntryRemoveSlot (state : PoolState layout Thread) (thread : Thread)
    (ptr : Word) : PoolState layout Thread :=
  if ptr = 0 then state
  else
    match state.memory.unlink (layout.capacity.toNat + 1)
      (.bucket (layout.bucketOf ptr))
      fun slot => (state.entry slot).ptr = ptr with
    | none => state
    | some (dead, memory) =>
        { state.setThread thread
            { state.threads thread with pc := .zero dead } with
          memory := memory
          entryCount := state.entryCount - 1 }

def poolNext (state : PoolState layout Thread) :
    PoolLabel layout Thread → Option (PoolState layout Thread)
  | .entryNew thread ptr size =>
      let current := state.threads thread
      if current.pc = .idle then
        some (state.setThread thread { current with pc := .take ptr size })
      else none
  | .entryAdd thread slot allocNum =>
      let current := state.threads thread
      if current.pc = .idle ∧ slot ∈ current.ready then
        some (mttEntryAddSlot state thread slot allocNum)
      else none
  | .entryDiscard thread slot =>
      let current := state.threads thread
      if current.pc = .idle ∧ slot ∈ current.ready then
        some (state.setThread thread ⟨.zero slot, current.ready.erase slot⟩)
      else none
  | .entryRemove thread ptr =>
      if (state.threads thread).pc = .idle then
        some (mttEntryRemoveSlot state thread ptr)
      else none
  | .step thread free => poolStep state thread free

/-- The loop that spreads the slots over the free lists. -/
def initFreeLists (memory : Chain.Memory PoolList layout.Slot) :
    Chain.Memory PoolList layout.Slot :=
  (List.finRange layout.capacity.toNat).foldl
    (fun memory slot => memory.push (.free (slot.val % mttLockStripes)) slot)
    memory

/-- Any number of threads on a new pool; the contents of its slots are those
that libc returned. -/
def poolSystem (layout : PoolLayout) (Thread : Type) [DecidableEq Thread] :
    System (PoolState layout Thread) (PoolLabel layout Thread) where
  init := fun state =>
    (∃ next, state.memory = initFreeLists ⟨fun _ => none, next⟩) ∧
      state.poolUsed = 0 ∧ state.entryCount = 0 ∧
      ∀ thread, state.threads thread = ⟨.idle, []⟩
  next := poolNext

/-! ## The place of every slot -/

/-- A slot is in a list or belongs to a thread. -/
inductive PoolPlace (Thread : Type) where
  | inList (list : PoolList)
  | heldBy (thread : Thread)
  deriving DecidableEq, Repr

def PoolPlace.list : PoolPlace Thread → Option PoolList
  | .inList list => some list
  | .heldBy _ => none

/-- Free lists are named by stripes and chains by buckets. -/
def PoolList.Valid : PoolList → Prop
  | .free stripe => stripe < mttLockStripes
  | .bucket index => index < mttBuckets

def PoolPlace.Valid : PoolPlace Thread → Prop
  | .inList list => list.Valid
  | .heldBy _ => True

/-- The slot a step inside a function works on. -/
def PoolPc.slots {Slot : Type} : PoolPc Slot → List Slot
  | .fill slot _ _ | .zero slot | .giveBack slot => [slot]
  | .idle | .take _ _ | .steal _ _ _ | .uncount => []

def PoolThread.held {Slot : Type} (thread : PoolThread Slot) : List Slot :=
  thread.pc.slots ++ thread.ready

/-- Slots given back but still counted in `pool_used`. -/
def PoolThread.uncounted {Slot : Type} (thread : PoolThread Slot) : Int :=
  match thread.pc with
  | .uncount => 1
  | _ => 0

def PoolPlace.linkedAmount : PoolPlace Thread → Int
  | .inList (.bucket _) => 1
  | _ => 0

def PoolPlace.usedAmount : PoolPlace Thread → Int
  | .inList (.free _) => 0
  | _ => 1

variable [Fintype Thread]

/-- The lists in memory, the place of every slot, and the two counters. -/
structure PoolShape (state : PoolState layout Thread)
    (lists : PoolList → List layout.Slot)
    (place : layout.Slot → PoolPlace Thread) : Prop where
  represents : Chain.Represents state.memory lists fun slot =>
    (place slot).list
  valid : ∀ slot, (place slot).Valid
  held : ∀ slot thread, slot ∈ (state.threads thread).held ↔
    place slot = .heldBy thread
  heldOnce : ∀ thread, (state.threads thread).held.Nodup
  entries : state.entryCount =
    ((∑ slot, (place slot).linkedAmount : Int) : Word)
  used : state.poolUsed = ((∑ slot, (place slot).usedAmount +
    ∑ thread, (state.threads thread).uncounted : Int) : Word)

def PoolInvariant (state : PoolState layout Thread) : Prop :=
  ∃ lists place, PoolShape state lists place

namespace PoolShape

variable {state later : PoolState layout Thread}
  {lists laterLists : PoolList → List layout.Slot}
  {place : layout.Slot → PoolPlace Thread} {moved : PoolThread layout.Slot}

theorem sum_uncounted (state : PoolState layout Thread) (thread : Thread)
    (moved : PoolThread layout.Slot) :
    ∑ other, (Function.update state.threads thread moved other).uncounted =
      ∑ other, (state.threads other).uncounted +
        (moved.uncounted - (state.threads thread).uncounted) :=
  Accounts.sum_update Finset.univ PoolThread.uncounted state.threads
    (Finset.mem_univ thread) moved

theorem keep (shape : PoolShape state lists place) (thread : Thread)
    (threads : later.threads = Function.update state.threads thread moved)
    (memory : Chain.Represents later.memory lists fun slot =>
      (place slot).list)
    (held : moved.held.Perm (state.threads thread).held)
    (entries : later.entryCount = state.entryCount)
    (used : later.poolUsed = state.poolUsed +
      ((moved.uncounted - (state.threads thread).uncounted : Int) : Word)) :
    PoolShape later lists place := by
  constructor
  · exact memory
  · exact shape.valid
  · intro other member
    rw [threads]
    by_cases here : member = thread
    · subst here
      rw [Function.update_self, held.mem_iff]
      exact shape.held other member
    · rw [Function.update_of_ne here]
      exact shape.held other member
  · intro member
    rw [threads]
    by_cases here : member = thread
    · subst here
      rw [Function.update_self, held.nodup_iff]
      exact shape.heldOnce member
    · rw [Function.update_of_ne here]
      exact shape.heldOnce member
  · rw [entries]
    exact shape.entries
  · rw [threads, sum_uncounted, used, shape.used]
    push_cast
    abel

/-- A step of a thread that moves one slot out of a list or into a list. -/
theorem move (shape : PoolShape state lists place) (thread : Thread)
    (slot : layout.Slot) {target : PoolPlace Thread}
    (threads : later.threads = Function.update state.threads thread moved)
    (memory : Chain.Represents later.memory laterLists fun other =>
      (Function.update place slot target other).list)
    (valid : target.Valid)
    (held : ∀ other, other ∈ moved.held ↔
      Function.update place slot target other = .heldBy thread)
    (heldOnce : moved.held.Nodup)
    (elsewhere : ∀ other, other ≠ thread →
      place slot ≠ .heldBy other ∧ target ≠ .heldBy other)
    (entries : later.entryCount = state.entryCount +
      ((target.linkedAmount - (place slot).linkedAmount : Int) : Word))
    (used : later.poolUsed = state.poolUsed +
      ((target.usedAmount - (place slot).usedAmount +
        (moved.uncounted - (state.threads thread).uncounted) : Int) : Word)) :
    PoolShape later laterLists (Function.update place slot target) := by
  constructor
  · exact memory
  · intro other
    by_cases here : other = slot
    · subst here
      rw [Function.update_self]
      exact valid
    · rw [Function.update_of_ne here]
      exact shape.valid other
  · intro other member
    rw [threads]
    by_cases here : member = thread
    · subst here
      rw [Function.update_self]
      exact held other
    · rw [Function.update_of_ne here, shape.held other member]
      by_cases same : other = slot
      · subst same
        rw [Function.update_self]
        exact iff_of_false (elsewhere member here).1 (elsewhere member here).2
      · rw [Function.update_of_ne same]
  · intro member
    rw [threads]
    by_cases here : member = thread
    · subst here
      rw [Function.update_self]
      exact heldOnce
    · rw [Function.update_of_ne here]
      exact shape.heldOnce member
  · rw [Accounts.sum_update Finset.univ PoolPlace.linkedAmount place
      (Finset.mem_univ slot), entries, shape.entries]
    push_cast
    abel
  · rw [Accounts.sum_update Finset.univ PoolPlace.usedAmount place
      (Finset.mem_univ slot), threads, sum_uncounted, used, shape.used]
    push_cast
    abel

omit [DecidableEq Thread] [Fintype Thread] in
theorem list_update (place : layout.Slot → PoolPlace Thread)
    (slot : layout.Slot) (target : PoolPlace Thread) :
    (fun other => (Function.update place slot target other).list) =
      Function.update (fun other => (place other).list) slot target.list := by
  funext other
  by_cases here : other = slot
  · subst here
    simp
  · simp [here]

/-- A thread takes a slot out of a list. -/
theorem gain (shape : PoolShape state lists place) (thread : Thread)
    {slot : layout.Slot} {list : PoolList}
    (placed : place slot = .inList list)
    (threads : later.threads = Function.update state.threads thread moved)
    (memory : Chain.Represents later.memory laterLists
      (Function.update (fun other => (place other).list) slot none))
    (held : moved.held.Perm (slot :: (state.threads thread).held))
    (entries : later.entryCount = state.entryCount +
      ((0 - (place slot).linkedAmount : Int) : Word))
    (used : later.poolUsed = state.poolUsed +
      ((1 - (place slot).usedAmount +
        (moved.uncounted - (state.threads thread).uncounted) : Int) : Word)) :
    PoolShape later laterLists
      (Function.update place slot (.heldBy thread)) := by
  refine shape.move thread slot threads ?_ trivial ?_ ?_ ?_ entries used
  · rw [list_update]
    exact memory
  · intro other
    rw [held.mem_iff, List.mem_cons, shape.held other thread]
    by_cases here : other = slot
    · subst here
      simp
    · simp [here]
  · rw [held.nodup_iff, List.nodup_cons, shape.held slot thread, placed]
    exact ⟨by simp, shape.heldOnce thread⟩
  · intro other different
    rw [placed]
    refine ⟨by simp, fun same => different ?_⟩
    rw [PoolPlace.heldBy.injEq] at same
    exact same.symm

/-- A thread links a slot it holds into a list. -/
theorem lose (shape : PoolShape state lists place) (thread : Thread)
    {slot : layout.Slot} {list : PoolList} (valid : list.Valid)
    (placed : place slot = .heldBy thread)
    (threads : later.threads = Function.update state.threads thread moved)
    (memory : Chain.Represents later.memory laterLists
      (Function.update (fun other => (place other).list) slot (some list)))
    (held : (state.threads thread).held.Perm (slot :: moved.held))
    (entries : later.entryCount = state.entryCount +
      (((PoolPlace.inList list : PoolPlace Thread).linkedAmount - 0 : Int) :
        Word))
    (used : later.poolUsed = state.poolUsed +
      (((PoolPlace.inList list : PoolPlace Thread).usedAmount - 1 +
        (moved.uncounted - (state.threads thread).uncounted) : Int) : Word)) :
    PoolShape later laterLists
      (Function.update place slot (.inList list)) := by
  have once := shape.heldOnce thread
  rw [held.nodup_iff, List.nodup_cons] at once
  refine shape.move thread slot threads ?_ valid ?_ once.2 ?_ ?_ ?_
  · rw [list_update]
    exact memory
  · intro other
    by_cases here : other = slot
    · subst here
      rw [Function.update_self]
      exact iff_of_false once.1 (by simp)
    · rw [Function.update_of_ne here, ← shape.held other thread,
        held.mem_iff, List.mem_cons]
      simp [here]
  · intro other different
    rw [placed]
    refine ⟨fun same => different ?_, by simp⟩
    rw [PoolPlace.heldBy.injEq] at same
    exact same.symm
  · rw [entries, placed]
    rfl
  · rw [used, placed]
    rfl

end PoolShape

/-! ## Every step keeps the places -/

section Steps

variable {state later : PoolState layout Thread} {thread : Thread}

omit [DecidableEq Thread] [Fintype Thread] in
theorem PoolPlace.eq_inList {place : PoolPlace Thread} {list : PoolList}
    (listed : place.list = some list) : place = .inList list := by
  cases place with
  | inList other =>
      rw [PoolPlace.list, Option.some.injEq] at listed
      rw [listed]
  | heldBy => cases listed

theorem PoolLayout.free_valid (layout : PoolLayout) (ptr : Word) :
    (PoolList.free (layout.stripeOf ptr)).Valid :=
  mttStripeOf_lt ptr layout.hashSeed

theorem PoolLayout.bucket_valid (layout : PoolLayout) (ptr : Word) :
    (PoolList.bucket (layout.bucketOf ptr)).Valid :=
  mttBucketOf_lt ptr layout.hashSeed

/-- A thread moves on between two accesses to the shared state. -/
theorem PoolInvariant.advance (invariant : PoolInvariant state)
    (thread : Thread) {moved : PoolThread layout.Slot}
    (held : moved.held.Perm (state.threads thread).held)
    (uncounted : moved.uncounted = (state.threads thread).uncounted) :
    PoolInvariant (state.setThread thread moved) := by
  obtain ⟨lists, place, shape⟩ := invariant
  refine ⟨lists, place, shape.keep thread rfl shape.represents held rfl ?_⟩
  rw [uncounted, sub_self]
  exact (add_zero _).symm

theorem PoolInvariant.overwrite (invariant : PoolInvariant state)
    {moved : PoolThread layout.Slot} {slot : layout.Slot} {entry : MttEntry}
    (holding : slot ∈ (state.threads thread).held)
    (held : moved.held.Perm (state.threads thread).held)
    (uncounted : moved.uncounted = (state.threads thread).uncounted) :
    PoolInvariant { (state.setEntry slot entry).setThread thread moved with
      memory := state.memory.setNext slot none } := by
  obtain ⟨lists, place, shape⟩ := invariant
  have placed := (shape.held slot thread).mp holding
  refine ⟨lists, place, shape.keep thread rfl ?_ held rfl ?_⟩
  · exact shape.represents.setNext (by rw [placed]; rfl) none
  · rw [uncounted, sub_self]
    exact (add_zero _).symm

/-- The critical section of `mtt_entry_new` on one stripe. -/
theorem PoolInvariant.take (invariant : PoolInvariant state)
    {next : PoolPc layout.Slot} {ptr : Word} {size : Nat}
    {outcome : Option (layout.Slot × Chain.Memory PoolList layout.Slot)}
    (taken : outcome = none ∨ ∃ stripe, outcome = takeFree state.memory stripe)
    (empty : (state.threads thread).pc.slots = [])
    (counted : (state.threads thread).uncounted = 0)
    (nextEmpty : next.slots = [])
    (nextCounted : next ≠ .uncount) :
    PoolInvariant (state.taken thread ptr size next outcome) := by
  cases outcome with
  | none =>
      refine invariant.advance thread ?_ ?_
      · simp [PoolThread.held, empty, nextEmpty]
      · rw [counted]
        cases next with
        | uncount => exact (nextCounted rfl).elim
        | _ => rfl
  | some pair =>
      obtain ⟨slot, memory⟩ := pair
      rcases taken with missing | ⟨stripe, popped⟩
      · cases missing
      · obtain ⟨lists, place, shape⟩ := invariant
        obtain ⟨rest, _, listed, represents⟩ :=
          shape.represents.pop popped.symm
        have placed := PoolPlace.eq_inList listed
        refine ⟨_, _, shape.gain thread placed rfl represents
          ?_ ?_ ?_⟩
        · rw [PoolThread.held, PoolThread.held, empty]
          exact List.Perm.refl _
        · rw [placed]
          exact (add_zero _).symm
        · rw [placed, counted]
          rfl

theorem poolStep_invariant {free : Bool} (invariant : PoolInvariant state)
    (taken : poolStep state thread free = some later) :
    PoolInvariant later := by
  unfold poolStep at taken
  cases pc : (state.threads thread).pc with
  | idle => simp [pc] at taken
  | take ptr size =>
      simp only [pc, Option.some.injEq] at taken
      subst taken
      exact invariant.take (Or.inr ⟨_, rfl⟩) (by rw [pc]; rfl)
        (by simp [PoolThread.uncounted, pc]) rfl (by simp)
  | steal ptr size k =>
      have empty : (state.threads thread).pc.slots = [] := by
        rw [pc]
        rfl
      have counted : (state.threads thread).uncounted = 0 := by
        simp [PoolThread.uncounted, pc]
      simp only [pc] at taken
      split at taken
      · rw [Option.some.injEq] at taken
        subst taken
        refine invariant.take ?_ empty counted rfl (by simp)
        cases free with
        | true => exact Or.inr ⟨_, rfl⟩
        | false => exact Or.inl rfl
      · rw [Option.some.injEq] at taken
        subst taken
        refine invariant.advance thread ?_ ?_
        · simp [PoolThread.held, PoolPc.slots, pc]
        · rw [counted]
          rfl
  | fill slot ptr size =>
      simp only [pc, Option.some.injEq] at taken
      subst taken
      refine invariant.overwrite ?_ ?_ ?_
      · simp [PoolThread.held, PoolPc.slots, pc]
      · simp [PoolThread.held, PoolPc.slots, pc]
      · simp [PoolThread.uncounted, pc]
  | zero slot =>
      simp only [pc, Option.some.injEq] at taken
      subst taken
      refine invariant.overwrite ?_ ?_ ?_
      · simp [PoolThread.held, PoolPc.slots, pc]
      · simp [PoolThread.held, PoolPc.slots, pc]
      · simp [PoolThread.uncounted, pc]
  | giveBack slot =>
      simp only [pc, Option.some.injEq] at taken
      subst taken
      obtain ⟨lists, place, shape⟩ := invariant
      have placed : place slot = .heldBy thread := by
        rw [← shape.held]
        simp [PoolThread.held, PoolPc.slots, pc]
      have pushed := shape.represents.push (by rw [placed]; rfl)
        (.free (layout.stripeOf (layout.address slot)))
      refine ⟨_, _, shape.lose thread
        (layout.free_valid (layout.address slot)) placed rfl pushed ?_ ?_ ?_⟩
      · simp [PoolThread.held, PoolPc.slots, pc]
      · exact (add_zero _).symm
      · simp [PoolThread.uncounted, PoolPlace.usedAmount, pc,
          PoolState.setThread]
  | uncount =>
      simp only [pc, Option.some.injEq] at taken
      subst taken
      obtain ⟨lists, place, shape⟩ := invariant
      refine ⟨lists, place, shape.keep thread rfl shape.represents
        ?_ rfl ?_⟩
      · simp [PoolThread.held, PoolPc.slots, pc]
      · simp only [PoolThread.uncounted, pc]
        rw [sub_eq_add_neg]
        rfl

theorem mttEntryAddSlot_invariant {slot : layout.Slot} {allocNum : Nat}
    (invariant : PoolInvariant state)
    (idle : (state.threads thread).pc = .idle)
    (ready : slot ∈ (state.threads thread).ready) :
    PoolInvariant (mttEntryAddSlot state thread slot allocNum) := by
  obtain ⟨lists, place, shape⟩ := invariant
  have placed : place slot = .heldBy thread := by
    rw [← shape.held]
    exact List.mem_append_right _ ready
  have pushed := shape.represents.push (by rw [placed]; rfl)
    (.bucket (layout.bucketOf (state.entry slot).ptr))
  refine ⟨_, _, shape.lose thread
    (layout.bucket_valid (state.entry slot).ptr) placed rfl pushed ?_ rfl ?_⟩
  · simpa [PoolThread.held, PoolPc.slots, idle] using
      List.perm_cons_erase ready
  · have counted : (state.threads thread).uncounted = 0 := by
      simp [PoolThread.uncounted, idle]
    rw [counted]
    exact (add_zero _).symm

omit [DecidableEq Thread] in
theorem PoolShape.length_lt {lists : PoolList → List layout.Slot}
    {place : layout.Slot → PoolPlace Thread}
    (shape : PoolShape state lists place) (list : PoolList) :
    (lists list).length < layout.capacity.toNat + 1 := by
  have bound := (shape.represents.distinct list).length_le_card
  rw [Fintype.card_fin] at bound
  omega

theorem mttEntryRemoveSlot_invariant {ptr : Word}
    (invariant : PoolInvariant state)
    (idle : (state.threads thread).pc = .idle) :
    PoolInvariant (mttEntryRemoveSlot state thread ptr) := by
  unfold mttEntryRemoveSlot
  split
  · exact invariant
  · obtain ⟨lists, place, shape⟩ := invariant
    rcases shape.represents.unlink (fun slot => (state.entry slot).ptr = ptr)
      (shape.length_lt (.bucket (layout.bucketOf ptr))) with
      ⟨_, missing⟩ | ⟨dead, memory, _, unlinked, listed, represents⟩
    · rw [missing]
      exact ⟨lists, place, shape⟩
    · rw [unlinked]
      have placed := PoolPlace.eq_inList listed
      refine ⟨_, _, shape.gain thread placed rfl represents
        ?_ ?_ ?_⟩
      · simp [PoolThread.held, PoolPc.slots, idle]
      · rw [placed]
        exact sub_eq_add_neg _ _
      · have counted : (state.threads thread).uncounted = 0 := by
          simp [PoolThread.uncounted, idle]
        rw [placed, counted]
        exact (add_zero _).symm

theorem poolNext_invariant {label : PoolLabel layout Thread}
    (invariant : PoolInvariant state)
    (taken : poolNext state label = some later) : PoolInvariant later := by
  cases label with
  | entryNew thread ptr size =>
      simp only [poolNext] at taken
      split at taken
      · rename_i idle
        rw [Option.some.injEq] at taken
        subst taken
        refine invariant.advance thread ?_ ?_
        · simp [PoolThread.held, PoolPc.slots, idle]
        · simp [PoolThread.uncounted, idle]
      · cases taken
  | entryAdd thread slot allocNum =>
      simp only [poolNext] at taken
      split at taken
      · rename_i enabled
        rw [Option.some.injEq] at taken
        subst taken
        exact mttEntryAddSlot_invariant invariant enabled.1 enabled.2
      · cases taken
  | entryDiscard thread slot =>
      simp only [poolNext] at taken
      split at taken
      · rename_i enabled
        rw [Option.some.injEq] at taken
        subst taken
        refine invariant.advance thread ?_ ?_
        · simpa [PoolThread.held, PoolPc.slots, enabled.1] using
            (List.perm_cons_erase enabled.2).symm
        · simp [PoolThread.uncounted, enabled.1]
      · cases taken
  | entryRemove thread ptr =>
      simp only [poolNext] at taken
      split at taken
      · rename_i idle
        rw [Option.some.injEq] at taken
        subst taken
        exact mttEntryRemoveSlot_invariant invariant idle
      · cases taken
  | step thread free => exact poolStep_invariant invariant taken

end Steps

/-! ## The pool in every reachable state -/

section Runs

variable {state : PoolState layout Thread}

theorem initFreeLists_represents (Thread : Type)
    (next : layout.Slot → Option layout.Slot) :
    ∃ lists, Chain.Represents (initFreeLists ⟨fun _ => none, next⟩) lists
      fun slot => (PoolPlace.inList (.free (slot.val % mttLockStripes)) :
        PoolPlace Thread).list := by
  obtain ⟨lists, represents⟩ := (Chain.Represents.empty next).pushAll
    (fun slot : layout.Slot => PoolList.free (slot.val % mttLockStripes))
    (List.nodup_finRange layout.capacity.toNat) (fun _ _ => rfl)
  refine ⟨lists, ?_⟩
  simpa [initFreeLists, PoolPlace.list] using represents

theorem poolInvariant_init
    (initial : (poolSystem layout Thread).init state) :
    PoolInvariant state := by
  obtain ⟨⟨next, memory⟩, unused, unlinked, idle⟩ := initial
  obtain ⟨lists, represents⟩ := initFreeLists_represents Thread next
  refine ⟨lists, fun slot => .inList (.free (slot.val % mttLockStripes)), ?_⟩
  constructor
  · rw [memory]
    exact represents
  · exact fun slot => Nat.mod_lt _ (by decide)
  · intro slot thread
    simp [idle, PoolThread.held, PoolPc.slots]
  · intro thread
    simp [idle, PoolThread.held, PoolPc.slots]
  · rw [unlinked]
    simp [PoolPlace.linkedAmount]
  · rw [unused]
    simp [PoolPlace.usedAmount, idle, PoolThread.uncounted]

theorem poolInvariant_reachable
    (reachable : (poolSystem layout Thread).Reachable state) :
    PoolInvariant state :=
  reachable.invariant PoolInvariant (fun _ => poolInvariant_init)
    fun _ _ _ invariant _ taken => poolNext_invariant invariant taken

/-- Each list is finite and without repetition, and each slot is in one list
or held by one thread, and there once. -/
structure PoolPartition (state : PoolState layout Thread)
    (lists : PoolList → List layout.Slot)
    (place : layout.Slot → PoolPlace Thread) : Prop where
  linked : ∀ list,
    Chain.Linked state.memory.next (state.memory.head list) (lists list)
  distinct : ∀ list, (lists list).Nodup
  listed : ∀ slot list, slot ∈ lists list ↔ place slot = .inList list
  valid : ∀ slot, (place slot).Valid
  held : ∀ slot thread, slot ∈ (state.threads thread).held ↔
    place slot = .heldBy thread
  heldOnce : ∀ thread, (state.threads thread).held.Nodup

/-- No taken slot waits to be added or discarded, and no slot is on its way
back. -/
def PoolQuiet (state : PoolState layout Thread) : Prop :=
  ∀ thread, (state.threads thread).held = [] ∧
    (state.threads thread).pc ≠ .uncount

variable {lists : PoolList → List layout.Slot}
  {place : layout.Slot → PoolPlace Thread}

omit [DecidableEq Thread] in
theorem PoolShape.partition (shape : PoolShape state lists place) :
    PoolPartition state lists place := by
  refine ⟨shape.represents.linked, shape.represents.distinct, ?_,
    shape.valid, shape.held, shape.heldOnce⟩
  intro slot list
  rw [shape.represents.placed list slot]
  constructor
  · exact PoolPlace.eq_inList
  · intro placed
    rw [placed]
    rfl

omit [DecidableEq Thread] in
theorem PoolShape.exists_list (shape : PoolShape state lists place)
    (quiet : PoolQuiet state) (slot : layout.Slot) :
    ∃ list, place slot = .inList list := by
  cases placed : place slot with
  | inList list => exact ⟨list, rfl⟩
  | heldBy thread =>
      have member := (shape.held slot thread).mpr placed
      rw [(quiet thread).1] at member
      cases member

omit [DecidableEq Thread] in
theorem PoolShape.used_eq (shape : PoolShape state lists place)
    (quiet : PoolQuiet state) :
    state.poolUsed = ((∑ slot, (place slot).usedAmount : Int) : Word) := by
  have counted : ∑ thread, (state.threads thread).uncounted = 0 := by
    refine Finset.sum_eq_zero fun thread _ => ?_
    unfold PoolThread.uncounted
    split
    · rename_i uncounting
      exact ((quiet thread).2 uncounting).elim
    · rfl
  rw [shape.used, counted, add_zero]

omit [DecidableEq Thread] in
theorem PoolShape.used_eq_entries (shape : PoolShape state lists place)
    (quiet : PoolQuiet state) : state.poolUsed = state.entryCount := by
  rw [shape.used_eq quiet, shape.entries]
  congr 1
  refine Finset.sum_congr rfl fun slot _ => ?_
  obtain ⟨list, placed⟩ := shape.exists_list quiet slot
  rw [placed]
  cases list with
  | free => rfl
  | bucket => rfl

omit [DecidableEq Thread] in
theorem PoolShape.free_add_used (shape : PoolShape state lists place)
    (quiet : PoolQuiet state) :
    ((∑ stripe ∈ Finset.range mttLockStripes,
        (lists (.free stripe)).length : Nat) : Int) +
      ∑ slot, (place slot).usedAmount = layout.capacity.toNat := by
  have lengths := shape.represents.sum_length
    ((Finset.range mttLockStripes).image PoolList.free)
  rw [Finset.sum_image fun _ _ _ _ same => PoolList.free.inj same] at lengths
  rw [lengths, Nat.cast_sum, ← Finset.sum_add_distrib]
  calc
    _ = ∑ _slot : layout.Slot, (1 : Int) := by
        refine Finset.sum_congr rfl fun slot _ => ?_
        obtain ⟨list, placed⟩ := shape.exists_list quiet slot
        have valid := shape.valid slot
        rw [placed] at valid ⊢
        cases list with
        | free stripe =>
            rw [if_pos ⟨.free stripe, Finset.mem_image_of_mem _
              (Finset.mem_range.mpr valid), rfl⟩]
            rfl
        | bucket index =>
            rw [if_neg]
            · rfl
            · simp [PoolPlace.list]
    _ = layout.capacity.toNat := by simp

omit [DecidableEq Thread] [Fintype Thread] in
theorem PoolPlace.usedAmount_nonneg (place : PoolPlace Thread) :
    0 ≤ place.usedAmount := by
  unfold PoolPlace.usedAmount
  split <;> omega

omit [DecidableEq Thread] in
theorem PoolShape.free_length (shape : PoolShape state lists place)
    (quiet : PoolQuiet state) :
    (∑ stripe ∈ Finset.range mttLockStripes,
      (lists (.free stripe)).length) + state.poolUsed.toNat =
        layout.capacity.toNat := by
  have total := shape.free_add_used quiet
  have nonneg : 0 ≤ ∑ slot, (place slot).usedAmount :=
    Finset.sum_nonneg fun slot _ => (place slot).usedAmount_nonneg
  have small := layout.capacity.isLt
  rw [shape.used_eq quiet, Word.toNat_intCast nonneg (by omega)]
  omega

/-- Every slot is in exactly one free list, one bucket chain or one call;
between the calls the counters describe the lists. -/
theorem pool_slots_accounted
    (reachable : (poolSystem layout Thread).Reachable state) :
    ∃ lists place, PoolPartition state lists place ∧
      (PoolQuiet state →
        state.poolUsed = state.entryCount ∧
          (∑ stripe ∈ Finset.range mttLockStripes,
            (lists (.free stripe)).length) + state.poolUsed.toNat =
              layout.capacity.toNat) := by
  obtain ⟨lists, place, shape⟩ := poolInvariant_reachable reachable
  exact ⟨lists, place, shape.partition, fun quiet =>
    ⟨shape.used_eq_entries quiet, shape.free_length quiet⟩⟩

end Runs

/-- A pool of three slots. -/
def smallPool : PoolLayout :=
  { base := 4096
    entrySize := 128
    capacity := 3
    hashSeed := 7 }

def smallPoolStart : PoolState smallPool Worker :=
  { memory := initFreeLists ⟨fun _ => none, fun _ => none⟩
    entry := fun _ => ⟨0, 0, 0⟩
    poolUsed := 0
    entryCount := 0
    threads := fun _ => ⟨.idle, []⟩ }

/-- Two threads steal slots of other stripes; one adds its entry, the other
discards it. -/
def smallPoolSteps : List (PoolLabel smallPool Worker) :=
  [.entryNew .first 64 32, .entryNew .second 80 48] ++
    List.replicate 18 (.step .first true) ++
    List.replicate 45 (.step .second true) ++
    [.step .first true, .step .second true,
      .entryAdd .first ⟨0, by decide⟩ 1,
      .entryDiscard .second ⟨1, by decide⟩] ++
    List.replicate 3 (.step .second true)

theorem pool_slots_accounted_smallPool :
    ∃ state : PoolState smallPool Worker,
      state.entryCount = 1 ∧ PoolQuiet state ∧
        ∃ lists place, PoolPartition state lists place ∧
          (PoolQuiet state →
            state.poolUsed = state.entryCount ∧
              (∑ stripe ∈ Finset.range mttLockStripes,
                (lists (.free stripe)).length) + state.poolUsed.toNat =
                  smallPool.capacity.toNat) := by
  obtain ⟨state, reachable, tested⟩ :=
    (poolSystem smallPool Worker).exists_reachable_of_run
      (fun state => state.entryCount == 1 &&
        decide (∀ thread, state.threads thread = ⟨.idle, []⟩))
      smallPoolSteps
      ⟨⟨fun _ => none, rfl⟩, rfl, rfl, fun _ => rfl⟩
      (show ((poolSystem smallPool Worker).run smallPoolStart
        smallPoolSteps).any _ = true by decide +kernel)
  rw [Bool.and_eq_true, beq_iff_eq, decide_eq_true_eq] at tested
  refine ⟨state, tested.1, ?_, pool_slots_accounted reachable⟩
  intro thread
  rw [tested.2 thread]
  exact ⟨rfl, by simp⟩

end MemoryTraceTool
