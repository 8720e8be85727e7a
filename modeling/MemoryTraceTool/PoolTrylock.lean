import MemoryTraceTool.PoolMemory

/-!
# The search for a free slot

`mtt_entry_new` looks into the free list of its own stripe under that lock,
and then into the others as far as `pthread_mutex_trylock` gets their locks.
Here the pool locks are explicit: a thread takes one, works on the free list
and gives it back, each in a step of its own, and a `trylock` fails exactly
when another thread holds the lock.
-/

namespace MemoryTraceTool.PoolTrylock

open Transition

/-- Where a thread is with the one pool lock that it may hold. -/
inductive LockPhase where
  | outside
  | entered (stripe : Nat)
  | worked (stripe : Nat)
  deriving DecidableEq, Repr

/-- The pool with the owners of `pool_locks`. -/
structure LockedPool (layout : PoolLayout) (Thread : Type) where
  pool : PoolState layout Thread
  owner : Nat → Option Thread
  phase : Thread → LockPhase

/-- `work` is what a critical section does, `fail` a `trylock` that does not
get the lock, and `proceed` what a thread does outside the locks. -/
inductive LockedLabel (layout : PoolLayout) (Thread : Type) where
  | entryNew (thread : Thread) (ptr : Word) (size : Nat)
  | entryAdd (thread : Thread) (slot : layout.Slot) (allocNum : Nat)
  | entryDiscard (thread : Thread) (slot : layout.Slot)
  | entryRemove (thread : Thread) (ptr : Word)
  | lock (thread : Thread)
  | fail (thread : Thread)
  | work (thread : Thread)
  | unlock (thread : Thread)
  | proceed (thread : Thread)

variable {layout : PoolLayout} {Thread : Type} [DecidableEq Thread]

/-- The stripe that a thread looks into next. -/
def wantedStripe (layout : PoolLayout) : PoolPc layout.Slot → Option Nat
  | .take ptr _ => some (layout.stripeOf ptr)
  | .steal ptr _ k =>
      if k < mttLockStripes then
        some ((layout.stripeOf ptr + k) &&& (mttLockStripes - 1))
      else none
  | .giveBack slot => some (layout.stripeOf (layout.address slot))
  | .idle | .fill _ _ _ | .zero _ | .uncount => none

def isSteal {Slot : Type} : PoolPc Slot → Bool
  | .steal _ _ _ => true
  | _ => false

namespace LockedPool

variable (state : LockedPool layout Thread)

def pc (thread : Thread) : PoolPc layout.Slot :=
  (state.pool.threads thread).pc

def setPhase (thread : Thread) (phase : LockPhase) :
    LockedPool layout Thread :=
  { state with phase := Function.update state.phase thread phase }

def setOwner (stripe : Nat) (owner : Option Thread) :
    LockedPool layout Thread :=
  { state with owner := Function.update state.owner stripe owner }

/-- A step of the pool by a thread that is in the given phase then. -/
def advance (thread : Thread) (phase : LockPhase)
    (label : PoolLabel layout Thread) : Option (LockedPool layout Thread) :=
  (poolNext state.pool label).map fun pool =>
    { state.setPhase thread phase with pool }

/-- A call, or what a thread does while it holds no pool lock. -/
def outside (thread : Thread) (label : PoolLabel layout Thread) :
    Option (LockedPool layout Thread) :=
  if state.phase thread = .outside then state.advance thread .outside label
  else none

end LockedPool

def lockedNext (state : LockedPool layout Thread) :
    LockedLabel layout Thread → Option (LockedPool layout Thread)
  | .entryNew thread ptr size =>
      state.outside thread (.entryNew thread ptr size)
  | .entryAdd thread slot allocNum =>
      state.outside thread (.entryAdd thread slot allocNum)
  | .entryDiscard thread slot =>
      state.outside thread (.entryDiscard thread slot)
  | .entryRemove thread ptr => state.outside thread (.entryRemove thread ptr)
  | .lock thread =>
      match state.phase thread, wantedStripe layout (state.pc thread) with
      | .outside, some stripe =>
          if state.owner stripe = none then
            some ((state.setOwner stripe thread).setPhase thread
              (.entered stripe))
          else none
      | _, _ => none
  | .fail thread =>
      match wantedStripe layout (state.pc thread) with
      | some stripe =>
          if isSteal (state.pc thread) ∧ state.owner stripe ≠ none then
            state.outside thread (.step thread false)
          else none
      | none => none
  | .work thread =>
      match state.phase thread with
      | .entered stripe =>
          state.advance thread (.worked stripe) (.step thread true)
      | _ => none
  | .unlock thread =>
      match state.phase thread with
      | .worked stripe =>
          some ((state.setOwner stripe none).setPhase thread .outside)
      | _ => none
  | .proceed thread =>
      if wantedStripe layout (state.pc thread) = none then
        state.outside thread (.step thread true)
      else none

/-- Any number of threads on a new pool; no lock is taken. -/
def lockedPool (layout : PoolLayout) (Thread : Type) [DecidableEq Thread] :
    System (LockedPool layout Thread) (LockedLabel layout Thread) where
  init := fun state =>
    (poolSystem layout Thread).init state.pool ∧
      (∀ stripe, state.owner stripe = none) ∧
      ∀ thread, state.phase thread = .outside
  next := lockedNext

/-! ## One step of the pool -/

/-- The slot is linked into the free list of the stripe. -/
def OnFreeList (state : PoolState layout Thread) (slot : layout.Slot)
    (stripe : Nat) : Prop :=
  ∃ cells, Chain.Linked state.memory.next (state.memory.head (.free stripe))
    cells ∧ slot ∈ cells

omit [DecidableEq Thread] in
theorem OnFreeList.head_ne_none {state : PoolState layout Thread}
    {slot : layout.Slot} {stripe : Nat}
    (onList : OnFreeList state slot stripe) :
    state.memory.head (.free stripe) ≠ none := by
  intro empty
  obtain ⟨cells, linked, member⟩ := onList
  rw [empty] at linked
  cases cells with
  | nil => cases member
  | cons first rest => exact absurd linked.1.symm (Option.some_ne_none first)

omit [DecidableEq Thread] in
theorem onFreeList_iff {state : PoolState layout Thread}
    {lists : PoolList → List layout.Slot}
    {links : layout.Slot → Option PoolList}
    (represents : Chain.Represents state.memory lists links)
    {slot : layout.Slot} {stripe : Nat} :
    OnFreeList state slot stripe ↔ links slot = some (.free stripe) := by
  rw [← represents.placed]
  constructor
  · rintro ⟨cells, linked, member⟩
    rwa [linked.unique (represents.linked _)] at member
  · intro member
    exact ⟨_, represents.linked _, member⟩

/-- A memory whose lists differ from the given ones by at most one cell, which
is in a list only before or only after. -/
def Relinks (links : layout.Slot → Option PoolList)
    (memory : Chain.Memory PoolList layout.Slot) : Prop :=
  ∃ lists later, Chain.Represents memory lists later ∧
    ∀ slot, later slot = links slot ∨ links slot = none ∨ later slot = none

theorem Relinks.same {links : layout.Slot → Option PoolList}
    {memory : Chain.Memory PoolList layout.Slot}
    {lists : PoolList → List layout.Slot}
    (represents : Chain.Represents memory lists links) :
    Relinks links memory :=
  ⟨lists, links, represents, fun _ => .inl rfl⟩

theorem Relinks.update {links : layout.Slot → Option PoolList}
    {memory : Chain.Memory PoolList layout.Slot}
    {lists : PoolList → List layout.Slot} {moved : layout.Slot}
    {target : Option PoolList}
    (represents : Chain.Represents memory lists
      (Function.update links moved target))
    (free : links moved = none ∨ target = none) : Relinks links memory := by
  refine ⟨lists, _, represents, fun slot => ?_⟩
  by_cases here : slot = moved
  · subst here
    rw [Function.update_self]
    exact .inr free
  · rw [Function.update_of_ne here]
    exact .inl rfl

section

variable [Fintype Thread] {state later : PoolState layout Thread}
  {lists : PoolList → List layout.Slot}
  {place : layout.Slot → PoolPlace Thread}

omit [DecidableEq Thread] in
theorem unlinked_of_held (shape : PoolShape state lists place)
    {thread : Thread} {slot : layout.Slot}
    (holding : slot ∈ (state.threads thread).held) :
    (place slot).list = none := by
  rw [(shape.held slot thread).mp holding]
  rfl

omit [DecidableEq Thread] in
theorem unlinked_of_pc (shape : PoolShape state lists place)
    {thread : Thread} {point : PoolPc layout.Slot} {slot : layout.Slot}
    (pc : (state.threads thread).pc = point) (inHand : slot ∈ point.slots) :
    (place slot).list = none :=
  unlinked_of_held shape (List.mem_append_left _ (pc ▸ inHand))

theorem taken_relinks (shape : PoolShape state lists place)
    {thread : Thread} {ptr : Word} {size : Nat} {next : PoolPc layout.Slot}
    {outcome : Option (layout.Slot × Chain.Memory PoolList layout.Slot)}
    (taken : outcome = none ∨
      ∃ stripe, outcome = takeFree state.memory stripe) :
    Relinks (fun slot => (place slot).list)
      (state.taken thread ptr size next outcome).memory := by
  cases outcome with
  | none => exact .same shape.represents
  | some pair =>
      obtain ⟨slot, memory⟩ := pair
      rcases taken with missing | ⟨stripe, popped⟩
      · cases missing
      · obtain ⟨rest, _, _, represents⟩ := shape.represents.pop popped.symm
        exact .update represents (.inr rfl)

theorem poolStep_relinks (shape : PoolShape state lists place)
    {thread : Thread} {free : Bool}
    (taken : poolStep state thread free = some later) :
    Relinks (fun slot => (place slot).list) later.memory := by
  unfold poolStep at taken
  cases pc : (state.threads thread).pc with
  | idle => simp [pc] at taken
  | take ptr size =>
      simp only [pc, Option.some.injEq] at taken
      subst taken
      exact taken_relinks shape (.inr ⟨_, rfl⟩)
  | steal ptr size k =>
      simp only [pc] at taken
      split at taken
      · rw [Option.some.injEq] at taken
        subst taken
        apply taken_relinks shape
        cases free with
        | true => exact .inr ⟨_, rfl⟩
        | false => exact .inl rfl
      · rw [Option.some.injEq] at taken
        subst taken
        exact .same shape.represents
  | fill slot ptr size =>
      simp only [pc, Option.some.injEq] at taken
      subst taken
      have unlinked := unlinked_of_pc shape pc (List.mem_singleton_self slot)
      exact .same (shape.represents.setNext unlinked none)
  | zero slot =>
      simp only [pc, Option.some.injEq] at taken
      subst taken
      have unlinked := unlinked_of_pc shape pc (List.mem_singleton_self slot)
      exact .same (shape.represents.setNext unlinked none)
  | giveBack slot =>
      simp only [pc, Option.some.injEq] at taken
      subst taken
      have unlinked := unlinked_of_pc shape pc (List.mem_singleton_self slot)
      exact .update (shape.represents.push unlinked _) (.inl unlinked)
  | uncount =>
      simp only [pc, Option.some.injEq] at taken
      subst taken
      exact .same shape.represents

theorem poolNext_relinks (shape : PoolShape state lists place)
    {label : PoolLabel layout Thread}
    (taken : poolNext state label = some later) :
    Relinks (fun slot => (place slot).list) later.memory := by
  cases label with
  | entryNew thread ptr size =>
      simp only [poolNext, Option.ite_none_right_eq_some,
        Option.some.injEq] at taken
      obtain ⟨_, rfl⟩ := taken
      exact .same shape.represents
  | entryAdd thread slot allocNum =>
      simp only [poolNext, Option.ite_none_right_eq_some,
        Option.some.injEq] at taken
      obtain ⟨⟨_, ready⟩, rfl⟩ := taken
      have unlinked := unlinked_of_held shape
        (List.mem_append_right _ ready)
      exact .update (shape.represents.push unlinked _) (.inl unlinked)
  | entryDiscard thread slot =>
      simp only [poolNext, Option.ite_none_right_eq_some,
        Option.some.injEq] at taken
      obtain ⟨_, rfl⟩ := taken
      exact .same shape.represents
  | entryRemove thread ptr =>
      simp only [poolNext, Option.ite_none_right_eq_some,
        Option.some.injEq] at taken
      obtain ⟨_, rfl⟩ := taken
      unfold mttEntryRemoveSlot
      split
      · exact .same shape.represents
      · rcases shape.represents.unlink (fun slot => (state.entry slot).ptr = ptr)
          (shape.length_lt (.bucket (layout.bucketOf ptr))) with
          ⟨_, missing⟩ | ⟨dead, memory, _, unlinked, _, represents⟩
        · rw [missing]
          exact .same shape.represents
        · rw [unlinked]
          exact .update represents (.inr rfl)
  | step thread free => exact poolStep_relinks shape taken

theorem onFreeList_stays (invariant : PoolInvariant state)
    {label : PoolLabel layout Thread}
    (taken : poolNext state label = some later) {slot : layout.Slot}
    {stripe other : Nat} (before : OnFreeList state slot stripe)
    (after : OnFreeList later slot other) : OnFreeList later slot stripe := by
  obtain ⟨lists, place, shape⟩ := invariant
  obtain ⟨laterLists, links, represents, moves⟩ := poolNext_relinks shape taken
  have placed := (onFreeList_iff shape.represents).mp before
  have linked := (onFreeList_iff represents).mp after
  rw [onFreeList_iff represents]
  rcases moves slot with same | unlinked | unlinked
  · rw [same]
    exact placed
  · exact absurd (placed.symm.trans unlinked) (Option.some_ne_none _)
  · exact absurd (linked.symm.trans unlinked) (Option.some_ne_none _)

end

/-! ## The stripes that a search has left to visit -/

/-- The search is not over, or it has not come to this stripe. -/
def Unvisited (layout : PoolLayout) (stripe : Nat) :
    PoolPc layout.Slot → Prop
  | .steal ptr _ k =>
      ∀ turn < k,
        (layout.stripeOf ptr + turn) &&& (mttLockStripes - 1) ≠ stripe
  | .idle | .take _ _ | .fill _ _ _ | .zero _ | .giveBack _ | .uncount => True

/-- The search has tried all stripes; `mtt_entry_new` returns NULL next. -/
def ReturnsNull {Slot : Type} : PoolPc Slot → Prop
  | .steal _ _ k => mttLockStripes ≤ k
  | _ => False

theorem and_stripes (index : Nat) :
    index &&& (mttLockStripes - 1) = index % mttLockStripes :=
  Nat.and_two_pow_sub_one_eq_mod index 6

theorem home_stripe (ptr : Word) :
    (layout.stripeOf ptr + 0) &&& (mttLockStripes - 1) =
      layout.stripeOf ptr := by
  rw [and_stripes, Nat.add_zero]
  exact Nat.mod_eq_of_lt (mttStripeOf_lt ptr layout.hashSeed)

/-- A search that is over has come to every stripe. -/
theorem not_returnsNull_of_unvisited {stripe : Nat}
    (valid : stripe < mttLockStripes) {pc : PoolPc layout.Slot}
    (unvisited : Unvisited layout stripe pc) : ¬ ReturnsNull pc := by
  intro ended
  cases pc with
  | steal ptr size k =>
      have enough : mttLockStripes ≤ k := ended
      have home := mttStripeOf_lt ptr layout.hashSeed
      have turn := unvisited
        ((stripe + mttLockStripes - layout.stripeOf ptr) % mttLockStripes)
        (lt_of_lt_of_le (Nat.mod_lt _ (by decide)) enough)
      apply turn
      rw [and_stripes]
      unfold PoolLayout.stripeOf mttLockStripes at *
      omega
  | _ => exact ended

section

variable {state later : PoolState layout Thread} {thread : Thread}
  {stripe : Nat}

theorem unvisited_moved {moved : PoolThread layout.Slot}
    (threads : later.threads = Function.update state.threads thread moved)
    (unvisited : Unvisited layout stripe moved.pc) :
    Unvisited layout stripe (later.threads thread).pc := by
  rw [threads, Function.update_self]
  exact unvisited

theorem unvisited_taken {ptr : Word} {size k : Nat}
    {outcome : Option (layout.Slot × Chain.Memory PoolList layout.Slot)}
    (before : ∀ turn < k,
      (layout.stripeOf ptr + turn) &&& (mttLockStripes - 1) ≠ stripe)
    (here : outcome = none →
      (layout.stripeOf ptr + k) &&& (mttLockStripes - 1) ≠ stripe) :
    Unvisited layout stripe ((state.taken thread ptr size
      (.steal ptr size (k + 1)) outcome).threads thread).pc := by
  cases outcome with
  | some pair => exact unvisited_moved rfl trivial
  | none =>
      apply unvisited_moved rfl
      intro turn inside
      rcases Nat.lt_succ_iff_lt_or_eq.mp inside with earlier | rfl
      · exact before turn earlier
      · exact here rfl

omit [DecidableEq Thread] in
theorem takeFree_eq_none {state : PoolState layout Thread} {index : Nat}
    (missing : takeFree state.memory index = none) :
    state.memory.head (.free index) = none :=
  Option.map_eq_none_iff.mp missing

/-- A thread goes on from a stripe only if it found no slot there. -/
theorem unvisited_poolStep {slot : layout.Slot} {free : Bool}
    (onList : OnFreeList state slot stripe)
    (unvisited : Unvisited layout stripe (state.threads thread).pc)
    (honest : free = false → ∀ index,
      wantedStripe layout (state.threads thread).pc = some index →
        index ≠ stripe)
    (taken : poolStep state thread free = some later) :
    Unvisited layout stripe (later.threads thread).pc := by
  have elsewhere : ∀ {index : Nat},
      state.memory.head (.free index) = none → index ≠ stripe := by
    rintro index empty rfl
    exact onList.head_ne_none empty
  unfold poolStep at taken
  cases pc : (state.threads thread).pc with
  | idle => simp [pc] at taken
  | take ptr size =>
      simp only [pc, Option.some.injEq] at taken
      subst taken
      apply unvisited_taken (k := 0)
      · intro turn inside
        omega
      · intro missing
        rw [home_stripe]
        exact elsewhere (takeFree_eq_none missing)
  | steal ptr size k =>
      rw [pc] at unvisited honest
      simp only [pc] at taken
      split at taken
      case isTrue inside =>
          rw [Option.some.injEq] at taken
          subst taken
          apply unvisited_taken unvisited
          intro missing
          cases free with
          | true => exact elsewhere (takeFree_eq_none missing)
          | false => exact honest rfl _ (if_pos inside)
      case isFalse =>
          rw [Option.some.injEq] at taken
          subst taken
          exact unvisited_moved rfl trivial
  | fill slot ptr size | zero slot | giveBack slot | uncount =>
      simp only [pc, Option.some.injEq] at taken
      subst taken
      exact unvisited_moved rfl trivial

/-- The thread that acts. -/
def actor : PoolLabel layout Thread → Thread
  | .entryNew thread _ _ | .entryAdd thread _ _ | .entryDiscard thread _
  | .entryRemove thread _ | .step thread _ => thread

theorem poolStep_threads {other : Thread} {free : Bool}
    (taken : poolStep state other free = some later) :
    ∃ moved, later.threads = Function.update state.threads other moved := by
  have search : ∀ {ptr : Word} {size : Nat} {next : PoolPc layout.Slot}
      (outcome : Option (layout.Slot × Chain.Memory PoolList layout.Slot)),
      ∃ moved, (state.taken other ptr size next outcome).threads =
        Function.update state.threads other moved := by
    rintro ptr size next (_ | ⟨slot, memory⟩)
    · exact ⟨_, rfl⟩
    · exact ⟨_, rfl⟩
  unfold poolStep at taken
  cases pc : (state.threads other).pc with
  | idle => simp [pc] at taken
  | take ptr size =>
      simp only [pc, Option.some.injEq] at taken
      subst taken
      exact search _
  | steal ptr size k =>
      simp only [pc] at taken
      split at taken
      · rw [Option.some.injEq] at taken
        subst taken
        exact search _
      · rw [Option.some.injEq] at taken
        subst taken
        exact ⟨_, rfl⟩
  | fill slot ptr size | zero slot | giveBack slot | uncount =>
      simp only [pc, Option.some.injEq] at taken
      subst taken
      exact ⟨_, rfl⟩

theorem poolNext_threads {label : PoolLabel layout Thread}
    (taken : poolNext state label = some later) :
    ∃ moved, later.threads =
      Function.update state.threads (actor label) moved := by
  cases label with
  | entryNew thread ptr size | entryAdd thread slot allocNum
  | entryDiscard thread slot =>
      simp only [poolNext, Option.ite_none_right_eq_some,
        Option.some.injEq] at taken
      obtain ⟨_, rfl⟩ := taken
      exact ⟨_, rfl⟩
  | entryRemove thread ptr =>
      simp only [poolNext, Option.ite_none_right_eq_some,
        Option.some.injEq] at taken
      obtain ⟨_, rfl⟩ := taken
      unfold mttEntryRemoveSlot
      split
      · exact ⟨_, (Function.update_eq_self thread state.threads).symm⟩
      · split
        · exact ⟨_, (Function.update_eq_self thread state.threads).symm⟩
        · exact ⟨_, rfl⟩
  | step thread free => exact poolStep_threads taken

/-- A step that finds no slot where it looks, if it may look there, has not
passed the slot's stripe. -/
theorem unvisited_poolNext {slot : layout.Slot}
    {label : PoolLabel layout Thread} (onList : OnFreeList state slot stripe)
    (unvisited : Unvisited layout stripe (state.threads thread).pc)
    (honest : label = .step thread false → ∀ index,
      wantedStripe layout (state.threads thread).pc = some index →
        index ≠ stripe)
    (taken : poolNext state label = some later) :
    Unvisited layout stripe (later.threads thread).pc := by
  by_cases acts : actor label = thread
  · subst acts
    cases label with
    | entryNew thread ptr size | entryAdd thread slot allocNum
    | entryDiscard thread slot =>
        simp only [poolNext, Option.ite_none_right_eq_some,
          Option.some.injEq] at taken
        obtain ⟨_, rfl⟩ := taken
        exact unvisited_moved rfl trivial
    | entryRemove thread ptr =>
        simp only [poolNext, Option.ite_none_right_eq_some,
          Option.some.injEq] at taken
        obtain ⟨_, rfl⟩ := taken
        unfold mttEntryRemoveSlot
        split
        · exact unvisited
        · split
          · exact unvisited
          · exact unvisited_moved rfl trivial
    | step thread free =>
        apply unvisited_poolStep onList unvisited _ taken
        rintro rfl
        exact honest rfl
  · obtain ⟨moved, threads⟩ := poolNext_threads taken
    rw [threads, Function.update_of_ne (Ne.symm acts)]
    exact unvisited

end

/-! ## Runs -/

/-- What a step under the locks does to the pool; a failing `trylock` is the
only step that passes a stripe without looking. -/
theorem lockedNext_pool {state later : LockedPool layout Thread}
    {label : LockedLabel layout Thread}
    (taken : lockedNext state label = some later) :
    later.pool = state.pool ∨
      ∃ below, poolNext state.pool below = some later.pool ∧
        ∀ thread, below = .step thread false → label = .fail thread := by
  have advanced : ∀ {thread : Thread} {phase : LockPhase}
      {below : PoolLabel layout Thread},
      state.advance thread phase below = some later →
      poolNext state.pool below = some later.pool := by
    intro thread phase below stepped
    obtain ⟨pool, moved, rfl⟩ := Option.map_eq_some_iff.mp stepped
    exact moved
  have outside : ∀ {thread : Thread} {below : PoolLabel layout Thread},
      state.outside thread below = some later →
      poolNext state.pool below = some later.pool := by
    intro thread below stepped
    unfold LockedPool.outside at stepped
    split at stepped
    · exact advanced stepped
    · cases stepped
  cases label with
  | entryNew thread ptr size | entryAdd thread slot allocNum
  | entryDiscard thread slot | entryRemove thread ptr =>
      exact .inr ⟨_, outside taken, by simp⟩
  | lock thread =>
      simp only [lockedNext] at taken
      split at taken
      · rw [Option.ite_none_right_eq_some, Option.some.injEq] at taken
        obtain ⟨_, rfl⟩ := taken
        exact .inl rfl
      · cases taken
  | fail thread =>
      simp only [lockedNext] at taken
      split at taken
      · rw [Option.ite_none_right_eq_some] at taken
        refine .inr ⟨_, outside taken.2, ?_⟩
        rintro other ⟨⟩
        rfl
      · cases taken
  | work thread =>
      simp only [lockedNext] at taken
      split at taken
      · exact .inr ⟨_, advanced taken, by simp⟩
      · cases taken
  | unlock thread =>
      simp only [lockedNext] at taken
      split at taken
      · cases taken
        exact .inl rfl
      · cases taken
  | proceed thread =>
      simp only [lockedNext] at taken
      rw [Option.ite_none_right_eq_some] at taken
      exact .inr ⟨_, outside taken.2, by simp⟩

/-- The pool under the locks is a run of the pool. -/
theorem pool_reachable {state : LockedPool layout Thread}
    (reachable : (lockedPool layout Thread).Reachable state) :
    (poolSystem layout Thread).Reachable state.pool := by
  induction reachable with
  | start initial => exact .start initial.1
  | step _ _ taken induction =>
      rcases lockedNext_pool taken with same | ⟨below, stepped, _⟩
      · rw [same]
        exact induction
      · exact .step induction trivial stepped

/-- The slot is on some free list. -/
def IsFree (state : LockedPool layout Thread) (slot : layout.Slot) : Prop :=
  ∃ stripe < mttLockStripes, OnFreeList state.pool slot stripe

/-- If the step is a `trylock` of the thread that fails, the slot is not in the
free list behind that lock. -/
def TrylockMissesOthers (thread : Thread) (slot : layout.Slot)
    (state : LockedPool layout Thread)
    (label : LockedLabel layout Thread) : Prop :=
  label = .fail thread → ∀ index,
    wantedStripe layout (state.pc thread) = some index →
    ¬ OnFreeList state.pool slot index

/-- A stretch of a run during which the slot is on a free list in every
state. -/
def SteadySteps (guard : LockedPool layout Thread →
    LockedLabel layout Thread → Prop) (slot : layout.Slot)
    (start later : LockedPool layout Thread) : Prop :=
  (lockedPool layout Thread).StepsBy
      (fun state label => guard state label ∧ IsFree state slot) start later ∧
    IsFree later slot

section

variable [Fintype Thread] {state later : LockedPool layout Thread}
  {thread : Thread} {slot : layout.Slot}

/-- The slot is free on a stripe that the search of the thread has not
passed. -/
def Ahead (thread : Thread) (slot : layout.Slot)
    (state : LockedPool layout Thread) : Prop :=
  IsFree state slot → ∃ stripe < mttLockStripes,
    OnFreeList state.pool slot stripe ∧
      Unvisited layout stripe (state.pc thread)

theorem ahead_step {label : LockedLabel layout Thread}
    (invariant : PoolInvariant state.pool)
    (ahead : Ahead thread slot state) (free : IsFree state slot)
    (misses : TrylockMissesOthers thread slot state label)
    (taken : lockedNext state label = some later) :
    Ahead thread slot later := by
  rintro ⟨other, _, after⟩
  obtain ⟨stripe, valid, onList, unvisited⟩ := ahead free
  rcases lockedNext_pool taken with same | ⟨below, stepped, failing⟩
  · refine ⟨stripe, valid, ?_, ?_⟩
    · rw [same]
      exact onList
    · rw [LockedPool.pc, same]
      exact unvisited
  · refine ⟨stripe, valid, onFreeList_stays invariant stepped onList after,
      unvisited_poolNext onList unvisited ?_ stepped⟩
    rintro isFail index wanted rfl
    exact misses (failing thread isFail) index wanted onList

theorem poolInvariant_step {label : LockedLabel layout Thread}
    (invariant : PoolInvariant state.pool)
    (taken : lockedNext state label = some later) :
    PoolInvariant later.pool := by
  rcases lockedNext_pool taken with same | ⟨below, stepped, _⟩
  · rw [same]
    exact invariant
  · exact poolNext_invariant invariant stepped

omit [Fintype Thread] in
/-- A call begins before its first look into a free list. -/
theorem ahead_entryNew {ptr : Word} {size : Nat}
    (called : lockedNext state (.entryNew thread ptr size) = some later) :
    Ahead thread slot later := by
  rintro ⟨stripe, valid, onList⟩
  refine ⟨stripe, valid, onList, ?_⟩
  simp only [lockedNext, LockedPool.outside,
    Option.ite_none_right_eq_some] at called
  obtain ⟨pool, stepped, rfl⟩ := Option.map_eq_some_iff.mp called.2
  simp only [poolNext, Option.ite_none_right_eq_some,
    Option.some.injEq] at stepped
  obtain ⟨_, rfl⟩ := stepped
  exact unvisited_moved rfl trivial

/-- A call during which a slot is free throughout does not return NULL, if none
of its `trylock`s fails on the stripe of that slot. -/
theorem entryNew_finds_slot {start : LockedPool layout Thread} {ptr : Word}
    {size : Nat} (reachable : (lockedPool layout Thread).Reachable state)
    (called : lockedNext state (.entryNew thread ptr size) = some start)
    (steady : SteadySteps (TrylockMissesOthers thread slot) slot start later) :
    ¬ ReturnsNull (later.pc thread) := by
  obtain ⟨steps, free⟩ := steady
  have initial : PoolInvariant start.pool :=
    poolInvariant_step (poolInvariant_reachable (pool_reachable reachable))
      called
  have kept := steps.preserves
    (fun state => PoolInvariant state.pool ∧ Ahead thread slot state)
    (fun state label target holds allowed taken =>
      ⟨poolInvariant_step holds.1 taken,
        ahead_step holds.1 holds.2 allowed.2 allowed.1 taken⟩)
    ⟨initial, ahead_entryNew called⟩
  obtain ⟨stripe, valid, _, unvisited⟩ := kept.2 free
  exact not_returnsNull_of_unvisited valid unvisited

end

/-! ## A call that passes a slot -/

section

variable {state : LockedPool layout Thread} {thread : Thread} {ptr : Word}
  {size k : Nat}

/-- The same state with the thread at another place in its function. -/
def LockedPool.atPc (state : LockedPool layout Thread) (thread : Thread)
    (pc : PoolPc layout.Slot) : LockedPool layout Thread :=
  { state with
    pool := state.pool.setThread thread { state.pool.threads thread with pc } }

@[simp] theorem atPc_pc (state : LockedPool layout Thread) (thread : Thread)
    (pc : PoolPc layout.Slot) : (state.atPc thread pc).pc thread = pc := by
  simp [LockedPool.atPc, LockedPool.pc, PoolState.setThread]

@[simp] theorem atPc_atPc (state : LockedPool layout Thread)
    (thread : Thread) (pc next : PoolPc layout.Slot) :
    (state.atPc thread pc).atPc thread next = state.atPc thread next := by
  simp [LockedPool.atPc, PoolState.setThread]

theorem atPc_pc_of_ne {other : Thread} (different : other ≠ thread)
    (pc : PoolPc layout.Slot) :
    (state.atPc thread pc).pc other = state.pc other := by
  simp [LockedPool.atPc, LockedPool.pc, PoolState.setThread,
    Function.update_of_ne different]

/-- Steps that leave all lists as they are, none of them a `trylock` of the
thread that fails. -/
abbrev SameLists (thread : Thread)
    (memory : Chain.Memory PoolList layout.Slot)
    (start later : LockedPool layout Thread) : Prop :=
  (lockedPool layout Thread).StepsBy
    (fun state label => state.pool.memory = memory ∧ label ≠ .fail thread)
    start later

theorem oneStep {guard : LockedPool layout Thread →
      LockedLabel layout Thread → Prop} {later : LockedPool layout Thread}
    {label : LockedLabel layout Thread} (allowed : guard state label)
    (taken : lockedNext state label = some later) :
    (lockedPool layout Thread).StepsBy guard state later :=
  .tail (.refl state) allowed taken

/-- A search about to look into its turn `k`. -/
def turnPc {Slot : Type} (ptr : Word) (size : Nat) : Nat → PoolPc Slot
  | 0 => .take ptr size
  | k + 1 => .steal ptr size (k + 1)

theorem wantedStripe_turnPc (home : layout.stripeOf ptr = 0)
    (inside : k < mttLockStripes) :
    wantedStripe layout (turnPc ptr size k) = some k := by
  cases k with
  | zero => rw [turnPc, wantedStripe, home]
  | succ k =>
      rw [turnPc, wantedStripe, if_pos inside, home, Nat.zero_add,
        and_stripes, Nat.mod_eq_of_lt inside]

theorem poolStep_turn {pool : PoolState layout Thread}
    (turn : (pool.threads thread).pc = turnPc ptr size k)
    (home : layout.stripeOf ptr = 0) (inside : k < mttLockStripes) :
    poolStep pool thread true =
      some (pool.taken thread ptr size (turnPc ptr size (k + 1))
        (takeFree pool.memory k)) := by
  unfold poolStep
  cases k with
  | zero => simp only [turn, turnPc, home]
  | succ k =>
      have index : (0 + (k + 1)) &&& (mttLockStripes - 1) = k + 1 := by
        rw [Nat.zero_add, and_stripes, Nat.mod_eq_of_lt inside]
      simp only [turn, turnPc, home, if_pos inside, index, if_true]

/-- The thread in the critical section of a free list that is not locked. -/
def LockedPool.inside (state : LockedPool layout Thread) (thread : Thread)
    (stripe : Nat) : LockedPool layout Thread :=
  (state.setOwner stripe (some thread)).setPhase thread (.entered stripe)

theorem inside_phase_of_ne {other : Thread} (different : other ≠ thread)
    (stripe : Nat) :
    (state.inside thread stripe).phase other = state.phase other :=
  Function.update_of_ne different ..

theorem inside_owner_self (stripe : Nat) :
    (state.inside thread stripe).owner stripe = some thread :=
  Function.update_self ..

theorem inside_owner_of_ne {stripe index : Nat} (different : index ≠ stripe) :
    (state.inside thread stripe).owner index = state.owner index :=
  Function.update_of_ne different ..

theorem lock_eq (outside : state.phase thread = .outside)
    (wanted : wantedStripe layout (state.pc thread) = some k)
    (unlocked : state.owner k = none) :
    lockedNext state (.lock thread) = some (state.inside thread k) := by
  simp only [lockedNext, outside, wanted, unlocked, if_true]
  rfl

/-- The thread after its work in the critical section. -/
def LockedPool.done (state : LockedPool layout Thread) (thread : Thread)
    (stripe : Nat) (pool : PoolState layout Thread) :
    LockedPool layout Thread :=
  { (state.inside thread stripe).setPhase thread (.worked stripe) with pool }

theorem work_eq {pool : PoolState layout Thread}
    (worked : poolStep state.pool thread true = some pool) :
    lockedNext (state.inside thread k) (.work thread) =
      some (state.done thread k pool) := by
  have entered : (state.inside thread k).phase thread = .entered k :=
    Function.update_self ..
  have stepped : poolNext (state.inside thread k).pool (.step thread true) =
      some pool := worked
  simp only [lockedNext, entered, LockedPool.advance, stepped,
    Option.map_some]
  rfl

theorem unlock_eq {pool : PoolState layout Thread}
    (outside : state.phase thread = .outside)
    (unlocked : state.owner k = none) :
    lockedNext (state.done thread k pool) (.unlock thread) =
      some { state with pool } := by
  have left : (state.done thread k pool).phase thread = .worked k :=
    Function.update_self ..
  have owner : Function.update (Function.update state.owner k (some thread)) k
      none = state.owner := by
    rw [Function.update_idem, ← unlocked, Function.update_eq_self]
  have phase : Function.update (Function.update (Function.update state.phase
      thread (.entered k)) thread (.worked k)) thread .outside =
      state.phase := by
    rw [Function.update_idem, Function.update_idem, ← outside,
      Function.update_eq_self]
  simp only [lockedNext, left]
  simp only [LockedPool.done, LockedPool.inside, LockedPool.setOwner,
    LockedPool.setPhase, owner, phase]

/-- Taking a lock, working on the list and giving the lock back. -/
theorem section_steps {pool : PoolState layout Thread}
    {guard : LockedPool layout Thread → LockedLabel layout Thread → Prop}
    (allowed : ∀ passed label, label ≠ .fail thread →
      passed.pool = state.pool ∨ passed.pool = pool → guard passed label)
    (outside : state.phase thread = .outside)
    (wanted : wantedStripe layout (state.pc thread) = some k)
    (unlocked : state.owner k = none)
    (worked : poolStep state.pool thread true = some pool) :
    (lockedPool layout Thread).StepsBy guard state { state with pool } := by
  have locks := oneStep (allowed state (.lock thread) (by simp) (.inl rfl))
    (lock_eq outside wanted unlocked)
  have works := oneStep
    (allowed (state.inside thread k) (.work thread) (by simp) (.inl rfl))
    (work_eq worked)
  have unlocks := oneStep
    (allowed (state.done thread k pool) (.unlock thread) (by simp)
      (.inr rfl))
    (unlock_eq outside unlocked)
  exact (locks.trans works).trans unlocks

theorem passes_empty (outside : state.phase thread = .outside)
    (turn : state.pc thread = turnPc ptr size k)
    (home : layout.stripeOf ptr = 0) (inside : k < mttLockStripes)
    (unlocked : state.owner k = none)
    (empty : state.pool.memory.head (.free k) = none) :
    SameLists thread state.pool.memory state
      (state.atPc thread (turnPc ptr size (k + 1))) := by
  have nothing : takeFree state.pool.memory k = none :=
    Option.map_eq_none_iff.mpr empty
  have worked := poolStep_turn turn home inside
  rw [nothing] at worked
  have wanted : wantedStripe layout (state.pc thread) = some k := by
    rw [turn, wantedStripe_turnPc home inside]
  refine section_steps ?_ outside wanted unlocked worked
  rintro passed label notFailing (same | same)
  · exact ⟨by rw [same], notFailing⟩
  · refine ⟨?_, notFailing⟩
    rw [same]
    rfl

theorem search_passes (outside : state.phase thread = .outside)
    (begins : state.pc thread = turnPc ptr size 0)
    (home : layout.stripeOf ptr = 0) {count : Nat}
    (few : count ≤ mttLockStripes)
    (passable : ∀ index < count, state.owner index = none ∧
      state.pool.memory.head (.free index) = none) :
    SameLists thread state.pool.memory state
      (state.atPc thread (turnPc ptr size count)) := by
  induction count with
  | zero =>
      have same : state.atPc thread (turnPc ptr size 0) = state := by
        rw [← begins]
        simp [LockedPool.atPc, LockedPool.pc, PoolState.setThread]
      rw [same]
      exact .refl state
  | succ count induction =>
      have before := induction (Nat.le_of_succ_le few) fun index inside =>
        passable index (Nat.lt_succ_of_lt inside)
      obtain ⟨unlocked, empty⟩ := passable count (Nat.lt_succ_self count)
      have stillOutside : (state.atPc thread
          (turnPc ptr size count)).phase thread = .outside := outside
      have next := passes_empty stillOutside (atPc_pc state thread _) home few
        unlocked empty
      rw [atPc_atPc] at next
      exact before.trans next

end

/-! ## Emptying the free lists -/

/-- No thread is in a call, and no lock is taken. -/
structure Rested (state : LockedPool layout Thread) : Prop where
  unlocked : ∀ stripe, state.owner stripe = none
  outside : ∀ thread, state.phase thread = .outside
  idle : ∀ thread, state.pc thread = .idle

theorem outside_eq {state : LockedPool layout Thread} {thread : Thread}
    {label : PoolLabel layout Thread} {pool : PoolState layout Thread}
    (outside : state.phase thread = .outside)
    (stepped : poolNext state.pool label = some pool) :
    state.outside thread label = some { state with pool } := by
  have phase : Function.update state.phase thread .outside = state.phase := by
    rw [← outside, Function.update_eq_self]
  rw [LockedPool.outside, if_pos outside, LockedPool.advance, stepped,
    Option.map_some, LockedPool.setPhase, phase]

/-- The state after the beginning of a call. -/
theorem entryNew_eq {state : LockedPool layout Thread} {thread : Thread}
    (outside : state.phase thread = .outside)
    (idle : state.pc thread = .idle) (ptr : Word) (size : Nat) :
    lockedNext state (.entryNew thread ptr size) =
      some (state.atPc thread (turnPc ptr size 0)) :=
  outside_eq outside (if_pos idle)

theorem proceed_fill {state : LockedPool layout Thread} {thread : Thread}
    {slot : layout.Slot} {ptr : Word} {size : Nat}
    (outside : state.phase thread = .outside)
    (filling : state.pc thread = .fill slot ptr size) :
    ∃ pool, lockedNext state (.proceed thread) = some { state with pool } ∧
      pool.memory = state.pool.memory.setNext slot none ∧
      ∃ ready, pool.threads =
        Function.update state.pool.threads thread ⟨.idle, ready⟩ := by
  have wanted : wantedStripe layout (state.pc thread) = none := by
    rw [filling]
    rfl
  have pc : (state.pool.threads thread).pc = .fill slot ptr size := filling
  obtain ⟨pool, stepped, memory, ready⟩ : ∃ pool,
      poolNext state.pool (.step thread true) = some pool ∧
      pool.memory = state.pool.memory.setNext slot none ∧
      ∃ ready, pool.threads =
        Function.update state.pool.threads thread ⟨.idle, ready⟩ := by
    simp only [poolNext, poolStep, pc]
    exact ⟨_, rfl, rfl, _, rfl⟩
  refine ⟨pool, ?_, memory, ready⟩
  simp only [lockedNext, wanted, if_true]
  exact outside_eq outside stepped

/-- The search ends at a stripe whose free list has a slot. -/
theorem takes_slot {state : LockedPool layout Thread} {thread : Thread}
    {ptr : Word} {size k : Nat} {slot : layout.Slot}
    {memory : Chain.Memory PoolList layout.Slot}
    {guard : LockedPool layout Thread → LockedLabel layout Thread → Prop}
    (allowed : ∀ passed label, label ≠ .fail thread →
      passed.pool.memory = state.pool.memory ∨ passed.pool.memory = memory →
      guard passed label)
    (outside : state.phase thread = .outside)
    (turn : state.pc thread = turnPc ptr size k)
    (home : layout.stripeOf ptr = 0) (inside : k < mttLockStripes)
    (unlocked : state.owner k = none)
    (taken : takeFree state.pool.memory k = some (slot, memory)) :
    ∃ pool, (lockedPool layout Thread).StepsBy guard state
        { state with pool } ∧
      pool.memory = memory.setNext slot none ∧
      ∃ ready, pool.threads =
        Function.update state.pool.threads thread ⟨.idle, ready⟩ := by
  have worked := poolStep_turn turn home inside
  rw [taken] at worked
  have wanted : wantedStripe layout (state.pc thread) = some k := by
    rw [turn, wantedStripe_turnPc home inside]
  let passed : LockedPool layout Thread :=
    { state with
      pool := state.pool.taken thread ptr size (turnPc ptr size (k + 1))
        (some (slot, memory)) }
  have takes : (lockedPool layout Thread).StepsBy guard state passed := by
    refine section_steps ?_ outside wanted unlocked worked
    rintro within label notFailing (same | same)
    · exact allowed within label notFailing (.inl (by rw [same]))
    · refine allowed within label notFailing (.inr ?_)
      rw [same]
      rfl
  have filling : passed.pc thread = .fill slot ptr size := by
    simp [passed, LockedPool.pc, PoolState.taken, PoolState.setThread]
  have stillOutside : passed.phase thread = .outside := outside
  obtain ⟨pool, filled, memoryEq, ready, threads⟩ :=
    proceed_fill stillOutside filling
  have fills := oneStep
    (allowed passed (.proceed thread) (by simp) (.inr rfl)) filled
  refine ⟨pool, takes.trans fills, memoryEq, ready, ?_⟩
  rw [threads]
  simp [passed, PoolState.taken, PoolState.setThread]

section

variable {state : LockedPool layout Thread}
  {lists : PoolList → List layout.Slot}
  {links : layout.Slot → Option PoolList} {ptr : Word}

omit [DecidableEq Thread] in
theorem head_of_lists
    (represents : Chain.Represents state.pool.memory lists links)
    {index : PoolList} (empty : lists index = []) :
    state.pool.memory.head index = none := by
  have linked := represents.linked index
  rw [empty] at linked
  exact linked

omit [DecidableEq Thread] in
theorem takeFree_of_lists
    (represents : Chain.Represents state.pool.memory lists links) {k : Nat}
    {slot : layout.Slot} {rest : List layout.Slot}
    (found : lists (.free k) = slot :: rest) :
    ∃ memory, takeFree state.pool.memory k = some (slot, memory) ∧
      Chain.Represents (memory.setNext slot none)
        (Function.update lists (.free k) rest)
        (Function.update links slot none) := by
  have linked := represents.linked (.free k)
  rw [found] at linked
  obtain ⟨memory, popped⟩ : ∃ memory,
      takeFree state.pool.memory k = some (slot, memory) := by
    rw [takeFree, Chain.Memory.pop, linked.1]
    exact ⟨_, rfl⟩
  obtain ⟨others, same, _, popped'⟩ := represents.pop popped
  obtain rfl := (List.cons.inj (found.symm.trans same)).2
  exact ⟨memory, popped, popped'.setNext (Function.update_self ..) none⟩

/-- A call on its own comes to a stripe over empty lists. -/
theorem search_reaches (thread : Thread) (home : layout.stripeOf ptr = 0)
    (size : Nat) {k : Nat} (few : k ≤ mttLockStripes)
    (rested : Rested state)
    (empty : ∀ index < k, state.pool.memory.head (.free index) = none) :
    (lockedPool layout Thread).StepsBy (fun _ _ => True) state
      (state.atPc thread (turnPc ptr size k)) := by
  have outside := rested.outside thread
  have calls := entryNew_eq outside (rested.idle thread) ptr size
  have passes := search_passes
    (show (state.atPc thread (turnPc ptr size 0)).phase thread = .outside
      from outside) (atPc_pc state thread _) home few
    fun index below => ⟨rested.unlocked index, empty index below⟩
  rw [atPc_atPc] at passes
  exact (oneStep trivial calls).trans (passes.mono fun _ _ _ => trivial)

theorem call_takes (thread : Thread) (home : layout.stripeOf ptr = 0)
    (size : Nat) {k : Nat} (inside : k < mttLockStripes)
    (rested : Rested state)
    (represents : Chain.Represents state.pool.memory lists links)
    (passed : ∀ index < k, lists (.free index) = [])
    {slot : layout.Slot} {rest : List layout.Slot}
    (found : lists (.free k) = slot :: rest) :
    ∃ later links', (lockedPool layout Thread).StepsBy (fun _ _ => True)
        state later ∧
      Rested later ∧ Chain.Represents later.pool.memory
        (Function.update lists (.free k) rest) links' := by
  have outside := rested.outside thread
  have reaches := search_reaches thread home size (Nat.le_of_lt inside) rested
    fun index before => head_of_lists represents (passed index before)
  obtain ⟨memory, taken, after⟩ := takeFree_of_lists represents found
  obtain ⟨pool, takes, memoryEq, ready, threads⟩ := takes_slot
    (fun _ _ _ _ => trivial)
    (show (state.atPc thread (turnPc ptr size k)).phase thread = .outside
      from outside) (atPc_pc state thread _) home inside
    (rested.unlocked k) taken
  refine ⟨_, _, reaches.trans takes,
    ⟨rested.unlocked, rested.outside, ?_⟩, memoryEq ▸ after⟩
  intro other
  rw [LockedPool.pc, threads]
  by_cases acts : other = thread
  · subst acts
    rw [Function.update_self]
  · rw [Function.update_of_ne acts]
    exact (atPc_pc_of_ne acts _).trans (rested.idle other)

/-- A thread on its own takes all slots of the first list that has any. -/
theorem empties_list (thread : Thread) (home : layout.stripeOf ptr = 0)
    {k : Nat} (inside : k < mttLockStripes) (rested : Rested state)
    (represents : Chain.Represents state.pool.memory lists links)
    (passed : ∀ index < k, lists (.free index) = []) :
    ∃ later laterLists laterLinks,
      (lockedPool layout Thread).StepsBy (fun _ _ => True) state later ∧
      Rested later ∧
      Chain.Represents later.pool.memory laterLists laterLinks ∧
      laterLists (.free k) = [] ∧
      ∀ list ≠ .free k, laterLists list = lists list := by
  induction cells : lists (.free k) generalizing state lists links with
  | nil => exact ⟨state, lists, links, .refl state, rested, represents, cells,
      fun _ _ => rfl⟩
  | cons slot rest induction =>
      obtain ⟨next, nextLinks, takes, nextRested, nextRepresents⟩ :=
        call_takes thread home 0 inside rested represents passed cells
      have elsewhere : ∀ list ≠ .free k,
          Function.update lists (.free k) rest list = lists list :=
        fun list other => Function.update_of_ne other _ _
      have nextPassed : ∀ index < k,
          Function.update lists (.free k) rest (.free index) = [] := by
        intro index before
        rw [elsewhere _ (by simpa using Nat.ne_of_lt before)]
        exact passed index before
      obtain ⟨later, laterLists, laterLinks, steps, laterRested,
          laterRepresents, empty, kept⟩ :=
        induction nextRested nextRepresents nextPassed
          (Function.update_self ..)
      exact ⟨later, laterLists, laterLinks, takes.trans steps, laterRested,
        laterRepresents, empty, fun list other =>
          (kept list other).trans (elsewhere list other)⟩

theorem empties_first (thread : Thread) (home : layout.stripeOf ptr = 0)
    {count : Nat} (few : count ≤ mttLockStripes) (rested : Rested state)
    (represents : Chain.Represents state.pool.memory lists links) :
    ∃ later laterLists laterLinks,
      (lockedPool layout Thread).StepsBy (fun _ _ => True) state later ∧
      Rested later ∧
      Chain.Represents later.pool.memory laterLists laterLinks ∧
      (∀ index < count, laterLists (.free index) = []) ∧
      ∀ index ≥ count, laterLists (.free index) = lists (.free index) := by
  induction count with
  | zero => exact ⟨state, lists, links, .refl state, rested, represents,
      fun _ below => absurd below (Nat.not_lt_zero _), fun _ _ => rfl⟩
  | succ count induction =>
      obtain ⟨middle, middleLists, middleLinks, before, middleRested,
          middleRepresents, passed, kept⟩ :=
        induction (Nat.le_of_succ_le few)
      obtain ⟨later, laterLists, laterLinks, steps, laterRested,
          laterRepresents, empty, others⟩ :=
        empties_list thread home few middleRested middleRepresents passed
      refine ⟨later, laterLists, laterLinks, before.trans steps, laterRested,
        laterRepresents, ?_, ?_⟩
      · intro index below
        rcases Nat.lt_succ_iff_lt_or_eq.mp below with earlier | rfl
        · rw [others _ (by simpa using Nat.ne_of_lt earlier)]
          exact passed index earlier
        · exact empty
      · intro index above
        rw [others _ (by simpa using Nat.ne_of_gt above)]
        exact kept index (Nat.le_of_succ_le above)

theorem fail_eq {thread : Thread} {size k : Nat}
    (outside : state.phase thread = .outside)
    (turn : state.pc thread = turnPc ptr size (k + 1))
    (home : layout.stripeOf ptr = 0) (inside : k + 1 < mttLockStripes)
    (locked : state.owner (k + 1) ≠ none) :
    lockedNext state (.fail thread) =
      some (state.atPc thread (turnPc ptr size (k + 2))) := by
  have wanted : wantedStripe layout (state.pc thread) = some (k + 1) := by
    rw [turn, wantedStripe_turnPc home inside]
  have steal : isSteal (state.pc thread) = true := by
    rw [turn]
    rfl
  have pc : (state.pool.threads thread).pc = .steal ptr size (k + 1) := turn
  have stepped : poolNext state.pool (.step thread false) =
      some (state.atPc thread (turnPc ptr size (k + 2))).pool := by
    simp only [poolNext, poolStep, pc, if_pos inside]
    rfl
  simp only [lockedNext, wanted]
  rw [if_pos ⟨steal, locked⟩]
  exact outside_eq outside stepped

omit [DecidableEq Thread] in
theorem isFree_of_lists {memory : Chain.Memory PoolList layout.Slot}
    {slot : layout.Slot} {stripe : Nat}
    (represents : Chain.Represents memory lists links)
    (member : slot ∈ lists (.free stripe)) (below : stripe < mttLockStripes)
    (same : state.pool.memory = memory) : IsFree state slot := by
  refine ⟨stripe, below, lists (.free stripe), ?_, member⟩
  rw [same]
  exact represents.linked (.free stripe)

/-- A search over empty lists up to one whose lock is taken goes on behind
it. -/
theorem search_misses {thread : Thread} {size k : Nat}
    {guard : LockedPool layout Thread → LockedLabel layout Thread → Prop}
    (allowed : ∀ passed label, passed.pool.memory = state.pool.memory →
      (label = .fail thread →
        wantedStripe layout (passed.pc thread) = some (k + 1)) →
      guard passed label)
    (outside : state.phase thread = .outside)
    (home : layout.stripeOf ptr = 0) (inside : k + 1 < mttLockStripes)
    (passable : ∀ index < k + 1, state.owner index = none ∧
      state.pool.memory.head (.free index) = none)
    (locked : state.owner (k + 1) ≠ none) :
    (lockedPool layout Thread).StepsBy guard
      (state.atPc thread (turnPc ptr size 0))
      (state.atPc thread (turnPc ptr size (k + 2))) := by
  have searches := search_passes
    (show (state.atPc thread (turnPc ptr size 0)).phase thread = .outside
      from outside) (atPc_pc state thread _) home (Nat.le_of_lt inside)
    passable
  have fails := fail_eq
    (show (state.atPc thread (turnPc ptr size (k + 1))).phase thread =
      .outside from outside) (atPc_pc state thread _) home inside locked
  have wanted : wantedStripe layout
      ((state.atPc thread (turnPc ptr size (k + 1))).pc thread) =
        some (k + 1) := by
    rw [atPc_pc, wantedStripe_turnPc home inside]
  rw [atPc_atPc] at searches fails
  exact (searches.mono fun passed label here => allowed passed label here.1
    fun failing => absurd failing here.2).trans
      (oneStep (allowed _ _ rfl fun _ => wanted) fails)

/-- A thread comes to a list over empty ones and takes its lock. -/
theorem search_locks (thread : Thread) (home : layout.stripeOf ptr = 0)
    (size : Nat) {k : Nat} (inside : k < mttLockStripes)
    (rested : Rested state)
    (empty : ∀ index < k, state.pool.memory.head (.free index) = none) :
    (lockedPool layout Thread).StepsBy (fun _ _ => True) state
      ((state.atPc thread (turnPc ptr size k)).inside thread k) := by
  have wanted : wantedStripe layout
      ((state.atPc thread (turnPc ptr size k)).pc thread) = some k := by
    rw [atPc_pc, wantedStripe_turnPc home inside]
  have locks := lock_eq
    (show (state.atPc thread (turnPc ptr size k)).phase thread = .outside
      from rested.outside thread) wanted (rested.unlocked k)
  exact (search_reaches thread home size (Nat.le_of_lt inside) rested
    empty).trans (oneStep trivial locks)

/-- One thread empties all lists but the last and holds the lock of that; the
search of another thread passes the slots there. -/
theorem exists_missed_slot {first second : Thread}
    (different : second ≠ first) (home : layout.stripeOf ptr = 0)
    (size : Nat) (rested : Rested state)
    (represents : Chain.Represents state.pool.memory lists links)
    {slot : layout.Slot} (last : slot ∈ lists (.free 63)) :
    ∃ locked start later,
      (lockedPool layout Thread).StepsBy (fun _ _ => True) state locked ∧
      lockedNext locked (.entryNew second ptr size) = some start ∧
      SteadySteps (fun _ _ => True) slot start later ∧
      ReturnsNull (later.pc second) := by
  obtain ⟨emptied, emptiedLists, _, empties, quiet, emptiedRepresents, passed,
      kept⟩ := empties_first first home (by decide : 63 ≤ mttLockStripes)
        rested represents
  have empty : ∀ index < 63,
      emptied.pool.memory.head (.free index) = none := fun index below =>
    head_of_lists emptiedRepresents (passed index below)
  have locks := search_locks first home size
    (by decide : 63 < mttLockStripes) quiet empty
  let locked := (emptied.atPc first (turnPc ptr size 63)).inside first 63
  have outside : locked.phase second = .outside :=
    (inside_phase_of_ne different 63).trans (quiet.outside second)
  have idle : locked.pc second = .idle :=
    (atPc_pc_of_ne different _).trans (quiet.idle second)
  have unlocked : ∀ index < 63, locked.owner index = none :=
    fun index below => (inside_owner_of_ne (Nat.ne_of_lt below)).trans
      (quiet.unlocked index)
  have taken : locked.owner 63 ≠ none := by
    rw [inside_owner_self]
    exact Option.some_ne_none first
  have member : slot ∈ emptiedLists (.free 63) := by
    rw [kept 63 (Nat.le_refl 63)]
    exact last
  have free : ∀ passing : LockedPool layout Thread,
      passing.pool.memory = emptied.pool.memory → IsFree passing slot :=
    fun passing same =>
      isFree_of_lists emptiedRepresents member (by decide) same
  have steady : (lockedPool layout Thread).StepsBy
      (fun passing _ => True ∧ IsFree passing slot)
      (locked.atPc second (turnPc ptr size 0))
      (locked.atPc second (turnPc ptr size 64)) :=
    search_misses (fun passing _ same _ => ⟨trivial, free passing same⟩)
      outside home (by decide)
      (fun index below => ⟨unlocked index below, empty index below⟩) taken
  refine ⟨locked, locked.atPc second (turnPc ptr size 0), _,
    empties.trans locks, entryNew_eq outside idle ptr size,
    ⟨steady, free _ rfl⟩, ?_⟩
  rw [atPc_pc]
  exact Nat.le_refl 64

/-- One thread empties all lists but the last two and holds the lock of the
first of these; the search of another thread goes on behind it and takes a slot
from the last list. -/
theorem exists_found_slot {first second : Thread}
    (different : second ≠ first) (home : layout.stripeOf ptr = 0)
    (size : Nat) (rested : Rested state)
    (represents : Chain.Represents state.pool.memory lists links)
    {slot other : layout.Slot} {rest : List layout.Slot}
    (last : lists (.free 63) = other :: rest) (behind : slot ∈ rest) :
    ∃ locked start later,
      (lockedPool layout Thread).StepsBy (fun _ _ => True) state locked ∧
      locked.owner 62 = some first ∧
      lockedNext locked (.entryNew second ptr size) = some start ∧
      SteadySteps (TrylockMissesOthers second slot) slot start later ∧
      later.pc second = .idle := by
  obtain ⟨emptied, emptiedLists, emptiedLinks, empties, quiet,
      emptiedRepresents, passed, kept⟩ :=
    empties_first first home (by decide : 62 ≤ mttLockStripes) rested represents
  have empty : ∀ index < 62,
      emptied.pool.memory.head (.free index) = none := fun index below =>
    head_of_lists emptiedRepresents (passed index below)
  have locks := search_locks first home size
    (by decide : 62 < mttLockStripes) quiet empty
  let locked := (emptied.atPc first (turnPc ptr size 62)).inside first 62
  have outside : locked.phase second = .outside :=
    (inside_phase_of_ne different 62).trans (quiet.outside second)
  have idle : locked.pc second = .idle :=
    (atPc_pc_of_ne different _).trans (quiet.idle second)
  have unlocked : ∀ index ≠ 62, locked.owner index = none :=
    fun index elsewhere => (inside_owner_of_ne elsewhere).trans
      (quiet.unlocked index)
  have held : locked.owner 62 = some first := inside_owner_self 62
  have found : emptiedLists (.free 63) = other :: rest := by
    rw [kept 63 (by decide), last]
  have member : slot ∈ emptiedLists (.free 63) := by
    rw [found]
    exact List.mem_cons_of_mem other behind
  have free : ∀ passing : LockedPool layout Thread,
      passing.pool.memory = emptied.pool.memory → IsFree passing slot :=
    fun passing same =>
      isFree_of_lists emptiedRepresents member (by decide) same
  have misses : ∀ (passing : LockedPool layout Thread) label,
      passing.pool.memory = locked.pool.memory →
      (label = .fail second →
        wantedStripe layout (passing.pc second) = some 62) →
      TrylockMissesOthers second slot passing label ∧
        IsFree passing slot := by
    intro passing label same failing
    refine ⟨?_, free passing same⟩
    intro isFail index wanted onList
    rw [failing isFail, Option.some.injEq] at wanted
    subst wanted
    have placed := (emptiedRepresents.placed _ _).mp member
    have shape : Chain.Represents passing.pool.memory emptiedLists
        emptiedLinks := by
      rw [same]
      exact emptiedRepresents
    have there := (onFreeList_iff shape).mp onList
    rw [placed] at there
    cases there
  have taken62 : locked.owner 62 ≠ none := by
    rw [held]
    exact Option.some_ne_none first
  have searches : (lockedPool layout Thread).StepsBy
      (fun passing label => TrylockMissesOthers second slot passing label ∧
        IsFree passing slot)
      (locked.atPc second (turnPc ptr size 0))
      (locked.atPc second (turnPc ptr size 63)) :=
    search_misses misses outside home (by decide)
      (fun index below => ⟨unlocked index (Nat.ne_of_lt below),
        empty index below⟩) taken62
  obtain ⟨memory, taken, after⟩ := takeFree_of_lists emptiedRepresents found
  obtain ⟨others, same, _, popped⟩ := emptiedRepresents.pop taken
  obtain rfl := (List.cons.inj (found.symm.trans same)).2
  have stillMember : slot ∈
      Function.update emptiedLists (.free 63) rest (.free 63) := by
    rw [Function.update_self]
    exact behind
  have allowed : ∀ (passing : LockedPool layout Thread) label,
      label ≠ .fail second →
      passing.pool.memory =
          (locked.atPc second (turnPc ptr size 63)).pool.memory ∨
        passing.pool.memory = memory →
      TrylockMissesOthers second slot passing label ∧
        IsFree passing slot := by
    intro passing label notFailing within
    refine ⟨fun isFail => absurd isFail notFailing, ?_⟩
    rcases within with before | took
    · exact free passing before
    · exact isFree_of_lists popped stillMember (by decide) took
  obtain ⟨pool, takes, memoryEq, ready, threads⟩ := takes_slot allowed outside
    (atPc_pc locked second _) home (by decide) (unlocked 63 (by decide)) taken
  refine ⟨locked, locked.atPc second (turnPc ptr size 0), _,
    empties.trans locks, held, entryNew_eq outside idle ptr size,
    ⟨searches.trans takes, isFree_of_lists after stillMember (by decide)
      memoryEq⟩, ?_⟩
  rw [LockedPool.pc, threads, Function.update_self]

end

/-- A pool that `mtt_ensure_init` has just set up. -/
def newPool (layout : PoolLayout) (Thread : Type) :
    LockedPool layout Thread :=
  { pool :=
      { memory := initFreeLists ⟨fun _ => none, fun _ => none⟩
        entry := fun _ => ⟨0, 0, 0⟩
        poolUsed := 0
        entryCount := 0
        threads := fun _ => ⟨.idle, []⟩ }
    owner := fun _ => none
    phase := fun _ => .outside }

theorem newPool_init :
    (lockedPool layout Thread).init (newPool layout Thread) :=
  ⟨⟨⟨fun _ => none, rfl⟩, rfl, rfl, fun _ => rfl⟩, fun _ => rfl, fun _ => rfl⟩

omit [DecidableEq Thread] in
theorem newPool_rested : Rested (newPool layout Thread) :=
  ⟨fun _ => rfl, fun _ => rfl, fun _ => rfl⟩

omit [DecidableEq Thread] in
theorem newPool_represents (layout : PoolLayout) (Thread : Type) :
    ∃ lists links,
      Chain.Represents (newPool layout Thread).pool.memory lists links ∧
        ∀ slot : layout.Slot,
          slot ∈ lists (.free (slot.val % mttLockStripes)) := by
  obtain ⟨lists, represents⟩ := initFreeLists_represents Thread
    (fun _ : layout.Slot => none)
  exact ⟨lists, _, represents, fun slot => (represents.placed _ _).mpr rfl⟩

/-- The smallest pool that `MTT_POOL_ENTRIES` can ask for. -/
def leastPool : PoolLayout :=
  { base := 1048576
    entrySize := 560
    capacity := 1024
    hashSeed := 0 }

def lastSlot : leastPool.Slot := ⟨63, by decide⟩

def otherLastSlot : leastPool.Slot := ⟨127, by decide⟩

/-- A call whose `trylock` fails on stripe 62 ends with a slot of stripe 63,
where another slot stays free. -/
theorem entryNew_finds_slot_leastPool :
    ∃ (state start later : LockedPool leastPool Worker) (slot : leastPool.Slot),
      state.owner 62 = some .first ∧
      lockedNext state (.entryNew .second 4096 16) = some start ∧
      IsFree later slot ∧ later.pc .second = .idle ∧
      ¬ ReturnsNull (later.pc .second) := by
  obtain ⟨lists, links, represents, placed⟩ :=
    newPool_represents leastPool Worker
  have different : Worker.second ≠ Worker.first := by decide
  have home : leastPool.stripeOf 4096 = 0 := by decide
  have last : lastSlot ∈ lists (.free 63) := placed lastSlot
  have otherLast : otherLastSlot ∈ lists (.free 63) := placed otherLastSlot
  obtain ⟨other, rest, cells⟩ :=
    List.exists_cons_of_ne_nil (List.ne_nil_of_mem last)
  obtain ⟨slot, behind⟩ : ∃ slot, slot ∈ rest := by
    rw [cells, List.mem_cons] at last otherLast
    rcases last with rfl | behind
    · rcases otherLast with same | behind
      · exact absurd same (by decide)
      · exact ⟨otherLastSlot, behind⟩
    · exact ⟨lastSlot, behind⟩
  obtain ⟨state, start, later, steps, held, called, steady, idle⟩ :=
    exists_found_slot different home 16 newPool_rested represents cells behind
  exact ⟨state, start, later, slot, held, called, steady.2, idle,
    entryNew_finds_slot (System.ReachableBy.extend (.start newPool_init) steps)
      called steady⟩

/-- A thread holds the lock of the only list that is not empty; the call of
another returns NULL, with a slot in that list all the time. -/
theorem entryNew_misses_slot :
    ∃ (state start later : LockedPool leastPool Worker) (slot : leastPool.Slot),
      (lockedPool leastPool Worker).Reachable state ∧
      lockedNext state (.entryNew .second 4096 16) = some start ∧
      SteadySteps (fun _ _ => True) slot start later ∧
      ReturnsNull (later.pc .second) := by
  obtain ⟨lists, links, represents, placed⟩ :=
    newPool_represents leastPool Worker
  have last : lastSlot ∈ lists (.free 63) := placed lastSlot
  have different : Worker.second ≠ Worker.first := by decide
  have home : leastPool.stripeOf 4096 = 0 := by decide
  obtain ⟨state, start, later, steps, called, steady, null⟩ :=
    exists_missed_slot different home 16 newPool_rested represents last
  exact ⟨state, start, later, lastSlot,
    System.ReachableBy.extend (.start newPool_init) steps, called,
    steady, null⟩

end MemoryTraceTool.PoolTrylock
