import MemoryTraceTool.EntryTable
import MemoryTraceTool.Lib.Transition
import MemoryTraceTool.Sampling

/-!
# Interleaved allocation hooks

Threads call the malloc, free and realloc hooks on the tracked path.  A locked
section of a hook and a call of the raw allocator are one step each, so a
thread may be delayed between any two of them.  The ghost `grants` says which
blocks libc has handed out, what was asked for, and who may use them.
-/

namespace MemoryTraceTool

open Transition

def sizeMax : Nat := 2 ^ 64 - 1

/-- A call of a hook.  String functions are given by the length they found. -/
inductive HookCall where
  | malloc (size : Nat)
  | calloc (count size : Nat)
  | realloc (ptr : Word) (size : Nat)
  | reallocarray (ptr : Word) (count size : Nat)
  | strdup (length : Nat)
  | strndup (length limit : Nat)
  | vasprintf (length : Nat)
  | free (ptr : Word)
  deriving DecidableEq, Repr

/-- What a call comes down to once its arguments are examined. -/
inductive HookRequest where
  | nothing
  | alloc (size : Nat)
  | release (ptr : Word)
  | resize (ptr : Word) (size : Nat)
  deriving DecidableEq, Repr

/-- The product of an array size, unless it overflows. -/
def arraySize (count size : Nat) : Option Nat :=
  if 0 < count ∧ sizeMax / count < size then none else some (count * size)

/-- What the arguments of `realloc` ask for. -/
def HookRequest.ofRealloc (ptr : Word) (size : Nat) : HookRequest :=
  if ptr = 0 then .alloc size
  else if size = 0 then .release ptr
  else .resize ptr size

/-- The wrappers reach malloc and realloc with a computed size. -/
def HookCall.request : HookCall → HookRequest
  | .malloc size => .alloc size
  | .calloc count size =>
      match arraySize count size with
      | none => .nothing
      | some total => .alloc total
  | .realloc ptr size => .ofRealloc ptr size
  | .reallocarray ptr count size =>
      match arraySize count size with
      | none => .nothing
      | some total => .ofRealloc ptr total
  | .strdup length => .alloc (length + 1)
  | .strndup length limit => .alloc (min length limit + 1)
  | .vasprintf length => .alloc (length + 1)
  | .free ptr => if ptr = 0 then .nothing else .release ptr

/-- Where a thread stands in a hook.  The steps from `capacity` on record a
block and are shared by malloc and realloc. -/
inductive HookPc where
  | idle
  | mallocRaw (size : Nat)
  | sample (ptr : Word) (size : Nat)
  | subtract (ptr : Word) (size : Nat)
  | capacity (ptr : Word) (size : Nat)
  | entryNew (ptr : Word) (size : Nat)
  | insert (ptr : Word) (size : Nat)
  | freeRemove (ptr : Word)
  | freeRaw (ptr : Word)
  | reallocFind (ptr : Word) (size : Nat)
  | reallocRaw (ptr : Word) (size : Nat) (found : Bool)
  | reallocRemove (old new : Word) (size : Nat)
  deriving DecidableEq, Repr

/-- Ghost record of a block libc has handed out: the size asked for by the
call that returned it, the sequence number that call took, and the thread
whose call is in flight on it, or `none` when the application has it. -/
structure Grant (Thread : Type) where
  size : Nat
  allocNum : Option Nat
  owner : Option Thread

/-- The table and the sampler, what libc has granted to whom, and the calls in
flight. -/
structure HookState (Thread : Type) where
  table : EntryTable
  allocSeq : Nat
  sampler : Sampler
  grants : Word → Option (Grant Thread)
  threads : Thread → HookPc

/-- A call, an answer of libc, an answer of `mtt_entry_new`, or a step of a
hook. -/
inductive HookLabel (Thread : Type) where
  | call (thread : Thread) (call : HookCall)
  | raw (thread : Thread) (reply : Option Word)
  | entryNew (thread : Thread) (succeeds : Bool)
  | step (thread : Thread)

variable {Thread : Type} [DecidableEq Thread]

namespace HookState

def setThread (state : HookState Thread) (thread : Thread) (pc : HookPc) :
    HookState Thread :=
  { state with threads := Function.update state.threads thread pc }

omit [DecidableEq Thread] in
def setGrant (state : HookState Thread) (ptr : Word)
    (grant : Option (Grant Thread)) : HookState Thread :=
  { state with grants := Function.update state.grants ptr grant }

omit [DecidableEq Thread] in
/-- Pass a block from the application to a call or back. -/
def handOver (state : HookState Thread) (ptr : Word)
    (owner : Option Thread) : HookState Thread :=
  state.setGrant ptr
    ((state.grants ptr).map fun grant => { grant with owner := owner })

/-- The call returns and the application has the block. -/
def finish (state : HookState Thread) (thread : Thread) (ptr : Word) :
    HookState Thread :=
  (state.handOver ptr none).setThread thread .idle

omit [DecidableEq Thread] in
/-- The application has the block and no call is in flight on it. -/
def usable (state : HookState Thread) (ptr : Word) : Bool :=
  match state.grants ptr with
  | some grant => grant.owner.isNone
  | none => false

omit [DecidableEq Thread] in
/-- libc may return any address that is not allocated. -/
def available (state : HookState Thread) (ptr : Word) : Bool :=
  ptr != 0 && (state.grants ptr).isNone

end HookState

/-- A thread enters a hook. -/
def hookEnter (state : HookState Thread) (thread : Thread) :
    HookRequest → Option (HookState Thread)
  | .nothing => some state
  | .alloc size => some (state.setThread thread (.mallocRaw size))
  | .release ptr =>
      if state.usable ptr then
        some ((state.handOver ptr (some thread)).setThread thread
          (.freeRemove ptr))
      else none
  | .resize ptr size =>
      if state.usable ptr then
        some ((state.handOver ptr (some thread)).setThread thread
          (.reallocFind ptr size))
      else none

/-- `raw_malloc` or `raw_realloc` returns. -/
def hookRaw (state : HookState Thread) (thread : Thread)
    (reply : Option Word) : Option (HookState Thread) :=
  match state.threads thread, reply with
  | .mallocRaw _, none => some (state.setThread thread .idle)
  | .mallocRaw size, some ptr =>
      if state.available ptr then
        if size = 0 then
          some ((state.setGrant ptr (some ⟨0, none, none⟩)).setThread thread
            .idle)
        else
          some ((state.setGrant ptr (some ⟨size, none, some thread⟩)).setThread
            thread (.sample ptr size))
      else none
  | .reallocRaw ptr _ _, none => some (state.finish thread ptr)
  | .reallocRaw ptr size found, some new =>
      if new = ptr ∨ state.available new then
        let moved :=
          (state.setGrant ptr none).setGrant new
            (some ⟨size, none, if found then some thread else none⟩)
        some (moved.setThread thread
          (if found then .reallocRemove ptr new size else .idle))
      else none
  | _, _ => none

/-- The locked section that records a block, unless the table is full. -/
def hookInsert (state : HookState Thread) (thread : Thread) (ptr : Word)
    (size : Nat) : HookState Thread :=
  if mttIsOverCapacity state.table then state.finish thread ptr
  else
    let allocNum := state.allocSeq + 1
    let recorded : HookState Thread :=
      { state with
        allocSeq := allocNum
        table := mttEntryAdd state.table ⟨ptr, size, allocNum⟩ }
    (recorded.setGrant ptr ((state.grants ptr).map fun grant =>
      { grant with allocNum := some allocNum, owner := none })).setThread
        thread .idle

/-- The next step of a hook that waits for nobody. -/
def hookStep (state : HookState Thread) (thread : Thread) :
    Option (HookState Thread) :=
  match state.threads thread with
  | .sample ptr size =>
      let (verdict, sampler) := mttShouldTrackEnter state.sampler size
      let sampled : HookState Thread := { state with sampler := sampler }
      some (match verdict with
        | .track => sampled.setThread thread (.capacity ptr size)
        | .trackAndSubtract => sampled.setThread thread (.subtract ptr size)
        | .skip => sampled.finish thread ptr)
  | .subtract ptr size =>
      let subtracted : HookState Thread :=
        { state with sampler := state.sampler.subtractStep }
      some (subtracted.setThread thread (.capacity ptr size))
  | .capacity ptr size =>
      some (if mttIsOverCapacity state.table then state.finish thread ptr
        else state.setThread thread (.entryNew ptr size))
  | .insert ptr size => some (hookInsert state thread ptr size)
  | .freeRemove ptr =>
      let removed : HookState Thread :=
        { state with table := mttEntryRemove state.table ptr }
      some (removed.setThread thread (.freeRaw ptr))
  | .freeRaw ptr =>
      some ((state.setGrant ptr none).setThread thread .idle)
  | .reallocFind ptr size =>
      some (state.setThread thread
        (.reallocRaw ptr size (mttEntryFind state.table ptr).isSome))
  | .reallocRemove old new size =>
      let removed : HookState Thread :=
        { state with table := mttEntryRemove state.table old }
      some (removed.setThread thread (.capacity new size))
  | .idle | .mallocRaw _ | .entryNew _ _ | .reallocRaw _ _ _ => none

/-- The hooks of all threads interleave step by step. -/
def hookNext (state : HookState Thread) :
    HookLabel Thread → Option (HookState Thread)
  | .call thread call =>
      if state.threads thread = .idle then
        hookEnter state thread call.request
      else none
  | .raw thread reply => hookRaw state thread reply
  | .entryNew thread succeeds =>
      match state.threads thread with
      | .entryNew ptr size =>
          some (if succeeds then state.setThread thread (.insert ptr size)
            else state.finish thread ptr)
      | _ => none
  | .step thread => hookStep state thread

/-- Any number of threads calling the hooks, starting with an empty table and
no block handed out, whatever the sampling setting. -/
def hookSystem (Thread : Type) [DecidableEq Thread] :
    System (HookState Thread) (HookLabel Thread) where
  init := fun state =>
    (∃ seed, state.table = EntryTable.empty seed) ∧ state.allocSeq = 0 ∧
      (∀ ptr, state.grants ptr = none) ∧
      ∀ thread, state.threads thread = .idle
  next := hookNext

/-- The next step of the pc records an address that already has an entry. -/
def HookPc.recordsAgain (table : EntryTable) : HookPc → Bool
  | .insert ptr _ => (mttEntryFind table ptr).isSome
  | _ => false

/-- An entry is recorded only for an address that has no entry. -/
def InsertsFresh (state : HookState Thread) : HookLabel Thread → Prop
  | .step thread => (state.threads thread).recordsAgain state.table = false
  | .call _ _ | .raw _ _ | .entryNew _ _ => True

instance (state : HookState Thread) (label : HookLabel Thread) :
    Decidable (InsertsFresh state label) :=
  match label with
  | .step thread =>
      inferInstanceAs (Decidable ((state.threads thread).recordsAgain
        state.table = false))
  | .call _ _ | .raw _ _ | .entryNew _ _ => isTrue trivial

/-! ## Who holds a block, and which entries are about to be removed -/

omit [DecidableEq Thread] in
/-- The block is in the hands of a call of the thread. -/
def Held (state : HookState Thread) (thread : Thread) (ptr : Word) : Prop :=
  ∃ grant, state.grants ptr = some grant ∧ grant.owner = some thread

/-- What a thread inside a hook may rely on. -/
def PcFacts (state : HookState Thread) (thread : Thread) : HookPc → Prop
  | .idle | .mallocRaw _ => True
  | .sample ptr size | .subtract ptr size | .capacity ptr size
  | .entryNew ptr size | .insert ptr size | .reallocRemove _ ptr size =>
      state.grants ptr = some ⟨size, none, some thread⟩
  | .freeRemove ptr | .reallocFind ptr _ => Held state thread ptr
  | .freeRaw ptr =>
      Held state thread ptr ∧ mttEntryFind state.table ptr = none
  | .reallocRaw ptr _ found =>
      Held state thread ptr ∧
        (found = false → mttEntryFind state.table ptr = none)

/-- The entry records the call that returned the block. -/
def Matches (state : HookState Thread) (ptr : Word) (entry : MttEntry) :
    Prop :=
  ∃ grant, state.grants ptr = some grant ∧ grant.size = entry.size ∧
    grant.allocNum = some entry.allocNum

/-- A realloc has given the address up and will look it up again. -/
def HookPc.removes (pc : HookPc) (ptr : Word) : Prop :=
  ∃ new size, pc = .reallocRemove ptr new size

theorem HookPc.not_removes {pc : HookPc}
    (other : ∀ old new size, pc ≠ .reallocRemove old new size) (ptr : Word) :
    ¬ pc.removes ptr := by
  intro removes
  obtain ⟨new, size, same⟩ := removes
  exact other ptr new size same

/-- What holds between the steps of all hooks. -/
structure HookInvariant (state : HookState Thread) : Prop where
  table : state.table.WellFormed
  null : state.grants 0 = none
  facts : ∀ thread, PcFacts state thread (state.threads thread)
  entries : ∀ ptr entry, mttEntryFind state.table ptr = some entry →
    Matches state ptr entry ∨ ∃ thread, (state.threads thread).removes ptr

omit [DecidableEq Thread] in
theorem PcFacts.frame {state target : HookState Thread} {other : Thread}
    {pc : HookPc} (facts : PcFacts state other pc)
    (grants : ∀ ptr grant, state.grants ptr = some grant →
      grant.owner = some other → target.grants ptr = some grant)
    (absent : ∀ ptr, Held state other ptr →
      mttEntryFind state.table ptr = none →
      mttEntryFind target.table ptr = none) :
    PcFacts target other pc := by
  have held : ∀ ptr, Held state other ptr → Held target other ptr := by
    rintro ptr ⟨grant, granted, owner⟩
    exact ⟨grant, grants ptr grant granted owner, owner⟩
  cases pc with
  | idle | mallocRaw => trivial
  | sample | subtract | capacity | entryNew | insert | reallocRemove =>
      exact grants _ _ facts rfl
  | freeRemove | reallocFind => exact held _ facts
  | freeRaw ptr =>
      exact ⟨held ptr facts.1, absent ptr facts.1 facts.2⟩
  | reallocRaw ptr size found =>
      exact ⟨held ptr facts.1,
        fun missed => absent ptr facts.1 (facts.2 missed)⟩

omit [DecidableEq Thread] in
/-- No other thread's call is in flight on the block. -/
def Touchable (state : HookState Thread) (thread : Thread) (ptr : Word) :
    Prop :=
  ∀ grant, state.grants ptr = some grant →
    grant.owner = none ∨ grant.owner = some thread

omit [DecidableEq Thread] in
theorem Held.touchable {state : HookState Thread} {thread : Thread}
    {ptr : Word} (held : Held state thread ptr) :
    Touchable state thread ptr := by
  obtain ⟨grant, granted, owner⟩ := held
  intro other same
  rw [granted, Option.some.injEq] at same
  exact Or.inr (same ▸ owner)

omit [DecidableEq Thread] in
theorem Touchable.of_free {state : HookState Thread} {ptr : Word}
    (free : state.grants ptr = none) (thread : Thread) :
    Touchable state thread ptr := by
  intro grant granted
  rw [free] at granted
  contradiction

/-- What a step of one thread has to keep for the invariant to hold again. -/
structure StepKeeps (state target : HookState Thread) (thread : Thread)
    (pc : HookPc) : Prop where
  threads : target.threads = Function.update state.threads thread pc
  table : target.table.WellFormed
  null : target.grants 0 = none
  facts : PcFacts target thread pc
  grants : ∀ ptr, target.grants ptr = state.grants ptr ∨
    Touchable state thread ptr
  absent : ∀ ptr, mttEntryFind state.table ptr = none →
    mttEntryFind target.table ptr = none ∨ Touchable state thread ptr
  entries : ∀ ptr entry, mttEntryFind target.table ptr = some entry →
    Matches target ptr entry ∨ pc.removes ptr ∨
      ∃ other, other ≠ thread ∧ (state.threads other).removes ptr

theorem HookInvariant.of_stepKeeps {state target : HookState Thread}
    {thread : Thread} {pc : HookPc} (invariant : HookInvariant state)
    (keeps : StepKeeps state target thread pc) : HookInvariant target := by
  refine ⟨keeps.table, keeps.null, ?_, ?_⟩
  · intro other
    rcases moved_cases keeps.threads other with ⟨rfl, here⟩ | ⟨same, here⟩
    · rw [here]
      exact keeps.facts
    · rw [here]
      have untouched : ∀ ptr, Held state other ptr →
          ¬ Touchable state thread ptr := by
        rintro ptr ⟨grant, granted, owner⟩ touchable
        rcases touchable grant granted with application | own
        · simp [application] at owner
        · rw [owner, Option.some.injEq] at own
          exact same own
      apply (invariant.facts other).frame
      · intro ptr grant granted owner
        have held : Held state other ptr := ⟨grant, granted, owner⟩
        rw [(keeps.grants ptr).resolve_right (untouched ptr held), granted]
      · intro ptr held missing
        exact (keeps.absent ptr missing).resolve_right (untouched ptr held)
  · intro ptr entry found
    rcases keeps.entries ptr entry found with matching | removing | pending
    · exact Or.inl matching
    · refine Or.inr ⟨thread, ?_⟩
      rwa [keeps.threads, Function.update_self]
    · obtain ⟨other, different, removing⟩ := pending
      refine Or.inr ⟨other, ?_⟩
      rwa [keeps.threads, Function.update_of_ne different]

/-- A step that leaves the table alone, made by a thread that was not about to
remove an entry. -/
theorem HookInvariant.sameTable {state target : HookState Thread}
    {thread : Thread} {pc : HookPc} (invariant : HookInvariant state)
    (quiet : ∀ ptr, ¬ (state.threads thread).removes ptr)
    (threads : target.threads = Function.update state.threads thread pc)
    (table : target.table = state.table) (null : target.grants 0 = none)
    (facts : PcFacts target thread pc)
    (grants : ∀ ptr, target.grants ptr = state.grants ptr ∨
      Touchable state thread ptr)
    (kept : ∀ ptr entry, mttEntryFind state.table ptr = some entry →
      Matches state ptr entry → Matches target ptr entry ∨ pc.removes ptr) :
    HookInvariant target := by
  refine invariant.of_stepKeeps ⟨threads, ?_, null, facts, grants, ?_, ?_⟩
  · rw [table]
    exact invariant.table
  · intro ptr missing
    rw [table]
    exact Or.inl missing
  · intro ptr entry found
    rw [table] at found
    rcases invariant.entries ptr entry found with matching | pending
    · rcases kept ptr entry found matching with still | removing
      · exact Or.inl still
      · exact Or.inr (Or.inl removing)
    · obtain ⟨other, removing⟩ := pending
      refine Or.inr (Or.inr ⟨other, ?_, removing⟩)
      intro same
      exact quiet ptr (same ▸ removing)

/-- Only the program counter, the sampler or the sequence number changes. -/
theorem HookInvariant.moves {state target : HookState Thread}
    {thread : Thread} {pc : HookPc} (invariant : HookInvariant state)
    (quiet : ∀ ptr, ¬ (state.threads thread).removes ptr)
    (threads : target.threads = Function.update state.threads thread pc)
    (table : target.table = state.table)
    (grants : target.grants = state.grants)
    (facts : PcFacts target thread pc) : HookInvariant target := by
  refine invariant.sameTable quiet threads table ?_ facts ?_ ?_
  · rw [grants]
    exact invariant.null
  · intro ptr
    rw [grants]
    exact Or.inl rfl
  · rintro ptr entry _ ⟨grant, granted, same⟩
    exact Or.inl ⟨grant, grants ▸ granted, same⟩

omit [DecidableEq Thread] in
theorem HookState.handOver_same (state : HookState Thread) {ptr : Word}
    {grant : Grant Thread} (granted : state.grants ptr = some grant)
    (owner : Option Thread) :
    (state.handOver ptr owner).grants ptr =
      some { grant with owner := owner } := by
  simp [HookState.handOver, HookState.setGrant, granted]

omit [DecidableEq Thread] in
theorem HookState.handOver_other (state : HookState Thread) {ptr other : Word}
    (different : other ≠ ptr) (owner : Option Thread) :
    (state.handOver ptr owner).grants other = state.grants other := by
  simp [HookState.handOver, HookState.setGrant, different]

omit [DecidableEq Thread] in
theorem HookState.handOver_none (state : HookState Thread) {ptr : Word}
    (free : state.grants ptr = none) (other : Word)
    (owner : Option Thread) :
    (state.handOver other owner).grants ptr = none := by
  by_cases here : ptr = other
  · subst here
    simp [HookState.handOver, HookState.setGrant, free]
  · rw [state.handOver_other here, free]

omit [DecidableEq Thread] in
theorem Matches.handOver {state : HookState Thread} {ptr : Word}
    {entry : MttEntry} (matching : Matches state ptr entry) (other : Word)
    (owner : Option Thread) :
    Matches (state.handOver other owner) ptr entry := by
  obtain ⟨grant, granted, same⟩ := matching
  by_cases here : ptr = other
  · subst here
    exact ⟨_, state.handOver_same granted owner, same⟩
  · exact ⟨grant, (state.handOver_other here owner).trans granted, same⟩

theorem HookInvariant.handsOver {state target : HookState Thread}
    {thread : Thread} {pc : HookPc} {ptr : Word} {owner : Option Thread}
    (invariant : HookInvariant state)
    (quiet : ∀ other, ¬ (state.threads thread).removes other)
    (touchable : Touchable state thread ptr)
    (threads : target.threads = Function.update state.threads thread pc)
    (table : target.table = state.table)
    (grants : target.grants = (state.handOver ptr owner).grants)
    (facts : PcFacts target thread pc) : HookInvariant target := by
  refine invariant.sameTable quiet threads table ?_ facts ?_ ?_
  · rw [grants]
    exact state.handOver_none invariant.null ptr owner
  · intro other
    by_cases here : other = ptr
    · exact Or.inr (here ▸ touchable)
    · rw [grants, state.handOver_other here]
      exact Or.inl rfl
  · intro other entry _ matching
    obtain ⟨grant, granted, same⟩ := matching.handOver ptr owner
    exact Or.inl ⟨grant, grants ▸ granted, same⟩

/-! ## The steps -/

theorem HookInvariant.finish {state target : HookState Thread}
    {thread : Thread} {ptr : Word} (invariant : HookInvariant state)
    (quiet : ∀ other, ¬ (state.threads thread).removes other)
    (held : Held state thread ptr)
    (threads : target.threads = Function.update state.threads thread .idle)
    (table : target.table = state.table)
    (grants : target.grants = (state.handOver ptr none).grants) :
    HookInvariant target :=
  invariant.handsOver quiet held.touchable threads table grants trivial

theorem HookInvariant.enter {state target : HookState Thread}
    {thread : Thread} {request : HookRequest}
    (invariant : HookInvariant state)
    (idle : state.threads thread = .idle)
    (taken : hookEnter state thread request = some target) :
    HookInvariant target := by
  have quiet : ∀ ptr, ¬ (state.threads thread).removes ptr :=
    HookPc.not_removes (by simp [idle])
  have entered : ∀ ptr pc, state.usable ptr = true →
      (∀ grant, state.grants ptr = some grant →
        PcFacts (state.handOver ptr (some thread)) thread pc) →
      HookInvariant ((state.handOver ptr (some thread)).setThread thread
        pc) := by
    intro ptr pc usable facts
    unfold HookState.usable at usable
    split at usable
    · rename_i grant granted
      have touchable : Touchable state thread ptr := by
        intro other same
        rw [granted, Option.some.injEq] at same
        exact Or.inl (same ▸ Option.isNone_iff_eq_none.mp usable)
      exact invariant.handsOver quiet touchable rfl rfl rfl
        (facts grant granted)
    · contradiction
  cases request with
  | nothing =>
      simp only [hookEnter, Option.some.injEq] at taken
      exact taken ▸ invariant
  | alloc size =>
      simp only [hookEnter, Option.some.injEq] at taken
      subst taken
      exact invariant.moves quiet rfl rfl rfl trivial
  | release ptr =>
      simp only [hookEnter, Option.ite_none_right_eq_some,
        Option.some.injEq] at taken
      obtain ⟨usable, rfl⟩ := taken
      apply entered ptr _ usable
      intro grant granted
      exact ⟨_, state.handOver_same granted _, rfl⟩
  | resize ptr size =>
      simp only [hookEnter, Option.ite_none_right_eq_some,
        Option.some.injEq] at taken
      obtain ⟨usable, rfl⟩ := taken
      apply entered ptr _ usable
      intro grant granted
      exact ⟨_, state.handOver_same granted _, rfl⟩

omit [DecidableEq Thread] in
theorem HookState.available_spec {state : HookState Thread} {ptr : Word}
    (available : state.available ptr = true) :
    ptr ≠ 0 ∧ state.grants ptr = none := by
  unfold HookState.available at available
  rw [Bool.and_eq_true, bne_iff_ne, Option.isNone_iff_eq_none] at available
  exact available

omit [DecidableEq Thread] in
theorem HookState.setGrant_other (state : HookState Thread)
    {ptr other : Word} (different : other ≠ ptr)
    (grant : Option (Grant Thread)) :
    (state.setGrant ptr grant).grants other = state.grants other := by
  simp [HookState.setGrant, different]

omit [DecidableEq Thread] in
@[simp] theorem HookState.setGrant_same (state : HookState Thread)
    (ptr : Word) (grant : Option (Grant Thread)) :
    (state.setGrant ptr grant).grants ptr = grant := by
  simp [HookState.setGrant]

omit [DecidableEq Thread] in
theorem Matches.setGrant {state : HookState Thread} {ptr other : Word}
    {entry : MttEntry} (matching : Matches state ptr entry)
    (different : ptr ≠ other) (grant : Option (Grant Thread)) :
    Matches (state.setGrant other grant) ptr entry := by
  obtain ⟨old, granted, same⟩ := matching
  exact ⟨old, (state.setGrant_other different grant).trans granted, same⟩

theorem HookInvariant.grants_new {state : HookState Thread} {thread : Thread}
    {pc : HookPc} {ptr : Word} {grant : Grant Thread}
    (invariant : HookInvariant state)
    (quiet : ∀ other, ¬ (state.threads thread).removes other)
    (available : state.available ptr = true)
    (facts : PcFacts (state.setGrant ptr (some grant)) thread pc) :
    HookInvariant ((state.setGrant ptr (some grant)).setThread thread pc) := by
  obtain ⟨nonNull, free⟩ := HookState.available_spec available
  refine invariant.sameTable quiet rfl rfl ?_ facts ?_ ?_
  · exact (state.setGrant_other nonNull.symm _).trans invariant.null
  · intro other
    by_cases here : other = ptr
    · exact Or.inr (here ▸ Touchable.of_free free thread)
    · exact Or.inl (state.setGrant_other here _)
  · intro other entry _ matching
    refine Or.inl (matching.setGrant ?_ _)
    intro same
    obtain ⟨old, granted, _⟩ := matching
    rw [same, free] at granted
    contradiction

theorem HookInvariant.moves_block {state : HookState Thread} {thread : Thread}
    {ptr new : Word} {size : Nat} {found : Bool}
    (invariant : HookInvariant state)
    (pc : state.threads thread = .reallocRaw ptr size found)
    (placed : new = ptr ∨ state.available new = true) :
    HookInvariant
      (((state.setGrant ptr none).setGrant new
        (some ⟨size, none, if found then some thread else none⟩)).setThread
          thread (if found then .reallocRemove ptr new size else .idle)) := by
  have quiet : ∀ other, ¬ (state.threads thread).removes other :=
    HookPc.not_removes (by simp [pc])
  have facts := invariant.facts thread
  rw [pc] at facts
  obtain ⟨held, missed⟩ := facts
  have nonNull : ptr ≠ 0 := by
    rintro rfl
    obtain ⟨grant, granted, _⟩ := held
    rw [invariant.null] at granted
    contradiction
  have newFree : new ≠ ptr → new ≠ 0 ∧ state.grants new = none :=
    fun different =>
      HookState.available_spec (placed.resolve_left different)
  have newNonNull : new ≠ 0 := by
    by_cases here : new = ptr
    · exact here ▸ nonNull
    · exact (newFree here).1
  refine invariant.sameTable quiet rfl rfl ?_ ?_ ?_ ?_
  · change ((state.setGrant ptr none).setGrant new _).grants 0 = none
    rw [HookState.setGrant_other _ newNonNull.symm,
      HookState.setGrant_other _ nonNull.symm, invariant.null]
  · cases found with
    | true => exact HookState.setGrant_same _ _ _
    | false => trivial
  · intro other
    by_cases here : other = ptr
    · exact Or.inr (here ▸ held.touchable)
    · by_cases there : other = new
      · have free := (newFree (there ▸ here)).2
        exact Or.inr (there ▸ Touchable.of_free free thread)
      · refine Or.inl ?_
        exact (HookState.setGrant_other _ there _).trans
          (HookState.setGrant_other _ here _)
  · intro other entry entryFound matching
    by_cases here : other = ptr
    · subst here
      cases found with
      | true => exact Or.inr ⟨new, size, rfl⟩
      | false =>
          rw [missed rfl] at entryFound
          contradiction
    · refine Or.inl ?_
      refine (matching.setGrant here none).setGrant ?_ _
      rintro rfl
      obtain ⟨old, granted, _⟩ := matching
      rw [(newFree here).2] at granted
      contradiction

theorem HookInvariant.raw {state target : HookState Thread} {thread : Thread}
    {reply : Option Word} (invariant : HookInvariant state)
    (taken : hookRaw state thread reply = some target) :
    HookInvariant target := by
  have facts := invariant.facts thread
  cases pc : state.threads thread with
  | mallocRaw size =>
      have quiet : ∀ ptr, ¬ (state.threads thread).removes ptr :=
        HookPc.not_removes (by simp [pc])
      cases reply with
      | none =>
          simp only [hookRaw, pc, Option.some.injEq] at taken
          subst taken
          exact invariant.moves quiet rfl rfl rfl trivial
      | some ptr =>
          simp only [hookRaw, pc, Option.ite_none_right_eq_some] at taken
          obtain ⟨available, taken⟩ := taken
          split at taken
          · rw [Option.some.injEq] at taken
            subst taken
            exact invariant.grants_new quiet available trivial
          · rw [Option.some.injEq] at taken
            subst taken
            exact invariant.grants_new quiet available
              (HookState.setGrant_same _ _ _)
  | reallocRaw ptr size found =>
      rw [pc] at facts
      cases reply with
      | none =>
          simp only [hookRaw, pc, Option.some.injEq] at taken
          subst taken
          exact invariant.finish (HookPc.not_removes (by simp [pc])) facts.1
            rfl rfl rfl
      | some new =>
          simp only [hookRaw, pc, Option.ite_none_right_eq_some,
            Option.some.injEq] at taken
          obtain ⟨placed, rfl⟩ := taken
          exact invariant.moves_block pc placed
  | idle | sample | subtract | capacity | entryNew | insert | freeRemove
  | freeRaw | reallocFind | reallocRemove =>
      simp [hookRaw, pc] at taken

/-- A locked section removes the entry of an address that no other thread's
call is in flight on, or that this thread has given up. -/
theorem HookInvariant.removes_entry {state : HookState Thread}
    {thread : Thread} {ptr : Word} {pc : HookPc}
    (invariant : HookInvariant state)
    (own : ∀ other, (state.threads thread).removes other → other = ptr)
    (facts : PcFacts { state with
      table := mttEntryRemove state.table ptr } thread pc) :
    HookInvariant (({ state with
      table := mttEntryRemove state.table ptr } : HookState Thread).setThread
        thread pc) := by
  refine invariant.of_stepKeeps ⟨rfl, invariant.table.remove ptr,
    invariant.null, facts, fun _ => Or.inl rfl, ?_, ?_⟩
  · intro other missing
    refine Or.inl ?_
    change mttEntryFind (mttEntryRemove state.table ptr) other = none
    rw [mttEntryFind_remove invariant.table]
    split
    · rfl
    · exact missing
  · intro other entry found
    change mttEntryFind (mttEntryRemove state.table ptr) other = some entry
      at found
    rw [mttEntryFind_remove invariant.table] at found
    split at found
    · contradiction
    · rename_i different
      rcases invariant.entries other entry found with matching | pending
      · exact Or.inl matching
      · obtain ⟨remover, removing⟩ := pending
        refine Or.inr (Or.inr ⟨remover, ?_, removing⟩)
        rintro rfl
        exact different (own other removing)

/-- A locked section records the block its call was given. -/
theorem HookInvariant.inserts {state : HookState Thread} {thread : Thread}
    {ptr : Word} {size : Nat} (invariant : HookInvariant state)
    (pc : state.threads thread = .insert ptr size)
    (fresh : mttEntryFind state.table ptr = none) :
    HookInvariant (hookInsert state thread ptr size) := by
  have quiet : ∀ other, ¬ (state.threads thread).removes other :=
    HookPc.not_removes (by simp [pc])
  have granted := invariant.facts thread
  rw [pc] at granted
  have held : Held state thread ptr := ⟨_, granted, rfl⟩
  have nonNull : ptr ≠ 0 := by
    rintro rfl
    have given := invariant.null.symm.trans granted
    contradiction
  unfold hookInsert
  split
  · exact invariant.finish quiet held rfl rfl rfl
  · refine invariant.of_stepKeeps (show StepKeeps state _ thread .idle from
      ⟨rfl, invariant.table.add nonNull fresh, ?_, trivial, ?_, ?_, ?_⟩)
    · exact (HookState.setGrant_other _ nonNull.symm _).trans invariant.null
    · intro other
      by_cases here : other = ptr
      · exact Or.inr (here ▸ held.touchable)
      · exact Or.inl (HookState.setGrant_other _ here _)
    · intro other missing
      by_cases here : ptr = other
      · exact Or.inr (here ▸ held.touchable)
      · refine Or.inl ((mttEntryFind_add state.table nonNull other).trans ?_)
        rw [if_neg here, missing]
    · intro other entry found
      have lookup := (@mttEntryFind_add state.table
        ⟨ptr, size, state.allocSeq + 1⟩ nonNull other).symm.trans found
      by_cases here : ptr = other
      · subst here
        rw [if_pos rfl, Option.some.injEq] at lookup
        subst lookup
        exact Or.inl ⟨_, (HookState.setGrant_same _ _ _).trans
          (by rw [granted]; rfl), rfl, rfl⟩
      · rw [if_neg here] at lookup
        rcases invariant.entries other entry lookup with matching | pending
        · exact Or.inl (matching.setGrant (Ne.symm here) _)
        · obtain ⟨remover, removing⟩ := pending
          refine Or.inr (Or.inr ⟨remover, ?_, removing⟩)
          rintro rfl
          exact quiet other removing

theorem HookInvariant.step {state target : HookState Thread} {thread : Thread}
    (invariant : HookInvariant state)
    (fresh : (state.threads thread).recordsAgain state.table = false)
    (taken : hookStep state thread = some target) : HookInvariant target := by
  have facts := invariant.facts thread
  cases pc : state.threads thread with
  | sample ptr size =>
      rw [pc] at facts
      have still : ∀ other, ¬ (state.threads thread).removes other :=
        HookPc.not_removes (by simp [pc])
      simp only [hookStep, pc, Option.some.injEq] at taken
      subst taken
      cases (mttShouldTrackEnter state.sampler size).1 with
      | track => exact invariant.moves still rfl rfl rfl facts
      | trackAndSubtract => exact invariant.moves still rfl rfl rfl facts
      | skip => exact invariant.finish still ⟨_, facts, rfl⟩ rfl rfl rfl
  | subtract ptr size =>
      rw [pc] at facts
      simp only [hookStep, pc, Option.some.injEq] at taken
      subst taken
      exact invariant.moves (HookPc.not_removes (by simp [pc])) rfl rfl rfl
        facts
  | capacity ptr size =>
      rw [pc] at facts
      have still : ∀ other, ¬ (state.threads thread).removes other :=
        HookPc.not_removes (by simp [pc])
      simp only [hookStep, pc, Option.some.injEq] at taken
      subst taken
      split
      · exact invariant.finish still ⟨_, facts, rfl⟩ rfl rfl rfl
      · exact invariant.moves still rfl rfl rfl facts
  | insert ptr size =>
      simp only [hookStep, pc, Option.some.injEq] at taken
      subst taken
      rw [pc] at fresh
      exact invariant.inserts pc (by simpa [HookPc.recordsAgain] using fresh)
  | freeRemove ptr =>
      rw [pc] at facts
      simp only [hookStep, pc, Option.some.injEq] at taken
      subst taken
      apply invariant.removes_entry
      · intro other removing
        exact (HookPc.not_removes (by simp [pc]) other removing).elim
      · refine ⟨facts, ?_⟩
        exact (mttEntryFind_remove invariant.table ptr ptr).trans
          (if_pos rfl)
  | freeRaw ptr =>
      rw [pc] at facts
      simp only [hookStep, pc, Option.some.injEq] at taken
      subst taken
      refine invariant.sameTable (HookPc.not_removes (by simp [pc]))
        rfl rfl ?_ trivial ?_ ?_
      · by_cases null : 0 = ptr
        · subst null
          exact state.setGrant_same 0 none
        · exact (state.setGrant_other null _).trans invariant.null
      · intro other
        by_cases here : other = ptr
        · exact Or.inr (here ▸ facts.1.touchable)
        · exact Or.inl (state.setGrant_other here _)
      · intro other entry found matching
        refine Or.inl (matching.setGrant ?_ _)
        rintro rfl
        rw [facts.2] at found
        contradiction
  | reallocFind ptr size =>
      rw [pc] at facts
      simp only [hookStep, pc, Option.some.injEq] at taken
      subst taken
      refine invariant.moves (HookPc.not_removes (by simp [pc])) rfl rfl rfl
        ⟨facts, ?_⟩
      intro missed
      exact Option.isSome_eq_false_iff.mp missed |> Option.isNone_iff_eq_none.mp
  | reallocRemove old new size =>
      rw [pc] at facts
      simp only [hookStep, pc, Option.some.injEq] at taken
      subst taken
      refine invariant.removes_entry ?_ facts
      intro other removing
      obtain ⟨_, _, same⟩ := removing
      rw [pc, HookPc.reallocRemove.injEq] at same
      exact same.1.symm
  | idle | mallocRaw | entryNew | reallocRaw => simp [hookStep, pc] at taken

theorem HookInvariant.next {state target : HookState Thread}
    {label : HookLabel Thread} (invariant : HookInvariant state)
    (fresh : InsertsFresh state label)
    (taken : hookNext state label = some target) : HookInvariant target := by
  cases label with
  | call thread call =>
      simp only [hookNext, Option.ite_none_right_eq_some] at taken
      exact invariant.enter taken.1 taken.2
  | raw thread reply => exact invariant.raw taken
  | entryNew thread succeeds =>
      have facts := invariant.facts thread
      cases pc : state.threads thread with
      | entryNew ptr size =>
          rw [pc] at facts
          have quiet : ∀ other, ¬ (state.threads thread).removes other :=
            HookPc.not_removes (by simp [pc])
          simp only [hookNext, pc, Option.some.injEq] at taken
          subst taken
          split
          · exact invariant.moves quiet rfl rfl rfl facts
          · exact invariant.finish quiet ⟨_, facts, rfl⟩ rfl rfl rfl
      | idle | mallocRaw | sample | subtract | capacity | insert | freeRemove
      | freeRaw | reallocFind | reallocRaw | reallocRemove =>
          simp [hookNext, pc] at taken
  | step thread => exact invariant.step fresh taken

theorem hookInvariant_initial {state : HookState Thread}
    (initial : (hookSystem Thread).init state) : HookInvariant state := by
  obtain ⟨⟨seed, table⟩, _, free, idle⟩ := initial
  constructor
  · rw [table]
    exact EntryTable.empty_wellFormed seed
  · exact free 0
  · intro thread
    rw [idle thread]
    trivial
  · intro ptr entry found
    rw [table, mttEntryFind_empty] at found
    contradiction

theorem hookInvariant_reachable {state : HookState Thread}
    (reachable : (hookSystem Thread).ReachableBy InsertsFresh state) :
    HookInvariant state :=
  reachable.invariant HookInvariant (fun _ => hookInvariant_initial)
    fun _ _ _ invariant fresh taken => invariant.next fresh taken

/-- While no hook call is in flight, the entry found for a live block carries
the size its call asked for and the sequence number its call took. -/
theorem entry_matches_block_of_insertsFresh {state : HookState Thread}
    (reachable : (hookSystem Thread).ReachableBy InsertsFresh state)
    (idle : ∀ thread, state.threads thread = .idle)
    {ptr : Word} {grant : Grant Thread} {entry : MttEntry}
    (live : state.grants ptr = some grant)
    (found : mttEntryFind state.table ptr = some entry) :
    entry.size = grant.size ∧ grant.allocNum = some entry.allocNum := by
  have invariant := hookInvariant_reachable reachable
  rcases invariant.entries ptr entry found with matching | pending
  · obtain ⟨granted, same, size, number⟩ := matching
    rw [live, Option.some.injEq] at same
    exact same ▸ ⟨size.symm, number⟩
  · obtain ⟨thread, new, size, removing⟩ := pending
    rw [idle thread] at removing
    contradiction

def hookStart (Thread : Type) (sampler : Sampler) : HookState Thread :=
  { table := EntryTable.empty 0
    allocSeq := 0
    sampler := sampler
    grants := fun _ => none
    threads := fun _ => .idle }

theorem hookStart_init (sampler : Sampler) :
    (hookSystem Thread).init (hookStart Thread sampler) :=
  ⟨⟨0, rfl⟩, rfl, fun _ => rfl, fun _ => rfl⟩

/-- Sampling that skips nothing. -/
def Sampler.everything : Sampler :=
  { sampleRate := 0
    samplePeriod := 0
    sampleCounter := 0
    sampleBytesAccum := 0
    skippedSampled := 0 }

/-- The steps of a tracked malloc that is not interrupted. -/
def mallocSteps (thread : Thread) (size : Nat) (ptr : Word) :
    List (HookLabel Thread) :=
  [.call thread (.malloc size), .raw thread (some ptr), .step thread,
    .step thread, .entryNew thread true, .step thread]

/-- The steps of a tracked realloc after libc has moved the block. -/
def reallocRest (thread : Thread) : List (HookLabel Thread) :=
  [.step thread, .step thread, .entryNew thread true, .step thread]

theorem entry_matches_block_twoMallocs :
    ∃ (state : HookState Worker) (grant : Grant Worker) (entry : MttEntry),
      state.grants 16 = some grant ∧
      mttEntryFind state.table 16 = some entry ∧
      entry.size = grant.size ∧ grant.allocNum = some entry.allocNum := by
  obtain ⟨state, reachable, ended⟩ :=
    System.exists_reachableBy_of_runBy (hookSystem Worker) InsertsFresh
      (fun state => decide (∀ thread, state.threads thread = .idle) &&
        (state.grants 16).isSome && (mttEntryFind state.table 16).isSome)
      (mallocSteps .first 8 16 ++ mallocSteps .second 24 32)
      (hookStart_init .everything) (by decide)
  simp only [Bool.and_eq_true, decide_eq_true_eq] at ended
  obtain ⟨⟨idle, live⟩, found⟩ := ended
  obtain ⟨grant, granted⟩ := Option.isSome_iff_exists.mp live
  obtain ⟨entry, entryFound⟩ := Option.isSome_iff_exists.mp found
  exact ⟨state, grant, entry, granted, entryFound,
    entry_matches_block_of_insertsFresh reachable idle granted entryFound⟩

/-- The first thread's realloc gives address 16 up, the second thread's malloc
gets and records it, and then the realloc removes the new entry for 16. -/
def reusedAddress : List (HookLabel Worker) :=
  mallocSteps .first 8 16 ++
    [.call .first (.realloc 16 24), .step .first,
      .raw .first (some 32)] ++
    mallocSteps .second 40 16 ++ reallocRest .first

theorem entry_mismatch_reusedAddress :
    ¬ ∀ state : HookState Worker, (hookSystem Worker).Reachable state →
      (∀ thread, state.threads thread = .idle) →
      ∀ ptr grant entry, state.grants ptr = some grant →
        mttEntryFind state.table ptr = some entry →
        entry.size = grant.size ∧
          grant.allocNum = some entry.allocNum := by
  intro claimed
  obtain ⟨state, reachable, ended⟩ :=
    System.exists_reachable_of_run (hookSystem Worker)
      (fun state => decide (∀ thread, state.threads thread = .idle) &&
        ((state.grants 16).map Grant.size == some 40) &&
        (mttEntryFind state.table 16 == some ⟨16, 8, 1⟩))
      reusedAddress (hookStart_init .everything) (by decide)
  simp only [Bool.and_eq_true, decide_eq_true_eq, beq_iff_eq,
    Option.map_eq_some_iff] at ended
  obtain ⟨⟨idle, grant, granted, size⟩, found⟩ := ended
  have agree := claimed state reachable idle 16 grant _ granted found
  rw [size] at agree
  exact absurd agree.1 (by decide)

end MemoryTraceTool
