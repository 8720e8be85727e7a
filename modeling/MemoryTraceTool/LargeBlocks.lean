import MemoryTraceTool.HookInterleaving

/-!
# Blocks above the sampling exemption

Requests of at least 1 KB are exempt from sampling, so malloc records them.
realloc records the new block only if it found an entry of the old one, and
`mtt_entry_new` may give up although a slot of the pool is free.  This module
follows large blocks through runs in which neither the table nor the pool is
ever full.
-/

namespace MemoryTraceTool

open Transition

variable {Thread : Type} [DecidableEq Thread]

/-- What the scan of `mtt_entry_new` meets at a stripe other than its own: the
trylock fails, or the list is empty or not. -/
inductive StripeView where
  | contended
  | empty
  | slot
  deriving DecidableEq, Repr

/-- What a call of `mtt_entry_new` meets: the list of its own stripe, the other
stripes in the order of the scan, and whether all the time some list of the
pool holds a slot.  Without a pool, `raw_malloc` may fail. -/
inductive EntryScan where
  | pool (own : Bool) (others : Fin (mttLockStripes - 1) → StripeView)
      (spare : Bool)
  | fallback (allocated : Bool)

/-- A stripe whose trylock fails is passed over. -/
def EntryScan.finds : EntryScan → Bool
  | .pool own others _ => own || decide (∃ k, others k = .slot)
  | .fallback allocated => allocated

/-- The steps of the hooks, where a call of `mtt_entry_new` says what it
meets. -/
inductive ScanLabel (Thread : Type) where
  | call (thread : Thread) (call : HookCall)
  | raw (thread : Thread) (reply : Option Word)
  | entryNew (thread : Thread) (scan : EntryScan)
  | step (thread : Thread)

def ScanLabel.hook : ScanLabel Thread → HookLabel Thread
  | .call thread made => .call thread made
  | .raw thread reply => .raw thread reply
  | .entryNew thread scan => .entryNew thread scan.finds
  | .step thread => .step thread

/-- The runs of the hooks. -/
def slotScanSystem (Thread : Type) [DecidableEq Thread] :
    System (HookState Thread) (ScanLabel Thread) where
  init := (hookSystem Thread).init
  next := fun state label => hookNext state label.hook

/-- Neither the entry table nor the pool is full when a block is recorded. -/
def NeverFull (state : HookState Thread) : ScanLabel Thread → Prop
  | .step _ => mttIsOverCapacity state.table = false
  | .entryNew _ (.pool _ _ spare) => spare = true
  | .entryNew _ (.fallback _) | .call _ _ | .raw _ _ => True

def HookPc.entersLarge : HookPc → Bool
  | .entryNew _ size => decide (mttSampleExemptThreshold ≤ size)
  | _ => false

/-- For a large block, `mtt_entry_new` finds a slot in its own list or in one
of the others whose lock it gets. -/
def LargeFindsSlot (state : HookState Thread) : ScanLabel Thread → Prop
  | .entryNew thread scan =>
      (state.threads thread).entersLarge = true → scan.finds = true
  | .call _ _ | .raw _ _ | .step _ => True

/-- libc does not hand out an address that a realloc has given up and not yet
looked up again. -/
def RepliesUnpending (state : HookState Thread) : HookLabel Thread → Prop
  | .raw _ (some ptr) => ∀ thread, ¬ (state.threads thread).removes ptr
  | .raw _ none | .call _ _ | .entryNew _ _ | .step _ => True

/-- A realloc that found no entry of the old block does not make it large. -/
def HookPc.smallUnlessFound : HookPc → Bool
  | .reallocRaw _ size false => decide (size < mttSampleExemptThreshold)
  | _ => true

/-- A realloc that makes a block large has found its entry. -/
def LargeReallocsFound (state : HookState Thread) : HookLabel Thread → Prop
  | .raw thread (some _) => (state.threads thread).smallUnlessFound = true
  | .raw _ none | .call _ _ | .entryNew _ _ | .step _ => True

/-- What large blocks rely on in one step. -/
structure LargeTracked (state : HookState Thread) (label : ScanLabel Thread) :
    Prop where
  neverFull : NeverFull state label
  unpending : RepliesUnpending state label.hook
  slot : LargeFindsSlot state label
  found : LargeReallocsFound state label.hook

/-- Every large block the application has is recorded with its size. -/
def LargeBlocksRecorded (state : HookState Thread) : Prop :=
  ∀ ptr grant, state.grants ptr = some grant → grant.owner = none →
    mttSampleExemptThreshold ≤ grant.size →
    ∃ entry, mttEntryFind state.table ptr = some entry ∧
      entry.size = grant.size

/-- The call will still record the block, release it, or has just found its
entry and replaces it. -/
def HookPc.excuses (pc : HookPc) (block : Word) : Prop :=
  match pc with
  | .sample ptr _ | .subtract ptr _ | .capacity ptr _ | .entryNew ptr _
  | .insert ptr _ | .freeRemove ptr | .freeRaw ptr | .reallocRemove _ ptr _ =>
      ptr = block
  | .idle | .mallocRaw _ | .reallocFind _ _ | .reallocRaw _ _ _ => False

/-- A large block has an entry or a call in flight that accounts for it. -/
def Covered (state : HookState Thread) (ptr : Word) : Prop :=
  ∀ grant, state.grants ptr = some grant →
    mttSampleExemptThreshold ≤ grant.size →
    (mttEntryFind state.table ptr).isSome = true ∨
      ∃ thread, (state.threads thread).excuses ptr

/-- What holds between the steps of runs that meet `LargeTracked`. -/
structure LargeInvariant (state : HookState Thread) : Prop where
  hook : HookInvariant state
  pending : ∀ thread old new size,
    state.threads thread = .reallocRemove old new size →
    new = old ∨ state.grants old = none
  covered : ∀ ptr, Covered state ptr

omit [DecidableEq Thread] in
theorem HookPc.held_of_excuses {state : HookState Thread} {thread : Thread}
    {pc : HookPc} {ptr : Word} (facts : PcFacts state thread pc)
    (excuses : pc.excuses ptr) : Held state thread ptr := by
  cases pc with
  | idle | mallocRaw | reallocFind | reallocRaw => exact excuses.elim
  | sample | subtract | capacity | entryNew | insert | reallocRemove =>
      cases excuses
      exact ⟨_, facts, rfl⟩
  | freeRemove =>
      cases excuses
      exact facts
  | freeRaw =>
      cases excuses
      exact facts.1

omit [DecidableEq Thread] in
/-- A block the application has is excused by no call. -/
theorem LargeInvariant.recorded {state : HookState Thread}
    (invariant : LargeInvariant state) : LargeBlocksRecorded state := by
  intro ptr grant granted application large
  have notHeld : ∀ thread, ¬ Held state thread ptr := by
    rintro thread ⟨other, same, owner⟩
    rw [granted, Option.some.injEq] at same
    rw [← same, application] at owner
    contradiction
  rcases invariant.covered ptr grant granted large with found | excused
  · obtain ⟨entry, found⟩ := Option.isSome_iff_exists.mp found
    refine ⟨entry, found, ?_⟩
    rcases invariant.hook.entries ptr entry found with matching | removing
    · obtain ⟨other, same, size, _⟩ := matching
      rw [granted, Option.some.injEq] at same
      rw [same, size]
    · obtain ⟨thread, new, size, pc⟩ := removing
      have facts := invariant.hook.facts thread
      rw [pc] at facts
      rcases invariant.pending thread ptr new size pc with inPlace | free
      · exact (notHeld thread ⟨_, inPlace ▸ facts, rfl⟩).elim
      · rw [granted] at free
        contradiction
  · obtain ⟨thread, excuses⟩ := excused
    exact (notHeld thread
      (HookPc.held_of_excuses (invariant.hook.facts thread) excuses)).elim

omit [DecidableEq Thread] in
/-- A block that a call is about to record has no entry yet. -/
theorem LargeInvariant.unrecorded {state : HookState Thread}
    (invariant : LargeInvariant state) {thread : Thread} {ptr : Word}
    {size : Nat} (given : state.grants ptr = some ⟨size, none, some thread⟩)
    (quiet : ¬ (state.threads thread).removes ptr) :
    mttEntryFind state.table ptr = none := by
  by_contra present
  obtain ⟨entry, found⟩ := Option.ne_none_iff_exists'.mp present
  rcases invariant.hook.entries ptr entry found with matching | removing
  · obtain ⟨grant, granted, _, number⟩ := matching
    have same := given.symm.trans granted
    rw [Option.some.injEq] at same
    rw [← same] at number
    contradiction
  · obtain ⟨other, new, newSize, removing⟩ := removing
    have otherFacts := invariant.hook.facts other
    rw [removing] at otherFacts
    rcases invariant.pending other ptr new newSize removing with
      inPlace | free
    · have same := given.symm.trans (inPlace ▸ otherFacts)
      simp only [Option.some.injEq, Grant.mk.injEq] at same
      exact quiet (same.2.2 ▸ ⟨new, newSize, removing⟩)
    · have granted := given.symm.trans free
      contradiction

omit [DecidableEq Thread] in
/-- While replies are never pending, recording is always fresh. -/
theorem LargeInvariant.insertsFresh {state : HookState Thread}
    (invariant : LargeInvariant state) (label : HookLabel Thread) :
    InsertsFresh state label := by
  cases label with
  | call | raw | entryNew => trivial
  | step thread =>
      have facts := invariant.hook.facts thread
      change (state.threads thread).recordsAgain state.table = false
      cases pc : state.threads thread with
      | insert ptr size =>
          rw [pc] at facts
          have missing := invariant.unrecorded facts
            (HookPc.not_removes (by simp [pc]) ptr)
          exact Option.isSome_eq_false_iff.mpr
            (Option.isNone_iff_eq_none.mpr missing)
      | idle | mallocRaw | sample | subtract | capacity | entryNew
      | freeRemove | freeRaw | reallocFind | reallocRaw | reallocRemove =>
          rfl

/-! ## The steps -/

/-- What a step has to keep for large blocks to stay covered. -/
structure LargeKeeps (state target : HookState Thread) (thread : Thread)
    (pc : HookPc) : Prop where
  threads : target.threads = Function.update state.threads thread pc
  free : ∀ ptr, state.grants ptr = none →
    target.grants ptr = none ∨ ∀ other, ¬ (state.threads other).removes ptr
  replaces : ∀ old new size, pc = .reallocRemove old new size →
    new = old ∨ target.grants old = none
  sizes : ∀ ptr grant, target.grants ptr = some grant →
    (∃ old, state.grants ptr = some old ∧ old.size = grant.size) ∨
      grant.size < mttSampleExemptThreshold ∨ pc.excuses ptr
  found : ∀ ptr, (mttEntryFind state.table ptr).isSome = true →
    (mttEntryFind target.table ptr).isSome = true ∨ pc.excuses ptr ∨
      target.grants ptr = none
  excuses : ∀ ptr, (state.threads thread).excuses ptr →
    pc.excuses ptr ∨ (mttEntryFind target.table ptr).isSome = true ∨
      ∀ grant, target.grants ptr = some grant →
        grant.size < mttSampleExemptThreshold

theorem LargeInvariant.of_largeKeeps {state target : HookState Thread}
    {thread : Thread} {pc : HookPc} (invariant : LargeInvariant state)
    (hook : HookInvariant target)
    (keeps : LargeKeeps state target thread pc) : LargeInvariant target := by
  have own : ∀ ptr, pc.excuses ptr →
      ∃ other, (target.threads other).excuses ptr := by
    intro ptr excuses
    exact ⟨thread, by rwa [keeps.threads, Function.update_self]⟩
  refine ⟨hook, ?_, ?_⟩
  · intro other old new size removing
    rcases moved_cases keeps.threads other with ⟨rfl, here⟩ | ⟨same, here⟩
    · rw [here] at removing
      exact keeps.replaces old new size removing
    · rw [here] at removing
      rcases invariant.pending other old new size removing with inPlace | free
      · exact Or.inl inPlace
      · exact Or.inr ((keeps.free old free).resolve_right
          fun never => never other ⟨new, size, removing⟩)
  · intro ptr grant granted large
    rcases keeps.sizes ptr grant granted with sameSize | small | excuses
    · obtain ⟨old, oldGranted, size⟩ := sameSize
      rcases invariant.covered ptr old oldGranted (size ▸ large) with
        found | excused
      · rcases keeps.found ptr found with still | excuses | free
        · exact Or.inl still
        · exact Or.inr (own ptr excuses)
        · rw [granted] at free
          contradiction
      · obtain ⟨other, excuses⟩ := excused
        by_cases same : other = thread
        · rw [same] at excuses
          rcases keeps.excuses ptr excuses with excuses | found | small
          · exact Or.inr (own ptr excuses)
          · exact Or.inl found
          · exact absurd large (Nat.not_le.mpr (small grant granted))
        · refine Or.inr ⟨other, ?_⟩
          rwa [keeps.threads, Function.update_of_ne same]
    · exact absurd large (Nat.not_le.mpr small)
    · exact Or.inr (own ptr excuses)

/-- Only the program counter, the sampler or the sequence number changes. -/
theorem LargeKeeps.moves {state target : HookState Thread} {thread : Thread}
    {pc : HookPc}
    (threads : target.threads = Function.update state.threads thread pc)
    (table : target.table = state.table)
    (grants : target.grants = state.grants)
    (quiet : ∀ ptr, ¬ pc.removes ptr)
    (excuses : ∀ ptr, (state.threads thread).excuses ptr → pc.excuses ptr) :
    LargeKeeps state target thread pc := by
  refine ⟨threads, ?_, ?_, ?_, ?_, fun ptr old => Or.inl (excuses ptr old)⟩
  · intro ptr free
    exact Or.inl (grants ▸ free)
  · intro old new size removing
    exact (quiet old ⟨new, size, removing⟩).elim
  · intro ptr grant granted
    exact Or.inl ⟨grant, grants ▸ granted, rfl⟩
  · intro ptr found
    exact Or.inl (table ▸ found)

omit [DecidableEq Thread] in
theorem HookState.handOver_size {state : HookState Thread} {ptr other : Word}
    {owner : Option Thread} {grant : Grant Thread}
    (granted : (state.handOver other owner).grants ptr = some grant) :
    ∃ old, state.grants ptr = some old ∧ old.size = grant.size := by
  by_cases here : ptr = other
  · subst here
    cases before : state.grants ptr with
    | none =>
        rw [state.handOver_none before] at granted
        contradiction
    | some old =>
        rw [state.handOver_same before, Option.some.injEq] at granted
        exact ⟨old, rfl, granted ▸ rfl⟩
  · rw [state.handOver_other here] at granted
    exact ⟨grant, granted, rfl⟩

theorem LargeKeeps.handsOver {state target : HookState Thread}
    {thread : Thread} {pc : HookPc} {ptr : Word} {owner : Option Thread}
    (threads : target.threads = Function.update state.threads thread pc)
    (table : target.table = state.table)
    (grants : target.grants = (state.handOver ptr owner).grants)
    (quiet : ∀ other, ¬ pc.removes other)
    (excuses : ∀ other, (state.threads thread).excuses other →
      pc.excuses other ∨ ∀ grant, target.grants other = some grant →
        grant.size < mttSampleExemptThreshold) :
    LargeKeeps state target thread pc := by
  refine ⟨threads, ?_, ?_, ?_, ?_, ?_⟩
  · intro other free
    exact Or.inl (grants ▸ state.handOver_none free ptr owner)
  · intro old new size removing
    exact (quiet old ⟨new, size, removing⟩).elim
  · intro other grant granted
    exact Or.inl (HookState.handOver_size (grants ▸ granted))
  · intro other found
    exact Or.inl (table ▸ found)
  · intro other old
    exact (excuses other old).imp_right Or.inr

/-- libc hands out a new block, which is small or about to be recorded. -/
theorem LargeKeeps.grants_new {state : HookState Thread} {thread : Thread}
    {pc : HookPc} {ptr : Word} {grant : Grant Thread}
    (unpending : ∀ other, ¬ (state.threads other).removes ptr)
    (quiet : ∀ other, ¬ pc.removes other)
    (excuses : ∀ other, ¬ (state.threads thread).excuses other)
    (covers : grant.size < mttSampleExemptThreshold ∨ pc.excuses ptr) :
    LargeKeeps state ((state.setGrant ptr (some grant)).setThread thread pc)
      thread pc := by
  refine ⟨rfl, ?_, ?_, ?_, fun _ found => Or.inl found,
    fun other old => (excuses other old).elim⟩
  · intro other free
    by_cases here : other = ptr
    · exact Or.inr (here ▸ unpending)
    · exact Or.inl ((state.setGrant_other here _).trans free)
  · intro old new size removing
    exact (quiet old ⟨new, size, removing⟩).elim
  · intro other given granted
    by_cases here : other = ptr
    · subst here
      have same := granted.symm.trans (state.setGrant_same other (some grant))
      rw [Option.some.injEq] at same
      exact Or.inr (same ▸ covers)
    · have same := granted.symm.trans
        (state.setGrant_other here (some grant))
      exact Or.inl ⟨given, same.symm, rfl⟩

theorem LargeKeeps.moves_block {state : HookState Thread} {thread : Thread}
    {ptr new : Word} {size : Nat} {found : Bool}
    (pc : state.threads thread = .reallocRaw ptr size found)
    (unpending : ∀ other, ¬ (state.threads other).removes new)
    (small : found = false → size < mttSampleExemptThreshold) :
    LargeKeeps state
      (((state.setGrant ptr none).setGrant new
        (some ⟨size, none, if found then some thread else none⟩)).setThread
          thread (if found then .reallocRemove ptr new size else .idle))
      thread (if found then .reallocRemove ptr new size else .idle) := by
  have released : ∀ other, other ≠ new →
      ((state.setGrant ptr none).setGrant new
        (some ⟨size, none, if found then some thread else none⟩)).grants
          other = if other = ptr then none else state.grants other := by
    intro other different
    rw [HookState.setGrant_other _ different]
    split
    · rename_i here
      rw [here, HookState.setGrant_same]
    · rename_i here
      exact state.setGrant_other here none
  refine ⟨rfl, ?_, ?_, ?_, fun _ present => Or.inl present, ?_⟩
  · intro other free
    by_cases here : other = new
    · exact Or.inr (here ▸ unpending)
    · refine Or.inl ((released other here).trans ?_)
      rw [free, ite_self]
  · intro old target newSize removing
    cases found with
    | false => contradiction
    | true =>
        simp only [if_true, HookPc.reallocRemove.injEq] at removing
        obtain ⟨rfl, rfl, rfl⟩ := removing
        by_cases inPlace : new = ptr
        · exact Or.inl inPlace
        · refine Or.inr ((released ptr (Ne.symm inPlace)).trans ?_)
          rw [if_pos rfl]
  · intro other given granted
    by_cases here : other = new
    · subst here
      have same := granted.symm.trans (HookState.setGrant_same _ other _)
      rw [Option.some.injEq] at same
      subst same
      cases found with
      | false => exact Or.inr (Or.inl (small rfl))
      | true => exact Or.inr (Or.inr rfl)
    · have same := granted.symm.trans (released other here)
      split at same
      · contradiction
      · exact Or.inl ⟨given, same.symm, rfl⟩
  · intro other old
    rw [pc] at old
    exact old.elim

/-- A block goes back to libc, and with it the reason to look for its entry. -/
theorem LargeKeeps.frees {state : HookState Thread} {thread : Thread}
    {ptr : Word}
    (excused : ∀ other, (state.threads thread).excuses other → other = ptr) :
    LargeKeeps state ((state.setGrant ptr none).setThread thread .idle) thread
      .idle := by
  refine ⟨rfl, ?_, ?_, ?_, fun _ => Or.inl, ?_⟩
  · intro other free
    by_cases here : other = ptr
    · subst here
      exact Or.inl (state.setGrant_same other none)
    · exact Or.inl ((state.setGrant_other here none).trans free)
  · intro old new size same
    contradiction
  · intro other given granted
    by_cases here : other = ptr
    · subst here
      have same := granted.symm.trans (state.setGrant_same other none)
      contradiction
    · have same := granted.symm.trans (state.setGrant_other here none)
      exact Or.inl ⟨given, same.symm, rfl⟩
  · intro other old
    obtain rfl := excused other old
    refine Or.inr (Or.inr fun grant granted => ?_)
    have same := granted.symm.trans (state.setGrant_same other none)
    contradiction

theorem LargeKeeps.removes_entry {state : HookState Thread} {thread : Thread}
    {pc : HookPc} {ptr : Word} (table : state.table.WellFormed)
    (quiet : ∀ other, ¬ pc.removes other)
    (covers : pc.excuses ptr ∨ state.grants ptr = none)
    (excuses : ∀ other, (state.threads thread).excuses other →
      pc.excuses other) :
    LargeKeeps state
      (({ state with table := mttEntryRemove state.table ptr } :
        HookState Thread).setThread thread pc) thread pc := by
  refine ⟨rfl, fun _ => Or.inl, ?_, ?_, ?_, fun other old =>
    Or.inl (excuses other old)⟩
  · intro old new size removing
    exact (quiet old ⟨new, size, removing⟩).elim
  · exact fun other given granted => Or.inl ⟨given, granted, rfl⟩
  · intro other present
    by_cases here : other = ptr
    · exact Or.inr (here ▸ covers)
    · refine Or.inl ?_
      refine (congrArg Option.isSome
        (mttEntryFind_remove table ptr other)).trans ?_
      rwa [if_neg here]

/-- A block of the thread gets its entry. -/
theorem LargeKeeps.records {state : HookState Thread} {thread : Thread}
    {ptr : Word} {size number : Nat} {given : Grant Thread}
    (facts : state.grants ptr = some given) (nonNull : ptr ≠ 0)
    (excused : ∀ other, (state.threads thread).excuses other → other = ptr) :
    LargeKeeps state
      ((({ state with
          allocSeq := number
          table := mttEntryAdd state.table ⟨ptr, size, number⟩ } :
            HookState Thread).setGrant ptr
        ((state.grants ptr).map fun grant =>
          { grant with allocNum := some number, owner := none })).setThread
            thread .idle) thread .idle := by
  have lookup := @mttEntryFind_add state.table ⟨ptr, size, number⟩ nonNull
  refine ⟨rfl, ?_, ?_, ?_, ?_, ?_⟩
  · intro other free
    have different : other ≠ ptr := by
      rintro rfl
      rw [facts] at free
      contradiction
    exact Or.inl ((HookState.setGrant_other _ different _).trans free)
  · intro old new newSize same
    contradiction
  · intro other grant granted
    by_cases here : other = ptr
    · subst here
      have same := granted.symm.trans (HookState.setGrant_same _ other _)
      rw [facts, Option.map_some, Option.some.injEq] at same
      exact Or.inl ⟨_, facts, same ▸ rfl⟩
    · have same := granted.symm.trans (HookState.setGrant_other _ here _)
      exact Or.inl ⟨grant, same.symm, rfl⟩
  · intro other present
    refine Or.inl ((congrArg Option.isSome (lookup other)).trans ?_)
    split
    · rfl
    · exact present
  · intro other old
    obtain rfl := excused other old
    refine Or.inr (Or.inl ((congrArg Option.isSome (lookup other)).trans ?_))
    rw [if_pos rfl]
    rfl

theorem mttShouldTrackEnter_skip_small {sampler : Sampler} {size : Nat}
    (skipped : (mttShouldTrackEnter sampler size).1 = .skip) :
    size < mttSampleExemptThreshold := by
  by_contra large
  rw [mttShouldTrackEnter_exempt sampler (Nat.not_lt.mp large)] at skipped
  contradiction

theorem LargeInvariant.enter {state target : HookState Thread}
    {thread : Thread} {request : HookRequest}
    (invariant : LargeInvariant state) (hook : HookInvariant target)
    (idle : state.threads thread = .idle)
    (taken : hookEnter state thread request = some target) :
    LargeInvariant target := by
  have calm : ∀ ptr, ¬ (state.threads thread).excuses ptr := by
    intro ptr
    rw [idle]
    exact id
  cases request with
  | nothing =>
      simp only [hookEnter, Option.some.injEq] at taken
      exact taken ▸ invariant
  | alloc size =>
      simp only [hookEnter, Option.some.injEq] at taken
      subst taken
      refine invariant.of_largeKeeps hook
        (.moves rfl rfl rfl (HookPc.not_removes (by simp)) ?_)
      exact fun ptr old => (calm ptr old).elim
  | release ptr =>
      simp only [hookEnter, Option.ite_none_right_eq_some,
        Option.some.injEq] at taken
      obtain ⟨_, rfl⟩ := taken
      refine invariant.of_largeKeeps hook
        (.handsOver rfl rfl rfl (HookPc.not_removes (by simp)) ?_)
      exact fun other old => (calm other old).elim
  | resize ptr size =>
      simp only [hookEnter, Option.ite_none_right_eq_some,
        Option.some.injEq] at taken
      obtain ⟨_, rfl⟩ := taken
      refine invariant.of_largeKeeps hook
        (.handsOver rfl rfl rfl (HookPc.not_removes (by simp)) ?_)
      exact fun other old => (calm other old).elim

theorem LargeInvariant.raw {state target : HookState Thread}
    {thread : Thread} {reply : Option Word}
    (invariant : LargeInvariant state) (hook : HookInvariant target)
    (unpending : RepliesUnpending state (.raw thread reply))
    (found : LargeReallocsFound state (.raw thread reply))
    (taken : hookRaw state thread reply = some target) :
    LargeInvariant target := by
  cases pc : state.threads thread with
  | mallocRaw size =>
      have calm : ∀ ptr, ¬ (state.threads thread).excuses ptr := by
        intro ptr
        rw [pc]
        exact id
      cases reply with
      | none =>
          simp only [hookRaw, pc, Option.some.injEq] at taken
          subst taken
          refine invariant.of_largeKeeps hook
            (.moves rfl rfl rfl (HookPc.not_removes (by simp)) ?_)
          exact fun ptr old => (calm ptr old).elim
      | some ptr =>
          simp only [hookRaw, pc, Option.ite_none_right_eq_some] at taken
          obtain ⟨_, taken⟩ := taken
          split at taken
          · rw [Option.some.injEq] at taken
            subst taken
            refine invariant.of_largeKeeps hook
              (.grants_new unpending (HookPc.not_removes (by simp)) calm ?_)
            exact Or.inl (show 0 < mttSampleExemptThreshold by decide)
          · rw [Option.some.injEq] at taken
            subst taken
            refine invariant.of_largeKeeps hook
              (.grants_new unpending (HookPc.not_removes (by simp)) calm ?_)
            exact Or.inr rfl
  | reallocRaw ptr size entryFound =>
      cases reply with
      | none =>
          simp only [hookRaw, pc, Option.some.injEq] at taken
          subst taken
          refine invariant.of_largeKeeps hook
            (.handsOver rfl rfl rfl (HookPc.not_removes (by simp)) ?_)
          intro other old
          rw [pc] at old
          exact old.elim
      | some new =>
          simp only [hookRaw, pc, Option.ite_none_right_eq_some,
            Option.some.injEq] at taken
          obtain ⟨_, rfl⟩ := taken
          refine invariant.of_largeKeeps hook (.moves_block pc unpending ?_)
          rintro rfl
          change (state.threads thread).smallUnlessFound = true at found
          rw [pc] at found
          exact of_decide_eq_true found
  | idle | sample | subtract | capacity | entryNew | insert | freeRemove
  | freeRaw | reallocFind | reallocRemove =>
      simp [hookRaw, pc] at taken

theorem LargeInvariant.step {state target : HookState Thread}
    {thread : Thread} (invariant : LargeInvariant state)
    (hook : HookInvariant target)
    (spare : mttIsOverCapacity state.table = false)
    (taken : hookStep state thread = some target) :
    LargeInvariant target := by
  have facts := invariant.hook.facts thread
  have table := invariant.hook.table
  cases pc : state.threads thread with
  | sample ptr size =>
      rw [pc] at facts
      simp only [hookStep, pc, Option.some.injEq] at taken
      subst taken
      cases verdict : (mttShouldTrackEnter state.sampler size).1 with
      | track | trackAndSubtract =>
          simp only [verdict] at hook ⊢
          refine invariant.of_largeKeeps hook
            (.moves rfl rfl rfl (HookPc.not_removes (by simp)) ?_)
          intro other old
          rwa [pc] at old
      | skip =>
          simp only [verdict] at hook ⊢
          refine invariant.of_largeKeeps hook
            (.handsOver rfl rfl rfl (HookPc.not_removes (by simp)) ?_)
          intro other old
          rw [pc] at old
          cases old
          refine Or.inr fun grant granted => ?_
          obtain ⟨before, given, same⟩ := HookState.handOver_size granted
          have sameGrant := facts.symm.trans given
          rw [Option.some.injEq] at sameGrant
          rw [← same, ← sameGrant]
          exact mttShouldTrackEnter_skip_small verdict
  | subtract ptr size =>
      simp only [hookStep, pc, Option.some.injEq] at taken
      subst taken
      refine invariant.of_largeKeeps hook
        (.moves rfl rfl rfl (HookPc.not_removes (by simp)) ?_)
      intro other old
      rwa [pc] at old
  | capacity ptr size =>
      simp only [hookStep, pc, spare, Bool.false_eq_true, if_false,
        Option.some.injEq] at taken
      subst taken
      refine invariant.of_largeKeeps hook
        (.moves rfl rfl rfl (HookPc.not_removes (by simp)) ?_)
      intro other old
      rwa [pc] at old
  | insert ptr size =>
      rw [pc] at facts
      simp only [hookStep, pc, hookInsert, spare, Bool.false_eq_true, if_false,
        Option.some.injEq] at taken
      subst taken
      have nonNull : ptr ≠ 0 := by
        rintro rfl
        have given := invariant.hook.null.symm.trans facts
        contradiction
      refine invariant.of_largeKeeps hook (.records facts nonNull ?_)
      intro other old
      rw [pc] at old
      exact old.symm
  | freeRemove ptr =>
      simp only [hookStep, pc, Option.some.injEq] at taken
      subst taken
      refine invariant.of_largeKeeps hook
        (.removes_entry table (HookPc.not_removes (by simp)) (Or.inl rfl) ?_)
      intro other old
      rwa [pc] at old
  | freeRaw ptr =>
      simp only [hookStep, pc, Option.some.injEq] at taken
      subst taken
      refine invariant.of_largeKeeps hook (.frees ?_)
      intro other old
      rw [pc] at old
      exact old.symm
  | reallocFind ptr size =>
      simp only [hookStep, pc, Option.some.injEq] at taken
      subst taken
      refine invariant.of_largeKeeps hook
        (.moves rfl rfl rfl (HookPc.not_removes (by simp)) ?_)
      intro other old
      rw [pc] at old
      exact old.elim
  | reallocRemove old new size =>
      simp only [hookStep, pc, Option.some.injEq] at taken
      subst taken
      have covers := invariant.pending thread old new size pc
      refine invariant.of_largeKeeps hook
        (.removes_entry table (HookPc.not_removes (by simp)) covers ?_)
      intro other excused
      rwa [pc] at excused
  | idle | mallocRaw | entryNew | reallocRaw => simp [hookStep, pc] at taken

theorem LargeInvariant.entryNew {state target : HookState Thread}
    {thread : Thread} {succeeds : Bool} (invariant : LargeInvariant state)
    (hook : HookInvariant target)
    (slot : (state.threads thread).entersLarge = true → succeeds = true)
    (taken : hookNext state (.entryNew thread succeeds) = some target) :
    LargeInvariant target := by
  have facts := invariant.hook.facts thread
  cases pc : state.threads thread with
  | entryNew ptr size =>
      rw [pc] at facts slot
      simp only [hookNext, pc, Option.some.injEq] at taken
      subst taken
      cases succeeds with
      | true =>
          simp only [if_true] at hook ⊢
          refine invariant.of_largeKeeps hook
            (.moves rfl rfl rfl (HookPc.not_removes (by simp)) ?_)
          intro other old
          rwa [pc] at old
      | false =>
          simp only [Bool.false_eq_true, if_false] at hook ⊢
          refine invariant.of_largeKeeps hook
            (.handsOver rfl rfl rfl (HookPc.not_removes (by simp)) ?_)
          intro other old
          rw [pc] at old
          cases old
          refine Or.inr fun grant granted => ?_
          obtain ⟨before, given, same⟩ := HookState.handOver_size granted
          have sameGrant := facts.symm.trans given
          rw [Option.some.injEq] at sameGrant
          rw [← same, ← sameGrant]
          by_contra large
          exact Bool.false_ne_true
            (slot (decide_eq_true (Nat.not_lt.mp large)))
  | idle | mallocRaw | sample | subtract | capacity | insert | freeRemove
  | freeRaw | reallocFind | reallocRaw | reallocRemove =>
      simp [hookNext, pc] at taken

theorem LargeInvariant.next {state target : HookState Thread}
    {label : ScanLabel Thread} (invariant : LargeInvariant state)
    (tracked : LargeTracked state label)
    (taken : hookNext state label.hook = some target) :
    LargeInvariant target := by
  have hook := invariant.hook.next (invariant.insertsFresh label.hook) taken
  cases label with
  | call thread call =>
      simp only [ScanLabel.hook, hookNext, Option.ite_none_right_eq_some]
        at taken
      exact invariant.enter hook taken.1 taken.2
  | raw thread reply =>
      exact invariant.raw hook tracked.unpending tracked.found taken
  | entryNew thread scan => exact invariant.entryNew hook tracked.slot taken
  | step thread => exact invariant.step hook tracked.neverFull taken

theorem largeInvariant_reachable {state : HookState Thread}
    (reachable : (slotScanSystem Thread).ReachableBy LargeTracked state) :
    LargeInvariant state := by
  refine reachable.invariant LargeInvariant ?_ ?_
  · intro initial starts
    refine ⟨hookInvariant_initial starts, ?_, ?_⟩
    · intro thread old new size pc
      rw [starts.2.2.2 thread] at pc
      contradiction
    · intro ptr grant granted
      rw [starts.2.2.1 ptr] at granted
      contradiction
  · intro before label after invariant tracked taken
    exact invariant.next tracked taken

theorem LargeInvariant.found_of_recorded {state target : HookState Thread}
    {label : HookLabel Thread} (invariant : LargeInvariant state)
    (unpending : RepliesUnpending state label)
    (taken : hookNext state label = some target)
    (recorded : LargeBlocksRecorded target) :
    LargeReallocsFound state label := by
  have hook := invariant.hook.next (invariant.insertsFresh label) taken
  cases label with
  | call | entryNew | step => trivial
  | raw thread reply =>
      cases reply with
      | none => trivial
      | some new =>
          change (state.threads thread).smallUnlessFound = true
          cases pc : state.threads thread with
          | reallocRaw ptr size found =>
              cases found with
              | true => rfl
              | false =>
                  refine decide_eq_true ?_
                  by_contra large
                  simp only [hookNext, hookRaw, pc,
                    Option.ite_none_right_eq_some, Option.some.injEq] at taken
                  obtain ⟨_, rfl⟩ := taken
                  have granted := HookState.setGrant_same
                    (state.setGrant ptr none) new
                    (some ⟨size, none, none⟩)
                  obtain ⟨entry, present, _⟩ := recorded new _ granted rfl
                    (Nat.not_lt.mp large)
                  rcases hook.entries new entry present with
                    matching | removing
                  · obtain ⟨grant, given, _, number⟩ := matching
                    have same := granted.symm.trans given
                    rw [Option.some.injEq] at same
                    rw [← same] at number
                    contradiction
                  · obtain ⟨other, removing⟩ := removing
                    by_cases same : other = thread
                    · subst same
                      obtain ⟨_, _, removing⟩ := removing
                      simp [HookState.setThread] at removing
                    · refine unpending other ?_
                      simp only [HookState.setThread,
                        Function.update_of_ne same] at removing
                      exact removing
          | idle | mallocRaw | sample | subtract | capacity | entryNew
          | insert | freeRemove | freeRaw | reallocFind | reallocRemove =>
              rfl

theorem LargeInvariant.slot_of_recorded {state target : HookState Thread}
    {label : ScanLabel Thread} (invariant : LargeInvariant state)
    (taken : hookNext state label.hook = some target)
    (recorded : LargeBlocksRecorded target) :
    LargeFindsSlot state label := by
  cases label with
  | call | raw | step => trivial
  | entryNew thread scan =>
      intro enters
      have facts := invariant.hook.facts thread
      cases pc : state.threads thread with
      | entryNew ptr size =>
          rw [pc] at enters facts
          by_contra missed
          simp only [ScanLabel.hook, hookNext, pc, missed, if_false,
            Option.some.injEq] at taken
          subst taken
          have granted := state.handOver_same facts none
          obtain ⟨entry, present, _⟩ := recorded ptr _ granted rfl
            (of_decide_eq_true enters)
          have missing := invariant.unrecorded facts
            (HookPc.not_removes (by simp [pc]) ptr)
          have found := present.symm.trans missing
          contradiction
      | idle | mallocRaw | sample | subtract | capacity | insert
      | freeRemove | freeRaw | reallocFind | reallocRaw | reallocRemove =>
          simp [HookPc.entersLarge, pc] at enters

/-- Byte sampling from the start. -/
def Sampler.bytes (rate : Nat) : Sampler :=
  { Sampler.everything with sampleRate := rate }

instance (state : HookState Thread) (label : ScanLabel Thread) :
    Decidable (NeverFull state label) :=
  match label with
  | .step _ =>
      inferInstanceAs (Decidable (mttIsOverCapacity state.table = false))
  | .entryNew _ (.pool _ _ spare) => inferInstanceAs (Decidable (spare = true))
  | .entryNew _ (.fallback _) | .call _ _ | .raw _ _ => isTrue trivial

instance (state : HookState Thread) (label : ScanLabel Thread) :
    Decidable (LargeFindsSlot state label) :=
  match label with
  | .entryNew thread scan =>
      inferInstanceAs (Decidable ((state.threads thread).entersLarge = true →
        scan.finds = true))
  | .call _ _ | .raw _ _ | .step _ => isTrue trivial

instance (pc : HookPc) (ptr : Word) : Decidable (pc.removes ptr) :=
  match pc with
  | .reallocRemove old new size =>
      decidable_of_iff (old = ptr)
        ⟨fun same => ⟨new, size, same ▸ rfl⟩,
          fun ⟨_, _, same⟩ => (HookPc.reallocRemove.inj same).1⟩
  | .idle | .mallocRaw _ | .sample _ _ | .subtract _ _ | .capacity _ _
  | .entryNew _ _ | .insert _ _ | .freeRemove _ | .freeRaw _
  | .reallocFind _ _ | .reallocRaw _ _ _ =>
      isFalse fun ⟨_, _, same⟩ => HookPc.noConfusion same

instance [Fintype Thread] (state : HookState Thread)
    (label : HookLabel Thread) : Decidable (RepliesUnpending state label) :=
  match label with
  | .raw _ (some ptr) =>
      inferInstanceAs
        (Decidable (∀ thread, ¬ (state.threads thread).removes ptr))
  | .raw _ none | .call _ _ | .entryNew _ _ | .step _ => isTrue trivial

instance (state : HookState Thread) (label : HookLabel Thread) :
    Decidable (LargeReallocsFound state label) :=
  match label with
  | .raw thread (some _) =>
      inferInstanceAs
        (Decidable ((state.threads thread).smallUnlessFound = true))
  | .raw _ none | .call _ _ | .entryNew _ _ | .step _ => isTrue trivial

instance [Fintype Thread] (state : HookState Thread)
    (label : ScanLabel Thread) : Decidable (LargeTracked state label) :=
  decidable_of_iff (NeverFull state label ∧
      RepliesUnpending state label.hook ∧ LargeFindsSlot state label ∧
      LargeReallocsFound state label.hook)
    ⟨fun ⟨neverFull, unpending, slot, found⟩ =>
        ⟨neverFull, unpending, slot, found⟩,
      fun ⟨neverFull, unpending, slot, found⟩ =>
        ⟨neverFull, unpending, slot, found⟩⟩

/-- The own list is empty, another thread holds the next three locks, and the
list behind an empty one has a slot. -/
def farSlot : EntryScan :=
  .pool false (fun k => if k.val < 3 then .contended
    else if k.val < 4 then .empty else .slot) true

/-- All other lists are locked by other threads. -/
def allContended : EntryScan :=
  .pool false (fun _ => .contended) true

/-- A large block is recorded through a far slot and grows, while a sampled
block of another thread gets no slot. -/
def largeGrows : List (ScanLabel Worker) :=
  [.call .first (.malloc 4096), .raw .first (some 16), .step .first,
    .call .second (.malloc 1000), .raw .second (some 48), .step .second,
    .step .first, .step .second, .step .second, .entryNew .first farSlot,
    .entryNew .second allContended, .step .first,
    .call .first (.realloc 16 8192), .step .first, .raw .first (some 32),
    .step .first, .step .first, .entryNew .first (.fallback true),
    .step .first]

/-- A block below the threshold is skipped by sampling and grows to 2000
bytes. -/
def grownBlock : List (ScanLabel Worker) :=
  [.call .first (.malloc 1), .raw .first (some 16), .step .first,
    .call .first (.realloc 16 2000), .step .first, .raw .first (some 32)]

end MemoryTraceTool
