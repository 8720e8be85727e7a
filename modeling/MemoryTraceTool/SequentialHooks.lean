import MemoryTraceTool.EntryTable
import MemoryTraceTool.HookInterleaving
import MemoryTraceTool.Lib.Transition
import MemoryTraceTool.Sampling

/-!
# Complete hook calls, one after the other

The `malloc`, `calloc`, `realloc` and `free` hooks with all their paths: a
nested call, a thread without a slot, a caller in a blacklisted library and a
tool-internal thread go to the raw allocator without a look at the entry
table.  The ghost `blocks` holds what the raw allocator has handed out and the
size last asked for.
-/

namespace MemoryTraceTool.Sequential

open Transition

def mttHookDepthMax : Nat := 8

/-- The fields of a per-thread slot that the hooks read. -/
structure ThreadSlot where
  depthInited : Bool
  hookDepth : Nat
  toolInternal : Bool
  deriving DecidableEq, Repr

/-- The slot of the calling thread, if it has one, the return address of the
call, and the one that a hook called from this hook sees. -/
structure Caller where
  slot : Option ThreadSlot
  lr : Word
  innerLr : Word
  deriving DecidableEq, Repr

/-- What initialisation and symbol resolution found. -/
structure ToolConfig where
  disabled : Bool
  blacklistFastEnabled : Bool
  blacklistRanges : List (Word × Word)
  pool : Option (Word × Nat)
  rawMalloc : Bool
  rawFree : Bool
  rawRealloc : Bool
  deriving DecidableEq, Repr

structure TrackerState where
  initialized : Bool
  disabled : Bool
  table : EntryTable
  allocSeq : Nat
  sampler : Sampler
  blocks : Word → Option Nat

/-- The answer of the raw allocator, whether the startup phase lasts, and
whether `mtt_entry_new` finds a slot. -/
structure CallEnv where
  reply : Option Word
  startup : Bool
  entryNew : Bool
  deriving DecidableEq, Repr

inductive AllocCall where
  | malloc (size : Nat)
  | calloc (count size : Nat)
  | realloc (ptr : Word) (size : Nat)
  | free (ptr : Word)
  deriving DecidableEq, Repr

structure HookEvent where
  caller : Caller
  call : AllocCall
  env : CallEnv
  deriving DecidableEq, Repr

/-! ## The raw allocator -/

namespace TrackerState

def setBlock (state : TrackerState) (ptr : Word) (size : Option Nat) :
    TrackerState :=
  { state with blocks := Function.update state.blocks ptr size }

end TrackerState

variable (config : ToolConfig)

/-- `raw_malloc`, or NULL where it is missing. -/
def rawMalloc (state : TrackerState) (env : CallEnv) (size : Nat) :
    TrackerState × Word :=
  match env.reply with
  | some ptr =>
      if config.rawMalloc then (state.setBlock ptr (some size), ptr)
      else (state, 0)
  | none => (state, 0)

def rawFree (state : TrackerState) (ptr : Word) : TrackerState :=
  if config.rawFree then state.setBlock ptr none else state

def rawRealloc (state : TrackerState) (env : CallEnv) (ptr : Word)
    (size : Nat) : TrackerState × Word :=
  match env.reply with
  | some new => ((state.setBlock ptr none).setBlock new (some size), new)
  | none => (state, 0)

/-- The realloc of the paths that do not track: `raw_realloc`, or a new block
and the release of the old one. -/
def bypassRealloc (state : TrackerState) (env : CallEnv) (ptr : Word)
    (size : Nat) : TrackerState × Word :=
  if config.rawRealloc then rawRealloc state env ptr size
  else
    let (allocated, new) := rawMalloc config state env size
    if new = 0 then (allocated, 0) else (rawFree config allocated ptr, new)

/-! ## The hooks -/

/-- The depth of the thread, corrected when it cannot be right; -1 without a
slot. -/
def mttHookEnter : Option ThreadSlot → Int
  | none => -1
  | some slot =>
      if slot.depthInited then
        if mttHookDepthMax < slot.hookDepth then 0 else slot.hookDepth
      else 0

/-- The ranges are filled during initialisation. -/
def mttIsLrInBlacklist (state : TrackerState) (lr : Word) : Bool :=
  state.initialized && config.blacklistFastEnabled && lr != 0 &&
    config.blacklistRanges.any fun (first, last) =>
      decide (first ≤ lr) && decide (lr < last)

def mttPoolContains (state : TrackerState) (ptr : Word) : Bool :=
  match config.pool with
  | none => false
  | some (base, rawSize) =>
      ptr != 0 && state.initialized && decide (base.toNat ≤ ptr.toNat) &&
        decide (ptr.toNat < base.toNat + rawSize)

def mttEnsureInit (state : TrackerState) : TrackerState :=
  if state.initialized then state
  else { state with initialized := true, disabled := config.disabled }

/-- From the capacity check to `mtt_entry_add`. -/
def recordBlock (state : TrackerState) (env : CallEnv) (ptr : Word)
    (size : Nat) : TrackerState :=
  if mttIsOverCapacity state.table || !env.entryNew then state
  else
    let allocNum := state.allocSeq + 1
    { state with
      allocSeq := allocNum
      table := mttEntryAdd state.table ⟨ptr, size, allocNum⟩ }

/-- `raw_malloc`, sampling, and the record of the block. -/
def trackedMalloc (state : TrackerState) (env : CallEnv) (size : Nat) :
    TrackerState × Word :=
  let (allocated, ptr) := rawMalloc config state env size
  if ptr = 0 then (allocated, 0)
  else
    let (track, sampler) := mttShouldTrack allocated.sampler size
    let sampled : TrackerState := { allocated with sampler := sampler }
    (if track then recordBlock sampled env ptr size else sampled, ptr)

def mallocHook (state : TrackerState) (caller : Caller) (lr : Word)
    (env : CallEnv) (size : Nat) : TrackerState × Word :=
  if 0 < mttHookEnter caller.slot then rawMalloc config state env size
  else
    match caller.slot with
    | none => rawMalloc config state env size
    | some slot =>
        if mttIsLrInBlacklist config state lr then
          rawMalloc config state env size
        else if slot.toolInternal then rawMalloc config state env size
        else if !config.rawMalloc then (state, 0)
        else if size = 0 then rawMalloc config state env 0
        else
          let ready := mttEnsureInit config state
          if env.startup then rawMalloc config ready env size
          else if ready.disabled then rawMalloc config ready env size
          else trackedMalloc config ready env size

/-- The hook of `free`. -/
def freeHook (state : TrackerState) (caller : Caller) (lr ptr : Word) :
    TrackerState :=
  if ptr = 0 then state
  else if mttPoolContains config state ptr then state
  else if 0 < mttHookEnter caller.slot then rawFree config state ptr
  else
    match caller.slot with
    | none => rawFree config state ptr
    | some slot =>
        if mttIsLrInBlacklist config state lr then rawFree config state ptr
        else if slot.toolInternal then rawFree config state ptr
        else if !config.rawFree then state
        else
          let ready := mttEnsureInit config state
          if ready.disabled then rawFree config ready ptr
          else
            rawFree config
              { ready with table := mttEntryRemove ready.table ptr } ptr

/-- The product is checked before every use; a tracked block comes from the
malloc hook. -/
def callocHook (state : TrackerState) (caller : Caller) (env : CallEnv)
    (count size : Nat) : TrackerState × Word :=
  match arraySize count size with
  | none => (state, 0)
  | some total =>
      if 0 < mttHookEnter caller.slot then rawMalloc config state env total
      else
        match caller.slot with
        | none => rawMalloc config state env total
        | some slot =>
            if slot.toolInternal then rawMalloc config state env total
            else if mttIsLrInBlacklist config state caller.lr then
              rawMalloc config state env total
            else mallocHook config state caller caller.innerLr env total

/-- The tracked path with `raw_realloc`: a found entry is replaced. -/
def trackedRealloc (state : TrackerState) (env : CallEnv) (ptr : Word)
    (size : Nat) : TrackerState × Word :=
  let found := (mttEntryFind state.table ptr).isSome
  let (moved, new) := rawRealloc state env ptr size
  if new = 0 then (moved, 0)
  else if found then
    let removed : TrackerState :=
      { moved with table := mttEntryRemove moved.table ptr }
    (recordBlock removed env new size, new)
  else (moved, new)

/-- The tracked path without `raw_realloc`. -/
def trackedReallocFallback (state : TrackerState) (env : CallEnv)
    (ptr : Word) (size : Nat) : TrackerState × Word :=
  let (allocated, new) := rawMalloc config state env size
  if new = 0 then (allocated, 0)
  else if !env.entryNew then (rawFree config allocated new, 0)
  else
    let removed : TrackerState :=
      { allocated with table := mttEntryRemove allocated.table ptr }
    (rawFree config (recordBlock removed env new size) ptr, new)

/-- The hook of `realloc`. -/
def reallocHook (state : TrackerState) (caller : Caller) (env : CallEnv)
    (ptr : Word) (size : Nat) : TrackerState × Word :=
  if ptr = 0 then mallocHook config state caller caller.innerLr env size
  else if size = 0 then (freeHook config state caller caller.innerLr ptr, 0)
  else if 0 < mttHookEnter caller.slot then
    bypassRealloc config state env ptr size
  else
    match caller.slot with
    | none => bypassRealloc config state env ptr size
    | some slot =>
        if mttIsLrInBlacklist config state caller.lr then
          bypassRealloc config state env ptr size
        else if slot.toolInternal then
          bypassRealloc config state env ptr size
        else if !config.rawMalloc then (state, 0)
        else
          let ready := mttEnsureInit config state
          if ready.disabled then bypassRealloc config ready env ptr size
          else if config.rawRealloc then trackedRealloc ready env ptr size
          else trackedReallocFallback config ready env ptr size

/-- One call from beginning to end. -/
def hookCall (state : TrackerState) (event : HookEvent) : TrackerState :=
  match event.call with
  | .malloc size =>
      (mallocHook config state event.caller event.caller.lr event.env size).1
  | .calloc count size =>
      (callocHook config state event.caller event.env count size).1
  | .realloc ptr size =>
      (reallocHook config state event.caller event.env ptr size).1
  | .free ptr => freeHook config state event.caller event.caller.lr ptr

/-! ## Runs of calls -/

/-- Only blocks in the application's hands are freed and reallocated. -/
def AllocCall.live (state : TrackerState) : AllocCall → Bool
  | .malloc _ | .calloc _ _ => true
  | .realloc ptr _ | .free ptr => ptr == 0 || (state.blocks ptr).isSome

/-- The raw allocator returns free addresses; `raw_realloc` may return the
block it was given. -/
def HookEvent.fresh (event : HookEvent) (state : TrackerState) : Bool :=
  match event.env.reply with
  | none => true
  | some new =>
      new != 0 &&
        ((state.blocks new).isNone ||
          match event.call with
          | .realloc ptr _ => config.rawRealloc && new == ptr
          | _ => false)

/-- Calls from any callers, starting before the tool is initialised. -/
def sequentialSystem : System TrackerState HookEvent where
  init := fun state =>
    state.initialized = false ∧ state.disabled = false ∧
      (∃ seed, state.table = EntryTable.empty seed) ∧
      ∀ ptr, state.blocks ptr = none
  next := fun state event =>
    if event.call.live state && event.fresh config state then
      some (hookCall config state event)
    else none

/-- Every entry is a block that is allocated, with the size last asked for,
and no two entries have the same address. -/
structure TableMatches (state : TrackerState) : Prop where
  entries : ∀ bucket, ∀ entry ∈ state.table.buckets bucket,
    state.blocks entry.ptr = some entry.size
  nodup : ∀ bucket, (state.table.buckets bucket).Nodup
  distinct : ∀ first second, ∀ entry ∈ state.table.buckets first,
    ∀ other ∈ state.table.buckets second, entry.ptr = other.ptr →
      first = second ∧ entry = other

/-! ## Calls that leave the table alone -/

/-- The call does not look at the entry table. -/
def Caller.bypasses (caller : Caller) (state : TrackerState) (lr : Word) :
    Bool :=
  decide (0 < mttHookEnter caller.slot) ||
    match caller.slot with
    | none => true
    | some slot => mttIsLrInBlacklist config state lr || slot.toolInternal

def untracked (state : TrackerState) (ptr : Word) : Bool :=
  (mttEntryFind state.table ptr).isNone

/-- A free that reaches `raw_free` without a look at the table. -/
def freesUnseen (state : TrackerState) (caller : Caller) (lr ptr : Word) :
    Bool :=
  caller.bypasses config state lr && config.rawFree &&
    !mttPoolContains config state ptr

/-- The raw allocator gives the block up or changes its size. -/
def reallocMoves (state : TrackerState) (env : CallEnv) (ptr : Word)
    (size : Nat) : Bool :=
  match env.reply with
  | none => false
  | some new =>
      if config.rawRealloc then new != ptr || state.blocks ptr != some size
      else config.rawMalloc && config.rawFree

/-- No block with an entry is freed, moved or resized by a call that does not
look at the table. -/
def KeepsTracked (state : TrackerState) (event : HookEvent) : Bool :=
  let caller := event.caller
  match event.call with
  | .malloc _ | .calloc _ _ => true
  | .free ptr =>
      untracked state ptr || !freesUnseen config state caller caller.lr ptr
  | .realloc ptr size =>
      untracked state ptr ||
        if size = 0 then
          !freesUnseen config state caller caller.innerLr ptr
        else
          !(caller.bypasses config state caller.lr &&
            reallocMoves config state event.env ptr size)

/-! ## A call bypasses the table or goes through it -/

section Paths

variable {config} {state : TrackerState} {caller : Caller} {lr : Word}
  {env : CallEnv}

theorem Caller.not_bypasses
    (tracked : caller.bypasses config state lr = false) :
    ¬ 0 < mttHookEnter caller.slot ∧ ∃ slot, caller.slot = some slot ∧
      mttIsLrInBlacklist config state lr = false ∧
        slot.toolInternal = false := by
  unfold bypasses at tracked
  rw [Bool.or_eq_false_iff, decide_eq_false_iff_not] at tracked
  refine ⟨tracked.1, ?_⟩
  cases here : caller.slot with
  | none => simp [here] at tracked
  | some slot =>
      rw [here] at tracked
      exact ⟨slot, rfl, Bool.or_eq_false_iff.mp tracked.2⟩

theorem Caller.bypasses_cases
    (bypasses : caller.bypasses config state lr = true) :
    0 < mttHookEnter caller.slot ∨
      ¬ 0 < mttHookEnter caller.slot ∧
        (caller.slot = none ∨ ∃ slot, caller.slot = some slot ∧
          (mttIsLrInBlacklist config state lr || slot.toolInternal) =
            true) := by
  unfold Caller.bypasses at bypasses
  by_cases nested : 0 < mttHookEnter caller.slot
  · exact Or.inl nested
  · refine Or.inr ⟨nested, ?_⟩
    cases here : caller.slot with
    | none => exact Or.inl rfl
    | some slot =>
        rw [decide_eq_false nested, Bool.false_or, here] at bypasses
        exact Or.inr ⟨slot, rfl, bypasses⟩

theorem mallocHook_of_bypasses
    (bypasses : caller.bypasses config state lr = true) (size : Nat) :
    mallocHook config state caller lr env size =
      rawMalloc config state env size := by
  unfold mallocHook
  rcases Caller.bypasses_cases bypasses with
    nested | ⟨outermost, missing | ⟨slot, here, excused⟩⟩
  · rw [if_pos nested]
  · rw [if_neg outermost, missing]
  · rw [if_neg outermost, here]
    rcases Bool.or_eq_true_iff.mp excused with listed | internal
    · simp [listed]
    · simp [internal]

theorem mallocHook_of_not_bypasses
    (tracked : caller.bypasses config state lr = false) (size : Nat) :
    mallocHook config state caller lr env size =
      if !config.rawMalloc then (state, 0)
      else if size = 0 then rawMalloc config state env 0
      else if env.startup || (mttEnsureInit config state).disabled then
        rawMalloc config (mttEnsureInit config state) env size
      else trackedMalloc config (mttEnsureInit config state) env size := by
  obtain ⟨outermost, slot, here, listed, internal⟩ :=
    Caller.not_bypasses tracked
  unfold mallocHook
  rw [if_neg outermost, here]
  cases startup : env.startup <;> simp [listed, internal]

theorem freeHook_of_bypasses {ptr : Word} (nonNull : ptr ≠ 0)
    (outside : mttPoolContains config state ptr = false)
    (bypasses : caller.bypasses config state lr = true) :
    freeHook config state caller lr ptr = rawFree config state ptr := by
  unfold freeHook
  rw [if_neg nonNull, outside, if_neg Bool.false_ne_true]
  rcases Caller.bypasses_cases bypasses with
    nested | ⟨outermost, missing | ⟨slot, here, excused⟩⟩
  · rw [if_pos nested]
  · rw [if_neg outermost, missing]
  · rw [if_neg outermost, here]
    rcases Bool.or_eq_true_iff.mp excused with listed | internal
    · simp [listed]
    · simp [internal]

theorem freeHook_of_not_bypasses {ptr : Word} (nonNull : ptr ≠ 0)
    (outside : mttPoolContains config state ptr = false)
    (tracked : caller.bypasses config state lr = false) :
    freeHook config state caller lr ptr =
      if !config.rawFree then state
      else if (mttEnsureInit config state).disabled then
        rawFree config (mttEnsureInit config state) ptr
      else
        rawFree config { mttEnsureInit config state with
          table := mttEntryRemove (mttEnsureInit config state).table ptr }
          ptr := by
  obtain ⟨outermost, slot, here, listed, internal⟩ :=
    Caller.not_bypasses tracked
  unfold freeHook
  rw [if_neg nonNull, outside, if_neg Bool.false_ne_true, if_neg outermost,
    here]
  simp [listed, internal]

theorem reallocHook_of_bypasses {ptr : Word} {size : Nat}
    (nonNull : ptr ≠ 0) (positive : size ≠ 0)
    (bypasses : caller.bypasses config state caller.lr = true) :
    reallocHook config state caller env ptr size =
      bypassRealloc config state env ptr size := by
  unfold reallocHook
  rw [if_neg nonNull, if_neg positive]
  rcases Caller.bypasses_cases bypasses with
    nested | ⟨outermost, missing | ⟨slot, here, excused⟩⟩
  · rw [if_pos nested]
  · rw [if_neg outermost, missing]
  · rw [if_neg outermost, here]
    rcases Bool.or_eq_true_iff.mp excused with listed | internal
    · simp [listed]
    · simp [internal]

theorem reallocHook_of_not_bypasses {ptr : Word} {size : Nat}
    (nonNull : ptr ≠ 0) (positive : size ≠ 0)
    (tracked : caller.bypasses config state caller.lr = false) :
    reallocHook config state caller env ptr size =
      if !config.rawMalloc then (state, 0)
      else if (mttEnsureInit config state).disabled then
        bypassRealloc config (mttEnsureInit config state) env ptr size
      else if config.rawRealloc then
        trackedRealloc (mttEnsureInit config state) env ptr size
      else
        trackedReallocFallback config (mttEnsureInit config state) env ptr
          size := by
  obtain ⟨outermost, slot, here, listed, internal⟩ :=
    Caller.not_bypasses tracked
  unfold reallocHook
  rw [if_neg nonNull, if_neg positive, if_neg outermost, here]
  simp [listed, internal]

theorem callocHook_cases (count size : Nat) :
    callocHook config state caller env count size = (state, 0) ∨
    ∃ total, callocHook config state caller env count size =
        rawMalloc config state env total ∨
      callocHook config state caller env count size =
        mallocHook config state caller caller.innerLr env total := by
  unfold callocHook
  cases arraySize count size with
  | none => exact Or.inl rfl
  | some total =>
      refine Or.inr ⟨total, ?_⟩
      dsimp only
      split
      · exact Or.inl rfl
      · cases caller.slot with
        | none => exact Or.inl rfl
        | some slot =>
            dsimp only
            split
            · exact Or.inl rfl
            · split
              · exact Or.inl rfl
              · exact Or.inr rfl

end Paths

/-! ## What the tracked paths keep -/

section Keeps

/-- What holds between the calls. -/
structure SequentialInvariant (state : TrackerState) : Prop where
  table : state.table.WellFormed
  null : state.blocks 0 = none
  entries : ∀ bucket, ∀ entry ∈ state.table.buckets bucket,
    state.blocks entry.ptr = some entry.size
  unused : state.initialized = false ∨ state.disabled = true →
    ∀ bucket, state.table.buckets bucket = []

/-- No entry has the address. -/
def Absent (state : TrackerState) (ptr : Word) : Prop :=
  ∀ bucket, ∀ entry ∈ state.table.buckets bucket, entry.ptr ≠ ptr

variable {config} {state : TrackerState} {env : CallEnv} {ptr : Word}

namespace SequentialInvariant

theorem ptr_ne_zero (invariant : SequentialInvariant state) {bucket : Nat}
    {entry : MttEntry} (member : entry ∈ state.table.buckets bucket) :
    entry.ptr ≠ 0 := by
  intro zero
  have allocated := invariant.entries bucket entry member
  rw [zero, invariant.null] at allocated
  cases allocated

theorem absent_of_free (invariant : SequentialInvariant state)
    (free : state.blocks ptr = none) : Absent state ptr := by
  rintro bucket entry member rfl
  rw [invariant.entries bucket entry member] at free
  cases free

theorem absent_of_untracked (invariant : SequentialInvariant state)
    (missing : untracked state ptr = true) : Absent state ptr := by
  rintro bucket entry member rfl
  have found := mttEntryFind_of_mem invariant.table member
    (invariant.ptr_ne_zero member)
  simp [untracked, found] at missing

theorem tableMatches (invariant : SequentialInvariant state) :
    TableMatches state := by
  refine ⟨invariant.entries, ?_, ?_⟩
  · exact fun bucket => (invariant.table.distinct bucket).of_map _
  · intro first second entry member other otherMember same
    have here := mttEntryFind_of_mem invariant.table member
      (invariant.ptr_ne_zero member)
    have there := mttEntryFind_of_mem invariant.table otherMember
      (invariant.ptr_ne_zero otherMember)
    rw [same, there, Option.some.injEq] at here
    subst here
    refine ⟨?_, rfl⟩
    rw [← invariant.table.placed first other member,
      invariant.table.placed second other otherMember]

/-- A block without an entry is allocated, resized or released. -/
theorem setBlock (invariant : SequentialInvariant state) (nonNull : ptr ≠ 0)
    (absent : Absent state ptr) (size : Option Nat) :
    SequentialInvariant (state.setBlock ptr size) := by
  refine ⟨invariant.table, ?_, ?_, invariant.unused⟩
  · exact (Function.update_of_ne nonNull.symm _ _).trans invariant.null
  · intro bucket entry member
    have different := absent bucket entry member
    exact (Function.update_of_ne different _ _).trans
      (invariant.entries bucket entry member)

theorem remove (invariant : SequentialInvariant state) (nonNull : ptr ≠ 0) :
    SequentialInvariant
      { state with table := mttEntryRemove state.table ptr } ∧
    Absent { state with table := mttEntryRemove state.table ptr } ptr := by
  have kept : ∀ bucket, ∀ entry ∈ (mttEntryRemove state.table ptr).buckets
      bucket, entry ∈ state.table.buckets bucket ∧ entry.ptr ≠ ptr :=
    fun _ _ member => mem_mttEntryRemove invariant.table nonNull member
  refine ⟨⟨invariant.table.remove ptr, invariant.null, ?_, ?_⟩, ?_⟩
  · intro bucket entry member
    exact invariant.entries bucket entry (kept bucket entry member).1
  · intro idle bucket
    rw [List.eq_nil_iff_forall_not_mem]
    intro entry member
    have old := (kept bucket entry member).1
    rw [invariant.unused idle bucket] at old
    cases old
  · exact fun bucket entry member => (kept bucket entry member).2

theorem sample (invariant : SequentialInvariant state) (sampler : Sampler) :
    SequentialInvariant { state with sampler := sampler } :=
  ⟨invariant.table, invariant.null, invariant.entries, invariant.unused⟩

theorem record (invariant : SequentialInvariant state) {size : Nat}
    (running : ¬ (state.initialized = false ∨ state.disabled = true))
    (nonNull : ptr ≠ 0) (absent : Absent state ptr)
    (allocated : state.blocks ptr = some size) :
    SequentialInvariant (recordBlock state env ptr size) := by
  unfold recordBlock
  split
  · exact invariant
  · have fresh : mttEntryFind state.table ptr = none := by
      cases found : mttEntryFind state.table ptr with
      | none => rfl
      | some entry =>
          obtain ⟨bucket, member⟩ := mem_of_mttEntryFind found
          exact (absent bucket entry member (mttEntryFind_ptr found)).elim
    refine ⟨invariant.table.add nonNull fresh, invariant.null, ?_,
      fun idle => (running idle).elim⟩
    intro bucket entry member
    rcases mem_mttEntryAdd member with rfl | old
    · exact allocated
    · exact invariant.entries bucket entry old

theorem ensureInit (invariant : SequentialInvariant state) :
    SequentialInvariant (mttEnsureInit config state) := by
  unfold mttEnsureInit
  split
  · exact invariant
  · rename_i fresh
    have unused := invariant.unused (Or.inl (by simpa using fresh))
    exact ⟨invariant.table, invariant.null, invariant.entries,
      fun _ => unused⟩

end SequentialInvariant

theorem mttEnsureInit_running
    (enabled : (mttEnsureInit config state).disabled = false) :
    ¬ ((mttEnsureInit config state).initialized = false ∨
      (mttEnsureInit config state).disabled = true) := by
  rw [enabled]
  unfold mttEnsureInit
  split
  · rename_i done
    simp [done]
  · simp

theorem mttEnsureInit_blocks :
    (mttEnsureInit config state).blocks = state.blocks := by
  unfold mttEnsureInit
  split <;> rfl

/-- The allocator answered with NULL, or with an address it may return. -/
theorem rawMalloc_cases (size : Nat) :
    rawMalloc config state env size = (state, 0) ∨
    ∃ new, env.reply = some new ∧ config.rawMalloc = true ∧
      rawMalloc config state env size =
        (state.setBlock new (some size), new) := by
  unfold rawMalloc
  cases reply : env.reply with
  | none => exact Or.inl rfl
  | some new =>
      dsimp only
      split
      · rename_i present
        exact Or.inr ⟨new, rfl, present, rfl⟩
      · exact Or.inl rfl

/-- What the reply of the raw allocator may be in a call that cannot resize
in place. -/
def FreshReply (state : TrackerState) (env : CallEnv) : Prop :=
  ∀ new, env.reply = some new → new ≠ 0 ∧ state.blocks new = none

theorem SequentialInvariant.after_rawMalloc (invariant : SequentialInvariant state)
    (fresh : FreshReply state env) (size : Nat) :
    SequentialInvariant (rawMalloc config state env size).1 := by
  rcases rawMalloc_cases size with same | ⟨new, reply, _, same⟩
  · rw [same]
    exact invariant
  · rw [same]
    obtain ⟨nonNull, free⟩ := fresh new reply
    exact invariant.setBlock nonNull (invariant.absent_of_free free) _

theorem SequentialInvariant.after_rawFree (invariant : SequentialInvariant state)
    (nonNull : ptr ≠ 0) (absent : Absent state ptr) :
    SequentialInvariant (rawFree config state ptr) := by
  unfold rawFree
  split
  · exact invariant.setBlock nonNull absent none
  · exact invariant

theorem SequentialInvariant.after_trackedMalloc
    (invariant : SequentialInvariant state)
    (running : ¬ (state.initialized = false ∨ state.disabled = true))
    (fresh : FreshReply state env) (size : Nat) :
    SequentialInvariant (trackedMalloc config state env size).1 := by
  unfold trackedMalloc
  rcases rawMalloc_cases size with same | ⟨new, reply, _, same⟩
  · rw [same]
    exact invariant
  · rw [same]
    obtain ⟨nonNull, free⟩ := fresh new reply
    have absent := invariant.absent_of_free free
    have allocated := invariant.setBlock nonNull absent (some size)
    dsimp only
    rw [if_neg nonNull]
    dsimp only
    split
    · apply SequentialInvariant.record (allocated.sample _) running nonNull
        absent
      exact Function.update_self _ _ _
    · exact allocated.sample _

theorem SequentialInvariant.after_mallocHook
    (invariant : SequentialInvariant state) (fresh : FreshReply state env)
    (caller : Caller) (lr : Word) (size : Nat) :
    SequentialInvariant (mallocHook config state caller lr env size).1 := by
  cases bypasses : caller.bypasses config state lr with
  | true =>
      rw [mallocHook_of_bypasses bypasses]
      exact invariant.after_rawMalloc fresh size
  | false =>
      have ready : SequentialInvariant (mttEnsureInit config state) :=
        invariant.ensureInit
      have readyFresh : FreshReply (mttEnsureInit config state) env := by
        unfold FreshReply
        rw [mttEnsureInit_blocks]
        exact fresh
      rw [mallocHook_of_not_bypasses bypasses]
      split
      · exact invariant
      · split
        · exact invariant.after_rawMalloc fresh 0
        · split
          · exact ready.after_rawMalloc readyFresh size
          · rename_i enabled
            rw [Bool.or_eq_true, not_or, Bool.not_eq_true,
              Bool.not_eq_true] at enabled
            exact ready.after_trackedMalloc (mttEnsureInit_running enabled.2)
              readyFresh size

/-- A block without an entry is released by the tracked path, or by a path
that must not meet an entry. -/
theorem SequentialInvariant.after_freeHook
    (invariant : SequentialInvariant state) (caller : Caller) (lr : Word)
    (keeps : untracked state ptr = true ∨
      freesUnseen config state caller lr ptr = false) :
    SequentialInvariant (freeHook config state caller lr ptr) := by
  by_cases null : ptr = 0
  · simpa [freeHook, null] using invariant
  · cases inside : mttPoolContains config state ptr with
    | true => simpa [freeHook, null, inside] using invariant
    | false =>
        cases bypasses : caller.bypasses config state lr with
        | true =>
            rw [freeHook_of_bypasses null inside bypasses]
            rcases keeps with missing | kept
            · exact invariant.after_rawFree null
                (invariant.absent_of_untracked missing)
            · have absent : config.rawFree = false := by
                simpa [freesUnseen, bypasses, inside] using kept
              simpa [rawFree, absent] using invariant
        | false =>
            have ready : SequentialInvariant (mttEnsureInit config state) :=
              invariant.ensureInit
            rw [freeHook_of_not_bypasses null inside bypasses]
            split
            · exact invariant
            · split
              · rename_i disabled
                apply ready.after_rawFree null
                intro bucket entry member
                rw [ready.unused (Or.inr disabled) bucket] at member
                cases member
              · obtain ⟨removed, absent⟩ := ready.remove null
                exact removed.after_rawFree null absent

/-- What the reply of `raw_realloc` may be. -/
def ResizeReply (state : TrackerState) (env : CallEnv) (ptr : Word) : Prop :=
  ∀ new, env.reply = some new →
    new ≠ 0 ∧ (state.blocks new = none ∨ new = ptr)

theorem rawRealloc_cases (size : Nat) :
    rawRealloc state env ptr size = (state, 0) ∨
    ∃ new, env.reply = some new ∧ rawRealloc state env ptr size =
      ((state.setBlock ptr none).setBlock new (some size), new) := by
  unfold rawRealloc
  cases reply : env.reply with
  | none => exact Or.inl rfl
  | some new => exact Or.inr ⟨new, rfl, rfl⟩

theorem Absent.resized (invariant : SequentialInvariant state)
    (absent : Absent state ptr) {new : Word}
    (free : state.blocks new = none ∨ new = ptr) : Absent state new := by
  rcases free with free | rfl
  · exact invariant.absent_of_free free
  · exact absent

theorem SequentialInvariant.move (invariant : SequentialInvariant state)
    (nonNull : ptr ≠ 0) (absent : Absent state ptr) {new : Word}
    (newNonNull : new ≠ 0) (free : state.blocks new = none ∨ new = ptr)
    (size : Nat) :
    SequentialInvariant
      ((state.setBlock ptr none).setBlock new (some size)) :=
  (invariant.setBlock nonNull absent none).setBlock newNonNull
    (absent.resized invariant free) _

theorem SequentialInvariant.after_rawRealloc
    (invariant : SequentialInvariant state) (nonNull : ptr ≠ 0)
    (absent : Absent state ptr) (reply : ResizeReply state env ptr)
    (size : Nat) :
    SequentialInvariant (rawRealloc state env ptr size).1 := by
  rcases rawRealloc_cases size with same | ⟨new, given, same⟩
  · rw [same]
    exact invariant
  · rw [same]
    obtain ⟨newNonNull, free⟩ := reply new given
    exact invariant.move nonNull absent newNonNull free size

theorem SequentialInvariant.after_bypassRealloc
    (invariant : SequentialInvariant state) (nonNull : ptr ≠ 0)
    (absent : Absent state ptr) (size : Nat)
    (resize : config.rawRealloc = true → ResizeReply state env ptr)
    (fresh : config.rawRealloc = false → FreshReply state env) :
    SequentialInvariant (bypassRealloc config state env ptr size).1 := by
  unfold bypassRealloc
  cases present : config.rawRealloc with
  | true =>
      rw [if_pos rfl]
      exact invariant.after_rawRealloc nonNull absent (resize present) size
  | false =>
      rw [if_neg Bool.false_ne_true]
      rcases rawMalloc_cases size with same | ⟨new, reply, _, same⟩
      · rw [same]
        exact invariant
      · rw [same]
        obtain ⟨newNonNull, free⟩ := fresh present new reply
        dsimp only
        rw [if_neg newNonNull]
        exact (invariant.setBlock newNonNull
          (invariant.absent_of_free free) _).after_rawFree nonNull absent

theorem absent_of_not_found (invariant : SequentialInvariant state)
    (missing : ¬ (mttEntryFind state.table ptr).isSome = true) :
    Absent state ptr := by
  apply invariant.absent_of_untracked
  simpa [untracked] using missing

theorem SequentialInvariant.after_trackedRealloc
    (invariant : SequentialInvariant state)
    (running : ¬ (state.initialized = false ∨ state.disabled = true))
    (nonNull : ptr ≠ 0) (reply : ResizeReply state env ptr) (size : Nat) :
    SequentialInvariant (trackedRealloc state env ptr size).1 := by
  unfold trackedRealloc
  rcases rawRealloc_cases size with same | ⟨new, given, same⟩
  · rw [same]
    exact invariant
  · rw [same]
    obtain ⟨newNonNull, free⟩ := reply new given
    dsimp only
    rw [if_neg newNonNull]
    split
    · -- the removal and the move touch different fields
      obtain ⟨removed, absent⟩ := invariant.remove nonNull
      have moved := removed.move nonNull absent newNonNull free size
      have newAbsent := absent.resized removed free
      exact moved.record running newNonNull newAbsent
        (Function.update_self _ _ _)
    · rename_i missing
      exact invariant.move nonNull (absent_of_not_found invariant missing)
        newNonNull free size

theorem Absent.record {new : Word} {size : Nat} (absent : Absent state ptr)
    (different : new ≠ ptr) : Absent (recordBlock state env new size) ptr := by
  unfold recordBlock
  split
  · exact absent
  · intro bucket entry member
    rcases mem_mttEntryAdd member with rfl | old
    · exact different
    · exact absent bucket entry old

theorem Absent.remove {other : Word} (absent : Absent state other)
    (invariant : SequentialInvariant state) (nonNull : ptr ≠ 0) :
    Absent { state with table := mttEntryRemove state.table ptr } other :=
  fun bucket entry member => absent bucket entry
    (mem_mttEntryRemove invariant.table nonNull member).1

theorem SequentialInvariant.after_trackedReallocFallback
    (invariant : SequentialInvariant state)
    (running : ¬ (state.initialized = false ∨ state.disabled = true))
    (nonNull : ptr ≠ 0) (live : state.blocks ptr ≠ none)
    (fresh : FreshReply state env) (size : Nat) :
    SequentialInvariant
      (trackedReallocFallback config state env ptr size).1 := by
  unfold trackedReallocFallback
  rcases rawMalloc_cases size with same | ⟨new, reply, _, same⟩
  · rw [same]
    exact invariant
  · rw [same]
    obtain ⟨newNonNull, free⟩ := fresh new reply
    have newAbsent := invariant.absent_of_free free
    have different : new ≠ ptr := by
      rintro rfl
      exact live free
    have allocated := invariant.setBlock newNonNull newAbsent (some size)
    dsimp only
    rw [if_neg newNonNull]
    split
    · exact allocated.after_rawFree newNonNull newAbsent
    · obtain ⟨removed, absent⟩ := allocated.remove nonNull
      have stillAbsent : Absent (state.setBlock new (some size)) new :=
        newAbsent
      apply SequentialInvariant.after_rawFree
      · exact removed.record running newNonNull
          (stillAbsent.remove allocated nonNull) (Function.update_self _ _ _)
      · exact nonNull
      · exact absent.record different

theorem reallocMoves_of_reply {new : Word} {size : Nat}
    (reply : env.reply = some new) :
    reallocMoves config state env ptr size =
      if config.rawRealloc then new != ptr || state.blocks ptr != some size
      else config.rawMalloc && config.rawFree := by
  unfold reallocMoves
  rw [reply]

theorem SequentialInvariant.after_bypassRealloc_unmoved
    (invariant : SequentialInvariant state) (size : Nat)
    (fresh : config.rawRealloc = false → FreshReply state env)
    (unmoved : reallocMoves config state env ptr size = false) :
    SequentialInvariant (bypassRealloc config state env ptr size).1 := by
  unfold bypassRealloc
  cases present : config.rawRealloc with
  | true =>
      rw [if_pos rfl]
      rcases rawRealloc_cases size with same | ⟨new, reply, same⟩
      · rw [same]
        exact invariant
      · rw [reallocMoves_of_reply reply, present, if_pos rfl,
          Bool.or_eq_false_iff, bne_eq_false_iff_eq,
          bne_eq_false_iff_eq] at unmoved
        obtain ⟨rfl, kept⟩ := unmoved
        have unchanged : (state.setBlock new none).setBlock new (some size) =
            state := by
          simp only [TrackerState.setBlock, Function.update_idem]
          rw [← kept, Function.update_eq_self]
        rw [same, unchanged]
        exact invariant
  | false =>
      rw [if_neg Bool.false_ne_true]
      rcases rawMalloc_cases size with same | ⟨new, reply, given, same⟩
      · rw [same]
        exact invariant
      · rw [reallocMoves_of_reply reply, present,
          if_neg Bool.false_ne_true, given, Bool.true_and] at unmoved
        obtain ⟨newNonNull, free⟩ := fresh present new reply
        rw [same]
        dsimp only
        rw [if_neg newNonNull, rawFree, unmoved,
          if_neg Bool.false_ne_true]
        exact invariant.setBlock newNonNull (invariant.absent_of_free free) _

/-- A reallocation keeps the table, if its block has no entry or the call goes
through the table. -/
theorem SequentialInvariant.after_reallocHook
    (invariant : SequentialInvariant state) (caller : Caller) (size : Nat)
    (live : ptr ≠ 0 → state.blocks ptr ≠ none)
    (resize : config.rawRealloc = true → ResizeReply state env ptr)
    (fresh : config.rawRealloc = false ∨ ptr = 0 → FreshReply state env)
    (keeps : KeepsTracked config state ⟨caller, .realloc ptr size, env⟩ =
      true) :
    SequentialInvariant (reallocHook config state caller env ptr size).1 := by
  by_cases null : ptr = 0
  · rw [reallocHook, if_pos null]
    exact invariant.after_mallocHook (fresh (Or.inr null)) caller caller.innerLr
      size
  · simp only [KeepsTracked, Bool.or_eq_true] at keeps
    by_cases zero : size = 0
    · rw [reallocHook, if_neg null, if_pos zero]
      exact invariant.after_freeHook caller caller.innerLr
        (by simpa [zero] using keeps)
    · rw [if_neg zero] at keeps
      have freshHere := fun missing => fresh (Or.inl missing)
      cases bypasses : caller.bypasses config state caller.lr with
      | true =>
          rw [reallocHook_of_bypasses null zero bypasses]
          rcases keeps with missing | unmoved
          · exact invariant.after_bypassRealloc null
              (invariant.absent_of_untracked missing) size resize freshHere
          · exact invariant.after_bypassRealloc_unmoved size freshHere
              (by simpa [bypasses] using unmoved)
      | false =>
          have ready : SequentialInvariant (mttEnsureInit config state) :=
            invariant.ensureInit
          have blocks : (mttEnsureInit config state).blocks = state.blocks :=
            mttEnsureInit_blocks
          have readyResize : config.rawRealloc = true →
              ResizeReply (mttEnsureInit config state) env ptr := by
            unfold ResizeReply
            rw [blocks]
            exact resize
          have readyFresh : config.rawRealloc = false →
              FreshReply (mttEnsureInit config state) env := by
            unfold FreshReply
            rw [blocks]
            exact freshHere
          rw [reallocHook_of_not_bypasses null zero bypasses]
          split
          · exact invariant
          · split
            · rename_i disabled
              refine ready.after_bypassRealloc null ?_ size readyResize readyFresh
              intro bucket entry member
              rw [ready.unused (Or.inr disabled) bucket] at member
              cases member
            · rename_i enabled
              rw [Bool.not_eq_true] at enabled
              have running := mttEnsureInit_running enabled
              split
              · rename_i present
                exact ready.after_trackedRealloc running null (readyResize present)
                  size
              · rename_i missing
                rw [Bool.not_eq_true] at missing
                refine ready.after_trackedReallocFallback running null ?_
                  (readyFresh missing) size
                rw [blocks]
                exact live null

end Keeps

/-! ## Every run -/

section Runs

variable {config} {state target : TrackerState} {event : HookEvent}

theorem freshReply_of_fresh (fresh : event.fresh config state = true)
    (notInPlace : ∀ ptr size, event.call = .realloc ptr size →
      config.rawRealloc = false ∨ ptr = 0) :
    FreshReply state event.env := by
  intro new reply
  simp only [HookEvent.fresh, reply, Bool.and_eq_true, bne_iff_ne,
    Bool.or_eq_true, Option.isNone_iff_eq_none] at fresh
  refine ⟨fresh.1, fresh.2.resolve_right ?_⟩
  cases call : event.call with
  | malloc | calloc | free => simp
  | realloc ptr size =>
      rcases notInPlace ptr size call with missing | null
      · simp [missing]
      · have nonNull : new ≠ ptr := null ▸ fresh.1
        simp [nonNull]

theorem resizeReply_of_fresh {ptr : Word} {size : Nat}
    (fresh : event.fresh config state = true)
    (call : event.call = .realloc ptr size) :
    ResizeReply state event.env ptr := by
  intro new reply
  simp only [HookEvent.fresh, reply, call, Bool.and_eq_true, bne_iff_ne,
    Bool.or_eq_true, Option.isNone_iff_eq_none, beq_iff_eq] at fresh
  exact ⟨fresh.1, fresh.2.imp id And.right⟩

theorem SequentialInvariant.after_hookCall (invariant : SequentialInvariant state)
    (live : event.call.live state = true)
    (fresh : event.fresh config state = true)
    (keeps : KeepsTracked config state event = true) :
    SequentialInvariant (hookCall config state event) := by
  unfold hookCall
  cases call : event.call with
  | malloc size =>
      have reply := freshReply_of_fresh fresh (by simp [call])
      exact invariant.after_mallocHook reply event.caller event.caller.lr size
  | calloc count size =>
      have reply := freshReply_of_fresh fresh (by simp [call])
      dsimp only
      rcases callocHook_cases count size with same | ⟨total, same | same⟩
      · rw [same]
        exact invariant
      · rw [same]
        exact invariant.after_rawMalloc reply total
      · rw [same]
        exact invariant.after_mallocHook reply event.caller event.caller.innerLr
          total
  | realloc ptr size =>
      rw [call] at live
      apply invariant.after_reallocHook event.caller size
      · intro nonNull
        simp only [AllocCall.live, Bool.or_eq_true, beq_iff_eq] at live
        exact Option.isSome_iff_ne_none.mp (live.resolve_left nonNull)
      · exact fun _ => resizeReply_of_fresh fresh call
      · intro notInPlace
        apply freshReply_of_fresh fresh
        rintro _ _ same
        rw [call, AllocCall.realloc.injEq] at same
        rwa [← same.1]
      · simpa [KeepsTracked, call] using keeps
  | free ptr =>
      apply invariant.after_freeHook
      simpa [KeepsTracked, call] using keeps

theorem sequentialNext
    (taken : (sequentialSystem config).next state event = some target) :
    event.call.live state = true ∧ event.fresh config state = true ∧
      hookCall config state event = target := by
  simp only [sequentialSystem] at taken
  split at taken
  · rename_i enabled
    rw [Bool.and_eq_true] at enabled
    exact ⟨enabled.1, enabled.2, Option.some.inj taken⟩
  · cases taken

theorem sequentialInvariant_init
    (initial : (sequentialSystem config).init state) :
    SequentialInvariant state := by
  obtain ⟨_, _, ⟨seed, table⟩, blocks⟩ := initial
  constructor
  · rw [table]
    exact EntryTable.empty_wellFormed seed
  · exact blocks 0
  · intro bucket entry member
    rw [table] at member
    cases member
  · intro _ bucket
    rw [table]
    rfl

theorem sequentialInvariant_reachable
    (reachable : (sequentialSystem config).ReachableBy
      (fun state event => KeepsTracked config state event = true) state) :
    SequentialInvariant state := by
  refine reachable.invariant SequentialInvariant
    (fun _ => sequentialInvariant_init) ?_
  intro state event target invariant keeps taken
  obtain ⟨live, fresh, rfl⟩ := sequentialNext taken
  exact invariant.after_hookCall live fresh keeps

/-- An entry whose block no longer has the recorded size. -/
theorem not_tableMatches_of_stale {ptr : Word} {entry : MttEntry}
    (found : mttEntryFind state.table ptr = some entry)
    (sameTable : target.table = state.table)
    (changed : target.blocks ptr ≠ some entry.size) :
    ¬ TableMatches target := by
  intro holds
  obtain ⟨bucket, member⟩ := mem_of_mttEntryFind found
  rw [← sameTable] at member
  have allocated := holds.entries bucket entry member
  rw [mttEntryFind_ptr found] at allocated
  exact changed allocated

theorem exists_entry_of_tracked {ptr : Word}
    (tracked : untracked state ptr = false) :
    ptr ≠ 0 ∧ ∃ entry, mttEntryFind state.table ptr = some entry := by
  rw [untracked, Option.isNone_eq_false_iff,
    Option.isSome_iff_exists] at tracked
  refine ⟨?_, tracked⟩
  rintro rfl
  obtain ⟨entry, found⟩ := tracked
  cases found

/-- A free that does not look at the table leaves the entry behind. -/
theorem freeHook_stale {caller : Caller} {lr ptr : Word}
    (tracked : untracked state ptr = false)
    (unseen : freesUnseen config state caller lr ptr = true) :
    ¬ TableMatches (freeHook config state caller lr ptr) := by
  obtain ⟨nonNull, entry, found⟩ := exists_entry_of_tracked tracked
  simp only [freesUnseen, Bool.and_eq_true, Bool.not_eq_true'] at unseen
  obtain ⟨⟨bypasses, present⟩, outside⟩ := unseen
  rw [freeHook_of_bypasses nonNull outside bypasses, rawFree, if_pos present]
  apply not_tableMatches_of_stale found
  · rfl
  · simp [TrackerState.setBlock]

theorem bypassRealloc_stale {env : CallEnv} {ptr : Word} {size : Nat}
    (invariant : SequentialInvariant state)
    (fresh : config.rawRealloc = false → FreshReply state env)
    (tracked : untracked state ptr = false)
    (moves : reallocMoves config state env ptr size = true) :
    ¬ TableMatches (bypassRealloc config state env ptr size).1 := by
  obtain ⟨nonNull, entry, found⟩ := exists_entry_of_tracked tracked
  have allocated : state.blocks ptr = some entry.size := by
    obtain ⟨bucket, member⟩ := mem_of_mttEntryFind found
    rw [← mttEntryFind_ptr found]
    exact invariant.entries bucket entry member
  cases reply : env.reply with
  | none => simp [reallocMoves, reply] at moves
  | some new =>
      rw [reallocMoves_of_reply reply] at moves
      unfold bypassRealloc
      cases present : config.rawRealloc with
      | true =>
          rw [present, if_pos rfl, Bool.or_eq_true, bne_iff_ne,
            bne_iff_ne] at moves
          rw [if_pos rfl, rawRealloc, reply]
          apply not_tableMatches_of_stale found
          · rfl
          · by_cases here : ptr = new
            · subst here
              have resized := moves.resolve_left (by simp)
              rw [allocated] at resized
              simpa [TrackerState.setBlock] using Ne.symm resized
            · simp [TrackerState.setBlock, here]
      | false =>
          rw [present, if_neg Bool.false_ne_true, Bool.and_eq_true] at moves
          have newNonNull := (fresh present new reply).1
          rw [if_neg Bool.false_ne_true, rawMalloc, reply]
          dsimp only
          rw [if_pos moves.1]
          dsimp only
          rw [if_neg newNonNull, rawFree, if_pos moves.2]
          apply not_tableMatches_of_stale found
          · rfl
          · simp [TrackerState.setBlock]

theorem hookCall_stale (invariant : SequentialInvariant state)
    (fresh : event.fresh config state = true)
    (violates : KeepsTracked config state event = false) :
    ¬ TableMatches (hookCall config state event) := by
  unfold hookCall
  cases call : event.call with
  | malloc | calloc => simp [KeepsTracked, call] at violates
  | free ptr =>
      simp only [KeepsTracked, call, Bool.or_eq_false_iff,
        Bool.not_eq_false'] at violates
      exact freeHook_stale violates.1 violates.2
  | realloc ptr size =>
      simp only [KeepsTracked, call, Bool.or_eq_false_iff] at violates
      obtain ⟨tracked, moves⟩ := violates
      have nonNull := (exists_entry_of_tracked tracked).1
      dsimp only
      by_cases zero : size = 0
      · rw [if_pos zero, Bool.not_eq_false'] at moves
        rw [reallocHook, if_neg nonNull, if_pos zero]
        exact freeHook_stale tracked moves
      · rw [if_neg zero, Bool.not_eq_false', Bool.and_eq_true] at moves
        rw [reallocHook_of_bypasses nonNull zero moves.1]
        apply bypassRealloc_stale invariant _ tracked moves.2
        intro missing
        apply freshReply_of_fresh fresh
        exact fun _ _ _ => Or.inl missing

/-- While no call bypasses the table for a block that has an entry, the table
matches the allocated blocks; the first call that does breaks the match. -/
theorem tableMatches_keepsTracked
    (reachable : (sequentialSystem config).ReachableBy
      (fun state event => KeepsTracked config state event = true) state) :
    TableMatches state ∧ ∀ event target,
      (sequentialSystem config).next state event = some target →
        (TableMatches target ↔ KeepsTracked config state event = true) := by
  have invariant := sequentialInvariant_reachable reachable
  refine ⟨invariant.tableMatches, fun event target taken => ?_⟩
  obtain ⟨live, fresh, rfl⟩ := sequentialNext taken
  constructor
  · intro holds
    by_contra violates
    rw [Bool.not_eq_true] at violates
    exact hookCall_stale invariant fresh violates holds
  · intro keeps
    exact (invariant.after_hookCall live fresh keeps).tableMatches

end Runs

/-- Tracking is on, and the code of one library is blacklisted. -/
def blacklistConfig : ToolConfig :=
  { disabled := false
    blacklistFastEnabled := true
    blacklistRanges := [(28672, 32768)]
    pool := none
    rawMalloc := true
    rawFree := true
    rawRealloc := true }

def trackerStart : TrackerState :=
  { initialized := false
    disabled := false
    table := EntryTable.empty 7
    allocSeq := 0
    sampler := Sampler.everything
    blocks := fun _ => none }

/-- A call of the application itself, or of the blacklisted library. -/
def callFrom (lr : Word) (call : AllocCall) (reply : Option Word) :
    HookEvent :=
  { caller := ⟨some ⟨true, 0, false⟩, lr, 256⟩
    call := call
    env := ⟨reply, false, true⟩ }

theorem tableMatches_reallocatedBlock :
    ∃ state : TrackerState, state.table.entryCount = 1 ∧
      TableMatches state ∧ ∀ event target,
        (sequentialSystem blacklistConfig).next state event = some target →
          (TableMatches target ↔
            KeepsTracked blacklistConfig state event = true) := by
  obtain ⟨state, reachable, tested⟩ :=
    (sequentialSystem blacklistConfig).exists_reachableBy_of_runBy
      (fun state event => KeepsTracked blacklistConfig state event = true)
      (fun state => state.table.entryCount == 1)
      [callFrom 512 (.malloc 100) (some 4096),
        callFrom 512 (.realloc 4096 200) (some 8192)]
      ⟨rfl, rfl, ⟨7, rfl⟩, fun _ => rfl⟩
      (show ((sequentialSystem blacklistConfig).runBy _ trackerStart
        _).any _ = true by decide +kernel)
  exact ⟨state, beq_iff_eq.mp tested, tableMatches_keepsTracked reachable⟩

/-- The application allocates a block and the blacklisted library frees it:
the entry stays. -/
theorem table_stale_blacklistedFree :
    ∃ state, (sequentialSystem blacklistConfig).Reachable state ∧
      ¬ TableMatches state := by
  obtain ⟨state, reachable, tested⟩ :=
    (sequentialSystem blacklistConfig).exists_reachable_of_run
      (fun state => (mttEntryFind state.table 4096).isSome &&
        (state.blocks 4096).isNone)
      [callFrom 512 (.malloc 100) (some 4096),
        callFrom 30000 (.free 4096) none]
      ⟨rfl, rfl, ⟨7, rfl⟩, fun _ => rfl⟩
      (show ((sequentialSystem blacklistConfig).run trackerStart
        _).any _ = true by decide +kernel)
  rw [Bool.and_eq_true, Option.isSome_iff_exists,
    Option.isNone_iff_eq_none] at tested
  obtain ⟨⟨entry, found⟩, freed⟩ := tested
  refine ⟨state, reachable, not_tableMatches_of_stale found rfl ?_⟩
  rw [freed]
  simp

end MemoryTraceTool.Sequential
