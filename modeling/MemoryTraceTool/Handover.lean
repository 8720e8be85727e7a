import MemoryTraceTool.Lib.Custody
import MemoryTraceTool.RawAllocators
import MemoryTraceTool.SequentialHooks

/-!
# From the bootstrap buffer to libc

Threads call the `malloc`, `calloc`, `realloc` and `free` hooks while
`mtt_resolve_raw_allocators` replaces the bootstrap functions by those of
libc.  A block may thus come from one allocator and be given back to the
other.  The ghost `ledger` holds the live blocks of libc and the blocks that
the bootstrap allocator has handed out.
-/

namespace MemoryTraceTool.Handover

open Transition Custody

/-- An entry of the table: the address it is about and, unless it is a slot of
the pool, the block that it occupies itself. -/
structure TrackedEntry where
  ptr : Word
  block : Option Word
  deriving DecidableEq, Repr

/-- Where a hook stands.  `remove`, `drop` and `insert` are `mtt_entry_remove`,
the `raw_free` of an entry, and the locked section with `mtt_entry_add`; they
carry the point at which the hook goes on. -/
inductive HookPoint where
  | resolve (pc : ResolvePc) (request : HookRequest)
  | ready (request : HookRequest)
  | mallocRaw (size : Nat) (track : Bool)
  | freeRaw (ptr : Word)
  | reallocRaw (ptr : Word) (size : Nat) (found : Bool)
  | copyRaw (ptr : Word) (size : Nat) (track : Bool)
  | copyEntry (old new : Word)
  | copyUndo (old new : Word)
  | copyFree (old new : Word) (checked : Bool)
  | record (ptr : Word)
  | remove (ptr : Word) (next : HookPoint)
  | drop (block : Word) (next : HookPoint)
  | insert (ptr : Word) (block : Option Word) (next : HookPoint)
  | done (ptr : Word)
  deriving DecidableEq, Repr

/-- A thread's nested hooks, innermost first.  A thread without a slot never
resolves, as if `raw_resolving` were always set. -/
structure HookThread where
  frames : List HookPoint
  resolving : Bool
  deriving DecidableEq, Repr

/-- `hands` are the pointers the application holds, `kept` the blocks of the
tool outside its entry table, and `misused` the pointers that libc was given
without a live block behind them. -/
structure HandoverState (Thread : Type) where
  raw : RawState
  bootstrapOffset : Word
  ledger : Ledger Word
  misused : List Word
  hands : List Word
  kept : List Word
  entries : List TrackedEntry
  threads : Thread → HookThread

/-- The choices of the environment: the answers of the dynamic linker and of
libc, whether the hook goes on to track, and whether the entry pool is used. -/
structure StepEnv where
  linker : LinkerReply
  reply : Option Word
  track : Bool
  pooled : Bool
  deriving DecidableEq, Repr

/-- Where a step leads: to another point of the hook, or out of it, with the
pointer that the application then holds. -/
inductive Continue where
  | goto (point : HookPoint)
  | leave (ptr : Option Word)
  deriving DecidableEq, Repr

/-- What a call comes down to; `none` returns at once.  A `calloc` whose size
overflows may still resolve the raw allocators. -/
def request : Sequential.AllocCall → Option HookRequest
  | .malloc size => some (.alloc size)
  | .calloc count size =>
      match arraySize count size with
      | none => some .nothing
      | some total => some (.alloc total)
  | .realloc ptr size => some (.ofRealloc ptr size)
  | .free ptr => if ptr = 0 then none else some (.release ptr)

variable {Thread : Type}

/-! ## The bootstrap allocator -/

/-- The address lies in `g_bootstrap_buf` or just behind it, where an empty
block may be. -/
def inBootstrapBuf (base ptr : Word) : Bool :=
  decide ((ptr - base).toNat ≤ mttBootstrapBufSize)

/-- The size of a request, rounded up to a multiple of eight. -/
def bootstrapAligned (size : Nat) : Word :=
  (BitVec.ofNat 64 size + 7) &&& ~~~7#64

variable (base : Word)

/-- The offset advances even when the buffer is exhausted. -/
def bootstrapMalloc (state : HandoverState Thread) (size : Nat) :
    HandoverState Thread × Option Word :=
  let aligned := bootstrapAligned size
  let old := state.bootstrapOffset
  let advanced : HandoverState Thread :=
    { state with bootstrapOffset := old + aligned }
  if mttBootstrapBufSize < (old + aligned).toNat then (advanced, none)
  else
    ({ advanced with ledger := state.ledger.lend (base + old) },
      some (base + old))

/-- `bootstrap_realloc` of a pointer and a size other than zero:
`bootstrap_free` of the old block does nothing. -/
def bootstrapRealloc (state : HandoverState Thread) (_ : Word) (size : Nat) :
    HandoverState Thread × Option Word :=
  bootstrapMalloc base state size

/-! ## libc -/

/-- libc may return any address that is neither allocated nor in a static
buffer. -/
def libcAvailable (state : HandoverState Thread) (ptr : Word) : Bool :=
  ptr != 0 && !state.ledger.live ptr && !inBootstrapBuf base ptr

def libcMalloc (state : HandoverState Thread) (reply : Option Word) :
    Option (HandoverState Thread × Option Word) :=
  match reply with
  | none => some (state, none)
  | some ptr =>
      if libcAvailable base state ptr then
        some ({ state with ledger := state.ledger.acquire ptr }, some ptr)
      else none

/-- libc is given a pointer; the ghost remembers one without a live block. -/
def libcGiven (state : HandoverState Thread) (ptr : Word) :
    HandoverState Thread :=
  { state with
    misused :=
      if state.ledger.live ptr then state.misused else ptr :: state.misused }

def libcFree (state : HandoverState Thread) (ptr : Word) :
    HandoverState Thread :=
  { libcGiven state ptr with ledger := state.ledger.release ptr }

def libcRealloc (state : HandoverState Thread) (ptr : Word)
    (reply : Option Word) : Option (HandoverState Thread × Option Word) :=
  match reply with
  | none => some (libcGiven state ptr, none)
  | some new =>
      if new = ptr ∨ libcAvailable base state new then
        some ({ libcGiven state ptr with
          ledger := (state.ledger.release ptr).acquire new }, some new)
      else none

/-! ## Calls through the raw pointers -/

/-- `raw_malloc`, or `raw_calloc` of the tool; NULL where the pointer is
missing.  A pointer to the hook itself never returns. -/
def rawMalloc (name : RawName) (state : HandoverState Thread) (size : Nat)
    (reply : Option Word) : Option (HandoverState Thread × Option Word) :=
  match state.raw.raw name with
  | none => some (state, none)
  | some .bootstrap => some (bootstrapMalloc base state size)
  | some .libc => libcMalloc base state reply
  | some .hook => none

/-- A call through a missing `raw_free` ends the process, unless the caller
has checked. -/
def rawFree (state : HandoverState Thread) (ptr : Word) (checked : Bool) :
    Option (HandoverState Thread) :=
  match state.raw.raw .free with
  | none => if checked then some state else none
  | some .bootstrap => some state
  | some .libc => some (libcFree state ptr)
  | some .hook => none

/-- The callers have found `raw_realloc` in place. -/
def rawRealloc (state : HandoverState Thread) (ptr : Word) (size : Nat)
    (reply : Option Word) : Option (HandoverState Thread × Option Word) :=
  match state.raw.raw .realloc with
  | some .bootstrap => some (bootstrapRealloc base state ptr size)
  | some .libc => libcRealloc base state ptr reply
  | none | some .hook => none

/-! ## The hooks -/

/-- `mtt_entry_new`: a slot of the pool, or a block of the raw allocator. -/
def mttEntryNew (state : HandoverState Thread) (env : StepEnv) :
    Option (HandoverState Thread × Option (Option Word)) :=
  if env.pooled then some (state, if env.track then some none else none)
  else
    (rawMalloc base .malloc state mttEntrySize env.reply).map
      fun (allocated, block) => (allocated, block.map some)

/-- The newest entry of an address, and the entries without it. -/
def takeEntry (ptr : Word) :
    List TrackedEntry → Option (TrackedEntry × List TrackedEntry)
  | [] => none
  | entry :: rest =>
      if entry.ptr = ptr then some (entry, rest)
      else (takeEntry ptr rest).map fun (dead, others) =>
        (dead, entry :: others)

/-- The `raw_free` of an entry that occupies a block, before going on. -/
def HookPoint.dropping (block : Option Word) (next : HookPoint) : HookPoint :=
  match block with
  | none => next
  | some block => .drop block next

/-- The path behind `mtt_resolve_raw_allocators`.  Nested calls, blacklisted
callers, threads without a slot, internal threads and a disabled tool do not
track.  A failed `realloc` leaves the block with the application. -/
def chooseStep (state : HandoverState Thread) (track : Bool) :
    HookRequest → Continue
  | .nothing => .leave none
  | .alloc size => .goto (.mallocRaw size track)
  | .release ptr =>
      if track then
        if state.raw.raw .free = none then .leave none
        else .goto (.remove ptr (.freeRaw ptr))
      else .goto (.freeRaw ptr)
  | .resize ptr size =>
      if track ∧ state.raw.raw .malloc = none then .leave (some ptr)
      else if state.raw.raw .realloc = none then .goto (.copyRaw ptr size track)
      else
        .goto (.reallocRaw ptr size
          (track && state.entries.any fun entry => entry.ptr == ptr))

/-- One step of a hook outside `mtt_resolve_raw_allocators`. -/
def pointStep (state : HandoverState Thread) (env : StepEnv) :
    HookPoint → Option (HandoverState Thread × Continue)
  | .resolve _ _ => none
  | .ready request => some (state, chooseStep state env.track request)
  | .mallocRaw size track =>
      (rawMalloc base .malloc state size env.reply).map
        fun (allocated, ptr) =>
          match ptr with
          | none => (allocated, .leave none)
          | some ptr =>
              (allocated, .goto (if track then .record ptr else .done ptr))
  | .freeRaw ptr =>
      (rawFree state ptr true).map fun freed => (freed, .leave none)
  | .reallocRaw ptr size found =>
      (rawRealloc base state ptr size env.reply).map
        fun (resized, new) =>
          match new with
          | none => (resized, .leave (some ptr))
          | some new =>
              (resized, .goto (if found then .remove ptr (.record new)
                else .done new))
  | .copyRaw ptr size track =>
      (rawMalloc base .malloc state size env.reply).map
        fun (allocated, new) =>
          match new with
          | none => (allocated, .leave (some ptr))
          | some new =>
              (allocated, .goto (if track then .copyEntry ptr new
                else .copyFree ptr new true))
  | .copyEntry old new =>
      (mttEntryNew base state env).map fun (allocated, entry) =>
        match entry with
        | none => (allocated, .goto (.copyUndo old new))
        | some block =>
            (allocated,
              .goto (.remove old (.insert new block (.copyFree old new false))))
  | .copyUndo old new =>
      (rawFree state new false).map fun freed => (freed, .leave (some old))
  | .copyFree old new checked =>
      (rawFree state old checked).map fun freed => (freed, .leave (some new))
  | .record ptr =>
      if env.track then
        (mttEntryNew base state env).map fun (allocated, entry) =>
          match entry with
          | none => (allocated, .goto (.done ptr))
          | some block => (allocated, .goto (.insert ptr block (.done ptr)))
      else some (state, .goto (.done ptr))
  | .remove ptr next =>
      match takeEntry ptr state.entries with
      | none => some (state, .goto next)
      | some (dead, others) =>
          some ({ state with entries := others },
            .goto (HookPoint.dropping dead.block next))
  | .drop block next =>
      (rawFree state block true).map fun freed => (freed, .goto next)
  | .insert ptr block next =>
      if env.track then
        some ({ state with entries := ⟨ptr, block⟩ :: state.entries },
          .goto next)
      else some (state, .goto (HookPoint.dropping block next))
  | .done ptr => some (state, .leave (some ptr))

/-! ## Threads -/

inductive HandoverLabel (Thread : Type) where
  | call (thread : Thread) (call : Sequential.AllocCall) (inPool : Bool)
  | step (thread : Thread) (env : StepEnv)
  | keep (name : RawName) (size : Nat) (reply : Option Word)
  | keepBootstrap (size : Nat)
  | giveBack (ptr : Word)

section Threads

variable [DecidableEq Thread]

def HandoverState.setThread (state : HandoverState Thread) (thread : Thread)
    (caller : HookThread) : HandoverState Thread :=
  { state with threads := Function.update state.threads thread caller }

def HandoverState.setFrames (state : HandoverState Thread) (thread : Thread)
    (frames : List HookPoint) : HandoverState Thread :=
  state.setThread thread { state.threads thread with frames := frames }

/-- A hook is reentered from the dynamic linker, from the initialisation of
the tool, and from the capture of a stack. -/
def HookPoint.reentered : HookPoint → Bool
  | .resolve pc _ => pc.callsLinker
  | .ready _ | .remove _ _ | .insert _ _ _ => true
  | _ => false

def HookThread.mayCall (caller : HookThread) : Bool :=
  match caller.frames with
  | [] => true
  | point :: _ => point.reentered

def HandoverState.enter (state : HandoverState Thread) (thread : Thread)
    (request : HookRequest) : HandoverState Thread :=
  state.setFrames thread
    (.resolve .loadReady request :: (state.threads thread).frames)

/-- The application gives up one of the pointers it holds. -/
def HandoverState.giveUp (state : HandoverState Thread) (ptr : Word) :
    HandoverState Thread :=
  { state with hands := state.hands.erase ptr }

def HandoverState.handOver (state : HandoverState Thread) (ptrs : List Word) :
    HandoverState Thread :=
  { state with hands := ptrs ++ state.hands }

/-- Only pointers that the application holds are freed or reallocated, and
`free` swallows the addresses of the entry pool. -/
def enterHook (state : HandoverState Thread) (thread : Thread)
    (inPool : Bool) : HookRequest → Option (HandoverState Thread)
  | .nothing => some (state.enter thread .nothing)
  | .alloc size => some (state.enter thread (.alloc size))
  | .release ptr =>
      if ptr ∈ state.hands then
        some (if inPool then state.giveUp ptr
          else (state.giveUp ptr).enter thread (.release ptr))
      else none
  | .resize ptr size =>
      if ptr ∈ state.hands then
        some ((state.giveUp ptr).enter thread (.resize ptr size))
      else none

def Continue.frames : Continue → List HookPoint
  | .goto point => [point]
  | .leave _ => []

def Continue.held : Continue → List Word
  | .goto _ => []
  | .leave ptr => ptr.toList

/-- A lookup on the handle of a libc never finds the hook. -/
def lookupAllowed (pc : ResolvePc) (reply : LinkerReply) : Bool :=
  match pc with
  | .refill _ _ _ => reply.symbol != some .hook
  | _ => true

def resolveStep (state : HandoverState Thread) (thread : Thread)
    (reply : LinkerReply) (pc : ResolvePc) (request : HookRequest)
    (outer : List HookPoint) : Option (HandoverState Thread) :=
  if pc = .returned then
    some (state.setFrames thread (.ready request :: outer))
  else if lookupAllowed pc reply then
    let (raw, resolving, pc) :=
      mttResolveStep state.raw (state.threads thread).resolving reply pc
    let resolved : HandoverState Thread := { state with raw := raw }
    some (resolved.setThread thread
      ⟨.resolve pc request :: outer, resolving⟩)
  else none

/-- One step of the innermost hook of a thread. -/
def threadStep (state : HandoverState Thread) (thread : Thread)
    (env : StepEnv) : Option (HandoverState Thread) :=
  match (state.threads thread).frames with
  | [] => none
  | .resolve pc request :: outer =>
      resolveStep state thread env.linker pc request outer
  | point :: outer =>
      (pointStep base state env point).map fun (later, next) =>
        (later.handOver next.held).setFrames thread (next.frames ++ outer)

/-- The tool also keeps blocks outside its entry table: the bucket table, the
pool, and the buffers of its reporter, some of which it gives back. -/
def handoverNext (state : HandoverState Thread) :
    HandoverLabel Thread → Option (HandoverState Thread)
  | .call thread call inPool =>
      if (state.threads thread).mayCall then
        match request call with
        | none => some state
        | some request => enterHook state thread inPool request
      else none
  | .step thread env => threadStep base state thread env
  | .keep name size reply =>
      (rawMalloc base name state size reply).map fun (allocated, block) =>
        { allocated with kept := block.toList ++ allocated.kept }
  | .keepBootstrap size =>
      let (allocated, block) := bootstrapMalloc base state size
      some { allocated with kept := block.toList ++ allocated.kept }
  | .giveBack ptr =>
      if ptr ∈ state.kept then
        rawFree { state with kept := state.kept.erase ptr } ptr true
      else none

/-- Runs that start before the resolution, with the bootstrap buffer at an
arbitrary address. -/
def handoverSystem (Thread : Type) [DecidableEq Thread] :
    System (HandoverState Thread) (HandoverLabel Thread) where
  init := fun state =>
    state.raw = RawState.initial ∧ state.bootstrapOffset = 0 ∧
      (∀ ptr, state.ledger.foreign ptr = false) ∧ state.misused = [] ∧
      state.hands = [] ∧ state.kept = [] ∧ state.entries = [] ∧
      ∀ thread, (state.threads thread).frames = []
  next := handoverNext base

end Threads

/-! ## What is given to libc -/

/-- The raw function that the next step of a hook calls to give a block back
or to resize it, and that block. -/
def HookPoint.gives : HookPoint → Option (RawName × Word)
  | .freeRaw ptr => some (.free, ptr)
  | .reallocRaw ptr _ _ => some (.realloc, ptr)
  | .copyUndo _ new => some (.free, new)
  | .copyFree old _ _ => some (.free, old)
  | .drop block _ => some (.free, block)
  | .resolve _ _ | .ready _ | .mallocRaw _ _ | .copyRaw _ _ _
  | .copyEntry _ _ | .record _ | .remove _ _ | .insert _ _ _ | .done _ => none

def HandoverLabel.gives (state : HandoverState Thread) :
    HandoverLabel Thread → Option (RawName × Word)
  | .step thread _ => ((state.threads thread).frames.head?).bind HookPoint.gives
  | .giveBack ptr => some (.free, ptr)
  | .call _ _ _ | .keep _ _ _ | .keepBootstrap _ => none

/-- The block came from the bootstrap allocator, and the raw function already
is the one of libc. -/
def crossesOver (state : HandoverState Thread) :
    Option (RawName × Word) → Bool
  | some (name, ptr) =>
      state.raw.raw name == some .libc && state.ledger.foreign ptr
  | none => false

/-- A block of the bootstrap allocator is given back only through the
bootstrap functions. -/
def GivesBackInTime (state : HandoverState Thread)
    (label : HandoverLabel Thread) : Prop :=
  crossesOver state (label.gives state) = false

instance (state : HandoverState Thread) (label : HandoverLabel Thread) :
    Decidable (GivesBackInTime state label) :=
  inferInstanceAs (Decidable (_ = false))

/-! ## Who claims a block -/

def requestBlocks : HookRequest → List Word
  | .nothing | .alloc _ => []
  | .release ptr | .resize ptr _ => [ptr]

/-- The blocks in the hands of a hook. -/
def HookPoint.blocks : HookPoint → List Word
  | .resolve _ request | .ready request => requestBlocks request
  | .mallocRaw _ _ => []
  | .freeRaw ptr | .reallocRaw ptr _ _ | .copyRaw ptr _ _ | .record ptr
  | .done ptr => [ptr]
  | .copyEntry old new | .copyUndo old new | .copyFree old new _ => [old, new]
  | .remove _ next => next.blocks
  | .drop block next => block :: next.blocks
  | .insert _ block next => block.toList ++ next.blocks

def Continue.blocks : Continue → List Word
  | .goto point => point.blocks
  | .leave ptr => ptr.toList

/-- The blocks in the hands of the application and of the tool. -/
def HandoverState.common (state : HandoverState Thread) : List Word :=
  state.hands ++ (state.kept ++ state.entries.filterMap TrackedEntry.block)

def framesBlocks (frames : List HookPoint) : List Word :=
  frames.flatMap HookPoint.blocks

def HandoverState.held (state : HandoverState Thread) (thread : Thread) :
    List Word :=
  framesBlocks (state.threads thread).frames

/-- Every claim on a block that is not the bootstrap allocator's is backed by
a live block of libc, and libc has been given no other pointer. -/
structure HandoverInvariant [Fintype Thread] (state : HandoverState Thread) :
    Prop where
  backed : Backed state.ledger state.common state.held
  proper : state.misused = []

@[simp] theorem dropping_blocks (block : Option Word) (next : HookPoint) :
    (HookPoint.dropping block next).blocks = block.toList ++ next.blocks := by
  cases block <;> rfl

theorem gives_mem_blocks {point : HookPoint} {name : RawName} {ptr : Word}
    (gives : point.gives = some (name, ptr)) : ptr ∈ point.blocks := by
  cases point with
  | freeRaw | reallocRaw | copyUndo | copyFree | drop =>
      cases gives
      simp [HookPoint.blocks]
  | resolve | ready | mallocRaw | copyRaw | copyEntry | record | remove
  | insert | done => contradiction

theorem takeEntry_perm {ptr : Word} {entries others : List TrackedEntry}
    {dead : TrackedEntry}
    (taken : takeEntry ptr entries = some (dead, others)) :
    entries.Perm (dead :: others) := by
  induction entries generalizing others with
  | nil => contradiction
  | cons entry rest induction =>
      simp only [takeEntry] at taken
      split at taken
      · cases taken
        exact List.Perm.refl _
      · obtain ⟨⟨found, left⟩, later, same⟩ :=
          Option.map_eq_some_iff.mp taken
        cases same
        exact ((induction later).cons entry).trans (.swap _ _ _)

/-! ## What a raw call exchanges -/

/-- A raw call exchanges blocks with an allocator and changes nothing else. -/
structure Exchange (state later : HandoverState Thread)
    (given taken : List Word) : Prop where
  moves : Moves state.ledger later.ledger given taken
  common : later.common = state.common
  threads : later.threads = state.threads
  misused : later.misused = state.misused

namespace Exchange

variable {state later : HandoverState Thread} {given taken : List Word}

theorem refl (state : HandoverState Thread) (blocks : List Word) :
    Exchange state state blocks blocks :=
  ⟨.refl _ _, rfl, rfl, rfl⟩

end Exchange

theorem bootstrapMalloc_exchange (state : HandoverState Thread) (size : Nat) :
    Exchange state (bootstrapMalloc base state size).1 []
      (bootstrapMalloc base state size).2.toList := by
  unfold bootstrapMalloc
  dsimp only
  split
  · exact ⟨.refl _ _, rfl, rfl, rfl⟩
  · exact ⟨.lend _ _, rfl, rfl, rfl⟩

theorem libcAvailable_fresh {state : HandoverState Thread} {ptr : Word}
    (available : libcAvailable base state ptr = true) :
    state.ledger.live ptr = false := by
  unfold libcAvailable at available
  simp only [Bool.and_eq_true, Bool.not_eq_true'] at available
  exact available.1.2

theorem rawMalloc_exchange {name : RawName}
    {state later : HandoverState Thread} {size : Nat}
    {reply result : Option Word}
    (called : rawMalloc base name state size reply = some (later, result)) :
    Exchange state later [] result.toList := by
  unfold rawMalloc at called
  split at called
  · cases called
    exact .refl state []
  · obtain ⟨rfl, rfl⟩ := Prod.mk.inj (Option.some.inj called)
    exact bootstrapMalloc_exchange base state size
  · unfold libcMalloc at called
    split at called
    · cases called
      exact .refl state []
    · split at called
      · rename_i available
        cases called
        exact ⟨.acquire _ (libcAvailable_fresh base available), rfl, rfl, rfl⟩
      · contradiction
  · contradiction

theorem libcGiven_live {state : HandoverState Thread} {ptr : Word}
    (live : state.ledger.live ptr = true) : libcGiven state ptr = state := by
  simp [libcGiven, live]

theorem rawFree_exchange {state later : HandoverState Thread} {ptr : Word}
    {checked : Bool} (called : rawFree state ptr checked = some later)
    (live : state.raw.raw .free = some .libc →
      state.ledger.live ptr = true) :
    Exchange state later [ptr] [] := by
  have swallowed : Exchange state state [ptr] [] :=
    ⟨.of_count_le _ (by simp), rfl, rfl, rfl⟩
  unfold rawFree at called
  split at called
  · split at called
    · cases called
      exact swallowed
    · contradiction
  · cases called
    exact swallowed
  · rename_i installed
    cases called
    unfold libcFree
    rw [libcGiven_live (live installed)]
    exact ⟨.release _ _, rfl, rfl, rfl⟩
  · contradiction

/-- A failed `realloc` gives the old block back to the caller. -/
theorem rawRealloc_exchange {state later : HandoverState Thread} {ptr : Word}
    {size : Nat} {reply result : Option Word}
    (called : rawRealloc base state ptr size reply = some (later, result))
    (live : state.raw.raw .realloc = some .libc →
      state.ledger.live ptr = true) :
    Exchange state later [ptr] [result.getD ptr] := by
  unfold rawRealloc at called
  split at called
  · have served := bootstrapMalloc_exchange base state size
    unfold bootstrapRealloc at called
    rw [Option.some.inj called] at served
    refine ⟨?_, served.common, served.threads, served.misused⟩
    cases result with
    | none => exact served.moves.frame [ptr]
    | some new =>
        have dropped : Moves state.ledger state.ledger [ptr] [] :=
          .of_count_le _ (by simp)
        exact dropped.trans served.moves
  · rename_i installed
    unfold libcRealloc at called
    rw [libcGiven_live (live installed)] at called
    split at called
    · cases called
      exact .refl state [ptr]
    · rename_i new
      split at called
      · rename_i allowed
        cases called
        have fresh : (state.ledger.release ptr).live new = false := by
          by_cases same : new = ptr
          · subst same
            simp [Ledger.release]
          · have available := allowed.resolve_left same
            simpa [Ledger.release, same] using
              libcAvailable_fresh base available
        exact ⟨(Moves.release _ _).trans (.acquire _ fresh), rfl, rfl, rfl⟩
      · contradiction
  · contradiction
  · contradiction

/-! ## One step of a hook -/

/-- What a step of a hook exchanges, for the application, the tool and the
hook together. -/
structure PointStep (state later : HandoverState Thread)
    (given taken : List Word) : Prop where
  moves : Moves state.ledger later.ledger (state.common ++ given)
    (later.common ++ taken)
  threads : later.threads = state.threads
  misused : later.misused = state.misused

/-- The blocks that the call does not touch stay with the hook. -/
theorem Exchange.pointStep {state later : HandoverState Thread}
    {given taken before after : List Word}
    (exchanged : Exchange state later given taken) (rest : List Word)
    (start : before.Perm (given ++ rest)) (stop : (taken ++ rest).Perm after) :
    PointStep state later before after := by
  refine ⟨?_, exchanged.threads, exchanged.misused⟩
  rw [exchanged.common]
  have framed := exchanged.moves.frame (rest ++ state.common)
  have early : Moves state.ledger state.ledger (state.common ++ before)
      (given ++ (rest ++ state.common)) := by
    apply Moves.of_perm
    rw [← List.append_assoc]
    exact (start.append_left _).trans List.perm_append_comm
  have late : Moves later.ledger later.ledger
      (taken ++ (rest ++ state.common)) (state.common ++ after) := by
    apply Moves.of_perm
    rw [← List.append_assoc]
    exact List.perm_append_comm.trans (stop.append_left _)
  exact (early.trans framed).trans late

/-- A step that calls nothing may lose blocks but not gain any. -/
theorem PointStep.of_sublist (state : HandoverState Thread)
    {before after : List Word} (fewer : after.Sublist before) :
    PointStep state state before after := by
  refine ⟨?_, rfl, rfl⟩
  apply Moves.of_count_le
  intro block
  exact (fewer.append_left state.common).count_le block

theorem chooseStep_blocks (state : HandoverState Thread) (track : Bool)
    (request : HookRequest) :
    (chooseStep state track request).blocks.Sublist
      (requestBlocks request) := by
  cases request with
  | nothing => exact List.Sublist.refl _
  | alloc size => exact List.Sublist.refl _
  | release ptr =>
      simp only [chooseStep]
      split
      · split
        · exact List.nil_sublist _
        · exact List.Sublist.refl _
      · exact List.Sublist.refl _
  | resize ptr size =>
      simp only [chooseStep]
      split
      · exact List.Sublist.refl _
      · split <;> exact List.Sublist.refl _

theorem mttEntryNew_exchange {state later : HandoverState Thread}
    {env : StepEnv} {entry : Option (Option Word)}
    (created : mttEntryNew base state env = some (later, entry)) :
    Exchange state later [] (entry.getD none).toList := by
  unfold mttEntryNew at created
  split at created
  · cases created
    split <;> exact .refl state []
  · obtain ⟨⟨allocated, block⟩, called, same⟩ :=
      Option.map_eq_some_iff.mp created
    cases same
    have exchanged := rawMalloc_exchange base called
    cases block <;> exact exchanged

theorem takeEntry_pointStep {state : HandoverState Thread} {ptr : Word}
    {dead : TrackedEntry} {others : List TrackedEntry}
    (taken : takeEntry ptr state.entries = some (dead, others))
    (next : HookPoint) :
    PointStep state { state with entries := others } next.blocks
      (HookPoint.dropping dead.block next).blocks := by
  refine ⟨?_, rfl, rfl⟩
  apply Moves.of_count_le
  intro block
  have same :=
    ((takeEntry_perm taken).filterMap TrackedEntry.block).count_eq block
  cases occupied : dead.block with
  | none =>
      simp [HandoverState.common, occupied] at same ⊢
      omega
  | some freed =>
      simp [HandoverState.common, occupied, List.count_cons] at same ⊢
      omega

theorem insert_pointStep (state : HandoverState Thread) (ptr : Word)
    (block : Option Word) (next : HookPoint) :
    PointStep state
      { state with entries := ⟨ptr, block⟩ :: state.entries }
      (block.toList ++ next.blocks) next.blocks := by
  refine ⟨?_, rfl, rfl⟩
  apply Moves.of_count_le
  intro other
  cases block with
  | none => simp [HandoverState.common]
  | some block =>
      simp [HandoverState.common, List.count_cons]
      omega

section Cases

variable {state later : HandoverState Thread} {env : StepEnv}
  {next : Continue}

theorem mallocRaw_moves {size : Nat} {track : Bool}
    (stepped : pointStep base state env (.mallocRaw size track) =
      some (later, next)) :
    PointStep state later (HookPoint.mallocRaw size track).blocks
      next.blocks := by
  obtain ⟨⟨allocated, ptr⟩, called, same⟩ :=
    Option.map_eq_some_iff.mp stepped
  have exchanged := rawMalloc_exchange base called
  cases ptr with
  | none =>
      cases same
      exact exchanged.pointStep [] (.refl _) (.refl _)
  | some ptr =>
      cases same
      refine exchanged.pointStep [] (.refl _) ?_
      split <;> exact .refl _

theorem reallocRaw_moves {ptr : Word} {size : Nat} {found : Bool}
    (stepped : pointStep base state env (.reallocRaw ptr size found) =
      some (later, next))
    (live : ∀ name block, (HookPoint.reallocRaw ptr size found).gives =
        some (name, block) → state.raw.raw name = some .libc →
      state.ledger.live block = true) :
    PointStep state later (HookPoint.reallocRaw ptr size found).blocks
      next.blocks := by
  obtain ⟨⟨resized, new⟩, called, same⟩ :=
    Option.map_eq_some_iff.mp stepped
  have exchanged := rawRealloc_exchange base called (live _ _ rfl)
  cases new with
  | none =>
      cases same
      exact exchanged.pointStep [] (.refl _) (.refl _)
  | some new =>
      cases same
      refine exchanged.pointStep [] (.refl _) ?_
      split <;> exact .refl _

theorem copyRaw_moves {ptr : Word} {size : Nat} {track : Bool}
    (stepped : pointStep base state env (.copyRaw ptr size track) =
      some (later, next)) :
    PointStep state later (HookPoint.copyRaw ptr size track).blocks
      next.blocks := by
  obtain ⟨⟨allocated, new⟩, called, same⟩ :=
    Option.map_eq_some_iff.mp stepped
  have exchanged := rawMalloc_exchange base called
  cases new with
  | none =>
      cases same
      exact exchanged.pointStep [ptr] (.refl _) (.refl _)
  | some new =>
      cases same
      refine exchanged.pointStep [ptr] (.refl _) ?_
      split <;> exact .swap _ _ _

theorem copyEntry_moves {old new : Word}
    (stepped : pointStep base state env (.copyEntry old new) =
      some (later, next)) :
    PointStep state later (HookPoint.copyEntry old new).blocks next.blocks := by
  obtain ⟨⟨allocated, entry⟩, created, same⟩ :=
    Option.map_eq_some_iff.mp stepped
  have exchanged := mttEntryNew_exchange base created
  cases entry with
  | none =>
      cases same
      exact exchanged.pointStep [old, new] (.refl _) (.refl _)
  | some block =>
      cases same
      exact exchanged.pointStep [old, new] (.refl _) (.refl _)

theorem record_moves {ptr : Word}
    (stepped : pointStep base state env (.record ptr) = some (later, next)) :
    PointStep state later (HookPoint.record ptr).blocks next.blocks := by
  simp only [pointStep] at stepped
  split at stepped
  · obtain ⟨⟨allocated, entry⟩, created, same⟩ :=
      Option.map_eq_some_iff.mp stepped
    have exchanged := mttEntryNew_exchange base created
    cases entry with
    | none =>
        cases same
        exact exchanged.pointStep [ptr] (.refl _) (.refl _)
    | some block =>
        cases same
        exact exchanged.pointStep [ptr] (.refl _) (.refl _)
  · cases stepped
    exact .of_sublist state (List.Sublist.refl _)

theorem remove_moves {ptr : Word} {after : HookPoint}
    (stepped : pointStep base state env (.remove ptr after) =
      some (later, next)) :
    PointStep state later (HookPoint.remove ptr after).blocks next.blocks := by
  simp only [pointStep] at stepped
  split at stepped
  · cases stepped
    exact .of_sublist state (List.Sublist.refl _)
  · rename_i dead others taken
    cases stepped
    exact takeEntry_pointStep taken after

theorem insert_moves {ptr : Word} {block : Option Word} {after : HookPoint}
    (stepped : pointStep base state env (.insert ptr block after) =
      some (later, next)) :
    PointStep state later (HookPoint.insert ptr block after).blocks
      next.blocks := by
  simp only [pointStep] at stepped
  split at stepped
  · cases stepped
    exact insert_pointStep state ptr block after
  · cases stepped
    apply PointStep.of_sublist
    simp [Continue.blocks, HookPoint.blocks]

end Cases

/-- The step lemma: a hook whose own block libc may take exchanges its blocks
one for one. -/
theorem pointStep_moves {state later : HandoverState Thread} {env : StepEnv}
    {point : HookPoint} {next : Continue}
    (stepped : pointStep base state env point = some (later, next))
    (live : ∀ name ptr, point.gives = some (name, ptr) →
      state.raw.raw name = some .libc → state.ledger.live ptr = true) :
    PointStep state later point.blocks next.blocks := by
  cases point with
  | resolve pc request => contradiction
  | ready request =>
      cases stepped
      exact .of_sublist state (chooseStep_blocks state env.track request)
  | mallocRaw size track =>
      exact mallocRaw_moves base stepped
  | freeRaw ptr =>
      obtain ⟨freed, called, same⟩ := Option.map_eq_some_iff.mp stepped
      cases same
      have exchanged := rawFree_exchange called (live _ _ rfl)
      exact exchanged.pointStep [] (.refl _) (.refl _)
  | reallocRaw ptr size found =>
      exact reallocRaw_moves base stepped live
  | copyRaw ptr size track =>
      exact copyRaw_moves base stepped
  | copyEntry old new =>
      exact copyEntry_moves base stepped
  | copyUndo old new =>
      obtain ⟨freed, called, same⟩ := Option.map_eq_some_iff.mp stepped
      cases same
      have exchanged := rawFree_exchange called (live _ _ rfl)
      exact exchanged.pointStep [old] (.swap _ _ _) (.refl _)
  | copyFree old new checked =>
      obtain ⟨freed, called, same⟩ := Option.map_eq_some_iff.mp stepped
      cases same
      have exchanged := rawFree_exchange called (live _ _ rfl)
      exact exchanged.pointStep [new] (.refl _) (.refl _)
  | record ptr =>
      exact record_moves base stepped
  | remove ptr next =>
      exact remove_moves base stepped
  | drop block next =>
      obtain ⟨freed, called, same⟩ := Option.map_eq_some_iff.mp stepped
      cases same
      have exchanged := rawFree_exchange called (live _ _ rfl)
      exact exchanged.pointStep next.blocks (.refl _) (.refl _)
  | insert ptr block next =>
      exact insert_moves base stepped
  | done ptr =>
      cases stepped
      exact .of_sublist state (List.Sublist.refl _)

/-! ## One step of the system -/

theorem held_eq_of_threads {state later : HandoverState Thread}
    (same : later.threads = state.threads) : later.held = state.held := by
  unfold HandoverState.held
  rw [same]

/-- When no block of the bootstrap allocator crosses over, libc is given live
blocks only. -/
theorem HandoverInvariant.live [Fintype Thread]
    {state : HandoverState Thread} (inv : HandoverInvariant state)
    {name : RawName} {ptr : Word}
    (timely : crossesOver state (some (name, ptr)) = false)
    (claimed : ptr ∈ state.common ∨ ∃ thread, ptr ∈ state.held thread)
    (installed : state.raw.raw name = some .libc) :
    state.ledger.live ptr = true := by
  refine inv.backed.live ?_ claimed
  simpa [crossesOver, installed] using timely

theorem giveUp_common {state : HandoverState Thread} {ptr : Word}
    (holds : ptr ∈ state.hands) :
    state.common.Perm (ptr :: (state.giveUp ptr).common) :=
  (List.perm_cons_erase holds).append_right _

theorem framesBlocks_continue (next : Continue) (outer : List HookPoint) :
    (next.held ++ framesBlocks (next.frames ++ outer)).Perm
      (next.blocks ++ framesBlocks outer) := by
  cases next with
  | goto point =>
      simp [Continue.held, Continue.frames, Continue.blocks, framesBlocks]
  | leave ptr => exact List.Perm.refl _

theorem HandoverInvariant.keep [Fintype Thread]
    {state allocated : HandoverState Thread}
    {block : Option Word} (inv : HandoverInvariant state)
    (exchanged : Exchange state allocated [] block.toList) :
    HandoverInvariant
      { allocated with kept := block.toList ++ allocated.kept } := by
  refine ⟨?_, exchanged.misused.trans inv.proper⟩
  have framed := exchanged.moves.frame state.common
  have moved : Moves state.ledger allocated.ledger state.common
      (allocated.hands ++ (block.toList ++ allocated.kept ++
        allocated.entries.filterMap TrackedEntry.block)) := by
    apply framed.trans
    apply Moves.of_perm
    rw [← exchanged.common]
    unfold HandoverState.common
    rw [List.append_assoc]
    exact List.perm_append_comm_assoc _ _ _
  have backed := inv.backed.common_step moved
  rwa [← held_eq_of_threads exchanged.threads] at backed

theorem mem_common_of_kept {state : HandoverState Thread} {ptr : Word}
    (keeps : ptr ∈ state.kept) : ptr ∈ state.common :=
  List.mem_append_right _ (List.mem_append_left _ keeps)

theorem HandoverInvariant.giveBack [Fintype Thread]
    {state freed : HandoverState Thread}
    {ptr : Word} (inv : HandoverInvariant state) (keeps : ptr ∈ state.kept)
    (exchanged : Exchange { state with kept := state.kept.erase ptr } freed
      [ptr] []) :
    HandoverInvariant freed := by
  refine ⟨?_, exchanged.misused.trans inv.proper⟩
  rw [held_eq_of_threads exchanged.threads, exchanged.common]
  apply inv.backed.common_step
  refine Moves.trans ?_ (exchanged.moves.frame _)
  apply Moves.of_perm
  have found := (List.perm_cons_erase keeps).append_right
    (state.entries.filterMap TrackedEntry.block)
  exact (found.append_left state.hands).trans List.perm_middle

section Runs

variable [DecidableEq Thread]

theorem held_setThread (state : HandoverState Thread) (thread : Thread)
    (caller : HookThread) :
    (state.setThread thread caller).held =
      Function.update state.held thread (framesBlocks caller.frames) := by
  funext other
  by_cases same : other = thread
  · subst same
    simp [HandoverState.held, HandoverState.setThread]
  · simp [HandoverState.held, HandoverState.setThread, same]

variable [Fintype Thread]

/-- A thread whose frames change exchanges blocks with the application, the
tool and the allocators. -/
theorem HandoverInvariant.setThread {state later : HandoverState Thread}
    (inv : HandoverInvariant state) (thread : Thread) {caller : HookThread}
    (moves : Moves state.ledger later.ledger
      (state.common ++ state.held thread)
      (later.common ++ framesBlocks caller.frames))
    (threads : later.threads = state.threads)
    (misused : later.misused = state.misused) :
    HandoverInvariant (later.setThread thread caller) := by
  refine ⟨?_, misused.trans inv.proper⟩
  rw [held_setThread, held_eq_of_threads threads]
  exact inv.backed.step moves

/-- A call takes the block it is about into its frame. -/
theorem HandoverInvariant.enter {state given : HandoverState Thread}
    (inv : HandoverInvariant state) (thread : Thread) (request : HookRequest)
    (ledger : given.ledger = state.ledger)
    (threads : given.threads = state.threads)
    (misused : given.misused = state.misused)
    (passed : state.common.Perm (requestBlocks request ++ given.common)) :
    HandoverInvariant (given.enter thread request) := by
  apply inv.setThread thread _ threads misused
  rw [ledger, threads]
  apply Moves.of_perm
  calc
    (state.common ++ state.held thread).Perm
        (requestBlocks request ++ given.common ++ state.held thread) :=
      passed.append_right _
    _ |>.Perm (given.common ++ requestBlocks request ++ state.held thread) :=
      List.perm_append_comm.append_right _
    _ |>.Perm (given.common ++ (requestBlocks request ++
        state.held thread)) := by
      rw [List.append_assoc]

theorem enterHook_invariant {state target : HandoverState Thread}
    (inv : HandoverInvariant state) {thread : Thread} {inPool : Bool}
    {request : HookRequest}
    (entered : enterHook state thread inPool request = some target) :
    HandoverInvariant target := by
  cases request with
  | nothing =>
      cases entered
      exact inv.enter thread .nothing rfl rfl rfl (.refl _)
  | alloc size =>
      cases entered
      exact inv.enter thread (.alloc size) rfl rfl rfl (.refl _)
  | release ptr =>
      simp only [enterHook] at entered
      split at entered
      · rename_i holds
        cases entered
        split
        · refine ⟨?_, inv.proper⟩
          apply inv.backed.common_step
          apply Moves.of_count_le
          intro block
          rw [(giveUp_common holds).count_eq]
          exact List.count_le_count_cons
        · exact inv.enter thread (.release ptr) rfl rfl rfl
            (giveUp_common holds)
      · contradiction
  | resize ptr size =>
      simp only [enterHook] at entered
      split at entered
      · rename_i holds
        cases entered
        exact inv.enter thread (.resize ptr size) rfl rfl rfl
          (giveUp_common holds)
      · contradiction

theorem resolveStep_invariant {state target : HandoverState Thread}
    (inv : HandoverInvariant state) {thread : Thread} {reply : LinkerReply}
    {pc : ResolvePc} {request : HookRequest} {outer : List HookPoint}
    (active : (state.threads thread).frames = .resolve pc request :: outer)
    (stepped : resolveStep state thread reply pc request outer =
      some target) :
    HandoverInvariant target := by
  have held : state.held thread =
      framesBlocks (.resolve pc request :: outer) := by
    unfold HandoverState.held
    rw [active]
  have kept := Moves.refl state.ledger (state.common ++ state.held thread)
  rw [held] at kept
  unfold resolveStep at stepped
  split at stepped
  · cases stepped
    apply inv.setThread thread _ rfl rfl
    rw [held]
    exact kept
  · split at stepped
    · generalize mttResolveStep state.raw (state.threads thread).resolving
        reply pc = outcome at stepped
      obtain ⟨raw, resolving, later⟩ := outcome
      obtain rfl := Option.some.inj stepped
      apply inv.setThread
      · rw [held]
        exact kept
      · rfl
      · rfl
    · contradiction

theorem threadStep_invariant {state target : HandoverState Thread}
    (inv : HandoverInvariant state) {thread : Thread} {env : StepEnv}
    (timely : GivesBackInTime state (.step thread env))
    (stepped : threadStep base state thread env = some target) :
    HandoverInvariant target := by
  unfold threadStep at stepped
  split at stepped
  · contradiction
  · rename_i pc request outer active
    exact resolveStep_invariant inv active stepped
  · rename_i point outer _ active
    obtain ⟨⟨later, next⟩, moved, same⟩ := Option.map_eq_some_iff.mp stepped
    cases same
    have held : state.held thread = point.blocks ++ framesBlocks outer := by
      unfold HandoverState.held
      rw [active]
      rfl
    have exchanged := pointStep_moves base moved (by
      intro name ptr gives
      apply inv.live
      · simpa [GivesBackInTime, HandoverLabel.gives, active, gives]
          using timely
      · refine Or.inr ⟨thread, ?_⟩
        rw [held]
        exact List.mem_append_left _ (gives_mem_blocks gives))
    apply inv.setThread
    · rw [held, ← List.append_assoc]
      apply (exchanged.moves.frame (framesBlocks outer)).trans
      apply Moves.of_perm
      have returned := framesBlocks_continue next outer
      calc
        (later.common ++ next.blocks ++ framesBlocks outer).Perm
            (later.common ++ (next.held ++
              framesBlocks (next.frames ++ outer))) := by
          rw [List.append_assoc]
          exact returned.symm.append_left _
        _ |>.Perm ((later.handOver next.held).common ++
            framesBlocks (next.frames ++ outer)) := by
          rw [← List.append_assoc]
          apply List.Perm.append_right
          exact List.perm_append_comm.trans (by
            simp [HandoverState.common, HandoverState.handOver])
    · exact exchanged.threads
    · exact exchanged.misused

theorem handoverInvariant_step {state target : HandoverState Thread}
    {label : HandoverLabel Thread} (inv : HandoverInvariant state)
    (timely : GivesBackInTime state label)
    (taken : handoverNext base state label = some target) :
    HandoverInvariant target := by
  cases label with
  | call thread call inPool =>
      simp only [handoverNext] at taken
      split at taken
      · split at taken
        · cases taken
          exact inv
        · exact enterHook_invariant inv taken
      · contradiction
  | step thread env => exact threadStep_invariant base inv timely taken
  | keep name size reply =>
      obtain ⟨⟨allocated, block⟩, called, same⟩ :=
        Option.map_eq_some_iff.mp taken
      cases same
      exact inv.keep (rawMalloc_exchange base called)
  | keepBootstrap size =>
      cases taken
      exact inv.keep (bootstrapMalloc_exchange base state size)
  | giveBack ptr =>
      simp only [handoverNext] at taken
      split at taken
      · rename_i keeps
        apply inv.giveBack keeps
        apply rawFree_exchange taken
        exact inv.live timely (Or.inl (mem_common_of_kept keeps))
      · contradiction

theorem handoverInvariant_initial {state : HandoverState Thread}
    (initial : (handoverSystem base Thread).init state) :
    HandoverInvariant state := by
  obtain ⟨-, -, -, misused, hands, kept, entries, frames⟩ := initial
  refine ⟨?_, misused⟩
  have nobody : state.held = fun _ => [] := by
    funext thread
    simp [HandoverState.held, frames thread, framesBlocks]
  have nothing : state.common = [] := by
    simp [HandoverState.common, hands, kept, entries]
  rw [nobody, nothing]
  exact backed_empty state.ledger

end Runs

end MemoryTraceTool.Handover
