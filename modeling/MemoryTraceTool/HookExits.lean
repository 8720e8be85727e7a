import MemoryTraceTool.HookInterleaving
import MemoryTraceTool.ThreadSlots
import MemoryTraceTool.Lib.StateProgram

/-!
# The exits of the hooks

Every hook counts itself in `hook_depth` and sets `in_hook`, and takes both
back on each of its ways out by hand.  While it resolves the raw allocators,
initialises the tool and captures the stack, hooks are called again.  What the
tool does to its own state is a parameter of the hooks here, so that a theorem
about them covers each state and each way other threads change it meanwhile.
-/

namespace MemoryTraceTool.HookExits

open StateProgram
open MemoryTraceTool.Slots (MttPerThread depthSentinel)
open MemoryTraceTool.Sequential (mttHookDepthMax)

/-- What the hooks do to a state `S` that holds `mtt_state_t`; `E` stands for
its entries.  An operation may read, write, and let other threads write. -/
structure StateOps (S E : Type) where
  stateGet : Bool
  poolContains : Word → S → Bool
  initialized : S → Bool × S
  obtainTables : S → Bool × S
  publish : S → S
  startupPhase : S → Bool × S
  disabled : S → Bool × S
  shouldTrack : Word → S → Bool × S
  overCapacity : S → Bool × S
  takeEntry : Word → Word → S → Option E × S
  entriesFull : S → Bool × S
  discardEntry : E → S → S
  recordEntry : E → S → S
  findEntry : Word → S → Bool × S
  forgetEntry : Word → S → S
  replaceEntry : Word → S → S
  freeEntry : Word → S → S

/-- A call of a raw allocator, with its answer. -/
inductive RawCall where
  | malloc (size : Word) (reply : Option Word)
  | realloc (ptr size : Word) (reply : Option Word)
  | free (ptr : Word)
  deriving DecidableEq, Repr

/-- What a hook returns, and the calls of raw allocators it made. -/
structure Served where
  result : Option Word
  raw : List RawCall
  deriving DecidableEq, Repr

inductive Call where
  | malloc (size : Word)
  | calloc (count size : Word)
  | realloc (ptr size : Word)
  | reallocarray (ptr nmemb size : Word)
  | free (ptr : Word)
  deriving DecidableEq, Repr

/-- The answer of the raw allocators, and whether the return address of the
call, or of a hook that it calls, is in a blacklisted library. -/
structure CallInput where
  reply : Option Word
  lrInBlacklist : Bool
  innerLrInBlacklist : Bool
  deriving DecidableEq, Repr

/-- Which of the raw pointers are set, `g_raw_resolved` and `g_raw_ready`. -/
structure RawPointers where
  malloc : Bool
  free : Bool
  realloc : Bool
  resolved : Bool
  ready : Bool
  deriving DecidableEq, Repr

/-- A call that has returned. -/
structure Returned (S : Type) where
  call : Call
  input : CallInput
  slotBefore : MttPerThread
  stateBefore : S
  served : Served
  slotAfter : MttPerThread
  rawAfter : RawPointers
  stateAfter : S

/-- The slot of the thread, the raw pointers, the state of the tool, and the
calls of the thread so far. -/
structure World (S : Type) where
  slot : MttPerThread
  raw : RawPointers
  state : S
  returned : List (Returned S)

variable {S E : Type}

abbrev HookM (S : Type) := StateProgram (World S)

/-- How the calls nested in a call run: while it resolves the raw allocators,
under `g_init_lock`, while it starts the threads and while it captures. -/
structure Nested (S : Type) where
  resolving : HookM S Unit
  locking : HookM S Unit
  starting : HookM S Unit
  capturing : HookM S Unit

/-! ## Reads and writes -/

def slot : HookM S MttPerThread := read World.slot

def raw : HookM S RawPointers := read World.raw

def setSlot (step : MttPerThread → MttPerThread) : HookM S Unit :=
  change fun world => { world with slot := step world.slot }

def setRaw (step : RawPointers → RawPointers) : HookM S Unit :=
  change fun world => { world with raw := step world.raw }

/-- An operation of the tool on its state. -/
def tool {α : Type} (operation : S → α × S) : HookM S α := fun world =>
  ((operation world.state).1, { world with state := (operation world.state).2 })

def update (step : S → S) : HookM S Unit :=
  tool fun state => ((), step state)

def setInHook (value : Int) : HookM S Unit :=
  setSlot fun ctx => { ctx with inHook := value }

/-- `mtt_hook_enter`; it returns the depth. -/
def hookEnter : HookM S Int := do
  setSlot Slots.mttHookEnter
  let ctx ← slot
  return ctx.hookDepth

def hookIncDepth : HookM S Unit := setSlot Slots.mttHookIncDepth

def hookDecDepth : HookM S Unit := setSlot Slots.mttHookDecDepth

/-! ## The raw allocators -/

/-- `raw_malloc` if it is set. -/
def rawMalloc (input : CallInput) (size : Word) (pointers : RawPointers) :
    Served :=
  if pointers.malloc then
    { result := input.reply, raw := [.malloc size input.reply] }
  else { result := none, raw := [] }

/-- `raw_free` if it is set. -/
def rawFree (ptr : Word) (pointers : RawPointers) : Served :=
  if pointers.free then { result := none, raw := [.free ptr] }
  else { result := none, raw := [] }

/-- `raw_malloc` and, if it has room, `raw_free`, without a copy. -/
def rawMove (input : CallInput) (ptr size : Word) (pointers : RawPointers) :
    Served :=
  let moved := rawMalloc input size pointers
  match moved.result with
  | none => moved
  | some _ => { moved with raw := moved.raw ++ (rawFree ptr pointers).raw }

/-- `raw_realloc`, or else a block of its own. -/
def rawRealloc (input : CallInput) (ptr size : Word)
    (pointers : RawPointers) : Served :=
  if pointers.realloc then
    { result := input.reply, raw := [.realloc ptr size input.reply] }
  else rawMove input ptr size pointers

/-- `raw_malloc` for an array whose size does not overflow. -/
def rawCalloc (input : CallInput) (count size : Word)
    (pointers : RawPointers) : Served :=
  if pointers.malloc then
    match arraySize count.toNat size.toNat with
    | none => { result := none, raw := [] }
    | some total => rawMalloc input (BitVec.ofNat 64 total) pointers
  else { result := none, raw := [] }

/-- What the raw allocators answer now. -/
def answer (served : RawPointers → Served) : HookM S Served :=
  read fun world => served world.raw

/-! ## The tool's functions -/

section Functions

variable (ops : StateOps S E) (nested : Nested S) (input : CallInput)

def mttResolveRawAllocators : HookM S Unit := do
  let pointers ← raw
  if pointers.ready || pointers.malloc then return
  else
    let ctx ← slot
    if ctx.rawResolving ≠ 0 then return
    else
      setRaw fun pointers =>
        { pointers with malloc := true, free := true, realloc := true }
      if pointers.resolved then return
      else
        setRaw fun pointers => { pointers with resolved := true }
        setSlot fun ctx => { ctx with rawResolving := 1 }
        let ctx ← slot
        let savedHook := ctx.inHook
        setInHook 1
        nested.resolving
        setInHook savedHook
        setSlot fun ctx => { ctx with rawResolving := 0 }
        setRaw fun pointers => { pointers with ready := true }

/-- From `pthread_mutex_unlock` on. -/
def startThreads : HookM S Unit := do
  let ctx ← slot
  let savedHook := ctx.inHook
  let savedTool := ctx.toolInternal
  setSlot fun ctx => { ctx with inHook := 1, toolInternal := 1 }
  let disabled ← tool ops.disabled
  if disabled then
    setSlot fun ctx =>
      { ctx with inHook := savedHook, toolInternal := savedTool }
  else
    nested.starting
    setSlot fun ctx =>
      { ctx with inHook := savedHook, toolInternal := savedTool }

def mttEnsureInit : HookM S Unit := do
  if ops.stateGet then
    let initialized ← tool ops.initialized
    if initialized then return
    else
      mttResolveRawAllocators nested
      let initialized ← tool ops.initialized
      if initialized then return
      else
        let obtained ← tool ops.obtainTables
        if obtained then
          nested.locking
          update ops.publish
          startThreads ops nested
        else return
  else return

def mttCaptureStack : HookM S Unit := do
  let ctx ← slot
  if ctx.inCapture ≠ 0 then return
  else
    let saved := ctx.inCapture
    setSlot fun ctx => { ctx with inCapture := 1 }
    nested.capturing
    setSlot fun ctx => { ctx with inCapture := saved }

def mttEntryNew (ptr size : Word) : HookM S (Option E) := do
  let entry ← tool (ops.takeEntry ptr size)
  match entry with
  | none => return none
  | some entry =>
      mttCaptureStack nested
      return some entry

/-! ## The hooks -/

/-- `s != NULL && mtt_is_startup_phase(s)`. -/
def inStartupPhase : HookM S Bool :=
  if ops.stateGet then tool ops.startupPhase else return false

/-- `s == NULL`, or else `s->disabled`. -/
def missingOrDisabled : HookM S Bool :=
  if ops.stateGet then tool ops.disabled else return true

/-- The tracked path of `malloc`. -/
def mallocTracked (savedHook : Int) (size : Word) : HookM S Served := do
  let served ← answer (rawMalloc input size)
  match served.result with
  | none =>
      hookDecDepth
      setInHook savedHook
      return served
  | some ptr =>
      let trackOk ← tool (ops.shouldTrack size)
      let overCap ← tool ops.overCapacity
      if !trackOk || overCap then
        hookDecDepth
        setInHook savedHook
        return served
      else
        let entry ← mttEntryNew ops nested ptr size
        match entry with
        | none =>
            hookDecDepth
            setInHook savedHook
            return served
        | some entry =>
            let full ← tool ops.entriesFull
            if full then
              update (ops.discardEntry entry)
              hookDecDepth
              setInHook savedHook
              return served
            else
              update (ops.recordEntry entry)
              hookDecDepth
              setInHook savedHook
              return served

/-- `malloc` after `mtt_hook_inc_depth`. -/
def mallocInside (lrInBlacklist : Bool) (size : Word) : HookM S Served := do
  let ctx ← slot
  let savedHook := ctx.inHook
  setInHook 1
  mttResolveRawAllocators nested
  if lrInBlacklist then
    let ret ← answer (rawMalloc input size)
    hookDecDepth
    setInHook savedHook
    return ret
  else
    let ctx ← slot
    if ctx.toolInternal ≠ 0 then
      let ret ← answer (rawMalloc input size)
      hookDecDepth
      setInHook savedHook
      return ret
    else
      let pointers ← raw
      if !pointers.malloc then
        hookDecDepth
        setInHook savedHook
        return { result := none, raw := [] }
      else if size = 0 then
        let ret ← answer (rawMalloc input 0)
        hookDecDepth
        setInHook savedHook
        return ret
      else
        mttEnsureInit ops nested
        let startup ← inStartupPhase ops
        if startup then
          let ret ← answer (rawMalloc input size)
          hookDecDepth
          setInHook savedHook
          return ret
        else if !ops.stateGet then
          let ret ← answer (rawMalloc input size)
          hookDecDepth
          setInHook savedHook
          return ret
        else
          let disabled ← tool ops.disabled
          if disabled then
            let ret ← answer (rawMalloc input size)
            hookDecDepth
            setInHook savedHook
            return ret
          else mallocTracked ops nested input savedHook size

def malloc (lrInBlacklist : Bool) (size : Word) : HookM S Served := do
  let depth ← hookEnter
  if 0 < depth then
    mttResolveRawAllocators nested
    answer (rawMalloc input size)
  else
    hookIncDepth
    mallocInside ops nested input lrInBlacklist size

/-- `free` after `mtt_hook_inc_depth`. -/
def freeInside (lrInBlacklist : Bool) (ptr : Word) : HookM S Served := do
  let ctx ← slot
  let savedHook := ctx.inHook
  setInHook 1
  mttResolveRawAllocators nested
  if lrInBlacklist then
    let ret ← answer (rawFree ptr)
    hookDecDepth
    setInHook savedHook
    return ret
  else
    let ctx ← slot
    if ctx.toolInternal ≠ 0 then
      let ret ← answer (rawFree ptr)
      hookDecDepth
      setInHook savedHook
      return ret
    else
      let pointers ← raw
      if !pointers.free then
        hookDecDepth
        setInHook savedHook
        return { result := none, raw := [] }
      else
        mttEnsureInit ops nested
        if !ops.stateGet then
          let ret ← answer (rawFree ptr)
          hookDecDepth
          setInHook savedHook
          return ret
        else
          let disabled ← tool ops.disabled
          if disabled then
            let ret ← answer (rawFree ptr)
            hookDecDepth
            setInHook savedHook
            return ret
          else
            update (ops.freeEntry ptr)
            let ret ← answer (rawFree ptr)
            hookDecDepth
            setInHook savedHook
            return ret

def free (lrInBlacklist : Bool) (ptr : Word) : HookM S Served := do
  if ptr = 0 then return { result := none, raw := [] }
  else
    let pooled ← tool fun state => (ops.poolContains ptr state, state)
    if pooled then return { result := none, raw := [] }
    else
      let depth ← hookEnter
      if 0 < depth then
        mttResolveRawAllocators nested
        answer (rawFree ptr)
      else
        hookIncDepth
        freeInside ops nested lrInBlacklist ptr

/-- `calloc` does not count itself. -/
def calloc (count size : Word) : HookM S Served := do
  let depth ← hookEnter
  if 0 < depth then
    mttResolveRawAllocators nested
    answer (rawCalloc input count size)
  else
    let ctx ← slot
    if ctx.toolInternal ≠ 0 then
      mttResolveRawAllocators nested
      answer (rawCalloc input count size)
    else
      match arraySize count.toNat size.toNat with
      | none => return { result := none, raw := [] }
      | some total =>
          if input.lrInBlacklist then
            mttResolveRawAllocators nested
            answer (rawMalloc input (BitVec.ofNat 64 total))
          else
            malloc ops nested input input.innerLrInBlacklist
              (BitVec.ofNat 64 total)

/-- A new record for a block that `raw_realloc` moved. -/
def recordMoved (ptr size : Word) : HookM S Unit := do
  let overCap ← tool ops.overCapacity
  if overCap then return
  else
    let entry ← mttEntryNew ops nested ptr size
    match entry with
    | none => return
    | some entry =>
        let full ← tool ops.entriesFull
        if full then update (ops.discardEntry entry)
        else update (ops.recordEntry entry)

/-- The tracked path of `realloc` with `raw_realloc`. -/
def reallocTracked (savedHook : Int) (ptr size : Word) : HookM S Served := do
  let found ← tool (ops.findEntry ptr)
  let served ← answer (rawRealloc input ptr size)
  match served.result with
  | none =>
      hookDecDepth
      setInHook savedHook
      return served
  | some new =>
      if found then
        update (ops.forgetEntry ptr)
        recordMoved ops nested new size
        hookDecDepth
        setInHook savedHook
        return served
      else
        hookDecDepth
        setInHook savedHook
        return served

/-- The tracked path of `realloc` without `raw_realloc`. -/
def reallocFallback (savedHook : Int) (ptr size : Word) : HookM S Served := do
  let moved ← answer (rawMalloc input size)
  match moved.result with
  | none =>
      hookDecDepth
      setInHook savedHook
      return moved
  | some new =>
      let entry ← mttEntryNew ops nested new size
      match entry with
      | none =>
          let freed ← answer (rawFree new)
          hookDecDepth
          setInHook savedHook
          return { result := none, raw := moved.raw ++ freed.raw }
      | some entry =>
          update (ops.replaceEntry ptr)
          let full ← tool ops.entriesFull
          if full then
            update (ops.discardEntry entry)
            let freed ← answer (rawFree ptr)
            hookDecDepth
            setInHook savedHook
            return { moved with raw := moved.raw ++ freed.raw }
          else
            update (ops.recordEntry entry)
            let freed ← answer (rawFree ptr)
            hookDecDepth
            setInHook savedHook
            return { moved with raw := moved.raw ++ freed.raw }

/-- `realloc` after `mtt_hook_inc_depth`. -/
def reallocInside (lrInBlacklist : Bool) (ptr size : Word) :
    HookM S Served := do
  let ctx ← slot
  let savedHook := ctx.inHook
  setInHook 1
  mttResolveRawAllocators nested
  if lrInBlacklist then
    let ret ← answer (rawRealloc input ptr size)
    hookDecDepth
    setInHook savedHook
    return ret
  else
    let ctx ← slot
    if ctx.toolInternal ≠ 0 then
      let ret ← answer (rawRealloc input ptr size)
      hookDecDepth
      setInHook savedHook
      return ret
    else
      let pointers ← raw
      if !pointers.malloc then
        hookDecDepth
        setInHook savedHook
        return { result := none, raw := [] }
      else
        mttEnsureInit ops nested
        let disabled ← missingOrDisabled ops
        let pointers ← raw
        if disabled then
          if pointers.realloc then
            let ret ← answer (rawRealloc input ptr size)
            hookDecDepth
            setInHook savedHook
            return ret
          else
            let moved ← answer (rawMalloc input size)
            match moved.result with
            | none =>
                hookDecDepth
                setInHook savedHook
                return moved
            | some _ =>
                let freed ← answer (rawFree ptr)
                hookDecDepth
                setInHook savedHook
                return { moved with raw := moved.raw ++ freed.raw }
        else if pointers.realloc then
          reallocTracked ops nested input savedHook ptr size
        else reallocFallback ops nested input savedHook ptr size

def realloc (lrInBlacklist : Bool) (ptr size : Word) : HookM S Served := do
  if ptr = 0 then malloc ops nested input input.innerLrInBlacklist size
  else if size = 0 then free ops nested input.innerLrInBlacklist ptr
  else
    let depth ← hookEnter
    if 0 < depth then
      mttResolveRawAllocators nested
      answer (rawRealloc input ptr size)
    else
      hookIncDepth
      reallocInside ops nested input lrInBlacklist ptr size

def reallocarray (ptr nmemb size : Word) : HookM S Served := do
  match arraySize nmemb.toNat size.toNat with
  | none => return { result := none, raw := [] }
  | some total =>
      if input.lrInBlacklist then
        mttResolveRawAllocators nested
        let pointers ← raw
        if pointers.realloc then
          answer (rawRealloc input ptr (BitVec.ofNat 64 total))
        else
          realloc ops nested input input.innerLrInBlacklist ptr
            (BitVec.ofNat 64 total)
      else
        realloc ops nested input input.innerLrInBlacklist ptr
          (BitVec.ofNat 64 total)

def hookCall : Call → HookM S Served
  | .malloc size => malloc ops nested input input.lrInBlacklist size
  | .calloc count size => calloc ops nested input count size
  | .realloc ptr size => realloc ops nested input input.lrInBlacklist ptr size
  | .reallocarray ptr nmemb size => reallocarray ops nested input ptr nmemb size
  | .free ptr => free ops nested input.lrInBlacklist ptr

end Functions

/-! ## Nested calls -/

/-- A call of a hook, with the calls nested in it if it gets that far. -/
inductive HookCall where
  | mk (call : Call) (input : CallInput)
      (resolving locking starting capturing : List HookCall)

/-- A call with a note of what it found and left. -/
def noted (call : Call) (input : CallInput) (program : HookM S Served) :
    HookM S Served := do
  let before ← read fun world => world
  let served ← program
  change fun world =>
    { world with
      returned := world.returned ++
        [{ call
           input
           slotBefore := before.slot
           stateBefore := before.state
           served
           slotAfter := world.slot
           rawAfter := world.raw
           stateAfter := world.state }] }
  return served

mutual

def HookCall.run (ops : StateOps S E) : HookCall → HookM S Served
  | .mk call input resolving locking starting capturing =>
      noted call input
        (hookCall ops
          { resolving := HookCall.runAll ops resolving
            locking := HookCall.runAll ops locking
            starting := HookCall.runAll ops starting
            capturing := HookCall.runAll ops capturing }
          input call)

def HookCall.runAll (ops : StateOps S E) : List HookCall → HookM S Unit
  | [] => return
  | call :: rest => do
      let _ ← HookCall.run ops call
      HookCall.runAll ops rest

end

end MemoryTraceTool.HookExits
