import MemoryTraceTool.Lib.Transition
import MemoryTraceTool.SequentialHooks

/-!
# Thread slots

A thread finds its record in `g_threads` by its kernel thread ID.  The array
is searched and claimed by single atomic operations; threads start and exit
between any two of them, and the kernel may give the ID of an exited thread to
a new one.  The plain stores that a thread makes to the fields of its slot
between two lookups are one step.
-/

namespace MemoryTraceTool.Slots

open Transition
open MemoryTraceTool.Sequential (mttHookDepthMax)

def mttMaxThreads : Nat := 512

/-- A `pid_t`; 0 marks a slot that was never taken. -/
abbrev Tid := Nat

/-- A slot of `g_threads` without its `tid`. -/
structure MttPerThread where
  hookDepth : Int
  depthInited : Int
  inHook : Int
  toolInternal : Int
  rawResolving : Int
  inCapture : Int
  deriving DecidableEq, Repr

namespace MttPerThread

/-- The BSS contents. -/
def zero : MttPerThread :=
  { hookDepth := 0
    depthInited := 0
    inHook := 0
    toolInternal := 0
    rawResolving := 0
    inCapture := 0 }

/-- What a thread stores into a slot that it has taken. -/
def taken : MttPerThread :=
  { hookDepth := -1
    depthInited := -1
    inHook := 0
    toolInternal := 0
    rawResolving := 0
    inCapture := 0 }

end MttPerThread

def depthSentinel : Int := 0x2A

/-- `mtt_hook_enter` on the slot that it found. -/
def mttHookEnter (fields : MttPerThread) : MttPerThread :=
  if fields.depthInited ≠ depthSentinel then
    { fields with hookDepth := 0, depthInited := depthSentinel }
  else if mttHookDepthMax < fields.hookDepth then
    { fields with hookDepth := 0 }
  else
    fields

/-- `mtt_hook_inc_depth`. -/
def mttHookIncDepth (fields : MttPerThread) : MttPerThread :=
  let inited :=
    if fields.depthInited = depthSentinel then fields
    else { fields with hookDepth := 0, depthInited := depthSentinel }
  if mttHookDepthMax ≤ inited.hookDepth then
    inited
  else
    { inited with hookDepth := inited.hookDepth + 1 }

/-- `mtt_hook_dec_depth`. -/
def mttHookDecDepth (fields : MttPerThread) : MttPerThread :=
  { fields with
    hookDepth := if 0 < fields.hookDepth then fields.hookDepth - 1 else 0 }

/-! ## Threads -/

/-- What a thread was started with. -/
inductive ThreadFn where
  | ordinary
  | http
  | reporter
  | signal
  deriving DecidableEq, Repr

/-- The hooks that look at their depth; `aligned_alloc` and `posix_memalign`
only resolve the allocators. -/
inductive HookName where
  | malloc
  | free
  | calloc
  | realloc
  deriving DecidableEq, Repr

/-- `calloc` leaves the depth and `in_hook` to the `malloc` that it calls. -/
def HookName.counts : HookName → Bool
  | .calloc => false
  | _ => true

/-- Tool code with the local variables that it restores fields from. -/
inductive ToolSection where
  | hook (ctx : Nat) (savedHook : Int)
  | resolving (ctx : Nat) (savedHook : Int)
  | starting (ctx : Nat) (savedHook savedTool : Int)
  | capturing (ctx : Nat) (saved : Int)
  /-- `in_hook` held while a tool thread calls the C library. -/
  | quiet (ctx : Nat) (savedHook : Int)
  /-- The body of a thread function, which never resets `tool_internal`. -/
  | toolThread (ctx : Nat)
  deriving DecidableEq, Repr

/-- The tool code that starts with a lookup by `mtt_thread_get`. -/
inductive SectionName where
  | resolve
  | start
  | capture
  | dataRead
  | threadFn
  deriving DecidableEq, Repr

/-- What the slot that a lookup returns is used for. -/
inductive LookupUse where
  | bare (cached : Bool)
  | hookEnter (hook : HookName)
  | hookCtx (hook : HookName)
  | incDepth (ctx : Nat)
  | decDepth
  | opens (section_ : SectionName)
  deriving DecidableEq, Repr

/-- The hooks look up by `mtt_thread_get_cached`. -/
def LookupUse.cached : LookupUse → Bool
  | .bare cached => cached
  | .hookEnter _ | .hookCtx _ | .incDepth _ | .decDepth => true
  | .opens _ => false

/-- The next atomic operation of a lookup. -/
inductive ScanPc where
  | cached
  | find (index : Nat)
  | claim (index : Nat)
  | owner (index : Nat)
  | probe (index : Nat) (owner : Tid)
  | reclaim (index : Nat) (owner : Tid)
  | init (index : Nat)
  | fill (index : Nat)
  deriving DecidableEq, Repr

/-- A thread is in its own code, or looks for its slot. -/
inductive TaskPc where
  | running
  | looking (use : LookupUse) (pc : ScanPc)
  deriving DecidableEq, Repr

/-- A live thread.  `returned` lists the slots that `mtt_thread_get` has
returned to it, `hooked` and `seen` tell what its first hook call found. -/
structure Task where
  threadFn : ThreadFn
  pc : TaskPc
  sections : List ToolSection
  tlsCtx : Option Nat
  tlsCachedTid : Tid
  returned : List Nat
  hooked : Bool
  seen : Option MttPerThread
  deriving DecidableEq, Repr

namespace Task

/-- A thread that has just been created. -/
def fresh (threadFn : ThreadFn) : Task :=
  { threadFn
    pc := .running
    sections := []
    tlsCtx := none
    tlsCachedTid := 0
    returned := []
    hooked := false
    seen := none }

def goto (task : Task) (pc : TaskPc) : Task :=
  { task with pc }

/-- Start a lookup. -/
def look (task : Task) (use : LookupUse) : Task :=
  task.goto (.looking use (if use.cached then .cached else .find 0))

end Task

/-- The slots, the kernel's table of live threads, and the slots in which a
thread has exited inside tool code since they were last initialised. -/
structure SlotState where
  slots : Nat → Tid
  fields : Nat → MttPerThread
  live : Tid → Option Task
  abandoned : Nat → Bool

/-! ## What a thread does with its slot -/

def restoreHook (saved : Int) (fields : MttPerThread) : MttPerThread :=
  { fields with inHook := saved }

/-- The stores at the start of a section, and the section; nothing where the
code turns back. -/
def openSection (threadFn : ThreadFn) (ctx : Nat) (fields : MttPerThread) :
    SectionName → Option (MttPerThread × List ToolSection)
  | .resolve =>
      if fields.rawResolving ≠ 0 then
        none
      else
        some ({ fields with rawResolving := 1, inHook := 1 },
          [.resolving ctx fields.inHook])
  | .start =>
      some ({ fields with inHook := 1, toolInternal := 1 },
        [.starting ctx fields.inHook fields.toolInternal])
  | .capture =>
      if fields.inCapture ≠ 0 then
        none
      else
        some ({ fields with inCapture := 1 },
          [.capturing ctx fields.inCapture])
  | .dataRead =>
      some ({ fields with inHook := 1 }, [.quiet ctx fields.inHook])
  | .threadFn =>
      match threadFn with
      | .ordinary => none
      | .http | .signal =>
          some ({ fields with toolInternal := 1 }, [.toolThread ctx])
      | .reporter =>
          some ({ fields with toolInternal := 1, inHook := 1 },
            [.quiet ctx fields.inHook, .toolThread ctx])

/-- The stores at the end of a section. -/
def closeSection (fields : Nat → MttPerThread) :
    ToolSection → Nat → MttPerThread
  | .hook ctx saved | .quiet ctx saved =>
      Function.update fields ctx (restoreHook saved (fields ctx))
  | .resolving ctx saved =>
      Function.update fields ctx
        { restoreHook saved (fields ctx) with rawResolving := 0 }
  | .starting ctx savedHook savedTool =>
      Function.update fields ctx
        { restoreHook savedHook (fields ctx) with toolInternal := savedTool }
  | .capturing ctx saved =>
      Function.update fields ctx { fields ctx with inCapture := saved }
  | .toolThread _ => fields

/-- Change the slot that a lookup returned; NULL is skipped. -/
def changeAt (change : MttPerThread → MttPerThread)
    (fields : Nat → MttPerThread) : Option Nat → Nat → MttPerThread
  | none => fields
  | some index => Function.update fields index (change (fields index))

/-- What follows a lookup, up to the next one. -/
def resume (task : Task) (fields : Nat → MttPerThread) :
    LookupUse → Option Nat → (Nat → MttPerThread) × Task
  | .bare _, _ => (fields, task.goto .running)
  | .hookEnter hook, none =>
      (fields, { task with hooked := true }.look (.hookCtx hook))
  | .hookEnter hook, some index =>
      let entered := mttHookEnter (fields index)
      let task :=
        { task with
          hooked := true
          seen := if task.hooked then task.seen else some entered }
      (Function.update fields index entered,
        if 0 < entered.hookDepth then task.goto .running
        else task.look (.hookCtx hook))
  | .hookCtx _, none => (fields, task.goto .running)
  | .hookCtx hook, some ctx =>
      (fields,
        if hook.counts then task.look (.incDepth ctx) else task.goto .running)
  | .incDepth ctx, result =>
      let counted := changeAt mttHookIncDepth fields result
      (Function.update counted ctx (restoreHook 1 (counted ctx)),
        { task with
          sections := .hook ctx (counted ctx).inHook :: task.sections }.goto
          .running)
  | .decDepth, result =>
      match task.sections with
      | [] => (fields, task.goto .running)
      | innermost :: rest =>
          (closeSection (changeAt mttHookDecDepth fields result) innermost,
            { task with sections := rest }.goto .running)
  | .opens _, none => (fields, task.goto .running)
  | .opens section_, some ctx =>
      match openSection task.threadFn ctx (fields ctx) section_ with
      | none => (fields, task.goto .running)
      | some (opened, sections) =>
          (Function.update fields ctx opened,
            { task with sections := sections ++ task.sections }.goto .running)

/-! ## Lookups -/

namespace SlotState

def setTask (state : SlotState) (tid : Tid) (task : Task) : SlotState :=
  { state with live := Function.update state.live tid (some task) }

def setSlot (state : SlotState) (index : Nat) (tid : Tid) : SlotState :=
  { state with slots := Function.update state.slots index tid }

/-- The lookup is over. -/
def finish (state : SlotState) (tid : Tid) (task : Task) (use : LookupUse)
    (result : Option Nat) : SlotState :=
  let (fields, task) := resume task state.fields use result
  { state with fields }.setTask tid task

/-- `mtt_thread_get` returns a slot; the cached lookup goes on to read its
`tid` once more. -/
def found (state : SlotState) (tid : Tid) (task : Task) (use : LookupUse)
    (index : Nat) : SlotState :=
  let task := { task with returned := index :: task.returned }
  if use.cached then
    state.setTask tid
      ({ task with tlsCtx := some index }.goto (.looking use (.fill index)))
  else
    state.finish tid task use (some index)

/-- `mtt_thread_get` returns NULL. -/
def missed (state : SlotState) (tid : Tid) (task : Task) (use : LookupUse) :
    SlotState :=
  if use.cached then
    state.finish tid { task with tlsCtx := none, tlsCachedTid := 0 } use none
  else
    state.finish tid task use none

/-- The next operation of `mtt_thread_get` or `mtt_thread_get_cached`. -/
def lookStep (state : SlotState) (tid : Tid) (task : Task) (use : LookupUse) :
    ScanPc → SlotState :=
  let goto pc := state.setTask tid (task.goto (.looking use pc))
  fun
  | .cached =>
      match task.tlsCtx with
      | none => goto (.find 0)
      | some index =>
          if state.slots index = task.tlsCachedTid then
            state.finish tid task use (some index)
          else
            goto (.find 0)
  | .find index =>
      if index < mttMaxThreads then
        if state.slots index = tid then
          state.found tid task use index
        else
          goto (.find (index + 1))
      else
        goto (.claim 0)
  | .claim index =>
      if index < mttMaxThreads then
        if state.slots index = 0 then
          (state.setSlot index tid).setTask tid
            (task.goto (.looking use (.init index)))
        else
          goto (.claim (index + 1))
      else
        goto (.owner 0)
  | .owner index =>
      if index < mttMaxThreads then
        if state.slots index ≠ 0 ∧ state.slots index ≠ tid then
          goto (.probe index (state.slots index))
        else
          goto (.owner (index + 1))
      else
        state.missed tid task use
  | .probe index owner =>
      -- `kill(owner, 0)` fails with ESRCH
      if state.live owner = none then
        goto (.reclaim index owner)
      else
        goto (.owner (index + 1))
  | .reclaim index owner =>
      if state.slots index = owner then
        (state.setSlot index tid).setTask tid
          (task.goto (.looking use (.init index)))
      else
        goto (.owner (index + 1))
  | .init index =>
      { state with
        fields := Function.update state.fields index .taken
        abandoned := Function.update state.abandoned index false }.found
        tid task use index
  | .fill index =>
      state.finish tid { task with tlsCachedTid := state.slots index } use
        (some index)

end SlotState

/-! ## Runs -/

inductive SlotLabel where
  | create (tid : Tid) (threadFn : ThreadFn)
  | exit (tid : Tid)
  | call (tid : Tid) (use : LookupUse)
  | leave (tid : Tid)
  | step (tid : Tid)
  deriving DecidableEq, Repr

/-- The calls that a thread makes of its own accord.  The sections of a hook
run once it has called one. -/
def Task.mayCall (task : Task) : LookupUse → Bool
  | .bare _ | .hookEnter _ => true
  | .opens .resolve | .opens .start | .opens .capture => task.hooked
  | .opens .dataRead => task.threadFn = .http
  | .opens .threadFn => task.threadFn ≠ .ordinary ∧ task.sections = []
  | .hookCtx _ | .incDepth _ | .decDepth => false

/-- The slot that the thread has taken and not yet initialised. -/
def TaskPc.taken : TaskPc → Option Nat
  | .looking _ (.init index) => some index
  | _ => none

namespace Task

def uses (task : Task) (index : Nat) : Bool :=
  decide (index ∈ task.returned) || task.pc.taken == some index

/-- The thread is inside tool code, or has not initialised the slot that it
has taken. -/
def busy (task : Task) : Bool :=
  !task.sections.isEmpty || task.pc.taken.isSome

end Task

namespace SlotState

/-- A thread ends; the fields of its slot stay as they are. -/
def exit (state : SlotState) (tid : Tid) (task : Task) : SlotState :=
  { state with
    live := Function.update state.live tid none
    abandoned := fun index =>
      state.abandoned index || (task.uses index && task.busy) }

/-- Leave the innermost section of the tool's code. -/
def leave (state : SlotState) (tid : Tid) (task : Task) : Option SlotState :=
  match task.sections with
  | [] | .toolThread _ :: _ => none
  | .hook _ _ :: _ => some (state.setTask tid (task.look .decDepth))
  | innermost :: rest =>
      some ({ state with
        fields := closeSection state.fields innermost }.setTask tid
        { task with sections := rest })

end SlotState

/-- The lookups of all threads interleave operation by operation. -/
def slotNext (state : SlotState) : SlotLabel → Option SlotState
  | .create tid threadFn =>
      if tid ≠ 0 ∧ state.live tid = none then
        some (state.setTask tid (.fresh threadFn))
      else
        none
  | .exit tid => (state.live tid).map fun task => state.exit tid task
  | .call tid use =>
      (state.live tid).bind fun task =>
        if task.pc = .running ∧ task.mayCall use then
          some (state.setTask tid (task.look use))
        else
          none
  | .leave tid =>
      (state.live tid).bind fun task =>
        if task.pc = .running then state.leave tid task else none
  | .step tid =>
      (state.live tid).bind fun task =>
        match task.pc with
        | .running => none
        | .looking use pc => some (state.lookStep tid task use pc)

/-- Nothing is in the array and no thread runs. -/
def slotStart : SlotState :=
  { slots := fun _ => 0
    fields := fun _ => .zero
    live := fun _ => none
    abandoned := fun _ => false }

def slotSystem : System SlotState SlotLabel where
  init := fun state => state = slotStart
  next := slotNext

/-! ## The slots that hold a thread's ID -/

/-- Where no slot can hold the thread's ID, by how far its lookup is. -/
def ScanPc.Scanned (slots : Nat → Tid) (tid : Tid) : ScanPc → Prop
  | .cached | .fill _ => True
  | .find index => ∀ passed < index, slots passed ≠ tid
  | .claim _ | .owner _ => ∀ passed < mttMaxThreads, slots passed ≠ tid
  | .probe index _ | .reclaim index _ =>
      index < mttMaxThreads ∧ ∀ passed < mttMaxThreads, slots passed ≠ tid
  | .init index => index < mttMaxThreads ∧ slots index = tid

/-- What a thread knows about the array. -/
structure TaskInvariant (slots : Nat → Tid) (tid : Tid) (task : Task) :
    Prop where
  returned : ∀ index ∈ task.returned,
    index < mttMaxThreads ∧ slots index = tid
  cache : ∀ index ∈ task.tlsCtx, index ∈ task.returned
  scanned : ∀ use pc, task.pc = .looking use pc → pc.Scanned slots tid

/-- What holds between the steps of all threads of the array and its slots. -/
structure SlotInvariant (state : SlotState) : Prop where
  nonzero : state.live 0 = none
  once : ∀ index other, index < mttMaxThreads → other < mttMaxThreads →
    state.slots index ≠ 0 → state.slots index = state.slots other →
    index = other
  tasks : ∀ tid task, state.live tid = some task →
    TaskInvariant state.slots tid task

/-- Only the places of the thread's own ID matter. -/
theorem ScanPc.Scanned.congr {slots later : Nat → Tid} {tid : Tid}
    {pc : ScanPc} (scanned : pc.Scanned slots tid)
    (same : ∀ index, later index = tid ↔ slots index = tid) :
    pc.Scanned later tid := by
  cases pc with
  | cached | fill => trivial
  | find | claim | owner | probe | reclaim | init =>
      simpa only [Scanned, ne_eq, same] using scanned

theorem TaskInvariant.congr {slots later : Nat → Tid} {tid : Tid}
    {task : Task} (inv : TaskInvariant slots tid task)
    (same : ∀ index, later index = tid ↔ slots index = tid) :
    TaskInvariant later tid task where
  returned := by
    intro index given
    rw [same]
    exact inv.returned index given
  cache := inv.cache
  scanned := fun use pc looking => (inv.scanned use pc looking).congr same

/-- A program counter from which nothing has been scanned. -/
def TaskPc.Starts : TaskPc → Prop
  | .running | .looking _ .cached | .looking _ (.find 0) => True
  | _ => False

theorem TaskPc.Starts.scanned {pc : TaskPc} (starts : pc.Starts)
    {slots : Nat → Tid} {tid : Tid} {use : LookupUse} {scan : ScanPc}
    (looking : pc = .looking use scan) : scan.Scanned slots tid := by
  subst looking
  cases scan with
  | cached | fill => trivial
  | find index =>
      cases index with
      | zero => simp [ScanPc.Scanned]
      | succ index => exact starts.elim
  | claim | owner | probe | reclaim | init => exact starts.elim

@[simp]
theorem Task.look_starts (task : Task) (use : LookupUse) :
    (task.look use).pc.Starts := by
  unfold Task.look
  cases use.cached <;> trivial

@[simp]
theorem Task.goto_running_starts (task : Task) :
    (task.goto .running).pc.Starts :=
  trivial

/-- What follows a lookup changes nothing that lookups read. -/
structure Task.SameLookups (task later : Task) : Prop where
  threadFn : later.threadFn = task.threadFn
  returned : later.returned = task.returned
  tlsCtx : later.tlsCtx = task.tlsCtx
  starts : later.pc.Starts

theorem resume_sameLookups (task : Task) (fields : Nat → MttPerThread)
    (use : LookupUse) (result : Option Nat) :
    task.SameLookups (resume task fields use result).2 := by
  cases use with
  | bare => exact ⟨rfl, rfl, rfl, trivial⟩
  | hookEnter hook =>
      cases result with
      | none => exact ⟨rfl, rfl, rfl, Task.look_starts _ _⟩
      | some index =>
          simp only [resume]
          split
          · exact ⟨rfl, rfl, rfl, trivial⟩
          · exact ⟨rfl, rfl, rfl, Task.look_starts _ _⟩
  | hookCtx hook =>
      cases result with
      | none => exact ⟨rfl, rfl, rfl, trivial⟩
      | some ctx =>
          simp only [resume]
          split
          · exact ⟨rfl, rfl, rfl, Task.look_starts _ _⟩
          · exact ⟨rfl, rfl, rfl, trivial⟩
  | incDepth ctx => exact ⟨rfl, rfl, rfl, trivial⟩
  | decDepth =>
      simp only [resume]
      split <;> exact ⟨rfl, rfl, rfl, trivial⟩
  | opens section_ =>
      cases result with
      | none => exact ⟨rfl, rfl, rfl, trivial⟩
      | some ctx =>
          simp only [resume]
          split <;> exact ⟨rfl, rfl, rfl, trivial⟩

theorem TaskInvariant.of_starts {slots : Nat → Tid} {tid : Tid} {task : Task}
    (returned : ∀ index ∈ task.returned,
      index < mttMaxThreads ∧ slots index = tid)
    (cache : ∀ index ∈ task.tlsCtx, index ∈ task.returned)
    (starts : task.pc.Starts) : TaskInvariant slots tid task where
  returned := returned
  cache := cache
  scanned := fun _ _ looking => starts.scanned looking

theorem TaskInvariant.goto {slots : Nat → Tid} {tid : Tid} {task : Task}
    (inv : TaskInvariant slots tid task) {use : LookupUse} {pc : ScanPc}
    (scanned : pc.Scanned slots tid) :
    TaskInvariant slots tid (task.goto (.looking use pc)) where
  returned := inv.returned
  cache := inv.cache
  scanned := by
    intro laterUse later looking
    obtain ⟨-, rfl⟩ := TaskPc.looking.inj looking
    exact scanned

/-! ## What a step of a lookup does -/

/-- The next operation replaces the ID in the slot. -/
inductive ScanPc.Takes (slots : Nat → Tid) : ScanPc → Nat → Prop where
  | claim {index : Nat} (free : slots index = 0)
      (bounded : index < mttMaxThreads) : Takes slots (.claim index) index
  | reclaim {index : Nat} {owner : Tid} (same : slots index = owner) :
      Takes slots (.reclaim index owner) index

/-- No slot has been taken or found yet. -/
def ScanPc.Searches : ScanPc → Prop
  | .init _ | .fill _ => False
  | _ => True

/-- The outcome of an operation: a slot is taken, the lookup goes on, or it
ends with the task and the result it has found. -/
inductive LookStep (state : SlotState) (tid : Tid) (task : Task)
    (use : LookupUse) : ScanPc → SlotState → Prop where
  | takes {pc : ScanPc} {index : Nat} (takes : pc.Takes state.slots index) :
      LookStep state tid task use pc
        ((state.setSlot index tid).setTask tid
          (task.goto (.looking use (.init index))))
  | goes {pc later : ScanPc} (before : pc.Searches) (after : later.Searches)
      (scanned : pc.Scanned state.slots tid → later.Scanned state.slots tid) :
      LookStep state tid task use pc
        (state.setTask tid (task.goto (.looking use later)))
  | finds {index : Nat} (bounded : index < mttMaxThreads)
      (same : state.slots index = tid) :
      LookStep state tid task use (.find index)
        (state.found tid task use index)
  | misses {index : Nat} (full : ¬ index < mttMaxThreads) :
      LookStep state tid task use (.owner index)
        (state.missed tid task use)
  | initialises (index : Nat) :
      LookStep state tid task use (.init index)
        ({ state with
          fields := Function.update state.fields index .taken
          abandoned := Function.update state.abandoned index false }.found
            tid task use index)
  | hits {index : Nat} (cached : task.tlsCtx = some index)
      (same : state.slots index = task.tlsCachedTid) :
      LookStep state tid task use .cached
        (state.finish tid task use (some index))
  | fills (index : Nat) :
      LookStep state tid task use (.fill index)
        (state.finish tid { task with tlsCachedTid := state.slots index } use
          (some index))

theorem lookStep_cases (state : SlotState) (tid : Tid) (task : Task)
    (use : LookupUse) (pc : ScanPc) :
    LookStep state tid task use pc (state.lookStep tid task use pc) := by
  cases pc with
  | cached =>
      simp only [SlotState.lookStep]
      split
      · exact .goes trivial trivial fun _ => by simp [ScanPc.Scanned]
      · rename_i index cached
        split_ifs with same
        · exact .hits cached same
        · exact .goes trivial trivial fun _ => by simp [ScanPc.Scanned]
  | find index =>
      simp only [SlotState.lookStep]
      split_ifs with bounded same
      · exact .finds bounded same
      · refine .goes trivial trivial fun scanned passed earlier => ?_
        rcases Nat.lt_succ_iff_lt_or_eq.mp earlier with before | rfl
        · exact scanned passed before
        · exact same
      · exact .goes trivial trivial fun scanned passed below =>
          scanned passed (by omega)
  | claim index =>
      simp only [SlotState.lookStep]
      split_ifs with bounded free
      · exact .takes (.claim free bounded)
      · exact .goes trivial trivial id
      · exact .goes trivial trivial id
  | owner index =>
      simp only [SlotState.lookStep]
      split_ifs with bounded other
      · exact .goes trivial trivial fun scanned => ⟨bounded, scanned⟩
      · exact .goes trivial trivial id
      · exact .misses bounded
  | probe index owner =>
      simp only [SlotState.lookStep]
      split_ifs with dead
      · exact .goes trivial trivial id
      · exact .goes trivial trivial And.right
  | reclaim index owner =>
      simp only [SlotState.lookStep]
      split_ifs with same
      · exact .takes (.reclaim same)
      · exact .goes trivial trivial And.right
  | init index => exact .initialises index
  | fill index => exact .fills index

/-- A step changes the array by its writes only, and no other task. -/
structure SlotFrame (state : SlotState) (tid : Tid) (target : SlotState)
    (later : Task) : Prop where
  slots : target.slots = state.slots
  live : target.live = Function.update state.live tid (some later)

theorem SlotState.finish_frame (state : SlotState) (tid : Tid) (task : Task)
    (use : LookupUse) (result : Option Nat) :
    SlotFrame state tid (state.finish tid task use result)
      (resume task state.fields use result).2 :=
  ⟨rfl, rfl⟩

/-- A lookup that ends leaves a thread that knows what it knew. -/
theorem SlotState.finish_task {state : SlotState} {tid : Tid} (task : Task)
    (returned : ∀ index ∈ task.returned,
      index < mttMaxThreads ∧ state.slots index = tid)
    (cache : ∀ index ∈ task.tlsCtx, index ∈ task.returned)
    (use : LookupUse) (result : Option Nat) :
    ∃ later, SlotFrame state tid (state.finish tid task use result) later ∧
      TaskInvariant state.slots tid later := by
  have same := resume_sameLookups task state.fields use result
  refine ⟨_, state.finish_frame tid task use result,
    .of_starts ?_ ?_ same.starts⟩
  · rw [same.returned]
    exact returned
  · rw [same.returned, same.tlsCtx]
    exact cache

theorem SlotState.found_task (state : SlotState) {tid : Tid} {task : Task}
    (inv : TaskInvariant state.slots tid task) {index : Nat}
    (bounded : index < mttMaxThreads) (same : state.slots index = tid)
    (use : LookupUse) :
    ∃ later, SlotFrame state tid (state.found tid task use index) later ∧
      TaskInvariant state.slots tid later := by
  have returned : ∀ given ∈ index :: task.returned,
      given < mttMaxThreads ∧ state.slots given = tid := by
    intro given member
    rcases List.mem_cons.mp member with rfl | earlier
    · exact ⟨bounded, same⟩
    · exact inv.returned given earlier
  unfold SlotState.found
  cases use.cached with
  | true =>
      refine ⟨_, ⟨rfl, rfl⟩, ⟨returned, ?_, ?_⟩⟩
      · rintro given member
        exact List.mem_cons.mpr (.inl (Option.some.inj member).symm)
      · intro laterUse pc looking
        obtain ⟨-, rfl⟩ := TaskPc.looking.inj looking
        trivial
  | false =>
      refine SlotState.finish_task
        { task with returned := index :: task.returned }
        returned ?_ use (some index)
      intro given member
      exact List.mem_cons_of_mem index (inv.cache given member)

/-- An operation that takes no slot leaves the array as it is. -/
theorem LookStep.task {state target : SlotState} {tid : Tid} {task : Task}
    {use : LookupUse} {pc : ScanPc}
    (step : LookStep state tid task use pc target)
    (inv : TaskInvariant state.slots tid task)
    (looking : task.pc = .looking use pc) :
    (∃ later, SlotFrame state tid target later ∧
      TaskInvariant state.slots tid later) ∨
    ∃ index, pc.Takes state.slots index ∧
      target = (state.setSlot index tid).setTask tid
        (task.goto (.looking use (.init index))) := by
  have scanned := inv.scanned use pc looking
  cases step with
  | takes taken => exact .inr ⟨_, taken, rfl⟩
  | goes _ _ passes =>
      exact .inl ⟨_, ⟨rfl, rfl⟩, inv.goto (passes scanned)⟩
  | finds bounded same =>
      exact .inl (state.found_task inv bounded same use)
  | misses =>
      left
      unfold SlotState.missed
      cases use.cached with
      | true =>
          refine SlotState.finish_task
            { task with tlsCtx := none, tlsCachedTid := 0 }
            inv.returned ?_ use none
          intro index member
          cases member
      | false =>
          exact SlotState.finish_task task inv.returned inv.cache use none
  | initialises index =>
      obtain ⟨later, frame, known⟩ := SlotState.found_task
        { state with
          fields := Function.update state.fields index .taken
          abandoned := Function.update state.abandoned index false }
        inv scanned.1 scanned.2 use
      exact .inl ⟨later, ⟨frame.slots, frame.live⟩, known⟩
  | hits =>
      exact .inl (SlotState.finish_task task inv.returned inv.cache use _)
  | fills index =>
      exact .inl (SlotState.finish_task
        { task with tlsCachedTid := state.slots index }
        inv.returned inv.cache use (some index))

/-! ## Slots of live threads -/

/-- A probe's answer still stands when the slot is taken: no live thread has
the ID that is replaced. -/
def ReclaimsDead (state : SlotState) : SlotLabel → Prop
  | .step tid => ∀ task use index owner, state.live tid = some task →
      task.pc = .looking use (.reclaim index owner) →
      state.slots index = owner → state.live owner = none
  | _ => True

/-- No two live threads were given one slot, and no live thread's ID is in two
slots. -/
structure SlotsExclusive (state : SlotState) : Prop where
  apart : ∀ tid task other otherTask index, state.live tid = some task →
    state.live other = some otherTask → index ∈ task.returned →
    index ∈ otherTask.returned → tid = other
  once : ∀ tid task index other, state.live tid = some task →
    index < mttMaxThreads → other < mttMaxThreads →
    state.slots index = tid → state.slots other = tid → index = other

theorem SlotInvariant.exclusive {state : SlotState}
    (inv : SlotInvariant state) : SlotsExclusive state where
  apart := by
    intro tid task other otherTask index live otherLive given otherGiven
    have own := ((inv.tasks tid task live).returned index given).2
    have others :=
      ((inv.tasks other otherTask otherLive).returned index otherGiven).2
    exact own.symm.trans others
  once := by
    intro tid task index other live bounded otherBounded same otherSame
    apply inv.once index other bounded otherBounded
    · rintro free
      have nobody := inv.nonzero
      rw [← free, same, live] at nobody
      cases nobody
    · exact same.trans otherSame.symm

theorem slotInvariant_start : SlotInvariant slotStart where
  nonzero := rfl
  once := by
    intro index other _ _ taken
    exact absurd rfl taken
  tasks := by
    intro tid task live
    cases live

theorem SlotInvariant.ne_zero {state : SlotState} (inv : SlotInvariant state)
    {tid : Tid} {task : Task} (live : state.live tid = some task) :
    tid ≠ 0 := by
  rintro rfl
  rw [inv.nonzero] at live
  cases live

theorem SlotInvariant.frame {state target : SlotState}
    (inv : SlotInvariant state) {tid : Tid} {later : Task}
    (frame : SlotFrame state tid target later) (nonzero : tid ≠ 0)
    (known : TaskInvariant state.slots tid later) : SlotInvariant target where
  nonzero := by
    rw [frame.live, Function.update_of_ne nonzero.symm]
    exact inv.nonzero
  once := by
    rw [frame.slots]
    exact inv.once
  tasks := by
    intro other task live
    rw [frame.slots]
    rw [frame.live] at live
    by_cases same : other = tid
    · subst same
      rw [Function.update_self, Option.some.injEq] at live
      exact live ▸ known
    · rw [Function.update_of_ne same] at live
      exact inv.tasks other task live

theorem SlotInvariant.takes {state : SlotState} (inv : SlotInvariant state)
    {tid : Tid} {task : Task} (live : state.live tid = some task)
    {use : LookupUse} {index : Nat} (bounded : index < mttMaxThreads)
    (absent : ∀ passed < mttMaxThreads, state.slots passed ≠ tid)
    (dead : state.live (state.slots index) = none) :
    SlotInvariant ((state.setSlot index tid).setTask tid
      (task.goto (.looking use (.init index)))) where
  nonzero := by
    have moved : (0 : Tid) ≠ tid := (inv.ne_zero live).symm
    exact (Function.update_of_ne moved _ _).trans inv.nonzero
  once := by
    intro first second firstBounded secondBounded taken same
    simp only [SlotState.setTask, SlotState.setSlot, Function.update_apply]
      at taken same
    split_ifs at taken same with isFirst isSecond isSecond
    · exact isFirst.trans isSecond.symm
    · exact absurd same.symm (absent second secondBounded)
    · exact absurd same (absent first firstBounded)
    · exact inv.once first second firstBounded secondBounded taken same
  tasks := by
    intro other otherTask otherLive
    by_cases same : other = tid
    · subst same
      have isTask : task.goto (.looking use (.init index)) = otherTask := by
        simpa [SlotState.setTask] using otherLive
      subst isTask
      have known := inv.tasks other task live
      refine ⟨?_, known.cache, ?_⟩
      · intro given member
        have old := known.returned given member
        exact absurd old.2 (absent given old.1)
      · intro laterUse pc looking
        obtain ⟨-, rfl⟩ := TaskPc.looking.inj looking
        exact ⟨bounded, Function.update_self _ _ _⟩
    · have before : state.live other = some otherTask := by
        simpa [SlotState.setTask, SlotState.setSlot, same] using otherLive
      refine (inv.tasks other otherTask before).congr ?_
      intro place
      simp only [SlotState.setTask, SlotState.setSlot, Function.update_apply]
      split_ifs with isPlace
      · subst isPlace
        constructor
        · intro isOther
          exact absurd isOther.symm same
        · intro isOther
          rw [isOther, before] at dead
          cases dead
      · exact Iff.rfl

theorem SlotInvariant.next {state target : SlotState} {label : SlotLabel}
    (inv : SlotInvariant state) (allowed : ReclaimsDead state label)
    (taken : slotNext state label = some target) : SlotInvariant target := by
  cases label with
  | create tid threadFn =>
      simp only [slotNext] at taken
      split_ifs at taken with may
      cases taken
      refine inv.frame ⟨rfl, rfl⟩ may.1 (.of_starts ?_ ?_ trivial)
      · intro index given
        cases given
      · intro index cached
        cases cached
  | exit tid =>
      obtain ⟨task, live, rfl⟩ := Option.map_eq_some_iff.mp taken
      refine ⟨?_, inv.once, ?_⟩
      · simp only [SlotState.exit, Function.update_apply]
        split
        · rfl
        · exact inv.nonzero
      · intro other otherTask otherLive
        simp only [SlotState.exit, Function.update_apply] at otherLive
        split at otherLive
        · cases otherLive
        · exact inv.tasks other otherTask otherLive
  | call tid use =>
      obtain ⟨task, live, called⟩ := Option.bind_eq_some_iff.mp taken
      split_ifs at called with may
      cases called
      have known := inv.tasks tid task live
      exact inv.frame ⟨rfl, rfl⟩ (inv.ne_zero live)
        (.of_starts known.returned known.cache (Task.look_starts task use))
  | leave tid =>
      obtain ⟨task, live, left⟩ := Option.bind_eq_some_iff.mp taken
      split_ifs at left with running
      have known := inv.tasks tid task live
      simp only [SlotState.leave] at left
      split at left
      · cases left
      · cases left
      · cases left
        exact inv.frame ⟨rfl, rfl⟩ (inv.ne_zero live)
          (.of_starts known.returned known.cache (Task.look_starts task _))
      · cases left
        refine inv.frame ⟨rfl, rfl⟩ (inv.ne_zero live)
          (.of_starts known.returned known.cache ?_)
        simp [running, TaskPc.Starts]
  | step tid =>
      obtain ⟨task, live, stepped⟩ := Option.bind_eq_some_iff.mp taken
      have known := inv.tasks tid task live
      cases looking : task.pc with
      | running => simp [looking] at stepped
      | looking use pc =>
          simp only [looking, Option.some.injEq] at stepped
          subst stepped
          have scanned := known.scanned use pc looking
          have step := lookStep_cases state tid task use pc
          rcases step.task known looking with
            ⟨later, frame, laterKnown⟩ | ⟨index, takes, isTarget⟩
          · exact inv.frame frame (inv.ne_zero live) laterKnown
          · rw [isTarget]
            cases takes with
            | claim free bounded =>
                refine inv.takes live bounded scanned ?_
                rw [free]
                exact inv.nonzero
            | reclaim same =>
                refine inv.takes live scanned.1 scanned.2 ?_
                rw [same]
                exact allowed task use _ _ live looking same

theorem slotInvariant_of_reclaimsDead {state : SlotState}
    (reachable : slotSystem.ReachableBy ReclaimsDead state) :
    SlotInvariant state :=
  reachable.invariant SlotInvariant
    (by
      rintro state rfl
      exact slotInvariant_start)
    (fun _ _ _ inv allowed taken => inv.next allowed taken)

/-- While each reclaimed ID belongs to no live thread, no slot that a live
thread was given is given to another, and no live thread is in two slots. -/
theorem slotsExclusive_of_reclaimsDead {state : SlotState}
    (reachable : slotSystem.ReachableBy ReclaimsDead state) :
    SlotsExclusive state :=
  (slotInvariant_of_reclaimsDead reachable).exclusive

/-! ## Runs of one lookup -/

/-- The next operation finds no slot by its ID and replaces no ID. -/
def ScanPc.Calm (slots : Nat → Tid) (tid : Tid) : ScanPc → Prop
  | .find index => index < mttMaxThreads → slots index ≠ tid
  | .reclaim index replaced => slots index ≠ replaced
  | _ => True

def CalmStep (state : SlotState) : SlotLabel → Prop
  | .step tid => ∀ task use pc, state.live tid = some task →
      task.pc = .looking use pc → pc.Calm state.slots tid
  | _ => True

theorem CalmStep.reclaimsDead {state : SlotState} {label : SlotLabel}
    (calm : CalmStep state label) : ReclaimsDead state label := by
  cases label with
  | create | exit | call | leave => trivial
  | step tid =>
      intro task use index owner live looking same
      exact absurd same (calm task use _ live looking)

section Scan

variable (state : SlotState) (tid : Tid) (task : Task) (use : LookupUse)

/-- The state in which the thread is at `pc` of its lookup. -/
def SlotState.at (pc : ScanPc) : SlotState :=
  state.setTask tid (task.goto (.looking use pc))

@[simp]
theorem SlotState.setTask_setTask (earlier later : Task) :
    (state.setTask tid earlier).setTask tid later =
      state.setTask tid later := by
  simp [SlotState.setTask]

theorem SlotState.setTask_live_of_ne {other : Tid} (apart : other ≠ tid) :
    (state.setTask tid task).live other = state.live other :=
  Function.update_of_ne apart _ _

@[simp]
theorem SlotState.at_setTask (pc : ScanPc) (later : Task) :
    (state.at tid task use pc).setTask tid later = state.setTask tid later :=
  state.setTask_setTask tid _ later

@[simp]
theorem SlotState.at_setSlot (pc : ScanPc) (index : Nat) (other : Tid) :
    (state.at tid task use pc).setSlot index other =
      (state.setSlot index other).at tid task use pc :=
  rfl

@[simp]
theorem SlotState.at_slots (pc : ScanPc) :
    (state.at tid task use pc).slots = state.slots :=
  rfl

@[simp]
theorem SlotState.at_live (pc : ScanPc) :
    (state.at tid task use pc).live =
      Function.update state.live tid
        (some (task.goto (.looking use pc))) :=
  rfl

theorem SlotState.next_at (pc : ScanPc) :
    slotSystem.next (state.at tid task use pc) (.step tid) =
      some ((state.at tid task use pc).lookStep tid
        (task.goto (.looking use pc)) use pc) := by
  simp [slotSystem, slotNext, Task.goto]

theorem CalmStep.at {pc : ScanPc} (calm : pc.Calm state.slots tid) :
    CalmStep (state.at tid task use pc) (.step tid) := by
  intro other laterUse later live looking
  have isTask : task.goto (.looking use pc) = other := by
    simpa using live
  subst isTask
  obtain ⟨-, rfl⟩ := TaskPc.looking.inj looking
  exact calm

variable {state tid}

theorem steps_at {pc later : ScanPc} (calm : pc.Calm state.slots tid)
    (goes : (state.at tid task use pc).lookStep tid
      (task.goto (.looking use pc)) use pc = state.at tid task use later) :
    slotSystem.StepsBy CalmStep (state.at tid task use pc)
      (state.at tid task use later) := by
  refine .tail (.refl _) (CalmStep.at state tid task use calm) ?_
  exact (state.next_at tid task use pc).trans (congrArg some goes)

theorem steps_loop (pc : Nat → ScanPc) (count : Nat)
    (turn : ∀ index < count, slotSystem.StepsBy CalmStep
      (state.at tid task use (pc index))
      (state.at tid task use (pc (index + 1)))) :
    slotSystem.StepsBy CalmStep (state.at tid task use (pc 0))
      (state.at tid task use (pc count)) := by
  induction count with
  | zero => exact .refl _
  | succ count induction =>
      have before := induction fun index earlier =>
        turn index (Nat.lt_succ_of_lt earlier)
      exact before.trans (turn count (Nat.lt_succ_self _))

/-- A search that finds the thread's ID returns the slot. -/
theorem SlotState.next_found {index : Nat} (below : index < mttMaxThreads)
    (same : state.slots index = tid) :
    slotSystem.next (state.at tid task (.bare false) (.find index))
      (.step tid) = some (state.setTask tid
        { task with
          pc := .running, returned := index :: task.returned }) := by
  refine (state.next_at tid task _ _).trans ?_
  simp [SlotState.lookStep, below, same, SlotState.found, LookupUse.cached,
    SlotState.finish, resume, SlotState.setTask, SlotState.at, Task.goto]

theorem steps_find (absent : ∀ index < mttMaxThreads, state.slots index ≠ tid) :
    slotSystem.StepsBy CalmStep (state.at tid task use (.find 0))
      (state.at tid task use (.claim 0)) := by
  refine (steps_loop task use .find mttMaxThreads ?_).trans
    (steps_at task use ?_ ?_)
  · intro index below
    have other := absent index below
    refine steps_at task use (fun _ => other) ?_
    simp only [SlotState.lookStep, SlotState.at_slots, below, other, if_true,
      if_false, SlotState.at_setTask]
    rfl
  · intro below
    exact absurd below (lt_irrefl _)
  · simp only [SlotState.lookStep, lt_irrefl, if_false, SlotState.at_setTask]
    rfl

/-- Claims fail at slots that were taken before. -/
theorem steps_claim {count : Nat} (bounded : count ≤ mttMaxThreads)
    (full : ∀ index < count, state.slots index ≠ 0) :
    slotSystem.StepsBy CalmStep (state.at tid task use (.claim 0))
      (state.at tid task use (.claim count)) := by
  apply steps_loop
  intro index earlier
  have below : index < mttMaxThreads := earlier.trans_le bounded
  have old := full index earlier
  refine steps_at task use trivial ?_
  simp only [SlotState.lookStep, SlotState.at_slots, below, old, if_true,
    if_false, SlotState.at_setTask]
  rfl

end Scan

/-- A new thread starts to look for its slot by `mtt_thread_get`. -/
theorem steps_start {state : SlotState} {tid : Tid} (nonzero : tid ≠ 0)
    (dead : state.live tid = none) {threadFn : ThreadFn} {use : LookupUse}
    (may : (Task.fresh threadFn).mayCall use = true)
    (direct : use.cached = false) :
    slotSystem.StepsBy CalmStep state
      (state.at tid (.fresh threadFn) use (.find 0)) := by
  have created : slotSystem.next state (.create tid threadFn) =
      some (state.setTask tid (.fresh threadFn)) := by
    simp [slotSystem, slotNext, nonzero, dead]
  have called : slotSystem.next (state.setTask tid (.fresh threadFn))
      (.call tid use) =
      some (state.at tid (.fresh threadFn) use (.find 0)) := by
    simp only [slotSystem, slotNext, SlotState.setTask, Function.update_self,
      Option.bind_some, may, and_true]
    simp [SlotState.setTask, SlotState.at, Task.look, direct, Task.fresh]
  refine .tail (.tail (.refl state) ?_ created) ?_ called <;> trivial

/-- The state after a thread has taken a slot and was given it. -/
def SlotState.given (state : SlotState) (tid : Tid) (task : Task)
    (index : Nat) : SlotState :=
  { slots := Function.update state.slots index tid
    fields := Function.update state.fields index .taken
    live := Function.update state.live tid
      (some { task with pc := .running, returned := index :: task.returned })
    abandoned := Function.update state.abandoned index false }

@[simp]
theorem SlotState.given_live (state : SlotState) (tid : Tid) (task : Task)
    (index : Nat) :
    (state.given tid task index).live = Function.update state.live tid
      (some { task with
        pc := .running, returned := index :: task.returned }) :=
  rfl

theorem steps_init {state : SlotState} {tid : Tid} {index : Nat}
    (threadFn : ThreadFn) :
    slotSystem.StepsBy CalmStep
      ((state.setSlot index tid).at tid (.fresh threadFn) (.bare false)
        (.init index))
      (state.given tid (.fresh threadFn) index) := by
  have stepped := (state.setSlot index tid).next_at tid (.fresh threadFn)
    (.bare false) (.init index)
  refine .tail (.refl _) (CalmStep.at _ _ _ _ trivial) (stepped.trans ?_)
  simp [SlotState.lookStep, SlotState.found, SlotState.finish, resume,
    LookupUse.cached, SlotState.given, SlotState.setTask, SlotState.setSlot,
    SlotState.at, Task.goto]

/-- A new thread takes the first slot that was never taken. -/
theorem steps_taken {state : SlotState} {tid : Tid} {count : Nat}
    (nonzero : tid ≠ 0) (dead : state.live tid = none)
    (absent : ∀ index < mttMaxThreads, state.slots index ≠ tid)
    (bounded : count < mttMaxThreads)
    (full : ∀ index < count, state.slots index ≠ 0)
    (free : state.slots count = 0) {threadFn : ThreadFn} {use : LookupUse}
    (may : (Task.fresh threadFn).mayCall use = true)
    (direct : use.cached = false) :
    slotSystem.StepsBy CalmStep state
      ((state.setSlot count tid).at tid (.fresh threadFn) use
        (.init count)) := by
  have claims := ((steps_start nonzero dead may direct).trans
    (steps_find _ _ absent)).trans
    (steps_claim _ _ (Nat.le_of_lt bounded) full)
  have stepped := state.next_at tid (.fresh threadFn) use (.claim count)
  refine .tail claims (CalmStep.at _ _ _ _ trivial) (stepped.trans ?_)
  simp [SlotState.lookStep, bounded, free]
  rfl

/-- Threads that came, took the first slots and left. -/
structure Filled (count : Nat) (state : SlotState) : Prop where
  slots : ∀ index, state.slots index = if index < count then index + 1 else 0
  live : ∀ tid, state.live tid = none

theorem Filled.slots_ne {count : Nat} {state : SlotState}
    (filled : Filled count state) {tid : Tid} (later : count < tid)
    (index : Nat) : state.slots index ≠ tid := by
  have later : count < (tid : Nat) := later
  rw [filled.slots]
  split <;> intro (same : (_ : Nat) = _) <;> omega

theorem Filled.slots_ne_zero {count : Nat} {state : SlotState}
    (filled : Filled count state) {index : Nat} (earlier : index < count) :
    state.slots index ≠ 0 := by
  rw [filled.slots, if_pos earlier]
  exact Nat.succ_ne_zero index

theorem exists_filled {count : Nat} (bounded : count ≤ mttMaxThreads) :
    ∃ state, slotSystem.ReachableBy CalmStep state ∧ Filled count state := by
  induction count with
  | zero => exact ⟨slotStart, .start rfl, fun _ => rfl, fun _ => rfl⟩
  | succ count induction =>
      obtain ⟨state, reachable, filled⟩ := induction (Nat.le_of_lt bounded)
      have free : state.slots count = 0 := by simp [filled.slots]
      have taken : slotSystem.StepsBy CalmStep state
          ((state.setSlot count (count + 1)).at (count + 1)
            (.fresh .ordinary) (.bare false) (.init count)) :=
        steps_taken (Nat.succ_ne_zero count) (filled.live _)
          (fun index _ => filled.slots_ne (Nat.lt_succ_self count) index)
          bounded (fun index => filled.slots_ne_zero) free rfl rfl
      have given := taken.trans (steps_init .ordinary)
      have exited : slotSystem.next (state.given (count + 1)
          (.fresh .ordinary) count) (.exit (count + 1)) = some
          ((state.given (count + 1) (.fresh .ordinary) count).exit (count + 1)
            { Task.fresh .ordinary with
              pc := .running, returned := [count] }) := by
        simp [slotSystem, slotNext, SlotState.given, Task.fresh]
      refine ⟨_, .step (reachable.extend given) ?_ exited, ?_, ?_⟩
      · trivial
      · intro index
        simp only [SlotState.exit, SlotState.given, Function.update_apply,
          filled.slots]
        by_cases last : index = count
        · simp [last]
        · have same : index < count + 1 ↔ index < count := by omega
          simp [last, same]
      · intro tid
        simp [SlotState.exit, SlotState.given, Function.update_apply,
          filled.live]

/-! ## A slot taken from a live thread -/

/-- A thread that has found the array full and the first owner dead. -/
theorem steps_reclaim {state : SlotState} (filled : Filled mttMaxThreads state)
    {tid : Tid} (later : mttMaxThreads < tid) :
    slotSystem.StepsBy CalmStep state
      (state.at tid (.fresh .ordinary) (.bare false) (.reclaim 0 1)) := by
  have nonzero : tid ≠ 0 := Nat.ne_zero_of_lt later
  have start : slotSystem.StepsBy CalmStep state
      (state.at tid (.fresh .ordinary) (.bare false) (.find 0)) :=
    steps_start nonzero (filled.live tid) rfl rfl
  have find := steps_find (.fresh .ordinary) (.bare false)
    (fun index _ => filled.slots_ne later index)
  have claim : slotSystem.StepsBy CalmStep
      (state.at tid (.fresh .ordinary) (.bare false) (.claim 0))
      (state.at tid (.fresh .ordinary) (.bare false)
        (.claim mttMaxThreads)) :=
    steps_claim _ _ le_rfl (fun index => filled.slots_ne_zero)
  have first : state.slots 0 = 1 := filled.slots 0
  have alive : state.live 1 = none := filled.live 1
  have other : (1 : Tid) ≠ tid := by
    intro same
    have few : mttMaxThreads < 1 := same ▸ later
    exact absurd few (by decide)
  have full : slotSystem.StepsBy CalmStep
      (state.at tid (.fresh .ordinary) (.bare false) (.claim mttMaxThreads))
      (state.at tid (.fresh .ordinary) (.bare false) (.owner 0)) := by
    refine steps_at _ _ trivial ?_
    simp [SlotState.lookStep]
    rfl
  have load : slotSystem.StepsBy CalmStep
      (state.at tid (.fresh .ordinary) (.bare false) (.owner 0))
      (state.at tid (.fresh .ordinary) (.bare false) (.probe 0 1)) := by
    refine steps_at _ _ trivial ?_
    simp [SlotState.lookStep, first, other, mttMaxThreads]
    rfl
  have probe : slotSystem.StepsBy CalmStep
      (state.at tid (.fresh .ordinary) (.bare false) (.probe 0 1))
      (state.at tid (.fresh .ordinary) (.bare false) (.reclaim 0 1)) := by
    refine steps_at _ _ trivial ?_
    simp [SlotState.lookStep, alive, other]
    rfl
  exact ((((start.trans find).trans claim).trans full).trans load).trans probe

/-- The thread of the runs below that finds the array full. -/
def reclaimer : Tid := 1000

theorem one_ne_reclaimer : (1 : Tid) ≠ reclaimer := by
  decide

/-- The thread has found the first owner dead and is about to take its slot. -/
def SlotState.probed (state : SlotState) : SlotState :=
  state.at reclaimer (.fresh .ordinary) (.bare false) (.reclaim 0 1)

theorem exists_probed : ∃ state, Filled mttMaxThreads state ∧
    slotSystem.ReachableBy CalmStep state.probed := by
  obtain ⟨state, reachable, filled⟩ := exists_filled le_rfl
  exact ⟨state, filled, reachable.extend (steps_reclaim filled (by decide))⟩

theorem Filled.probed_live {count : Nat} {state : SlotState}
    (filled : Filled count state) : state.probed.live 1 = none :=
  (state.setTask_live_of_ne reclaimer _ one_ne_reclaimer).trans
    (filled.live 1)

/-- A dead owner's slot is taken. -/
theorem slotsExclusive_of_deadOwner : ∃ state task,
    slotSystem.ReachableBy ReclaimsDead state ∧
      state.live reclaimer = some task ∧ task.returned = [0] ∧
      SlotsExclusive state := by
  obtain ⟨state, filled, reachable⟩ := exists_probed
  have calm := reachable.mono fun _ _ => CalmStep.reclaimsDead
  have first : state.slots 0 = 1 := filled.slots 0
  have taken : slotSystem.next state.probed (.step reclaimer) = some
      ((state.setSlot 0 reclaimer).at reclaimer (.fresh .ordinary)
        (.bare false) (.init 0)) := by
    refine (SlotState.next_at _ _ _ _ _).trans ?_
    simp [SlotState.lookStep, first]
    rfl
  have allowed : ReclaimsDead state.probed (.step reclaimer) := by
    intro task use index owner live looking _
    have isTask : (Task.fresh .ordinary).goto
        (.looking (.bare false) (.reclaim 0 1)) = task := by
      simpa [SlotState.probed] using live
    subst isTask
    obtain ⟨-, same⟩ := TaskPc.looking.inj looking
    obtain ⟨-, rfl⟩ := ScanPc.reclaim.inj same
    exact filled.probed_live
  have given := (calm.step allowed taken).extend
    ((steps_init .ordinary).mono fun _ _ => CalmStep.reclaimsDead)
  refine ⟨_, { Task.fresh .ordinary with pc := .running, returned := [0] },
    given, ?_, rfl, slotsExclusive_of_reclaimsDead given⟩
  simp [Task.fresh]

/-- The ID of the first owner is given to a new thread between the probe and
the reclaiming store. -/
theorem slot_shared_of_reusedTid :
    ¬ ∀ state, slotSystem.Reachable state → SlotsExclusive state := by
  intro exclusive
  obtain ⟨state, filled, reachable⟩ := exists_probed
  have first : state.slots 0 = 1 := filled.slots 0
  have start : slotSystem.Reachable
      (state.probed.at 1 (.fresh .ordinary) (.bare false) (.find 0)) :=
    (reachable.extend (steps_start one_ne_zero filled.probed_live rfl
      rfl)).mono fun _ _ _ => trivial
  let owner : Task :=
    { Task.fresh .ordinary with pc := .running, returned := [0] }
  have found : slotSystem.next
      (state.probed.at 1 (.fresh .ordinary) (.bare false) (.find 0))
      (.step 1) = some (state.probed.setTask 1 owner) := by
    exact SlotState.next_found _ (by decide) first
  let shared := state.setTask 1 owner
  have swapped : state.probed.setTask 1 owner =
      shared.at reclaimer (.fresh .ordinary) (.bare false) (.reclaim 0 1) := by
    simp only [SlotState.probed, SlotState.at, SlotState.setTask, shared,
      Function.update_comm one_ne_reclaimer]
  rw [swapped] at found
  have taken : slotSystem.next
      (shared.at reclaimer (.fresh .ordinary) (.bare false) (.reclaim 0 1))
      (.step reclaimer) = some
      ((shared.setSlot 0 reclaimer).at reclaimer (.fresh .ordinary)
        (.bare false) (.init 0)) := by
    refine (SlotState.next_at _ _ _ _ _).trans ?_
    simp [shared, SlotState.lookStep, SlotState.setTask, first]
    rfl
  have both := ((start.step trivial found).step trivial taken).extend
    ((steps_init .ordinary).mono fun _ _ _ => trivial)
  have apart := (exclusive _ both).apart 1 owner reclaimer owner 0
  apply one_ne_reclaimer
  apply apart
  · simp [shared, SlotState.setTask, one_ne_reclaimer]
  · simp [owner, Task.fresh]
  · simp [owner]
  · simp [owner]

end MemoryTraceTool.Slots
