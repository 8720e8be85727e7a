import MemoryTraceTool.Accounting
import MemoryTraceTool.SequentialHooks

/-!
# Nested calls

While the tool serves a request its own code allocates: `dlsym`, the parsing
of `/proc/self/maps` under `g_init_lock`, the start of the background threads
and the capture of the stack come back in through the public hooks.  A nested
call is told apart by the fields of the thread's slot only.
-/

namespace MemoryTraceTool.Nesting

open Accounting
open MemoryTraceTool.Sequential (ThreadSlot mttHookEnter mttHookDepthMax)
open ForkChild (TrackedEntry fillFreeLists)

inductive Call where
  | malloc (size : Word)
  | calloc (count size : Word)
  | realloc (ptr size : Word)
  | free (ptr : Word)
  deriving DecidableEq, Repr

/-- What an initialisation finds outside the tool.  The last ranges are those
found in `/proc/self/maps` after the last nested call. -/
structure InitInput where
  obtainsTable : Bool
  hashSeed : Word
  pool : Option (Word × Nat)
  sampleRate : Nat
  samplePeriod : Nat
  leakThresholdSec : Int
  wantDisabled : Bool
  mapsOpen : Bool
  foundLast : List (Word × Word)
  blacklistSelfMatch : Bool
  deriving DecidableEq, Repr

/-- The input of one call: its return address and the one that a hook called
by this hook sees, the answers of the raw allocators, the clock, the captured
stack, and the ranges that were found in `/proc/self/maps` since the nested
call before. -/
structure CallInput where
  lr : Word
  innerLr : Word
  reply : Option Word
  rawMalloc : Bool
  rawRealloc : Bool
  startup : Bool
  now : Int
  stack : List Word
  init : InitInput
  found : List (Word × Word)
  deriving DecidableEq, Repr

/-- A call of a hook, with the nested calls that it makes itself if it gets
that far: while it resolves the raw allocators, under `g_init_lock`, while it
starts the threads, and while it captures the stack. -/
inductive HookCall where
  | mk (call : Call) (input : CallInput)
      (resolving locking starting capturing : List HookCall)

def HookCall.call : HookCall → Call
  | .mk call _ _ _ _ _ => call

def HookCall.input : HookCall → CallInput
  | .mk _ input _ _ _ _ => input

/-- What the code of the calling thread can tell about it, and whether it
holds `g_init_lock`. -/
structure Context where
  slot : Option ThreadSlot
  inCapture : Bool
  initLocked : Bool
  deriving DecidableEq, Repr

structure Running where
  disabled : Bool
  tracker : Tracker

/-- The tool once `raw_malloc` is not NULL. -/
structure Resolved where
  blacklistFastEnabled : Bool
  ranges : List (Word × Word)
  running : Option Running

def Resolved.fresh : Resolved :=
  { blacklistFastEnabled := false
    ranges := []
    running := none }

/-- The tool, and the variable `MTT_LIB_BLACKLIST_FAST`. -/
structure ToolState where
  libBlacklistFast : Option (List Char)
  resolved : Option Resolved

/-- A nested call that has returned. -/
structure Returned where
  context : Context
  call : Call
  input : CallInput
  before : ToolState
  after : ToolState

structure Machine where
  tool : ToolState
  log : List Returned

/-- An error is a thread that waits for `g_init_lock` while it holds it. -/
abbrev Outcome := Except Machine Machine

/-- How the nested calls of a call run. -/
structure Nested where
  resolving : Context → Machine → Outcome
  locking : Context → Machine → Outcome
  starting : Context → Machine → Outcome
  capturing : Context → Machine → Outcome

/-! ## The tool -/

namespace ToolState

def running (tool : ToolState) : Option Running :=
  tool.resolved.bind Resolved.running

def tracker (tool : ToolState) : Option Tracker :=
  tool.running.map Running.tracker

/-- Set the raw allocators, to the bootstrap arena at first. -/
def resolve (tool : ToolState) : ToolState :=
  { tool with resolved := some (tool.resolved.getD .fresh) }

def mapResolved (tool : ToolState) (change : Resolved → Resolved) :
    ToolState :=
  { tool with resolved := tool.resolved.map change }

def setRunning (tool : ToolState) (running : Running) : ToolState :=
  tool.mapResolved fun resolved => { resolved with running }

def mapTracker (tool : ToolState) (change : Tracker → Tracker) : ToolState :=
  tool.mapResolved fun resolved =>
    { resolved with
      running := resolved.running.map fun running =>
        { running with tracker := change running.tracker } }

end ToolState

/-- Record ranges until the array is full. -/
def ToolState.addRanges (tool : ToolState) (found : List (Word × Word)) :
    ToolState :=
  tool.mapResolved fun resolved =>
    { resolved with
      ranges := (resolved.ranges ++ found).take mttBlacklistRangesMax }

def Machine.mapTool (machine : Machine) (change : ToolState → ToolState) :
    Machine :=
  { machine with tool := change machine.tool }

def mttIsLrInBlacklist (tool : ToolState) (lr : Word) : Bool :=
  match tool.resolved with
  | none => false
  | some resolved =>
      resolved.blacklistFastEnabled && lr != 0 &&
        resolved.ranges.any fun (first, last) =>
          decide (first ≤ lr) && decide (lr < last)

/-- A tool that does not run has no pool, whatever its parent process had. -/
def mttPoolContains (tool : ToolState) (ptr : Word) : Bool :=
  match tool.tracker.bind Tracker.pool with
  | none => false
  | some pool =>
      ptr != 0 && decide (pool.base.toNat ≤ ptr.toNat) &&
        decide (ptr.toNat < pool.base.toNat + pool.capacity * mttEntrySize)

/-- The tokens of `MTT_LIB_BLACKLIST_FAST`: its first 511 bytes split at the
commas, without blanks in front, at most 16. -/
def blacklistTokens (value : Option (List Char)) : List (List Char) :=
  let tokens := ((value.getD []).take 511).splitOn ','
  ((tokens.map fun token =>
    token.dropWhile fun letter => letter == ' ' || letter == '\t').filter
      fun token => !token.isEmpty).take 16

def InitInput.tracker (init : InitInput) : Tracker :=
  { chains := fun _ => []
    entryCount := 0
    hashSeed := init.hashSeed
    pool := init.pool.map fun (base, capacity) =>
      { base, capacity, freeLists := fillFreeLists capacity, used := 0 }
    sampler :=
      { sampleRate := init.sampleRate
        samplePeriod := init.samplePeriod
        sampleCounter := 0
        sampleBytesAccum := 0
        skippedSampled := 0 }
    allocSeq := 0
    allocCount := 0
    freeCount := 0
    currentBytes := 0
    peakBytes := 0
    totalBytes := 0
    skippedOvercap := 0
    peakUpdated := false
    tempAllocCount := 0
    freeExpiredCount := 0
    leakThresholdSec := init.leakThresholdSec }

def InitInput.running (init : InitInput) : Running :=
  { disabled :=
      !init.obtainsTable || init.wantDisabled || init.blacklistSelfMatch
    tracker := init.tracker }

/-! ## The contexts of nested calls -/

namespace Context

/-- The slot after `mtt_hook_enter` and `mtt_hook_inc_depth`. -/
def incDepth (slot : ThreadSlot) : ThreadSlot :=
  let depth := (mttHookEnter (some slot)).toNat
  { slot with
    depthInited := true
    hookDepth := if mttHookDepthMax ≤ depth then depth else depth + 1 }

/-- Up to `mtt_hook_dec_depth`. -/
def raised (context : Context) : Context :=
  { context with slot := context.slot.map incDepth }

def locked (context : Context) : Context :=
  { context with initLocked := true }

/-- While the background threads are started. -/
def starting (context : Context) : Context :=
  { context with
    slot := context.slot.map fun slot => { slot with toolInternal := true } }

def capturing (context : Context) : Context :=
  { context with inCapture := true }

end Context

/-! ## The tool's functions -/

section Functions

variable (nested : Nested)

def mttResolveRawAllocators (context : Context) (machine : Machine) :
    Outcome :=
  if machine.tool.resolved.isSome || context.slot.isNone then .ok machine
  else nested.resolving context (machine.mapTool .resolve)

def mttParseBlacklistFast (init : InitInput) (context : Context)
    (machine : Machine) : Outcome :=
  if blacklistTokens machine.tool.libBlacklistFast = [] then .ok machine
  else do
    let parsed ← nested.locking context machine
    if init.mapsOpen then
      .ok (parsed.mapTool fun tool =>
        (tool.addRanges init.foundLast).mapResolved fun resolved =>
          { resolved with
            blacklistFastEnabled :=
              resolved.blacklistFastEnabled || !resolved.ranges.isEmpty })
    else .ok parsed

def mttEnsureInit (init : InitInput) (context : Context) (machine : Machine) :
    Outcome :=
  match machine.tool.running with
  | some _ => .ok machine
  | none =>
      if context.initLocked then .error machine
      else if init.obtainsTable then do
        let parsed ← mttParseBlacklistFast nested init context.locked machine
        let ready := parsed.mapTool fun tool => tool.setRunning init.running
        if init.running.disabled then .ok ready
        else nested.starting context.starting ready
      else .ok (machine.mapTool fun tool => tool.setRunning init.running)

def mttCaptureStack (context : Context) (machine : Machine) : Outcome :=
  if context.slot.isNone || context.inCapture then .ok machine
  else nested.capturing context.capturing machine

/-- `mtt_entry_new`, and the locked section that adds the entry. -/
def newEntry (context : Context) (api : Bool) (input : CallInput)
    (ptr size : Word) (machine : Machine) : Outcome :=
  let snap : MttAllocSnap 64 :=
    { ptr, size, timestamp := input.now, stack := input.stack }
  match machine.tool.tracker.bind
      fun tracker => Accounting.mttEntryNew tracker input.rawMalloc snap with
  | none => .ok machine
  | some (entry, taken) => do
      let captured ← mttCaptureStack nested context
        (machine.mapTool fun tool => tool.mapTracker fun _ => taken)
      .ok (captured.mapTool fun tool =>
        tool.mapTracker fun tracker => recordEntry tracker api entry)

/-- The checks of `mtt_malloc`, which stop at the first one that fails. -/
def checkApiRequest (tracker : Tracker) (size : Word) : Bool × Tracker :=
  let (trackOk, sampler) := mttShouldTrack tracker.sampler size.toNat
  if trackOk then
    let (overCap, checked) :=
      Accounting.mttIsOverCapacity { tracker with sampler }
    (!overCap, checked)
  else (false, { tracker with sampler })

def checkTracked (api : Bool) (tracker : Tracker) (size : Word) :
    Bool × Tracker :=
  if api then checkApiRequest tracker size else checkRequest tracker size

/-- An allocating function after its initialisation. -/
def trackMalloc (context : Context) (api : Bool) (input : CallInput)
    (size : Word) (machine : Machine) : Outcome :=
  match machine.tool.running, input.reply with
  | some running, some ptr =>
      if input.startup || running.disabled then .ok machine
      else
        let (passes, checked) := checkTracked api running.tracker size
        let machine :=
          machine.mapTool fun tool => tool.mapTracker fun _ => checked
        if passes then newEntry nested context api input ptr size machine
        else .ok machine
  | _, _ => .ok machine

/-- `countFree` in the `realloc` hook, where an entry of no bytes resets the
counter too. -/
def countMoved (tracker : Tracker) (entry : TrackedEntry) : Tracker :=
  { countFree tracker entry with
    currentBytes :=
      if entry.snap.size ≤ tracker.currentBytes ∧ 0 < entry.snap.size then
        tracker.currentBytes - entry.snap.size
      else 0 }

/-- The tracked path with `raw_realloc`. -/
def trackRealloc (context : Context) (api : Bool) (input : CallInput)
    (ptr size : Word) (machine : Machine) : Outcome :=
  match input.reply, machine.tool.tracker with
  | some new, some tracker =>
      match Accounting.mttEntryFind tracker ptr with
      | none => .ok machine
      | some entry =>
          let counted :=
            if api then countFree tracker entry else countMoved tracker entry
          let (overCap, checked) := Accounting.mttIsOverCapacity
            (Accounting.mttEntryRemove counted ptr)
          let machine :=
            machine.mapTool fun tool => tool.mapTracker fun _ => checked
          if overCap then .ok machine
          else newEntry nested context api input new size machine
  | _, _ => .ok machine

def forgetEntry (ptr : Word) (tracker : Tracker) : Tracker :=
  match Accounting.mttEntryFind tracker ptr with
  | none => tracker
  | some entry => Accounting.mttEntryRemove (countFree tracker entry) ptr

/-- The tracked path without `raw_realloc`. -/
def trackReallocFallback (context : Context) (api : Bool) (input : CallInput)
    (ptr size : Word) (machine : Machine) : Outcome :=
  match input.reply with
  | none => .ok machine
  | some new =>
      let snap : MttAllocSnap 64 :=
        { ptr := new, size, timestamp := input.now, stack := input.stack }
      match machine.tool.tracker.bind
          fun tracker => Accounting.mttEntryNew tracker input.rawMalloc snap with
      | none => .ok machine
      | some (entry, taken) => do
          let captured ← mttCaptureStack nested context
            (machine.mapTool fun tool => tool.mapTracker fun _ => taken)
          .ok (captured.mapTool fun tool => tool.mapTracker fun tracker =>
            recordEntry (forgetEntry ptr tracker) api entry)

/-- A reallocating function after its initialisation. -/
def reallocTracked (context : Context) (api : Bool) (input : CallInput)
    (ptr size : Word) (machine : Machine) : Outcome :=
  if machine.tool.running.any Running.disabled then .ok machine
  else if input.rawRealloc then
    trackRealloc nested context api input ptr size machine
  else trackReallocFallback nested context api input ptr size machine

/-- A freeing function after its initialisation. -/
def freeUnlessDisabled (machine : Machine) (free : Tracker → Tracker) :
    Outcome :=
  if machine.tool.running.any Running.disabled then .ok machine
  else .ok (machine.mapTool fun tool => tool.mapTracker free)

/-! ## The hooks -/

/-- How the hooks come to their tracked path: a thread without a slot or
already inside a hook, a caller in a blacklisted library and a thread of the
tool go to the raw allocators, and so does a request of no bytes. -/
def throughHook (context : Context) (lr : Word) (noBytes : Bool)
    (machine : Machine) (tracked : Machine → Outcome) : Outcome :=
  match context.slot with
  | none => mttResolveRawAllocators nested context machine
  | some slot =>
      if 0 < mttHookEnter (some slot) then
        mttResolveRawAllocators nested context machine
      else do
        let resolved ←
          mttResolveRawAllocators nested context.raised machine
        if mttIsLrInBlacklist resolved.tool lr || slot.toolInternal ||
            resolved.tool.resolved.isNone || noBytes then
          .ok resolved
        else tracked resolved

def mallocHook (context : Context) (lr : Word) (input : CallInput)
    (size : Word) (machine : Machine) : Outcome :=
  throughHook nested context lr (size == 0) machine fun resolved => do
    let ready ← mttEnsureInit nested input.init context.raised resolved
    trackMalloc nested context.raised false input size ready

def freeHook (context : Context) (lr : Word) (input : CallInput)
    (ptr : Word) (machine : Machine) : Outcome :=
  if ptr = 0 then .ok machine
  else if mttPoolContains machine.tool ptr then .ok machine
  else
    throughHook nested context lr false machine fun resolved => do
      let ready ← mttEnsureInit nested input.init context.raised resolved
      freeUnlessDisabled ready fun tracker => freeTracked tracker ptr input.now

/-- The `calloc` hook does not raise the depth itself. -/
def callocHook (context : Context) (input : CallInput) (count size : Word)
    (machine : Machine) : Outcome :=
  match context.slot with
  | none => mttResolveRawAllocators nested context machine
  | some slot =>
      if 0 < mttHookEnter (some slot) then
        mttResolveRawAllocators nested context machine
      else if slot.toolInternal then
        mttResolveRawAllocators nested context machine
      else
        match arraySize count.toNat size.toNat with
        | none => .ok machine
        | some total =>
            if mttIsLrInBlacklist machine.tool input.lr then
              mttResolveRawAllocators nested context machine
            else
              mallocHook nested context input.innerLr input
                (BitVec.ofNat 64 total) machine

def reallocHook (context : Context) (input : CallInput) (ptr size : Word)
    (machine : Machine) : Outcome :=
  if ptr = 0 then mallocHook nested context input.innerLr input size machine
  else if size = 0 then
    freeHook nested context input.innerLr input ptr machine
  else
    throughHook nested context input.lr false machine fun resolved => do
      let ready ← mttEnsureInit nested input.init context.raised resolved
      reallocTracked nested context.raised false input ptr size ready

def hookCall (context : Context) (call : Call) (input : CallInput)
    (machine : Machine) : Outcome :=
  match call with
  | .malloc size => mallocHook nested context input.lr input size machine
  | .calloc count size => callocHook nested context input count size machine
  | .realloc ptr size => reallocHook nested context input ptr size machine
  | .free ptr => freeHook nested context input.lr input ptr machine

/-! ## The macro API -/

def mttMalloc (context : Context) (input : CallInput) (size : Word)
    (machine : Machine) : Outcome := do
  let resolved ← mttResolveRawAllocators nested context machine
  if resolved.tool.resolved.isNone || size == 0 then .ok resolved
  else
    let ready ← mttEnsureInit nested input.init context resolved
    trackMalloc nested context true input size ready

def mttFree (context : Context) (input : CallInput) (ptr : Word)
    (machine : Machine) : Outcome :=
  if ptr = 0 then .ok machine
  else do
    let resolved ← mttResolveRawAllocators nested context machine
    if resolved.tool.resolved.isNone then .ok resolved
    else
      let ready ← mttEnsureInit nested input.init context resolved
      freeUnlessDisabled ready (forgetEntry ptr)

def mttCalloc (context : Context) (input : CallInput) (count size : Word)
    (machine : Machine) : Outcome :=
  match arraySize count.toNat size.toNat with
  | none => .ok machine
  | some total =>
      mttMalloc nested context input (BitVec.ofNat 64 total) machine

def mttRealloc (context : Context) (input : CallInput) (ptr size : Word)
    (machine : Machine) : Outcome :=
  if ptr = 0 then mttMalloc nested context input size machine
  else if size = 0 then mttFree nested context input ptr machine
  else do
    let resolved ← mttResolveRawAllocators nested context machine
    if resolved.tool.resolved.isNone then .ok resolved
    else
      let ready ← mttEnsureInit nested input.init context resolved
      reallocTracked nested context true input ptr size ready

def apiCall (context : Context) (call : Call) (input : CallInput)
    (machine : Machine) : Outcome :=
  match call with
  | .malloc size => mttMalloc nested context input size machine
  | .calloc count size => mttCalloc nested context input count size machine
  | .realloc ptr size => mttRealloc nested context input ptr size machine
  | .free ptr => mttFree nested context input ptr machine

end Functions

/-! ## Running the nested calls -/

def Machine.record (machine : Machine) (context : Context) (call : HookCall)
    (before : ToolState) : Machine :=
  { machine with
    log := machine.log ++
      [{ context
         call := call.call
         input := call.input
         before
         after := machine.tool }] }

mutual

def HookCall.run : HookCall → Context → Machine → Outcome
  | .mk call input resolving locking starting capturing, context, machine =>
      hookCall
        { resolving := HookCall.runAll false resolving
          locking := HookCall.runAll true locking
          starting := HookCall.runAll false starting
          capturing := HookCall.runAll false capturing }
        context call input machine

/-- One nested call after the other; those under `g_init_lock` come between
the lines of `/proc/self/maps`. -/
def HookCall.runAll (parsing : Bool) :
    List HookCall → Context → Machine → Outcome
  | [], _, machine => .ok machine
  | call :: rest, context, machine => do
      let entered :=
        if parsing then
          machine.mapTool fun tool => tool.addRanges call.input.found
        else machine
      let left ← HookCall.run call context entered
      HookCall.runAll parsing rest context
        (left.record context call entered.tool)

end

/-! ## Calls that go to the raw allocators -/

@[simp] theorem ok_bind (machine : Machine) (next : Machine → Outcome) :
    ((.ok machine : Outcome) >>= next) = next machine := rfl

@[simp] theorem error_bind (machine : Machine) (next : Machine → Outcome) :
    ((.error machine : Outcome) >>= next) = .error machine := rfl

/-- The call returns, and leaves the tool in a good state. -/
def ReturnsWith (outcome : Outcome) (good : ToolState → Prop) : Prop :=
  ∃ later, outcome = .ok later ∧ good later.tool

theorem ReturnsWith.bind {outcome : Outcome} {next : Machine → Outcome}
    {good better : ToolState → Prop} (first : ReturnsWith outcome good)
    (second : ∀ machine, good machine.tool →
      ReturnsWith (next machine) better) :
    ReturnsWith (outcome >>= next) better := by
  obtain ⟨machine, rfl, isGood⟩ := first
  rw [ok_bind]
  exact second machine isGood

theorem ReturnsWith.mono {outcome : Outcome} {good better : ToolState → Prop}
    (returns : ReturnsWith outcome good)
    (implied : ∀ tool, good tool → better tool) :
    ReturnsWith outcome better := by
  obtain ⟨machine, isOk, isGood⟩ := returns
  exact ⟨machine, isOk, implied _ isGood⟩

/-- Every hook called in this context goes to the raw allocators. -/
def Context.Sheltered (context : Context) : Prop :=
  ∀ slot, context.slot = some slot →
    0 < mttHookEnter (some slot) ∨ slot.toolInternal = true

/-- Nothing happens but that the raw allocators are resolved. -/
def Quiet (before after : ToolState) : Prop :=
  after = before ∨ after = before.resolve

theorem ToolState.resolve_resolve (tool : ToolState) :
    tool.resolve.resolve = tool.resolve := rfl

theorem ToolState.resolve_of_isSome {tool : ToolState}
    (resolved : tool.resolved.isSome) : tool.resolve = tool := by
  cases tool with
  | mk libs state =>
      cases state with
      | none => cases resolved
      | some state => rfl

theorem Quiet.refl (tool : ToolState) : Quiet tool tool := .inl rfl

theorem Quiet.trans {before middle after : ToolState}
    (first : Quiet before middle) (second : Quiet middle after) :
    Quiet before after := by
  rcases first with rfl | rfl
  · exact second
  · rcases second with rfl | rfl
    · exact .inr rfl
    · exact .inr (ToolState.resolve_resolve before)

theorem Context.incDepth_pos (slot : ThreadSlot) :
    0 < mttHookEnter (some (incDepth slot)) := by
  have bound : (mttHookEnter (some slot)).toNat ≤ mttHookDepthMax := by
    simp only [mttHookEnter, mttHookDepthMax]
    split_ifs <;> omega
  have within : (incDepth slot).hookDepth ≤ mttHookDepthMax ∧
      0 < (incDepth slot).hookDepth := by
    by_cases top : mttHookDepthMax ≤ (mttHookEnter (some slot)).toNat
    · simp only [incDepth, if_pos top]
      exact ⟨bound, Nat.lt_of_lt_of_le (by decide) top⟩
    · simp only [incDepth, if_neg top]
      omega
  have inited : (incDepth slot).depthInited = true := rfl
  simp only [mttHookEnter, inited, if_true,
    if_neg (Nat.not_lt.mpr within.1)]
  exact_mod_cast within.2

theorem Context.raised_sheltered (context : Context) :
    context.raised.Sheltered := by
  intro slot isSlot
  simp only [Context.raised, Option.map_eq_some_iff] at isSlot
  obtain ⟨before, _, rfl⟩ := isSlot
  exact .inl (Context.incDepth_pos before)

theorem Context.Sheltered.locked {context : Context}
    (sheltered : context.Sheltered) : context.locked.Sheltered :=
  sheltered

theorem Context.Sheltered.capturing {context : Context}
    (sheltered : context.Sheltered) : context.capturing.Sheltered :=
  sheltered

theorem Context.starting_sheltered (context : Context) :
    context.starting.Sheltered := by
  intro slot isSlot
  simp only [Context.starting, Option.map_eq_some_iff] at isSlot
  obtain ⟨before, _, rfl⟩ := isSlot
  exact .inr rfl

/-- The nested calls of a resolution in a sheltered context are quiet. -/
def QuietResolving (nested : Nested) : Prop :=
  ∀ context machine, context.Sheltered →
    ReturnsWith (nested.resolving context machine) (Quiet machine.tool)

theorem mttResolveRawAllocators_quiet {nested : Nested}
    (resolving : QuietResolving nested) {context : Context}
    (sheltered : context.Sheltered) (machine : Machine) :
    ReturnsWith (mttResolveRawAllocators nested context machine)
      (Quiet machine.tool) := by
  unfold mttResolveRawAllocators
  split
  · exact ⟨machine, rfl, .refl _⟩
  · apply (resolving context _ sheltered).mono
    intro tool quiet
    exact Quiet.trans (.inr rfl) quiet

/-- In a thread with a slot a resolution leaves the pointers set. -/
theorem mttResolveRawAllocators_resolves {nested : Nested}
    (resolving : QuietResolving nested) {context : Context}
    (sheltered : context.Sheltered) (hasSlot : context.slot ≠ none)
    (machine : Machine) :
    ReturnsWith (mttResolveRawAllocators nested context machine)
      fun tool => tool = machine.tool.resolve := by
  have notNone : context.slot.isNone = false := by
    rw [Option.isNone_eq_false_iff]
    exact Option.isSome_iff_ne_none.mpr hasSlot
  unfold mttResolveRawAllocators
  rw [notNone, Bool.or_false]
  split
  · rename_i resolved
    exact ⟨machine, rfl, (ToolState.resolve_of_isSome resolved).symm⟩
  · apply (resolving context _ sheltered).mono
    rintro tool (rfl | rfl) <;> rfl

theorem throughHook_quiet {nested : Nested}
    (resolving : QuietResolving nested) {context : Context}
    (sheltered : context.Sheltered) (lr : Word) (noBytes : Bool)
    (machine : Machine) (tracked : Machine → Outcome) :
    ReturnsWith (throughHook nested context lr noBytes machine tracked)
      (Quiet machine.tool) := by
  unfold throughHook
  split
  · exact mttResolveRawAllocators_quiet resolving sheltered machine
  · rename_i slot isSlot
    split
    · exact mttResolveRawAllocators_quiet resolving sheltered machine
    · rename_i notInside
      have internal := (sheltered slot isSlot).resolve_left notInside
      apply (mttResolveRawAllocators_quiet resolving context.raised_sheltered
        machine).bind
      intro resolved quiet
      rw [internal, Bool.or_true, Bool.true_or, Bool.true_or, if_pos rfl]
      exact ⟨resolved, rfl, quiet⟩

theorem freeHook_quiet {nested : Nested}
    (resolving : QuietResolving nested) {context : Context}
    (sheltered : context.Sheltered) (lr : Word) (input : CallInput)
    (ptr : Word) (machine : Machine) :
    ReturnsWith (freeHook nested context lr input ptr machine)
      (Quiet machine.tool) := by
  unfold freeHook
  split
  · exact ⟨machine, rfl, .refl _⟩
  · split
    · exact ⟨machine, rfl, .refl _⟩
    · exact throughHook_quiet resolving sheltered _ _ _ _

theorem callocHook_quiet {nested : Nested}
    (resolving : QuietResolving nested) {context : Context}
    (sheltered : context.Sheltered) (input : CallInput) (count size : Word)
    (machine : Machine) :
    ReturnsWith (callocHook nested context input count size machine)
      (Quiet machine.tool) := by
  have toRaw := mttResolveRawAllocators_quiet resolving sheltered machine
  unfold callocHook
  split
  · exact toRaw
  · rename_i slot isSlot
    split
    · exact toRaw
    · rename_i notInside
      have internal := (sheltered slot isSlot).resolve_left notInside
      rw [if_pos internal]
      exact toRaw

/-- In a sheltered context every hook goes to the raw allocators. -/
theorem hookCall_quiet {nested : Nested} (resolving : QuietResolving nested)
    {context : Context} (sheltered : context.Sheltered) (call : Call)
    (input : CallInput) (machine : Machine) :
    ReturnsWith (hookCall nested context call input machine)
      (Quiet machine.tool) := by
  cases call with
  | malloc size => exact throughHook_quiet resolving sheltered _ _ _ _
  | calloc count size => exact callocHook_quiet resolving sheltered _ _ _ _
  | realloc ptr size =>
      simp only [hookCall, reallocHook]
      split
      · exact throughHook_quiet resolving sheltered _ _ _ _
      · split
        · exact freeHook_quiet resolving sheltered _ _ _ _
        · exact throughHook_quiet resolving sheltered _ _ _ _
  | free ptr => exact freeHook_quiet resolving sheltered _ _ _ _

mutual

theorem HookCall.run_quiet (call : HookCall) {context : Context}
    (sheltered : context.Sheltered) (machine : Machine) :
    ReturnsWith (call.run context machine) (Quiet machine.tool) := by
  cases call with
  | mk call input resolving locking starting capturing =>
      rw [HookCall.run]
      apply hookCall_quiet _ sheltered
      intro inner machine innerSheltered
      exact HookCall.runAll_quiet resolving innerSheltered machine

theorem HookCall.runAll_quiet (calls : List HookCall) {context : Context}
    (sheltered : context.Sheltered) (machine : Machine) :
    ReturnsWith (HookCall.runAll false calls context machine)
      (Quiet machine.tool) := by
  cases calls with
  | nil =>
      rw [HookCall.runAll]
      exact ⟨machine, rfl, .refl _⟩
  | cons call rest =>
      rw [HookCall.runAll]
      apply (HookCall.run_quiet call sheltered machine).bind
      intro left quiet
      apply (HookCall.runAll_quiet rest sheltered _).mono
      intro tool later
      exact quiet.trans later

end

/-- The initialisation state is left alone. -/
structure Calm (before after : ToolState) : Prop where
  running : after.running = before.running
  resolved : before.resolved.isSome → after.resolved.isSome

theorem Quiet.calm {before after : ToolState} (quiet : Quiet before after) :
    Calm before after := by
  rcases quiet with rfl | rfl
  · exact ⟨rfl, id⟩
  · constructor
    · cases before with
      | mk libs state => cases state <;> rfl
    · exact fun _ => rfl

theorem Calm.trans {before middle after : ToolState}
    (first : Calm before middle) (second : Calm middle after) :
    Calm before after :=
  ⟨second.running.trans first.running,
    fun resolved => second.resolved (first.resolved resolved)⟩

theorem ToolState.addRanges_calm (tool : ToolState)
    (found : List (Word × Word)) : Calm tool (tool.addRanges found) := by
  cases tool with
  | mk libs state => cases state <;> exact ⟨rfl, id⟩

theorem HookCall.runAll_calm (calls : List HookCall) {context : Context}
    (sheltered : context.Sheltered) (machine : Machine) :
    ReturnsWith (HookCall.runAll true calls context machine)
      (Calm machine.tool) := by
  induction calls generalizing machine with
  | nil =>
      rw [HookCall.runAll]
      exact ⟨machine, rfl, rfl, id⟩
  | cons call rest induction =>
      rw [HookCall.runAll]
      have entered := machine.tool.addRanges_calm call.input.found
      apply (HookCall.run_quiet call sheltered _).bind
      intro left quiet
      apply (induction _).mono
      intro tool later
      exact (entered.trans quiet.calm).trans later

/-- How lists of nested calls run. -/
def nestedRuns (resolving locking starting capturing : List HookCall) :
    Nested :=
  { resolving := HookCall.runAll false resolving
    locking := HookCall.runAll true locking
    starting := HookCall.runAll false starting
    capturing := HookCall.runAll false capturing }

theorem HookCall.run_mk (call : Call) (input : CallInput)
    (resolving locking starting capturing : List HookCall)
    (context : Context) (machine : Machine) :
    HookCall.run (.mk call input resolving locking starting capturing) context
        machine =
      hookCall (nestedRuns resolving locking starting capturing) context call
        input machine := by
  rw [HookCall.run]
  rfl

/-- Nested calls in a sheltered context do not change the initialisation
state, and those of a resolution are quiet. -/
structure NestedCalm (nested : Nested) : Prop where
  resolving : QuietResolving nested
  locking : ∀ context machine, context.Sheltered →
    ReturnsWith (nested.locking context machine) (Calm machine.tool)
  starting : ∀ context machine, context.Sheltered →
    ReturnsWith (nested.starting context machine) (Calm machine.tool)
  capturing : ∀ context machine, context.Sheltered →
    ReturnsWith (nested.capturing context machine) (Calm machine.tool)

theorem nestedRuns_calm
    (resolving locking starting capturing : List HookCall) :
    NestedCalm (nestedRuns resolving locking starting capturing) := by
  constructor
  · intro context machine sheltered
    exact HookCall.runAll_quiet resolving sheltered machine
  · intro context machine sheltered
    exact HookCall.runAll_calm locking sheltered machine
  · intro context machine sheltered
    exact (HookCall.runAll_quiet starting sheltered machine).mono
      fun _ quiet => quiet.calm
  · intro context machine sheltered
    exact (HookCall.runAll_quiet capturing sheltered machine).mono
      fun _ quiet => quiet.calm

/-! ## The initialisation in a sheltered context -/

def ToolState.runningAfter (tool : ToolState) (init : InitInput) : Running :=
  tool.running.getD init.running

theorem ToolState.setRunning_running {tool : ToolState}
    (resolved : tool.resolved.isSome) (running : Running) :
    (tool.setRunning running).running = some running := by
  cases tool with
  | mk libs state =>
      cases state with
      | none => cases resolved
      | some state => rfl

theorem mttEnsureInit_blocks (nested : Nested) (init : InitInput)
    {context : Context} {machine : Machine}
    (pending : machine.tool.running = none)
    (locked : context.initLocked = true) :
    mttEnsureInit nested init context machine = .error machine := by
  unfold mttEnsureInit
  rw [pending]
  simp only [locked, if_true]

theorem mttEnsureInit_done (nested : Nested) (init : InitInput)
    (context : Context) {machine : Machine} {running : Running}
    (done : machine.tool.running = some running) :
    mttEnsureInit nested init context machine = .ok machine := by
  unfold mttEnsureInit
  rw [done]

theorem mttParseBlacklistFast_calm {nested : Nested}
    (calm : NestedCalm nested) (init : InitInput) {context : Context}
    (sheltered : context.Sheltered) (machine : Machine) :
    ReturnsWith (mttParseBlacklistFast nested init context machine)
      (Calm machine.tool) := by
  unfold mttParseBlacklistFast
  split
  · exact ⟨machine, rfl, rfl, id⟩
  · apply (calm.locking context machine sheltered).bind
    intro parsed later
    split
    · refine ⟨_, rfl, later.trans ?_⟩
      have added := parsed.tool.addRanges_calm init.foundLast
      apply added.trans
      simp only [Machine.mapTool]
      cases parsed.tool.addRanges init.foundLast with
      | mk libs state => cases state <;> exact ⟨rfl, id⟩
    · exact ⟨parsed, rfl, later⟩

theorem mttEnsureInit_runs {nested : Nested} (calm : NestedCalm nested)
    (init : InitInput) {context : Context} (sheltered : context.Sheltered)
    {machine : Machine} (resolved : machine.tool.resolved.isSome)
    (free : machine.tool.running = none → context.initLocked = false) :
    ReturnsWith (mttEnsureInit nested init context machine)
      fun tool => tool.running = some (machine.tool.runningAfter init) := by
  cases pending : machine.tool.running with
  | some running =>
      rw [mttEnsureInit_done nested init context pending]
      refine ⟨machine, rfl, ?_⟩
      rw [ToolState.runningAfter, pending, Option.getD_some]
      exact pending
  | none =>
      have after : machine.tool.runningAfter init = init.running := by
        rw [ToolState.runningAfter, pending, Option.getD_none]
      unfold mttEnsureInit
      simp only [pending, free pending, Bool.false_eq_true, if_false, after]
      split
      · apply (mttParseBlacklistFast_calm calm init sheltered.locked
          machine).bind
        intro parsed later
        have isRunning := ToolState.setRunning_running
          (later.resolved resolved) init.running
        split
        · exact ⟨_, rfl, isRunning⟩
        · apply (calm.starting _ _ context.starting_sheltered).mono
          intro tool started
          exact started.running.trans isRunning
      · exact ⟨_, rfl, ToolState.setRunning_running resolved init.running⟩

end MemoryTraceTool.Nesting
