import MemoryTraceTool.NestedAccounts

/-!
# Requests and their nested calls

The log of a request holds its nested calls, those of the nested calls
included.  Under a hook all of them are made in a sheltered context; under a
function of the macro API they are made in the context of the application.
-/

namespace MemoryTraceTool.Nesting

open Accounting
open MemoryTraceTool.Sequential (ThreadSlot mttHookEnter)
open ForkChild (TrackedEntry)

/-! ## How an outcome ends -/

/-- What holds of the machine that is left, or of the one in which the thread
waits. -/
def Ends (good stuck : Machine → Prop) : Outcome → Prop
  | .ok machine => good machine
  | .error machine => stuck machine

theorem Ends.bind {good stuck : Machine → Prop} {outcome : Outcome}
    {next : Machine → Outcome} (first : Ends good stuck outcome)
    (second : ∀ machine, outcome = .ok machine → good machine →
      Ends good stuck (next machine)) :
    Ends good stuck (outcome >>= next) := by
  cases outcome with
  | ok machine =>
      rw [ok_bind]
      exact second machine rfl first
  | error machine =>
      rw [error_bind]
      exact first

/-- A property of the rest of the machine. -/
def IgnoresTool (good : Machine → Prop) : Prop :=
  ∀ machine change, good machine → good (machine.mapTool change)

section Tracked

variable {good stuck : Machine → Prop} {nested : Nested}
variable {context : Context} {machine : Machine}

/-- The nested calls of a capture keep the property. -/
def CapturesWell (good stuck : Machine → Prop) (nested : Nested)
    (context : Context) : Prop :=
  ∀ machine, good machine →
    Ends good stuck (nested.capturing context.capturing machine)

theorem mttCaptureStack_ends (captures : CapturesWell good stuck nested context)
    (isGood : good machine) :
    Ends good stuck (mttCaptureStack nested context machine) := by
  unfold mttCaptureStack
  split
  · exact isGood
  · exact captures machine isGood

theorem newEntry_ends (ignores : IgnoresTool good)
    (captures : CapturesWell good stuck nested context) (api : Bool)
    (input : CallInput) (ptr size : Word) (isGood : good machine) :
    Ends good stuck (newEntry nested context api input ptr size machine) := by
  unfold newEntry
  simp only
  split
  · exact isGood
  · apply Ends.bind
    · exact mttCaptureStack_ends captures (ignores machine _ isGood)
    · intro captured _ capturedGood
      exact ignores captured _ capturedGood

theorem trackMalloc_ends (ignores : IgnoresTool good)
    (captures : CapturesWell good stuck nested context) (api : Bool)
    (input : CallInput) (size : Word) (isGood : good machine) :
    Ends good stuck (trackMalloc nested context api input size machine) := by
  unfold trackMalloc
  split
  · split
    · exact isGood
    · simp only
      split
      · apply newEntry_ends ignores captures
        exact ignores machine _ isGood
      · exact ignores machine _ isGood
  · exact isGood

theorem reallocTracked_ends (ignores : IgnoresTool good)
    (captures : CapturesWell good stuck nested context) (api : Bool)
    (input : CallInput) (ptr size : Word) (isGood : good machine) :
    Ends good stuck
      (reallocTracked nested context api input ptr size machine) := by
  unfold reallocTracked
  split
  · exact isGood
  · split
    · unfold trackRealloc
      split
      · split
        · exact isGood
        · rename_i entry _
          simp only
          generalize (if api then countFree _ entry
            else countMoved _ entry) = counted
          split
          · exact ignores machine _ isGood
          · apply newEntry_ends ignores captures
            exact ignores machine _ isGood
      · exact isGood
    · unfold trackReallocFallback
      split
      · exact isGood
      · simp only
        split
        · exact isGood
        · apply Ends.bind
          · exact mttCaptureStack_ends captures (ignores machine _ isGood)
          · intro captured _ capturedGood
            exact ignores captured _ capturedGood

theorem freeUnlessDisabled_ends (ignores : IgnoresTool good)
    (free : Tracker → Tracker) (isGood : good machine) :
    Ends good stuck (freeUnlessDisabled machine free) := by
  unfold freeUnlessDisabled
  split
  · exact isGood
  · exact ignores machine _ isGood

end Tracked

/-! ## What is logged -/

/-- Every call in the log is good. -/
def Logs (good : Returned → Prop) (machine : Machine) : Prop :=
  ∀ entry ∈ machine.log, good entry

abbrev LeavesLog (good : Returned → Prop) (outcome : Outcome) : Prop :=
  Ends (Logs good) (Logs good) outcome

theorem Logs.ignoresTool (good : Returned → Prop) :
    IgnoresTool (Logs good) := fun _ _ logs => logs

theorem Logs.record {good : Returned → Prop} {machine : Machine}
    (logs : Logs good machine) {context : Context} {call : HookCall}
    {before : ToolState}
    (isGood : good
      { context
        call := call.call
        input := call.input
        before
        after := machine.tool }) :
    Logs good (machine.record context call before) := by
  intro entry isLogged
  simp only [Machine.record, List.mem_append, List.mem_singleton] at isLogged
  cases isLogged with
  | inl earlier => exact logs entry earlier
  | inr last =>
      rw [last]
      exact isGood

/-- Nested calls in an allowed context log good calls only. -/
structure NestedLogs (allowed : Context → Prop) (good : Returned → Prop)
    (nested : Nested) : Prop where
  resolving : ∀ context machine, allowed context → Logs good machine →
    LeavesLog good (nested.resolving context machine)
  locking : ∀ context machine, allowed context → Logs good machine →
    LeavesLog good (nested.locking context machine)
  starting : ∀ context machine, allowed context → Logs good machine →
    LeavesLog good (nested.starting context machine)
  capturing : ∀ context machine, allowed context → Logs good machine →
    LeavesLog good (nested.capturing context machine)

/-- The contexts of nested calls are allowed again. -/
structure AllowsNested (allowed : Context → Prop) : Prop where
  locked : ∀ context, allowed context → allowed context.locked
  starting : ∀ context, allowed context → allowed context.starting
  capturing : ∀ context, allowed context → allowed context.capturing

theorem sheltered_allowsNested : AllowsNested Context.Sheltered := by
  constructor
  · exact fun _ sheltered => sheltered.locked
  · exact fun context _ => context.starting_sheltered
  · exact fun _ sheltered => sheltered.capturing

theorem all_allowsNested : AllowsNested fun _ => True :=
  ⟨fun _ _ => trivial, fun _ _ => trivial, fun _ _ => trivial⟩

section Functions

variable {nested : Nested} {allowed : Context → Prop}
variable {good : Returned → Prop} {context : Context} {machine : Machine}

theorem mttResolveRawAllocators_logs (keeps : NestedLogs allowed good nested)
    (isAllowed : allowed context) (logs : Logs good machine) :
    LeavesLog good (mttResolveRawAllocators nested context machine) := by
  unfold mttResolveRawAllocators
  split
  · exact logs
  · exact keeps.resolving _ _ isAllowed logs

theorem mttParseBlacklistFast_logs (keeps : NestedLogs allowed good nested)
    (init : InitInput) (isAllowed : allowed context)
    (logs : Logs good machine) :
    LeavesLog good (mttParseBlacklistFast nested init context machine) := by
  unfold mttParseBlacklistFast
  split
  · exact logs
  · apply (keeps.locking _ _ isAllowed logs).bind
    intro parsed _ parsedLogs
    split <;> exact parsedLogs

theorem mttEnsureInit_logs (keeps : NestedLogs allowed good nested)
    (allows : AllowsNested allowed) (init : InitInput)
    (isAllowed : allowed context) (logs : Logs good machine) :
    LeavesLog good (mttEnsureInit nested init context machine) := by
  unfold mttEnsureInit
  split
  · exact logs
  · split
    · exact logs
    · split
      · apply (mttParseBlacklistFast_logs keeps init
          (allows.locked _ isAllowed) logs).bind
        intro parsed _ parsedLogs
        split
        · exact parsedLogs
        · exact keeps.starting _ _ (allows.starting _ isAllowed) parsedLogs
      · exact logs

theorem NestedLogs.captures (keeps : NestedLogs allowed good nested)
    (allows : AllowsNested allowed) (isAllowed : allowed context) :
    CapturesWell (Logs good) (Logs good) nested context :=
  fun machine logs =>
    keeps.capturing _ machine (allows.capturing _ isAllowed) logs

/-! ## A hook -/

/-- A hook makes its nested calls in sheltered contexts only. -/
theorem throughHook_logs (keeps : NestedLogs Context.Sheltered good nested)
    (lr : Word) (noBytes : Bool) (logs : Logs good machine)
    {tracked : Machine → Outcome}
    (trackedLogs : ∀ resolved, Logs good resolved →
      LeavesLog good (tracked resolved)) :
    LeavesLog good (throughHook nested context lr noBytes machine tracked) := by
  unfold throughHook
  split
  · rename_i noSlot
    exact mttResolveRawAllocators_logs keeps
      (Context.sheltered_of_none noSlot) logs
  · rename_i slot isSlot
    split
    · rename_i inside
      exact mttResolveRawAllocators_logs keeps
        (Context.sheltered_of_inside isSlot inside) logs
    · apply (mttResolveRawAllocators_logs keeps context.raised_sheltered
        logs).bind
      intro resolved _ resolvedLogs
      split
      · exact resolvedLogs
      · exact trackedLogs resolved resolvedLogs

theorem trackedHook_logs (keeps : NestedLogs Context.Sheltered good nested)
    (lr : Word) (noBytes : Bool) (init : InitInput)
    (logs : Logs good machine) {next : Machine → Outcome}
    (nextLogs : ∀ ready, Logs good ready → LeavesLog good (next ready)) :
    LeavesLog good
      (throughHook nested context lr noBytes machine fun resolved =>
        mttEnsureInit nested init context.raised resolved >>= next) := by
  apply throughHook_logs keeps lr noBytes logs
  intro resolved resolvedLogs
  apply (mttEnsureInit_logs keeps sheltered_allowsNested init
    context.raised_sheltered resolvedLogs).bind
  exact fun ready _ => nextLogs ready

theorem mallocHook_logs (keeps : NestedLogs Context.Sheltered good nested)
    (lr : Word) (input : CallInput) (size : Word)
    (logs : Logs good machine) :
    LeavesLog good (mallocHook nested context lr input size machine) := by
  apply trackedHook_logs keeps lr _ input.init logs
  intro ready readyLogs
  apply trackMalloc_ends (Logs.ignoresTool good) _ false input size readyLogs
  exact keeps.captures sheltered_allowsNested context.raised_sheltered

theorem freeHook_logs (keeps : NestedLogs Context.Sheltered good nested)
    (lr : Word) (input : CallInput) (ptr : Word)
    (logs : Logs good machine) :
    LeavesLog good (freeHook nested context lr input ptr machine) := by
  unfold freeHook
  split
  · exact logs
  · split
    · exact logs
    · apply trackedHook_logs keeps lr _ input.init logs
      intro ready readyLogs
      exact freeUnlessDisabled_ends (Logs.ignoresTool good) _ readyLogs

theorem callocHook_logs (keeps : NestedLogs Context.Sheltered good nested)
    (input : CallInput) (count size : Word) (logs : Logs good machine) :
    LeavesLog good (callocHook nested context input count size machine) := by
  unfold callocHook
  split
  · rename_i noSlot
    exact mttResolveRawAllocators_logs keeps
      (Context.sheltered_of_none noSlot) logs
  · rename_i slot isSlot
    split
    · rename_i inside
      exact mttResolveRawAllocators_logs keeps
        (Context.sheltered_of_inside isSlot inside) logs
    · split
      · rename_i internal
        exact mttResolveRawAllocators_logs keeps
          (Context.sheltered_of_internal isSlot internal) logs
      · split
        · exact logs
        · split
          · rename_i listed
            rw [mttResolveRawAllocators_of_listed listed]
            exact logs
          · exact mallocHook_logs keeps _ input _ logs

theorem reallocHook_logs (keeps : NestedLogs Context.Sheltered good nested)
    (input : CallInput) (ptr size : Word) (logs : Logs good machine) :
    LeavesLog good (reallocHook nested context input ptr size machine) := by
  unfold reallocHook
  split
  · exact mallocHook_logs keeps _ input size logs
  · split
    · exact freeHook_logs keeps _ input ptr logs
    · apply trackedHook_logs keeps input.lr _ input.init logs
      intro ready readyLogs
      apply reallocTracked_ends (Logs.ignoresTool good) _ false input ptr size
        readyLogs
      exact keeps.captures sheltered_allowsNested context.raised_sheltered

theorem hookCall_logs (keeps : NestedLogs Context.Sheltered good nested)
    (call : Call) (input : CallInput) (logs : Logs good machine) :
    LeavesLog good (hookCall nested context call input machine) := by
  cases call with
  | malloc size => exact mallocHook_logs keeps input.lr input size logs
  | calloc count size => exact callocHook_logs keeps input count size logs
  | realloc ptr size => exact reallocHook_logs keeps input ptr size logs
  | free ptr => exact freeHook_logs keeps input.lr input ptr logs

/-! ## A function of the macro API -/

/-- How the functions of the macro API come to their tracked path. -/
def throughApi (nested : Nested) (context : Context) (init : InitInput)
    (noBytes : Bool) (machine : Machine) (next : Machine → Outcome) :
    Outcome := do
  let resolved ← mttResolveRawAllocators nested context machine
  if resolved.tool.resolved.isNone || noBytes then .ok resolved
  else
    let ready ← mttEnsureInit nested init context resolved
    next ready

theorem mttFree_eq {input : CallInput} {ptr : Word} (notNull : ptr ≠ 0) :
    mttFree nested context input ptr machine =
      throughApi nested context input.init false machine fun ready =>
        freeUnlessDisabled ready (forgetEntry ptr) := by
  simp only [mttFree, if_neg notNull, throughApi, Bool.or_false]

theorem mttRealloc_eq {input : CallInput} {ptr size : Word}
    (notNull : ptr ≠ 0) (hasBytes : size ≠ 0) :
    mttRealloc nested context input ptr size machine =
      throughApi nested context input.init false machine
        (reallocTracked nested context true input ptr size) := by
  simp only [mttRealloc, if_neg notNull, if_neg hasBytes, throughApi,
    Bool.or_false]

theorem throughApi_logs (keeps : NestedLogs allowed good nested)
    (allows : AllowsNested allowed) (isAllowed : allowed context)
    (init : InitInput) (noBytes : Bool) (logs : Logs good machine)
    {next : Machine → Outcome}
    (nextLogs : ∀ ready, Logs good ready → LeavesLog good (next ready)) :
    LeavesLog good (throughApi nested context init noBytes machine next) := by
  apply (mttResolveRawAllocators_logs keeps isAllowed logs).bind
  intro resolved _ resolvedLogs
  split
  · exact resolvedLogs
  · apply (mttEnsureInit_logs keeps allows init isAllowed resolvedLogs).bind
    exact fun ready _ => nextLogs ready

theorem mttMalloc_logs (keeps : NestedLogs allowed good nested)
    (allows : AllowsNested allowed) (isAllowed : allowed context)
    (input : CallInput) (size : Word) (logs : Logs good machine) :
    LeavesLog good (mttMalloc nested context input size machine) := by
  apply throughApi_logs keeps allows isAllowed input.init _ logs
  intro ready readyLogs
  exact trackMalloc_ends (Logs.ignoresTool good)
    (keeps.captures allows isAllowed) true input size readyLogs

theorem mttFree_logs (keeps : NestedLogs allowed good nested)
    (allows : AllowsNested allowed) (isAllowed : allowed context)
    (input : CallInput) (ptr : Word) (logs : Logs good machine) :
    LeavesLog good (mttFree nested context input ptr machine) := by
  by_cases null : ptr = 0
  · rw [mttFree, if_pos null]
    exact logs
  · rw [mttFree_eq null]
    apply throughApi_logs keeps allows isAllowed input.init _ logs
    intro ready readyLogs
    exact freeUnlessDisabled_ends (Logs.ignoresTool good) _ readyLogs

theorem mttRealloc_logs (keeps : NestedLogs allowed good nested)
    (allows : AllowsNested allowed) (isAllowed : allowed context)
    (input : CallInput) (ptr size : Word) (logs : Logs good machine) :
    LeavesLog good (mttRealloc nested context input ptr size machine) := by
  by_cases null : ptr = 0
  · rw [mttRealloc, if_pos null]
    exact mttMalloc_logs keeps allows isAllowed input size logs
  · by_cases noBytes : size = 0
    · rw [mttRealloc, if_neg null, if_pos noBytes]
      exact mttFree_logs keeps allows isAllowed input ptr logs
    · rw [mttRealloc_eq null noBytes]
      apply throughApi_logs keeps allows isAllowed input.init _ logs
      intro ready readyLogs
      exact reallocTracked_ends (Logs.ignoresTool good)
        (keeps.captures allows isAllowed) true input ptr size readyLogs

theorem apiCall_logs (keeps : NestedLogs allowed good nested)
    (allows : AllowsNested allowed) (isAllowed : allowed context)
    (call : Call) (input : CallInput) (logs : Logs good machine) :
    LeavesLog good (apiCall nested context call input machine) := by
  cases call with
  | malloc size =>
      exact mttMalloc_logs keeps allows isAllowed input size logs
  | calloc count size =>
      simp only [apiCall, mttCalloc]
      split
      · exact logs
      · exact mttMalloc_logs keeps allows isAllowed input _ logs
  | realloc ptr size =>
      exact mttRealloc_logs keeps allows isAllowed input ptr size logs
  | free ptr => exact mttFree_logs keeps allows isAllowed input ptr logs

end Functions

/-! ## Trees of nested calls -/

/-- In an allowed context every call that returns is a good one. -/
def ReturnsAsLogged (allowed : Context → Prop) (good : Returned → Prop) :
    Prop :=
  ∀ (call : HookCall) context machine later, allowed context →
    call.run context machine = .ok later →
    good
      { context
        call := call.call
        input := call.input
        before := machine.tool
        after := later.tool }

section Trees

variable {allowed : Context → Prop} {good : Returned → Prop}

mutual

theorem HookCall.run_logs (allows : ∀ context : Context,
      context.Sheltered → allowed context)
    (returns : ReturnsAsLogged allowed good)
    (call : HookCall) (context : Context) {machine : Machine}
    (logs : Logs good machine) :
    LeavesLog good (call.run context machine) := by
  cases call with
  | mk call input resolving locking starting capturing =>
      rw [HookCall.run]
      apply hookCall_logs _ call input logs
      constructor
      · intro inner machine sheltered logs
        exact HookCall.runAll_logs allows returns false resolving
          (allows inner sheltered) logs
      · intro inner machine sheltered logs
        exact HookCall.runAll_logs allows returns true locking
          (allows inner sheltered) logs
      · intro inner machine sheltered logs
        exact HookCall.runAll_logs allows returns false starting
          (allows inner sheltered) logs
      · intro inner machine sheltered logs
        exact HookCall.runAll_logs allows returns false capturing
          (allows inner sheltered) logs

theorem HookCall.runAll_logs (allows : ∀ context : Context,
      context.Sheltered → allowed context)
    (returns : ReturnsAsLogged allowed good)
    (parsing : Bool) (calls : List HookCall) {context : Context}
    (isAllowed : allowed context) {machine : Machine}
    (logs : Logs good machine) :
    LeavesLog good (HookCall.runAll parsing calls context machine) := by
  cases calls with
  | nil =>
      rw [HookCall.runAll]
      exact logs
  | cons call rest =>
      rw [HookCall.runAll]
      apply Ends.bind
      · apply HookCall.run_logs allows returns call context
        split <;> exact logs
      · intro left isLeft leftLogs
        apply HookCall.runAll_logs allows returns parsing rest isAllowed
        apply leftLogs.record
        exact returns call context _ left isAllowed isLeft

end

end Trees

/-- Whether it touches the accounts is decided before a nested call. -/
def Returned.Settled (entry : Returned) : Prop :=
  entry.after.accounts = entry.before.accounts ↔
    ¬ Touches entry.context entry.call entry.input entry.before

theorem HookCall.run_settles (call : HookCall) (context : Context)
    (machine : Machine) :
    Settles (call.run context machine) machine.tool
      (Touches context call.call call.input machine.tool) := by
  cases call with
  | mk call input resolving locking starting capturing =>
      rw [HookCall.run_mk]
      exact hookCall_settles
        (nestedRuns_calm resolving locking starting capturing) call input

theorem returns_settled :
    ReturnsAsLogged (fun _ => True) Returned.Settled := by
  intro call context machine later _ isLater
  exact call.run_settles context machine later isLater

theorem runAll_settled (parsing : Bool) (calls : List HookCall)
    (context : Context) {machine : Machine}
    (logs : Logs Returned.Settled machine) :
    LeavesLog Returned.Settled
      (HookCall.runAll parsing calls context machine) :=
  HookCall.runAll_logs (fun _ _ => trivial) returns_settled parsing calls
    trivial logs

theorem nestedRuns_settled
    (resolving locking starting capturing : List HookCall) :
    NestedLogs (fun _ => True) Returned.Settled
      (nestedRuns resolving locking starting capturing) := by
  constructor
  · exact fun context _ _ logs => runAll_settled false resolving context logs
  · exact fun context _ _ logs => runAll_settled true locking context logs
  · exact fun context _ _ logs => runAll_settled false starting context logs
  · exact fun context _ _ logs => runAll_settled false capturing context logs

/-! ## Requests -/

inductive EntryPoint where
  | hook
  | macroApi
  deriving DecidableEq, Repr

/-- A request of the application, with the nested calls that it makes. -/
structure Request where
  entryPoint : EntryPoint
  call : HookCall

/-- Serve a request, from an empty log. -/
def Request.serve (request : Request) (context : Context)
    (tool : ToolState) : Outcome :=
  match request.entryPoint, request.call with
  | .hook, call => call.run context { tool, log := [] }
  | .macroApi, .mk call input resolving locking starting capturing =>
      apiCall (nestedRuns resolving locking starting capturing) context call
        input { tool, log := [] }

/-- The machine that is left, or in which the thread waits. -/
def Outcome.machine : Outcome → Machine
  | .ok machine => machine
  | .error machine => machine

theorem LeavesLog.logs {good : Returned → Prop} {outcome : Outcome}
    (leaves : LeavesLog good outcome) :
    Logs good (Outcome.machine outcome) := by
  cases outcome with
  | ok machine => exact leaves
  | error machine => exact leaves

/-- The nested calls that returned while the request was served. -/
def Request.nestedCalls (request : Request) (context : Context)
    (tool : ToolState) : List Returned :=
  (Outcome.machine (request.serve context tool)).log

theorem Request.nestedCalls_settled (request : Request) (context : Context)
    (tool : ToolState) :
    ∀ entry ∈ request.nestedCalls context tool, entry.Settled := by
  apply LeavesLog.logs
  have empty : Logs Returned.Settled { tool, log := [] } := by
    intro entry isLogged
    cases isLogged
  obtain ⟨entryPoint, call⟩ := request
  cases call with
  | mk call input resolving locking starting capturing =>
      have settled :=
        nestedRuns_settled resolving locking starting capturing
      cases entryPoint with
      | hook =>
          exact HookCall.run_logs (fun _ _ => trivial) returns_settled _
            context empty
      | macroApi =>
          exact apiCall_logs settled all_allowsNested trivial call input empty

theorem Request.hook_sheltered (call : HookCall) (context : Context)
    (tool : ToolState) :
    ∀ entry ∈ Request.nestedCalls ⟨.hook, call⟩ context tool,
      entry.context.Sheltered := by
  have returns : ReturnsAsLogged Context.Sheltered
      fun entry => entry.context.Sheltered := by
    intro call context machine later sheltered _
    exact sheltered
  apply LeavesLog.logs
  apply HookCall.run_logs (fun _ sheltered => sheltered) returns call context
  intro entry isLogged
  cases isLogged

theorem not_touches_of_sheltered {context : Context} {call : Call}
    {input : CallInput} {tool : ToolState} (sheltered : context.Sheltered) :
    ¬ Touches context call input tool := by
  have noPass (lr : Word) : ¬ context.Passes tool lr :=
    Context.not_passes_of_sheltered sheltered
  cases call with
  | malloc size => exact fun touches => noPass _ touches.1
  | calloc count size =>
      intro touches
      obtain ⟨_, _, passes, _⟩ := touches
      exact noPass _ passes
  | realloc ptr size =>
      unfold Touches
      simp only
      split
      · exact fun touches => noPass _ touches.1
      · split
        · exact fun touches => noPass _ touches.2.2.1
        · exact fun touches => noPass _ touches.1
  | free ptr => exact fun touches => noPass _ touches.2.2.1

/-- The nested calls of a request leave the accounts alone exactly if the
request came through a hook, or each nested call is one that the tool does
not track. -/
theorem nestedCalls_leaveAccounts_iff (request : Request) (context : Context)
    (tool : ToolState) :
    (∀ entry ∈ request.nestedCalls context tool,
        entry.after.accounts = entry.before.accounts) ↔
      request.entryPoint = .hook ∨
        ∀ entry ∈ request.nestedCalls context tool,
          ¬ Touches entry.context entry.call entry.input entry.before := by
  have settled := request.nestedCalls_settled context tool
  constructor
  · intro silent
    right
    intro entry isLogged
    exact (settled entry isLogged).mp (silent entry isLogged)
  · intro harmless entry isLogged
    apply (settled entry isLogged).mpr
    cases harmless with
    | inl isHook =>
        obtain ⟨entryPoint, call⟩ := request
        cases isHook
        exact not_touches_of_sheltered
          (Request.hook_sheltered call context tool entry isLogged)
    | inr untouched => exact untouched entry isLogged

/-! ## A capture that allocates -/

/-- A thread of the application outside the hooks. -/
def outsideContext : Context :=
  { slot := some { depthInited := true, hookDepth := 0, toolInternal := false }
    inCapture := false
    initLocked := false }

def smallInit : InitInput :=
  { obtainsTable := true
    hashSeed := 0
    pool := none
    sampleRate := 0
    samplePeriod := 0
    leakThresholdSec := 60
    wantDisabled := false
    mapsOpen := true
    foundLast := []
    blacklistSelfMatch := false }

/-- A call that the raw allocators serve at this address. -/
def servedAt (ptr : Word) : CallInput :=
  { lr := 0x400000
    innerLr := 0x400000
    reply := some ptr
    rawMalloc := true
    rawRealloc := true
    startup := false
    now := 100
    stack := []
    init := smallInit
    found := [] }

def runningTool : ToolState :=
  { libBlacklistFast := none
    resolved := some
      { Resolved.fresh with
        running := some { disabled := false, tracker := quietTracker none [] } } }

/-- The unwinder allocates while it captures the stack. -/
def capturingRequest : Request :=
  { entryPoint := .macroApi
    call := .mk (.malloc 16) (servedAt 4096) [] [] []
      [.mk (.malloc 32) (servedAt 8192) [] [] [] []] }

theorem capturingRequest_nested :
    (capturingRequest.nestedCalls outsideContext runningTool).map
      (fun entry => (entry.before.accounts.allocCount,
        entry.after.accounts.allocCount)) = [(0, 1)] := by
  decide

/-- The allocation of the unwinder is recorded like one of the application. -/
theorem nestedCalls_leaveAccounts_fails_underMacroApi :
    ¬ ∀ entry ∈ capturingRequest.nestedCalls outsideContext runningTool,
      entry.after.accounts = entry.before.accounts := by
  intro silent
  obtain ⟨entry, isOnly, counts⟩ :=
    List.map_eq_singleton_iff.mp capturingRequest_nested
  have isLogged : entry ∈
      capturingRequest.nestedCalls outsideContext runningTool := by
    rw [isOnly]
    exact List.mem_singleton_self entry
  rw [silent entry isLogged, Prod.mk.injEq] at counts
  have risen : (0 : Word) = 1 := counts.1.symm.trans counts.2
  exact absurd risen (by decide)

end MemoryTraceTool.Nesting
