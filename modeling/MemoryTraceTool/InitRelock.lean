import MemoryTraceTool.NestedRequests

/-!
# Locking `g_init_lock` again

Under `g_init_lock` the tool reads `/proc/self/maps`, and the `fopen`, `fgets`
and `fclose` that it uses for that come back in through the hooks.  A nested
call that gets to `mtt_ensure_init` waits for the lock that its own thread
holds.
-/

namespace MemoryTraceTool.Nesting

open Accounting

/-- A `malloc` that gets to the initialisation. -/
def MallocEnters (context : Context) (lr size : Word) (tool : ToolState) :
    Prop :=
  context.Passes tool lr ∧ size ≠ 0

/-- A `free` that gets to the initialisation. -/
def FreeEnters (context : Context) (lr ptr : Word) (tool : ToolState) :
    Prop :=
  ptr ≠ 0 ∧ mttPoolContains tool ptr = false ∧ context.Passes tool lr

/-- The hook call gets to `mtt_ensure_init`. -/
def EntersInit (context : Context) (call : Call) (input : CallInput)
    (tool : ToolState) : Prop :=
  match call with
  | .malloc size => MallocEnters context input.lr size tool
  | .calloc count size =>
      ∃ total, arraySize count.toNat size.toNat = some total ∧
        context.Passes tool input.lr ∧
        MallocEnters context input.innerLr (BitVec.ofNat 64 total) tool
  | .realloc ptr size =>
      if ptr = 0 then MallocEnters context input.innerLr size tool
      else if size = 0 then FreeEnters context input.innerLr ptr tool
      else context.Passes tool input.lr
  | .free ptr => FreeEnters context input.lr ptr tool

/-- A call of the macro API gets to `mtt_ensure_init`, once the raw
allocators are set. -/
def Call.EntersInit : Call → Prop
  | .malloc size => size ≠ 0
  | .calloc count size =>
      ∃ total, arraySize count.toNat size.toNat = some total ∧
        BitVec.ofNat 64 total ≠ 0
  | .realloc ptr size => ptr = 0 → size ≠ 0
  | .free ptr => ptr ≠ 0

/-- One of the nested calls under `g_init_lock` gets to `mtt_ensure_init`,
with the ranges that were found before it. -/
def AnyEntersInit (context : Context) : List HookCall → ToolState → Prop
  | [], _ => False
  | call :: rest, tool =>
      let entered := tool.addRanges call.input.found
      EntersInit context call.call call.input entered ∨
        AnyEntersInit context rest entered

/-- The calling thread would wait for itself in `mtt_ensure_init`. -/
def Context.Blocked (context : Context) (tool : ToolState) : Prop :=
  tool.running = none ∧ context.initLocked = true

/-- What a call does that may get to `mtt_ensure_init`. -/
structure MeetsInit (context : Context) (before : ToolState) (enters : Prop)
    (outcome : Outcome) : Prop where
  bypasses : ¬ enters → ReturnsWith outcome (Quiet before)
  blocks : enters → context.Blocked before →
    ∃ stuck, outcome = .error stuck
  starts : enters → ¬ context.Blocked before →
    ReturnsWith outcome fun tool => tool.running ≠ none

theorem MeetsInit.of_quiet {context : Context} {before : ToolState}
    {enters : Prop} {outcome : Outcome}
    (returns : ReturnsWith outcome (Quiet before)) (silent : ¬ enters) :
    MeetsInit context before enters outcome := by
  constructor
  · exact fun _ => returns
  · exact fun entered => (silent entered).elim
  · exact fun entered => (silent entered).elim

theorem MeetsInit.congr {context : Context} {before : ToolState}
    {enters other : Prop} {outcome : Outcome}
    (meets : MeetsInit context before enters outcome)
    (same : enters ↔ other) : MeetsInit context before other outcome := by
  constructor
  · exact fun silent => meets.bypasses (mt same.mp silent)
  · exact fun entered => meets.blocks (same.mpr entered)
  · exact fun entered => meets.starts (same.mpr entered)

/-! ## The hooks -/

section Hooks

variable {nested : Nested} {context : Context} {machine : Machine}

theorem Leaves.running {outcome : Outcome} {tracker : Tracker}
    (leaves : Leaves outcome tracker) :
    ReturnsWith outcome fun tool => tool.running ≠ none := by
  apply leaves.mono
  intro tool isTracker stopped
  rw [ToolState.tracker, stopped] at isTracker
  cases isTracker

theorem throughHook_meetsInit (calm : NestedCalm nested) (lr : Word)
    (noBytes : Bool) {init : InitInput} {next : Machine → Outcome}
    {result : Running → Tracker}
    (serves : ∀ ready running, ready.tool.running = some running →
      Leaves (next ready) (result running)) :
    MeetsInit context machine.tool
      (context.Passes machine.tool lr ∧ noBytes = false)
      (throughHook nested context lr noBytes machine fun resolved =>
        mttEnsureInit nested init context.raised resolved >>= next) := by
  cases throughHook_cases calm lr noBytes fun resolved =>
      mttEnsureInit nested init context.raised resolved >>= next with
  | inl bypasses => exact MeetsInit.of_quiet bypasses.2 bypasses.1
  | inr tracks =>
      obtain ⟨passes, hasBytes, resolved, same, isTracked⟩ := tracks
      have isSome : resolved.tool.resolved.isSome := by
        rw [same]
        rfl
      have running : resolved.tool.running = machine.tool.running := by
        rw [same, ToolState.resolve_running]
      rw [isTracked]
      constructor
      · exact fun silent => (silent ⟨passes, hasBytes⟩).elim
      · intro _ blocked
        have pending := running.trans blocked.1
        refine ⟨resolved, ?_⟩
        simp only [mttEnsureInit_blocks nested init pending
          (show context.raised.initLocked = true from blocked.2), error_bind]
      · intro _ unblocked
        have unlocked : resolved.tool.running = none →
            context.raised.initLocked = false := by
          intro pending
          apply Bool.eq_false_of_not_eq_true
          exact fun locked => unblocked ⟨running.symm.trans pending, locked⟩
        apply (mttEnsureInit_runs calm init context.raised_sheltered isSome
          unlocked).bind
        intro ready isRunning
        exact (serves ready _ isRunning).running

theorem mallocHook_meetsInit (calm : NestedCalm nested) (lr : Word)
    (input : CallInput) (size : Word) :
    MeetsInit context machine.tool
      (MallocEnters context lr size machine.tool)
      (mallocHook nested context lr input size machine) := by
  apply (throughHook_meetsInit calm lr (size == 0)
    (fun _ _ isRunning => trackMalloc_leaves calm context.raised_sheltered
      isRunning false input size)).congr
  simp [MallocEnters]

theorem freeHook_meetsInit (calm : NestedCalm nested) (lr : Word)
    (input : CallInput) (ptr : Word) :
    MeetsInit context machine.tool (FreeEnters context lr ptr machine.tool)
      (freeHook nested context lr input ptr machine) := by
  cases freeHook_cases nested context machine lr input ptr with
  | inl ignores =>
      rw [ignores.2]
      apply MeetsInit.of_quiet ⟨machine, rfl, .refl _⟩
      exact fun enters => ignores.1 ⟨enters.1, enters.2.1⟩
  | inr frees =>
      obtain ⟨notNull, outside, isHook⟩ := frees
      rw [isHook]
      apply (throughHook_meetsInit calm lr false
        (fun _ _ isRunning => freeUnlessDisabled_leaves isRunning _)).congr
      constructor
      · exact fun enters => ⟨notNull, outside, enters.1⟩
      · exact fun enters => ⟨enters.2.2, rfl⟩

theorem callocHook_meetsInit (calm : NestedCalm nested) (input : CallInput)
    (count size : Word) :
    MeetsInit context machine.tool
      (EntersInit context (.calloc count size) input machine.tool)
      (callocHook nested context input count size machine) := by
  cases callocHook_cases calm input count size with
  | inl bypasses =>
      apply MeetsInit.of_quiet bypasses.2
      intro enters
      obtain ⟨total, fits, passes, -⟩ := enters
      exact bypasses.1 total fits passes
  | inr allocates =>
      obtain ⟨total, fits, passes, isMalloc⟩ := allocates
      rw [isMalloc]
      apply (mallocHook_meetsInit calm input.innerLr input
        (BitVec.ofNat 64 total)).congr
      constructor
      · exact fun enters => ⟨total, fits, passes, enters⟩
      · intro entered
        obtain ⟨other, isOther, -, enters⟩ := entered
        cases fits.symm.trans isOther
        exact enters

theorem reallocHook_meetsInit (calm : NestedCalm nested) (input : CallInput)
    (ptr size : Word) :
    MeetsInit context machine.tool
      (EntersInit context (.realloc ptr size) input machine.tool)
      (reallocHook nested context input ptr size machine) := by
  unfold reallocHook EntersInit
  simp only
  split
  · exact mallocHook_meetsInit calm input.innerLr input size
  · split
    · exact freeHook_meetsInit calm input.innerLr input ptr
    · apply (throughHook_meetsInit calm input.lr false
        (fun _ _ isRunning => reallocTracked_leaves calm
          context.raised_sheltered isRunning false input ptr size)).congr
      simp

theorem HookCall.run_meetsInit (call : HookCall) (context : Context)
    (machine : Machine) :
    MeetsInit context machine.tool
      (EntersInit context call.call call.input machine.tool)
      (call.run context machine) := by
  cases call with
  | mk call input resolving locking starting capturing =>
      have calm := nestedRuns_calm resolving locking starting capturing
      rw [HookCall.run_mk]
      cases call with
      | malloc size => exact mallocHook_meetsInit calm input.lr input size
      | calloc count size => exact callocHook_meetsInit calm input count size
      | realloc ptr size => exact reallocHook_meetsInit calm input ptr size
      | free ptr => exact freeHook_meetsInit calm input.lr input ptr

end Hooks

/-! ## Lists of nested calls -/

/-- Neither the initialisation nor the resolution is taken back. -/
structure Kept (before after : ToolState) : Prop where
  running : before.running ≠ none → after.running ≠ none
  resolved : before.resolved.isSome → after.resolved.isSome

theorem Kept.refl (tool : ToolState) : Kept tool tool := ⟨id, id⟩

theorem Kept.trans {before middle after : ToolState}
    (first : Kept before middle) (second : Kept middle after) :
    Kept before after :=
  ⟨fun running => second.running (first.running running),
    fun resolved => second.resolved (first.resolved resolved)⟩

theorem Calm.kept {before after : ToolState} (calm : Calm before after) :
    Kept before after := by
  constructor
  · intro running
    rw [calm.running]
    exact running
  · exact calm.resolved

theorem ToolState.resolved_of_running {tool : ToolState}
    (running : tool.running ≠ none) : tool.resolved.isSome := by
  cases tool with
  | mk libs state =>
      cases state with
      | none => exact (running rfl).elim
      | some state => rfl

theorem MeetsInit.kept {context : Context} {before : ToolState}
    {enters : Prop} {outcome : Outcome}
    (meets : MeetsInit context before enters outcome)
    (unblocked : ¬ context.Blocked before) :
    ReturnsWith outcome (Kept before) := by
  by_cases entered : enters
  · apply (meets.starts entered unblocked).mono
    intro tool running
    exact ⟨fun _ => running,
      fun _ => ToolState.resolved_of_running running⟩
  · exact (meets.bypasses entered).mono fun _ quiet => quiet.calm.kept

theorem Context.not_blocked_of_unlocked {context : Context}
    (unlocked : context.initLocked = false) (tool : ToolState) :
    ¬ context.Blocked tool := by
  intro blocked
  obtain ⟨-, locked⟩ := blocked
  rw [unlocked] at locked
  cases locked

theorem runAll_returns (calls : List HookCall) {context : Context}
    (unlocked : context.initLocked = false) (machine : Machine) :
    ReturnsWith (HookCall.runAll false calls context machine)
      (Kept machine.tool) := by
  induction calls generalizing machine with
  | nil =>
      rw [HookCall.runAll]
      exact ⟨machine, rfl, .refl _⟩
  | cons call rest induction =>
      rw [HookCall.runAll]
      apply ((call.run_meetsInit context machine).kept
        (Context.not_blocked_of_unlocked unlocked _)).bind
      intro left kept
      apply (induction _).mono
      intro tool later
      exact kept.trans later

theorem Quiet.eq_of_resolved {before after : ToolState}
    (quiet : Quiet before after) (resolved : before.resolved.isSome) :
    after = before := by
  cases quiet with
  | inl same => exact same
  | inr same => rw [same, ToolState.resolve_of_isSome resolved]

/-- Nested calls without the lock leave the tool alone until one of them gets
to the initialisation, and it runs from then on. -/
theorem runAll_starts (calls : List HookCall) {context : Context}
    (unlocked : context.initLocked = false) {machine : Machine}
    (resolved : machine.tool.resolved.isSome) :
    ReturnsWith (HookCall.runAll false calls context machine) fun tool =>
      tool.running ≠ none ∧
          (∃ call ∈ calls,
            EntersInit context call.call call.input machine.tool) ∨
        tool = machine.tool ∧
          ¬ ∃ call ∈ calls,
            EntersInit context call.call call.input machine.tool := by
  induction calls generalizing machine with
  | nil =>
      rw [HookCall.runAll]
      refine ⟨machine, rfl, .inr ⟨rfl, ?_⟩⟩
      intro enters
      obtain ⟨call, isCall, -⟩ := enters
      cases isCall
  | cons call rest induction =>
      have meets := call.run_meetsInit context machine
      rw [HookCall.runAll]
      simp only [List.exists_mem_cons_iff]
      by_cases enters : EntersInit context call.call call.input machine.tool
      · apply (meets.starts enters
          (Context.not_blocked_of_unlocked unlocked _)).bind
        intro left running
        apply (runAll_returns rest unlocked _).mono
        intro tool kept
        exact .inl ⟨kept.running running, .inl enters⟩
      · apply (meets.bypasses enters).bind
        intro left quiet
        have same : left.tool = machine.tool := quiet.eq_of_resolved resolved
        simp only [enters, false_or]
        rw [← same] at resolved ⊢
        exact induction resolved

/-- Under the lock the thread waits for itself as soon as a nested call gets
to the initialisation. -/
theorem runAll_locked (calls : List HookCall) {context : Context}
    (locked : context.initLocked = true) {machine : Machine}
    (resolved : machine.tool.resolved.isSome)
    (pending : machine.tool.running = none) :
    (AnyEntersInit context calls machine.tool →
      ∃ stuck, HookCall.runAll true calls context machine = .error stuck) ∧
    (¬ AnyEntersInit context calls machine.tool →
      ReturnsWith (HookCall.runAll true calls context machine)
        (Calm machine.tool)) := by
  induction calls generalizing machine with
  | nil =>
      rw [HookCall.runAll]
      exact ⟨False.elim, fun _ => ⟨machine, rfl, rfl, id⟩⟩
  | cons call rest induction =>
      rw [HookCall.runAll]
      simp only [AnyEntersInit, if_true]
      have added := machine.tool.addRanges_calm call.input.found
      generalize isEntered :
        (machine.mapTool fun tool => tool.addRanges call.input.found) = entered
      have sameTool : machine.tool.addRanges call.input.found =
          entered.tool := congrArg Machine.tool isEntered
      rw [sameTool] at added ⊢
      have stopped := added.running.trans pending
      have isResolved := added.resolved resolved
      have meets := call.run_meetsInit context entered
      by_cases enters : EntersInit context call.call call.input entered.tool
      · obtain ⟨stuck, isStuck⟩ := meets.blocks enters ⟨stopped, locked⟩
        rw [isStuck]
        exact ⟨fun _ => ⟨stuck, rfl⟩, fun none => (none (.inl enters)).elim⟩
      · obtain ⟨left, isLeft, quiet⟩ := meets.bypasses enters
        have same : left.tool = entered.tool :=
          quiet.eq_of_resolved isResolved
        rw [isLeft, ok_bind, ← same, or_iff_right (same ▸ enters)]
        rw [← same] at stopped isResolved added
        have later :=
          @induction (left.record context call left.tool) isResolved stopped
        constructor
        · exact later.1
        · intro none
          apply (later.2 none).mono
          intro tool calm
          exact added.trans calm

/-! ## The macro API -/

section MacroApi

variable {resolving locking starting capturing : List HookCall}
variable {context : Context} {machine : Machine}

/-- With the lock taken by this call, one of the nested calls locks it
again. -/
structure InitBlocks (locking : List HookCall) (context : Context)
    (init : InitInput) (tool : ToolState) : Prop where
  pending : tool.running = none
  table : init.obtainsTable = true
  configured : blacklistTokens tool.libBlacklistFast ≠ []
  entered : AnyEntersInit context.locked locking tool

theorem mttParseBlacklistFast_locked (init : InitInput)
    (locked : context.initLocked = true)
    (resolved : machine.tool.resolved.isSome)
    (pending : machine.tool.running = none) :
    (blacklistTokens machine.tool.libBlacklistFast ≠ [] ∧
        AnyEntersInit context locking machine.tool →
      ∃ stuck, mttParseBlacklistFast
        (nestedRuns resolving locking starting capturing) init context
        machine = .error stuck) ∧
    (¬ (blacklistTokens machine.tool.libBlacklistFast ≠ [] ∧
        AnyEntersInit context locking machine.tool) →
      ReturnsWith (mttParseBlacklistFast
        (nestedRuns resolving locking starting capturing) init context
        machine) fun tool => tool.resolved.isSome) := by
  have runs := runAll_locked locking locked resolved pending
  unfold mttParseBlacklistFast
  split
  · rename_i empty
    constructor
    · exact fun blocks => (blocks.1 empty).elim
    · exact fun _ => ⟨machine, rfl, resolved⟩
  · rename_i configured
    constructor
    · intro waits
      obtain ⟨-, entered⟩ := waits
      obtain ⟨stuck, isStuck⟩ := runs.1 entered
      refine ⟨stuck, ?_⟩
      simp only [nestedRuns, isStuck, error_bind]
    · intro silent
      have none : ¬ AnyEntersInit context locking machine.tool :=
        fun entered => silent ⟨configured, entered⟩
      apply (runs.2 none).bind
      intro parsed calm
      split
      · refine ⟨_, rfl, ?_⟩
        simp only [Machine.mapTool, ToolState.mapResolved, Option.isSome_map]
        exact (parsed.tool.addRanges_calm init.foundLast).resolved
          (calm.resolved resolved)
      · exact ⟨parsed, rfl, calm.resolved resolved⟩

theorem ToolState.setRunning_ne_none {tool : ToolState}
    (resolved : tool.resolved.isSome) (running : Running) :
    (tool.setRunning running).running ≠ none := by
  rw [ToolState.setRunning_running resolved running]
  exact Option.some_ne_none running

theorem mttEnsureInit_unlocked (init : InitInput)
    (unlocked : context.initLocked = false)
    (resolved : machine.tool.resolved.isSome) :
    (InitBlocks locking context init machine.tool →
      ∃ stuck, mttEnsureInit (nestedRuns resolving locking starting capturing)
        init context machine = .error stuck) ∧
    (¬ InitBlocks locking context init machine.tool →
      ReturnsWith (mttEnsureInit
        (nestedRuns resolving locking starting capturing) init context
        machine) fun tool => tool.running ≠ none) := by
  cases pending : machine.tool.running with
  | some running =>
      rw [mttEnsureInit_done _ init context pending]
      constructor
      · intro blocks
        rw [blocks.pending] at pending
        cases pending
      · refine fun _ => ⟨machine, rfl, fun stopped => ?_⟩
        rw [stopped] at pending
        cases pending
  | none =>
      unfold mttEnsureInit
      simp only [pending, unlocked, Bool.false_eq_true, if_false]
      split
      · rename_i table
        have parses := @mttParseBlacklistFast_locked resolving locking starting
          capturing context.locked machine init rfl resolved pending
        constructor
        · intro blocks
          obtain ⟨stuck, isStuck⟩ := parses.1
            ⟨blocks.configured, blocks.entered⟩
          refine ⟨stuck, ?_⟩
          rw [isStuck, error_bind]
        · intro silent
          apply (parses.2 fun blocks =>
            silent ⟨pending, table, blocks.1, blocks.2⟩).bind
          intro parsed isResolved
          have ready := ToolState.setRunning_ne_none isResolved init.running
          have stillUnlocked : context.starting.initLocked = false := unlocked
          split
          · exact ⟨_, rfl, ready⟩
          · apply (runAll_returns starting stillUnlocked _).mono
            intro tool kept
            exact kept.running ready
      · rename_i noTable
        constructor
        · exact fun blocks => (noTable blocks.table).elim
        · exact fun _ => ⟨_, rfl,
            ToolState.setRunning_ne_none resolved init.running⟩

/-- The call returns. -/
abbrev Returns (outcome : Outcome) : Prop :=
  Ends (fun _ => True) (fun _ => False) outcome

theorem ReturnsWith.returns {outcome : Outcome} {good : ToolState → Prop}
    (returns : ReturnsWith outcome good) : Returns outcome := by
  obtain ⟨later, rfl, -⟩ := returns
  trivial

theorem capturing_returns (unlocked : context.initLocked = false) :
    CapturesWell (fun _ => True) (fun _ => False)
      (nestedRuns resolving locking starting capturing) context :=
  fun machine _ => (runAll_returns capturing
    (show context.capturing.initLocked = false from unlocked)
    machine).returns

/-- A nested call of the resolution gets to the initialisation. -/
def ResolvingEnters (resolving : List HookCall) (context : Context)
    (tool : ToolState) : Prop :=
  tool.resolved = none ∧ ∃ call ∈ resolving,
    EntersInit context call.call call.input tool.resolve

/-- What a call of the macro API finds when it gets to its initialisation. -/
structure ApiBlocks (resolving locking : List HookCall) (context : Context)
    (init : InitInput) (tool : ToolState) : Prop where
  resolves : tool.resolved ≠ none ∨ context.slot ≠ none
  unstarted : ¬ ResolvingEnters resolving context tool
  blocks : InitBlocks locking context init tool.resolve

theorem mttResolveRawAllocators_cases
    (unlocked : context.initLocked = false) (machine : Machine) :
    (machine.tool.resolved = none ∧ context.slot = none ∧
      mttResolveRawAllocators
        (nestedRuns resolving locking starting capturing) context machine =
          .ok machine) ∨
    ((machine.tool.resolved ≠ none ∨ context.slot ≠ none) ∧
      ReturnsWith (mttResolveRawAllocators
        (nestedRuns resolving locking starting capturing) context machine)
        fun tool =>
          tool.running ≠ none ∧
              ResolvingEnters resolving context machine.tool ∨
            tool = machine.tool.resolve ∧
              ¬ ResolvingEnters resolving context machine.tool) := by
  unfold mttResolveRawAllocators ResolvingEnters
  cases isResolved : machine.tool.resolved with
  | some resolved =>
      right
      refine ⟨.inl (Option.some_ne_none resolved), machine, rfl, .inr ?_⟩
      constructor
      · symm
        apply ToolState.resolve_of_isSome
        rw [isResolved, Option.isSome_some]
      · exact fun enters => Option.some_ne_none resolved enters.1
  | none =>
      cases isSlot : context.slot with
      | none => exact .inl ⟨rfl, rfl, rfl⟩
      | some slot =>
          right
          refine ⟨.inr (Option.some_ne_none slot), ?_⟩
          have isSome : (machine.mapTool ToolState.resolve).tool.resolved.isSome =
            true := rfl
          apply (runAll_starts resolving unlocked isSome).mono
          intro tool starts
          simp only [true_and]
          exact starts

theorem ensureInit_waits_iff {init : InitInput} {next : Machine → Outcome}
    (unlocked : context.initLocked = false)
    (resolved : machine.tool.resolved.isSome = true)
    (returns : ∀ ready, Returns (next ready)) :
    (∃ stuck,
      (mttEnsureInit (nestedRuns resolving locking starting capturing) init
        context machine >>= next) = .error stuck) ↔
      InitBlocks locking context init machine.tool := by
  have ensures := @mttEnsureInit_unlocked resolving locking starting
    capturing context machine init unlocked resolved
  constructor
  · intro waits
    obtain ⟨stuck, isStuck⟩ := waits
    by_contra silent
    obtain ⟨ready, isReady, -⟩ := ensures.2 silent
    have ends := returns ready
    rw [isReady, ok_bind] at isStuck
    rw [isStuck] at ends
    exact ends
  · intro blocks
    obtain ⟨stuck, isStuck⟩ := ensures.1 blocks
    refine ⟨stuck, ?_⟩
    rw [isStuck, error_bind]

theorem throughApi_waits_iff {init : InitInput} (noBytes : Bool)
    {next : Machine → Outcome} (unlocked : context.initLocked = false)
    (returns : ∀ ready, Returns (next ready)) :
    (∃ stuck, throughApi (nestedRuns resolving locking starting capturing)
        context init noBytes machine next = .error stuck) ↔
      noBytes = false ∧
        ApiBlocks resolving locking context init machine.tool := by
  unfold throughApi
  cases mttResolveRawAllocators_cases unlocked machine with
  | inl missing =>
      obtain ⟨unresolved, noSlot, isMachine⟩ := missing
      rw [isMachine, ok_bind, unresolved, Option.isNone_none, Bool.true_or,
        if_pos rfl]
      constructor
      · intro waits
        obtain ⟨stuck, isStuck⟩ := waits
        cases isStuck
      · intro waits
        obtain ⟨-, blocks⟩ := waits
        cases blocks.resolves with
        | inl resolved => exact (resolved unresolved).elim
        | inr hasSlot => exact (hasSlot noSlot).elim
  | inr present =>
      obtain ⟨resolves, resolved, isResolved, starts⟩ := present
      have isSome : resolved.tool.resolved.isSome := by
        cases starts with
        | inl started => exact ToolState.resolved_of_running started.1
        | inr same =>
            rw [same.1]
            rfl
      have isNone : resolved.tool.resolved.isNone = false := by
        rw [Option.isNone_eq_false_iff]
        exact isSome
      have blocks_iff : InitBlocks locking context init resolved.tool ↔
          ApiBlocks resolving locking context init machine.tool := by
        cases starts with
        | inl started =>
            constructor
            · exact fun blocks => (started.1 blocks.pending).elim
            · exact fun blocks => (blocks.unstarted started.2).elim
        | inr same =>
            rw [same.1]
            constructor
            · exact fun blocks => ⟨resolves, same.2, blocks⟩
            · exact fun blocks => blocks.blocks
      rw [isResolved, ok_bind, isNone, Bool.false_or, ← blocks_iff]
      cases noBytes with
      | true =>
          constructor
          · intro waits
            obtain ⟨stuck, isStuck⟩ := waits
            cases isStuck
          · intro waits
            obtain ⟨hasBytes, -⟩ := waits
            cases hasBytes
      | false =>
          rw [if_neg Bool.false_ne_true,
            ensureInit_waits_iff unlocked isSome returns]
          simp

theorem mttMalloc_waits_iff (unlocked : context.initLocked = false)
    (input : CallInput) (size : Word) :
    (∃ stuck, mttMalloc (nestedRuns resolving locking starting capturing)
        context input size machine = .error stuck) ↔
      size ≠ 0 ∧
        ApiBlocks resolving locking context input.init machine.tool := by
  have returns (ready : Machine) : Returns
      (trackMalloc (nestedRuns resolving locking starting capturing) context
        true input size ready) :=
    trackMalloc_ends (fun _ _ _ => trivial) (capturing_returns unlocked) true
      input size trivial
  apply (throughApi_waits_iff (size == 0) unlocked returns).trans
  rw [beq_eq_false_iff_ne]

theorem mttFree_waits_iff (unlocked : context.initLocked = false)
    (input : CallInput) (ptr : Word) :
    (∃ stuck, mttFree (nestedRuns resolving locking starting capturing)
        context input ptr machine = .error stuck) ↔
      ptr ≠ 0 ∧
        ApiBlocks resolving locking context input.init machine.tool := by
  by_cases null : ptr = 0
  · rw [mttFree, if_pos null]
    constructor
    · intro waits
      obtain ⟨stuck, isStuck⟩ := waits
      cases isStuck
    · exact fun blocks => (blocks.1 null).elim
  · rw [mttFree_eq null]
    have returns (ready : Machine) :
        Returns (freeUnlessDisabled ready (forgetEntry ptr)) :=
      freeUnlessDisabled_ends (fun _ _ _ => trivial) _ trivial
    rw [throughApi_waits_iff false unlocked returns]
    apply and_congr_left'
    exact iff_of_true rfl null

/-- A call of the macro API waits for the lock that its own thread holds
exactly if it gets to the initialisation, and a nested call after it. -/
theorem apiCall_waits_iff (unlocked : context.initLocked = false)
    (call : Call) (input : CallInput) :
    (∃ stuck, apiCall (nestedRuns resolving locking starting capturing)
        context call input machine = .error stuck) ↔
      call.EntersInit ∧
        ApiBlocks resolving locking context input.init machine.tool := by
  cases call with
  | malloc size => exact mttMalloc_waits_iff unlocked input size
  | calloc count size =>
      simp only [apiCall, mttCalloc, Call.EntersInit]
      split
      · rename_i overflows
        simp [overflows]
      · rename_i total fits
        rw [mttMalloc_waits_iff unlocked]
        simp [fits]
  | realloc ptr size =>
      simp only [apiCall, Call.EntersInit]
      by_cases null : ptr = 0
      · rw [mttRealloc, if_pos null, mttMalloc_waits_iff unlocked]
        simp [null]
      · by_cases noBytes : size = 0
        · rw [mttRealloc, if_neg null, if_pos noBytes,
            mttFree_waits_iff unlocked]
          apply and_congr_left'
          exact iff_of_true null fun isNull => (null isNull).elim
        · rw [mttRealloc_eq null noBytes]
          have returns (ready : Machine) : Returns
              (reallocTracked
                (nestedRuns resolving locking starting capturing) context
                true input ptr size ready) :=
            reallocTracked_ends (fun _ _ _ => trivial)
              (capturing_returns unlocked) true input ptr size trivial
          rw [throughApi_waits_iff false unlocked returns]
          apply and_congr_left'
          exact iff_of_true rfl fun isNull => (null isNull).elim
  | free ptr => exact mttFree_waits_iff unlocked input ptr

end MacroApi

/-! ## Requests -/

/-- The request makes its thread wait for itself. -/
def Request.Relocks (request : Request) (context : Context)
    (tool : ToolState) : Prop :=
  match request.entryPoint, request.call with
  | .hook, _ => False
  | .macroApi, .mk call input resolving locking _ _ =>
      call.EntersInit ∧
        ApiBlocks resolving locking context input.init tool

/-- While it holds `g_init_lock` the thread of a request does not try to lock
it again, except under a function of the macro API. -/
theorem serve_neverWaits_iff (request : Request) {context : Context}
    (unlocked : context.initLocked = false) (tool : ToolState) :
    (∀ stuck, request.serve context tool ≠ .error stuck) ↔
      ¬ request.Relocks context tool := by
  obtain ⟨entryPoint, call⟩ := request
  cases entryPoint with
  | hook =>
      have kept := (call.run_meetsInit context { tool, log := [] }).kept
        (Context.not_blocked_of_unlocked unlocked tool)
      obtain ⟨later, isLater, -⟩ := kept
      simp [Request.serve, Request.Relocks, isLater]
  | macroApi =>
      cases call with
      | mk call input resolving locking starting capturing =>
          rw [← not_exists]
          apply not_congr
          exact apiCall_waits_iff unlocked call input

theorem serve_isOk_iff {request : Request} {context : Context}
    {tool : ToolState} :
    (∀ stuck, request.serve context tool ≠ .error stuck) ↔
      (request.serve context tool).isOk = true := by
  cases served : request.serve context tool with
  | ok later => exact iff_of_true (fun _ same => nomatch same) rfl
  | error stuck =>
      exact iff_of_false (fun never => never stuck rfl) Bool.false_ne_true

/-- The buffer of `fopen` is allocated under `g_init_lock`. -/
def firstRequest : Request :=
  { entryPoint := .macroApi
    call := .mk (.malloc 16) (servedAt 4096) []
      [.mk (.malloc 552) (servedAt 8192) [] [] [] []] [] [] }

/-- The same call, whose `dlsym` has allocated before. -/
def resolvingRequest : Request :=
  { entryPoint := .macroApi
    call := .mk (.malloc 16) (servedAt 4096)
      [.mk (.malloc 40) (servedAt 12288) [] [] [] []]
      [.mk (.malloc 552) (servedAt 8192) [] [] [] []] []
      [.mk (.malloc 32) (servedAt 16384) [] [] [] []] }

/-- A process that has not allocated yet. -/
def freshTool : ToolState :=
  { libBlacklistFast := some "libxml2".toList
    resolved := none }

/-- The allocation of `dlsym` sets up the tool, and the call waits for
nothing; without that allocation it waits for itself. -/
theorem serve_neverWaits_firstCall :
    ¬ resolvingRequest.Relocks outsideContext freshTool ∧
      firstRequest.Relocks outsideContext freshTool := by
  constructor
  · exact (serve_neverWaits_iff resolvingRequest rfl freshTool).mp
      (serve_isOk_iff.mpr (by decide))
  · by_contra ready
    have never := (serve_neverWaits_iff firstRequest rfl freshTool).mpr ready
    exact absurd (serve_isOk_iff.mp never) (by decide)

/-- A child of a fork that has not allocated yet, of a parent with a
blacklisted library. -/
def childTool : ToolState :=
  { libBlacklistFast := some "libxml2".toList
    resolved := some
      { blacklistFastEnabled := true
        ranges := [(0x7f0000000000, 0x7f0000100000)]
        running := none } }

/-- The first call of the child waits for itself. -/
theorem serve_neverWaits_fails_inChild :
    ¬ ∀ stuck, firstRequest.serve outsideContext childTool ≠
      .error stuck := by
  rw [serve_isOk_iff]
  decide

end MemoryTraceTool.Nesting
