import MemoryTraceTool.Handover

/-!
# Blocks of the bootstrap allocator given back in time

A hook that is called with a block of the bootstrap allocator calls the raw
function only some steps later.  No such block reaches libc when the hook is
called while the pointer is not yet that of libc, and when no pointer is
replaced under a hook that is on its way to call it.
-/

namespace MemoryTraceTool.Handover

open Transition Custody

variable {Thread : Type} (base : Word)

/-! ## What hooks under way will give back -/

def requestReturns : HookRequest → List (RawName × Word)
  | .nothing | .alloc _ => []
  | .release ptr => [(.free, ptr)]
  | .resize ptr _ => [(.realloc, ptr)]

/-- The blocks that a hook is on its way to give back or to resize, and the
raw function that it will call. -/
def HookPoint.returns : HookPoint → List (RawName × Word)
  | .resolve _ request | .ready request => requestReturns request
  | .freeRaw ptr => [(.free, ptr)]
  | .reallocRaw ptr _ _ => [(.realloc, ptr)]
  | .copyUndo _ new => [(.free, new)]
  | .copyFree old _ _ => [(.free, old)]
  | .drop block next => (.free, block) :: next.returns
  | .remove _ next | .insert _ _ next => next.returns
  | .mallocRaw _ _ | .copyRaw _ _ _ | .copyEntry _ _ | .record _ | .done _ =>
      []

def Continue.returns : Continue → List (RawName × Word)
  | .goto point => point.returns
  | .leave _ => []

def framesReturns (frames : List HookPoint) : List (RawName × Word) :=
  frames.flatMap HookPoint.returns

def HandoverState.returning (state : HandoverState Thread) (thread : Thread) :
    List (RawName × Word) :=
  framesReturns (state.threads thread).frames

/-! ## What a call or a step sets out to give back -/

/-- Within a hook: the old block of a `realloc` that copies, or the new one
where no entry is left for it, and the block of an entry that is removed or
not inserted. -/
def HookPoint.begins (state : HandoverState Thread) (env : StepEnv) :
    HookPoint → List (RawName × Word)
  | .copyRaw ptr size false =>
      match rawMalloc base .malloc state size env.reply with
      | some (_, some _) => [(.free, ptr)]
      | _ => []
  | .copyEntry old new =>
      match mttEntryNew base state env with
      | some (_, none) => [(.free, new)]
      | some (_, some _) => [(.free, old)]
      | none => []
  | .remove ptr _ =>
      match takeEntry ptr state.entries with
      | some (⟨_, some block⟩, _) => [(.free, block)]
      | _ => []
  | .insert _ (some block) _ => if env.track then [] else [(.free, block)]
  | _ => []

/-- The application calls `free` or `realloc`, a hook decides to give a block
back, or the tool gives back a block that it has kept. -/
def HandoverLabel.begins (state : HandoverState Thread) :
    HandoverLabel Thread → List (RawName × Word)
  | .call _ made inPool =>
      match request made with
      | some (.release ptr) => if inPool then [] else [(.free, ptr)]
      | some (.resize ptr _) => [(.realloc, ptr)]
      | _ => []
  | .step thread env =>
      match (state.threads thread).frames with
      | [] => []
      | point :: _ => point.begins base state env
  | .giveBack ptr => [(.free, ptr)]
  | .keep _ _ _ | .keepBootstrap _ => []

/-! ## When libc takes over -/

/-- The pointer in which a step of the resolution stores the function of
libc. -/
def installs (reply : LinkerReply) : ResolvePc → Option RawName
  | .safeSet name _ =>
      if reply.symbol = some .libc ∧ reply.dladdr = true then some name
      else none
  | .refill _ name _ => if reply.symbol = some .libc then some name else none
  | _ => none

def HandoverLabel.installs (state : HandoverState Thread) :
    HandoverLabel Thread → Option RawName
  | .step thread env =>
      match (state.threads thread).frames with
      | .resolve pc _ :: _ => Handover.installs env.linker pc
      | _ => none
  | _ => none

/-! ## What the bootstrap allocator hands out -/

/-- The address that a call of a raw function gets from the bootstrap
allocator. -/
def bootstrapLends (state : HandoverState Thread) (name : RawName)
    (size : Nat) : Option Word :=
  if state.raw.raw name = some .bootstrap then
    (bootstrapMalloc base state size).2
  else none

def entryLends (state : HandoverState Thread) (env : StepEnv) : Option Word :=
  if env.pooled then none else bootstrapLends base state .malloc mttEntrySize

def HookPoint.lends (state : HandoverState Thread) (env : StepEnv) :
    HookPoint → Option Word
  | .mallocRaw size _ | .copyRaw _ size _ =>
      bootstrapLends base state .malloc size
  | .reallocRaw _ size _ => bootstrapLends base state .realloc size
  | .copyEntry _ _ => entryLends base state env
  | .record _ => if env.track then entryLends base state env else none
  | .resolve _ _ | .ready _ | .freeRaw _ | .copyUndo _ _ | .copyFree _ _ _
  | .remove _ _ | .drop _ _ | .insert _ _ _ | .done _ => none

def HandoverLabel.lends (state : HandoverState Thread) :
    HandoverLabel Thread → Option Word
  | .call _ _ _ | .giveBack _ => none
  | .step thread env =>
      match (state.threads thread).frames with
      | [] => none
      | point :: _ => point.lends base state env
  | .keep name size _ => bootstrapLends base state name size
  | .keepBootstrap size => (bootstrapMalloc base state size).2

/-! ## The condition -/

/-- Nobody sets out to give a block of the bootstrap allocator back once libc
has taken over; libc takes over a pointer only while no hook is on its way to
pass it such a block; and the bootstrap allocator, whose offset may wrap,
hands out no address that is on its way to libc. -/
structure ReturnsInTime (state : HandoverState Thread)
    (label : HandoverLabel Thread) : Prop where
  begun : ∀ pair ∈ label.begins base state,
    state.raw.raw pair.1 = some .libc → state.ledger.foreign pair.2 = false
  installed : ∀ thread, ∀ pair ∈ state.returning thread,
    label.installs state = some pair.1 → state.ledger.foreign pair.2 = false
  lent : ∀ thread, ∀ pair ∈ label.begins base state ++ state.returning thread,
    state.raw.raw pair.1 = some .libc → label.lends base state ≠ some pair.2

instance [DecidableEq Thread] [Fintype Thread] (state : HandoverState Thread)
    (label : HandoverLabel Thread) :
    Decidable (ReturnsInTime base state label) :=
  decidable_of_iff
    ((∀ pair ∈ label.begins base state, state.raw.raw pair.1 = some .libc →
        state.ledger.foreign pair.2 = false) ∧
      (∀ thread, ∀ pair ∈ state.returning thread,
        label.installs state = some pair.1 →
          state.ledger.foreign pair.2 = false) ∧
      ∀ thread, ∀ pair ∈ label.begins base state ++ state.returning thread,
        state.raw.raw pair.1 = some .libc →
          label.lends base state ≠ some pair.2)
    ⟨fun ⟨begun, installed, lent⟩ => ⟨begun, installed, lent⟩,
      fun inTime => ⟨inTime.begun, inTime.installed, inTime.lent⟩⟩

/-! ## What a raw call lends -/

/-- A raw call changes no pointer and no thread, and the ghost remembers the
address that the bootstrap allocator hands out. -/
structure Lending (state later : HandoverState Thread) (lent : Option Word) :
    Prop where
  raw : later.raw = state.raw
  threads : later.threads = state.threads
  foreign : ∀ ptr, later.ledger.foreign ptr = true →
    state.ledger.foreign ptr = true ∨ lent = some ptr

theorem Lending.refl (state : HandoverState Thread) (lent : Option Word) :
    Lending state state lent :=
  ⟨rfl, rfl, fun _ => Or.inl⟩

theorem bootstrapMalloc_lending (state : HandoverState Thread) (size : Nat) :
    Lending state (bootstrapMalloc base state size).1
      (bootstrapMalloc base state size).2 := by
  unfold bootstrapMalloc
  dsimp only
  split
  · exact ⟨rfl, rfl, fun _ => Or.inl⟩
  · refine ⟨rfl, rfl, ?_⟩
    intro ptr later
    by_cases same : ptr = base + state.bootstrapOffset
    · exact Or.inr (congrArg some same.symm)
    · refine Or.inl ?_
      simpa [Ledger.lend, same] using later

theorem rawMalloc_lending {name : RawName} {state later : HandoverState Thread}
    {size : Nat} {reply result : Option Word}
    (called : rawMalloc base name state size reply = some (later, result)) :
    Lending state later (bootstrapLends base state name size) := by
  unfold rawMalloc at called
  split at called
  · cases called
    exact .refl state _
  · rename_i installed
    obtain ⟨rfl, rfl⟩ := Prod.mk.inj (Option.some.inj called)
    simp only [bootstrapLends, installed, if_true]
    exact bootstrapMalloc_lending base state size
  · unfold libcMalloc at called
    split at called
    · cases called
      exact .refl state _
    · split at called
      · cases called
        exact ⟨rfl, rfl, fun _ => Or.inl⟩
      · contradiction
  · contradiction

theorem rawFree_lending {state later : HandoverState Thread} {ptr : Word}
    {checked : Bool} (called : rawFree state ptr checked = some later)
    (lent : Option Word) : Lending state later lent := by
  unfold rawFree at called
  split at called
  · split at called
    · cases called
      exact .refl state lent
    · contradiction
  · cases called
    exact .refl state lent
  · cases called
    exact ⟨rfl, rfl, fun _ => Or.inl⟩
  · contradiction

theorem rawRealloc_lending {state later : HandoverState Thread} {ptr : Word}
    {size : Nat} {reply result : Option Word}
    (called : rawRealloc base state ptr size reply = some (later, result)) :
    Lending state later (bootstrapLends base state .realloc size) := by
  unfold rawRealloc at called
  split at called
  · rename_i installed
    obtain ⟨rfl, rfl⟩ := Prod.mk.inj (Option.some.inj called)
    simp only [bootstrapLends, installed, if_true]
    exact bootstrapMalloc_lending base state size
  · unfold libcRealloc at called
    split at called
    · cases called
      exact ⟨rfl, rfl, fun _ => Or.inl⟩
    · split at called
      · cases called
        exact ⟨rfl, rfl, fun _ => Or.inl⟩
      · contradiction
  · contradiction
  · contradiction

theorem mttEntryNew_lending {state later : HandoverState Thread}
    {env : StepEnv} {entry : Option (Option Word)}
    (created : mttEntryNew base state env = some (later, entry)) :
    Lending state later (entryLends base state env) := by
  unfold mttEntryNew at created
  unfold entryLends
  split at created
  · rename_i pooled
    cases created
    exact .refl state _
  · rename_i pooled
    obtain ⟨⟨allocated, block⟩, called, same⟩ :=
      Option.map_eq_some_iff.mp created
    cases same
    rw [if_neg pooled]
    exact rawMalloc_lending base called

/-! ## One step of a hook -/

/-- A step of a hook lends what its raw call lends, and the hook then returns
blocks that it was returning before or that it has just begun to return. -/
structure TimedStep (state later : HandoverState Thread) (env : StepEnv)
    (point : HookPoint) (next : Continue) : Prop where
  lending : Lending state later (point.lends base state env)
  returns : ∀ pair ∈ next.returns,
    pair ∈ point.returns ∨ pair ∈ point.begins base state env

theorem TimedStep.of_nothing {state later : HandoverState Thread}
    {env : StepEnv} {point : HookPoint} {next : Continue}
    (lending : Lending state later (point.lends base state env))
    (nothing : next.returns = []) :
    TimedStep base state later env point next :=
  ⟨lending, by simp [nothing]⟩

theorem chooseStep_returns (state : HandoverState Thread) (track : Bool)
    (request : HookRequest) :
    ∀ pair ∈ (chooseStep state track request).returns,
      pair ∈ requestReturns request := by
  cases request with
  | nothing => exact fun _ returned => returned
  | alloc size => exact fun _ returned => returned
  | release ptr =>
      simp only [chooseStep]
      split
      · split
        · exact fun _ returned => (List.not_mem_nil returned).elim
        · exact fun _ returned => returned
      · exact fun _ returned => returned
  | resize ptr size =>
      simp only [chooseStep]
      split
      · exact fun _ returned => (List.not_mem_nil returned).elim
      · split
        · exact fun _ returned => (List.not_mem_nil returned).elim
        · exact fun _ returned => returned

theorem dropping_returns (block : Option Word) (next : HookPoint) :
    (HookPoint.dropping block next).returns =
      (block.toList.map fun block => (RawName.free, block)) ++
        next.returns := by
  cases block <;> rfl

section Cases

variable {state later : HandoverState Thread} {env : StepEnv}
  {next : Continue}

theorem mallocRaw_timed {size : Nat} {track : Bool}
    (stepped : pointStep base state env (.mallocRaw size track) =
      some (later, next)) :
    TimedStep base state later env (HookPoint.mallocRaw size track) next := by
  obtain ⟨⟨allocated, ptr⟩, called, same⟩ :=
    Option.map_eq_some_iff.mp stepped
  have lending := rawMalloc_lending base called
  cases ptr with
  | none =>
      cases same
      exact .of_nothing base lending rfl
  | some ptr =>
      cases same
      cases track <;> exact .of_nothing base lending rfl

theorem reallocRaw_timed {ptr : Word} {size : Nat} {found : Bool}
    (stepped : pointStep base state env (.reallocRaw ptr size found) =
      some (later, next)) :
    TimedStep base state later env (HookPoint.reallocRaw ptr size found)
      next := by
  obtain ⟨⟨resized, new⟩, called, same⟩ :=
    Option.map_eq_some_iff.mp stepped
  have lending := rawRealloc_lending base called
  cases new with
  | none =>
      cases same
      exact .of_nothing base lending rfl
  | some new =>
      cases same
      cases found <;> exact .of_nothing base lending rfl

theorem copyRaw_timed {ptr : Word} {size : Nat} {track : Bool}
    (stepped : pointStep base state env (.copyRaw ptr size track) =
      some (later, next)) :
    TimedStep base state later env (HookPoint.copyRaw ptr size track) next := by
  obtain ⟨⟨allocated, new⟩, called, same⟩ :=
    Option.map_eq_some_iff.mp stepped
  have lending := rawMalloc_lending base called
  cases new with
  | none =>
      cases same
      exact .of_nothing base lending rfl
  | some new =>
      cases same
      cases track with
      | false =>
          refine ⟨lending, fun pair returned => Or.inr ?_⟩
          simp only [HookPoint.begins, called]
          exact returned
      | true => exact .of_nothing base lending rfl

theorem copyEntry_timed {old new : Word}
    (stepped : pointStep base state env (.copyEntry old new) =
      some (later, next)) :
    TimedStep base state later env (HookPoint.copyEntry old new) next := by
  obtain ⟨⟨allocated, entry⟩, created, same⟩ :=
    Option.map_eq_some_iff.mp stepped
  have lending := mttEntryNew_lending base created
  cases entry with
  | none =>
      cases same
      refine ⟨lending, fun pair returned => Or.inr ?_⟩
      simp only [HookPoint.begins, created]
      exact returned
  | some block =>
      cases same
      refine ⟨lending, fun pair returned => Or.inr ?_⟩
      simp only [HookPoint.begins, created]
      exact returned

theorem record_timed {ptr : Word}
    (stepped : pointStep base state env (.record ptr) = some (later, next)) :
    TimedStep base state later env (HookPoint.record ptr) next := by
  simp only [pointStep] at stepped
  split at stepped
  · rename_i tracks
    obtain ⟨⟨allocated, entry⟩, created, same⟩ :=
      Option.map_eq_some_iff.mp stepped
    have lending := mttEntryNew_lending base created
    have lends : (HookPoint.record ptr).lends base state env =
        entryLends base state env := if_pos tracks
    cases entry with
    | none =>
        cases same
        exact .of_nothing base (lends ▸ lending) rfl
    | some block =>
        cases same
        exact .of_nothing base (lends ▸ lending) rfl
  · cases stepped
    exact .of_nothing base (.refl state _) rfl

theorem remove_timed {ptr : Word} {after : HookPoint}
    (stepped : pointStep base state env (.remove ptr after) =
      some (later, next)) :
    TimedStep base state later env (HookPoint.remove ptr after) next := by
  simp only [pointStep] at stepped
  split at stepped
  · cases stepped
    exact ⟨.refl state _, fun _ returned => Or.inl returned⟩
  · rename_i dead others taken
    cases stepped
    refine ⟨⟨rfl, rfl, fun _ => Or.inl⟩, fun pair returned => ?_⟩
    have split : pair ∈ (HookPoint.dropping dead.block after).returns :=
      returned
    rw [dropping_returns] at split
    rcases List.mem_append.mp split with dropped | waiting
    · obtain ⟨named, block⟩ := dead
      cases block with
      | none => exact (List.not_mem_nil dropped).elim
      | some block =>
          refine Or.inr ?_
          simp only [HookPoint.begins, taken]
          exact dropped
    · exact Or.inl waiting

theorem insert_timed {ptr : Word} {block : Option Word} {after : HookPoint}
    (stepped : pointStep base state env (.insert ptr block after) =
      some (later, next)) :
    TimedStep base state later env (HookPoint.insert ptr block after) next := by
  simp only [pointStep] at stepped
  split at stepped
  · cases stepped
    exact ⟨⟨rfl, rfl, fun _ => Or.inl⟩, fun _ returned => Or.inl returned⟩
  · rename_i untracked
    cases stepped
    refine ⟨.refl state _, fun pair returned => ?_⟩
    have split : pair ∈ (HookPoint.dropping block after).returns := returned
    rw [dropping_returns] at split
    rcases List.mem_append.mp split with dropped | waiting
    · cases block with
      | none => exact (List.not_mem_nil dropped).elim
      | some block =>
          refine Or.inr ?_
          simp only [HookPoint.begins, if_neg untracked]
          exact dropped
    · exact Or.inl waiting

end Cases

theorem pointStep_timed {state later : HandoverState Thread} {env : StepEnv}
    {point : HookPoint} {next : Continue}
    (stepped : pointStep base state env point = some (later, next)) :
    TimedStep base state later env point next := by
  cases point with
  | resolve pc request => contradiction
  | ready request =>
      cases stepped
      exact ⟨.refl state _, fun pair returned =>
        Or.inl (chooseStep_returns state env.track request pair returned)⟩
  | mallocRaw size track =>
      exact mallocRaw_timed base stepped
  | freeRaw ptr =>
      obtain ⟨freed, called, same⟩ := Option.map_eq_some_iff.mp stepped
      cases same
      exact .of_nothing base (rawFree_lending called _) rfl
  | reallocRaw ptr size found =>
      exact reallocRaw_timed base stepped
  | copyRaw ptr size track =>
      exact copyRaw_timed base stepped
  | copyEntry old new =>
      exact copyEntry_timed base stepped
  | copyUndo old new =>
      obtain ⟨freed, called, same⟩ := Option.map_eq_some_iff.mp stepped
      cases same
      exact .of_nothing base (rawFree_lending called _) rfl
  | copyFree old new checked =>
      obtain ⟨freed, called, same⟩ := Option.map_eq_some_iff.mp stepped
      cases same
      exact .of_nothing base (rawFree_lending called _) rfl
  | record ptr =>
      exact record_timed base stepped
  | remove ptr next =>
      exact remove_timed base stepped
  | drop block next =>
      obtain ⟨freed, called, same⟩ := Option.map_eq_some_iff.mp stepped
      cases same
      exact ⟨rawFree_lending called _, fun _ returned =>
        Or.inl (List.mem_cons_of_mem _ returned)⟩
  | insert ptr block next =>
      exact insert_timed base stepped
  | done ptr =>
      cases stepped
      exact .of_nothing base (.refl state _) rfl

theorem mttResolveStep_installs {raw : RawState} {resolving : Bool}
    {reply : LinkerReply} {pc : ResolvePc} {name : RawName}
    (libc : (mttResolveStep raw resolving reply pc).1.raw name = some .libc) :
    raw.raw name = some .libc ∨ installs reply pc = some name := by
  cases pc with
  | prefill other rest =>
      refine Or.inl ?_
      by_cases same : name = other
      · subst same
        simp [mttResolveStep, RawState.store] at libc
      · exact (raw.store_other _ same).symm.trans libc
  | cas =>
      simp only [mttResolveStep] at libc
      split at libc <;> exact Or.inl libc
  | safeSet other rest =>
      simp only [mttResolveStep, rawSafeSet] at libc
      split at libc
      · exact Or.inl libc
      · rename_i fn found
        split at libc
        · rename_i kept
          by_cases same : name = other
          · subst same
            obtain rfl : fn = .libc := by simpa using libc
            refine Or.inr ?_
            have placed : reply.dladdr = true := by simpa using kept
            simp [installs, found, placed]
          · exact Or.inl ((raw.store_other _ same).symm.trans libc)
        · exact Or.inl libc
  | refill candidate other rest =>
      simp only [mttResolveStep] at libc
      split at libc
      · exact Or.inl libc
      · rename_i fn found
        by_cases same : name = other
        · subst same
          obtain rfl : fn = .libc := by simpa using libc
          exact Or.inr (by simp [installs, found])
        · exact Or.inl ((raw.store_other _ same).symm.trans libc)
  | loadReady | loadMalloc | test | dlopen | retest | confirm | publish
  | returned => exact Or.inl libc

/-! ## One step of the system -/

/-- What a step does to the pointers, to the blocks of the bootstrap allocator
and to the blocks that hooks are on their way to give back. -/
structure TimedTransition (state target : HandoverState Thread)
    (label : HandoverLabel Thread) : Prop where
  raw : ∀ name, target.raw.raw name = some .libc →
    state.raw.raw name = some .libc ∨ label.installs state = some name
  foreign : ∀ ptr, target.ledger.foreign ptr = true →
    state.ledger.foreign ptr = true ∨ label.lends base state = some ptr
  returning : ∀ thread, ∀ pair ∈ target.returning thread,
    pair ∈ state.returning thread ∨ pair ∈ label.begins base state

/-- No hook is on its way to pass a block of the bootstrap allocator to
libc. -/
def Uncrossed (state : HandoverState Thread) : Prop :=
  ∀ thread, ∀ pair ∈ state.returning thread,
    state.raw.raw pair.1 = some .libc → state.ledger.foreign pair.2 = false

theorem HandoverLabel.installs_resolves {state : HandoverState Thread}
    {label : HandoverLabel Thread} {name : RawName}
    (installed : label.installs state = some name) :
    label.begins base state = [] ∧ label.lends base state = none := by
  cases label with
  | step thread env =>
      simp only [HandoverLabel.installs] at installed
      split at installed
      · rename_i active
        simp [HandoverLabel.begins, HandoverLabel.lends, active,
          HookPoint.begins, HookPoint.lends]
      · contradiction
  | call | keep | keepBootstrap | giveBack => contradiction

theorem Uncrossed.step {state target : HandoverState Thread}
    {label : HandoverLabel Thread} (uncrossed : Uncrossed state)
    (inTime : ReturnsInTime base state label)
    (moved : TimedTransition base state target label) : Uncrossed target := by
  intro thread pair returned libc
  rw [← Bool.not_eq_true]
  intro foreign
  have origin := moved.returning thread pair returned
  rcases moved.raw pair.1 libc with before | installed
  · rcases moved.foreign pair.2 foreign with known | lent
    · have native : state.ledger.foreign pair.2 = false := by
        rcases origin with waiting | begun
        · exact uncrossed thread pair waiting before
        · exact inTime.begun pair begun before
      simp [native] at known
    · have member :
          pair ∈ label.begins base state ++ state.returning thread :=
        List.mem_append.mpr origin.symm
      exact inTime.lent thread pair member before lent
  · obtain ⟨nothing, none⟩ := HandoverLabel.installs_resolves base installed
    have waiting : pair ∈ state.returning thread := by
      simpa [nothing] using origin
    have native := inTime.installed thread pair waiting installed
    have known : state.ledger.foreign pair.2 = true := by
      simpa [none] using moved.foreign pair.2 foreign
    simp [native] at known

/-- The block that a step gives back was on its way, or is given back at
once. -/
theorem gives_mem_returning {state : HandoverState Thread}
    {label : HandoverLabel Thread} {pair : RawName × Word}
    (gives : label.gives state = some pair) :
    (∃ thread, pair ∈ state.returning thread) ∨
      pair ∈ label.begins base state := by
  cases label with
  | step thread env =>
      refine Or.inl ⟨thread, ?_⟩
      obtain ⟨point, first, given⟩ := Option.bind_eq_some_iff.mp gives
      obtain ⟨outer, active⟩ := List.head?_eq_some_iff.mp first
      have returned : pair ∈ point.returns := by
        cases point with
        | freeRaw | reallocRaw | copyUndo | copyFree | drop =>
            cases given
            simp [HookPoint.returns]
        | resolve | ready | mallocRaw | copyRaw | copyEntry | record | remove
        | insert | done => contradiction
      unfold HandoverState.returning framesReturns
      rw [active]
      exact List.mem_append_left _ returned
  | giveBack ptr =>
      cases gives
      exact Or.inr (List.mem_singleton_self _)
  | call | keep | keepBootstrap => contradiction

theorem Uncrossed.givesBackInTime {state : HandoverState Thread}
    {label : HandoverLabel Thread} (uncrossed : Uncrossed state)
    (inTime : ReturnsInTime base state label) :
    GivesBackInTime state label := by
  unfold GivesBackInTime
  cases gives : label.gives state with
  | none => rfl
  | some pair =>
      have native : state.raw.raw pair.1 = some .libc →
          state.ledger.foreign pair.2 = false := by
        rcases gives_mem_returning base gives with ⟨thread, waiting⟩ | begun
        · exact uncrossed thread pair waiting
        · exact inTime.begun pair begun
      simpa [crossesOver] using native

section Runs

variable [DecidableEq Thread]

theorem returning_setThread (state : HandoverState Thread) (thread : Thread)
    (caller : HookThread) :
    (state.setThread thread caller).returning =
      Function.update state.returning thread (framesReturns caller.frames) := by
  funext other
  by_cases same : other = thread
  · subst same
    simp [HandoverState.returning, HandoverState.setThread]
  · simp [HandoverState.returning, HandoverState.setThread, same]

theorem mem_returning_setThread {state later : HandoverState Thread}
    {thread other : Thread} {caller : HookThread} {pair : RawName × Word}
    (threads : later.threads = state.threads)
    (returned : pair ∈ (later.setThread thread caller).returning other) :
    pair ∈ state.returning other ∨
      other = thread ∧ pair ∈ framesReturns caller.frames := by
  rw [returning_setThread] at returned
  by_cases same : other = thread
  · subst same
    rw [Function.update_self] at returned
    exact Or.inr ⟨rfl, returned⟩
  · rw [Function.update_of_ne same] at returned
    refine Or.inl ?_
    unfold HandoverState.returning at returned ⊢
    rwa [threads] at returned

/-- A call puts one hook more on its way. -/
theorem enter_timed {state given : HandoverState Thread} {thread : Thread}
    {label : HandoverLabel Thread} {request : HookRequest}
    (raw : given.raw = state.raw) (ledger : given.ledger = state.ledger)
    (threads : given.threads = state.threads)
    (begun : ∀ pair ∈ requestReturns request,
      pair ∈ label.begins base state) :
    TimedTransition base state (given.enter thread request) label := by
  refine ⟨fun name libc => Or.inl (raw ▸ libc),
    fun ptr foreign => Or.inl (ledger ▸ foreign), ?_⟩
  intro other pair returned
  rcases mem_returning_setThread threads returned with waiting | ⟨rfl, entered⟩
  · exact Or.inl waiting
  · rcases List.mem_append.mp entered with first | outer
    · exact Or.inr (begun pair first)
    · rw [threads] at outer
      exact Or.inl outer

theorem enterHook_timed {state target : HandoverState Thread}
    {thread : Thread} {made : Sequential.AllocCall} {inPool : Bool}
    {asked : HookRequest} (requested : request made = some asked)
    (entered : enterHook state thread inPool asked = some target) :
    TimedTransition base state target (.call thread made inPool) := by
  cases asked with
  | nothing =>
      cases entered
      exact enter_timed base rfl rfl rfl fun _ returned =>
        (List.not_mem_nil returned).elim
  | alloc size =>
      cases entered
      exact enter_timed base rfl rfl rfl fun _ returned =>
        (List.not_mem_nil returned).elim
  | release ptr =>
      simp only [enterHook] at entered
      split at entered
      · cases inPool with
        | true =>
            cases entered
            exact ⟨fun _ => Or.inl, fun _ => Or.inl, fun _ _ => Or.inl⟩
        | false =>
            cases entered
            refine enter_timed base rfl rfl rfl fun pair returned => ?_
            simpa [HandoverLabel.begins, requested, requestReturns]
              using returned
      · contradiction
  | resize ptr size =>
      simp only [enterHook] at entered
      split at entered
      · cases entered
        refine enter_timed base rfl rfl rfl fun pair returned => ?_
        simpa [HandoverLabel.begins, requested, requestReturns] using returned
      · contradiction

theorem resolveStep_timed {state target : HandoverState Thread}
    {thread : Thread} {env : StepEnv} {pc : ResolvePc}
    {asked : HookRequest} {outer : List HookPoint}
    (active : (state.threads thread).frames = .resolve pc asked :: outer)
    (stepped : resolveStep state thread env.linker pc asked outer =
      some target) :
    TimedTransition base state target (.step thread env) := by
  have same : ∀ later : ResolvePc,
      framesReturns (.resolve later asked :: outer) =
        state.returning thread := by
    intro later
    unfold HandoverState.returning
    rw [active]
    rfl
  unfold resolveStep at stepped
  split at stepped
  · cases stepped
    refine ⟨fun _ => Or.inl, fun _ => Or.inl, ?_⟩
    intro other pair returned
    rcases mem_returning_setThread rfl returned with waiting | ⟨rfl, entered⟩
    · exact Or.inl waiting
    · exact Or.inl (same pc ▸ entered)
  · split at stepped
    · have installed : ∀ name,
          (mttResolveStep state.raw (state.threads thread).resolving
            env.linker pc).1.raw name = some .libc →
          state.raw.raw name = some .libc ∨
            installs env.linker pc = some name :=
        fun _ => mttResolveStep_installs
      generalize mttResolveStep state.raw (state.threads thread).resolving
        env.linker pc = outcome at stepped installed
      obtain ⟨raw, resolving, later⟩ := outcome
      obtain rfl := Option.some.inj stepped
      refine ⟨fun name libc => ?_, fun _ => Or.inl, ?_⟩
      · simpa [HandoverLabel.installs, active] using installed name libc
      · intro other pair returned
        rcases mem_returning_setThread rfl returned with
          waiting | ⟨rfl, entered⟩
        · exact Or.inl waiting
        · exact Or.inl (same later ▸ entered)
    · contradiction

theorem framesReturns_continue (next : Continue) (outer : List HookPoint) :
    framesReturns (next.frames ++ outer) =
      next.returns ++ framesReturns outer := by
  cases next <;> rfl

theorem threadStep_timed {state target : HandoverState Thread}
    {thread : Thread} {env : StepEnv}
    (stepped : threadStep base state thread env = some target) :
    TimedTransition base state target (.step thread env) := by
  unfold threadStep at stepped
  split at stepped
  · contradiction
  · rename_i pc asked outer active
    exact resolveStep_timed base active stepped
  · rename_i point outer _ active
    obtain ⟨⟨later, next⟩, moved, rfl⟩ := Option.map_eq_some_iff.mp stepped
    have timed := pointStep_timed base moved
    refine ⟨fun name libc => ?_, fun ptr foreign => ?_, ?_⟩
    · have libc : later.raw.raw name = some .libc := libc
      exact Or.inl (timed.lending.raw ▸ libc)
    · simpa [HandoverLabel.lends, active] using
        timed.lending.foreign ptr foreign
    · intro other pair returned
      rcases mem_returning_setThread timed.lending.threads
        returned with waiting | ⟨rfl, entered⟩
      · exact Or.inl waiting
      · have returning : state.returning other =
            point.returns ++ framesReturns outer := by
          unfold HandoverState.returning
          rw [active]
          rfl
        have begins : (HandoverLabel.step other env).begins base state =
            point.begins base state env := by
          simp [HandoverLabel.begins, active]
        rw [returning, begins]
        rw [framesReturns_continue] at entered
        rcases List.mem_append.mp entered with first | rest
        · exact (timed.returns pair first).imp_left
            (List.mem_append_left _)
        · exact Or.inl (List.mem_append_right _ rest)

theorem handoverNext_timed {state target : HandoverState Thread}
    {label : HandoverLabel Thread}
    (taken : handoverNext base state label = some target) :
    TimedTransition base state target label := by
  have unchanged : ∀ {later : HandoverState Thread} {lent : Option Word},
      Lending state later lent →
      label.lends base state = lent →
      ∀ kept, TimedTransition base state { later with kept := kept } label := by
    intro later lent lending lends kept
    refine ⟨fun name libc => Or.inl ?_, fun ptr foreign => ?_, ?_⟩
    · rw [← lending.raw]
      exact libc
    · rw [lends]
      exact lending.foreign ptr foreign
    · intro thread pair returned
      unfold HandoverState.returning at returned ⊢
      rw [← lending.threads]
      exact Or.inl returned
  cases label with
  | call thread made inPool =>
      simp only [handoverNext] at taken
      split at taken
      · split at taken
        · cases taken
          exact ⟨fun _ => Or.inl, fun _ => Or.inl, fun _ _ => Or.inl⟩
        · rename_i asked requested
          exact enterHook_timed base requested taken
      · contradiction
  | step thread env => exact threadStep_timed base taken
  | keep name size reply =>
      obtain ⟨⟨allocated, block⟩, called, rfl⟩ :=
        Option.map_eq_some_iff.mp taken
      exact unchanged (rawMalloc_lending base called) rfl _
  | keepBootstrap size =>
      cases taken
      exact unchanged (bootstrapMalloc_lending base state size) rfl _
  | giveBack ptr =>
      simp only [handoverNext] at taken
      split at taken
      · have lending := rawFree_lending taken none
        exact unchanged
          ⟨lending.raw, lending.threads, lending.foreign⟩ rfl target.kept
      · contradiction

theorem uncrossed_initial {state : HandoverState Thread}
    (initial : (handoverSystem base Thread).init state) : Uncrossed state := by
  obtain ⟨-, -, -, -, -, -, -, frames⟩ := initial
  intro thread pair returned
  unfold HandoverState.returning at returned
  rw [frames thread] at returned
  exact (List.not_mem_nil returned).elim

variable [Fintype Thread]

theorem handoverInvariant_reachable {state : HandoverState Thread}
    (reachable : (handoverSystem base Thread).ReachableBy
      (ReturnsInTime base) state) :
    HandoverInvariant state ∧ Uncrossed state := by
  apply reachable.invariant fun state =>
    HandoverInvariant state ∧ Uncrossed state
  · intro state initial
    exact ⟨handoverInvariant_initial base initial,
      uncrossed_initial base initial⟩
  · intro state label target ⟨inv, uncrossed⟩ inTime taken
    exact ⟨handoverInvariant_step base inv
        (uncrossed.givesBackInTime base inTime) taken,
      uncrossed.step base inTime (handoverNext_timed base taken)⟩

/-- As long as blocks of the bootstrap allocator start on their way back in
time, `free` and `realloc` of libc only get live blocks of libc. -/
theorem libc_given_live_blocks {state : HandoverState Thread}
    (reachable : (handoverSystem base Thread).ReachableBy
      (ReturnsInTime base) state) : state.misused = [] :=
  (handoverInvariant_reachable base reachable).1.proper

end Runs

/-! ## Two runs of one thread -/

def bufferBase : Word := 0x10000#64

def heapBlock : Word := 0x50000#64

def handoverStart : HandoverState Worker :=
  { raw := RawState.initial
    bootstrapOffset := 0
    ledger := ⟨fun _ => false, fun _ => false⟩
    misused := []
    hands := []
    kept := []
    entries := []
    threads := fun _ => ⟨[], false⟩ }

theorem handoverStart_init :
    (handoverSystem bufferBase Worker).init handoverStart :=
  ⟨rfl, rfl, fun _ => rfl, rfl, rfl, rfl, rfl, fun _ => rfl⟩

/-- The linker finds libc, libc returns `heapBlock`, and no hook tracks. -/
def libcEnv : StepEnv :=
  { linker := libcReply
    reply := some heapBlock
    track := false
    pooled := false }

def steps (count : Nat) : List (HandoverLabel Worker) :=
  List.replicate count (.step .first libcEnv)

/-- The first `malloc` resolves the pointers; the dynamic linker allocates
within `dlsym`. -/
def allocateInDlsym : List (HandoverLabel Worker) :=
  .call .first (.malloc 24) false :: steps 7 ++
    .call .first (.malloc 100) false :: steps 6

def finishResolution : List (HandoverLabel Worker) :=
  steps 14

def freeResolved (ptr : Word) : List (HandoverLabel Worker) :=
  .call .first (.free ptr) false :: steps 4

def freeUnresolved (ptr : Word) : List (HandoverLabel Worker) :=
  .call .first (.free ptr) false :: steps 5

/-- The linker frees its block before `raw_free` is replaced, and the
application frees the block of libc. -/
theorem libc_given_live_blocks_freeInDlsym :
    ∃ state,
      (handoverSystem bufferBase Worker).ReachableBy
        (ReturnsInTime bufferBase) state ∧
      (state.ledger.foreign bufferBase && state.hands.isEmpty &&
        state.raw.raw .free == some .libc) = true ∧
      state.misused = [] := by
  obtain ⟨state, reachable, resolved⟩ :=
    System.exists_reachableBy_of_runBy (handoverSystem bufferBase Worker)
      (ReturnsInTime bufferBase)
      (fun state => state.ledger.foreign bufferBase && state.hands.isEmpty &&
        state.raw.raw .free == some .libc)
      (allocateInDlsym ++ freeUnresolved bufferBase ++ finishResolution ++
        freeResolved heapBlock)
      handoverStart_init (by decide +kernel)
  exact ⟨state, reachable, resolved, libc_given_live_blocks _ reachable⟩

/-- The block that `dlsym` allocated is freed after the resolution. -/
theorem libc_given_bootstrap_block :
    ¬ ∀ state,
      (handoverSystem bufferBase Worker).Reachable state →
      state.misused = [] := by
  intro claimed
  obtain ⟨state, reachable, misused⟩ :=
    System.exists_reachable_of_run (handoverSystem bufferBase Worker)
      (fun state => state.misused == [bufferBase])
      (allocateInDlsym ++ finishResolution ++ freeResolved bufferBase)
      handoverStart_init (by decide +kernel)
  rw [beq_iff_eq, claimed state reachable] at misused
  contradiction

end MemoryTraceTool.Handover
