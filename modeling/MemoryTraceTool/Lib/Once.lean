import MemoryTraceTool.Lib.Transition

/-!
# Double-checked initialisation

Any number of threads call a function that makes some stores without a lock,
tests a flag, makes more stores, takes a lock, tests the flag again, writes the
configuration one store after the other, sets the flag, and starts services
after it has let go of the lock.  Whatever the interleaving, the stores under
the lock are made once, before the flag is set; the others are made again by
every call that comes to them.
-/

namespace Once

open Transition

/-- What one call writes, in order: `early` before it tests the flag, `prepare`
when it finds it unset, from what it reads then, and `stores` under the lock,
from what it has read and what it finds.  What it starts afterwards depends on
the configuration. -/
structure Recipe (Config : Type u) (Outcome : Type v) (Service : Type w) where
  start : Config
  early : Outcome → List (Config → Config)
  prepare : Outcome → List (Config → Config)
  stores : Outcome → Outcome → List (Config → Config)
  services : Config → List Service

/-- Where a thread is in a call. -/
inductive Pc (Config : Type u) (Outcome : Type v) (Service : Type w) where
  | idle
  | early (stores : List (Config → Config))
  | enter
  | prepare (read : Outcome) (stores : List (Config → Config))
  | acquire (read : Outcome)
  | recheck (read : Outcome)
  | write (stores : List (Config → Config))
  | publish
  | leave (ran : Bool)
  | serve (services : List Service)
  | returned

/-- A thread that came to the stores under the lock, what it had read, and
what it found. -/
structure Performance (Thread : Type x) (Outcome : Type v) where
  thread : Thread
  read : Outcome
  found : Outcome

/-- A service is started with what its thread finds then. -/
structure State (Thread : Type x) (Config : Type u) (Outcome : Type v)
    (Service : Type w) where
  flag : Bool
  owner : Option Thread
  config : Config
  started : List (Service × Outcome)
  performed : List (Performance Thread Outcome)
  threads : Thread → Pc Config Outcome Service

/-- A call, or a step of a call, with what it finds outside. -/
inductive Label (Thread : Type x) (Outcome : Type v) where
  | call (thread : Thread) (outcome : Outcome)
  | step (thread : Thread) (outcome : Outcome)

def Label.outcome {Thread : Type x} {Outcome : Type v} :
    Label Thread Outcome → Outcome
  | .call _ outcome => outcome
  | .step _ outcome => outcome

variable {Thread : Type x} {Config : Type u} {Outcome : Type v}
  {Service : Type w} {Core : Type y}

/-- Make some stores. -/
def applyAll (config : Config) (stores : List (Config → Config)) : Config :=
  stores.foldl (fun config store => store config) config

theorem applyAll_cons (config : Config) (store : Config → Config)
    (rest : List (Config → Config)) :
    applyAll config (store :: rest) = applyAll (store config) rest :=
  rfl

theorem applyAll_append (config : Config)
    (first second : List (Config → Config)) :
    applyAll config (first ++ second) =
      applyAll (applyAll config first) second :=
  List.foldl_append

/-- What is left when all stores under the lock are made. -/
def Recipe.complete (recipe : Recipe Config Outcome Service)
    (read found : Outcome) : Config :=
  applyAll recipe.start (recipe.stores read found)

section Steps

variable [DecidableEq Thread]

def State.move (state : State Thread Config Outcome Service)
    (thread : Thread) (pc : Pc Config Outcome Service) :
    State Thread Config Outcome Service :=
  { state with threads := Function.update state.threads thread pc }

/-- One step of a call. -/
def step (recipe : Recipe Config Outcome Service)
    (state : State Thread Config Outcome Service) (thread : Thread)
    (outcome : Outcome) : Option (State Thread Config Outcome Service) :=
  match state.threads thread with
  | .idle | .returned => none
  | .early [] => some (state.move thread .enter)
  | .early (store :: rest) =>
      some { state.move thread (.early rest) with
        config := store state.config }
  | .enter =>
      some (state.move thread
        (if state.flag then .returned
        else .prepare outcome (recipe.prepare outcome)))
  | .prepare read [] => some (state.move thread (.acquire read))
  | .prepare read (store :: rest) =>
      some { state.move thread (.prepare read rest) with
        config := store state.config }
  | .acquire read =>
      if state.owner.isNone then
        some { state.move thread (.recheck read) with owner := some thread }
      else none
  | .recheck read =>
      if state.flag then some (state.move thread (.leave false))
      else
        some { state.move thread (.write (recipe.stores read outcome)) with
          performed := { thread, read, found := outcome } ::
            state.performed }
  | .write [] => some (state.move thread .publish)
  | .write (store :: rest) =>
      some { state.move thread (.write rest) with
        config := store state.config }
  | .publish =>
      some { state.move thread (.leave true) with flag := true }
  | .leave ran =>
      some { state.move thread
          (if ran then .serve (recipe.services state.config)
          else .returned) with
        owner := none }
  | .serve [] => some (state.move thread .returned)
  | .serve (service :: rest) =>
      some { state.move thread (.serve rest) with
        started := state.started ++ [(service, outcome)] }

/-- The calls of all threads interleave step by step. -/
def next (recipe : Recipe Config Outcome Service)
    (state : State Thread Config Outcome Service) :
    Label Thread Outcome → Option (State Thread Config Outcome Service)
  | .call thread outcome =>
      match state.threads thread with
      | .idle | .returned =>
          some (state.move thread (.early (recipe.early outcome)))
      | _ => none
  | .step thread outcome => step recipe state thread outcome

/-- Nothing has been called yet. -/
def system (recipe : Recipe Config Outcome Service) :
    System (State Thread Config Outcome Service) (Label Thread Outcome) where
  init := fun state =>
    state.flag = false ∧ state.owner = none ∧ state.config = recipe.start ∧
      state.started = [] ∧ state.performed = [] ∧
      ∀ thread, state.threads thread = .idle
  next := next recipe

end Steps

def Pc.isReturned : Pc Config Outcome Service → Bool
  | .returned => true
  | _ => false

theorem Pc.eq_returned {pc : Pc Config Outcome Service}
    (returned : pc.isReturned = true) : pc = .returned := by
  cases pc with
  | returned => rfl
  | _ => contradiction

/-! ## The part of the configuration under the lock -/

/-- The stores without the lock leave the core alone, and those under the lock
and the services depend on nothing else. -/
structure Separate (recipe : Recipe Config Outcome Service)
    (core : Config → Core) : Prop where
  early : ∀ outcome, ∀ store ∈ recipe.early outcome, ∀ config,
    core (store config) = core config
  prepare : ∀ outcome, ∀ store ∈ recipe.prepare outcome, ∀ config,
    core (store config) = core config
  stores : ∀ read found, ∀ store ∈ recipe.stores read found,
    ∀ first second, core first = core second →
      core (store first) = core (store second)
  services : ∀ first second, core first = core second →
    recipe.services first = recipe.services second

/-! ## The invariant -/

/-- The thread has the lock. -/
def Pc.holds : Pc Config Outcome Service → Bool
  | .recheck _ | .write _ | .publish | .leave _ => true
  | _ => false

/-- The thread has come to the stores under the lock. -/
def Pc.ran : Pc Config Outcome Service → Bool
  | .write _ | .publish | .leave true | .serve _ => true
  | _ => false

/-- The thread is before or at the write to the flag. -/
def Pc.writes : Pc Config Outcome Service → Bool
  | .write _ | .publish => true
  | _ => false

/-- The thread needs nothing more of the configuration. -/
def Pc.passed : Pc Config Outcome Service → Bool
  | .returned | .leave false => true
  | _ => false

/-- What the thread still has to start. -/
def Pc.pending (services : List Service) :
    Pc Config Outcome Service → List Service
  | .leave true => services
  | .serve rest => rest
  | _ => []

/-- The stores that the thread makes without the lock. -/
def Pc.loose : Pc Config Outcome Service → List (Config → Config)
  | .early rest => rest
  | .prepare _ rest => rest
  | _ => []

/-- Nobody has come to the stores. -/
structure Fresh (recipe : Recipe Config Outcome Service)
    (core : Config → Core) (state : State Thread Config Outcome Service) :
    Prop where
  flag : state.flag = false
  config : core state.config = core recipe.start
  started : state.started = []
  performed : state.performed = []
  unreached : ∀ thread, (state.threads thread).ran = false
  unpassed : ∀ thread, (state.threads thread).passed = false

/-- One thread is making the stores. -/
structure Working (recipe : Recipe Config Outcome Service)
    (core : Config → Core) (state : State Thread Config Outcome Service)
    (performance : Performance Thread Outcome) : Prop where
  flag : state.flag = false
  started : state.started = []
  performed : state.performed = [performance]
  config : ∃ made rest,
    recipe.stores performance.read performance.found = made ++ rest ∧
    core state.config = core (applyAll recipe.start made) ∧
    (state.threads performance.thread = .write rest ∨
      rest = [] ∧ state.threads performance.thread = .publish)
  unreached : ∀ other, other ≠ performance.thread →
    (state.threads other).ran = false
  unpassed : ∀ other, (state.threads other).passed = false

/-- The stores are made and the flag is set. -/
structure Published (recipe : Recipe Config Outcome Service)
    (core : Config → Core) (state : State Thread Config Outcome Service)
    (performance : Performance Thread Outcome) : Prop where
  flag : state.flag = true
  config : core state.config =
    core (recipe.complete performance.read performance.found)
  performed : state.performed = [performance]
  started : state.started.map Prod.fst ++
      (state.threads performance.thread).pending
        (recipe.services state.config) =
    recipe.services state.config
  written : (state.threads performance.thread).writes = false
  unreached : ∀ other, other ≠ performance.thread →
    (state.threads other).ran = false

inductive Phase (recipe : Recipe Config Outcome Service)
    (core : Config → Core) (state : State Thread Config Outcome Service) :
    Prop where
  | fresh (fresh : Fresh recipe core state)
  | working {performance} (working : Working recipe core state performance)
  | published {performance}
      (published : Published recipe core state performance)

/-- What holds between the steps of all calls. -/
structure Invariant (recipe : Recipe Config Outcome Service)
    (core : Config → Core) (state : State Thread Config Outcome Service) :
    Prop where
  locked : ∀ thread, (state.threads thread).holds = true →
    state.owner = some thread
  loose : ∀ thread, ∀ store ∈ (state.threads thread).loose, ∀ config,
    core (store config) = core config
  phase : Phase recipe core state

section Moves

variable [DecidableEq Thread] {recipe : Recipe Config Outcome Service}
  {core : Config → Core}
  {state target : State Thread Config Outcome Service} {thread : Thread}
  {pc : Pc Config Outcome Service} {outcome : Outcome}
  {performance : Performance Thread Outcome}

@[simp]
theorem move_threads_self :
    (state.move thread pc).threads thread = pc :=
  Function.update_self ..

theorem move_threads_other {other : Thread} (different : other ≠ thread) :
    (state.move thread pc).threads other = state.threads other :=
  Function.update_of_ne different ..

@[simp] theorem move_config : (state.move thread pc).config = state.config :=
  rfl

@[simp] theorem move_started :
    (state.move thread pc).started = state.started := rfl

@[simp] theorem move_flag : (state.move thread pc).flag = state.flag := rfl

@[simp] theorem move_performed :
    (state.move thread pc).performed = state.performed := rfl

@[simp] theorem move_owner : (state.move thread pc).owner = state.owner :=
  rfl

/-- What holds of the new position and held of all others holds of all. -/
theorem forall_move (property : Thread → Pc Config Outcome Service → Prop)
    (mine : property thread pc)
    (others : ∀ other, other ≠ thread → property other (state.threads other))
    (other : Thread) :
    property other ((state.move thread pc).threads other) := by
  by_cases same : other = thread
  · subst same
    rw [move_threads_self]
    exact mine
  · rw [move_threads_other same]
    exact others other same

theorem Invariant.locked_move (invariant : Invariant recipe core state)
    (threads : target.threads = (state.move thread pc).threads)
    (mine : pc.holds = true → target.owner = some thread)
    (kept : ∀ other, other ≠ thread → state.owner = some other →
      target.owner = some other) (other : Thread) :
    (target.threads other).holds = true → target.owner = some other := by
  rw [threads]
  exact forall_move (fun other pc =>
    pc.holds = true → target.owner = some other) mine
    (fun other different holds =>
      kept other different (invariant.locked other holds)) other

theorem Invariant.loose_move (invariant : Invariant recipe core state)
    (threads : target.threads = (state.move thread pc).threads)
    (mine : ∀ store ∈ pc.loose, ∀ config, core (store config) = core config)
    (other : Thread) :
    ∀ store ∈ (target.threads other).loose, ∀ config,
      core (store config) = core config := by
  rw [threads]
  exact forall_move (fun _ pc => ∀ store ∈ Pc.loose pc,
    ∀ config, core (store config) = core config) mine
    (fun other _ => invariant.loose other) other

theorem Fresh.move (fresh : Fresh recipe core state) (ran : pc.ran = false)
    (going : pc.passed = false) (owner : Option Thread) {config : Config}
    (same : core config = core state.config) :
    Fresh recipe core { state.move thread pc with owner, config } where
  flag := fresh.flag
  config := same.trans fresh.config
  started := fresh.started
  performed := fresh.performed
  unreached := forall_move (fun _ pc => pc.ran = false) ran
    fun other _ => fresh.unreached other
  unpassed := forall_move (fun _ pc => pc.passed = false) going
    fun other _ => fresh.unpassed other

/-- Another thread moves while one makes the stores. -/
theorem Working.move (working : Working recipe core state performance)
    (different : thread ≠ performance.thread) (ran : pc.ran = false)
    (going : pc.passed = false) (owner : Option Thread) {config : Config}
    (same : core config = core state.config) :
    Working recipe core { state.move thread pc with owner, config }
      performance where
  flag := working.flag
  started := working.started
  performed := working.performed
  config := by
    obtain ⟨made, rest, stores, written, position⟩ := working.config
    refine ⟨made, rest, stores, same.trans written, ?_⟩
    simpa [move_threads_other different.symm] using position
  unreached := forall_move (fun other pc =>
    other ≠ performance.thread → pc.ran = false) (fun _ => ran)
    fun other _ => working.unreached other
  unpassed := forall_move (fun _ pc => pc.passed = false) going
    fun other _ => working.unpassed other

/-- A thread moves after the flag was set. -/
theorem Published.move (separate : Separate recipe core)
    (published : Published recipe core state performance)
    (mine : thread = performance.thread →
      (∀ services, pc.pending services =
        (state.threads thread).pending services) ∧ pc.writes = false)
    (others : thread ≠ performance.thread → pc.ran = false)
    (owner : Option Thread) {config : Config}
    (same : core config = core state.config) :
    Published recipe core { state.move thread pc with owner, config }
      performance where
  flag := published.flag
  config := same.trans published.config
  performed := published.performed
  started := by
    have started := published.started
    rw [← separate.services _ _ same] at started
    by_cases itself : thread = performance.thread
    · subst itself
      simpa [(mine rfl).1] using started
    · simpa [move_threads_other (Ne.symm itself)] using started
  written := by
    by_cases itself : thread = performance.thread
    · subst itself
      simpa using (mine rfl).2
    · simpa [move_threads_other (Ne.symm itself)] using published.written
  unreached := forall_move (fun other pc =>
    other ≠ performance.thread → pc.ran = false) others
    fun other _ => published.unreached other

omit [DecidableEq Thread] in
theorem Working.writes (working : Working recipe core state performance) :
    (state.threads performance.thread).writes = true := by
  obtain ⟨_, _, _, _, position | ⟨_, position⟩⟩ := working.config
  · rw [position]
    rfl
  · rw [position]
    rfl

theorem Pc.holds_of_writes (writes : pc.writes = true) : pc.holds = true := by
  cases pc with
  | write stores => rfl
  | publish => rfl
  | _ => simp [Pc.writes] at writes

theorem Pc.ran_of_writes (writes : pc.writes = true) : pc.ran = true := by
  cases pc with
  | write stores => rfl
  | publish => rfl
  | _ => simp [Pc.writes] at writes

/-- A thread that has not come to the stores neither writes nor starts. -/
theorem Pc.quiet_of_not_ran (unran : pc.ran = false) :
    pc.writes = false ∧ ∀ services, pc.pending services = [] := by
  cases pc with
  | leave ran =>
      cases ran with
      | false => exact ⟨rfl, fun _ => rfl⟩
      | true => simp [Pc.ran] at unran
  | write stores => simp [Pc.ran] at unran
  | publish => simp [Pc.ran] at unran
  | serve services => simp [Pc.ran] at unran
  | _ => exact ⟨rfl, fun _ => rfl⟩

/-- A call begins, or a thread moves that has not come to the stores. -/
theorem Phase.move (separate : Separate recipe core)
    (phase : Phase recipe core state)
    (unreached : (state.threads thread).ran = false)
    (ran : pc.ran = false) (passes : pc.passed = true → state.flag = true)
    (owner : Option Thread) {config : Config}
    (same : core config = core state.config) :
    Phase recipe core { state.move thread pc with owner, config } := by
  have going : state.flag = false → pc.passed = false := by
    intro unset
    rw [Bool.eq_false_iff]
    intro passed
    rw [passes passed] at unset
    contradiction
  cases phase with
  | fresh fresh => exact .fresh (fresh.move ran (going fresh.flag) owner same)
  | working working =>
      refine .working (working.move ?_ ran (going working.flag) owner same)
      intro itself
      rw [itself, Pc.ran_of_writes working.writes] at unreached
      contradiction
  | published published =>
      refine .published
        (published.move separate ?_ (fun _ => ran) owner same)
      intro _
      have before := Pc.quiet_of_not_ran unreached
      have after := Pc.quiet_of_not_ran ran
      exact ⟨fun services => (after.2 services).trans
        (before.2 services).symm, after.1⟩

omit [DecidableEq Thread] in
/-- The thread that comes to the stores or is behind them. -/
theorem Phase.reached (phase : Phase recipe core state)
    (ran : (state.threads thread).ran = true) :
    ∃ performance, performance.thread = thread ∧
      (Working recipe core state performance ∨
        Published recipe core state performance) := by
  cases phase with
  | fresh fresh =>
      rw [fresh.unreached thread] at ran
      contradiction
  | @working performance working =>
      refine ⟨performance, ?_, .inl working⟩
      by_contra different
      rw [working.unreached thread (Ne.symm different)] at ran
      contradiction
  | @published performance published =>
      refine ⟨performance, ?_, .inr published⟩
      by_contra different
      rw [published.unreached thread (Ne.symm different)] at ran
      contradiction

omit [DecidableEq Thread] in
theorem Phase.flag_of_passed (phase : Phase recipe core state)
    (passed : (state.threads thread).passed = true) : state.flag = true := by
  cases phase with
  | fresh fresh =>
      rw [fresh.unpassed thread] at passed
      contradiction
  | working working =>
      rw [working.unpassed thread] at passed
      contradiction
  | published published => exact published.flag

omit [DecidableEq Thread] in
theorem Phase.working_of_writes (phase : Phase recipe core state)
    (writes : (state.threads thread).writes = true) :
    ∃ performance, performance.thread = thread ∧
      Working recipe core state performance := by
  obtain ⟨performance, rfl, working | published⟩ :=
    phase.reached (Pc.ran_of_writes writes)
  · exact ⟨performance, rfl, working⟩
  · rw [published.written] at writes
    contradiction

omit [DecidableEq Thread] in
theorem Phase.published_of_ran (phase : Phase recipe core state)
    (ran : (state.threads thread).ran = true)
    (written : (state.threads thread).writes = false) :
    ∃ performance, performance.thread = thread ∧
      Published recipe core state performance := by
  obtain ⟨performance, rfl, working | published⟩ := phase.reached ran
  · rw [working.writes] at written
    contradiction
  · exact ⟨performance, rfl, published⟩

theorem Working.advance (working : Working recipe core state performance)
    {made rest : List (Config → Config)} {config : Config}
    (stores : recipe.stores performance.read performance.found = made ++ rest)
    (written : core config = core (applyAll recipe.start made))
    (position : pc = .write rest ∨ rest = [] ∧ pc = .publish) :
    Working recipe core
      { state.move performance.thread pc with config } performance where
  flag := working.flag
  started := working.started
  performed := working.performed
  config := ⟨made, rest, stores, written, by simpa using position⟩
  unreached := by
    intro other different
    simpa [move_threads_other different] using
      working.unreached other different
  unpassed := by
    have going : pc.passed = false := by
      rcases position with rfl | ⟨_, rfl⟩ <;> rfl
    exact forall_move (fun _ pc => pc.passed = false) going
      fun other _ => working.unpassed other

theorem Fresh.begin (fresh : Fresh recipe core state)
    (performance : Performance Thread Outcome) :
    Working recipe core
      { state.move performance.thread
          (.write (recipe.stores performance.read performance.found)) with
        performed := performance :: state.performed } performance where
  flag := fresh.flag
  started := fresh.started
  performed := by simp [fresh.performed]
  config := ⟨[], _, rfl, fresh.config, .inl move_threads_self⟩
  unreached := by
    intro other different
    simpa [move_threads_other different] using fresh.unreached other
  unpassed := forall_move (fun _ pc => pc.passed = false) rfl
    fun other _ => fresh.unpassed other

theorem Working.publish (working : Working recipe core state performance)
    (publishing : state.threads performance.thread = .publish) :
    Published recipe core
      { state.move performance.thread (.leave true) with flag := true }
      performance := by
  obtain ⟨made, rest, stores, config, position | ⟨none, _⟩⟩ := working.config
  · simp [publishing] at position
  · subst none
    rw [List.append_nil] at stores
    constructor
    · rfl
    · rw [Recipe.complete, stores]
      exact config
    · exact working.performed
    · simp [working.started, Pc.pending]
    · simp [Pc.writes]
    · intro other different
      simpa [move_threads_other different] using
        working.unreached other different

theorem Published.serve (published : Published recipe core state performance)
    {service : Service} {rest : List Service}
    (serving : state.threads performance.thread = .serve (service :: rest)) :
    Published recipe core
      { state.move performance.thread (.serve rest) with
        started := state.started ++ [(service, outcome)] } performance where
  flag := published.flag
  config := published.config
  performed := published.performed
  started := by
    have started := published.started
    rw [serving] at started
    simpa [Pc.pending] using started
  written := by simp [Pc.writes]
  unreached := by
    intro other different
    simpa [move_threads_other different] using
      published.unreached other different

/-! ## One step at a time -/

/-- A thread that has not come to the stores moves without the lock. -/
theorem Invariant.move (separate : Separate recipe core)
    (invariant : Invariant recipe core state)
    (unreached : (state.threads thread).ran = false) (ran : pc.ran = false)
    (holds : pc.holds = false)
    (passes : pc.passed = true → state.flag = true)
    (loose : ∀ store ∈ pc.loose, ∀ config, core (store config) = core config)
    {config : Config} (same : core config = core state.config) :
    Invariant recipe core { state.move thread pc with config } where
  locked := invariant.locked_move rfl
    (fun held => by rw [holds] at held; contradiction)
    fun _ _ owned => owned
  loose := invariant.loose_move rfl loose
  phase := invariant.phase.move separate unreached ran passes state.owner same

theorem Invariant.enter (separate : Separate recipe core)
    (invariant : Invariant recipe core state)
    (entered : state.threads thread = .enter) :
    Invariant recipe core (state.move thread
      (if state.flag then .returned
      else .prepare outcome (recipe.prepare outcome))) := by
  apply invariant.move separate
  · rw [entered]
    rfl
  · split <;> rfl
  · split <;> rfl
  · split
    · exact fun _ => ‹_›
    · simp [Pc.passed]
  · split
    · intro store none
      cases none
    · exact separate.prepare outcome
  · rfl

theorem Invariant.acquire (separate : Separate recipe core)
    (invariant : Invariant recipe core state) {read : Outcome}
    (acquiring : state.threads thread = .acquire read)
    (free : state.owner = none) :
    Invariant recipe core
      { state.move thread (.recheck read) with owner := some thread } where
  locked := invariant.locked_move rfl (fun _ => rfl) fun other _ owned => by
    rw [free] at owned
    contradiction
  loose := invariant.loose_move rfl (List.forall_mem_nil _)
  phase := by
    refine invariant.phase.move separate ?_ rfl ?_ _ rfl
    · rw [acquiring]
      rfl
    · simp [Pc.passed]

theorem Invariant.leaveEarly (separate : Separate recipe core)
    (invariant : Invariant recipe core state) {read : Outcome}
    (rechecking : state.threads thread = .recheck read)
    (isSet : state.flag = true) :
    Invariant recipe core (state.move thread (.leave false)) where
  locked := invariant.locked_move rfl
    (fun _ => invariant.locked thread (by rw [rechecking]; rfl))
    fun _ _ owned => owned
  loose := invariant.loose_move rfl (List.forall_mem_nil _)
  phase := by
    refine invariant.phase.move separate ?_ rfl ?_ state.owner rfl
    · rw [rechecking]
      rfl
    · exact fun _ => isSet

theorem Invariant.begin (invariant : Invariant recipe core state)
    {read : Outcome} (rechecking : state.threads thread = .recheck read)
    (unset : state.flag = false) :
    Invariant recipe core
      { state.move thread (.write (recipe.stores read outcome)) with
        performed := { thread, read, found := outcome } ::
          state.performed } := by
  have owned := invariant.locked thread (by rw [rechecking]; rfl)
  constructor
  · exact invariant.locked_move rfl (fun _ => owned) fun _ _ other => other
  · exact invariant.loose_move rfl (List.forall_mem_nil _)
  · cases invariant.phase with
    | fresh fresh =>
        exact .working (fresh.begin { thread, read, found := outcome })
    | @working performance working =>
        have alsoOwned := invariant.locked performance.thread
          (Pc.holds_of_writes working.writes)
        rw [owned, Option.some.injEq] at alsoOwned
        have writes := working.writes
        rw [← alsoOwned, rechecking] at writes
        contradiction
    | published published =>
        rw [published.flag] at unset
        contradiction

/-- The worker is at its next store, or behind the last one. -/
theorem Invariant.write (separate : Separate recipe core)
    (invariant : Invariant recipe core state)
    {stores : List (Config → Config)}
    (writing : state.threads thread = .write stores) :
    Invariant recipe core
      (match stores with
      | [] => state.move thread .publish
      | store :: rest =>
          { state.move thread (.write rest) with
            config := store state.config }) := by
  have owned := invariant.locked thread (by rw [writing]; rfl)
  obtain ⟨performance, rfl, working⟩ :=
    invariant.phase.working_of_writes (by rw [writing]; rfl)
  obtain ⟨made, rest, recipeStores, written, position | ⟨_, position⟩⟩ :=
    working.config
  · obtain rfl := Pc.write.inj (writing.symm.trans position)
    cases stores with
    | nil =>
        refine ⟨invariant.locked_move rfl (fun _ => owned)
          fun _ _ other => other,
          invariant.loose_move rfl (List.forall_mem_nil _), ?_⟩
        exact .working
          (working.advance recipeStores written (.inr ⟨rfl, rfl⟩))
    | cons store rest =>
        refine ⟨invariant.locked_move rfl (fun _ => owned)
          fun _ _ other => other,
          invariant.loose_move rfl (List.forall_mem_nil _), ?_⟩
        have further : recipe.stores performance.read performance.found =
            (made ++ [store]) ++ rest := by
          rw [recipeStores, List.append_assoc, List.singleton_append]
        have member : store ∈
            recipe.stores performance.read performance.found := by
          rw [recipeStores]
          exact List.mem_append_right _ List.mem_cons_self
        refine .working (working.advance further ?_ (.inl rfl))
        rw [applyAll_append]
        exact separate.stores _ _ store member _ _ written
  · rw [writing] at position
    contradiction

theorem Invariant.publish (invariant : Invariant recipe core state)
    (publishing : state.threads thread = .publish) :
    Invariant recipe core
      { state.move thread (.leave true) with flag := true } := by
  have owned := invariant.locked thread (by rw [publishing]; rfl)
  obtain ⟨performance, rfl, working⟩ :=
    invariant.phase.working_of_writes (by rw [publishing]; rfl)
  constructor
  · exact invariant.locked_move rfl (fun _ => owned) fun _ _ other => other
  · exact invariant.loose_move rfl (List.forall_mem_nil _)
  · exact .published (working.publish publishing)

theorem Invariant.leave (separate : Separate recipe core)
    (invariant : Invariant recipe core state) {ran : Bool}
    (leaving : state.threads thread = .leave ran) :
    Invariant recipe core
      { state.move thread
          (if ran then .serve (recipe.services state.config)
          else .returned) with
        owner := none } := by
  have owned := invariant.locked thread (by rw [leaving]; rfl)
  constructor
  · refine invariant.locked_move rfl ?_ ?_
    · cases ran <;> simp [Pc.holds]
    · intro other different alsoOwned
      rw [owned, Option.some.injEq] at alsoOwned
      exact absurd alsoOwned.symm different
  · refine invariant.loose_move rfl ?_
    cases ran <;> exact List.forall_mem_nil _
  · cases ran with
    | false =>
        refine invariant.phase.move separate ?_ rfl ?_ none rfl
        · rw [leaving]
          rfl
        · intro _
          exact invariant.phase.flag_of_passed (by rw [leaving]; rfl)
    | true =>
        obtain ⟨performance, rfl, published⟩ :=
          invariant.phase.published_of_ran
            (by rw [leaving]; rfl) (by rw [leaving]; rfl)
        have started := published.started
        rw [leaving] at started
        refine .published { published with
          started := ?_, written := ?_, unreached := ?_ }
        · simpa [Pc.pending] using started
        · simp [Pc.writes]
        · intro other different
          simpa [move_threads_other different] using
            published.unreached other different

theorem Invariant.serve (separate : Separate recipe core)
    (invariant : Invariant recipe core state) {services : List Service}
    (serving : state.threads thread = .serve services) (outcome : Outcome) :
    Invariant recipe core
      (match services with
      | [] => state.move thread .returned
      | service :: rest =>
          { state.move thread (.serve rest) with
            started := state.started ++ [(service, outcome)] }) := by
  obtain ⟨performance, rfl, published⟩ := invariant.phase.published_of_ran
    (by rw [serving]; rfl) (by rw [serving]; rfl)
  cases services with
  | nil =>
      refine ⟨invariant.locked_move rfl (by simp [Pc.holds])
        fun _ _ other => other,
        invariant.loose_move rfl (List.forall_mem_nil _), ?_⟩
      refine .published (published.move separate ?_ ?_ state.owner rfl)
      · intro _
        rw [serving]
        exact ⟨fun _ => rfl, rfl⟩
      · exact fun different => absurd rfl different
  | cons service rest =>
      refine ⟨invariant.locked_move rfl (by simp [Pc.holds])
        fun _ _ other => other,
        invariant.loose_move rfl (List.forall_mem_nil _), ?_⟩
      exact .published (published.serve serving)

theorem Invariant.storeLoose (separate : Separate recipe core)
    (invariant : Invariant recipe core state) {store : Config → Config}
    {rest : List (Config → Config)}
    (loose : (state.threads thread).loose = store :: rest)
    (later : pc.loose = rest) (unreached : (state.threads thread).ran = false)
    (ran : pc.ran = false) (holds : pc.holds = false)
    (going : pc.passed = false) :
    Invariant recipe core
      { state.move thread pc with config := store state.config } := by
  have harmless := invariant.loose thread
  rw [loose] at harmless
  apply invariant.move separate unreached ran holds
  · rw [going]
    exact fun impossible => nomatch impossible
  · rw [later]
    exact fun other member => harmless other (List.mem_cons_of_mem _ member)
  · exact harmless store List.mem_cons_self state.config

theorem Invariant.step (separate : Separate recipe core)
    (invariant : Invariant recipe core state)
    (taken : step recipe state thread outcome = some target) :
    Invariant recipe core target := by
  unfold Once.step at taken
  cases position : state.threads thread with
  | idle => simp [position] at taken
  | returned => simp [position] at taken
  | early stores =>
      rw [position] at taken
      cases stores with
      | nil =>
          cases taken
          exact invariant.move separate (by rw [position]; rfl) rfl rfl
            (by simp [Pc.passed]) (List.forall_mem_nil _) rfl
      | cons store rest =>
          cases taken
          exact invariant.storeLoose separate (by rw [position]; rfl) rfl
            (by rw [position]; rfl) rfl rfl rfl
  | enter =>
      rw [position] at taken
      cases taken
      exact invariant.enter separate position
  | prepare read stores =>
      rw [position] at taken
      cases stores with
      | nil =>
          cases taken
          exact invariant.move separate (by rw [position]; rfl) rfl rfl
            (by simp [Pc.passed]) (List.forall_mem_nil _) rfl
      | cons store rest =>
          cases taken
          exact invariant.storeLoose separate (by rw [position]; rfl) rfl
            (by rw [position]; rfl) rfl rfl rfl
  | acquire read =>
      rw [position] at taken
      dsimp only at taken
      split at taken
      · rename_i free
        cases taken
        exact invariant.acquire separate position
          (Option.isNone_iff_eq_none.mp free)
      · contradiction
  | recheck read =>
      rw [position] at taken
      dsimp only at taken
      split at taken
      · rename_i isSet
        cases taken
        exact invariant.leaveEarly separate position isSet
      · rename_i unset
        cases taken
        exact invariant.begin position (Bool.eq_false_iff.mpr unset)
  | write stores =>
      have kept := invariant.write separate position
      rw [position] at taken
      cases stores <;> cases taken <;> exact kept
  | publish =>
      rw [position] at taken
      cases taken
      exact invariant.publish position
  | leave ran =>
      rw [position] at taken
      cases taken
      exact invariant.leave separate position
  | serve services =>
      have kept := invariant.serve separate position outcome
      rw [position] at taken
      cases services <;> cases taken <;> exact kept

theorem next_call
    (taken : next recipe state (.call thread outcome) = some target) :
    (state.threads thread).ran = false ∧
      target = state.move thread (.early (recipe.early outcome)) := by
  simp only [next] at taken
  split at taken
  · rename_i waiting
    cases taken
    rw [waiting]
    exact ⟨rfl, rfl⟩
  · rename_i waiting
    cases taken
    rw [waiting]
    exact ⟨rfl, rfl⟩
  · contradiction

theorem Invariant.next (separate : Separate recipe core)
    (invariant : Invariant recipe core state)
    {label : Label Thread Outcome}
    (taken : next recipe state label = some target) :
    Invariant recipe core target := by
  cases label with
  | step thread outcome => exact invariant.step separate taken
  | call thread outcome =>
      obtain ⟨unreached, rfl⟩ := next_call taken
      apply invariant.move separate unreached rfl rfl
      · simp [Pc.passed]
      · exact separate.early outcome
      · rfl

theorem invariant_reachable (separate : Separate recipe core)
    {guard : State Thread Config Outcome Service →
      Label Thread Outcome → Prop}
    (reachable : (system recipe).ReachableBy guard state) :
    Invariant recipe core state := by
  apply reachable.invariant (Invariant recipe core)
  · intro start initial
    obtain ⟨flag, _, config, started, performed, idle⟩ := initial
    constructor
    · intro thread holds
      simp [idle, Pc.holds] at holds
    · intro thread store loose
      simp [idle, Pc.loose] at loose
    · refine .fresh ⟨flag, congrArg core config, started, performed, ?_, ?_⟩
      · intro thread
        rw [idle]
        rfl
      · intro thread
        rw [idle]
        rfl
  · intro source label target invariant _ taken
    exact invariant.next separate taken

end Moves

/-! ## What the callers may rely on -/

section Results

variable [DecidableEq Thread] {recipe : Recipe Config Outcome Service}
  {core : Config → Core}
  {state target : State Thread Config Outcome Service}
  {performance : Performance Thread Outcome}

omit [DecidableEq Thread] in
theorem Invariant.published (invariant : Invariant recipe core state)
    (isSet : state.flag = true) :
    ∃ performance, Published recipe core state performance := by
  cases invariant.phase with
  | fresh fresh =>
      rw [fresh.flag] at isSet
      contradiction
  | working working =>
      rw [working.flag] at isSet
      contradiction
  | @published performance published => exact ⟨performance, published⟩

omit [DecidableEq Thread] in
theorem Invariant.flag_of_returned (invariant : Invariant recipe core state)
    {thread : Thread} (returned : state.threads thread = .returned) :
    state.flag = true := by
  apply invariant.phase.flag_of_passed
  rw [returned]
  rfl

omit [DecidableEq Thread] in
/-- The stores under the lock are made at most once. -/
theorem Invariant.performed_le_one (invariant : Invariant recipe core state) :
    state.performed.length ≤ 1 := by
  cases invariant.phase with
  | fresh fresh => simp [fresh.performed]
  | working working => simp [working.performed]
  | published published => simp [published.performed]

omit [DecidableEq Thread] in
theorem Invariant.started_prefix (invariant : Invariant recipe core state) :
    state.started = [] ∨ state.flag = true ∧
      state.started.map Prod.fst <+: recipe.services state.config := by
  cases invariant.phase with
  | fresh fresh => exact .inl fresh.started
  | working working => exact .inl working.started
  | published published =>
      exact .inr ⟨published.flag, _, published.started⟩

/-- Once the flag is set it stays set, and nobody comes to the stores. -/
theorem next_flag {label : Label Thread Outcome}
    (taken : next recipe state label = some target)
    (isSet : state.flag = true) :
    target.flag = true ∧ target.performed = state.performed := by
  cases label with
  | call caller outcome =>
      obtain ⟨_, rfl⟩ := next_call taken
      exact ⟨isSet, rfl⟩
  | step mover outcome =>
      simp only [Once.next, step] at taken
      cases position : state.threads mover with
      | idle => simp [position] at taken
      | returned => simp [position] at taken
      | acquire read =>
          rw [position] at taken
          dsimp only at taken
          split at taken
          · cases taken
            exact ⟨isSet, rfl⟩
          · contradiction
      | recheck read =>
          rw [position] at taken
          dsimp only at taken
          rw [if_pos isSet] at taken
          cases taken
          exact ⟨isSet, rfl⟩
      | early stores | prepare read stores | write stores | serve stores =>
          rw [position] at taken
          cases stores <;> cases taken <;> exact ⟨isSet, rfl⟩
      | enter | leave ran =>
          rw [position] at taken
          cases taken
          exact ⟨isSet, rfl⟩
      | publish =>
          rw [position] at taken
          cases taken
          exact ⟨rfl, rfl⟩

/-- A step after the flag was set changes neither the flag nor the core. -/
theorem Published.next (separate : Separate recipe core)
    (invariant : Invariant recipe core state)
    (published : Published recipe core state performance)
    {label : Label Thread Outcome}
    (taken : next recipe state label = some target) :
    Published recipe core target performance ∧
      core target.config = core state.config := by
  have kept := next_flag taken published.flag
  obtain ⟨other, after⟩ :=
    (invariant.next separate taken).published kept.1
  have same := after.performed.symm.trans
    (kept.2.trans published.performed)
  obtain rfl := (List.cons.inj same).1
  exact ⟨after, after.config.trans published.config.symm⟩

theorem Published.steps (separate : Separate recipe core)
    (invariant : Invariant recipe core state)
    (published : Published recipe core state performance)
    {guard : State Thread Config Outcome Service →
      Label Thread Outcome → Prop}
    (steps : (system recipe).StepsBy guard state target) :
    core target.config = core state.config := by
  have kept := steps.preserves
    (fun later => Invariant recipe core later ∧
      Published recipe core later performance ∧
      core later.config = core state.config)
    (fun source label later known _ taken => by
      obtain ⟨invariant, published, same⟩ := known
      obtain ⟨after, unchanged⟩ := published.next separate invariant taken
      exact ⟨invariant.next separate taken, after, unchanged.trans same⟩)
    ⟨invariant, published, rfl⟩
  exact kept.2.2

end Results

end Once
