import MemoryTraceTool.Basic
import MemoryTraceTool.Lib.Transition

/-!
# Resolution of the raw allocator pointers

`mtt_resolve_raw_allocators` installs bootstrap functions in the `raw_*`
pointers, races on `g_raw_resolved`, and lets the winner replace them by the
functions `dlsym` finds.  Every load and store of a shared variable is one
step, so a thread may be delayed between any two of them.
-/

namespace MemoryTraceTool

open Transition

/-- The shared function pointers `raw_malloc`, `raw_free`, `raw_calloc`,
`raw_realloc` and `raw_posix_memalign`. -/
inductive RawName where
  | malloc
  | free
  | calloc
  | realloc
  | posixMemalign
  deriving DecidableEq, Repr

/-- The functions a symbol lookup can lead to: a `bootstrap_*` function, a
libc function, or the hook of this tool itself. -/
inductive RawFn where
  | bootstrap
  | libc
  | hook
  deriving DecidableEq, Repr

/-- The shared variables of the resolution; `none` is a NULL pointer. -/
structure RawState where
  ready : Bool
  resolved : Bool
  raw : RawName → Option RawFn

def RawState.store (state : RawState) (name : RawName) (fn : RawFn) :
    RawState :=
  { state with raw := Function.update state.raw name (some fn) }

/-- The statically initialised variables. -/
def RawState.initial : RawState :=
  { ready := false
    resolved := false
    raw := fun _ => none }

/-- The pointers that get a bootstrap function before the CAS. -/
def bootstrapNames : List RawName := [.malloc, .free, .calloc, .realloc]

/-- The pointers set from `dlsym`, in the order of the stores. -/
def rawNames : List RawName :=
  [.malloc, .free, .calloc, .realloc, .posixMemalign]

def libcCandidates : List String :=
  ["libc.so.6", "libc.so", "libc.musl-aarch64.so.1"]

/-- What the dynamic linker answers during one step: the symbol found by
`dlsym`, whether `dladdr` succeeds on it, and whether `dlopen` succeeds. -/
structure LinkerReply where
  symbol : Option RawFn
  dladdr : Bool
  handle : Bool
  deriving DecidableEq, Repr

/-- Control points of `mtt_resolve_raw_allocators`.  A point that works on one
pointer also carries the pointers still to be treated. -/
inductive ResolvePc where
  | loadReady
  | loadMalloc
  | prefill (name : RawName) (rest : List RawName)
  | cas
  | safeSet (name : RawName) (rest : List RawName)
  | test (name : RawName) (rest : List RawName)
  | dlopen (candidate : Nat)
  | retest (candidate : Nat) (name : RawName) (rest : List RawName)
  | refill (candidate : Nat) (name : RawName) (rest : List RawName)
  | confirm (candidate : Nat) (name : RawName) (rest : List RawName)
  | publish
  | returned
  deriving DecidableEq, Repr

namespace ResolvePc

def prefillFrom : List RawName → ResolvePc
  | [] => .cas
  | name :: rest => .prefill name rest

def testFrom : List RawName → ResolvePc
  | [] => .publish
  | name :: rest => .test name rest

def safeSetFrom : List RawName → ResolvePc
  | [] => testFrom bootstrapNames
  | name :: rest => .safeSet name rest

def dlopenFrom (candidate : Nat) : ResolvePc :=
  if candidate < libcCandidates.length then .dlopen candidate else .publish

def confirmFrom (candidate : Nat) : List RawName → ResolvePc
  | [] => .publish
  | name :: rest => .confirm candidate name rest

def retestFrom (candidate : Nat) : List RawName → ResolvePc
  | [] => confirmFrom candidate bootstrapNames
  | name :: rest => .retest candidate name rest

/-- The points inside a call of the dynamic linker, whose own allocations
reenter the hooks and with them this function. -/
def callsLinker : ResolvePc → Bool
  | .safeSet _ _ | .dlopen _ | .refill _ _ _ => true
  | _ => false

end ResolvePc

/-- `RAW_SAFE_SET` keeps a symbol that `dladdr` places outside this tool. -/
def rawSafeSet (state : RawState) (name : RawName) (reply : LinkerReply) :
    RawState :=
  match reply.symbol with
  | none => state
  | some fn =>
      if reply.dladdr && fn != .hook then state.store name fn else state

/-- Whether the fallback loop still misses a pointer. -/
def rawMissing (state : RawState) : RawName → Bool
  | .posixMemalign => state.raw .posixMemalign == none
  | name => state.raw name == some .bootstrap

/-- One step of `mtt_resolve_raw_allocators`.  `resolving` is the calling
thread's `raw_resolving` flag. -/
def mttResolveStep (state : RawState) (resolving : Bool)
    (reply : LinkerReply) : ResolvePc → RawState × Bool × ResolvePc
  | .loadReady =>
      (state, resolving, if state.ready then .returned else .loadMalloc)
  | .loadMalloc =>
      (state, resolving,
        if state.raw .malloc ≠ none ∨ resolving then .returned
        else ResolvePc.prefillFrom bootstrapNames)
  | .prefill name rest =>
      (state.store name .bootstrap, resolving, ResolvePc.prefillFrom rest)
  | .cas =>
      if state.resolved then (state, resolving, .returned)
      else
        ({ state with resolved := true }, true,
          ResolvePc.safeSetFrom rawNames)
  | .safeSet name rest =>
      (rawSafeSet state name reply, resolving, ResolvePc.safeSetFrom rest)
  | .test name rest =>
      (state, resolving,
        if state.raw name = some .bootstrap then ResolvePc.dlopenFrom 0
        else ResolvePc.testFrom rest)
  | .dlopen candidate =>
      (state, resolving,
        if reply.handle then ResolvePc.retestFrom candidate rawNames
        else ResolvePc.dlopenFrom (candidate + 1))
  | .retest candidate name rest =>
      (state, resolving,
        if rawMissing state name then .refill candidate name rest
        else ResolvePc.retestFrom candidate rest)
  | .refill candidate name rest =>
      (match reply.symbol with
        | none => state
        | some fn => state.store name fn,
        resolving, ResolvePc.retestFrom candidate rest)
  | .confirm candidate name rest =>
      (state, resolving,
        if state.raw name = some .bootstrap then
          ResolvePc.dlopenFrom (candidate + 1)
        else ResolvePc.confirmFrom candidate rest)
  | .publish => ({ state with ready := true }, false, .returned)
  | .returned => (state, resolving, .returned)

/-- A thread's nested activations of the function, innermost first, and its
`raw_resolving` flag. -/
structure Resolver where
  frames : List ResolvePc
  resolving : Bool
  deriving DecidableEq, Repr

def Resolver.idle : Resolver :=
  { frames := []
    resolving := false }

structure ResolveState (Thread : Type) where
  shared : RawState
  threads : Thread → Resolver

def ResolveState.setThread {Thread : Type} [DecidableEq Thread]
    (state : ResolveState Thread) (thread : Thread) (resolver : Resolver) :
    ResolveState Thread :=
  { state with threads := Function.update state.threads thread resolver }

inductive ResolveLabel (Thread : Type) where
  | call (thread : Thread)
  | step (thread : Thread) (reply : LinkerReply)

/-- A thread may call the function from the application, or again from the
allocations of the dynamic linker. -/
def Resolver.mayCall (resolver : Resolver) : Bool :=
  match resolver.frames with
  | [] => true
  | pc :: _ => pc.callsLinker

/-- One step of the innermost activation of a thread. -/
def Resolver.step (shared : RawState) (resolver : Resolver)
    (reply : LinkerReply) : Option (RawState × Resolver) :=
  match resolver.frames with
  | [] => none
  | .returned :: outer => some (shared, { resolver with frames := outer })
  | pc :: outer =>
      let (shared, resolving, pc) :=
        mttResolveStep shared resolver.resolving reply pc
      some (shared, { frames := pc :: outer, resolving := resolving })

def resolveNext {Thread : Type} [DecidableEq Thread]
    (state : ResolveState Thread) :
    ResolveLabel Thread → Option (ResolveState Thread)
  | .call thread =>
      let resolver := state.threads thread
      if resolver.mayCall then
        some (state.setThread thread
          { resolver with frames := .loadReady :: resolver.frames })
      else none
  | .step thread reply =>
      (Resolver.step state.shared (state.threads thread) reply).map
        fun (shared, resolver) =>
          { state.setThread thread resolver with shared := shared }

/-- Any number of threads calling `mtt_resolve_raw_allocators`, starting from
the static initial values. -/
def resolveSystem (Thread : Type) [DecidableEq Thread] :
    System (ResolveState Thread) (ResolveLabel Thread) where
  init := fun state =>
    state.shared = RawState.initial ∧
      ∀ thread, state.threads thread = Resolver.idle
  next := resolveNext

/-- No pointer holds a `bootstrap_*` function. -/
def RawState.NoBootstrap (shared : RawState) : Prop :=
  ∀ name, shared.raw name ≠ some .bootstrap

/-- `dlsym` finds a function of libc, and `dladdr` confirms it. -/
def LinkerReply.FromLibc (reply : LinkerReply) : Prop :=
  reply.symbol = some .libc ∧ reply.dladdr = true

instance (reply : LinkerReply) : Decidable reply.FromLibc :=
  inferInstanceAs (Decidable (_ ∧ _))

/-- Every lookup made by the step finds a function of libc. -/
def LookupsFromLibc {Thread : Type} (_ : ResolveState Thread) :
    ResolveLabel Thread → Prop
  | .call _ => True
  | .step _ reply => reply.FromLibc

/-- The next step of the thread writes a bootstrap function over a pointer
that already holds a libc function. -/
def Resolver.overwrites (shared : RawState) (resolver : Resolver) : Bool :=
  match resolver.frames with
  | .prefill name _ :: _ => shared.raw name == some .libc
  | _ => false

/-- Lookups find libc, and no delayed thread prefills a resolved pointer. -/
def TimelyPrefill {Thread : Type} (state : ResolveState Thread) :
    ResolveLabel Thread → Prop
  | .call _ => True
  | .step thread reply =>
      reply.FromLibc ∧
        (state.threads thread).overwrites state.shared = false

instance {Thread : Type} (state : ResolveState Thread)
    (label : ResolveLabel Thread) : Decidable (LookupsFromLibc state label) :=
  match label with
  | .call _ => isTrue trivial
  | .step _ reply => inferInstanceAs (Decidable reply.FromLibc)

instance {Thread : Type} (state : ResolveState Thread)
    (label : ResolveLabel Thread) : Decidable (TimelyPrefill state label) :=
  match label with
  | .call _ => isTrue trivial
  | .step _ _ => inferInstanceAs (Decidable (_ ∧ _))

/-! ## What the winner has established -/

def RawState.AllLibc (shared : RawState) : Prop :=
  ∀ name ∈ rawNames, shared.raw name = some .libc

/-- What a thread at a control point may rely on: the winner's stores so far
are in place. -/
def PcSettled (shared : RawState) : ResolvePc → Prop
  | .safeSet name rest =>
      ∀ other ∈ rawNames,
        other ∈ name :: rest ∨ shared.raw other = some .libc
  | .test _ _ | .dlopen _ | .retest _ _ _ | .refill _ _ _
  | .confirm _ _ _ | .publish => shared.AllLibc
  | _ => True

theorem pcSettled_of_allLibc {shared : RawState} (all : shared.AllLibc)
    (pc : ResolvePc) : PcSettled shared pc := by
  cases pc with
  | safeSet name rest => exact fun other member => Or.inr (all other member)
  | test | dlopen | retest | refill | confirm | publish => exact all
  | loadReady | loadMalloc | prefill | cas | returned => trivial

theorem pcSettled_safeSetFrom {shared : RawState} {rest : List RawName}
    (stored : ∀ other ∈ rawNames,
      other ∈ rest ∨ shared.raw other = some .libc) :
    PcSettled shared (ResolvePc.safeSetFrom rest) := by
  cases rest with
  | nil =>
      apply pcSettled_of_allLibc
      intro other member
      exact (stored other member).resolve_left (by simp)
  | cons name rest => exact stored

/-- A step that only adds libc functions keeps what other threads rely on. -/
theorem PcSettled.mono {shared later : RawState} {pc : ResolvePc}
    (settled : PcSettled shared pc)
    (kept : ∀ name, shared.raw name = some .libc →
      later.raw name = some .libc) :
    PcSettled later pc := by
  cases pc with
  | safeSet name rest =>
      intro other member
      exact (settled other member).imp_right (kept other)
  | test | dlopen | retest | refill | confirm | publish =>
      exact fun other member => kept other (settled other member)
  | loadReady | loadMalloc | prefill | cas | returned => trivial

@[simp] theorem RawState.store_same (shared : RawState) (name : RawName)
    (fn : RawFn) : (shared.store name fn).raw name = some fn := by
  simp [RawState.store]

theorem RawState.store_other (shared : RawState) {name other : RawName}
    (fn : RawFn) (different : other ≠ name) :
    (shared.store name fn).raw other = shared.raw other := by
  simp [RawState.store, different]

theorem RawState.store_libc_kept (shared : RawState) (name : RawName)
    {other : RawName} (holds : shared.raw other = some .libc) :
    (shared.store name .libc).raw other = some .libc := by
  by_cases same : other = name
  · subst same
    simp
  · rw [shared.store_other _ same, holds]

theorem rawSafeSet_fromLibc (shared : RawState) (name : RawName)
    {reply : LinkerReply} (lookup : reply.FromLibc) :
    rawSafeSet shared name reply = shared.store name .libc := by
  simp [rawSafeSet, lookup.1, lookup.2]

/-- What one step does to the pointers when its lookups find libc and it
overwrites no libc function. -/
structure StepSettled (shared later : RawState) (pc : ResolvePc) : Prop where
  kept : ∀ name, shared.raw name = some .libc →
    later.raw name = some .libc
  settled : PcSettled later pc
  ready : later.ready = true → shared.ready = true ∨ later.AllLibc

theorem StepSettled.of_same {shared : RawState} {pc : ResolvePc}
    (settled : PcSettled shared pc) : StepSettled shared shared pc :=
  { kept := fun _ holds => holds
    settled := settled
    ready := Or.inl }

theorem mttResolveStep_settled {shared : RawState} (resolving : Bool)
    {reply : LinkerReply} {pc : ResolvePc} (lookup : reply.FromLibc)
    (timely : ∀ name rest, pc = .prefill name rest →
      shared.raw name ≠ some .libc)
    (settled : PcSettled shared pc) :
    StepSettled shared (mttResolveStep shared resolving reply pc).1
      (mttResolveStep shared resolving reply pc).2.2 := by
  cases pc with
  | loadReady =>
      refine .of_same ?_
      dsimp only [mttResolveStep]
      split <;> trivial
  | loadMalloc =>
      refine .of_same ?_
      dsimp only [mttResolveStep]
      split <;> trivial
  | prefill name rest =>
      refine ⟨?_, ?_, Or.inl⟩
      · intro other holds
        have different : other ≠ name := by
          intro same
          exact timely name rest rfl (same ▸ holds)
        exact (shared.store_other _ different).trans holds
      · cases rest <;> trivial
  | cas =>
      dsimp only [mttResolveStep]
      split
      · exact .of_same trivial
      · exact ⟨fun _ holds => holds,
          pcSettled_safeSetFrom fun _ member => Or.inl member, Or.inl⟩
  | safeSet name rest =>
      simp only [mttResolveStep, rawSafeSet_fromLibc shared name lookup]
      refine ⟨fun _ => shared.store_libc_kept name, ?_, Or.inl⟩
      apply pcSettled_safeSetFrom
      intro other member
      rcases settled other member with waiting | holds
      · rcases List.mem_cons.mp waiting with same | later
        · exact Or.inr (same ▸ shared.store_same name .libc)
        · exact Or.inl later
      · exact Or.inr (shared.store_libc_kept name holds)
  | refill candidate name rest =>
      simp only [mttResolveStep, lookup.1]
      refine ⟨fun _ => shared.store_libc_kept name, ?_, Or.inl⟩
      exact pcSettled_of_allLibc
        (fun other member =>
          shared.store_libc_kept name (settled other member)) _
  | publish =>
      exact ⟨fun _ holds => holds, trivial, fun _ => Or.inr settled⟩
  | returned => exact .of_same trivial
  | test | dlopen | retest | confirm =>
      exact .of_same (pcSettled_of_allLibc settled _)

/-- The invariant of runs without late prefills. -/
structure ResolveInv {Thread : Type} (state : ResolveState Thread) :
    Prop where
  ready : state.shared.ready = true → state.shared.AllLibc
  frames : ∀ thread, ∀ pc ∈ (state.threads thread).frames,
    PcSettled state.shared pc

theorem resolveInv_step {Thread : Type} [DecidableEq Thread]
    {state target : ResolveState Thread} {label : ResolveLabel Thread}
    (inv : ResolveInv state) (timely : TimelyPrefill state label)
    (taken : resolveNext state label = some target) : ResolveInv target := by
  cases label with
  | call thread =>
      simp only [resolveNext] at taken
      split at taken
      · obtain rfl := Option.some.inj taken
        refine ⟨inv.ready, ?_⟩
        intro other pc member
        by_cases same : other = thread
        · subst same
          simp only [ResolveState.setThread, Function.update_self,
            List.mem_cons] at member
          rcases member with rfl | member
          · trivial
          · exact inv.frames other pc member
        · simp only [ResolveState.setThread,
            Function.update_of_ne same] at member
          exact inv.frames other pc member
      · contradiction
  | step thread reply =>
      obtain ⟨⟨shared, resolver⟩, stepped, rfl⟩ :=
        Option.map_eq_some_iff.mp taken
      have outcome : (∀ name, state.shared.raw name = some .libc →
            shared.raw name = some .libc) ∧
          (∀ pc ∈ resolver.frames, PcSettled shared pc) ∧
          (shared.ready = true →
            state.shared.ready = true ∨ shared.AllLibc) := by
        have frames := inv.frames thread
        have notOverwriting := timely.2
        unfold Resolver.step at stepped
        unfold Resolver.overwrites at notOverwriting
        split at stepped
        · contradiction
        · rename_i outer active
          cases stepped
          rw [active] at frames
          exact ⟨fun _ holds => holds,
            fun pc member => frames pc (List.mem_cons_of_mem _ member),
            Or.inl⟩
        · rename_i pc outer _ active
          cases stepped
          rw [active] at frames notOverwriting
          have single := mttResolveStep_settled
            (state.threads thread).resolving timely.1
            (fun name rest atPrefill => by
              subst atPrefill
              simpa using notOverwriting)
            (frames pc List.mem_cons_self)
          refine ⟨single.kept, ?_, single.ready⟩
          intro other member
          rcases List.mem_cons.mp member with rfl | member
          · exact single.settled
          · exact (frames other (List.mem_cons_of_mem _ member)).mono
              single.kept
      obtain ⟨kept, own, ready⟩ := outcome
      refine ⟨?_, ?_⟩
      · intro nowReady
        rcases ready nowReady with before | all
        · exact fun name member => kept name (inv.ready before name member)
        · exact all
      · intro other pc member
        by_cases same : other = thread
        · subst same
          simp only [ResolveState.setThread, Function.update_self] at member
          exact own pc member
        · simp only [ResolveState.setThread,
            Function.update_of_ne same] at member
          exact (inv.frames other pc member).mono kept

theorem resolveInv_initial {Thread : Type} [DecidableEq Thread]
    {state : ResolveState Thread}
    (initial : (resolveSystem Thread).init state) : ResolveInv state := by
  obtain ⟨shared, threads⟩ := initial
  refine ⟨?_, ?_⟩
  · simp [shared, RawState.initial]
  · simp [threads, Resolver.idle]

theorem resolveInv_reachable {Thread : Type} [DecidableEq Thread]
    {state : ResolveState Thread}
    (reachable : (resolveSystem Thread).ReachableBy TimelyPrefill state) :
    ResolveInv state :=
  reachable.invariant ResolveInv (fun _ => resolveInv_initial)
    (fun _ _ _ inv timely taken => resolveInv_step inv timely taken)

theorem RawState.AllLibc.noBootstrap {shared : RawState}
    (all : shared.AllLibc) : shared.NoBootstrap := by
  intro name holds
  have resolved := all name (by cases name <;> simp [rawNames])
  rw [resolved] at holds
  contradiction

theorem mttResolveStep_ready {shared : RawState} {resolving : Bool}
    {reply : LinkerReply} {pc : ResolvePc} (ready : shared.ready = true) :
    (mttResolveStep shared resolving reply pc).1.ready = true := by
  cases pc with
  | cas =>
      dsimp only [mttResolveStep]
      split <;> exact ready
  | safeSet name rest =>
      dsimp only [mttResolveStep, rawSafeSet]
      split
      · exact ready
      · split <;> exact ready
  | refill candidate name rest =>
      dsimp only [mttResolveStep]
      split <;> exact ready
  | publish => rfl
  | loadReady | loadMalloc | prefill | test | dlopen | retest | confirm
  | returned => exact ready

theorem resolveNext_ready {Thread : Type} [DecidableEq Thread]
    {state target : ResolveState Thread} {label : ResolveLabel Thread}
    (ready : state.shared.ready = true)
    (taken : resolveNext state label = some target) :
    target.shared.ready = true := by
  cases label with
  | call thread =>
      simp only [resolveNext] at taken
      split at taken
      · obtain rfl := Option.some.inj taken
        exact ready
      · contradiction
  | step thread reply =>
      obtain ⟨⟨shared, resolver⟩, stepped, rfl⟩ :=
        Option.map_eq_some_iff.mp taken
      unfold Resolver.step at stepped
      split at stepped
      · contradiction
      · cases stepped
        exact ready
      · cases stepped
        exact mttResolveStep_ready ready

/-- When no delayed thread prefills a resolved pointer, a set `g_raw_ready`
means that all pointers hold libc functions, then and ever after. -/
theorem rawReady_noBootstrap {Thread : Type} [DecidableEq Thread]
    {state : ResolveState Thread}
    (reachable : (resolveSystem Thread).ReachableBy TimelyPrefill state)
    (ready : state.shared.ready = true) :
    state.shared.NoBootstrap ∧
      ∀ later, (resolveSystem Thread).StepsBy TimelyPrefill state later →
        later.shared.ready = true ∧ later.shared.NoBootstrap := by
  have settled : ∀ later : ResolveState Thread, ResolveInv later →
      later.shared.ready = true → later.shared.NoBootstrap :=
    fun later inv laterReady => (inv.ready laterReady).noBootstrap
  refine ⟨settled state (resolveInv_reachable reachable) ready, ?_⟩
  intro later steps
  have laterReady : later.shared.ready = true :=
    steps.preserves (fun state => state.shared.ready = true)
      (fun _ _ _ holds _ taken => resolveNext_ready holds taken) ready
  exact ⟨laterReady,
    settled later (resolveInv_reachable (reachable.extend steps)) laterReady⟩

/-- The replies of a linker that finds libc at once. -/
def libcReply : LinkerReply :=
  { symbol := some .libc
    dladdr := true
    handle := true }

def resolveStart (Thread : Type) : ResolveState Thread :=
  { shared := RawState.initial
    threads := fun _ => Resolver.idle }

theorem resolveStart_init (Thread : Type) [DecidableEq Thread] :
    (resolveSystem Thread).init (resolveStart Thread) :=
  ⟨rfl, fun _ => rfl⟩

/-- One thread resolves all pointers without interruption. -/
def fullResolution (thread : Worker) : List (ResolveLabel Worker) :=
  .call thread :: List.replicate 17 (.step thread libcReply)

/-- A thread that saw a NULL `raw_malloc` stores the bootstrap function only
after another thread has finished the resolution. -/
def delayedPrefill : List (ResolveLabel Worker) :=
  [.call .first, .step .first libcReply, .step .first libcReply] ++
    fullResolution .second ++ [.step .first libcReply]

theorem rawReady_noBootstrap_fullResolution :
    ∃ state, (resolveSystem Worker).ReachableBy TimelyPrefill state ∧
      state.shared.ready = true ∧ state.shared.NoBootstrap := by
  obtain ⟨state, reachable, ready⟩ :=
    System.exists_reachableBy_of_runBy (resolveSystem Worker) TimelyPrefill
      (fun state => state.shared.ready) (fullResolution .first)
      (resolveStart_init Worker) (by decide)
  exact ⟨state, reachable, ready, (rawReady_noBootstrap reachable ready).1⟩

theorem rawReady_bootstrap_after_delayedPrefill :
    ¬ ∀ state,
      (resolveSystem Worker).ReachableBy LookupsFromLibc state →
      state.shared.ready = true → state.shared.NoBootstrap := by
  intro claimed
  obtain ⟨state, reachable, broken⟩ :=
    System.exists_reachableBy_of_runBy (resolveSystem Worker) LookupsFromLibc
      (fun state => state.shared.ready &&
        (state.shared.raw .malloc == some .bootstrap))
      delayedPrefill (resolveStart_init Worker) (by decide)
  simp only [Bool.and_eq_true, beq_iff_eq] at broken
  exact claimed state reachable broken.1 .malloc broken.2

end MemoryTraceTool
