import MemoryTraceTool.Basic
import MemoryTraceTool.Lib.Transition

/-!
# Crash protection of the unwinders

`mtt_libunwind_capture` and `mtt_safe_backtrace` run an unwinder that may
fault.  While they hold `g_unwind_mutex` they install a handler for `SIGSEGV`
and `SIGBUS` that jumps back to their `sigsetjmp`.  The handler is a property
of the process, so a fault of any thread runs it, and it decides by one global
flag.  Every store to a shared variable is one step.
-/

namespace MemoryTraceTool.Unwind

open Transition

inductive CrashSignal where
  | segv
  | bus
  deriving DecidableEq, Repr

/-- What a signal leads to: the default action, the handler of the application
at an address, or `mtt_unwind_crash_handler`. -/
inductive Disposition where
  | dfl
  | application (handler : Word)
  | crashHandler
  deriving DecidableEq, Repr

/-- The two functions that install the crash handlers. -/
inductive CaptureFunction where
  | mttLibunwindCapture
  | mttSafeBacktrace
  deriving DecidableEq, Repr

/-- The control points of a capture, each named after the step it takes
next. -/
inductive CapturePc where
  | lock
  | installSegv
  | installBus
  | reset
  | raiseFlag
  | sigsetjmp
  | unwind
  | clearFlag
  | restoreSegv
  | restoreBus
  | unlock
  | disable
  deriving DecidableEq, Repr

/-- A capture in progress.  `serial` tells it apart from all captures before
it, `sig` is what `sigsetjmp` returned, and `n` counts the frames. -/
structure Capture where
  function : CaptureFunction
  maxFrames : Nat
  serial : Nat
  pc : CapturePc
  oldSegv : Disposition
  oldBus : Disposition
  sig : Option CrashSignal
  n : Nat
  deriving DecidableEq, Repr

/-- The control points of `mtt_unwind_crash_handler`. -/
inductive HandlerPc where
  | test
  | record
  | clearFlag
  | siglongjmp
  | restoreDefault
  | raise
  deriving DecidableEq, Repr

/-- One activation of the crash handler; `siAddr` is the faulting address. -/
structure HandlerFrame where
  signal : CrashSignal
  siAddr : Word
  pc : HandlerPc
  deriving DecidableEq, Repr

/-- `handlers` are the activations of the crash handler on top of whatever
the thread was doing, innermost first; the handler does not block its own
signals. -/
structure ThreadState where
  capture : Option Capture
  handlers : List HandlerFrame
  disabled : Bool
  returned : Int
  deriving DecidableEq, Repr

/-- `gUnwindJmp` names the thread and the capture whose `sigsetjmp` filled the
buffer last. -/
structure State (Thread : Type) where
  gUnwindMutex : Option Thread
  gInUnwindCall : Bool
  gUnwindJmp : Option (Thread × Nat)
  gUnwindSafeFrames : Nat
  gCrashAddr : Word
  handler : CrashSignal → Disposition
  alive : Bool
  started : Nat
  threads : Thread → ThreadState

/-- `advance` is a step of the handler or of the capture a thread is in; in the
unwinder, `frames` is what the walk of the stack finds.  The application may
call `sigaction` itself. -/
inductive Label (Thread : Type) where
  | start (thread : Thread) (function : CaptureFunction) (maxFrames : Nat)
  | advance (thread : Thread) (frames : Nat)
  | fault (thread : Thread) (signal : CrashSignal) (siAddr : Word)
  | sigaction (signal : CrashSignal) (disposition : Disposition)

variable {Thread : Type} [DecidableEq Thread]

def State.setThread (state : State Thread) (thread : Thread)
    (later : ThreadState) : State Thread :=
  { state with threads := Function.update state.threads thread later }

def State.sigaction (state : State Thread) (signal : CrashSignal)
    (disposition : Disposition) : State Thread :=
  { state with handler := Function.update state.handler signal disposition }

/-- The value a capture returns after `unlock`. -/
def Capture.result (capture : Capture) : Int :=
  match capture.function, capture.sig with
  | _, none => capture.n
  | .mttLibunwindCapture, some _ => if 1 ≤ capture.n then capture.n else -1
  | .mttSafeBacktrace, some _ => 0

/-- One step of `mtt_libunwind_capture` or `mtt_safe_backtrace`; `none` while
the mutex is taken. -/
def captureStep (state : State Thread) (thread : Thread) (own : ThreadState)
    (capture : Capture) (frames : Nat) : Option (State Thread) :=
  let goto (state : State Thread) (capture : Capture) :=
    some (state.setThread thread { own with capture := some capture })
  match capture.pc with
  | .lock =>
      if state.gUnwindMutex = none then
        goto { state with gUnwindMutex := some thread }
          { capture with pc := .installSegv }
      else none
  | .installSegv =>
      goto (state.sigaction .segv .crashHandler)
        { capture with pc := .installBus, oldSegv := state.handler .segv }
  | .installBus =>
      goto (state.sigaction .bus .crashHandler)
        { capture with
          pc := match capture.function with
            | .mttLibunwindCapture => .reset
            | .mttSafeBacktrace => .raiseFlag
          oldBus := state.handler .bus }
  | .reset =>
      goto { state with gUnwindSafeFrames := 0, gCrashAddr := 0 }
        { capture with pc := .raiseFlag }
  | .raiseFlag =>
      goto { state with gInUnwindCall := true }
        { capture with pc := .sigsetjmp }
  | .sigsetjmp =>
      goto { state with gUnwindJmp := some (thread, capture.serial) }
        { capture with pc := .unwind }
  | .unwind =>
      match capture.function with
      | .mttLibunwindCapture =>
          if frames = 0 ∨ capture.maxFrames ≤ capture.n then
            goto state { capture with pc := .clearFlag }
          else
            goto { state with gUnwindSafeFrames := capture.n + 1 }
              { capture with n := capture.n + 1 }
      | .mttSafeBacktrace =>
          goto state
            { capture with pc := .clearFlag, n := min frames capture.maxFrames }
  | .clearFlag =>
      goto { state with gInUnwindCall := false }
        { capture with
          pc := .restoreSegv
          n := match capture.function, capture.sig with
            | .mttLibunwindCapture, some _ => state.gUnwindSafeFrames
            | _, _ => capture.n }
  | .restoreSegv =>
      goto (state.sigaction .segv capture.oldSegv)
        { capture with pc := .restoreBus }
  | .restoreBus =>
      goto (state.sigaction .bus capture.oldBus)
        { capture with pc := .unlock }
  | .unlock =>
      let state := { state with gUnwindMutex := none }
      match capture.function, capture.sig with
      | .mttLibunwindCapture, some _ =>
          goto state { capture with pc := .disable }
      | _, _ =>
          some (state.setThread thread
            { own with capture := none, returned := capture.result })
  | .disable =>
      some (state.setThread thread
        { own with
          capture := none, disabled := true, returned := capture.result })

/-- The default action of both signals ends the process; a handler of the
application returns, and the crash handler starts. -/
def deliver (state : State Thread) (thread : Thread) (own : ThreadState)
    (signal : CrashSignal) (siAddr : Word) : State Thread :=
  match state.handler signal with
  | .dfl => { state with alive := false }
  | .application _ => state.setThread thread own
  | .crashHandler =>
      state.setThread thread
        { own with
          handlers := { signal, siAddr, pc := .test } :: own.handlers }

/-- `siglongjmp` leaves the handlers and returns from the `sigsetjmp` that
filled the buffer; when that call is not one of this thread's live frames, the
behaviour is undefined. -/
def siglongjmp (state : State Thread) (thread : Thread) (own : ThreadState)
    (signal : CrashSignal) : Option (State Thread) :=
  match own.capture with
  | none => none
  | some capture =>
      if state.gUnwindJmp = some (thread, capture.serial) then
        some (state.setThread thread
          { own with
            capture := some { capture with pc := .clearFlag, sig := signal }
            handlers := [] })
      else none

/-- One step of `mtt_unwind_crash_handler`. -/
def handlerStep (state : State Thread) (thread : Thread) (own : ThreadState)
    (frame : HandlerFrame) (rest : List HandlerFrame) :
    Option (State Thread) :=
  let goto (state : State Thread) (pc : HandlerPc) :=
    some (state.setThread thread
      { own with handlers := { frame with pc } :: rest })
  match frame.pc with
  | .test =>
      goto state (if state.gInUnwindCall then .record else .restoreDefault)
  | .record => goto { state with gCrashAddr := frame.siAddr } .clearFlag
  | .clearFlag => goto { state with gInUnwindCall := false } .siglongjmp
  | .siglongjmp => siglongjmp state thread own frame.signal
  | .restoreDefault => goto (state.sigaction frame.signal .dfl) .raise
  | .raise =>
      some (deliver state thread { own with handlers := rest } frame.signal
        frame.siAddr)

/-- A call that returns before it takes the mutex leaves its result only. -/
def startCapture (state : State Thread) (thread : Thread) (own : ThreadState)
    (function : CaptureFunction) (maxFrames : Nat) : State Thread :=
  if maxFrames = 0 ∨ (function = .mttLibunwindCapture ∧ own.disabled) then
    state.setThread thread
      { own with returned :=
          match function with
          | .mttLibunwindCapture => -1
          | .mttSafeBacktrace => 0 }
  else
    { state.setThread thread
        { own with
          capture := some
            { function, maxFrames, serial := state.started, pc := .lock
              oldSegv := .dfl, oldBus := .dfl, sig := none, n := 0 } } with
      started := state.started + 1 }

/-- Captures, signals and handlers of all threads interleave. -/
def unwindNext (state : State Thread) :
    Label Thread → Option (State Thread)
  | .start thread function maxFrames =>
      let own := state.threads thread
      if state.alive ∧ own.capture = none ∧ own.handlers = [] then
        some (startCapture state thread own function maxFrames)
      else none
  | .advance thread frames =>
      let own := state.threads thread
      if state.alive then
        match own.handlers, own.capture with
        | frame :: rest, _ => handlerStep state thread own frame rest
        | [], some capture => captureStep state thread own capture frames
        | [], none => none
      else none
  | .fault thread signal siAddr =>
      if state.alive then
        some (deliver state thread (state.threads thread) signal siAddr)
      else none
  | .sigaction signal disposition =>
      if state.alive then some (state.sigaction signal disposition) else none

/-- No thread captures or handles a signal, and the static variables have
their initial values. -/
structure State.Fresh (state : State Thread) : Prop where
  mutex : state.gUnwindMutex = none
  flag : state.gInUnwindCall = false
  jmp : state.gUnwindJmp = none
  idle : ∀ thread, (state.threads thread).capture = none ∧
    (state.threads thread).handlers = []

def system (Thread : Type) [DecidableEq Thread] :
    System (State Thread) (Label Thread) where
  init := State.Fresh
  next := unwindNext

/-! ## The jump -/

/-- From the lock to the unlock. -/
def CapturePc.holdsMutex : CapturePc → Bool
  | .lock | .disable => false
  | _ => true

/-- Between the `sigsetjmp` and the end of the protected call. -/
def CapturePc.guarded : CapturePc → Bool
  | .unwind | .clearFlag => true
  | _ => false

/-- Past a test of the flag that found it set. -/
def HandlerPc.committed : HandlerPc → Bool
  | .record | .clearFlag | .siglongjmp => true
  | _ => false

/-- A thread whose next step is the jump has filled the buffer in the capture
it is in, and still holds the mutex. -/
def JumpsHome (state : State Thread) : Prop :=
  ∀ thread frame rest, (state.threads thread).handlers = frame :: rest →
    frame.pc = .siglongjmp →
    state.gUnwindMutex = some thread ∧
      ∃ capture, (state.threads thread).capture = some capture ∧
        capture.pc.guarded ∧
        state.gUnwindJmp = some (thread, capture.serial)

def ThreadState.Guarded (own : ThreadState) : Prop :=
  ∃ capture, own.capture = some capture ∧ capture.pc.guarded

instance (own : ThreadState) : Decidable own.Guarded :=
  match found : own.capture with
  | none => isFalse fun ⟨_, here, _⟩ => by rw [found] at here; cases here
  | some capture =>
      decidable_of_iff (capture.pc.guarded = true)
        ⟨fun inside => ⟨capture, found, inside⟩, fun ⟨other, here, inside⟩ => by
          rw [found] at here
          cases here
          exact inside⟩

/-- A handler that finds the flag set runs in a thread that is itself between
its `sigsetjmp` and the clearing of the flag. -/
def TestsAtHome (state : State Thread) : Label Thread → Prop
  | .advance thread _ =>
      ∀ frame ∈ (state.threads thread).handlers.head?, frame.pc = .test →
        state.gInUnwindCall = true → (state.threads thread).Guarded
  | _ => True

instance (state : State Thread) (label : Label Thread) :
    Decidable (TestsAtHome state label) := by
  cases label <;> unfold TestsAtHome <;> infer_instance

/-- What holds of one thread throughout a run whose tests are at home. -/
structure Orderly (state : State Thread) (thread : Thread) : Prop where
  owns : ∀ capture, (state.threads thread).capture = some capture →
    capture.pc.holdsMutex → state.gUnwindMutex = some thread
  filled : ∀ capture, (state.threads thread).capture = some capture →
    capture.pc.guarded →
    state.gUnwindJmp = some (thread, capture.serial)
  committed : ∀ frame ∈ (state.threads thread).handlers,
    frame.pc.committed → (state.threads thread).Guarded

theorem CapturePc.guarded_holdsMutex {pc : CapturePc}
    (inside : pc.guarded = true) : pc.holdsMutex = true := by
  cases pc <;> first | rfl | cases inside

/-- What a step does to the other threads, and that the acting thread is left
in order. -/
structure Effect (state later : State Thread) (thread : Thread) : Prop where
  frame : ∀ other, other ≠ thread →
    later.threads other = state.threads other
  mutex : later.gUnwindMutex = state.gUnwindMutex ∨
    state.gUnwindMutex = none ∨ state.gUnwindMutex = some thread
  jmp : later.gUnwindJmp = state.gUnwindJmp ∨
    state.gUnwindMutex = some thread
  orderly : Orderly later thread

theorem Effect.orderly_all {state later : State Thread} {thread : Thread}
    (effect : Effect state later thread)
    (all : ∀ other, Orderly state other) (other : Thread) :
    Orderly later other := by
  by_cases here : other = thread
  · rw [here]
    exact effect.orderly
  · have same := effect.frame other here
    have before := all other
    constructor
    · intro capture found holds
      rw [same] at found
      have owner := before.owns capture found holds
      rcases effect.mutex with kept | free | mine
      · rw [kept, owner]
      · rw [free] at owner
        cases owner
      · rw [mine, Option.some.injEq] at owner
        exact (here owner.symm).elim
    · intro capture found inside
      rw [same] at found
      have owner := before.owns capture found
        (CapturePc.guarded_holdsMutex inside)
      rcases effect.jmp with kept | mine
      · rw [kept]
        exact before.filled capture found inside
      · rw [mine, Option.some.injEq] at owner
        exact (here owner.symm).elim
    · rw [same]
      exact before.committed

theorem State.setThread_frame (state : State Thread) (thread : Thread)
    (own : ThreadState) :
    ∀ other, other ≠ thread →
      (state.setThread thread own).threads other = state.threads other :=
  fun _ different => Function.update_of_ne different _ _

theorem Orderly.setThread {state : State Thread} {thread : Thread}
    {own : ThreadState}
    (owns : ∀ capture, own.capture = some capture →
      capture.pc.holdsMutex → state.gUnwindMutex = some thread)
    (filled : ∀ capture, own.capture = some capture → capture.pc.guarded →
      state.gUnwindJmp = some (thread, capture.serial))
    (committed : ∀ frame ∈ own.handlers, frame.pc.committed → own.Guarded) :
    Orderly (state.setThread thread own) thread := by
  constructor <;> simp only [State.setThread, Function.update_self]
  · exact owns
  · exact filled
  · exact committed

theorem Orderly.setCapture {state : State Thread} {thread : Thread}
    {own : ThreadState} {capture : Capture}
    (here : own.capture = some capture) (idle : own.handlers = [])
    (owns : capture.pc.holdsMutex → state.gUnwindMutex = some thread)
    (filled : capture.pc.guarded →
      state.gUnwindJmp = some (thread, capture.serial)) :
    Orderly (state.setThread thread own) thread := by
  apply Orderly.setThread
  · intro other found
    cases here.symm.trans found
    exact owns
  · intro other found
    cases here.symm.trans found
    exact filled
  · intro frame member
    rw [idle] at member
    cases member

/-- A thread in neither a capture nor a handler is in order. -/
theorem Orderly.setIdle {state : State Thread} {thread : Thread}
    {own : ThreadState} (left : own.capture = none)
    (idle : own.handlers = []) :
    Orderly (state.setThread thread own) thread := by
  apply Orderly.setThread
  · intro capture found
    rw [left] at found
    cases found
  · intro capture found
    rw [left] at found
    cases found
  · intro frame member
    rw [idle] at member
    cases member

/-- A step that writes the state of its own thread, and of the mutex only when
no other thread holds it. -/
theorem Effect.of_own {state middle : State Thread} {thread : Thread}
    {own : ThreadState} (threads : middle.threads = state.threads)
    (mutex : middle.gUnwindMutex = state.gUnwindMutex ∨
      state.gUnwindMutex = none ∨ state.gUnwindMutex = some thread)
    (jmp : middle.gUnwindJmp = state.gUnwindJmp ∨
      state.gUnwindMutex = some thread)
    (orderly : Orderly (middle.setThread thread own) thread) :
    Effect state (middle.setThread thread own) thread := by
  constructor
  · intro other different
    rw [State.setThread_frame _ _ _ other different, threads]
  · exact mutex
  · exact jmp
  · exact orderly

/-- A step inside the mutex that keeps the mutex and the buffer. -/
theorem Effect.of_goto {state middle : State Thread} {thread : Thread}
    {own : ThreadState} {capture : Capture} (idle : own.handlers = [])
    (threads : middle.threads = state.threads)
    (owner : state.gUnwindMutex = some thread)
    (mutex : middle.gUnwindMutex = state.gUnwindMutex)
    (filled : capture.pc.guarded →
      middle.gUnwindJmp = some (thread, capture.serial)) :
    Effect state
      (middle.setThread thread { own with capture := some capture })
      thread := by
  refine Effect.of_own threads (.inl mutex) (.inr owner) ?_
  refine Orderly.setCapture rfl idle ?_ ?_
  · intro _
    rw [mutex, owner]
  · exact filled

theorem captureStep_effect {state later : State Thread} {thread : Thread}
    {capture : Capture} {frames : Nat}
    (orderly : Orderly state thread)
    (found : (state.threads thread).capture = some capture)
    (idle : (state.threads thread).handlers = [])
    (taken : captureStep state thread (state.threads thread) capture frames =
      some later) :
    Effect state later thread := by
  have owner := orderly.owns capture found
  have filled := orderly.filled capture found
  cases at_ : capture.pc with
  | lock =>
      simp only [captureStep, at_] at taken
      split at taken
      · rename_i free
        cases taken
        refine Effect.of_own rfl (.inr (.inl free)) (.inl rfl) ?_
        refine Orderly.setCapture rfl idle ?_ ?_
        · exact fun _ => rfl
        · intro inside
          cases inside
      · cases taken
  | installSegv | restoreSegv | restoreBus | reset | raiseFlag =>
      rw [at_] at owner
      simp only [captureStep, at_, Option.some.injEq] at taken
      subst taken
      refine Effect.of_goto idle rfl (owner rfl) rfl ?_
      intro inside
      cases inside
  | installBus =>
      rw [at_] at owner
      simp only [captureStep, at_, Option.some.injEq] at taken
      subst taken
      refine Effect.of_goto idle rfl (owner rfl) rfl ?_
      intro inside
      cases function : capture.function <;> rw [function] at inside <;>
        cases inside
  | clearFlag =>
      rw [at_] at owner
      simp only [captureStep, at_, Option.some.injEq] at taken
      subst taken
      refine Effect.of_goto idle rfl (owner rfl) rfl ?_
      intro inside
      cases inside
  | sigsetjmp =>
      rw [at_] at owner
      simp only [captureStep, at_, Option.some.injEq] at taken
      subst taken
      refine Effect.of_goto idle rfl (owner rfl) rfl ?_
      exact fun _ => rfl
  | unwind =>
      rw [at_] at owner filled
      simp only [captureStep, at_] at taken
      cases function : capture.function with
      | mttLibunwindCapture =>
          simp only [function] at taken
          split at taken
          · cases taken
            refine Effect.of_goto idle rfl (owner rfl) rfl ?_
            exact fun _ => filled rfl
          · cases taken
            refine Effect.of_goto idle rfl (owner rfl) rfl ?_
            exact fun _ => filled rfl
      | mttSafeBacktrace =>
          simp only [function, Option.some.injEq] at taken
          subst taken
          refine Effect.of_goto idle rfl (owner rfl) rfl ?_
          exact fun _ => filled rfl
  | unlock =>
      rw [at_] at owner
      simp only [captureStep, at_] at taken
      split at taken
      · cases taken
        refine Effect.of_own rfl (.inr (.inr (owner rfl))) (.inl rfl) ?_
        refine Orderly.setCapture rfl idle ?_ ?_
        · intro holds
          cases holds
        · intro inside
          cases inside
      · cases taken
        refine Effect.of_own rfl (.inr (.inr (owner rfl))) (.inl rfl) ?_
        exact Orderly.setIdle rfl idle
  | disable =>
      simp only [captureStep, at_, Option.some.injEq] at taken
      subst taken
      apply Effect.of_own rfl (.inl rfl) (.inl rfl)
      exact Orderly.setIdle rfl idle

/-- A step of a thread that keeps its capture keeps the order when each
committed handler was committed before, or the thread is in its protected
call. -/
theorem Effect.of_handlers {state middle : State Thread} {thread : Thread}
    {handlers : List HandlerFrame} (orderly : Orderly state thread)
    (threads : middle.threads = state.threads)
    (mutex : middle.gUnwindMutex = state.gUnwindMutex)
    (jmp : middle.gUnwindJmp = state.gUnwindJmp)
    (committed : ∀ frame ∈ handlers, frame.pc.committed →
      (state.threads thread).Guarded) :
    Effect state
      (middle.setThread thread
        { state.threads thread with handlers := handlers })
      thread := by
  apply Effect.of_own threads (.inl mutex) (.inl jmp)
  apply Orderly.setThread
  · rw [mutex]
    exact orderly.owns
  · rw [jmp]
    exact orderly.filled
  · exact committed

theorem deliver_effect {state : State Thread} {thread : Thread}
    {handlers : List HandlerFrame} (orderly : Orderly state thread)
    (kept : ∀ frame ∈ handlers, frame ∈ (state.threads thread).handlers)
    (signal : CrashSignal) (siAddr : Word) :
    Effect state
      (deliver state thread
        { state.threads thread with handlers := handlers } signal siAddr)
      thread := by
  have before : ∀ frame ∈ handlers, frame.pc.committed →
      (state.threads thread).Guarded :=
    fun frame member => orderly.committed frame (kept frame member)
  simp only [deliver]
  split
  · constructor
    · exact fun _ _ => rfl
    · exact .inl rfl
    · exact .inl rfl
    · exact ⟨orderly.owns, orderly.filled, orderly.committed⟩
  · exact Effect.of_handlers orderly rfl rfl rfl before
  · refine Effect.of_handlers orderly rfl rfl rfl ?_
    intro frame member passed
    rcases List.mem_cons.mp member with rfl | member
    · cases passed
    · exact before frame member passed

theorem handlerStep_effect {state later : State Thread} {thread : Thread}
    {frame : HandlerFrame} {rest : List HandlerFrame}
    (orderly : Orderly state thread)
    (found : (state.threads thread).handlers = frame :: rest)
    (home : frame.pc = .test → state.gInUnwindCall = true →
      (state.threads thread).Guarded)
    (taken : handlerStep state thread (state.threads thread) frame rest =
      some later) :
    Effect state later thread := by
  have before : ∀ other ∈ rest, other.pc.committed →
      (state.threads thread).Guarded := by
    intro other member
    apply orderly.committed other
    rw [found]
    exact List.mem_cons_of_mem _ member
  have current : frame.pc.committed → (state.threads thread).Guarded := by
    apply orderly.committed frame
    rw [found]
    exact List.mem_cons_self
  cases at_ : frame.pc with
  | test =>
      simp only [handlerStep, at_, Option.some.injEq] at taken
      subst taken
      refine Effect.of_handlers orderly rfl rfl rfl ?_
      intro other member passed
      rcases List.mem_cons.mp member with rfl | member
      · by_cases flag : state.gInUnwindCall = true
        · exact home at_ flag
        · rw [if_neg flag] at passed
          cases passed
      · exact before other member passed
  | record | clearFlag =>
      simp only [handlerStep, at_, Option.some.injEq] at taken
      subst taken
      refine Effect.of_handlers orderly rfl rfl rfl ?_
      intro other member passed
      rcases List.mem_cons.mp member with rfl | member
      · apply current
        rw [at_]
        rfl
      · exact before other member passed
  | siglongjmp =>
      obtain ⟨capture, inside, guarded⟩ := current (by rw [at_]; rfl)
      simp only [handlerStep, at_, siglongjmp, inside] at taken
      split at taken
      · rename_i filled
        cases taken
        have owner := orderly.owns capture inside
          (CapturePc.guarded_holdsMutex guarded)
        apply Effect.of_own rfl (.inl rfl) (.inl rfl)
        refine Orderly.setCapture rfl rfl ?_ ?_
        · exact fun _ => owner
        · exact fun _ => filled
      · cases taken
  | restoreDefault =>
      simp only [handlerStep, at_, Option.some.injEq] at taken
      subst taken
      refine Effect.of_handlers orderly rfl rfl rfl ?_
      intro other member passed
      rcases List.mem_cons.mp member with rfl | member
      · cases passed
      · exact before other member passed
  | raise =>
      simp only [handlerStep, at_, Option.some.injEq] at taken
      subst taken
      apply deliver_effect orderly
      intro other member
      rw [found]
      exact List.mem_cons_of_mem _ member

theorem startCapture_effect {state : State Thread} {thread : Thread}
    (left : (state.threads thread).capture = none)
    (idle : (state.threads thread).handlers = [])
    (function : CaptureFunction) (maxFrames : Nat) :
    Effect state
      (startCapture state thread (state.threads thread) function maxFrames)
      thread := by
  simp only [startCapture]
  split
  · apply Effect.of_own rfl (.inl rfl) (.inl rfl)
    exact Orderly.setIdle left idle
  · constructor
    · exact State.setThread_frame _ _ _
    · exact .inl rfl
    · exact .inl rfl
    · exact @Orderly.setCapture Thread _
        { state with started := state.started + 1 } thread _ _ rfl idle nofun
        nofun

theorem unwindNext_orderly {state later : State Thread}
    {label : Label Thread} (all : ∀ thread, Orderly state thread)
    (home : TestsAtHome state label)
    (taken : unwindNext state label = some later) :
    ∀ thread, Orderly later thread := by
  cases label with
  | start thread function maxFrames =>
      simp only [unwindNext] at taken
      split at taken
      · rename_i free
        cases taken
        exact (startCapture_effect free.2.1 free.2.2 function
          maxFrames).orderly_all all
      · cases taken
  | advance thread frames =>
      simp only [unwindNext] at taken
      split at taken
      · split at taken
        · rename_i frame rest found
          refine (handlerStep_effect (all thread) found ?_ taken).orderly_all
            all
          apply home frame
          rw [found]
          rfl
        · rename_i capture idle found
          exact (captureStep_effect (all thread) found idle taken).orderly_all
            all
        · cases taken
      · cases taken
  | fault thread signal siAddr =>
      simp only [unwindNext] at taken
      split at taken
      · cases taken
        exact (deliver_effect (all thread) (fun _ => id) signal
          siAddr).orderly_all all
      · cases taken
  | sigaction signal disposition =>
      simp only [unwindNext] at taken
      split at taken
      · cases taken
        exact fun thread =>
          ⟨(all thread).owns, (all thread).filled, (all thread).committed⟩
      · cases taken

omit [DecidableEq Thread] in
theorem State.Fresh.orderly {state : State Thread} (fresh : state.Fresh)
    (thread : Thread) : Orderly state thread := by
  obtain ⟨left, idle⟩ := fresh.idle thread
  constructor
  · intro capture found
    rw [left] at found
    cases found
  · intro capture found
    rw [left] at found
    cases found
  · intro frame member
    rw [idle] at member
    cases member

/-- When every handler that finds the flag set runs in the thread between its
own `sigsetjmp` and the clearing of the flag, every jump returns to a
`sigsetjmp` of the same thread, which still holds the mutex. -/
theorem siglongjmp_home_of_testsAtHome {state : State Thread}
    (reachable : (system Thread).ReachableBy TestsAtHome state) :
    JumpsHome state := by
  have orderly := reachable.invariant (fun state =>
    ∀ thread, Orderly state thread) (fun _ => State.Fresh.orderly)
    (fun _ _ _ all home taken => unwindNext_orderly all home taken)
  intro thread frame rest found at_
  obtain ⟨capture, inside, guarded⟩ :=
    (orderly thread).committed frame (by rw [found]; exact List.mem_cons_self)
      (by rw [at_]; rfl)
  refine ⟨?_, capture, inside, guarded, ?_⟩
  · exact (orderly thread).owns capture inside
      (CapturePc.guarded_holdsMutex guarded)
  · exact (orderly thread).filled capture inside guarded

/-- Conversely a handler that finds the flag set anywhere else gets to a jump
astray within two steps. -/
theorem siglongjmp_astray_of_strayTest {state later : State Thread}
    {label : Label Thread} (stray : ¬ TestsAtHome state label)
    (taken : unwindNext state label = some later) :
    ∃ target, (system Thread).StepsBy (fun _ _ => True) later target ∧
      ¬ JumpsHome target := by
  cases label with
  | start | fault | sigaction => exact (stray trivial).elim
  | advance thread frames =>
      simp only [TestsAtHome, not_forall] at stray
      obtain ⟨frame, first, at_, flag, outside⟩ := stray
      obtain ⟨rest, found⟩ := List.head?_eq_some_iff.mp first
      simp only [unwindNext, found, handlerStep, at_, flag, if_true] at taken
      split at taken
      · rename_i alive
        cases taken
        let goto (state : State Thread) (pc : HandlerPc) : State Thread :=
          state.setThread thread
            { state.threads thread with handlers := { frame with pc } :: rest }
        let recorded : State Thread :=
          goto { goto state .record with gCrashAddr := frame.siAddr } .clearFlag
        let cleared : State Thread :=
          goto { recorded with gInUnwindCall := false } .siglongjmp
        have recording : unwindNext (goto state .record)
            (.advance thread frames) = some recorded := by
          simp [unwindNext, handlerStep, goto, recorded, State.setThread, alive]
        have clearing : unwindNext recorded (.advance thread frames) =
            some cleared := by
          simp [unwindNext, handlerStep, goto, recorded, cleared,
            State.setThread, alive]
        refine ⟨cleared, ?_, ?_⟩
        · have begun : (system Thread).StepsBy (fun _ _ => True)
              (goto state .record) (goto state .record) := .refl _
          have recordingStep : (system Thread).next (goto state .record)
              (.advance thread frames) = some recorded := recording
          have clearingStep : (system Thread).next recorded
              (.advance thread frames) = some cleared := clearing
          exact (begun.tail trivial recordingStep).tail trivial clearingStep
        · intro home
          obtain ⟨-, capture, inside, guarded, -⟩ :=
            home thread { frame with pc := .siglongjmp } rest
              (by simp [cleared, goto, State.setThread]) rfl
          apply outside
          refine ⟨capture, ?_, guarded⟩
          simpa [cleared, recorded, goto, State.setThread] using inside
      · cases taken

/-- A process that leaves both signals at their default. -/
def freshState (Thread : Type) : State Thread :=
  { gUnwindMutex := none
    gInUnwindCall := false
    gUnwindJmp := none
    gUnwindSafeFrames := 0
    gCrashAddr := 0
    handler := fun _ => .dfl
    alive := true
    started := 0
    threads := fun _ =>
      { capture := none, handlers := [], disabled := false, returned := 0 } }

theorem freshState_init (Thread : Type) [DecidableEq Thread] :
    (system Thread).init (freshState Thread) :=
  ⟨rfl, rfl, rfl, fun _ => ⟨rfl, rfl⟩⟩

/-- A thread starts a capture and gets into its unwinder, where it finds two
frames. -/
def unwinding (thread : Worker) : List (Label Worker) :=
  .start thread .mttLibunwindCapture 64 ::
    List.replicate 8 (.advance thread 1)

/-- A thread faults and runs the handler up to the jump. -/
def faulting (thread : Worker) : List (Label Worker) :=
  .fault thread .segv 0 :: List.replicate 3 (.advance thread 0)

theorem exists_frame_of_head_pc {state : State Worker} {thread : Worker}
    (jumping : (state.threads thread).handlers.head?.map HandlerFrame.pc =
      some .siglongjmp) :
    ∃ frame rest, (state.threads thread).handlers = frame :: rest ∧
      frame.pc = .siglongjmp := by
  cases found : (state.threads thread).handlers with
  | nil => simp [found] at jumping
  | cons frame rest =>
      refine ⟨frame, rest, rfl, ?_⟩
      simpa [found] using jumping

/-- A capture whose unwinder faults jumps back to itself. -/
theorem siglongjmp_home_crashedCapture :
    ∃ state, (system Worker).ReachableBy TestsAtHome state ∧
      (state.threads .first).handlers.head?.map HandlerFrame.pc =
        some .siglongjmp ∧ JumpsHome state := by
  obtain ⟨state, reachable, jumping⟩ :=
    System.exists_reachableBy_of_runBy (system Worker) TestsAtHome
      (fun state => (state.threads .first).handlers.head?.map
        HandlerFrame.pc == some .siglongjmp)
      (unwinding .first ++ faulting .first) (freshState_init Worker)
      (by decide)
  exact ⟨state, reachable, beq_iff_eq.mp jumping,
    siglongjmp_home_of_testsAtHome reachable⟩

/-- While one thread unwinds, another thread faults and jumps into its
stack. -/
theorem siglongjmp_astray_otherThread :
    ¬ ∀ state, (system Worker).Reachable state → JumpsHome state := by
  intro claimed
  obtain ⟨state, reachable, test⟩ :=
    System.exists_reachable_of_run (system Worker)
      (fun state => ((state.threads .second).handlers.head?.map
        HandlerFrame.pc == some .siglongjmp) &&
          (state.gUnwindMutex == some .first))
      (unwinding .first ++ faulting .second) (freshState_init Worker)
      (by decide)
  simp only [Bool.and_eq_true, beq_iff_eq] at test
  obtain ⟨jumping, owner⟩ := test
  obtain ⟨frame, rest, found, at_⟩ := exists_frame_of_head_pc jumping
  have own := (claimed state reachable .second frame rest found at_).1
  rw [owner] at own
  cases own

end MemoryTraceTool.Unwind
