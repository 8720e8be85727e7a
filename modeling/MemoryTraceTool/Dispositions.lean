import MemoryTraceTool.Unwind

/-!
# The signal dispositions of the application

A capture saves what `SIGSEGV` and `SIGBUS` lead to, installs its own handler
and later restores what it saved.  The application may call `sigaction` at any
moment in between.  What the application installed last is kept beside the
state; no function of the tool reads it.
-/

namespace MemoryTraceTool.Unwind

open Transition

variable {Thread : Type} [DecidableEq Thread]

/-- The thread runs the unwinder of its capture. -/
def ThreadState.InUnwinder (own : ThreadState) : Prop :=
  own.handlers = [] ∧ own.capture.map Capture.pc = some .unwind

instance (own : ThreadState) : Decidable own.InUnwinder :=
  inferInstanceAs (Decidable (_ ∧ _))

/-- A crash of a capture, if it is a crash at all. -/
def State.CrashesInside (state : State Thread) : Label Thread → Prop
  | .fault thread _ _ => (state.threads thread).InUnwinder
  | _ => True

instance (state : State Thread) (label : Label Thread) :
    Decidable (state.CrashesInside label) :=
  match label with
  | .fault thread _ _ =>
      inferInstanceAs (Decidable (state.threads thread).InUnwinder)
  | .start .. | .advance .. | .sigaction .. => isTrue trivial

/-- What the application has installed, with this label as its last call. -/
def Label.wanted (label : Label Thread)
    (before : CrashSignal → Disposition) : CrashSignal → Disposition :=
  match label with
  | .sigaction signal disposition => Function.update before signal disposition
  | _ => before

/-- The handlers, and what the application last asked for. -/
structure Watched (Thread : Type) where
  state : State Thread
  wanted : CrashSignal → Disposition

/-- Captures, crashing or not, and calls of `sigaction` by the application. -/
def watchedNext (watched : Watched Thread) (label : Label Thread) :
    Option (Watched Thread) :=
  if watched.state.CrashesInside label then
    (unwindNext watched.state label).map fun state =>
      { state, wanted := label.wanted watched.wanted }
  else none

def watchedSystem (Thread : Type) [DecidableEq Thread] :
    System (Watched Thread) (Label Thread) where
  init := fun watched =>
    watched.state.Fresh ∧ watched.wanted = watched.state.handler
  next := watchedNext

/-- No thread is in a capture. -/
def State.Quiet (state : State Thread) : Prop :=
  ∀ thread, (state.threads thread).capture = none

/-! ## What is saved -/

/-- From the `sigaction` that saves what a signal leads to, to the one that
restores it. -/
def CapturePc.lends : CapturePc → CrashSignal → Bool
  | .reset, _ | .raiseFlag, _ | .sigsetjmp, _ | .unwind, _ | .clearFlag, _
  | .restoreSegv, _ => true
  | .installBus, .segv | .restoreBus, .bus => true
  | _, _ => false

def Capture.old (capture : Capture) : CrashSignal → Disposition
  | .segv => capture.oldSegv
  | .bus => capture.oldBus

/-- What the capture keeps of the application while its own handler stands in.
-/
def Capture.lent (capture : Capture) (signal : CrashSignal) :
    Option Disposition :=
  if capture.pc.lends signal then some (capture.old signal) else none

/-- What the capture in the mutex will restore. -/
def State.saved (state : State Thread) (signal : CrashSignal) :
    Option Disposition :=
  state.gUnwindMutex.bind fun thread =>
    (state.threads thread).capture.bind fun capture => capture.lent signal

/-- A call of `sigaction` while the signal is lent installs only what will be
restored. -/
def Careful (watched : Watched Thread) : Label Thread → Prop
  | .sigaction signal disposition =>
      ∀ old ∈ watched.state.saved signal, disposition = old
  | _ => True

instance (watched : Watched Thread) (label : Label Thread) :
    Decidable (Careful watched label) :=
  match label with
  | .sigaction signal disposition =>
      inferInstanceAs (Decidable
        (∀ old ∈ watched.state.saved signal, disposition = old))
  | .start .. | .advance .. | .fault .. => isTrue trivial

/-- What a signal will lead to once the capture in the mutex is over. -/
def State.due (state : State Thread) (signal : CrashSignal) : Disposition :=
  (state.saved signal).getD (state.handler signal)

/-! ## A crash goes back to its capture -/

/-- Up to the jump. -/
def HandlerPc.returns : HandlerPc → Bool
  | .restoreDefault | .raise => false
  | _ => true

/-- A handler runs over the unwinder of its thread, and finds the flag set. -/
structure Sheltered (state : State Thread) (thread : Thread) : Prop where
  crash : (state.threads thread).handlers = [] ∨
    ∃ frame, (state.threads thread).handlers = [frame] ∧
      frame.pc.returns ∧
      (state.threads thread).capture.map Capture.pc = some .unwind
  entered : (state.threads thread).capture.map Capture.pc = some .sigsetjmp →
    state.gInUnwindCall = true
  unwinding : (state.threads thread).capture.map Capture.pc = some .unwind →
    (∀ frame ∈ (state.threads thread).handlers, frame.pc ≠ .siglongjmp) →
    state.gInUnwindCall = true

/-- What a step of a thread leaves of the other threads and of the flag. -/
structure Shelters (state later : State Thread) (thread : Thread) : Prop where
  frame : ∀ other, other ≠ thread →
    later.threads other = state.threads other
  flag : later.gInUnwindCall = state.gInUnwindCall ∨
    later.gInUnwindCall = true ∨ state.gUnwindMutex = some thread
  sheltered : Sheltered later thread

theorem Shelters.all {state later : State Thread} {thread : Thread}
    (shelters : Shelters state later thread)
    (orderly : ∀ other, Orderly state other)
    (before : ∀ other, Sheltered state other) (other : Thread) :
    Sheltered later other := by
  by_cases here : other = thread
  · rw [here]
    exact shelters.sheltered
  · have same := shelters.frame other here
    have flagKept : ∀ pc : CapturePc, pc.holdsMutex →
        (state.threads other).capture.map Capture.pc = some pc →
        state.gInUnwindCall = true → later.gInUnwindCall = true := by
      intro pc holds at_ set
      obtain ⟨capture, found, rfl⟩ := Option.map_eq_some_iff.mp at_
      have owner := (orderly other).owns capture found holds
      rcases shelters.flag with kept | set | mine
      · rw [kept, set]
      · exact set
      · rw [mine, Option.some.injEq] at owner
        exact (here owner.symm).elim
    constructor
    · rw [same]
      exact (before other).crash
    · rw [same]
      intro at_
      exact flagKept _ rfl at_ ((before other).entered at_)
    · rw [same]
      intro at_ noJump
      exact flagKept _ rfl at_ ((before other).unwinding at_ noJump)

omit [DecidableEq Thread] in
/-- A handler over the unwinder runs in its own capture. -/
theorem Sheltered.testsAtHome {state : State Thread}
    (sheltered : ∀ thread, Sheltered state thread) (label : Label Thread) :
    TestsAtHome state label := by
  cases label with
  | start | fault | sigaction => trivial
  | advance thread frames =>
      intro frame first _ _
      rcases (sheltered thread).crash with idle | ⟨only, found, -, at_⟩
      · rw [idle] at first
        cases first
      · obtain ⟨capture, inside, pc⟩ := Option.map_eq_some_iff.mp at_
        exact ⟨capture, inside, by rw [pc]; rfl⟩

/-- Where a capture needs the flag to be set. -/
def CapturePc.needsFlag : CapturePc → Bool
  | .sigsetjmp | .unwind => true
  | _ => false

theorem Shelters.of_capture {state middle : State Thread} {thread : Thread}
    {own : ThreadState} (idle : own.handlers = [])
    (threads : middle.threads = state.threads)
    (flag : middle.gInUnwindCall = state.gInUnwindCall ∨
      middle.gInUnwindCall = true ∨ state.gUnwindMutex = some thread)
    (needs : ∀ capture, own.capture = some capture →
      capture.pc.needsFlag → middle.gInUnwindCall = true) :
    Shelters state (middle.setThread thread own) thread := by
  constructor
  · intro other different
    rw [State.setThread_frame _ _ _ other different, threads]
  · exact flag
  · constructor <;> simp only [State.setThread, Function.update_self]
    · exact .inl idle
    · intro at_
      obtain ⟨capture, found, pc⟩ := Option.map_eq_some_iff.mp at_
      exact needs capture found (by rw [pc]; rfl)
    · intro at_ _
      obtain ⟨capture, found, pc⟩ := Option.map_eq_some_iff.mp at_
      exact needs capture found (by rw [pc]; rfl)

theorem captureStep_shelters {state later : State Thread} {thread : Thread}
    {capture : Capture} {frames : Nat}
    (orderly : Orderly state thread) (sheltered : Sheltered state thread)
    (found : (state.threads thread).capture = some capture)
    (idle : (state.threads thread).handlers = [])
    (taken : captureStep state thread (state.threads thread) capture frames =
      some later) :
    Shelters state later thread := by
  have owner := orderly.owns capture found
  have atPc : (state.threads thread).capture.map Capture.pc =
      some capture.pc := by
    rw [found]
    rfl
  -- The capture that a step leaves, where the flag is not needed.
  have away : ∀ {left : Capture}, left.pc.needsFlag = false →
      ∀ other, some left = some other → other.pc.needsFlag →
        ∀ {set : Prop}, set := by
    intro left unneeded other same needed
    cases same
    rw [unneeded] at needed
    cases needed
  cases at_ : capture.pc with
  | lock =>
      simp only [captureStep, at_] at taken
      split at taken
      · cases taken
        exact .of_capture idle rfl (.inl rfl)
          fun other same needed => away rfl other same needed
      · cases taken
  | installSegv | restoreSegv | restoreBus | reset =>
      simp only [captureStep, at_, Option.some.injEq] at taken
      subst taken
      exact .of_capture idle rfl (.inl rfl)
        fun other same needed => away rfl other same needed
  | installBus =>
      simp only [captureStep, at_, Option.some.injEq] at taken
      subst taken
      refine .of_capture idle rfl (.inl rfl)
        fun other same needed => away ?_ other same needed
      cases capture.function <;> rfl
  | raiseFlag =>
      simp only [captureStep, at_, Option.some.injEq] at taken
      subst taken
      exact .of_capture idle rfl (.inr (.inl rfl)) fun _ _ _ => rfl
  | sigsetjmp =>
      rw [at_] at atPc
      have set := sheltered.entered atPc
      simp only [captureStep, at_, Option.some.injEq] at taken
      subst taken
      exact .of_capture idle rfl (.inl rfl) fun _ _ _ => set
  | unwind =>
      rw [at_] at atPc
      have set : state.gInUnwindCall = true := by
        apply sheltered.unwinding atPc
        intro frame member
        rw [idle] at member
        cases member
      simp only [captureStep, at_] at taken
      cases function : capture.function with
      | mttLibunwindCapture =>
          simp only [function] at taken
          split at taken <;> cases taken <;>
            exact .of_capture idle rfl (.inl rfl) fun _ _ _ => set
      | mttSafeBacktrace =>
          simp only [function, Option.some.injEq] at taken
          subst taken
          exact .of_capture idle rfl (.inl rfl) fun _ _ _ => set
  | clearFlag =>
      rw [at_] at owner
      simp only [captureStep, at_, Option.some.injEq] at taken
      subst taken
      exact .of_capture idle rfl (.inr (.inr (owner rfl)))
        fun other same needed => away rfl other same needed
  | unlock =>
      simp only [captureStep, at_] at taken
      split at taken
      · cases taken
        exact .of_capture idle rfl (.inl rfl)
          fun other same needed => away rfl other same needed
      · cases taken
        exact .of_capture idle rfl (.inl rfl) (by intro _ none; cases none)
  | disable =>
      simp only [captureStep, at_, Option.some.injEq] at taken
      subst taken
      exact .of_capture idle rfl (.inl rfl) (by intro _ none; cases none)

theorem Shelters.of_handler {state middle : State Thread} {thread : Thread}
    {frame : HandlerFrame} (threads : middle.threads = state.threads)
    (at_ : (state.threads thread).capture.map Capture.pc = some .unwind)
    (flag : middle.gInUnwindCall = state.gInUnwindCall ∨
      middle.gInUnwindCall = true ∨ state.gUnwindMutex = some thread)
    (returns : frame.pc.returns)
    (set : frame.pc ≠ .siglongjmp → middle.gInUnwindCall = true) :
    Shelters state
      (middle.setThread thread
        { state.threads thread with handlers := [frame] }) thread := by
  constructor
  · intro other different
    rw [State.setThread_frame _ _ _ other different, threads]
  · exact flag
  · constructor <;> simp only [State.setThread, Function.update_self]
    · exact .inr ⟨frame, rfl, returns, at_⟩
    · intro elsewhere
      rw [at_] at elsewhere
      cases elsewhere
    · intro _ noJump
      exact set (noJump frame (List.mem_singleton_self frame))

theorem handlerStep_shelters {state later : State Thread} {thread : Thread}
    {frame : HandlerFrame} {rest : List HandlerFrame}
    (orderly : Orderly state thread) (sheltered : Sheltered state thread)
    (found : (state.threads thread).handlers = frame :: rest)
    (taken : handlerStep state thread (state.threads thread) frame rest =
      some later) :
    Shelters state later thread := by
  obtain ⟨returns, at_, rfl⟩ : frame.pc.returns ∧
      (state.threads thread).capture.map Capture.pc = some .unwind ∧
      rest = [] := by
    rcases sheltered.crash with idle | ⟨only, same, returns, at_⟩
    · rw [idle] at found
      cases found
    · rw [same] at found
      cases found
      exact ⟨returns, at_, rfl⟩
  obtain ⟨capture, inside, pc⟩ := Option.map_eq_some_iff.mp at_
  have owner := orderly.owns capture inside (by rw [pc]; rfl)
  have set : frame.pc ≠ .siglongjmp → state.gInUnwindCall = true := by
    intro noJump
    apply sheltered.unwinding at_
    intro other member
    rw [found, List.mem_singleton] at member
    rw [member]
    exact noJump
  cases step : frame.pc with
  | test =>
      have raised := set (by rw [step]; decide)
      simp only [handlerStep, step, raised, if_true, Option.some.injEq]
        at taken
      subst taken
      exact .of_handler rfl at_ (.inl rfl) rfl fun _ => raised
  | record =>
      have raised := set (by rw [step]; decide)
      simp only [handlerStep, step, Option.some.injEq] at taken
      subst taken
      exact .of_handler rfl at_ (.inl rfl) rfl fun _ => raised
  | clearFlag =>
      simp only [handlerStep, step, Option.some.injEq] at taken
      subst taken
      exact .of_handler rfl at_ (.inr (.inr owner)) rfl
        fun noJump => absurd rfl noJump
  | siglongjmp =>
      simp only [handlerStep, step, siglongjmp, inside] at taken
      split at taken
      · cases taken
        refine .of_capture rfl rfl (.inl rfl) ?_
        intro other same needed
        cases same
        cases needed
      · cases taken
  | restoreDefault | raise =>
      rw [step] at returns
      cases returns

theorem startCapture_shelters {state : State Thread} {thread : Thread}
    (left : (state.threads thread).capture = none)
    (idle : (state.threads thread).handlers = [])
    (function : CaptureFunction) (maxFrames : Nat) :
    Shelters state
      (startCapture state thread (state.threads thread) function maxFrames)
      thread := by
  simp only [startCapture]
  split
  · refine .of_capture idle rfl (.inl rfl) ?_
    intro capture found
    rw [left] at found
    cases found
  · have begun : Shelters state
        (({ state with started := state.started + 1 } : State Thread).setThread
          thread
          { state.threads thread with
            capture := some
              { function, maxFrames, serial := state.started, pc := .lock
                oldSegv := .dfl, oldBus := .dfl, sig := none, n := 0 } })
        thread := by
      refine .of_capture idle rfl (.inl rfl) ?_
      intro capture found needed
      cases found
      cases needed
    exact begun

theorem deliver_shelters {state : State Thread} {thread : Thread}
    (sheltered : Sheltered state thread)
    (inside : (state.threads thread).InUnwinder)
    (signal : CrashSignal) (siAddr : Word) :
    Shelters state
      (deliver state thread (state.threads thread) signal siAddr) thread := by
  obtain ⟨idle, at_⟩ := inside
  have set : state.gInUnwindCall = true := by
    apply sheltered.unwinding at_
    intro frame member
    rw [idle] at member
    cases member
  simp only [deliver]
  split
  · exact ⟨fun _ _ => rfl, .inl rfl,
      ⟨sheltered.crash, sheltered.entered, sheltered.unwinding⟩⟩
  · exact .of_capture idle rfl (.inl rfl) fun _ _ _ => set
  · rw [idle]
    exact .of_handler rfl at_ (.inl rfl) rfl fun _ => set

/-! ## Every step -/

/-- What holds of every state of the watched system. -/
structure Guards (state : State Thread) : Prop where
  orderly : ∀ thread, Orderly state thread
  sheltered : ∀ thread, Sheltered state thread

omit [DecidableEq Thread] in
theorem State.Fresh.guards {state : State Thread} (fresh : state.Fresh) :
    Guards state := by
  refine ⟨fresh.orderly, fun thread => ?_⟩
  obtain ⟨left, idle⟩ := fresh.idle thread
  constructor
  · exact .inl idle
  · intro at_
    rw [left] at at_
    cases at_
  · intro at_ _
    rw [left] at at_
    cases at_

theorem watchedNext_cases {watched later : Watched Thread}
    {label : Label Thread} (taken : watchedNext watched label = some later) :
    watched.state.CrashesInside label ∧
      unwindNext watched.state label = some later.state ∧
      later.wanted = label.wanted watched.wanted := by
  simp only [watchedNext] at taken
  split at taken
  · rename_i inside
    obtain ⟨state, stepped, rfl⟩ := Option.map_eq_some_iff.mp taken
    exact ⟨inside, stepped, rfl⟩
  · cases taken

theorem unwindNext_guards {state later : State Thread} {label : Label Thread}
    (guards : Guards state) (inside : state.CrashesInside label)
    (taken : unwindNext state label = some later) : Guards later := by
  have home := Sheltered.testsAtHome guards.sheltered label
  refine ⟨unwindNext_orderly guards.orderly home taken, ?_⟩
  cases label with
  | start thread function maxFrames =>
      simp only [unwindNext] at taken
      split at taken
      · rename_i free
        cases taken
        exact (startCapture_shelters free.2.1 free.2.2 function maxFrames).all
          guards.orderly guards.sheltered
      · cases taken
  | advance thread frames =>
      simp only [unwindNext] at taken
      split at taken
      · split at taken
        · rename_i frame rest found
          exact (handlerStep_shelters (guards.orderly thread)
            (guards.sheltered thread) found taken).all
            guards.orderly guards.sheltered
        · rename_i capture idle found
          exact (captureStep_shelters (guards.orderly thread)
            (guards.sheltered thread) found idle taken).all
            guards.orderly guards.sheltered
        · cases taken
      · cases taken
  | fault thread signal siAddr =>
      simp only [unwindNext] at taken
      split at taken
      · cases taken
        exact (deliver_shelters (guards.sheltered thread) inside signal
          siAddr).all guards.orderly guards.sheltered
      · cases taken
  | sigaction signal disposition =>
      simp only [unwindNext] at taken
      split at taken
      · cases taken
        exact fun thread =>
          ⟨(guards.sheltered thread).crash, (guards.sheltered thread).entered,
            (guards.sheltered thread).unwinding⟩
      · cases taken

theorem guards_of_reachable {watched : Watched Thread}
    (reachable : (watchedSystem Thread).Reachable watched) :
    Guards watched.state :=
  reachable.invariant (fun watched => Guards watched.state)
    (by
      rintro watched ⟨fresh, -⟩
      exact fresh.guards)
    (by
      intro watched label later guards _ taken
      obtain ⟨inside, stepped, -⟩ := watchedNext_cases taken
      exact unwindNext_guards guards inside stepped)

/-! ## What is due -/

omit [DecidableEq Thread] in
theorem State.due_of_free {state : State Thread} {signal : CrashSignal}
    (free : state.saved signal = none) :
    state.due signal = state.handler signal := by
  rw [State.due, free]
  rfl

omit [DecidableEq Thread] in
theorem State.saved_of_owner {state : State Thread} {thread : Thread}
    {capture : Capture} (owner : state.gUnwindMutex = some thread)
    (found : (state.threads thread).capture = some capture)
    (signal : CrashSignal) : state.saved signal = capture.lent signal := by
  simp only [State.saved, owner, found, Option.bind_some]

theorem State.saved_setThread {state middle : State Thread} {thread : Thread}
    {own : ThreadState} {signal : CrashSignal}
    (threads : middle.threads = state.threads)
    (mutex : middle.gUnwindMutex = state.gUnwindMutex)
    (lent : own.capture.bind (Capture.lent · signal) =
      (state.threads thread).capture.bind (Capture.lent · signal)) :
    (middle.setThread thread own).saved signal = state.saved signal := by
  simp only [State.saved, State.setThread, mutex, threads]
  cases state.gUnwindMutex with
  | none => rfl
  | some owner =>
      simp only [Option.bind_some, Function.update_apply]
      split
      · rename_i same
        rw [same]
        exact lent
      · rfl

/-- A step of the capture in the mutex. -/
theorem State.due_of_owner {state middle : State Thread} {thread : Thread}
    {own : ThreadState} {capture next : Capture} {signal : CrashSignal}
    (owner : state.gUnwindMutex = some thread)
    (found : (state.threads thread).capture = some capture)
    (mutex : middle.gUnwindMutex = some thread)
    (same : (next.lent signal).getD (middle.handler signal) =
      (capture.lent signal).getD (state.handler signal)) :
    (middle.setThread thread { own with capture := some next }).due signal =
      state.due signal := by
  let later := middle.setThread thread { own with capture := some next }
  have after : (later.threads thread).capture = some next := by
    simp only [later, State.setThread, Function.update_self]
  have owned : later.gUnwindMutex = some thread := mutex
  have afterwards : later.due signal =
      (next.lent signal).getD (middle.handler signal) := by
    rw [State.due, State.saved_of_owner owned after]
    rfl
  rw [afterwards, same, State.due, State.saved_of_owner owner found]

/-- A step that leaves the handler and the loans of its own thread. -/
theorem State.due_of_loans {state middle : State Thread} {thread : Thread}
    {own : ThreadState} {signal : CrashSignal}
    (threads : middle.threads = state.threads)
    (mutex : middle.gUnwindMutex = state.gUnwindMutex)
    (handler : middle.handler signal = state.handler signal)
    (lent : own.capture.bind (Capture.lent · signal) =
      (state.threads thread).capture.bind (Capture.lent · signal)) :
    (middle.setThread thread own).due signal = state.due signal := by
  rw [State.due, State.due, State.saved_setThread threads mutex lent]
  exact congrArg _ handler

theorem captureStep_due {state later : State Thread} {thread : Thread}
    {capture : Capture} {frames : Nat} (orderly : Orderly state thread)
    (found : (state.threads thread).capture = some capture)
    (taken : captureStep state thread (state.threads thread) capture frames =
      some later) (signal : CrashSignal) :
    later.due signal = state.due signal := by
  have owner := orderly.owns capture found
  cases at_ : capture.pc with
  | lock =>
      simp only [captureStep, at_] at taken
      split at taken
      · rename_i free
        cases taken
        simp [State.due, State.saved, free, State.setThread, Capture.lent,
          CapturePc.lends]
      · cases taken
  | installSegv =>
      rw [at_] at owner
      simp only [captureStep, at_, Option.some.injEq] at taken
      subst taken
      refine State.due_of_owner (owner rfl) found (owner rfl) ?_
      cases signal <;> simp [Capture.lent, CapturePc.lends, Capture.old, at_,
        State.sigaction]
  | installBus =>
      rw [at_] at owner
      simp only [captureStep, at_, Option.some.injEq] at taken
      subst taken
      refine State.due_of_owner (owner rfl) found (owner rfl) ?_
      cases capture.function <;> cases signal <;>
        simp [Capture.lent, CapturePc.lends, Capture.old, at_, State.sigaction]
  | restoreSegv | restoreBus =>
      rw [at_] at owner
      simp only [captureStep, at_, Option.some.injEq] at taken
      subst taken
      refine State.due_of_owner (owner rfl) found (owner rfl) ?_
      cases signal <;> simp [Capture.lent, CapturePc.lends, Capture.old, at_,
        State.sigaction]
  | reset | raiseFlag | sigsetjmp | clearFlag =>
      rw [at_] at owner
      simp only [captureStep, at_, Option.some.injEq] at taken
      subst taken
      refine State.due_of_owner (owner rfl) found (owner rfl) ?_
      cases signal <;> simp [Capture.lent, CapturePc.lends, Capture.old, at_]
  | unwind =>
      rw [at_] at owner
      simp only [captureStep, at_] at taken
      split at taken
      · split at taken <;> cases taken <;>
          refine State.due_of_owner (owner rfl) found (owner rfl) ?_ <;>
          cases signal <;>
          simp [Capture.lent, CapturePc.lends, Capture.old, at_]
      · cases taken
        refine State.due_of_owner (owner rfl) found (owner rfl) ?_
        cases signal <;> simp [Capture.lent, CapturePc.lends, Capture.old, at_]
  | unlock =>
      rw [at_] at owner
      have before : state.saved signal = none := by
        rw [State.saved_of_owner (owner rfl) found]
        cases signal <;> simp [Capture.lent, CapturePc.lends, at_]
      rw [State.due_of_free before]
      simp only [captureStep, at_] at taken
      split at taken <;> cases taken <;> rfl
  | disable =>
      simp only [captureStep, at_, Option.some.injEq] at taken
      subst taken
      refine State.due_of_loans rfl rfl rfl ?_
      rw [found]
      cases signal <;> simp [Capture.lent, CapturePc.lends, at_]

/-- The default of a signal is never restored. -/
theorem handlerStep_due {state later : State Thread} {thread : Thread}
    {frame : HandlerFrame} {rest : List HandlerFrame}
    (sheltered : Sheltered state thread)
    (found : (state.threads thread).handlers = frame :: rest)
    (taken : handlerStep state thread (state.threads thread) frame rest =
      some later) (signal : CrashSignal) :
    later.due signal = state.due signal := by
  obtain ⟨returns, at_⟩ : frame.pc.returns ∧
      (state.threads thread).capture.map Capture.pc = some .unwind := by
    rcases sheltered.crash with idle | ⟨only, same, returns, at_⟩
    · rw [idle] at found
      cases found
    · rw [same] at found
      cases found
      exact ⟨returns, at_⟩
  cases step : frame.pc with
  | test | record | clearFlag =>
      simp only [handlerStep, step, Option.some.injEq] at taken
      subst taken
      exact State.due_of_loans rfl rfl rfl rfl
  | siglongjmp =>
      obtain ⟨capture, inside, pc⟩ := Option.map_eq_some_iff.mp at_
      simp only [handlerStep, step, siglongjmp, inside] at taken
      split at taken
      · cases taken
        refine State.due_of_loans rfl rfl rfl ?_
        rw [inside]
        cases signal <;> simp [Capture.lent, CapturePc.lends, Capture.old, pc]
      · cases taken
  | restoreDefault | raise =>
      rw [step] at returns
      cases returns

/-- Captures never change what is due; `sigaction` changes it while the signal
is not lent. -/
theorem unwindNext_due {state later : State Thread} {label : Label Thread}
    (guards : Guards state) (inside : state.CrashesInside label)
    (taken : unwindNext state label = some later) (signal : CrashSignal) :
    later.due signal =
      (state.saved signal).getD (label.wanted state.handler signal) := by
  cases label with
  | start thread function maxFrames =>
      simp only [unwindNext] at taken
      split at taken
      · rename_i free
        cases taken
        simp only [startCapture]
        split
        · exact State.due_of_loans rfl rfl rfl rfl
        · have begun : (({ state with
              started := state.started + 1 } : State Thread).setThread thread
              { state.threads thread with
                capture := some
                  { function, maxFrames, serial := state.started, pc := .lock
                    oldSegv := .dfl, oldBus := .dfl, sig := none
                    n := 0 } }).due signal = state.due signal := by
            refine State.due_of_loans rfl rfl rfl ?_
            rw [free.2.1]
            cases signal <;> rfl
          exact begun
      · cases taken
  | advance thread frames =>
      simp only [unwindNext] at taken
      split at taken
      · split at taken
        · rename_i frame rest found
          exact handlerStep_due (guards.sheltered thread) found taken signal
        · rename_i capture idle found
          exact captureStep_due (guards.orderly thread) found taken signal
        · cases taken
      · cases taken
  | fault thread raised siAddr =>
      simp only [unwindNext] at taken
      split at taken
      · cases taken
        simp only [deliver]
        split
        · rfl
        · exact State.due_of_loans rfl rfl rfl rfl
        · exact State.due_of_loans rfl rfl rfl rfl
      · cases taken
  | sigaction changed disposition =>
      simp only [unwindNext] at taken
      split at taken
      · cases taken
        rfl
      · cases taken

/-! ## What the application gets -/

omit [DecidableEq Thread] in
theorem State.Quiet.due {state : State Thread} (quiet : state.Quiet)
    (signal : CrashSignal) : state.due signal = state.handler signal := by
  apply State.due_of_free
  rw [State.saved]
  cases state.gUnwindMutex with
  | none => rfl
  | some thread =>
      rw [Option.bind_some, quiet thread]
      rfl

/-- The application will get what it wanted. -/
def Watched.Kept (watched : Watched Thread) : Prop :=
  ∀ signal, watched.state.due signal = watched.wanted signal

theorem watchedNext_kept {watched later : Watched Thread}
    {label : Label Thread} (guards : Guards watched.state)
    (kept : watched.Kept) (careful : Careful watched label)
    (taken : watchedNext watched label = some later) : later.Kept := by
  intro signal
  obtain ⟨inside, stepped, wanted⟩ := watchedNext_cases taken
  rw [unwindNext_due guards inside stepped signal, wanted]
  cases label with
  | start | advance | fault => exact kept signal
  | sigaction changed disposition =>
      simp only [Label.wanted]
      by_cases here : signal = changed
      · subst here
        rw [Function.update_self, Function.update_self]
        cases saved : watched.state.saved signal with
        | none => rfl
        | some old => exact (careful old saved).symm
      · rw [Function.update_of_ne here, Function.update_of_ne here]
        exact kept signal

theorem kept_of_careful {watched : Watched Thread}
    (reachable : (watchedSystem Thread).ReachableBy Careful watched) :
    watched.Kept := by
  have both : Guards watched.state ∧ watched.Kept := by
    refine reachable.invariant
      (fun watched => Guards watched.state ∧ watched.Kept) ?_ ?_
    · rintro start ⟨fresh, same⟩
      refine ⟨fresh.guards, fun signal => ?_⟩
      have quiet : start.state.Quiet := fun thread => (fresh.idle thread).1
      rw [quiet.due signal, same]
    · rintro state label target ⟨guards, kept⟩ careful taken
      obtain ⟨inside, stepped, -⟩ := watchedNext_cases taken
      exact ⟨unwindNext_guards guards inside stepped,
        watchedNext_kept guards kept careful taken⟩
  exact both.2

/-- The application does not touch the signal. -/
def Leaves (signal : CrashSignal) (_ : Watched Thread) :
    Label Thread → Prop
  | .sigaction changed _ => changed ≠ signal
  | _ => True

/-- What is due and what is wanted of a signal stay as they are until the
application calls `sigaction` on it again. -/
theorem leaves_keeps {signal : CrashSignal} {due wanted : Disposition}
    {watched target : Watched Thread}
    (steps : (watchedSystem Thread).StepsBy (Leaves signal) watched target)
    (guards : Guards watched.state)
    (isDue : watched.state.due signal = due)
    (isWanted : watched.wanted signal = wanted) :
    target.state.due signal = due ∧ target.wanted signal = wanted := by
  have all : Guards target.state ∧ target.state.due signal = due ∧
      target.wanted signal = wanted := by
    refine steps.preserves (fun watched => Guards watched.state ∧
      watched.state.due signal = due ∧ watched.wanted signal = wanted) ?_
      ⟨guards, isDue, isWanted⟩
    rintro state label later ⟨guards, isDue, isWanted⟩ leaves taken
    obtain ⟨inside, stepped, changes⟩ := watchedNext_cases taken
    refine ⟨unwindNext_guards guards inside stepped, ?_, ?_⟩
    · rw [unwindNext_due guards inside stepped signal]
      cases label with
      | start | advance | fault => exact isDue
      | sigaction changed disposition =>
          simp only [Label.wanted]
          rw [Function.update_of_ne (Ne.symm leaves)]
          exact isDue
    · rw [changes]
      cases label with
      | start | advance | fault => exact isWanted
      | sigaction changed disposition =>
          simp only [Label.wanted]
          rw [Function.update_of_ne (Ne.symm leaves)]
          exact isWanted
  exact all.2

/-- While every `sigaction` on a lent signal installs what the capture will
restore, both signals lead outside all captures to what the application
installed last; after any other such call, until the next one on that signal,
they never do. -/
theorem handler_eq_wanted_iff_careful :
    (∀ watched, (watchedSystem Thread).ReachableBy Careful watched →
      watched.state.Quiet → watched.state.handler = watched.wanted) ∧
    ∀ watched later target signal disposition,
      (watchedSystem Thread).Reachable watched →
      ¬ Careful watched (.sigaction signal disposition) →
      watchedNext watched (.sigaction signal disposition) = some later →
      (watchedSystem Thread).StepsBy (Leaves signal) later target →
      target.state.Quiet →
      target.state.handler signal ≠ target.wanted signal := by
  constructor
  · intro watched reachable quiet
    funext signal
    rw [← quiet.due signal]
    exact kept_of_careful reachable signal
  · intro watched later target signal disposition reachable careless taken
      steps quiet
    have guards := guards_of_reachable reachable
    obtain ⟨inside, stepped, changes⟩ := watchedNext_cases taken
    simp only [Careful, not_forall] at careless
    obtain ⟨old, saved, different⟩ := careless
    have isDue : later.state.due signal = old := by
      rw [unwindNext_due guards inside stepped signal, saved]
      rfl
    have isWanted : later.wanted signal = disposition := by
      rw [changes]
      exact Function.update_self ..
    obtain ⟨stillDue, stillWanted⟩ := leaves_keeps steps
      (unwindNext_guards guards inside stepped) isDue isWanted
    rw [← quiet.due signal, stillDue, stillWanted]
    exact fun same => different same.symm

/-! ## Two runs -/

def freshWatched : Watched Worker :=
  { state := freshState Worker
    wanted := fun _ => .dfl }

theorem freshWatched_init : (watchedSystem Worker).init freshWatched :=
  ⟨freshState_init Worker, rfl⟩

def State.isQuiet (state : State Worker) : Bool :=
  [Worker.first, .second, .third].all fun thread =>
    (state.threads thread).capture.isNone

theorem State.quiet_of_isQuiet {state : State Worker}
    (quiet : state.isQuiet = true) : state.Quiet := by
  intro thread
  have member : thread ∈ [Worker.first, .second, .third] := by
    cases thread <;> simp
  exact Option.isNone_iff_eq_none.mp (List.all_eq_true.mp quiet thread member)

/-- The application installs a handler, and then a capture crashes. -/
def crashedCapture : List (Label Worker) :=
  .sigaction .segv (.application 4096) ::
    (unwinding .first ++ faulting .first ++
      List.replicate 6 (.advance .first 0))

/-- The application installs a handler while a capture unwinds. -/
def overtakenCapture : List (Label Worker) :=
  unwinding .first ++ .sigaction .segv (.application 4096) ::
    List.replicate 5 (.advance .first 0)

theorem handler_eq_wanted_crashedCapture :
    ∃ watched, (watchedSystem Worker).ReachableBy Careful watched ∧
      watched.state.Quiet ∧
      watched.state.handler .segv = .application 4096 ∧
      watched.state.handler = watched.wanted := by
  obtain ⟨watched, reachable, test⟩ :=
    System.exists_reachableBy_of_runBy (watchedSystem Worker) Careful
      (fun watched => watched.state.isQuiet &&
        watched.state.handler .segv == .application 4096)
      crashedCapture freshWatched_init (by decide)
  simp only [Bool.and_eq_true, beq_iff_eq] at test
  have quiet := State.quiet_of_isQuiet test.1
  exact ⟨watched, reachable, quiet, test.2,
    handler_eq_wanted_iff_careful.1 watched reachable quiet⟩

/-- The capture restores the default over the new handler. -/
theorem handler_ne_wanted_overtakenCapture :
    ¬ ∀ watched, (watchedSystem Worker).Reachable watched →
      watched.state.Quiet → watched.state.handler = watched.wanted := by
  intro claimed
  obtain ⟨watched, reachable, test⟩ :=
    System.exists_reachable_of_run (watchedSystem Worker)
      (fun watched => watched.state.isQuiet &&
        watched.state.handler .segv == .dfl &&
        watched.wanted .segv == .application 4096)
      overtakenCapture freshWatched_init (by decide)
  simp only [Bool.and_eq_true, beq_iff_eq] at test
  obtain ⟨⟨quiet, handler⟩, wanted⟩ := test
  have same := claimed watched reachable (State.quiet_of_isQuiet quiet)
  rw [same, wanted] at handler
  cases handler

end MemoryTraceTool.Unwind
