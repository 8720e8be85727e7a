import MemoryTraceTool.AddrValidate
import MemoryTraceTool.ThreadSlots

/-!
# Capturing a stack

`mtt_capture_stack` tries libunwind, glibc's `backtrace` and the chain of frame
pointers in turn, each writing into the array of the entry.  The unwinders and
the memory of the stack are data of a call; an unwinder may fault after it has
written a part of its frames.
-/

namespace MemoryTraceTool.CaptureStack

open MemoryTraceTool.AddrValidate
open MemoryTraceTool.Slots (MttPerThread)

/-- What `unw_step` and `unw_get_reg` make of the next frame. -/
inductive StepOutcome (w : Nat) where
  | frame (pc : BitVec w)
  | stop
  | crash
  deriving DecidableEq, Repr

/-- A call of `unw_backtrace` or `backtrace`: the frames it writes, and the
count it returns unless it faults. -/
structure Walk (w maxFrames : Nat) where
  written : Nat
  frames : Nat → BitVec w
  returned : Option Int
  written_le : written ≤ maxFrames
  returned_le : ∀ count ∈ returned, count ≤ written

/-- One call with the outcomes of everything it calls.  The unwinder mode 2 is
`backtrace`. -/
structure CaptureCall (w : Nat) where
  staticLibunwind : Bool
  hasBacktrace : Bool
  unwinderMode : Nat
  maxStackFrames : Nat
  maxStackFrames_pos : 1 ≤ maxStackFrames
  maxStackFrames_le : maxStackFrames ≤ mttStackDepth
  unwContext : Bool
  unwSteps : Nat → StepOutcome w
  libunwindLoaded : Bool
  unwBacktrace : Walk w maxStackFrames
  backtrace : Walk w maxStackFrames
  frameAddress : BitVec w
  memory : BitVec w → BitVec w
  maps : Option MapsFile

/-- The array and the count of the entry, the record of the thread, its
libunwind flag and the cache of executable ranges. -/
structure CaptureState (w : Nat) where
  stack : Nat → BitVec w
  stackFrames : Int
  thread : Option MttPerThread
  libunwindDisabled : Bool
  addr : AddrState w

variable {w : Nat}

/-- The frames that an unwinder writes to the array. -/
def Walk.store {maxFrames : Nat} (walk : Walk w maxFrames)
    (stack : Nat → BitVec w) : Nat → BitVec w :=
  fun index => if index < walk.written then walk.frames index else stack index

/-- The lowest bit goes from the frames that were counted. -/
def clearThumb (count : Nat) (stack : Nat → BitVec w) : Nat → BitVec w :=
  fun index =>
    if index < count then mttFixThumbAddr (stack index) else stack index

/-- The step loop with room for some more frames; the count is
`g_unwind_safe_frames`, and the flag tells whether it faulted. -/
def stepLoop (steps : Nat → StepOutcome w) :
    Nat → Nat → (Nat → BitVec w) → (Nat → BitVec w) × Nat × Bool
  | 0, n, stack => (stack, n, false)
  | room + 1, n, stack =>
      match steps n with
      | .frame pc =>
          stepLoop steps room (n + 1) (Function.update stack n pc)
      | .stop => (stack, n, false)
      | .crash => (stack, n, true)

namespace CaptureCall

variable (call : CaptureCall w)

/-- `mtt_libunwind_available`. -/
def mttLibunwindAvailable (state : CaptureState w) : Bool :=
  !state.libunwindDisabled && (call.staticLibunwind || call.libunwindLoaded)

/-- `mtt_unwind_step_loop`; without a context there is no frame. -/
def mttUnwindStepLoop (stack : Nat → BitVec w) :
    (Nat → BitVec w) × Nat × Bool :=
  if call.unwContext then
    stepLoop call.unwSteps call.maxStackFrames 0 stack
  else (stack, 0, false)

/-- `mtt_libunwind_capture` on the array of the entry, with what it returns. -/
def mttLibunwindCapture (state : CaptureState w) : CaptureState w × Int :=
  if state.libunwindDisabled then (state, -1)
  else if call.staticLibunwind then
    let (stack, n, crashed) := call.mttUnwindStepLoop state.stack
    if crashed then
      if 1 ≤ n then
        ({ state with
          stack := clearThumb n stack, libunwindDisabled := true }, n)
      else ({ state with stack, libunwindDisabled := true }, -1)
    else ({ state with stack := clearThumb n stack }, n)
  else if call.libunwindLoaded then
    let stack := call.unwBacktrace.store state.stack
    match call.unwBacktrace.returned with
    | none => ({ state with stack, libunwindDisabled := true }, -1)
    | some count =>
        let n := if count < 0 then 0 else count
        ({ state with stack := clearThumb n.toNat stack }, n)
  else (state, -1)

/-- `mtt_safe_backtrace`. -/
def mttSafeBacktrace (state : CaptureState w) : CaptureState w × Int :=
  if call.hasBacktrace then
    let state := { state with stack := call.backtrace.store state.stack }
    match call.backtrace.returned with
    | none => (state, 0)
    | some count => (state, if count < 0 then 0 else count)
  else (state, 0)

/-- `backtrace` itself; a fault ends the process. -/
def plainBacktrace (state : CaptureState w) :
    Option (CaptureState w × Int) :=
  call.backtrace.returned.map fun count =>
    ({ state with stack := call.backtrace.store state.stack }, count)

/-- The libunwind part: the array and whether it is final. -/
def tryLibunwind (state : CaptureState w) : CaptureState w × Bool :=
  if call.unwinderMode ≠ 2 ∧ !state.libunwindDisabled ∧
      call.mttLibunwindAvailable state then
    let (state, n) := call.mttLibunwindCapture state
    if 2 ≤ n then ({ state with stackFrames := n }, true) else (state, false)
  else (state, false)

/-- The `backtrace` part, with the number of its frames. -/
def tryBacktrace (state : CaptureState w) : Option (CaptureState w × Int) :=
  if call.hasBacktrace then
    let walked :=
      if state.libunwindDisabled then some (call.mttSafeBacktrace state)
      else call.plainBacktrace state
    walked.map fun (state, count) =>
      let frames := if count < 0 then 0 else count
      ({ state with
        stack := clearThumb frames.toNat state.stack
        stackFrames := frames }, frames)
  else some (state, 0)

/-- The word after the saved frame pointer. -/
def linkRegister (fp : BitVec w) : BitVec w :=
  call.memory (fp + BitVec.ofNat w (w / 8))

/-- The loop over the frame pointers with room for some more frames. -/
def fpChain : Nat → BitVec w → AddrState w → List (BitVec w) × AddrState w
  | 0, _, addr => ([], addr)
  | room + 1, fp, addr =>
      if fp = 0 then ([], addr)
      else
        let prevFp := call.memory fp
        let lr := call.linkRegister fp
        if lr = 0 then ([], addr)
        else if prevFp = 0 then ([], addr)
        else
          let (executable, addr) :=
            mttAddrIsExecutable call.maps addr (mttFixThumbAddr lr)
          if !executable then ([], addr)
          else if prevFp.toNat ≤ fp.toNat then ([], addr)
          else if 2 ^ 16 < prevFp.toNat - fp.toNat then ([], addr)
          else if prevFp = fp then ([mttFixThumbAddr lr], addr)
          else
            let (rest, addr) := fpChain room prevFp addr
            (mttFixThumbAddr lr :: rest, addr)

/-- The frame pointer part. -/
def tryFpChain (state : CaptureState w) (btFrames : Int) : CaptureState w :=
  if btFrames = 0 then
    let walked := call.fpChain mttStackDepth call.frameAddress state.addr
    let state := { state with addr := walked.2 }
    if 0 < walked.1.length then
      { state with
        stack := fun index => (walked.1[index]?).getD (state.stack index)
        stackFrames := walked.1.length }
    else state
  else state

def setInCapture (value : Int) (state : CaptureState w) : CaptureState w :=
  { state with
    thread := state.thread.map fun ctx => { ctx with inCapture := value } }

/-- `mtt_capture_stack`; nothing comes back when the process ends. -/
def mttCaptureStack (state : CaptureState w) : Option (CaptureState w) :=
  match state.thread with
  | none => some { state with stackFrames := 0 }
  | some ctx =>
      if ctx.inCapture ≠ 0 then some { state with stackFrames := 0 }
      else
        let saved := ctx.inCapture
        let (state, done) := call.tryLibunwind (setInCapture 1 state)
        if done then some (setInCapture saved state)
        else
          (call.tryBacktrace state).map fun (state, btFrames) =>
            setInCapture saved (call.tryFpChain state btFrames)

/-! ## Where frames come from -/

/-- The frame pointer that the chain of saved ones reaches after some links. -/
def framePointer : Nat → BitVec w
  | 0 => call.frameAddress
  | link + 1 => call.memory (framePointer link)

/-- The checks of a link of the chain. -/
structure LinkAccepted (addr : AddrState w) (link : Nat) : Prop where
  pointer : call.framePointer link ≠ 0
  lr : call.linkRegister (call.framePointer link) ≠ 0
  prev : call.framePointer (link + 1) ≠ 0
  executable : (mttAddrIsExecutable call.maps addr
    (mttFixThumbAddr (call.linkRegister (call.framePointer link)))).1 = true
  above : (call.framePointer link).toNat < (call.framePointer (link + 1)).toNat
  near : (call.framePointer (link + 1)).toNat -
    (call.framePointer link).toNat ≤ 2 ^ 16

/-- The three ways to walk a stack. -/
inductive Unwinder where
  | libunwind
  | backtrace
  | fpChain
  deriving DecidableEq, Repr

/-- An unwinder finds an address at a depth. -/
def Finds (index : Nat) (pc : BitVec w) : Unwinder → Prop
  | .libunwind =>
      if call.staticLibunwind then call.unwSteps index = .frame pc
      else index < call.unwBacktrace.written ∧
        call.unwBacktrace.frames index = pc
  | .backtrace =>
      index < call.backtrace.written ∧ call.backtrace.frames index = pc
  | .fpChain => call.linkRegister (call.framePointer index) = pc

/-- The count is within the limit, the frames are those of one unwinder with
bit 0 cleared, and `in_capture` is as before. -/
structure Captured (before after : CaptureState w) : Prop where
  count : 0 ≤ after.stackFrames ∧ after.stackFrames ≤ call.maxStackFrames
  frames : ∃ unwinder, ∀ index : Nat, (index : Int) < after.stackFrames →
    ∃ pc, call.Finds index pc unwinder ∧
      after.stack index = mttFixThumbAddr pc
  cleared : ∀ index : Nat, (index : Int) < after.stackFrames →
    (after.stack index).getLsbD 0 = false
  inCapture : after.thread.map MttPerThread.inCapture =
    before.thread.map MttPerThread.inCapture

/-- libunwind is used and delivers two frames. -/
def LibunwindSuffices (state : CaptureState w) : Prop :=
  call.unwinderMode ≠ 2 ∧ state.libunwindDisabled = false ∧
    if call.staticLibunwind then
      call.unwContext = true ∧ 2 ≤ call.maxStackFrames ∧
        ∀ index < 2, ∃ pc, call.unwSteps index = .frame pc
    else
      call.libunwindLoaded = true ∧
        ∃ count ∈ call.unwBacktrace.returned, 2 ≤ count

/-- `backtrace` is there and delivers a frame. -/
def BacktraceSuffices : Prop :=
  call.hasBacktrace = true ∧ ∃ count ∈ call.backtrace.returned, 1 ≤ count

/-- A capture is made, both unwinders deliver too little, and the chain goes on
beyond the limit. -/
def ChainOverruns (state : CaptureState w) : Prop :=
  (∃ ctx, state.thread = some ctx ∧ ctx.inCapture = 0) ∧
    ¬ call.LibunwindSuffices state ∧ ¬ call.BacktraceSuffices ∧
    call.maxStackFrames < mttStackDepth ∧
    ∀ link ≤ call.maxStackFrames, call.LinkAccepted state.addr link

end CaptureCall

theorem getLsbD_mttFixThumbAddr (address : BitVec w) :
    (mttFixThumbAddr address).getLsbD 0 = false := by
  unfold mttFixThumbAddr
  rw [BitVec.getLsbD_and, BitVec.getLsbD_not, BitVec.getLsbD_one]
  simp

/-! ## libunwind -/

theorem stepLoop_spec (steps : Nat → StepOutcome w) {room n count : Nat}
    {stack later : Nat → BitVec w} {crashed : Bool}
    (walked : stepLoop steps room n stack = (later, count, crashed)) :
    (n ≤ count ∧ count ≤ n + room) ∧
    (∀ index < n, later index = stack index) ∧
    (∀ index, n ≤ index → index < count →
      steps index = .frame (later index)) ∧
    (count < n + room → ∀ pc, steps count ≠ .frame pc) := by
  induction room generalizing n stack with
  | zero =>
      obtain ⟨rfl, rfl, rfl⟩ := walked
      refine ⟨⟨le_rfl, le_rfl⟩, fun _ _ => rfl, ?_, ?_⟩
      · intro index above below
        omega
      · intro short
        omega
  | succ room induction =>
      cases step : steps n with
      | frame pc =>
          simp only [stepLoop, step] at walked
          obtain ⟨bounds, kept, found, ends⟩ := induction walked
          refine ⟨⟨by omega, by omega⟩, ?_, ?_, ?_⟩
          · intro index below
            rw [kept index (by omega), Function.update_of_ne (by omega)]
          · intro index above below
            rcases Nat.eq_or_lt_of_le above with rfl | later_
            · rw [kept n (Nat.lt_succ_self n), Function.update_self, step]
            · exact found index later_ below
          · intro short
            exact ends (by omega)
      | stop =>
          simp only [stepLoop, step, Prod.mk.injEq] at walked
          obtain ⟨rfl, rfl, rfl⟩ := walked
          refine ⟨⟨le_rfl, by omega⟩, fun _ _ => rfl, ?_, ?_⟩
          · intro index above below
            omega
          · intro _ pc same
            rw [step] at same
            cases same
      | crash =>
          simp only [stepLoop, step, Prod.mk.injEq] at walked
          obtain ⟨rfl, rfl, rfl⟩ := walked
          refine ⟨⟨le_rfl, by omega⟩, fun _ _ => rfl, ?_, ?_⟩
          · intro index above below
            omega
          · intro _ pc same
            rw [step] at same
            cases same

namespace CaptureCall

variable {call : CaptureCall w}

/-- The array from the start on holds frames of one unwinder. -/
def Holds (call : CaptureCall w) (unwinder : Unwinder) (count : Int)
    (stack : Nat → BitVec w) : Prop :=
  ∀ index : Nat, (index : Int) < count →
    ∃ pc, call.Finds index pc unwinder ∧ stack index = mttFixThumbAddr pc

theorem mttUnwindStepLoop_spec {stack later : Nat → BitVec w} {n : Nat}
    {crashed : Bool}
    (walked : call.mttUnwindStepLoop stack = (later, n, crashed)) :
    n ≤ call.maxStackFrames ∧
    (∀ index < n, call.unwSteps index = .frame (later index)) ∧
    (2 ≤ n ↔ call.unwContext = true ∧ 2 ≤ call.maxStackFrames ∧
      ∀ index < 2, ∃ pc, call.unwSteps index = .frame pc) := by
  unfold mttUnwindStepLoop at walked
  by_cases context : call.unwContext = true
  · rw [if_pos context] at walked
    obtain ⟨bounds, -, found, ends⟩ := stepLoop_spec _ walked
    refine ⟨by omega, fun index below => found index (Nat.zero_le _) below, ?_⟩
    constructor
    · intro two
      refine ⟨context, by omega, fun index below => ⟨_, found index ?_ ?_⟩⟩
      · exact Nat.zero_le _
      · omega
    · rintro ⟨-, room, steps⟩
      by_contra short
      obtain ⟨pc, step⟩ := steps n (by omega)
      exact ends (by omega) pc step
  · rw [if_neg context] at walked
    obtain ⟨rfl, rfl, rfl⟩ := walked
    refine ⟨Nat.zero_le _, fun index below => absurd below (by omega), ?_⟩
    constructor
    · intro two
      omega
    · rintro ⟨has, -⟩
      exact absurd has context

/-- Frames of one unwinder stay its frames when their lowest bits go. -/
theorem holds_clearThumb {unwinder : Unwinder} {n : Nat} {count : Int}
    {stack : Nat → BitVec w} (within : count ≤ n)
    (finds : ∀ index < n, call.Finds index (stack index) unwinder) :
    call.Holds unwinder count (clearThumb n stack) := by
  intro index below
  have inside : index < n := by omega
  refine ⟨stack index, finds index inside, ?_⟩
  rw [clearThumb, if_pos inside]

theorem mttLibunwindCapture_static {state later : CaptureState w} {n : Int}
    (enabled : state.libunwindDisabled = false)
    (static : call.staticLibunwind = true)
    (captured : call.mttLibunwindCapture state = (later, n)) :
    n ≤ call.maxStackFrames ∧ call.Holds .libunwind n later.stack ∧
    (2 ≤ n ↔ call.unwContext = true ∧ 2 ≤ call.maxStackFrames ∧
      ∀ index < 2, ∃ pc, call.unwSteps index = .frame pc) := by
  rcases walked : call.mttUnwindStepLoop state.stack with
    ⟨stack, count, crashed⟩
  obtain ⟨within, found, enough⟩ := mttUnwindStepLoop_spec walked
  have finds : ∀ index < count, call.Finds index (stack index) .libunwind := by
    intro index below
    simp only [Finds, static, if_true]
    exact found index below
  simp only [mttLibunwindCapture, enabled, static, walked, if_true,
    Bool.false_eq_true, if_false] at captured
  rw [← enough]
  split at captured
  · split at captured
    · obtain ⟨rfl, rfl⟩ := Prod.mk.inj captured
      exact ⟨by omega, holds_clearThumb le_rfl finds, by omega⟩
    · obtain ⟨rfl, rfl⟩ := Prod.mk.inj captured
      refine ⟨by omega, ?_, by omega⟩
      intro index below
      omega
  · obtain ⟨rfl, rfl⟩ := Prod.mk.inj captured
    exact ⟨by omega, holds_clearThumb le_rfl finds, by omega⟩

/-- A black box unwinder leaves the frames that it counts. -/
theorem walk_finds {walk : Walk w call.maxStackFrames} {count : Int}
    (returned : walk.returned = some count) (stack : Nat → BitVec w) :
    count ≤ call.maxStackFrames ∧ ∀ index : Nat, (index : Int) < count →
      index < walk.written ∧ walk.frames index = walk.store stack index := by
  have counted := walk.returned_le count returned
  have within := walk.written_le
  refine ⟨by omega, fun index below => ?_⟩
  have inside : index < walk.written := by omega
  rw [Walk.store, if_pos inside]
  exact ⟨inside, rfl⟩

theorem mttLibunwindCapture_dlopen {state later : CaptureState w} {n : Int}
    (enabled : state.libunwindDisabled = false)
    (dynamic : call.staticLibunwind = false)
    (captured : call.mttLibunwindCapture state = (later, n)) :
    n ≤ call.maxStackFrames ∧ call.Holds .libunwind n later.stack ∧
    (2 ≤ n ↔ call.libunwindLoaded = true ∧
      ∃ count ∈ call.unwBacktrace.returned, 2 ≤ count) := by
  have nothing : ∀ stack : Nat → BitVec w, call.Holds .libunwind (-1) stack :=
    fun stack index below => absurd below (by omega)
  cases loaded : call.libunwindLoaded with
  | false =>
      simp only [mttLibunwindCapture, enabled, dynamic, loaded,
        Bool.false_eq_true, if_false, Prod.mk.injEq] at captured
      obtain ⟨rfl, rfl⟩ := captured
      exact ⟨by omega, nothing _, by simp⟩
  | true =>
      cases returned : call.unwBacktrace.returned with
      | none =>
          simp only [mttLibunwindCapture, enabled, dynamic, loaded, returned,
            Bool.false_eq_true, if_false, if_true, Prod.mk.injEq] at captured
          obtain ⟨rfl, rfl⟩ := captured
          exact ⟨by omega, nothing _, by simp⟩
      | some count =>
          simp only [mttLibunwindCapture, enabled, dynamic, loaded, returned,
            Bool.false_eq_true, if_false, if_true, Prod.mk.injEq] at captured
          obtain ⟨rfl, rfl⟩ := captured
          have walked := walk_finds returned state.stack
          refine ⟨by split <;> omega, holds_clearThumb (by omega) ?_, ?_⟩
          · intro index below
            simp only [Finds, dynamic, Bool.false_eq_true, if_false]
            exact walked.2 index (by split at below <;> omega)
          · simp
            split <;> omega

theorem mttLibunwindCapture_frame (state : CaptureState w) :
    (call.mttLibunwindCapture state).1.stackFrames = state.stackFrames ∧
      (call.mttLibunwindCapture state).1.thread = state.thread ∧
      (call.mttLibunwindCapture state).1.addr = state.addr := by
  simp only [mttLibunwindCapture]
  split
  · exact ⟨rfl, rfl, rfl⟩
  · split
    · split
      · split <;> exact ⟨rfl, rfl, rfl⟩
      · exact ⟨rfl, rfl, rfl⟩
    · split
      · split <;> exact ⟨rfl, rfl, rfl⟩
      · exact ⟨rfl, rfl, rfl⟩

/-- `mtt_libunwind_capture` delivers two frames just when libunwind is fit to,
and then the array holds them. -/
theorem mttLibunwindCapture_spec {state later : CaptureState w} {n : Int}
    (mode : call.unwinderMode ≠ 2) (enabled : state.libunwindDisabled = false)
    (captured : call.mttLibunwindCapture state = (later, n)) :
    n ≤ call.maxStackFrames ∧ call.Holds .libunwind n later.stack ∧
      (2 ≤ n ↔ call.LibunwindSuffices state) := by
  unfold LibunwindSuffices
  cases build : call.staticLibunwind with
  | true =>
      have spec := mttLibunwindCapture_static enabled build captured
      simpa [mode, enabled, build] using spec
  | false =>
      have spec := mttLibunwindCapture_dlopen enabled build captured
      simpa [mode, enabled, build] using spec

/-- The libunwind part. -/
structure LibunwindTried (call : CaptureCall w) (state later : CaptureState w)
    (done : Bool) : Prop where
  thread : later.thread = state.thread
  addr : later.addr = state.addr
  done_iff : done = true ↔ call.LibunwindSuffices state
  final : done = true → 0 ≤ later.stackFrames ∧
    later.stackFrames ≤ call.maxStackFrames ∧
      call.Holds .libunwind later.stackFrames later.stack
  open_ : done = false → later.stackFrames = state.stackFrames

theorem tryLibunwind_spec {state later : CaptureState w} {done : Bool}
    (tried : call.tryLibunwind state = (later, done)) :
    LibunwindTried call state later done := by
  have skipped : ¬ call.LibunwindSuffices state → (later, done) =
      (state, false) → LibunwindTried call state later done := by
    intro weak same
    obtain ⟨rfl, rfl⟩ := Prod.mk.inj same
    exact ⟨rfl, rfl, by simpa using weak, by simp, fun _ => rfl⟩
  unfold tryLibunwind at tried
  split at tried
  · rename_i used
    have enabled : state.libunwindDisabled = false := by simpa using used.2.1
    rcases captured : call.mttLibunwindCapture state with ⟨walked, n⟩
    obtain ⟨within, holds, enough⟩ :=
      mttLibunwindCapture_spec used.1 enabled captured
    have frame := call.mttLibunwindCapture_frame state
    rw [captured] at frame tried
    obtain ⟨frames, thread, addr⟩ := frame
    by_cases deep : 2 ≤ n
    · simp only [if_pos deep] at tried
      obtain ⟨rfl, rfl⟩ := Prod.mk.inj tried
      refine ⟨thread, addr, by simpa using enough.mp deep, ?_, by simp⟩
      intro _
      exact ⟨show 0 ≤ n by omega, within, holds⟩
    · simp only [if_neg deep] at tried
      obtain ⟨rfl, rfl⟩ := Prod.mk.inj tried
      exact ⟨thread, addr, by simpa [← enough] using deep, by simp,
        fun _ => frames⟩
  · rename_i unused
    apply skipped
    · rintro ⟨mode, enabled, build⟩
      apply unused
      refine ⟨mode, by simp [enabled], ?_⟩
      unfold mttLibunwindAvailable
      cases static : call.staticLibunwind with
      | true => simp [enabled]
      | false =>
          rw [static] at build
          simp [enabled, build.1]
    · exact tried.symm

/-- Both ways to call `backtrace` leave what it wrote, and count no frame that
it did not return. -/
theorem walked_backtrace {state walked : CaptureState w} {count : Int}
    (has : call.hasBacktrace = true)
    (walk : (if state.libunwindDisabled then
      some (call.mttSafeBacktrace state)
      else call.plainBacktrace state) = some (walked, count)) :
    walked = { state with stack := call.backtrace.store state.stack } ∧
      ((call.backtrace.returned = none ∧ count = 0) ∨
        ∃ returned, call.backtrace.returned = some returned ∧
          (if count < 0 then 0 else count) =
            if returned < 0 then 0 else returned) := by
  split at walk
  · cases returned : call.backtrace.returned with
    | none =>
        simp only [mttSafeBacktrace, has, returned, if_true, Option.some.injEq,
          Prod.mk.injEq] at walk
        obtain ⟨rfl, rfl⟩ := walk
        exact ⟨rfl, .inl ⟨rfl, rfl⟩⟩
    | some value =>
        simp only [mttSafeBacktrace, has, returned, if_true, Option.some.injEq,
          Prod.mk.injEq] at walk
        obtain ⟨rfl, rfl⟩ := walk
        refine ⟨rfl, .inr ⟨value, rfl, ?_⟩⟩
        split <;> simp_all
  · obtain ⟨value, returned, same⟩ := Option.map_eq_some_iff.mp walk
    obtain ⟨rfl, rfl⟩ := Prod.mk.inj same
    exact ⟨rfl, .inr ⟨value, returned, rfl⟩⟩

/-- The `backtrace` part of an entry without frames. -/
structure BacktraceTried (call : CaptureCall w) (state later : CaptureState w)
    (count : Int) : Prop where
  thread : later.thread = state.thread
  addr : later.addr = state.addr
  frames : later.stackFrames = count
  nonneg : 0 ≤ count
  within : count ≤ call.maxStackFrames
  holds : call.Holds .backtrace count later.stack
  enough : 1 ≤ count ↔ call.BacktraceSuffices

theorem tryBacktrace_spec {state later : CaptureState w} {count : Int}
    (empty : state.stackFrames = 0)
    (tried : call.tryBacktrace state = some (later, count)) :
    BacktraceTried call state later count := by
  unfold tryBacktrace at tried
  cases has : call.hasBacktrace with
  | false =>
      simp only [has, Bool.false_eq_true, if_false, Option.some.injEq,
        Prod.mk.injEq] at tried
      obtain ⟨rfl, rfl⟩ := tried
      refine ⟨rfl, rfl, empty, le_rfl, by omega, ?_, ?_⟩
      · intro index below
        omega
      · simp [BacktraceSuffices, has]
  | true =>
      simp only [has, if_true, Option.map_eq_some_iff] at tried
      obtain ⟨⟨walked, value⟩, walk, same⟩ := tried
      dsimp only at same
      generalize shown : (if value < 0 then 0 else value) = frames at same
      obtain ⟨rfl, rfl⟩ := Prod.mk.inj same
      obtain ⟨rfl, returns⟩ := walked_backtrace has walk
      rcases returns with ⟨faulted, rfl⟩ | ⟨returned, found, counted⟩
      · have nothing : frames = 0 := shown.symm
        refine ⟨rfl, rfl, rfl, by omega, by omega, ?_, ?_⟩
        · intro index below
          omega
        · simp [BacktraceSuffices, faulted, nothing]
      · obtain ⟨within, finds⟩ := walk_finds found state.stack
        have positive : 1 ≤ frames ↔ 1 ≤ returned := by
          rw [← shown, counted]
          split <;> omega
        refine ⟨rfl, rfl, rfl, ?_, ?_, ?_, ?_⟩
        · rw [← shown]
          split <;> omega
        · rw [← shown, counted]
          split <;> omega
        · apply holds_clearThumb (by omega)
          intro index below
          apply finds index
          rw [← shown, counted] at below
          split at below <;> omega
        · rw [positive]
          simp [BacktraceSuffices, has, found]

/-! ## The frame pointers -/

theorem fpChain_stops {room link : Nat} {addr first : AddrState w}
    (answers : ∀ address,
      (mttAddrIsExecutable call.maps addr address).1 =
        (mttAddrIsExecutable call.maps first address).1)
    (refused : ¬ call.LinkAccepted first link) :
    (call.fpChain (room + 1) (call.framePointer link) addr).1 = [] := by
  simp only [fpChain]
  split
  · rfl
  · rename_i pointer
    split
    · rfl
    · rename_i lr
      split
      · rfl
      · rename_i prev
        split
        · rfl
        · rename_i executable
          split
          · rfl
          · rename_i above
            split
            · rfl
            · rename_i near
              refine absurd ⟨pointer, lr, prev, ?_, ?_, ?_⟩ refused
              · rw [← answers]
                simpa using executable
              · exact Nat.not_le.mp above
              · exact Nat.not_lt.mp near

/-- An accepted link gives a frame, and the chain goes on. -/
theorem fpChain_continues (room : Nat) {link : Nat} {addr first : AddrState w}
    (answers : ∀ address,
      (mttAddrIsExecutable call.maps addr address).1 =
        (mttAddrIsExecutable call.maps first address).1)
    (accepted : call.LinkAccepted first link) :
    ∃ later, (∀ address,
      (mttAddrIsExecutable call.maps later address).1 =
        (mttAddrIsExecutable call.maps first address).1) ∧
      (call.fpChain (room + 1) (call.framePointer link) addr).1 =
        mttFixThumbAddr (call.linkRegister (call.framePointer link)) ::
          (call.fpChain room (call.framePointer (link + 1)) later).1 := by
  have executable := accepted.executable
  rw [← answers] at executable
  have above := accepted.above
  have near := accepted.near
  have different : call.memory (call.framePointer link) ≠
      call.framePointer link := by
    intro same
    rw [framePointer, same] at above
    exact lt_irrefl _ above
  refine ⟨(mttAddrIsExecutable call.maps addr (mttFixThumbAddr
    (call.linkRegister (call.framePointer link)))).2, ?_, ?_⟩
  · intro address
    rw [mttAddrIsExecutable_stable, answers]
  · simp only [framePointer] at above near
    have prev : call.memory (call.framePointer link) ≠ 0 := accepted.prev
    simp only [fpChain, if_neg accepted.pointer, if_neg accepted.lr,
      if_neg prev, executable, Bool.not_true, Bool.false_eq_true, if_false,
      if_neg (Nat.not_le.mpr above), if_neg (Nat.not_lt.mpr near),
      if_neg different, framePointer]

/-- The chain gives the frames of its accepted links, as many as there is room
for. -/
theorem fpChain_spec {room link : Nat} {addr first : AddrState w}
    (answers : ∀ address,
      (mttAddrIsExecutable call.maps addr address).1 =
        (mttAddrIsExecutable call.maps first address).1) :
    let frames := (call.fpChain room (call.framePointer link) addr).1
    frames.length ≤ room ∧
    (∀ index (inside : index < frames.length),
      call.LinkAccepted first (link + index) ∧
        frames[index] = mttFixThumbAddr
          (call.linkRegister (call.framePointer (link + index)))) ∧
    (frames.length < room →
      ¬ call.LinkAccepted first (link + frames.length)) := by
  induction room generalizing link addr with
  | zero => exact ⟨le_rfl, fun _ inside => absurd inside (Nat.not_lt_zero _),
      fun short => absurd short (Nat.not_lt_zero _)⟩
  | succ room induction =>
      intro frames
      by_cases accepted : call.LinkAccepted first link
      · obtain ⟨later, stable, unfolded⟩ :=
          fpChain_continues room answers accepted
        obtain ⟨within, found, ends⟩ := @induction (link + 1) later stable
        generalize (call.fpChain room (call.framePointer (link + 1)) later).1 =
          rest at unfolded within found ends
        have same : frames = mttFixThumbAddr
          (call.linkRegister (call.framePointer link)) :: rest := unfolded
        have longer : frames.length = rest.length + 1 := by
          rw [same, List.length_cons]
        refine ⟨by omega, ?_, ?_⟩
        · intro index inside
          cases index with
          | zero => exact ⟨accepted, by simp [same]⟩
          | succ index =>
              have later_ := found index (by omega)
              rw [Nat.add_assoc, Nat.add_comm 1] at later_
              exact ⟨later_.1, by simpa [same] using later_.2⟩
        · intro short
          have stops := ends (by omega)
          rw [Nat.add_assoc, Nat.add_comm 1] at stops
          rw [longer]
          exact stops
      · have nothing : frames = [] := fpChain_stops answers accepted
        rw [nothing]
        exact ⟨Nat.zero_le _, fun _ inside => absurd inside (Nat.not_lt_zero _),
          fun _ => accepted⟩

/-! ## The whole capture -/

theorem Captured.of_holds {before after : CaptureState w}
    {unwinder : Unwinder} (nonneg : 0 ≤ after.stackFrames)
    (within : after.stackFrames ≤ call.maxStackFrames)
    (holds : call.Holds unwinder after.stackFrames after.stack)
    (inCapture : after.thread.map MttPerThread.inCapture =
      before.thread.map MttPerThread.inCapture) :
    call.Captured before after := by
  refine ⟨⟨nonneg, within⟩, ⟨unwinder, holds⟩, ?_, inCapture⟩
  intro index below
  obtain ⟨pc, -, same⟩ := holds index below
  rw [same, getLsbD_mttFixThumbAddr]

theorem Captured.of_empty {before after : CaptureState w}
    (empty : after.stackFrames = 0)
    (inCapture : after.thread.map MttPerThread.inCapture =
      before.thread.map MttPerThread.inCapture) :
    call.Captured before after := by
  have holds : call.Holds .fpChain after.stackFrames after.stack := by
    intro index below
    omega
  exact Captured.of_holds (by omega) (by omega) holds inCapture

theorem inCapture_restored {before state : CaptureState w}
    {ctx : MttPerThread} (thread : before.thread = some ctx)
    (kept : state.thread = (setInCapture 1 before).thread) :
    (setInCapture ctx.inCapture state).thread.map MttPerThread.inCapture =
      before.thread.map MttPerThread.inCapture := by
  simp [setInCapture, kept, thread]

/-- What the frame pointers leave when `backtrace` found nothing. -/
theorem tryFpChain_spec (state : CaptureState w) :
    ∃ frames : Nat,
      (call.tryFpChain state 0).thread = state.thread ∧
      (state.stackFrames = 0 →
        (call.tryFpChain state 0).stackFrames = frames) ∧
      frames ≤ mttStackDepth ∧
      (0 < frames → call.Holds .fpChain frames
        (call.tryFpChain state 0).stack) ∧
      (∀ link < frames, call.LinkAccepted state.addr link) ∧
      (frames < mttStackDepth → ¬ call.LinkAccepted state.addr frames) := by
  have spec := @fpChain_spec w call mttStackDepth 0 state.addr state.addr
    fun _ => rfl
  simp only [framePointer, Nat.zero_add] at spec
  obtain ⟨within, found, ends⟩ := spec
  simp only [tryFpChain, if_true]
  refine ⟨_, ?_, ?_, within, ?_, fun link below =>
    (found link below).1, ends⟩
  · split <;> rfl
  · intro empty
    split
    · rfl
    · rename_i short
      change state.stackFrames = _
      omega
  · intro some_
    rw [if_pos some_]
    intro index below
    have inside : index < (call.fpChain mttStackDepth call.frameAddress
        state.addr).1.length := by omega
    refine ⟨_, rfl, ?_⟩
    dsimp only
    rw [List.getElem?_eq_getElem inside, Option.getD_some]
    exact (found index inside).2

/-- A capture left to the frame pointers is sound unless they overrun. -/
theorem fpChain_captured_iff {before later : CaptureState w}
    {ctx : MttPerThread} (thread : before.thread = some ctx)
    (idle : ctx.inCapture = 0)
    (weakLibunwind : ¬ call.LibunwindSuffices before)
    (weakBacktrace : ¬ call.BacktraceSuffices)
    (empty : later.stackFrames = 0) (addr : later.addr = before.addr)
    (kept : later.thread = (setInCapture 1 before).thread) :
    call.Captured before
        (setInCapture ctx.inCapture (call.tryFpChain later 0)) ↔
      ¬ call.ChainOverruns before := by
  obtain ⟨frames, sameThread, length, within, holds, links, ends⟩ :=
    call.tryFpChain_spec later
  have restored := inCapture_restored thread (sameThread.trans kept)
  have count := length empty
  rw [addr] at links ends
  have overruns : call.ChainOverruns before ↔ call.maxStackFrames < frames := by
    constructor
    · rintro ⟨-, -, -, short, accepted⟩
      by_contra few
      exact ends (by omega) (accepted frames (by omega))
    · intro many
      exact ⟨⟨ctx, thread, idle⟩, weakLibunwind, weakBacktrace, by omega,
        fun link below => links link (by omega)⟩
  rw [overruns]
  constructor
  · intro sound
    have limit := sound.count.2
    change (call.tryFpChain later 0).stackFrames ≤ _ at limit
    omega
  · intro few
    rcases Nat.eq_zero_or_pos frames with none_ | some_
    · refine Captured.of_empty ?_ restored
      change (call.tryFpChain later 0).stackFrames = 0
      omega
    · have held : call.Holds .fpChain (call.tryFpChain later 0).stackFrames
          (call.tryFpChain later 0).stack := count ▸ holds some_
      refine Captured.of_holds ?_ ?_ held restored
      · change 0 ≤ (call.tryFpChain later 0).stackFrames
        omega
      · change (call.tryFpChain later 0).stackFrames ≤ _
        omega

/-- A capture keeps the limit, the single unwinder, the cleared bits and
`in_capture` exactly when the frame pointers do not overrun the limit, which
their loop does not look at. -/
theorem mttCaptureStack_captured_iff {before after : CaptureState w}
    (empty : before.stackFrames = 0)
    (captured : call.mttCaptureStack before = some after) :
    call.Captured before after ↔ ¬ call.ChainOverruns before := by
  unfold mttCaptureStack at captured
  cases thread : before.thread with
  | none =>
      simp only [thread, Option.some.injEq] at captured
      subst captured
      refine iff_of_true (Captured.of_empty rfl (by rw [thread])) ?_
      rintro ⟨⟨ctx, found, -⟩, -⟩
      rw [thread] at found
      cases found
  | some ctx =>
      simp only [thread] at captured
      by_cases idle : ctx.inCapture = 0
      · rw [if_neg (not_not.mpr idle)] at captured
        rcases tried : call.tryLibunwind (setInCapture 1 before) with
          ⟨state, done⟩
        have libunwind := tryLibunwind_spec tried
        rw [tried] at captured
        cases done with
        | true =>
            simp only [if_true, Option.some.injEq] at captured
            subst captured
            obtain ⟨nonneg, within, holds⟩ := libunwind.final rfl
            have restored := inCapture_restored thread libunwind.thread
            refine iff_of_true
              (Captured.of_holds nonneg within holds restored) ?_
            rintro ⟨-, weak, -⟩
            exact weak (libunwind.done_iff.mp rfl)
        | false =>
            simp only [Bool.false_eq_true, if_false,
              Option.map_eq_some_iff] at captured
            obtain ⟨⟨later, count⟩, walked, rfl⟩ := captured
            have unframed : state.stackFrames = 0 :=
              (libunwind.open_ rfl).trans empty
            have backtrace := tryBacktrace_spec unframed walked
            have kept := backtrace.thread.trans libunwind.thread
            by_cases zero : count = 0
            · subst zero
              refine fpChain_captured_iff thread idle ?_ ?_ backtrace.frames
                (backtrace.addr.trans libunwind.addr) kept
              · intro strong
                exact absurd (libunwind.done_iff.mpr strong) (by simp)
              · intro strong
                exact absurd (backtrace.enough.mpr strong) (by omega)
            · dsimp only
              rw [tryFpChain, if_neg zero]
              have restored := inCapture_restored thread kept
              have frames := backtrace.frames
              have nonneg := backtrace.nonneg
              have held : call.Holds .backtrace later.stackFrames
                  later.stack := frames ▸ backtrace.holds
              refine iff_of_true (Captured.of_holds ?_ ?_ held restored) ?_
              · exact frames ▸ nonneg
              · exact frames ▸ backtrace.within
              · rintro ⟨-, -, weak, -⟩
                exact weak (backtrace.enough.mp (by omega))
      · rw [if_pos idle] at captured
        obtain rfl := Option.some.inj captured
        refine iff_of_true (Captured.of_empty rfl (by rw [thread])) ?_
        rintro ⟨⟨other, found, free⟩, -⟩
        rw [thread] at found
        obtain rfl := Option.some.inj found
        exact idle free

end CaptureCall

/-- An unwinder that faults at once. -/
def faultingWalk (maxFrames : Nat) : Walk 64 maxFrames where
  written := 0
  frames := fun _ => 0
  returned := none
  written_le := Nat.zero_le _
  returned_le := fun _ member => absurd member (by simp)

/-- Nine saved frame pointers from 0x7000 on, 16 bytes apart. -/
def chainMemory (address : Word) : Word :=
  if address % 16 = 8 then 0x1001
  else if address < 0x7090 then address + 16
  else 0

def chainCall (maxStackFrames : Nat) (pos : 1 ≤ maxStackFrames)
    (le : maxStackFrames ≤ mttStackDepth) : CaptureCall 64 where
  staticLibunwind := false
  hasBacktrace := true
  unwinderMode := 0
  maxStackFrames := maxStackFrames
  maxStackFrames_pos := pos
  maxStackFrames_le := le
  unwContext := true
  unwSteps := fun _ => .stop
  libunwindLoaded := true
  unwBacktrace := faultingWalk maxStackFrames
  backtrace := faultingWalk maxStackFrames
  frameAddress := 0x7000
  memory := chainMemory
  maps := none

/-- A thread whose libunwind has faulted before, with one executable range. -/
def chainState : CaptureState 64 :=
  { stack := fun _ => 0
    stackFrames := 0
    thread := some MttPerThread.zero
    libunwindDisabled := true
    addr :=
      { ranges := fun _ => { lo := 0x1000, hi := 0x2000, libname := [] }
        rangeCount := 1
        initDone := true } }

theorem mttCaptureStack_captured_allDepth :
    ∃ after,
      (chainCall 64 (by decide) le_rfl).mttCaptureStack chainState =
          some after ∧
        (chainCall 64 (by decide) le_rfl).Captured chainState after := by
  have returns : ((chainCall 64 (by decide) le_rfl).mttCaptureStack
      chainState).isSome = true := by decide
  obtain ⟨after, captured⟩ := Option.isSome_iff_exists.mp returns
  refine ⟨after, captured, ?_⟩
  apply (CaptureCall.mttCaptureStack_captured_iff rfl captured).mpr
  rintro ⟨-, -, -, short, -⟩
  exact absurd short (by decide)

/-- With a limit of eight frames the chain of nine stores nine. -/
theorem mttCaptureStack_overrun_eightFrames :
    ∃ after,
      (chainCall 8 (by decide) (by decide)).mttCaptureStack chainState =
          some after ∧ after.stackFrames = 9 ∧
        ¬ (chainCall 8 (by decide) (by decide)).Captured chainState after := by
  have nine : ((chainCall 8 (by decide) (by decide)).mttCaptureStack
      chainState).map CaptureState.stackFrames = some 9 := by decide
  obtain ⟨after, captured, count⟩ := Option.map_eq_some_iff.mp nine
  refine ⟨after, captured, count, ?_⟩
  intro sound
  have limit := sound.count.2
  rw [count] at limit
  exact absurd limit (by decide)

end MemoryTraceTool.CaptureStack
