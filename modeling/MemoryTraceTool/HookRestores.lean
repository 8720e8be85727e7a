import MemoryTraceTool.HookExits
import MemoryTraceTool.LeftoverFields
import MemoryTraceTool.NestedRequests

/-!
# The hooks restore what they change

What a hook leaves of the slot does not depend on the exit it takes.  A triple
of each function says which slot it leads to from the slot that it finds; the
calls nested in a call keep the slot and, inside a hook, the state of the tool.
-/

namespace MemoryTraceTool.HookExits

open StateProgram
open MemoryTraceTool.Slots (MttPerThread depthSentinel)
open MemoryTraceTool.Sequential (mttHookDepthMax)

variable {S E : Type}

/-! ## What a slot may hold -/

/-- No depth below zero counts as initialised. -/
def Fit (ctx : MttPerThread) : Prop :=
  ctx.depthInited = depthSentinel → 0 ≤ ctx.hookDepth

theorem Fit.zero : Fit MttPerThread.zero := by
  intro inited
  exact le_refl _

theorem Fit.taken : Fit MttPerThread.taken := by
  intro inited
  simp [MttPerThread.taken, depthSentinel] at inited

theorem Fit.enter {ctx : MttPerThread} (fit : Fit ctx) :
    Fit (Slots.mttHookEnter ctx) := by
  intro inited
  unfold Slots.mttHookEnter at inited ⊢
  split
  · exact le_refl _
  · rename_i notFresh
    split
    · exact le_refl _
    · exact fit (not_not.mp notFresh)

theorem Fit.inc {ctx : MttPerThread} (fit : Fit ctx) :
    Fit (Slots.mttHookIncDepth ctx) := by
  intro inited
  unfold Slots.mttHookIncDepth at inited ⊢
  by_cases was : ctx.depthInited = depthSentinel
  · have nonneg := fit was
    simp only [was, if_true] at inited ⊢
    split
    · exact nonneg
    · exact Int.add_nonneg nonneg (by decide)
  · have room : ¬ (mttHookDepthMax : Int) ≤ 0 := by decide
    simp only [was, if_false, room]
    decide

theorem Fit.dec {ctx : MttPerThread} : Fit (Slots.mttHookDecDepth ctx) := by
  intro inited
  unfold Slots.mttHookDecDepth
  split
  · rename_i positive
    exact Int.sub_nonneg_of_le positive
  · exact le_refl _

theorem depthProperty_fit : Slots.DepthProperty Fit where
  zero := Fit.zero
  taken := Fit.taken
  enter := fun _ fit => fit.enter
  count := fun _ fit => fit.inc
  uncount := fun _ _ => Fit.dec
  others := by
    intro fields later fit same inited isInited
    rw [same]
    exact fit (inited ▸ isInited)

theorem fit_of_reachable {state : Slots.SlotState}
    (reachable : Slots.slotSystem.Reachable state) (index : Nat) :
    Fit (state.fields index) :=
  depthProperty_fit.reachable reachable index

theorem enter_enter {ctx : MttPerThread} :
    Slots.mttHookEnter (Slots.mttHookEnter ctx) = Slots.mttHookEnter ctx := by
  unfold Slots.mttHookEnter
  split <;> split <;> simp_all [mttHookDepthMax]

/-- A step that neither looks at the depth nor changes it. -/
def OtherFields (step : MttPerThread → MttPerThread) : Prop :=
  ∀ ctx hookDepth depthInited, step { ctx with hookDepth, depthInited } =
    { step ctx with hookDepth, depthInited }

theorem OtherFields.enter {step : MttPerThread → MttPerThread}
    (others : OtherFields step) (ctx : MttPerThread) :
    Slots.mttHookEnter (step ctx) = step (Slots.mttHookEnter ctx) := by
  have same : step ctx = { step ctx with
      hookDepth := ctx.hookDepth, depthInited := ctx.depthInited } :=
    others ctx ctx.hookDepth ctx.depthInited
  have depth : (step ctx).hookDepth = ctx.hookDepth := by rw [same]
  have inited : (step ctx).depthInited = ctx.depthInited := by rw [same]
  unfold Slots.mttHookEnter
  rw [depth, inited]
  split
  · exact (others ctx 0 depthSentinel).symm
  · split
    · exact (others ctx 0 ctx.depthInited).symm
    · rfl

/-- The slot is the one at the start, with its depth normalised or not. -/
def Near (before ctx : MttPerThread) : Prop :=
  ctx = before ∨ ctx = Slots.mttHookEnter before

namespace Near

variable {before ctx later : MttPerThread}

theorem refl : Near before before :=
  .inl rfl

theorem enter (near : Near before ctx) :
    Slots.mttHookEnter ctx = Slots.mttHookEnter before := by
  rcases near with rfl | rfl
  · rfl
  · exact enter_enter

theorem trans (near : Near before ctx) (next : Near ctx later) :
    Near before later := by
  rcases next with rfl | rfl
  · exact near
  · exact .inr near.enter

theorem fit (near : Near before ctx) (fits : Fit before) : Fit ctx := by
  rcases near with rfl | rfl
  · exact fits
  · exact fits.enter

/-- A change of the fields that `mtt_hook_enter` leaves alone. -/
theorem map {step : MttPerThread → MttPerThread}
    (others : OtherFields step)
    (near : Near before ctx) : Near (step before) (step ctx) := by
  rcases near with rfl | rfl
  · exact refl
  · exact .inr (others.enter before).symm

end Near

/-- Fields other than the depth. -/
structure SameFlags (before ctx : MttPerThread) : Prop where
  inHook : ctx.inHook = before.inHook
  toolInternal : ctx.toolInternal = before.toolInternal
  rawResolving : ctx.rawResolving = before.rawResolving
  inCapture : ctx.inCapture = before.inCapture

theorem Near.flags {before ctx : MttPerThread} (near : Near before ctx) :
    SameFlags before ctx := by
  rcases near with rfl | rfl
  · exact ⟨rfl, rfl, rfl, rfl⟩
  · unfold Slots.mttHookEnter
    split
    · exact ⟨rfl, rfl, rfl, rfl⟩
    · split <;> exact ⟨rfl, rfl, rfl, rfl⟩

/-! ## What a call promises -/

/-- The depth of a slot once `mtt_hook_enter` has normalised it. -/
def depth (ctx : MttPerThread) : Int :=
  (Slots.mttHookEnter ctx).hookDepth

/-- What a call gets that goes to the raw allocators alone. -/
inductive ServedRaw (pooled : Word → Bool) (input : CallInput)
    (pointers : RawPointers) : Call → Served → Prop where
  | malloc (size : Word) :
      ServedRaw pooled input pointers (.malloc size)
        (rawMalloc input size pointers)
  | calloc (count size : Word) :
      ServedRaw pooled input pointers (.calloc count size)
        (rawCalloc input count size pointers)
  | free (ptr : Word) :
      ServedRaw pooled input pointers (.free ptr) (rawFree ptr pointers)
  | ignored (ptr : Word) (ignores : ptr = 0 ∨ pooled ptr = true) :
      ServedRaw pooled input pointers (.free ptr) { result := none, raw := [] }
  | realloc (ptr size : Word) (block : ptr ≠ 0) (positive : size ≠ 0) :
      ServedRaw pooled input pointers (.realloc ptr size)
        (rawRealloc input ptr size pointers)
  | null (size : Word) (served : Served)
      (new : ServedRaw pooled input pointers (.malloc size) served) :
      ServedRaw pooled input pointers (.realloc 0 size) served
  | zero (ptr : Word) (served : Served)
      (freed : ServedRaw pooled input pointers (.free ptr) served) :
      ServedRaw pooled input pointers (.realloc ptr 0) served
  | overflow (ptr nmemb size : Word)
      (large : arraySize nmemb.toNat size.toNat = none) :
      ServedRaw pooled input pointers (.reallocarray ptr nmemb size)
        { result := none, raw := [] }
  | array (ptr nmemb size : Word) (total : Nat) (served : Served)
      (fits : arraySize nmemb.toNat size.toNat = some total)
      (resized : ServedRaw pooled input pointers
        (.realloc ptr (BitVec.ofNat 64 total)) served) :
      ServedRaw pooled input pointers (.reallocarray ptr nmemb size) served
  | listed (ptr nmemb size : Word) (total : Nat)
      (fits : arraySize nmemb.toNat size.toNat = some total)
      (blacklisted : input.lrInBlacklist = true) :
      ServedRaw pooled input pointers (.reallocarray ptr nmemb size)
        (rawRealloc input ptr (BitVec.ofNat 64 total) pointers)

/-- Depth and `in_hook` are back, and a call inside another hook has not
touched the state of the tool and went to the raw allocators alone. -/
structure Returned.Good (ops : StateOps S E) (returned : Returned S) :
    Prop where
  near : Near returned.slotBefore returned.slotAfter
  sameDepth : depth returned.slotAfter = depth returned.slotBefore
  sameInHook : returned.slotAfter.inHook = returned.slotBefore.inHook
  nested : 0 < depth returned.slotBefore →
    returned.stateAfter = returned.stateBefore ∧
      ServedRaw (fun ptr => ops.poolContains ptr returned.stateBefore)
        returned.input returned.rawAfter returned.call returned.served

/-- Between two steps of a call that found the slot `before`. -/
structure Holds (ops : StateOps S E) (P : S → Prop) (before : MttPerThread)
    (world : World S) : Prop where
  near : Near before world.slot
  good : ∀ returned ∈ world.returned, returned.Good ops
  state : P world.state

/-- From the slot `before` to the slot `after`. -/
def Leads {α : Type} (ops : StateOps S E) (P : S → Prop)
    (before after : MttPerThread) (program : HookM S α) : Prop :=
  Triple (Holds ops P before) program fun _ => Holds ops P after

/-- Only outside all hooks may a call change the state of the tool. -/
def Allowed (P : S → Prop) (before : MttPerThread) : Prop :=
  0 < depth before ∨ ∀ state, P state

/-- A program of nested calls. -/
def Sound (ops : StateOps S E) (program : HookM S Unit) : Prop :=
  ∀ P before, Fit before → Allowed P before →
    Leads ops P before before program

structure Nested.Sound (ops : StateOps S E) (nested : Nested S) : Prop where
  resolving : HookExits.Sound ops nested.resolving
  locking : HookExits.Sound ops nested.locking
  starting : HookExits.Sound ops nested.starting
  capturing : HookExits.Sound ops nested.capturing

namespace Leads

variable {ops : StateOps S E} {P : S → Prop}
  {before after last : MttPerThread} {α β : Type}

theorem pure {value : α} :
    Leads ops P before before (Pure.pure value) :=
  Triple.pure fun _ kept => kept

theorem bind {program : HookM S α} {next : α → HookM S β}
    (first : Leads ops P before after program)
    (second : ∀ value, Leads ops P after last (next value)) :
    Leads ops P before last (program >>= next) :=
  Triple.bind first second

theorem ite {condition : Prop} [Decidable condition]
    {program other : HookM S α}
    (holds : condition → Leads ops P before after program)
    (fails : ¬ condition → Leads ops P before after other) :
    Leads ops P before after (if condition then program else other) :=
  Triple.ite holds fails

/-- Back to a slot whose depth may be normalised by now. -/
theorem entered {program : HookM S α}
    (leads : Leads ops P before (Slots.mttHookEnter after) program) :
    Leads ops P before after program := by
  have near : Near after (Slots.mttHookEnter after) := .inr rfl
  refine Triple.weaken leads fun value world kept => ?_
  exact ⟨near.trans kept.near, kept.good, kept.state⟩

theorem slot_bind {next : MttPerThread → HookM S β}
    (second : ∀ ctx, SameFlags before ctx →
      Leads ops P before last (next ctx)) :
    Leads ops P before last (slot >>= next) :=
  fun world holds => second world.slot holds.near.flags world holds

theorem hookEnter_bind {next : Int → HookM S β}
    (second : Leads ops P (Slots.mttHookEnter before) last
      (next (depth before))) :
    Leads ops P before last (hookEnter >>= next) := by
  intro world holds
  have found : (Slots.mttHookEnter world.slot).hookDepth = depth before :=
    congrArg MttPerThread.hookDepth holds.near.enter
  have entered : Holds ops P (Slots.mttHookEnter before)
      { world with slot := Slots.mttHookEnter world.slot } :=
    ⟨.inl holds.near.enter, holds.good, holds.state⟩
  rw [← found] at second
  exact second _ entered

theorem raw_bind {next : RawPointers → HookM S β}
    (second : ∀ pointers, Leads ops P before last (next pointers)) :
    Leads ops P before last (raw >>= next) :=
  fun world holds => second world.raw world holds

theorem answer {served : RawPointers → Served} :
    Leads ops P before before (answer (S := S) served) :=
  fun _ holds => holds

theorem setRaw {step : RawPointers → RawPointers} :
    Leads ops P before before (setRaw (S := S) step) :=
  fun _ holds => ⟨holds.near, holds.good, holds.state⟩

theorem setSlot {step : MttPerThread → MttPerThread}
    (others : OtherFields step) :
    Leads ops P before (step before) (setSlot (S := S) step) :=
  fun _ holds => ⟨holds.near.map others, holds.good, holds.state⟩

theorem tool {operation : S → α × S} (free : ∀ state, P state) :
    Leads ops P before before (tool operation) :=
  fun _ holds => ⟨holds.near, holds.good, free _⟩

theorem nested {program : HookM S Unit} (sound : Sound ops program)
    (fit : Fit before) (allowed : Allowed P before) :
    Leads ops P before before program :=
  sound P before fit allowed

end Leads

/-! ## The tool's functions keep the slot -/

theorem depth_congr {before ctx : MttPerThread}
    (same : ctx.hookDepth = before.hookDepth)
    (inited : ctx.depthInited = before.depthInited) :
    depth ctx = depth before := by
  unfold depth Slots.mttHookEnter
  rw [same, inited]
  split
  · rfl
  · split
    · rfl
    · exact same

section Functions

variable {ops : StateOps S E} {nested : Nested S} {input : CallInput}
  {P : S → Prop} {before : MttPerThread}

theorem Allowed.congr {ctx : MttPerThread} (allowed : Allowed P before)
    (same : ctx.hookDepth = before.hookDepth)
    (inited : ctx.depthInited = before.depthInited) : Allowed P ctx := by
  rcases allowed with inside | free
  · left
    rw [depth_congr same inited]
    exact inside
  · exact .inr free

theorem mttResolveRawAllocators_leads (sound : nested.Sound ops)
    (fit : Fit before) (allowed : Allowed P before) :
    Leads ops P before before (mttResolveRawAllocators nested) := by
  apply Leads.raw_bind
  intro pointers
  refine .ite (fun _ => .pure) fun _ => ?_
  apply Leads.slot_bind
  intro ctx flags
  refine .ite (fun _ => .pure) fun idle => ?_
  have unresolving : before.rawResolving = 0 := by
    rw [← flags.rawResolving]
    exact not_not.mp idle
  refine .bind .setRaw fun _ => ?_
  refine .ite (fun _ => .pure) fun _ => ?_
  refine .bind .setRaw fun _ => ?_
  refine .bind (.setSlot fun _ _ _ => rfl) fun _ => ?_
  apply Leads.slot_bind
  intro marked markedFlags
  refine .bind (.setSlot fun _ _ _ => rfl) fun _ => ?_
  refine .bind (.nested sound.resolving fit (allowed.congr rfl rfl))
    fun _ => ?_
  refine .bind (.setSlot fun _ _ _ => rfl) fun _ => ?_
  refine .bind (.setSlot fun _ _ _ => rfl) fun _ => ?_
  have restored : { before with
      inHook := marked.inHook, rawResolving := 0 } = before := by
    rw [markedFlags.inHook, ← unresolving]
  rw [restored]
  exact .setRaw

/-! Outside all hooks nothing is kept of the state. -/

theorem startThreads_leads (sound : nested.Sound ops) (fit : Fit before)
    (free : ∀ state, P state) :
    Leads ops P before before (startThreads ops nested) := by
  apply Leads.slot_bind
  intro ctx flags
  have restored : { before with
      inHook := ctx.inHook, toolInternal := ctx.toolInternal } = before := by
    rw [flags.inHook, flags.toolInternal]
  have restore : Leads ops P
      { before with inHook := 1, toolInternal := 1 } before
      (setSlot (S := S) fun later =>
        { later with
          inHook := ctx.inHook, toolInternal := ctx.toolInternal }) := by
    rw [← restored]
    exact .setSlot fun _ _ _ => rfl
  refine .bind (.setSlot fun _ _ _ => rfl) fun _ => ?_
  refine .bind (.tool free) fun disabled => ?_
  refine .ite (fun _ => restore) fun _ => ?_
  refine .bind (.nested sound.starting fit (.inr free)) fun _ => ?_
  exact restore

theorem mttEnsureInit_leads (sound : nested.Sound ops) (fit : Fit before)
    (free : ∀ state, P state) :
    Leads ops P before before (mttEnsureInit ops nested) := by
  refine .ite (fun _ => ?_) fun _ => .pure
  refine .bind (.tool free) fun initialized => ?_
  refine .ite (fun _ => .pure) fun _ => ?_
  refine .bind (mttResolveRawAllocators_leads sound fit (.inr free))
    fun _ => ?_
  refine .bind (.tool free) fun again => ?_
  refine .ite (fun _ => .pure) fun _ => ?_
  refine .bind (.tool free) fun obtained => ?_
  refine .ite (fun _ => ?_) fun _ => .pure
  refine .bind (.nested sound.locking fit (.inr free)) fun _ => ?_
  refine .bind (.tool free) fun _ => ?_
  exact startThreads_leads sound fit free

theorem mttCaptureStack_leads (sound : nested.Sound ops) (fit : Fit before)
    (free : ∀ state, P state) :
    Leads ops P before before (mttCaptureStack nested) := by
  apply Leads.slot_bind
  intro ctx flags
  refine .ite (fun _ => .pure) fun _ => ?_
  refine .bind (.setSlot fun _ _ _ => rfl) fun _ => ?_
  refine .bind (.nested sound.capturing fit (.inr free)) fun _ => ?_
  have restored : { before with inCapture := ctx.inCapture } = before := by
    rw [flags.inCapture]
  have back : Leads ops P { before with inCapture := 1 }
      { before with inCapture := ctx.inCapture }
      (setSlot (S := S) fun later =>
        { later with inCapture := ctx.inCapture }) :=
    .setSlot fun _ _ _ => rfl
  rw [restored] at back
  exact back

theorem mttEntryNew_leads {ptr size : Word} (sound : nested.Sound ops)
    (fit : Fit before) (free : ∀ state, P state) :
    Leads ops P before before (mttEntryNew ops nested ptr size) := by
  refine .bind (.tool free) fun entry => ?_
  cases entry with
  | none => exact .pure
  | some entry =>
      refine .bind (mttCaptureStack_leads sound fit free) fun _ => ?_
      exact .pure

theorem recordMoved_leads {ptr size : Word} (sound : nested.Sound ops)
    (fit : Fit before) (free : ∀ state, P state) :
    Leads ops P before before (recordMoved ops nested ptr size) := by
  refine .bind (.tool free) fun overCap => ?_
  refine .ite (fun _ => .pure) fun _ => ?_
  refine .bind (mttEntryNew_leads sound fit free) fun entry => ?_
  cases entry with
  | none => exact .pure
  | some entry =>
      refine .bind (.tool free) fun full => ?_
      exact .ite (fun _ => .tool free) fun _ => .tool free

/-! ## Into a hook and out of it -/

theorem enter_inited (ctx : MttPerThread) :
    (Slots.mttHookEnter ctx).depthInited = depthSentinel := by
  unfold Slots.mttHookEnter
  split
  · rfl
  · rename_i inited
    split <;> exact not_not.mp inited

/-- The slot of a thread outside all hooks, after `mtt_hook_enter`. -/
structure Outside (ctx : MttPerThread) : Prop where
  inited : ctx.depthInited = depthSentinel
  zero : ctx.hookDepth = 0

/-- The slot from `in_hook = 1` to `mtt_hook_dec_depth`. -/
def counted (ctx : MttPerThread) : MttPerThread :=
  { ctx with hookDepth := 1, inHook := 1 }

theorem Fit.counted (ctx : MttPerThread) : Fit (counted ctx) := by
  intro inited
  exact Int.one_nonneg

theorem Fit.outside {ctx : MttPerThread} (fit : Fit ctx)
    (zero : ¬ 0 < depth ctx) : Outside (Slots.mttHookEnter ctx) := by
  have inited := enter_inited ctx
  have nonneg := fit.enter inited
  have none : ¬ 0 < (Slots.mttHookEnter ctx).hookDepth := zero
  exact ⟨inited, by omega⟩

namespace Outside

variable {ctx : MttPerThread}

theorem inc (outside : Outside ctx) :
    Slots.mttHookIncDepth ctx = { ctx with hookDepth := 1 } := by
  have room : mttHookDepthMax ≠ 0 := by decide
  simp [Slots.mttHookIncDepth, outside.inited, outside.zero, room]

theorem enter (outside : Outside ctx) : Slots.mttHookEnter ctx = ctx := by
  simp [Slots.mttHookEnter, outside.inited, outside.zero]

theorem fit (outside : Outside ctx) : Fit ctx := by
  intro _
  rw [outside.zero]

theorem enter_one (outside : Outside ctx) (hook : Int) :
    Slots.mttHookEnter { ctx with hookDepth := 1, inHook := hook } =
      { ctx with hookDepth := 1, inHook := hook } := by
  have room : ¬ (mttHookDepthMax : Int) < 1 := by decide
  simp [Slots.mttHookEnter, outside.inited, room]

theorem back (outside : Outside ctx) :
    { Slots.mttHookDecDepth (counted ctx) with inHook := ctx.inHook } =
      ctx := by
  simp [Slots.mttHookDecDepth, counted, ← outside.zero]

end Outside

theorem Leads.setSlot_normal {step : MttPerThread → MttPerThread}
    (normal : Slots.mttHookEnter before = before) :
    Leads ops P before (step before) (HookExits.setSlot (S := S) step) := by
  intro world holds
  have same : world.slot = before := by
    rcases holds.near with same | entered
    · exact same
    · rw [entered, normal]
  have near : Near (step before) (step world.slot) := .inl (by rw [same])
  exact ⟨near, holds.good, holds.state⟩

variable {ctx : MttPerThread} {savedHook : Int}

/-- The way out that every exit of a hook writes down. -/
theorem leave_leads {served : Served} (outside : Outside ctx)
    (saved : savedHook = ctx.inHook) :
    Leads ops P (counted ctx) ctx
      (do hookDecDepth; setInHook savedHook; return served) := by
  have dec : Leads ops P (counted ctx) (Slots.mttHookDecDepth (counted ctx))
      (hookDecDepth (S := S)) :=
    .setSlot_normal (outside.enter_one 1)
  have restore : Leads ops P (Slots.mttHookDecDepth (counted ctx))
      { Slots.mttHookDecDepth (counted ctx) with inHook := savedHook }
      (setInHook (S := S) savedHook) :=
    .setSlot fun _ _ _ => rfl
  rw [saved, outside.back, ← saved] at restore
  refine dec.bind fun _ => ?_
  refine restore.bind fun _ => ?_
  exact .pure

theorem answer_leave {served : RawPointers → Served} (outside : Outside ctx)
    (saved : savedHook = ctx.inHook) :
    Leads ops P (counted ctx) ctx
      (do
        let ret ← answer served
        hookDecDepth
        setInHook savedHook
        return ret) :=
  .bind .answer fun _ => leave_leads outside saved

section Inside

variable (outside : Outside ctx) (saved : savedHook = ctx.inHook)
  (sound : nested.Sound ops) (free : ∀ state, P state)
include outside saved sound free

theorem mallocTracked_leads {size : Word} :
    Leads ops P (counted ctx) ctx
      (mallocTracked ops nested input savedHook size) := by
  refine .bind .answer fun served => ?_
  split
  · exact leave_leads outside saved
  · refine .bind (.tool free) fun trackOk => ?_
    refine .bind (.tool free) fun overCap => ?_
    refine .ite (fun _ => leave_leads outside saved) fun _ => ?_
    refine .bind (mttEntryNew_leads sound (.counted ctx) free)
      fun entry => ?_
    cases entry with
    | none => exact leave_leads outside saved
    | some entry =>
        refine .bind (.tool free) fun full => ?_
        refine .ite (fun _ => ?_) fun _ => ?_
        · exact .bind (.tool free) fun _ => leave_leads outside saved
        · exact .bind (.tool free) fun _ => leave_leads outside saved

theorem reallocTracked_leads {ptr size : Word} :
    Leads ops P (counted ctx) ctx
      (reallocTracked ops nested input savedHook ptr size) := by
  refine .bind (.tool free) fun found => ?_
  refine .bind .answer fun served => ?_
  split
  · exact leave_leads outside saved
  · refine .ite (fun _ => ?_) fun _ => leave_leads outside saved
    refine .bind (.tool free) fun _ => ?_
    refine .bind (recordMoved_leads sound (.counted ctx) free) fun _ => ?_
    exact leave_leads outside saved

theorem reallocFallback_leads {ptr size : Word} :
    Leads ops P (counted ctx) ctx
      (reallocFallback ops nested input savedHook ptr size) := by
  refine .bind .answer fun moved => ?_
  split
  · exact leave_leads outside saved
  · refine .bind (mttEntryNew_leads sound (.counted ctx) free)
      fun entry => ?_
    cases entry with
    | none =>
        refine .bind .answer fun freed => ?_
        exact leave_leads outside saved
    | some entry =>
        refine .bind (.tool free) fun _ => ?_
        refine .bind (.tool free) fun full => ?_
        refine .ite (fun _ => ?_) fun _ => ?_
        · refine .bind (.tool free) fun _ => ?_
          refine .bind .answer fun freed => ?_
          exact leave_leads outside saved
        · refine .bind (.tool free) fun _ => ?_
          refine .bind .answer fun freed => ?_
          exact leave_leads outside saved

end Inside

section Bodies

variable (outside : Outside ctx) (sound : nested.Sound ops)
  (free : ∀ state, P state) {lrInBlacklist : Bool}
include outside sound free

theorem mallocInside_leads {size : Word} :
    Leads ops P { ctx with hookDepth := 1 } ctx
      (mallocInside ops nested input lrInBlacklist size) := by
  apply Leads.slot_bind
  intro found flags
  have saved : found.inHook = ctx.inHook := flags.inHook
  refine .bind (.setSlot fun _ _ _ => rfl) fun _ => ?_
  refine .bind (mttResolveRawAllocators_leads sound (.counted ctx) (.inr free))
    fun _ => ?_
  refine .ite (fun _ => answer_leave outside saved) fun _ => ?_
  apply Leads.slot_bind
  intro later _
  refine .ite (fun _ => answer_leave outside saved) fun _ => ?_
  apply Leads.raw_bind
  intro pointers
  refine .ite (fun _ => leave_leads outside saved) fun _ => ?_
  refine .ite (fun _ => answer_leave outside saved) fun _ => ?_
  refine .bind (mttEnsureInit_leads sound (.counted ctx) free) fun _ => ?_
  have inStartup : Leads ops P (counted ctx) (counted ctx)
      (inStartupPhase ops) :=
    .ite (fun _ => .tool free) fun _ => .pure
  refine inStartup.bind fun startup => ?_
  refine .ite (fun _ => answer_leave outside saved) fun _ => ?_
  refine .ite (fun _ => answer_leave outside saved) fun _ => ?_
  refine .bind (.tool free) fun disabled => ?_
  refine .ite (fun _ => answer_leave outside saved) fun _ => ?_
  exact mallocTracked_leads outside saved sound free

theorem freeInside_leads {ptr : Word} :
    Leads ops P { ctx with hookDepth := 1 } ctx
      (freeInside ops nested lrInBlacklist ptr) := by
  apply Leads.slot_bind
  intro found flags
  have saved : found.inHook = ctx.inHook := flags.inHook
  refine .bind (.setSlot fun _ _ _ => rfl) fun _ => ?_
  refine .bind (mttResolveRawAllocators_leads sound (.counted ctx) (.inr free))
    fun _ => ?_
  refine .ite (fun _ => answer_leave outside saved) fun _ => ?_
  apply Leads.slot_bind
  intro later _
  refine .ite (fun _ => answer_leave outside saved) fun _ => ?_
  apply Leads.raw_bind
  intro pointers
  refine .ite (fun _ => leave_leads outside saved) fun _ => ?_
  refine .bind (mttEnsureInit_leads sound (.counted ctx) free) fun _ => ?_
  refine .ite (fun _ => answer_leave outside saved) fun _ => ?_
  refine .bind (.tool free) fun disabled => ?_
  refine .ite (fun _ => answer_leave outside saved) fun _ => ?_
  exact .bind (.tool free) fun _ => answer_leave outside saved

theorem reallocInside_leads {ptr size : Word} :
    Leads ops P { ctx with hookDepth := 1 } ctx
      (reallocInside ops nested input lrInBlacklist ptr size) := by
  apply Leads.slot_bind
  intro found flags
  have saved : found.inHook = ctx.inHook := flags.inHook
  refine .bind (.setSlot fun _ _ _ => rfl) fun _ => ?_
  refine .bind (mttResolveRawAllocators_leads sound (.counted ctx) (.inr free))
    fun _ => ?_
  refine .ite (fun _ => answer_leave outside saved) fun _ => ?_
  apply Leads.slot_bind
  intro later _
  refine .ite (fun _ => answer_leave outside saved) fun _ => ?_
  apply Leads.raw_bind
  intro pointers
  refine .ite (fun _ => leave_leads outside saved) fun _ => ?_
  refine .bind (mttEnsureInit_leads sound (.counted ctx) free) fun _ => ?_
  have missing : Leads ops P (counted ctx) (counted ctx)
      (missingOrDisabled ops) :=
    .ite (fun _ => .tool free) fun _ => .pure
  refine missing.bind fun disabled => ?_
  apply Leads.raw_bind
  intro resolved
  refine .ite (fun _ => ?_) fun _ => ?_
  · refine .ite (fun _ => answer_leave outside saved) fun _ => ?_
    refine .bind .answer fun moved => ?_
    split
    · exact leave_leads outside saved
    · refine .bind .answer fun freed => ?_
      exact leave_leads outside saved
  · refine .ite (fun _ => ?_) fun _ => ?_
    · exact reallocTracked_leads outside saved sound free
    · exact reallocFallback_leads outside saved sound free

end Bodies

/-! ## Every call -/

theorem Allowed.enter (allowed : Allowed P before) :
    Allowed P (Slots.mttHookEnter before) := by
  rcases allowed with inside | free
  · left
    unfold depth
    rw [enter_enter]
    exact inside
  · exact .inr free

theorem Allowed.free (allowed : Allowed P before)
    (zero : ¬ 0 < depth before) : ∀ state, P state :=
  allowed.resolve_left zero

/-- What a hook does without counting itself. -/
def direct (nested : Nested S) (served : RawPointers → Served) :
    HookM S Served := do
  mttResolveRawAllocators nested
  answer served

/-- The start of the hooks: inside another hook straight to the raw
allocators. -/
def entered (nested : Nested S) (served : RawPointers → Served)
    (rest : HookM S Served) : HookM S Served := do
  let depth ← hookEnter
  if 0 < depth then direct nested served else rest

theorem direct_leads {served : RawPointers → Served}
    (sound : nested.Sound ops) (fit : Fit before)
    (allowed : Allowed P before) :
    Leads ops P before before (direct nested served) :=
  .bind (mttResolveRawAllocators_leads sound fit allowed) fun _ => .answer

theorem inc_leads {ctx : MttPerThread} {body : HookM S Served}
    (outside : Outside ctx)
    (bodies : Leads ops P { ctx with hookDepth := 1 } ctx body) :
    Leads ops P ctx ctx (do hookIncDepth; body) := by
  have inc : Leads ops P ctx (Slots.mttHookIncDepth ctx)
      (hookIncDepth (S := S)) :=
    .setSlot_normal outside.enter
  rw [outside.inc] at inc
  exact inc.bind fun _ => bodies

section Calls

variable (sound : nested.Sound ops) (fit : Fit before)
  (allowed : Allowed P before)
include sound fit allowed

theorem entered_leads {served : RawPointers → Served} {rest : HookM S Served}
    (rests : ∀ ctx, Outside ctx → (∀ state, P state) →
      Leads ops P ctx ctx rest) :
    Leads ops P before before (entered nested served rest) := by
  apply Leads.entered
  apply Leads.hookEnter_bind
  refine .ite (fun inside => ?_) fun zero => ?_
  · exact direct_leads sound fit.enter allowed.enter
  · exact rests _ (fit.outside zero) (allowed.free zero)

theorem malloc_leads {lrInBlacklist : Bool} {size : Word} :
    Leads ops P before before
      (malloc ops nested input lrInBlacklist size) :=
  entered_leads sound fit allowed
    fun _ outside free =>
      inc_leads outside (mallocInside_leads outside sound free)

theorem free_leads {lrInBlacklist : Bool} {ptr : Word} :
    Leads ops P before before
      (free ops nested lrInBlacklist ptr) := by
  refine .ite (fun _ => .pure) fun _ => ?_
  have looks : Leads ops P before before
      (tool fun state : S => (ops.poolContains ptr state, state)) :=
    fun _ holds => ⟨holds.near, holds.good, holds.state⟩
  refine looks.bind fun pooled => ?_
  refine .ite (fun _ => .pure) fun _ => ?_
  exact entered_leads sound fit allowed
    fun _ outside free =>
      inc_leads outside (freeInside_leads outside sound free)

theorem calloc_leads {count size : Word} :
    Leads ops P before before
      (calloc ops nested input count size) := by
  refine entered_leads sound fit allowed fun ctx outside free => ?_
  apply Leads.slot_bind
  intro found flags
  refine .ite (fun _ => ?_) fun _ => ?_
  · exact direct_leads sound outside.fit (.inr free)
  split
  · exact .pure
  · refine .ite (fun _ => ?_) fun _ => ?_
    · exact direct_leads sound outside.fit (.inr free)
    · exact malloc_leads sound outside.fit (.inr free)

theorem realloc_leads {lrInBlacklist : Bool} {ptr size : Word} :
    Leads ops P before before
      (realloc ops nested input lrInBlacklist ptr size) := by
  refine .ite (fun _ => malloc_leads sound fit allowed) fun _ => ?_
  refine .ite (fun _ => free_leads sound fit allowed) fun _ => ?_
  exact entered_leads sound fit allowed
    fun _ outside free =>
      inc_leads outside (reallocInside_leads outside sound free)

theorem reallocarray_leads {ptr nmemb size : Word} :
    Leads ops P before before
      (reallocarray ops nested input ptr nmemb size) := by
  unfold reallocarray
  split
  · exact .pure
  · refine .ite (fun _ => ?_) fun _ => realloc_leads sound fit allowed
    refine .bind (mttResolveRawAllocators_leads sound fit allowed)
      fun _ => ?_
    apply Leads.raw_bind
    intro pointers
    refine .ite (fun _ => .answer) fun _ => ?_
    exact realloc_leads sound fit allowed

theorem hookCall_leads (call : Call) :
    Leads ops P before before
      (hookCall ops nested input call) := by
  cases call with
  | malloc size => exact malloc_leads sound fit allowed
  | calloc count size => exact calloc_leads sound fit allowed
  | realloc ptr size => exact realloc_leads sound fit allowed
  | reallocarray ptr nmemb size => exact reallocarray_leads sound fit allowed
  | free ptr => exact free_leads sound fit allowed

end Calls

/-! ## Inside another hook -/

section Inside

variable {lrInBlacklist : Bool} {world : World S}

theorem entered_serves {served : RawPointers → Served} {rest : HookM S Served}
    (inside : 0 < depth world.slot) :
    (entered nested served rest world).1 =
      served (entered nested served rest world).2.raw := by
  have straight : entered nested served rest world =
      direct nested served
        { world with slot := Slots.mttHookEnter world.slot } :=
    congrFun (if_pos inside) _
  rw [straight]
  rfl

/-- A call that goes to the raw allocators alone. -/
def Serves (ops : StateOps S E) (input : CallInput) (call : Call)
    (program : HookM S Served) (world : World S) : Prop :=
  ServedRaw (fun ptr => ops.poolContains ptr world.state) input
    (program world).2.raw call (program world).1

namespace Serves

variable {call : Call} {program other : HookM S Served}

theorem ite {condition : Prop} [Decidable condition]
    (holds : condition → Serves ops input call program world)
    (fails : ¬ condition → Serves ops input call other world) :
    Serves ops input call (if condition then program else other) world := by
  split
  · exact holds ‹_›
  · exact fails ‹_›

theorem entered {served : RawPointers → Served} {rest : HookM S Served}
    (inside : 0 < depth world.slot)
    (serves : ∀ pointers,
      ServedRaw (fun ptr => ops.poolContains ptr world.state) input pointers
        call (served pointers)) :
    Serves ops input call (HookExits.entered nested served rest) world := by
  unfold Serves
  rw [entered_serves inside]
  exact serves _

end Serves

variable (inside : 0 < depth world.slot)
include inside

theorem malloc_serves {size : Word} :
    Serves ops input (.malloc size)
      (malloc ops nested input lrInBlacklist size) world :=
  .entered inside fun _ => .malloc size

theorem free_serves {ptr : Word} :
    Serves ops input (.free ptr)
      (free ops nested lrInBlacklist ptr) world := by
  refine .ite (fun null => .ignored ptr (.inl null)) fun _ => ?_
  have found : Serves ops input (.free ptr)
      (if ops.poolContains ptr world.state then
        return { result := none, raw := [] }
      else
        entered nested (rawFree ptr) do
          hookIncDepth
          freeInside ops nested lrInBlacklist ptr) world := by
    refine .ite (fun pooled => .ignored ptr (.inr pooled)) fun _ => ?_
    exact .entered inside fun _ => .free ptr
  exact found

theorem calloc_serves {count size : Word} :
    Serves ops input (.calloc count size)
      (calloc ops nested input count size) world :=
  .entered inside fun _ => .calloc count size

theorem realloc_serves {ptr size : Word} :
    Serves ops input (.realloc ptr size)
      (realloc ops nested input lrInBlacklist ptr size) world := by
  refine .ite (fun null => ?_) fun block => ?_
  · subst null
    exact .null size _ (malloc_serves inside)
  · refine .ite (fun zero => ?_) fun positive => ?_
    · subst zero
      exact .zero ptr _ (free_serves inside)
    · exact .entered inside fun _ => .realloc ptr size block positive

end Inside

theorem Near.depth {before ctx : MttPerThread} (near : Near before ctx) :
    depth ctx = HookExits.depth before :=
  congrArg MttPerThread.hookDepth near.enter

/-- The world in which a call starts. -/
structure Starts (ops : StateOps S E) (world : World S) : Prop where
  fit : Fit world.slot
  good : ∀ returned ∈ world.returned, returned.Good ops

section Nested

variable {world : World S} (sound : nested.Sound ops)
  (starts : Starts ops world) (inside : 0 < depth world.slot)
include sound starts inside

theorem reallocarray_serves {ptr nmemb size : Word} :
    Serves ops input (.reallocarray ptr nmemb size)
      (reallocarray ops nested input ptr nmemb size) world := by
  unfold reallocarray
  split
  · exact .overflow ptr nmemb size ‹_›
  · rename_i total fits
    have resizes : ∀ later : World S, 0 < depth later.slot →
        later.state = world.state →
        ServedRaw (fun ptr => ops.poolContains ptr world.state) input
          (realloc ops nested input input.innerLrInBlacklist ptr
            (BitVec.ofNat 64 total) later).2.raw
          (.reallocarray ptr nmemb size)
          (realloc ops nested input input.innerLrInBlacklist ptr
            (BitVec.ofNat 64 total) later).1 := by
      intro later deeper same
      rw [← same]
      exact .array ptr nmemb size total _ fits (realloc_serves deeper)
    refine .ite (fun blacklisted => ?_) fun _ => resizes world inside rfl
    have kept := mttResolveRawAllocators_leads sound starts.fit
      (P := (· = world.state)) (.inl inside) world
      ⟨.refl, starts.good, rfl⟩
    have deeper : 0 < depth (mttResolveRawAllocators nested world).2.slot := by
      rw [kept.near.depth]
      exact inside
    have chosen : Serves ops input (.reallocarray ptr nmemb size)
        (if (mttResolveRawAllocators nested world).2.raw.realloc then
          answer (rawRealloc input ptr (BitVec.ofNat 64 total))
        else
          realloc ops nested input input.innerLrInBlacklist ptr
            (BitVec.ofNat 64 total))
        (mttResolveRawAllocators nested world).2 := by
      refine .ite (fun _ => .listed ptr nmemb size total fits blacklisted)
        fun _ => ?_
      unfold Serves
      rw [kept.state]
      exact resizes _ deeper kept.state
    unfold Serves at chosen
    rw [kept.state] at chosen
    exact chosen

theorem hookCall_serves (call : Call) :
    Serves ops input call (hookCall ops nested input call) world := by
  cases call with
  | malloc size => exact malloc_serves inside
  | calloc count size => exact calloc_serves inside
  | realloc ptr size => exact realloc_serves inside
  | reallocarray ptr nmemb size =>
      exact reallocarray_serves sound starts inside
  | free ptr => exact free_serves inside

end Nested

end Functions

/-! ## Calls within calls -/

variable (ops : StateOps S E)

/-- The note of a call, for every promise about the state. -/
theorem noted_leads {call : Call} {input : CallInput}
    {program : HookM S Served}
    (keeps : ∀ P before, Fit before → Allowed P before →
      Leads ops P before before program)
    (serves : ∀ world, Starts ops world → 0 < depth world.slot →
      Serves ops input call program world)
    {P : S → Prop} {before : MttPerThread} (fit : Fit before)
    (allowed : Allowed P before) :
    Leads ops P before before (noted call input program) := by
  intro world holds
  have starts : Starts ops world := ⟨holds.near.fit fit, holds.good⟩
  -- The state is kept as it was found where the call is nested.
  let found : S → Prop := fun state =>
    P state ∧ (0 < depth world.slot → state = world.state)
  have foundAllowed : Allowed found world.slot := by
    by_cases inside : 0 < depth world.slot
    · exact .inl inside
    · have outside : ¬ 0 < depth before := by rwa [← holds.near.depth]
      exact .inr fun state =>
        ⟨allowed.free outside state, fun deeper => absurd deeper inside⟩
  have kept := keeps found world.slot starts.fit foundAllowed world
    ⟨.refl, holds.good, holds.state, fun _ => rfl⟩
  have good : Returned.Good ops
      { call
        input
        slotBefore := world.slot
        stateBefore := world.state
        served := (program world).1
        slotAfter := (program world).2.slot
        rawAfter := (program world).2.raw
        stateAfter := (program world).2.state } :=
    { near := kept.near
      sameDepth := kept.near.depth
      sameInHook := kept.near.flags.inHook
      nested := fun inside =>
        ⟨kept.state.2 inside, serves world starts inside⟩ }
  refine ⟨holds.near.trans kept.near, ?_, kept.state.1⟩
  intro returned member
  rcases List.mem_append.mp member with earlier | this
  · exact kept.good returned earlier
  · rw [List.mem_singleton.mp this]
    exact good

mutual

theorem HookCall.run_leads (hookCall : HookCall) :
    ∀ P before, Fit before → Allowed P before →
      Leads ops P before before (hookCall.run ops) := by
  cases hookCall with
  | mk call input resolving locking starting capturing =>
      intro P before fit allowed
      have sound : Nested.Sound ops
          { resolving := HookCall.runAll ops resolving
            locking := HookCall.runAll ops locking
            starting := HookCall.runAll ops starting
            capturing := HookCall.runAll ops capturing } :=
        { resolving := HookCall.runAll_sound resolving
          locking := HookCall.runAll_sound locking
          starting := HookCall.runAll_sound starting
          capturing := HookCall.runAll_sound capturing }
      rw [HookCall.run]
      refine noted_leads ops ?_ ?_ fit allowed
      · intro promise ctx ctxFit ctxAllowed
        exact hookCall_leads sound ctxFit ctxAllowed call
      · intro world starts inside
        exact hookCall_serves sound starts inside call

theorem HookCall.runAll_sound (calls : List HookCall) :
    Sound ops (HookCall.runAll ops calls) := by
  intro P before fit allowed
  cases calls with
  | nil =>
      rw [HookCall.runAll]
      exact .pure
  | cons call rest =>
      rw [HookCall.runAll]
      refine .bind (HookCall.run_leads call P before fit allowed) fun _ => ?_
      exact HookCall.runAll_sound rest P before fit allowed

end

/-- The note that a call leaves of itself. -/
def HookCall.note (hookCall : HookCall) (before : World S) : Returned S :=
  match hookCall with
  | .mk call input _ _ _ _ =>
      { call
        input
        slotBefore := before.slot
        stateBefore := before.state
        served := (hookCall.run ops before).1
        slotAfter := (hookCall.run ops before).2.slot
        rawAfter := (hookCall.run ops before).2.raw
        stateAfter := (hookCall.run ops before).2.state }

theorem HookCall.run_returned (hookCall : HookCall) (before : World S) :
    ∃ inner, (hookCall.run ops before).2.returned =
      inner ++ [hookCall.note ops before] := by
  cases hookCall with
  | mk call input resolving locking starting capturing =>
      rw [HookCall.note, HookCall.run]
      exact ⟨_, rfl⟩

/-- Whatever a thread has in its slot and the tool in its state, a call and
the calls nested in it, at any level, leave `hook_depth` and `in_hook` as they
found them.  Those inside another hook leave the state of the tool as well,
and go to the raw allocators alone. -/
theorem HookCall.run_restores (hookCall : HookCall) (before : World S)
    (fit : Fit before.slot) (fresh : before.returned = []) :
    (∃ inner, (hookCall.run ops before).2.returned =
      inner ++ [hookCall.note ops before]) ∧
      (∀ returned ∈ (hookCall.run ops before).2.returned,
        returned.Good ops) ∧
      Fit (hookCall.run ops before).2.slot := by
  have start : Holds ops (fun _ => True) before.slot before :=
    { near := .refl
      good := by
        rw [fresh]
        intro returned member
        cases member
      state := trivial }
  have kept := hookCall.run_leads ops (fun _ => True) before.slot fit
    (.inr fun _ => trivial) before start
  exact ⟨hookCall.run_returned ops before, kept.good, kept.near.fit fit⟩

/-! ## With the operations of the tool -/

section Tracking

open Nesting (ToolState Running)
open Accounting
open ForkChild (TrackedEntry)

/-- A check of the tracker that may count. -/
def checkTracker (check : Tracker → Bool × Tracker) (tool : ToolState) :
    Bool × ToolState :=
  match tool.tracker with
  | none => (false, tool)
  | some tracker =>
      ((check tracker).1, tool.mapTracker fun _ => (check tracker).2)

/-- The operations of the tool when nothing else runs. -/
def trackerOps (input : Nesting.CallInput) :
    StateOps ToolState TrackedEntry where
  stateGet := true
  poolContains := fun ptr tool => Nesting.mttPoolContains tool ptr
  initialized := fun tool => (tool.running.isSome, tool)
  obtainTables := fun tool =>
    if input.init.obtainsTable then (true, tool)
    else (false, tool.resolve.setRunning input.init.running)
  publish := fun tool => tool.resolve.setRunning input.init.running
  startupPhase := fun tool => (input.startup, tool)
  disabled := fun tool => (tool.running.any Running.disabled, tool)
  shouldTrack := fun size => checkTracker fun tracker =>
    ((mttShouldTrack tracker.sampler size.toNat).1,
      { tracker with
        sampler := (mttShouldTrack tracker.sampler size.toNat).2 })
  overCapacity := checkTracker Accounting.mttIsOverCapacity
  takeEntry := fun ptr size tool =>
    match tool.tracker.bind fun tracker =>
      Accounting.mttEntryNew tracker input.rawMalloc
        { ptr, size, timestamp := input.now, stack := input.stack } with
    | none => (none, tool)
    | some (entry, taken) => (some entry, tool.mapTracker fun _ => taken)
  entriesFull := checkTracker Accounting.mttIsOverCapacity
  discardEntry := fun entry tool =>
    tool.mapTracker fun tracker => Accounting.mttEntryDiscard tracker entry
  recordEntry := fun entry tool =>
    tool.mapTracker fun tracker => Accounting.recordEntry tracker false entry
  findEntry := fun ptr tool =>
    ((tool.tracker.bind fun tracker =>
      Accounting.mttEntryFind tracker ptr).isSome, tool)
  forgetEntry := fun ptr tool => tool.mapTracker fun tracker =>
    match Accounting.mttEntryFind tracker ptr with
    | none => tracker
    | some entry =>
        Accounting.mttEntryRemove (Nesting.countMoved tracker entry) ptr
  replaceEntry := fun ptr tool => tool.mapTracker fun tracker =>
    match Accounting.mttEntryFind tracker ptr with
    | none => tracker
    | some entry => Accounting.mttEntryRemove (countFree tracker entry) ptr
  freeEntry := fun ptr tool => tool.mapTracker fun tracker =>
    freeTracked tracker ptr input.now

def rawAt (ptr : Word) : CallInput :=
  { reply := some ptr
    lrInBlacklist := false
    innerLrInBlacklist := false }

/-- `malloc` while the unwinder allocates. -/
def capturingMalloc : HookCall :=
  .mk (.malloc 16) (rawAt 4096) [] [] []
    [.mk (.malloc 32) (rawAt 8192) [] [] [] []]

/-- A new thread of a running tool. -/
def newThread : World ToolState :=
  { slot := MttPerThread.taken
    raw :=
      { malloc := true, free := true, realloc := true,
        resolved := true, ready := true }
    state := Nesting.runningTool
    returned := [] }

theorem HookCall.run_restores_newThread :
    Fit newThread.slot ∧ newThread.returned = [] ∧
      (∀ returned ∈ (capturingMalloc.run
          (trackerOps (Nesting.servedAt 4096)) newThread).2.returned,
        returned.Good (trackerOps (Nesting.servedAt 4096))) ∧
      (capturingMalloc.run (trackerOps (Nesting.servedAt 4096))
          newThread).2.returned.map
        (fun returned => (returned.slotBefore.hookDepth,
          returned.slotAfter.hookDepth, returned.served.result)) =
        [(1, 1, some 8192), (-1, 0, some 4096)] :=
  ⟨Fit.taken, rfl,
    (HookCall.run_restores (trackerOps (Nesting.servedAt 4096))
      capturingMalloc newThread Fit.taken rfl).2.1, by decide⟩

end Tracking

end MemoryTraceTool.HookExits
