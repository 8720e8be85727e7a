import MemoryTraceTool.SequentialHooks

/-!
# Calls that run alone

The interleaved hooks let any thread move between two steps of a call.  When
one thread moves at a time, from the first step of its call to the last, they
do what the complete calls say.
-/

namespace MemoryTraceTool.Sequential

open Transition

variable {Thread : Type} [DecidableEq Thread]

/-! ## States between calls and within one -/

def AllocCall.hookCall : AllocCall → HookCall
  | .malloc size => .malloc size
  | .calloc count size => .calloc count size
  | .realloc ptr size => .realloc ptr size
  | .free ptr => .free ptr

omit [DecidableEq Thread] in
def actor : HookLabel Thread → Thread
  | .call thread _ | .raw thread _ | .entryNew thread _ | .step thread =>
      thread

/-- Steps of one thread. -/
def Alone (thread : Thread) : HookState Thread → HookState Thread → Prop :=
  (hookSystem Thread).StepsBy fun _ label => actor label = thread

/-- The complete calls and the interleaved ones hold the same. -/
structure SameHooks (tracker : TrackerState) (state : HookState Thread) :
    Prop where
  table : state.table = tracker.table
  allocSeq : state.allocSeq = tracker.allocSeq
  sampler : state.sampler = tracker.sampler
  blocks : ∀ ptr, (state.grants ptr).map Grant.size = tracker.blocks ptr

/-- No call is in flight. -/
structure AtRest (state : HookState Thread) : Prop where
  idle : state.threads = fun _ => .idle
  unowned : ∀ ptr grant, state.grants ptr = some grant → grant.owner = none

/-- One call is in flight, and it holds one block at most. -/
structure Busy (state : HookState Thread) (thread : Thread) (pc : HookPc)
    (ptr : Word) : Prop where
  threads : state.threads = Function.update (fun _ => .idle) thread pc
  unowned : ∀ other grant, other ≠ ptr → state.grants other = some grant →
    grant.owner = none

variable {tracker : TrackerState} {state target : HookState Thread}
  {thread : Thread} {pc later : HookPc} {ptr : Word}

theorem Alone.single {label : HookLabel Thread} (acts : actor label = thread)
    (taken : hookNext state label = some target) :
    Alone thread state target :=
  .tail (.refl state) acts taken

theorem Alone.head {middle : HookState Thread} {label : HookLabel Thread}
    (acts : actor label = thread) (taken : hookNext state label = some middle)
    (rest : Alone thread middle target) : Alone thread state target :=
  (Alone.single acts taken).trans rest

theorem Busy.stands (busy : Busy state thread pc ptr) :
    state.threads thread = pc := by
  rw [busy.threads, Function.update_self]

theorem Busy.step (busy : Busy state thread pc ptr)
    (threads : target.threads = Function.update state.threads thread later)
    (grants : ∀ other ≠ ptr, target.grants other = state.grants other) :
    Busy target thread later ptr := by
  constructor
  · rw [threads, busy.threads, Function.update_idem]
  · intro other grant different granted
    rw [grants other different] at granted
    exact busy.unowned other grant different granted

theorem AtRest.enter (rest : AtRest state)
    (threads : target.threads = Function.update state.threads thread pc)
    (grants : ∀ other ≠ ptr, target.grants other = state.grants other) :
    Busy target thread pc ptr := by
  constructor
  · rw [threads, rest.idle]
  · intro other grant different granted
    rw [grants other different] at granted
    exact rest.unowned other grant granted

/-- The call has returned, and no thread has the block that it held. -/
theorem Busy.atRest (left : Busy state thread .idle ptr)
    (given : ∀ grant, state.grants ptr = some grant → grant.owner = none) :
    AtRest state := by
  constructor
  · rw [left.threads]
    exact Function.update_eq_self thread fun _ => HookPc.idle
  · intro other grant granted
    by_cases same : other = ptr
    · exact given grant (same ▸ granted)
    · exact left.unowned other grant same granted

theorem Busy.leave (busy : Busy state thread pc ptr)
    (threads : target.threads = Function.update state.threads thread .idle)
    (grants : ∀ other ≠ ptr, target.grants other = state.grants other)
    (given : ∀ grant, target.grants ptr = some grant →
      grant.owner = none) : AtRest target :=
  (busy.step threads grants).atRest given

omit [DecidableEq Thread] in
theorem SameHooks.usable (same : SameHooks tracker state)
    (rest : AtRest state) (live : (tracker.blocks ptr).isSome) :
    state.usable ptr = true := by
  rw [← same.blocks ptr, Option.isSome_map] at live
  obtain ⟨grant, granted⟩ := Option.isSome_iff_exists.mp live
  simp [HookState.usable, granted, rest.unowned ptr grant granted]

omit [DecidableEq Thread] in
theorem SameHooks.available (same : SameHooks tracker state)
    (nonNull : ptr ≠ 0) (free : tracker.blocks ptr = none) :
    state.available ptr = true := by
  rw [← same.blocks ptr, Option.map_eq_none_iff] at free
  rw [HookState.available, free, Option.isNone_none, Bool.and_true,
    bne_iff_ne]
  exact nonNull

omit [DecidableEq Thread] in
theorem SameHooks.handOver (same : SameHooks tracker state)
    (owner : Option Thread) :
    SameHooks tracker (state.handOver ptr owner) := by
  refine ⟨same.table, same.allocSeq, same.sampler, ?_⟩
  intro other
  rw [← same.blocks other]
  by_cases here : other = ptr
  · simp [HookState.handOver, HookState.setGrant, here, Function.comp_def]
  · simp [HookState.handOver, HookState.setGrant, here]

omit [DecidableEq Thread] in
theorem SameHooks.setGrant (same : SameHooks tracker state)
    (grant : Option (Grant Thread)) :
    SameHooks (tracker.setBlock ptr (grant.map Grant.size))
      (state.setGrant ptr grant) := by
  refine ⟨same.table, same.allocSeq, same.sampler, ?_⟩
  intro other
  by_cases here : other = ptr
  · simp [HookState.setGrant, TrackerState.setBlock, here]
  · simp [HookState.setGrant, TrackerState.setBlock, here, same.blocks other]

theorem SameHooks.setThread (same : SameHooks tracker state)
    (thread : Thread) (pc : HookPc) :
    SameHooks tracker (state.setThread thread pc) :=
  ⟨same.table, same.allocSeq, same.sampler, same.blocks⟩

theorem SameHooks.finish (same : SameHooks tracker state) :
    SameHooks tracker (state.finish thread ptr) :=
  (same.handOver none).setThread thread .idle

theorem Busy.finish (busy : Busy state thread pc ptr) :
    AtRest (state.finish thread ptr) := by
  apply busy.leave rfl
  · intro other different
    exact Function.update_of_ne different ..
  · intro grant granted
    rw [HookState.finish, HookState.handOver] at granted
    simp only [HookState.setThread, HookState.setGrant, Function.update_self,
      Option.map_eq_some_iff] at granted
    obtain ⟨_, -, rfl⟩ := granted
    rfl

/-! ## Recording a block -/

/-- The section of `mtt_entry_add`. -/
theorem insert_alone (same : SameHooks tracker state) {size : Nat}
    (busy : Busy state thread (.insert ptr size) ptr)
    (room : mttIsOverCapacity state.table = false) :
    SameHooks
        { tracker with
          allocSeq := tracker.allocSeq + 1
          table := mttEntryAdd tracker.table
            ⟨ptr, size, tracker.allocSeq + 1⟩ }
        (hookInsert state thread ptr size) ∧
      AtRest (hookInsert state thread ptr size) := by
  rw [hookInsert, if_neg (by rw [room]; exact Bool.false_ne_true)]
  constructor
  · constructor
    · change mttEntryAdd state.table _ = _
      rw [same.table, same.allocSeq]
    · exact congrArg (· + 1) same.allocSeq
    · exact same.sampler
    · intro other
      rw [← same.blocks other]
      by_cases here : other = ptr
      · simp [HookState.setThread, HookState.setGrant, here,
          Function.comp_def]
      · simp [HookState.setThread, HookState.setGrant, here]
  · apply busy.leave rfl
    · intro other different
      exact Function.update_of_ne different ..
    · intro grant granted
      simp only [HookState.setThread, HookState.setGrant,
        Function.update_self, Option.map_eq_some_iff] at granted
      obtain ⟨_, -, rfl⟩ := granted
      rfl

theorem record_alone (same : SameHooks tracker state) {size : Nat}
    (busy : Busy state thread (.capacity ptr size) ptr) (env : CallEnv) :
    ∃ after, Alone thread state after ∧
      SameHooks (recordBlock tracker env ptr size) after ∧ AtRest after := by
  by_cases full : mttIsOverCapacity state.table
  · have unrecorded : recordBlock tracker env ptr size = tracker := by
      simp [recordBlock, ← same.table, full]
    have ends : hookNext state (.step thread) =
        some (state.finish thread ptr) := by
      simp [hookNext, hookStep, busy.stands, full]
    rw [unrecorded]
    exact ⟨_, .single rfl ends, same.finish, busy.finish⟩
  · have asks : hookNext state (.step thread) =
        some (state.setThread thread (.entryNew ptr size)) := by
      simp [hookNext, hookStep, busy.stands, full]
    let asking := state.setThread thread (.entryNew ptr size)
    have asked : Busy asking thread (.entryNew ptr size) ptr :=
      busy.step rfl fun _ _ => rfl
    cases found : env.entryNew with
    | false =>
        have unrecorded : recordBlock tracker env ptr size = tracker := by
          simp [recordBlock, found]
        have ends : hookNext asking (.entryNew thread false) =
            some (asking.finish thread ptr) := by
          simp [hookNext, asked.stands]
        rw [unrecorded]
        exact ⟨_, .head rfl asks (.single rfl ends),
          (same.setThread thread _).finish, asked.finish⟩
    | true =>
        let inserting := asking.setThread thread (.insert ptr size)
        have answers : hookNext asking (.entryNew thread true) =
            some inserting := by
          simp [hookNext, asked.stands, inserting]
        have answered : Busy inserting thread (.insert ptr size) ptr :=
          asked.step rfl fun _ _ => rfl
        have inserts : hookNext inserting (.step thread) =
            some (hookInsert inserting thread ptr size) := by
          simp [hookNext, hookStep, answered.stands]
        have room : mttIsOverCapacity tracker.table = false := by
          rw [← same.table]
          exact Bool.eq_false_iff.mpr full
        have recorded : recordBlock tracker env ptr size =
            { tracker with
              allocSeq := tracker.allocSeq + 1
              table := mttEntryAdd tracker.table
                ⟨ptr, size, tracker.allocSeq + 1⟩ } := by
          simp [recordBlock, room, found]
        have sameInserting : SameHooks tracker inserting :=
          (same.setThread thread _).setThread thread _
        rw [recorded]
        exact ⟨_, .head rfl asks (.head rfl answers (.single rfl inserts)),
          insert_alone sameInserting answered
            (Bool.eq_false_iff.mpr full)⟩

omit [DecidableEq Thread] in
theorem SameHooks.sampled (same : SameHooks tracker state)
    (sampler : Sampler) :
    SameHooks { tracker with sampler := sampler }
      { state with sampler := sampler } :=
  ⟨same.table, same.allocSeq, rfl, same.blocks⟩

/-- `mtt_should_track` and what follows from its answer. -/
theorem sample_alone (same : SameHooks tracker state) {size : Nat}
    (busy : Busy state thread (.sample ptr size) ptr) (env : CallEnv) :
    ∃ after, Alone thread state after ∧
      SameHooks
        (let (track, sampler) := mttShouldTrack tracker.sampler size
        let sampled : TrackerState := { tracker with sampler := sampler }
        if track then recordBlock sampled env ptr size else sampled) after ∧
      AtRest after := by
  rw [mttShouldTrack_eq_enter]
  rcases decision : mttShouldTrackEnter tracker.sampler size with
    ⟨verdict, entered⟩
  let sampled : HookState Thread := { state with sampler := entered }
  have sampledSame := same.sampled entered
  have sampledBusy : Busy sampled thread (.sample ptr size) ptr :=
    ⟨busy.threads, busy.unowned⟩
  cases verdict with
  | track =>
      have samples : hookNext state (.step thread) =
          some (sampled.setThread thread (.capacity ptr size)) := by
        simp [hookNext, hookStep, busy.stands, same.sampler, decision,
          sampled]
      obtain ⟨after, steps, agree, rest⟩ := record_alone
        (sampledSame.setThread thread (.capacity ptr size))
        (sampledBusy.step rfl fun _ _ => rfl) env
      exact ⟨after, .head rfl samples steps, agree, rest⟩
  | trackAndSubtract =>
      let waiting := sampled.setThread thread (.subtract ptr size)
      have samples : hookNext state (.step thread) = some waiting := by
        simp [hookNext, hookStep, busy.stands, same.sampler, decision,
          sampled, waiting]
      have waits : Busy waiting thread (.subtract ptr size) ptr :=
        sampledBusy.step rfl fun _ _ => rfl
      let subtracted : HookState Thread :=
        { waiting with sampler := entered.subtractStep }
      have subtracts : hookNext waiting (.step thread) =
          some (subtracted.setThread thread (.capacity ptr size)) := by
        rw [hookNext, hookStep, waits.stands]
        rfl
      have sameSubtracted : SameHooks
          { tracker with sampler := entered.subtractStep } subtracted :=
        (sampledSame.setThread thread _).sampled entered.subtractStep
      have stillWaits : Busy subtracted thread (.subtract ptr size) ptr :=
        ⟨waits.threads, waits.unowned⟩
      obtain ⟨after, steps, agree, rest⟩ := record_alone
        (sameSubtracted.setThread thread (.capacity ptr size))
        (stillWaits.step rfl fun _ _ => rfl) env
      exact ⟨after, .head rfl samples (.head rfl subtracts steps), agree,
        rest⟩
  | skip =>
      have samples : hookNext state (.step thread) =
          some (sampled.finish thread ptr) := by
        simp [hookNext, hookStep, busy.stands, same.sampler, decision,
          sampled]
      exact ⟨_, .single rfl samples, sampledSame.finish, sampledBusy.finish⟩

/-! ## Complete calls -/

section Complete

variable {config : ToolConfig} {env : CallEnv}

/-- A block of no bytes is handed out unrecorded. -/
theorem empty_alone (available : config.rawMalloc = true)
    (same : SameHooks tracker state)
    (busy : Busy state thread (.mallocRaw 0) ptr)
    (answer : env.reply = some ptr) (isFree : state.available ptr = true) :
    ∃ after, Alone thread state after ∧
      SameHooks (rawMalloc config tracker env 0).1 after ∧ AtRest after := by
  let grant : Grant Thread := ⟨0, none, none⟩
  have granted : hookNext state (.raw thread (some ptr)) =
      some ((state.setGrant ptr (some grant)).setThread thread .idle) := by
    simp [hookNext, hookRaw, busy.stands, isFree, grant]
  have obtained : (rawMalloc config tracker env 0).1 =
      tracker.setBlock ptr (some 0) := by
    simp [rawMalloc, answer, available]
  rw [obtained]
  refine ⟨_, .single rfl granted,
    (same.setGrant (some grant)).setThread thread _, busy.leave rfl ?_ ?_⟩
  · intro other different
    exact Function.update_of_ne different ..
  · intro given isGiven
    simp only [HookState.setThread, HookState.setGrant, Function.update_self,
      Option.some.injEq] at isGiven
    rw [← isGiven]

/-- A request for a new block, once the thread is inside the hook. -/
theorem malloc_alone (thread : Thread) (available : config.rawMalloc = true)
    (same : SameHooks tracker state) (rest : AtRest state) (size : Nat)
    (fresh : FreshReply tracker env) :
    ∃ after, Alone thread (state.setThread thread (.mallocRaw size)) after ∧
      SameHooks
        (if size = 0 then rawMalloc config tracker env 0
          else trackedMalloc config tracker env size).1 after ∧
      AtRest after := by
  let asking := state.setThread thread (.mallocRaw size)
  have asked : ∀ ptr, Busy asking thread (.mallocRaw size) ptr :=
    fun _ => rest.enter rfl fun _ _ => rfl
  have sameAsking : SameHooks tracker asking := same.setThread thread _
  cases answer : env.reply with
  | none =>
      have fails : hookNext asking (.raw thread none) =
          some (asking.setThread thread .idle) := by
        simp [hookNext, hookRaw, (asked 0).stands]
      have untouched :
          (if size = 0 then rawMalloc config tracker env 0
            else trackedMalloc config tracker env size).1 = tracker := by
        simp [trackedMalloc, rawMalloc, answer]
      rw [untouched]
      exact ⟨_, .single rfl fails, sameAsking.setThread thread _,
        (asked 0).leave rfl (fun _ _ => rfl) (rest.unowned 0)⟩
  | some ptr =>
      obtain ⟨nonNull, free⟩ := fresh ptr answer
      have isFree : asking.available ptr = true :=
        sameAsking.available nonNull free
      by_cases empty : size = 0
      · subst empty
        rw [if_pos rfl]
        exact empty_alone available sameAsking (asked ptr) answer isFree
      · let grant : Grant Thread := ⟨size, none, some thread⟩
        let holding := (asking.setGrant ptr (some grant)).setThread thread
          (.sample ptr size)
        have granted : hookNext asking (.raw thread (some ptr)) =
            some holding := by
          simp [hookNext, hookRaw, (asked ptr).stands, isFree, empty, holding,
            grant]
        have holds : Busy holding thread (.sample ptr size) ptr := by
          apply (asked ptr).step rfl
          intro other different
          exact Function.update_of_ne different ..
        obtain ⟨after, steps, agree, atRest⟩ := sample_alone
          ((sameAsking.setGrant (some grant)).setThread thread
            (.sample ptr size)) holds env
        refine ⟨after, .head rfl granted steps, ?_, atRest⟩
        rw [if_neg empty, trackedMalloc]
        simp only [rawMalloc, answer, available, if_true, if_neg nonNull]
        exact agree

omit [DecidableEq Thread] in
theorem SameHooks.remove (same : SameHooks tracker state) (ptr : Word) :
    SameHooks { tracker with table := mttEntryRemove tracker.table ptr }
      { state with table := mttEntryRemove state.table ptr } :=
  ⟨congrArg (mttEntryRemove · ptr) same.table, same.allocSeq, same.sampler,
    same.blocks⟩

/-- A free, once the thread is inside the hook. -/
theorem release_alone (available : config.rawFree = true)
    (same : SameHooks tracker state)
    (busy : Busy state thread (.freeRemove ptr) ptr) :
    ∃ after, Alone thread state after ∧
      SameHooks
        (rawFree config
          { tracker with table := mttEntryRemove tracker.table ptr } ptr)
        after ∧
      AtRest after := by
  let removed : HookState Thread :=
    { state with table := mttEntryRemove state.table ptr }
  let leaving := removed.setThread thread (.freeRaw ptr)
  have removes : hookNext state (.step thread) = some leaving := by
    rw [hookNext, hookStep, busy.stands]
  have leaves : Busy leaving thread (.freeRaw ptr) ptr :=
    busy.step rfl fun _ _ => rfl
  have frees : hookNext leaving (.step thread) =
      some ((leaving.setGrant ptr none).setThread thread .idle) := by
    rw [hookNext, hookStep, leaves.stands]
  rw [rawFree, if_pos available]
  refine ⟨_, .head rfl removes (.single rfl frees),
    (((same.remove ptr).setThread thread _).setGrant none).setThread thread _,
    leaves.leave rfl ?_ ?_⟩
  · intro other different
    exact Function.update_of_ne different ..
  · intro grant granted
    simp [HookState.setThread, HookState.setGrant] at granted

/-- `raw_realloc` has moved the block, and no thread owns it. -/
theorem Busy.move (busy : Busy state thread pc ptr) (new : Word)
    (size : Nat) (owner : Option Thread) :
    Busy (((state.setGrant ptr none).setGrant new
      (some ⟨size, none, owner⟩)).setThread thread later) thread later
      new := by
  constructor
  · change Function.update state.threads thread later = _
    rw [busy.threads, Function.update_idem]
  · intro other grant different granted
    simp only [HookState.setThread, HookState.setGrant, ne_eq, different,
      not_false_eq_true, Function.update_of_ne] at granted
    by_cases here : other = ptr
    · simp [here] at granted
    · rw [Function.update_of_ne here] at granted
      exact busy.unowned other grant here granted

/-- The entry of the old address goes, and the new one is recorded. -/
theorem replace_alone (same : SameHooks tracker state) {new : Word}
    {size : Nat} (busy : Busy state thread (.reallocRemove ptr new size) new)
    (env : CallEnv) :
    ∃ after, Alone thread state after ∧
      SameHooks
        (recordBlock
          { tracker with table := mttEntryRemove tracker.table ptr } env new
          size) after ∧
      AtRest after := by
  let removed : HookState Thread :=
    { state with table := mttEntryRemove state.table ptr }
  have removes : hookNext state (.step thread) =
      some (removed.setThread thread (.capacity new size)) := by
    rw [hookNext, hookStep, busy.stands]
  obtain ⟨after, steps, agree, rest⟩ := record_alone
    ((same.remove ptr).setThread thread (.capacity new size))
    (busy.step rfl fun _ _ => rfl) env
  exact ⟨after, .head rfl removes steps, agree, rest⟩

/-- A realloc, once the thread is inside the hook. -/
theorem resize_alone (same : SameHooks tracker state) {size : Nat}
    (busy : Busy state thread (.reallocFind ptr size) ptr)
    (fresh : ResizeReply tracker env ptr) :
    ∃ after, Alone thread state after ∧
      SameHooks (trackedRealloc tracker env ptr size).1 after ∧
      AtRest after := by
  let found := (mttEntryFind tracker.table ptr).isSome
  let asking := state.setThread thread (.reallocRaw ptr size found)
  have searches : hookNext state (.step thread) = some asking := by
    rw [hookNext, hookStep, busy.stands]
    dsimp only
    rw [same.table]
  have asked : Busy asking thread (.reallocRaw ptr size found) ptr :=
    busy.step rfl fun _ _ => rfl
  have sameAsking : SameHooks tracker asking := same.setThread thread _
  cases answer : env.reply with
  | none =>
      have fails : hookNext asking (.raw thread none) =
          some (asking.finish thread ptr) := by
        simp only [hookNext, hookRaw, asked.stands]
      have untouched : (trackedRealloc tracker env ptr size).1 = tracker := by
        simp [trackedRealloc, rawRealloc, answer]
      rw [untouched]
      exact ⟨_, .head rfl searches (.single rfl fails), sameAsking.finish,
        asked.finish⟩
  | some new =>
      obtain ⟨nonNull, free⟩ := fresh new answer
      have allowed : new = ptr ∨ asking.available new = true :=
        (free.imp_left (sameAsking.available nonNull)).symm
      let moved := (tracker.setBlock ptr none).setBlock new (some size)
      have sameMoved (owner : Option Thread) : SameHooks moved
          ((asking.setGrant ptr none).setGrant new
            (some ⟨size, none, owner⟩)) :=
        (sameAsking.setGrant none).setGrant (some ⟨size, none, owner⟩)
      cases isFound : found with
      | false =>
          let after := ((asking.setGrant ptr none).setGrant new
            (some ⟨size, none, none⟩)).setThread thread .idle
          have moves : hookNext asking (.raw thread (some new)) =
              some after := by
            simp only [hookNext, hookRaw, asked.stands, isFound]
            exact if_pos allowed
          have left : Busy after thread .idle new := asked.move new size none
          have untracked : (trackedRealloc tracker env ptr size).1 =
              moved := by
            simp only [trackedRealloc, rawRealloc, answer, if_neg nonNull]
            exact congrArg Prod.fst (if_neg (Bool.eq_false_iff.mp isFound))
          rw [untracked]
          refine ⟨after, .head rfl searches (.single rfl moves),
            (sameMoved none).setThread thread _, left.atRest ?_⟩
          intro grant granted
          simp only [after, HookState.setThread, HookState.setGrant,
            Function.update_self, Option.some.injEq] at granted
          rw [← granted]
      | true =>
          let holding := ((asking.setGrant ptr none).setGrant new
            (some ⟨size, none, some thread⟩)).setThread thread
              (.reallocRemove ptr new size)
          have moves : hookNext asking (.raw thread (some new)) =
              some holding := by
            simp only [hookNext, hookRaw, asked.stands, isFound]
            exact if_pos allowed
          have holds : Busy holding thread (.reallocRemove ptr new size)
              new := asked.move new size (some thread)
          obtain ⟨after, steps, agree, rest⟩ := replace_alone
            ((sameMoved (some thread)).setThread thread _) holds env
          refine ⟨after, .head rfl searches (.head rfl moves steps), ?_, rest⟩
          have tracked : (trackedRealloc tracker env ptr size).1 =
              recordBlock { moved with
                table := mttEntryRemove moved.table ptr } env new size := by
            simp only [trackedRealloc, rawRealloc, answer, if_neg nonNull]
            exact congrArg Prod.fst (if_pos isFound)
          rw [tracked]
          exact agree

/-! ## Calls of the application -/

/-- A call that goes through the table, with every raw function in place. -/
structure TracksCall (config : ToolConfig) (tracker : TrackerState)
    (event : HookEvent) : Prop where
  rawMalloc : config.rawMalloc = true
  rawFree : config.rawFree = true
  rawRealloc : config.rawRealloc = true
  enabled : (mttEnsureInit config tracker).disabled = false
  started : event.env.startup = false
  outer : event.caller.bypasses config tracker event.caller.lr = false
  inner : event.caller.bypasses config tracker event.caller.innerLr = false
  outside : ∀ ptr, (tracker.blocks ptr).isSome →
    mttPoolContains config tracker ptr = false

omit [DecidableEq Thread] in
theorem SameHooks.ensureInit (same : SameHooks tracker state)
    (config : ToolConfig) :
    SameHooks (mttEnsureInit config tracker) state := by
  unfold mttEnsureInit
  split
  · exact same
  · exact ⟨same.table, same.allocSeq, same.sampler, same.blocks⟩

variable {event : HookEvent}

theorem enter_alone {call : HookCall} {entered : HookState Thread}
    {after : TrackerState}
    (enters : hookNext state (.call thread call) = some entered)
    (ends : ∃ last, Alone thread entered last ∧ SameHooks after last ∧
      AtRest last) :
    ∃ entered last, hookNext state (.call thread call) = some entered ∧
      Alone thread entered last ∧ SameHooks after last ∧ AtRest last := by
  obtain ⟨last, steps, agree, rest⟩ := ends
  exact ⟨entered, last, enters, steps, agree, rest⟩

theorem mallocHook_alone (ready : TracksCall config tracker event)
    (same : SameHooks tracker state) (rest : AtRest state) {lr : Word}
    (tracked : event.caller.bypasses config tracker lr = false) {size : Nat}
    {call : HookCall} (asks : call.request = .alloc size)
    (fresh : FreshReply tracker event.env) :
    ∃ entered last, hookNext state (.call thread call) = some entered ∧
      Alone thread entered last ∧
      SameHooks (mallocHook config tracker event.caller lr event.env size).1
        last ∧
      AtRest last := by
  have enters : hookNext state (.call thread call) =
      some (state.setThread thread (.mallocRaw size)) := by
    simp [hookNext, rest.idle, asks, hookEnter]
  apply enter_alone enters
  rw [mallocHook_of_not_bypasses tracked]
  simp only [ready.rawMalloc, Bool.not_true, Bool.false_eq_true, if_false,
    ready.started, ready.enabled, Bool.or_self]
  by_cases empty : size = 0
  · rw [if_pos empty]
    have ends := malloc_alone thread ready.rawMalloc same rest size fresh
    rwa [if_pos empty] at ends
  · rw [if_neg empty]
    have ends := malloc_alone thread ready.rawMalloc
      (same.ensureInit config) rest size (by rwa [FreshReply, mttEnsureInit_blocks])
    rwa [if_neg empty] at ends

theorem freeHook_alone (ready : TracksCall config tracker event)
    (same : SameHooks tracker state) (rest : AtRest state) {lr : Word}
    (tracked : event.caller.bypasses config tracker lr = false)
    {call : HookCall} (asks : call.request = .release ptr)
    (nonNull : ptr ≠ 0) (live : (tracker.blocks ptr).isSome) :
    ∃ entered last, hookNext state (.call thread call) = some entered ∧
      Alone thread entered last ∧
      SameHooks (freeHook config tracker event.caller lr ptr) last ∧
      AtRest last := by
  have usable : state.usable ptr = true := same.usable rest live
  let entered := (state.handOver ptr (some thread)).setThread thread
    (.freeRemove ptr)
  have enters : hookNext state (.call thread call) = some entered := by
    simp [hookNext, rest.idle, asks, hookEnter, usable, entered]
  have busy : Busy entered thread (.freeRemove ptr) ptr := by
    apply rest.enter rfl
    intro other different
    exact Function.update_of_ne different ..
  apply enter_alone enters
  rw [freeHook_of_not_bypasses nonNull (ready.outside ptr live) tracked]
  rw [if_neg (by simp [ready.rawFree]), if_neg (by simp [ready.enabled])]
  exact release_alone ready.rawFree
    (((same.ensureInit config).handOver _).setThread thread _) busy

theorem reallocHook_alone (ready : TracksCall config tracker event)
    (same : SameHooks tracker state) (rest : AtRest state) {size : Nat}
    (nonNull : ptr ≠ 0) (positive : size ≠ 0) {call : HookCall}
    (asks : call.request = .resize ptr size)
    (live : (tracker.blocks ptr).isSome)
    (fresh : ResizeReply tracker event.env ptr) :
    ∃ entered last, hookNext state (.call thread call) = some entered ∧
      Alone thread entered last ∧
      SameHooks
        (reallocHook config tracker event.caller event.env ptr size).1
        last ∧
      AtRest last := by
  have usable : state.usable ptr = true := same.usable rest live
  let entered := (state.handOver ptr (some thread)).setThread thread
    (.reallocFind ptr size)
  have enters : hookNext state (.call thread call) = some entered := by
    simp [hookNext, rest.idle, asks, hookEnter, usable, entered]
  have busy : Busy entered thread (.reallocFind ptr size) ptr := by
    apply rest.enter rfl
    intro other different
    exact Function.update_of_ne different ..
  apply enter_alone enters
  rw [reallocHook_of_not_bypasses nonNull positive ready.outer]
  simp only [ready.rawMalloc, ready.rawRealloc, Bool.not_true,
    Bool.false_eq_true, if_false, if_true, ready.enabled]
  exact resize_alone
    (((same.ensureInit config).handOver _).setThread thread _) busy
    (by rwa [ResizeReply, mttEnsureInit_blocks])

theorem callocHook_of_not_bypasses {caller : Caller}
    (tracked : caller.bypasses config tracker caller.lr = false)
    (count size : Nat) :
    callocHook config tracker caller env count size =
      match arraySize count size with
      | none => (tracker, 0)
      | some total =>
          mallocHook config tracker caller caller.innerLr env total := by
  obtain ⟨outermost, slot, here, listed, internal⟩ :=
    Caller.not_bypasses tracked
  unfold callocHook
  cases arraySize count size with
  | none => rfl
  | some total =>
      dsimp only
      rw [if_neg outermost, here]
      simp [listed, internal]

theorem allocated_of_live (live : event.call.live tracker = true)
    (nonNull : ptr ≠ 0)
    (takes : event.call = .free ptr ∨ ∃ size, event.call = .realloc ptr size) :
    (tracker.blocks ptr).isSome = true := by
  rcases takes with call | ⟨size, call⟩
  · rw [call, AllocCall.live, Bool.or_eq_true, beq_iff_eq] at live
    exact live.resolve_left nonNull
  · rw [call, AllocCall.live, Bool.or_eq_true, beq_iff_eq] at live
    exact live.resolve_left nonNull

/-- A tracked call of a thread that nobody interrupts. -/
theorem hookCall_alone (ready : TracksCall config tracker event)
    (same : SameHooks tracker state) (rest : AtRest state)
    (live : event.call.live tracker = true)
    (fresh : event.fresh config tracker = true) (thread : Thread) :
    ∃ entered last,
      hookNext state (.call thread event.call.hookCall) = some entered ∧
      Alone thread entered last ∧
      SameHooks (hookCall config tracker event) last ∧ AtRest last := by
  unfold hookCall
  cases call : event.call with
  | malloc size =>
      have reply : FreshReply tracker event.env :=
        freshReply_of_fresh fresh (by simp [call])
      exact mallocHook_alone ready same rest ready.outer rfl reply
  | calloc count size =>
      have reply : FreshReply tracker event.env :=
        freshReply_of_fresh fresh (by simp [call])
      dsimp only
      rw [callocHook_of_not_bypasses ready.outer]
      cases product : arraySize count size with
      | none =>
          have enters : hookNext state
              (.call thread (.calloc count size)) = some state := by
            simp [hookNext, rest.idle, HookCall.request, product, hookEnter]
          exact enter_alone enters ⟨state, .refl state, same, rest⟩
      | some total =>
          have asks : (HookCall.calloc count size).request =
              .alloc total := by
            simp [HookCall.request, product]
          exact mallocHook_alone ready same rest ready.inner asks reply
  | realloc ptr size =>
      dsimp only
      by_cases null : ptr = 0
      · have reply : FreshReply tracker event.env := by
          apply freshReply_of_fresh fresh
          intro block _ resizes
          rw [call] at resizes
          injection resizes with blockEq
          exact .inr (blockEq ▸ null)
        rw [reallocHook, if_pos null]
        exact mallocHook_alone ready same rest ready.inner (if_pos null) reply
      · have allocated := allocated_of_live live null (.inr ⟨size, call⟩)
        by_cases empty : size = 0
        · have asks : (HookCall.realloc ptr size).request = .release ptr :=
            (if_neg null).trans (if_pos empty)
          rw [reallocHook, if_neg null, if_pos empty]
          exact freeHook_alone ready same rest ready.inner asks null allocated
        · have asks : (HookCall.realloc ptr size).request =
              .resize ptr size :=
            (if_neg null).trans (if_neg empty)
          exact reallocHook_alone ready same rest null empty asks allocated
            (resizeReply_of_fresh fresh call)
  | free ptr =>
      dsimp only
      by_cases null : ptr = 0
      · have enters : hookNext state (.call thread (.free ptr)) =
            some state := by
          simp [hookNext, rest.idle, HookCall.request, null, hookEnter]
        rw [freeHook, if_pos null]
        exact enter_alone enters ⟨state, .refl state, same, rest⟩
      · have allocated := allocated_of_live live null (.inl call)
        exact freeHook_alone ready same rest ready.outer (if_neg null) null
          allocated

/-- Tracked calls one after the other are a run of the interleaved hooks. -/
theorem reachable_alone (thread : Thread) {first : TrackerState}
    (starts : (sequentialSystem config).init first)
    (unnumbered : first.allocSeq = 0)
    (calls : (sequentialSystem config).StepsBy (TracksCall config) first
      tracker) :
    ∃ state : HookState Thread, (hookSystem Thread).Reachable state ∧
      SameHooks tracker state ∧ AtRest state := by
  induction calls with
  | refl =>
      let state : HookState Thread :=
        ⟨first.table, 0, first.sampler, fun _ => none, fun _ => .idle⟩
      have initial : (hookSystem Thread).init state :=
        ⟨starts.2.2.1, rfl, fun _ => rfl, fun _ => rfl⟩
      refine ⟨state, .start initial, ⟨rfl, unnumbered.symm, rfl, ?_⟩, rfl, ?_⟩
      · intro ptr
        exact (starts.2.2.2 ptr).symm
      · intro ptr grant granted
        exact absurd granted (Option.some_ne_none grant).symm
  | @tail _ _ event _ ready taken induction =>
      obtain ⟨state, reachable, same, rest⟩ := induction
      simp only [sequentialSystem, Option.ite_none_right_eq_some,
        Option.some.injEq, Bool.and_eq_true] at taken
      obtain ⟨⟨live, fresh⟩, rfl⟩ := taken
      obtain ⟨entered, last, enters, steps, agree, atRest⟩ :=
        hookCall_alone ready same rest live fresh thread
      have takes : (hookSystem Thread).next state
          (.call thread event.call.hookCall) = some entered := enters
      have within : (hookSystem Thread).Reachable entered :=
        .step reachable trivial takes
      exact ⟨last, within.extend (steps.mono fun _ _ _ => trivial), agree,
        atRest⟩

end Complete

end MemoryTraceTool.Sequential
