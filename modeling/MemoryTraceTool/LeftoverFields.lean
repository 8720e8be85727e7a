import MemoryTraceTool.ThreadSlots

/-!
# Leftover fields

A slot is never cleared when its thread exits.  A new thread that is given the
same ID finds the slot by that ID before any initialisation runs, so it
starts with the fields of its predecessor.  The depth repair in
`mtt_hook_enter` waits for a depth that `mtt_hook_inc_depth` never stores.
-/

namespace MemoryTraceTool.Slots

open Transition
open MemoryTraceTool.Sequential (mttHookDepthMax)

/-! ## Fields and the sections that will restore them -/

/-- The fields that sections save and restore. -/
structure Flags where
  inHook : Int
  toolInternal : Int
  inCapture : Int
  deriving DecidableEq, Repr

def Flags.zero : Flags :=
  { inHook := 0, toolInternal := 0, inCapture := 0 }

def MttPerThread.flags (fields : MttPerThread) : Flags :=
  { inHook := fields.inHook
    toolInternal := fields.toolInternal
    inCapture := fields.inCapture }

namespace ToolSection

def ctx : ToolSection → Nat
  | .hook ctx _ | .resolving ctx _ | .starting ctx _ _ | .capturing ctx _
  | .quiet ctx _ | .toolThread ctx => ctx

def isHook : ToolSection → Bool
  | .hook _ _ => true
  | _ => false

/-- The flags as they were when the section started. -/
def undo : ToolSection → Flags → Flags
  | .hook _ saved, flags | .resolving _ saved, flags
  | .quiet _ saved, flags => { flags with inHook := saved }
  | .starting _ savedHook savedTool, flags =>
      { flags with inHook := savedHook, toolInternal := savedTool }
  | .capturing _ saved, flags => { flags with inCapture := saved }
  | .toolThread _, flags => { flags with toolInternal := 0 }

end ToolSection

/-- The flags as they were outside all sections. -/
def unwind (sections : List ToolSection) (flags : Flags) : Flags :=
  sections.foldl (fun flags section_ => section_.undo flags) flags

@[simp]
theorem unwind_cons (section_ : ToolSection) (sections : List ToolSection)
    (flags : Flags) :
    unwind (section_ :: sections) flags =
      unwind sections (section_.undo flags) :=
  rfl

/-- How many hooks a thread is in. -/
def openHooks (sections : List ToolSection) : Nat :=
  sections.countP ToolSection.isHook

@[simp]
theorem openHooks_hook (ctx : Nat) (saved : Int)
    (sections : List ToolSection) :
    openHooks (.hook ctx saved :: sections) = openHooks sections + 1 :=
  List.countP_cons_of_pos rfl

theorem openHooks_cons {section_ : ToolSection}
    (other : section_.isHook = false) (sections : List ToolSection) :
    openHooks (section_ :: sections) = openHooks sections :=
  List.countP_cons_of_neg (by simp [other])

/-- The depth counts the open hooks, and without the open sections all flags
are 0. -/
structure FieldsFit (sections : List ToolSection) (fields : MttPerThread) :
    Prop where
  few : openHooks sections ≤ 1
  counted : fields.depthInited = depthSentinel →
    fields.hookDepth = openHooks sections
  uncounted : fields.depthInited ≠ depthSentinel → openHooks sections = 0
  flags : unwind sections fields.flags = .zero

namespace FieldsFit

variable {sections : List ToolSection} {fields : MttPerThread}

theorem zero : FieldsFit [] .zero where
  few := by decide
  counted := by
    intro inited
    cases inited
  uncounted := fun _ => rfl
  flags := rfl

theorem taken : FieldsFit [] .taken where
  few := by decide
  counted := by
    intro inited
    cases inited
  uncounted := fun _ => rfl
  flags := rfl

theorem mttHookEnter_eq (fit : FieldsFit sections fields) :
    mttHookEnter fields =
      { fields with
        hookDepth := openHooks sections, depthInited := depthSentinel } := by
  unfold mttHookEnter
  split_ifs with inited deep
  · rw [fit.uncounted inited]
    rfl
  · have depth := fit.counted (not_not.mp inited)
    have few := fit.few
    rw [depth] at deep
    have most : mttHookDepthMax < openHooks sections := by exact_mod_cast deep
    exact absurd (most.trans_le few) (by decide)
  · have depth := fit.counted (not_not.mp inited)
    rw [← depth, ← not_not.mp inited]

theorem enter (fit : FieldsFit sections fields) :
    FieldsFit sections (mttHookEnter fields) := by
  rw [fit.mttHookEnter_eq]
  exact
    { few := fit.few
      counted := fun _ => rfl
      uncounted := fun uninited => absurd rfl uninited
      flags := fit.flags }

theorem mttHookIncDepth_eq (fit : FieldsFit sections fields)
    (outside : openHooks sections = 0) :
    mttHookIncDepth fields =
      { fields with hookDepth := 1, depthInited := depthSentinel } := by
  by_cases inited : fields.depthInited = depthSentinel
  · have depth := fit.counted inited
    simp only [mttHookIncDepth, inited, if_true, depth, outside]
    exact if_neg (by decide)
  · simp only [mttHookIncDepth, inited, if_false]
    exact if_neg (by decide)

theorem count (fit : FieldsFit sections fields)
    (outside : openHooks sections = 0) (ctx : Nat) :
    FieldsFit (.hook ctx (mttHookIncDepth fields).inHook :: sections)
      (restoreHook 1 (mttHookIncDepth fields)) := by
  rw [fit.mttHookIncDepth_eq outside]
  have opened : openHooks (.hook ctx fields.inHook :: sections) = 1 := by
    rw [openHooks_hook, outside]
  exact
    { few := opened.le
      counted := fun _ => by rw [opened]; rfl
      uncounted := fun uninited => absurd rfl uninited
      flags := fit.flags }

theorem uncount {ctx : Nat} {saved : Int}
    (fit : FieldsFit (.hook ctx saved :: sections) fields) :
    FieldsFit sections (restoreHook saved (mttHookDecDepth fields)) := by
  have few := fit.few
  have inited : fields.depthInited = depthSentinel := by
    by_contra uninited
    have none_ := fit.uncounted uninited
    rw [openHooks_hook] at none_
    omega
  have depth := fit.counted inited
  rw [openHooks_hook] at few depth
  have outside : openHooks sections = 0 := by omega
  have depth : fields.hookDepth = 1 := by
    rw [depth, outside]
    rfl
  exact
    { few := by omega
      counted := fun _ => by
        simp [restoreHook, mttHookDecDepth, depth, outside]
      uncounted := fun _ => outside
      flags := fit.flags }

/-- A section other than a hook starts and keeps the depth. -/
theorem push {section_ : ToolSection} {opened : MttPerThread}
    (fit : FieldsFit sections fields) (other : section_.isHook = false)
    (depth : opened.hookDepth = fields.hookDepth)
    (inited : opened.depthInited = fields.depthInited)
    (saved : section_.undo opened.flags = fields.flags) :
    FieldsFit (section_ :: sections) opened where
  few := by
    rw [openHooks_cons other]
    exact fit.few
  counted := by
    rw [openHooks_cons other, depth, inited]
    exact fit.counted
  uncounted := by
    rw [openHooks_cons other, inited]
    exact fit.uncounted
  flags := by
    rw [unwind_cons, saved]
    exact fit.flags

theorem pop {section_ : ToolSection} {closed : MttPerThread}
    (fit : FieldsFit (section_ :: sections) fields)
    (other : section_.isHook = false)
    (depth : closed.hookDepth = fields.hookDepth)
    (inited : closed.depthInited = fields.depthInited)
    (restored : closed.flags = section_.undo fields.flags) :
    FieldsFit sections closed where
  few := by
    rw [← openHooks_cons other]
    exact fit.few
  counted := by
    rw [← openHooks_cons other, depth, inited]
    exact fit.counted
  uncounted := by
    rw [← openHooks_cons other, inited]
    exact fit.uncounted
  flags := by
    rw [restored, ← unwind_cons]
    exact fit.flags

theorem opens {threadFn : ThreadFn} {ctx : Nat} {name : SectionName}
    {opened : MttPerThread} {added : List ToolSection}
    (fit : FieldsFit sections fields)
    (first : name = .threadFn → sections = [])
    (opens : openSection threadFn ctx fields name = some (opened, added)) :
    FieldsFit (added ++ sections) opened := by
  cases name with
  | resolve =>
      simp only [openSection] at opens
      split_ifs at opens
      cases opens
      exact fit.push rfl rfl rfl rfl
  | start =>
      cases opens
      exact fit.push rfl rfl rfl rfl
  | capture =>
      simp only [openSection] at opens
      split_ifs at opens
      cases opens
      exact fit.push rfl rfl rfl rfl
  | dataRead =>
      cases opens
      exact fit.push rfl rfl rfl rfl
  | threadFn =>
      obtain rfl := first rfl
      have notTool : fields.toolInternal = 0 :=
        congrArg Flags.toolInternal fit.flags
      have marked : FieldsFit [.toolThread ctx]
          { fields with toolInternal := 1 } := by
        refine fit.push rfl rfl rfl ?_
        simp [ToolSection.undo, MttPerThread.flags, notTool]
      cases threadFn with
      | ordinary => cases opens
      | http | signal =>
          cases opens
          exact marked
      | reporter =>
          cases opens
          exact marked.push rfl rfl rfl rfl

end FieldsFit

theorem openSection_ctx {threadFn : ThreadFn} {ctx : Nat}
    {fields opened : MttPerThread} {name : SectionName}
    {added : List ToolSection}
    (opens : openSection threadFn ctx fields name = some (opened, added)) :
    ∀ section_ ∈ added, section_.ctx = ctx := by
  cases name with
  | resolve | capture =>
      simp only [openSection] at opens
      split_ifs at opens
      cases opens
      simp [ToolSection.ctx]
  | start | dataRead =>
      cases opens
      simp [ToolSection.ctx]
  | threadFn =>
      cases threadFn with
      | ordinary => cases opens
      | http | signal | reporter =>
          cases opens
          simp [ToolSection.ctx]

theorem closeSection_of_ne (fields : Nat → MttPerThread)
    {section_ : ToolSection} {index : Nat} (other : index ≠ section_.ctx) :
    closeSection fields section_ index = fields index := by
  cases section_ with
  | hook | resolving | starting | capturing | quiet =>
      exact Function.update_of_ne other _ _
  | toolThread => rfl

theorem FieldsFit.close {section_ : ToolSection}
    {sections : List ToolSection} {fields : Nat → MttPerThread}
    (fit : FieldsFit (section_ :: sections) (fields section_.ctx))
    (left : section_.isHook = false)
    (leaves : ∀ ctx, section_ ≠ .toolThread ctx) :
    FieldsFit sections (closeSection fields section_ section_.ctx) := by
  cases section_ with
  | hook => cases left
  | resolving | starting | capturing | quiet =>
      refine fit.pop rfl ?_ ?_ ?_ <;>
      simp [closeSection, ToolSection.ctx, ToolSection.undo, restoreHook,
        MttPerThread.flags]
  | toolThread ctx => exact absurd rfl (leaves ctx)

/-! ## What a thread knows of its slot -/

/-- All that a first hook call reads is 0. -/
def MttPerThread.ReadsZero (fields : MttPerThread) : Prop :=
  fields.hookDepth = 0 ∧ fields.inHook = 0 ∧ fields.inCapture = 0 ∧
    fields.toolInternal = 0

/-- A hook has tested its depth and not yet counted itself. -/
def LookupUse.Counts : LookupUse → Prop
  | .hookCtx _ | .incDepth _ => True
  | _ => False

/-- The lookups of a thread that has called no hook. -/
def LookupUse.Unhooked : LookupUse → Prop
  | .bare _ | .hookEnter _ => True
  | _ => False

/-- The tool code of a thread, with the lookup that it is in. -/
structure ToolUse (state : SlotState) (task : Task)
    (use : Option LookupUse) : Prop where
  sections : ∀ section_ ∈ task.sections, section_.ctx ∈ task.returned
  counts : ∀ ctx, use = some (.incDepth ctx) → ctx ∈ task.returned
  leaves : use = some .decDepth →
    ∃ ctx saved rest, task.sections = .hook ctx saved :: rest
  starts : use = some (.opens .threadFn) → task.sections = []
  fits : ∀ index ∈ task.returned, state.abandoned index = false →
    FieldsFit task.sections (state.fields index)
  outside : ∀ index ∈ task.returned, state.abandoned index = false →
    ∀ current ∈ use, current.Counts → openHooks task.sections = 0
  rested : task.threadFn = .ordinary → ∀ index ∈ task.returned,
    state.abandoned index = false
  unhooked : task.threadFn = .ordinary → task.hooked = false →
    task.sections = [] ∧ ∀ current ∈ use, current.Unhooked
  seen : task.threadFn = .ordinary → ∀ fields ∈ task.seen, fields.ReadsZero

namespace ToolUse

variable {state : SlotState} {task : Task} {use : Option LookupUse}

theorem sections_eq_nil (known : ToolUse state task use)
    (without : task.returned = []) : task.sections = [] := by
  rw [List.eq_nil_iff_forall_not_mem]
  intro section_ member
  have given := known.sections section_ member
  rw [without] at given
  cases given

theorem running (known : ToolUse state task use) :
    ToolUse state (task.goto .running) none where
  sections := known.sections
  counts := by
    intro ctx isUse
    cases isUse
  leaves := by
    intro isUse
    cases isUse
  starts := by
    intro isUse
    cases isUse
  fits := known.fits
  outside := by
    intro index _ _ current isUse
    cases isUse
  rested := known.rested
  unhooked := by
    intro ordinary unhooked
    refine ⟨(known.unhooked ordinary unhooked).1, ?_⟩
    intro current isUse
    cases isUse
  seen := known.seen

theorem look (known : ToolUse state task none) {next : LookupUse}
    (counts : ∀ ctx, next = .incDepth ctx → ctx ∈ task.returned)
    (leaves : next = .decDepth →
      ∃ ctx saved rest, task.sections = .hook ctx saved :: rest)
    (starts : next = .opens .threadFn → task.sections = [])
    (outside : ∀ index ∈ task.returned, state.abandoned index = false →
      next.Counts → openHooks task.sections = 0)
    (unhooked : task.threadFn = .ordinary → task.hooked = false →
      next.Unhooked) : ToolUse state (task.look next) (some next) where
  sections := known.sections
  counts := by
    intro ctx isUse
    exact counts ctx (Option.some.inj isUse)
  leaves := by
    intro isUse
    exact leaves (Option.some.inj isUse)
  starts := by
    intro isUse
    exact starts (Option.some.inj isUse)
  fits := known.fits
  outside := by
    rintro index given rested current isUse counting
    obtain rfl := Option.some.inj isUse
    exact outside index given rested counting
  rested := known.rested
  unhooked := by
    intro ordinary without
    refine ⟨(known.unhooked ordinary without).1, ?_⟩
    intro current isUse
    obtain rfl := Option.some.inj isUse
    exact unhooked ordinary without
  seen := known.seen

theorem change (known : ToolUse state task use) {slot : Nat}
    (given : slot ∈ task.returned) (isSlot : ∀ index ∈ task.returned,
      index = slot) {fields : Nat → MttPerThread} {later : Task}
    (threadFn : later.threadFn = task.threadFn)
    (returned : later.returned = task.returned)
    (sections : ∀ section_ ∈ later.sections, section_.ctx = slot)
    (fit : state.abandoned slot = false →
      FieldsFit later.sections (fields slot))
    (hooked : task.threadFn = .ordinary → later.hooked = true)
    (seen : task.threadFn = .ordinary →
      ∀ fields ∈ later.seen, fields.ReadsZero) :
    ToolUse { state with fields } later none where
  sections := by
    intro section_ member
    rw [returned, sections section_ member]
    exact given
  counts := by
    intro ctx isUse
    cases isUse
  leaves := by
    intro isUse
    cases isUse
  starts := by
    intro isUse
    cases isUse
  fits := by
    intro index member rested
    rw [returned] at member
    obtain rfl := isSlot index member
    exact fit rested
  outside := by
    intro index _ _ current isUse
    cases isUse
  rested := by
    rw [threadFn, returned]
    exact known.rested
  unhooked := by
    intro ordinary without
    rw [threadFn] at ordinary
    rw [hooked ordinary] at without
    cases without
  seen := by
    rw [threadFn]
    exact seen

end ToolUse

/-- The use of the lookup that the thread is in. -/
def TaskPc.use : TaskPc → Option LookupUse
  | .running => none
  | .looking use _ => some use

@[simp]
theorem Task.look_use (task : Task) (use : LookupUse) :
    (task.look use).pc.use = some use :=
  rfl

@[simp]
theorem Task.goto_use (task : Task) (pc : TaskPc) :
    (task.goto pc).pc.use = pc.use :=
  rfl

namespace ToolUse

variable {state : SlotState} {task : Task} {use : LookupUse}

/-- A lookup returned NULL to a thread without a slot. -/
theorem resume_none (known : ToolUse state task (some use))
    (without : task.returned = []) :
    (resume task state.fields use none).1 = state.fields ∧
      ToolUse state (resume task state.fields use none).2
        (resume task state.fields use none).2.pc.use := by
  have noSections := known.sections_eq_nil without
  cases use with
  | bare | hookCtx | opens => exact ⟨rfl, known.running⟩
  | hookEnter hook =>
      refine ⟨rfl, look ?_ ?_ ?_ ?_ ?_ ?_⟩
      · exact
          { known.running with
            unhooked := by
              intro _ unhooked
              cases unhooked }
      · intro ctx isUse
        cases isUse
      · intro isUse
        cases isUse
      · intro isUse
        cases isUse
      · intro _ _ _ _
        rw [noSections]
        rfl
      · intro _ unhooked
        cases unhooked
  | incDepth ctx =>
      have given := known.counts ctx rfl
      rw [without] at given
      cases given
  | decDepth =>
      obtain ⟨ctx, saved, rest, opened⟩ := known.leaves rfl
      rw [noSections] at opened
      cases opened

theorem readsZero {fields : MttPerThread} (fit : FieldsFit [] fields) :
    (mttHookEnter fields).ReadsZero := by
  have flags : fields.flags = .zero := fit.flags
  rw [fit.mttHookEnter_eq]
  exact ⟨rfl, congrArg Flags.inHook flags, congrArg Flags.inCapture flags,
    congrArg Flags.toolInternal flags⟩

theorem resume_hookEnter {hook : HookName}
    (known : ToolUse state task (some (.hookEnter hook))) {slot : Nat}
    (given : slot ∈ task.returned) (isSlot : ∀ index ∈ task.returned,
      index = slot) :
    ToolUse
      { state with
        fields := Function.update state.fields slot
          (mttHookEnter (state.fields slot)) }
      (resume task state.fields (.hookEnter hook) (some slot)).2
      (resume task state.fields (.hookEnter hook) (some slot)).2.pc.use := by
  let entered := mttHookEnter (state.fields slot)
  let later : Task :=
    { task with
      hooked := true
      seen := if task.hooked then task.seen else some entered }
  have fit : state.abandoned slot = false →
      FieldsFit task.sections (state.fields slot) :=
    known.fits slot given
  have seen : task.threadFn = .ordinary →
      ∀ fields ∈ later.seen, fields.ReadsZero := by
    intro ordinary fields isSeen
    cases hooked : task.hooked with
    | true =>
        simp only [later, hooked, if_true] at isSeen
        exact known.seen ordinary fields isSeen
    | false =>
        simp only [later, hooked, Bool.false_eq_true, if_false,
          Option.mem_some_iff] at isSeen
        have noSections := (known.unhooked ordinary hooked).1
        have rests := fit (known.rested ordinary slot given)
        rw [noSections] at rests
        exact isSeen ▸ readsZero rests
  have changed : ToolUse
      { state with fields := Function.update state.fields slot entered }
      later none := by
    refine known.change given isSlot rfl rfl ?_ ?_ (fun _ => rfl) seen
    · exact fun section_ member => isSlot _ (known.sections section_ member)
    · intro rested
      rw [Function.update_self]
      exact (fit rested).enter
  by_cases nested : 0 < entered.hookDepth
  · simp only [resume, entered, nested, if_true]
    exact changed.running
  · simp only [resume, entered, nested, if_false]
    refine changed.look ?_ ?_ ?_ ?_ ?_
    · intro ctx isUse
      cases isUse
    · intro isUse
      cases isUse
    · intro isUse
      cases isUse
    · intro index member rested _
      obtain rfl := isSlot index member
      have depth : entered.hookDepth = openHooks task.sections :=
        congrArg MttPerThread.hookDepth (fit rested).mttHookEnter_eq
      rw [depth] at nested
      exact Nat.eq_zero_of_not_pos fun open_ => nested (by exact_mod_cast open_)
    · intro _ unhooked
      cases unhooked

theorem resume_some (known : ToolUse state task (some use)) {slot : Nat}
    (given : slot ∈ task.returned) (isSlot : ∀ index ∈ task.returned,
      index = slot) :
    (∀ index, index ≠ slot →
      (resume task state.fields use (some slot)).1 index =
        state.fields index) ∧
      ToolUse
        { state with fields := (resume task state.fields use (some slot)).1 }
        (resume task state.fields use (some slot)).2
        (resume task state.fields use (some slot)).2.pc.use := by
  have ownSections : ∀ section_ ∈ task.sections, section_.ctx = slot :=
    fun section_ member => isSlot _ (known.sections section_ member)
  have hooked : ¬ use.Unhooked → task.threadFn = .ordinary →
      task.hooked = true := by
    intro unhooked ordinary
    by_contra without
    exact unhooked ((known.unhooked ordinary (by simpa using without)).2
      use rfl)
  cases use with
  | bare => exact ⟨fun _ _ => rfl, known.running⟩
  | hookEnter hook =>
      exact ⟨fun _ other => Function.update_of_ne other _ _,
        known.resume_hookEnter given isSlot⟩
  | hookCtx hook =>
      refine ⟨fun _ _ => rfl, ?_⟩
      have hooked := hooked id
      cases counts : hook.counts with
      | false =>
          simp only [resume, counts, Bool.false_eq_true, if_false]
          exact known.running
      | true =>
          simp only [resume, counts, if_true]
          refine known.running.look ?_ ?_ ?_ ?_ ?_
          · intro ctx isUse
            obtain rfl := LookupUse.incDepth.inj isUse
            exact given
          · intro isUse
            cases isUse
          · intro isUse
            cases isUse
          · intro index member rested _
            exact known.outside index member rested _ rfl trivial
          · intro ordinary unhooked
            have called := hooked ordinary
            rw [show task.hooked = false from unhooked] at called
            cases called
  | incDepth ctx =>
      obtain rfl := isSlot ctx (known.counts ctx rfl)
      have counted : changeAt mttHookIncDepth state.fields (some ctx) ctx =
          mttHookIncDepth (state.fields ctx) := Function.update_self _ _ _
      refine ⟨?_, ?_⟩
      · intro index other
        exact (Function.update_of_ne other _ _).trans
          (Function.update_of_ne other _ _)
      · refine known.change given isSlot rfl rfl ?_ ?_ (hooked id) known.seen
        · intro section_ member
          rcases List.mem_cons.mp member with rfl | earlier
          · rfl
          · exact ownSections section_ earlier
        · intro rested
          simp only [resume, Task.goto, Function.update_self, counted]
          exact (known.fits ctx given rested).count
            (known.outside ctx given rested _ rfl trivial) ctx
  | decDepth =>
      obtain ⟨ctx, saved, rest, opened⟩ := known.leaves rfl
      have isCtx : ctx = slot := by
        apply ownSections (.hook ctx saved)
        rw [opened]
        exact List.mem_cons_self
      subst isCtx
      simp only [resume, opened]
      refine ⟨?_, ?_⟩
      · intro index other
        exact (Function.update_of_ne other _ _).trans
          (Function.update_of_ne other _ _)
      · refine known.change given isSlot rfl rfl ?_ ?_ (hooked id) known.seen
        · intro section_ member
          apply ownSections section_
          rw [opened]
          exact List.mem_cons_of_mem _ member
        · intro rested
          have fit := known.fits ctx given rested
          rw [opened] at fit
          simp only [closeSection, changeAt, Function.update_self]
          exact fit.uncount
  | opens name =>
      simp only [resume]
      split
      · exact ⟨fun _ _ => rfl, known.running⟩
      · rename_i opened added opens
        refine ⟨fun _ other => Function.update_of_ne other _ _, ?_⟩
        refine known.change given isSlot rfl rfl ?_ ?_ (hooked id) known.seen
        · intro section_ member
          rcases List.mem_append.mp member with isAdded | earlier
          · exact openSection_ctx opens section_ isAdded
          · exact ownSections section_ earlier
        · intro rested
          simp only [Task.goto, Function.update_self]
          refine (known.fits slot given rested).opens ?_ opens
          rintro rfl
          exact known.starts rfl

/-- The program counter and the cache do not matter. -/
theorem retask {use : Option LookupUse} (known : ToolUse state task use)
    (pc : TaskPc) (tlsCtx : Option Nat) (tlsCachedTid : Tid) :
    ToolUse state { task with pc, tlsCtx, tlsCachedTid } use where
  sections := known.sections
  counts := known.counts
  leaves := known.leaves
  starts := known.starts
  fits := known.fits
  outside := known.outside
  rested := known.rested
  unhooked := known.unhooked
  seen := known.seen

/-- Only the fields of the thread's own slot matter. -/
theorem frame {target : SlotState} {use : Option LookupUse}
    (known : ToolUse state task use)
    (fields : ∀ index ∈ task.returned,
      target.fields index = state.fields index)
    (abandoned : ∀ index ∈ task.returned,
      target.abandoned index = state.abandoned index) :
    ToolUse target task use :=
  { known with
    fits := by
      intro index given rested
      rw [fields index given]
      rw [abandoned index given] at rested
      exact known.fits index given rested
    outside := by
      intro index given rested
      rw [abandoned index given] at rested
      exact known.outside index given rested
    rested := by
      intro ordinary index given
      rw [abandoned index given]
      exact known.rested ordinary index given }

end ToolUse

/-! ## The end of a lookup -/

/-- A thread that is about to read a `tid` once more has the slot; one that
initialises a slot has no other. -/
structure PcFits (task : Task) : Prop where
  fills : ∀ use index, task.pc = .looking use (.fill index) →
    index ∈ task.returned
  inits : ∀ use index, task.pc = .looking use (.init index) →
    task.returned = []

theorem PcFits.of_starts {task : Task} (starts : task.pc.Starts) :
    PcFits task where
  fills := by
    intro use index looking
    rw [looking] at starts
    exact starts.elim
  inits := by
    intro use index looking
    rw [looking] at starts
    exact starts.elim

/-- A lookup ended or read on, and left the thread with these slots. -/
structure Finished (state target : SlotState) (tid : Tid)
    (returned : List Nat) (later : Task) : Prop where
  live : target.live = Function.update state.live tid (some later)
  fields : ∀ index, index ∉ returned →
    target.fields index = state.fields index
  abandoned : target.abandoned = state.abandoned
  use : ToolUse target later later.pc.use
  pc : PcFits later
  returned : later.returned = returned

section Lookup

variable {state : SlotState} (tid : Tid) {task : Task} {use : LookupUse}

theorem ToolUse.finish_none (known : ToolUse state task (some use))
    (without : task.returned = []) :
    ∃ later, Finished state (state.finish tid task use none) tid task.returned
      later := by
  have same := resume_sameLookups task state.fields use none
  obtain ⟨fields, after⟩ := known.resume_none without
  refine ⟨_, rfl, ?_, rfl, ?_, .of_starts same.starts, same.returned⟩
  · intro index _
    exact congrFun fields index
  · refine after.frame ?_ fun _ _ => rfl
    intro index _
    exact congrFun fields index

theorem ToolUse.finish_some (known : ToolUse state task (some use))
    {slot : Nat} (given : slot ∈ task.returned)
    (isSlot : ∀ index ∈ task.returned, index = slot) :
    ∃ later, Finished state (state.finish tid task use (some slot)) tid
      task.returned later := by
  have same := resume_sameLookups task state.fields use (some slot)
  obtain ⟨fields, after⟩ := known.resume_some given isSlot
  refine ⟨_, rfl, ?_, rfl, ?_, .of_starts same.starts, same.returned⟩
  · intro index other
    apply fields
    rintro rfl
    exact other given
  · exact after.frame (fun _ _ => rfl) fun _ _ => rfl

theorem ToolUse.found {index : Nat}
    (known : ToolUse state
      { task with returned := index :: task.returned } (some use))
    (isSlot : ∀ other ∈ task.returned, other = index) :
    ∃ later, Finished state (state.found tid task use index) tid
      (index :: task.returned) later := by
  unfold SlotState.found
  cases use.cached with
  | true =>
      refine ⟨_, rfl, fun _ _ => rfl, rfl, ?_, ⟨?_, ?_⟩, rfl⟩
      · exact (known.retask _ (some index) _).frame (fun _ _ => rfl)
          fun _ _ => rfl
      · intro laterUse later looking
        obtain ⟨-, same⟩ := TaskPc.looking.inj looking
        obtain rfl := ScanPc.fill.inj same
        exact List.mem_cons_self
      · intro laterUse later looking
        obtain ⟨-, same⟩ := TaskPc.looking.inj looking
        cases same
  | false =>
      refine known.finish_some tid List.mem_cons_self ?_
      intro other member
      rcases List.mem_cons.mp member with rfl | earlier
      · rfl
      · exact isSlot other earlier

end Lookup

/-! ## Runs -/

/-- A new thread whose ID is still in a slot finds there a slot in which no
thread has exited inside tool code. -/
def MatchesRested (state : SlotState) : SlotLabel → Prop
  | .step tid => ∀ task use index, state.live tid = some task →
      task.pc = .looking use (.find index) → index < mttMaxThreads →
      state.slots index = tid → task.threadFn = .ordinary →
      index ∉ task.returned → state.abandoned index = false
  | _ => True

def KeepsFields (state : SlotState) (label : SlotLabel) : Prop :=
  ReclaimsDead state label ∧ MatchesRested state label

/-- What holds between the steps of all threads of the fields and sections. -/
structure FieldsInvariant (state : SlotState) : Prop where
  slots : SlotInvariant state
  tasks : ∀ tid task, state.live tid = some task →
    ToolUse state task task.pc.use ∧ PcFits task
  rested : ∀ index < mttMaxThreads, state.abandoned index = false →
    (∀ tid task, state.live tid = some task → task.uses index = false) →
    FieldsFit [] (state.fields index)

theorem Task.uses_iff (task : Task) (index : Nat) :
    task.uses index = true ↔
      index ∈ task.returned ∨ task.pc.taken = some index := by
  simp [Task.uses]

theorem Task.not_mem_returned {task : Task} {index : Nat}
    (unused : task.uses index = false) : index ∉ task.returned := by
  intro given
  have uses := (task.uses_iff index).mpr (.inl given)
  rw [unused] at uses
  cases uses

theorem TaskPc.taken_eq_some {pc : TaskPc} {index : Nat}
    (isTaken : pc.taken = some index) :
    ∃ use, pc = .looking use (.init index) := by
  cases pc with
  | running => cases isTaken
  | looking use scan =>
      cases scan with
      | init taken =>
          obtain rfl := Option.some.inj isTaken
          exact ⟨use, rfl⟩
      | cached | find | claim | owner | probe | reclaim | fill =>
          cases isTaken

theorem TaskInvariant.slot_of_uses {slots : Nat → Tid} {tid : Tid}
    {task : Task} (known : TaskInvariant slots tid task) {index : Nat}
    (uses : task.uses index = true) : slots index = tid := by
  rcases (task.uses_iff index).mp uses with given | isTaken
  · exact (known.returned index given).2
  · obtain ⟨use, looking⟩ := TaskPc.taken_eq_some isTaken
    exact (known.scanned use _ looking).2

namespace FieldsInvariant

variable {state target : SlotState} {tid : Tid}

theorem isSlot (inv : FieldsInvariant state) {task : Task}
    (live : state.live tid = some task) {slot : Nat}
    (bounded : slot < mttMaxThreads) (same : state.slots slot = tid) :
    ∀ index ∈ task.returned, index = slot := by
  intro index given
  have known := (inv.slots.tasks tid task live).returned index given
  exact inv.slots.exclusive.once tid task index slot live known.1 bounded
    known.2 same

/-- A step of one thread that keeps to the thread's own slot. -/
theorem moves (inv : FieldsInvariant state) (slots : SlotInvariant target)
    {later : Task}
    (live : target.live = Function.update state.live tid (some later))
    (fields : ∀ index, state.slots index ≠ tid →
      target.fields index = state.fields index)
    (abandoned : ∀ index, state.slots index ≠ tid →
      target.abandoned index = state.abandoned index)
    (own : ToolUse target later later.pc.use) (pc : PcFits later)
    (keeps : ∀ index, later.uses index = false →
      target.fields index = state.fields index ∧
        target.abandoned index = state.abandoned index ∧
        ∀ task, state.live tid = some task → task.uses index = false) :
    FieldsInvariant target where
  slots := slots
  tasks := by
    intro other task otherLive
    rw [live] at otherLive
    by_cases same : other = tid
    · subst same
      rw [Function.update_self, Option.some.injEq] at otherLive
      subst otherLive
      exact ⟨own, pc⟩
    · rw [Function.update_of_ne same] at otherLive
      obtain ⟨use, otherPc⟩ := inv.tasks other task otherLive
      have apart : ∀ index ∈ task.returned, state.slots index ≠ tid := by
        intro index given isTid
        have isOther :=
          ((inv.slots.tasks other task otherLive).returned index given).2
        exact same (isOther.symm.trans isTid)
      exact ⟨use.frame (fun index given => fields index (apart index given))
        fun index given => abandoned index (apart index given), otherPc⟩
  rested := by
    intro index bounded rests unused
    have laterUnused : later.uses index = false := by
      apply unused tid later
      rw [live, Function.update_self]
    obtain ⟨sameFields, sameAbandoned, before⟩ := keeps index laterUnused
    rw [sameFields]
    rw [sameAbandoned] at rests
    refine inv.rested index bounded rests ?_
    intro other task otherLive
    by_cases same : other = tid
    · subst same
      exact before task otherLive
    · apply unused other task
      rw [live, Function.update_of_ne same]
      exact otherLive

/-- A step of a lookup that ended or read on. -/
theorem finished (inv : FieldsInvariant state) (slots : SlotInvariant target)
    {task later : Task} (was : state.live tid = some task)
    {returned : List Nat} (finished : Finished state target tid returned later)
    (inSlots : ∀ index ∈ returned, state.slots index = tid)
    (kept : ∀ index, task.uses index = true → index ∈ returned) :
    FieldsInvariant target := by
  refine inv.moves slots finished.live ?_ ?_ finished.use finished.pc ?_
  · intro index other
    apply finished.fields
    intro given
    exact other (inSlots index given)
  · intro index _
    rw [finished.abandoned]
  · intro index unused
    have notGiven : index ∉ returned := by
      rw [← finished.returned]
      exact Task.not_mem_returned unused
    refine ⟨finished.fields index notGiven, by rw [finished.abandoned], ?_⟩
    intro same isTask
    obtain rfl := Option.some.inj (was.symm.trans isTask)
    by_contra uses
    exact notGiven (kept index (by simpa using uses))

end FieldsInvariant

/-- A thread gets its slot: one that it had, or a first one that rests. -/
theorem ToolUse.acquire {state : SlotState} {task : Task}
    {use : Option LookupUse} (known : ToolUse state task use) {slot : Nat}
    (isSlot : ∀ index ∈ task.returned, index = slot)
    (first : slot ∉ task.returned →
      (state.abandoned slot = false → FieldsFit [] (state.fields slot)) ∧
        (task.threadFn = .ordinary → state.abandoned slot = false)) :
    ToolUse state { task with returned := slot :: task.returned } use := by
  by_cases given : slot ∈ task.returned
  · have same : ∀ index ∈ slot :: task.returned, index ∈ task.returned := by
      intro index member
      rcases List.mem_cons.mp member with rfl | earlier
      · exact given
      · exact earlier
    exact
      { sections := fun section_ member =>
          List.mem_cons_of_mem slot (known.sections section_ member)
        counts := fun ctx isUse =>
          List.mem_cons_of_mem slot (known.counts ctx isUse)
        leaves := known.leaves
        starts := known.starts
        fits := fun index member => known.fits index (same index member)
        outside := fun index member => known.outside index (same index member)
        rested := fun ordinary index member =>
          known.rested ordinary index (same index member)
        unhooked := known.unhooked
        seen := known.seen }
  · have without : task.returned = [] := by
      rw [List.eq_nil_iff_forall_not_mem]
      intro index member
      exact given (isSlot index member ▸ member)
    have noSections := known.sections_eq_nil without
    obtain ⟨fit, rested⟩ := first given
    have only : ∀ index ∈ slot :: task.returned, index = slot := by
      simp [without]
    exact
      { sections := by
          intro section_ member
          rw [show task.sections = [] from noSections] at member
          cases member
        counts := fun ctx isUse =>
          List.mem_cons_of_mem slot (known.counts ctx isUse)
        leaves := known.leaves
        starts := known.starts
        fits := by
          intro index member rests
          obtain rfl := only index member
          rw [show task.sections = [] from noSections]
          exact fit rests
        outside := by
          intro index _ _ current _ _
          rw [show task.sections = [] from noSections]
          rfl
        rested := by
          intro ordinary index member
          obtain rfl := only index member
          exact rested ordinary
        unhooked := known.unhooked
        seen := known.seen }

namespace FieldsInvariant

variable {state target : SlotState} {tid : Tid} {task : Task}
  {use : LookupUse} {pc : ScanPc}

theorem given_of_searches (looking : task.pc = .looking use pc)
    (searches : pc.Searches) :
    ∀ index, task.uses index = true → index ∈ task.returned := by
  intro index uses
  rcases (task.uses_iff index).mp uses with given | isTaken
  · exact given
  · obtain ⟨laterUse, same⟩ := TaskPc.taken_eq_some isTaken
    rw [looking] at same
    obtain ⟨-, rfl⟩ := TaskPc.looking.inj same
    exact searches.elim

section Steps

variable (inv : FieldsInvariant state) (was : state.live tid = some task)
include inv was

theorem inSlots : ∀ index ∈ task.returned, state.slots index = tid :=
  fun index given => ((inv.slots.tasks tid task was).returned index given).2

theorem returned_eq_nil
    (absent : ∀ passed < mttMaxThreads, state.slots passed ≠ tid) :
    task.returned = [] := by
  rw [List.eq_nil_iff_forall_not_mem]
  intro index given
  have own := (inv.slots.tasks tid task was).returned index given
  exact absent index own.1 own.2

variable (looking : task.pc = .looking use pc)
include looking

theorem toolUse : ToolUse state task (some use) := by
  have known := (inv.tasks tid task was).1
  simpa [looking, TaskPc.use] using known

theorem look_takes {index : Nat} (taken : pc.Takes state.slots index)
    (slots : SlotInvariant ((state.setSlot index tid).setTask tid
      (task.goto (.looking use (.init index))))) :
    FieldsInvariant ((state.setSlot index tid).setTask tid
      (task.goto (.looking use (.init index)))) := by
  have scanned := (inv.slots.tasks tid task was).scanned use pc looking
  have absent : ∀ passed < mttMaxThreads, state.slots passed ≠ tid := by
    cases taken with
    | claim => exact scanned
    | reclaim => exact scanned.2
  have searches : pc.Searches := by
    cases taken <;> trivial
  have nothing := inv.returned_eq_nil was absent
  refine inv.moves slots rfl (fun _ _ => rfl) (fun _ _ => rfl)
    (((inv.toolUse was looking).retask _ _ _).frame (fun _ _ => rfl)
      fun _ _ => rfl)
    ⟨?_, fun _ _ _ => nothing⟩ ?_
  · intro laterUse later same
    obtain ⟨-, same⟩ := TaskPc.looking.inj same
    cases same
  · intro other _
    refine ⟨rfl, rfl, ?_⟩
    intro same isTask
    obtain rfl := Option.some.inj (was.symm.trans isTask)
    by_contra uses
    have given := given_of_searches looking searches other (by simpa using uses)
    rw [nothing] at given
    cases given

theorem look_goes {later : ScanPc} (before : pc.Searches)
    (after : later.Searches)
    (slots : SlotInvariant
      (state.setTask tid (task.goto (.looking use later)))) :
    FieldsInvariant
      (state.setTask tid (task.goto (.looking use later))) := by
  have finished : Finished state
      (state.setTask tid (task.goto (.looking use later))) tid
      task.returned (task.goto (.looking use later)) := by
    refine ⟨rfl, fun _ _ => rfl, rfl, ?_, ⟨?_, ?_⟩, rfl⟩
    · exact ((inv.toolUse was looking).retask _ _ _).frame (fun _ _ => rfl)
        fun _ _ => rfl
    · intro laterUse index same
      obtain ⟨-, rfl⟩ := TaskPc.looking.inj same
      exact after.elim
    · intro laterUse index same
      obtain ⟨-, rfl⟩ := TaskPc.looking.inj same
      exact after.elim
  exact inv.finished slots was finished (inv.inSlots was)
    (given_of_searches looking before)

theorem look_finds {index : Nat} (searches : pc.Searches)
    (bounded : index < mttMaxThreads) (same : state.slots index = tid)
    (rests : task.threadFn = .ordinary → index ∉ task.returned →
      state.abandoned index = false)
    (slots : SlotInvariant (state.found tid task use index)) :
    FieldsInvariant (state.found tid task use index) := by
  have kept := given_of_searches looking searches
  have isSlot := inv.isSlot was bounded same
  have acquired : ToolUse state
      { task with returned := index :: task.returned } (some use) := by
    refine (inv.toolUse was looking).acquire isSlot fun absent => ⟨?_, ?_⟩
    · intro unabandoned
      refine inv.rested index bounded unabandoned ?_
      intro other otherTask otherLive
      by_contra uses
      have uses : otherTask.uses index = true := by simpa using uses
      have isOther := (inv.slots.tasks other otherTask
        otherLive).slot_of_uses uses
      obtain rfl := same.symm.trans isOther
      obtain rfl := Option.some.inj (was.symm.trans otherLive)
      exact absent (kept index uses)
    · intro ordinary
      exact rests ordinary absent
  obtain ⟨later, finished⟩ := acquired.found tid isSlot
  refine inv.finished slots was finished ?_ ?_
  · intro other member
    rcases List.mem_cons.mp member with rfl | earlier
    · exact same
    · exact inv.inSlots was other earlier
  · intro other uses
    exact List.mem_cons_of_mem index (kept other uses)

theorem look_misses (searches : pc.Searches)
    (absent : ∀ passed < mttMaxThreads, state.slots passed ≠ tid)
    (slots : SlotInvariant (state.missed tid task use)) :
    FieldsInvariant (state.missed tid task use) := by
  have known := inv.toolUse was looking
  have kept := given_of_searches looking searches
  have nothing := inv.returned_eq_nil was absent
  have inSlots := inv.inSlots was
  unfold SlotState.missed at slots ⊢
  cases cached : use.cached with
  | true =>
      obtain ⟨later, finished⟩ :=
        (known.retask task.pc none 0).finish_none tid nothing
      simp only [cached, if_true] at slots ⊢
      exact inv.finished slots was finished inSlots kept
  | false =>
      obtain ⟨later, finished⟩ := known.finish_none tid nothing
      simp only [cached, Bool.false_eq_true, if_false] at slots ⊢
      exact inv.finished slots was finished inSlots kept

omit looking in
/-- The fields of the slot that a thread has taken are set before it is
used. -/
theorem look_initialises {index : Nat}
    (looking : task.pc = .looking use (.init index))
    (slots : SlotInvariant
      ({ state with
        fields := Function.update state.fields index .taken
        abandoned := Function.update state.abandoned index false }.found
          tid task use index)) :
    FieldsInvariant
      ({ state with
        fields := Function.update state.fields index .taken
        abandoned := Function.update state.abandoned index false }.found
          tid task use index) := by
  have scanned := (inv.slots.tasks tid task was).scanned use _ looking
  have nothing := (inv.tasks tid task was).2.inits use index looking
  have noSlot : ∀ other ∈ task.returned, other = index := by
    simp [nothing]
  have cleared : ToolUse
      { state with
        fields := Function.update state.fields index .taken
        abandoned := Function.update state.abandoned index false }
      task (some use) := by
    refine (inv.toolUse was looking).frame ?_ ?_ <;>
    · intro other given
      rw [nothing] at given
      cases given
  have acquired := cleared.acquire noSlot fun _ =>
    ⟨fun _ => by simpa using FieldsFit.taken,
      fun _ => Function.update_self _ _ _⟩
  obtain ⟨later, finished⟩ := acquired.found tid noSlot
  generalize SlotState.found
    { state with
      fields := Function.update state.fields index .taken
      abandoned := Function.update state.abandoned index false }
    tid task use index = target at slots finished ⊢
  have elsewhere : ∀ other, other ≠ index →
      target.fields other = state.fields other ∧
        target.abandoned other = state.abandoned other := by
    intro other isOther
    constructor
    · refine (finished.fields other ?_).trans
        (Function.update_of_ne isOther _ _)
      simp [nothing, isOther]
    · rw [finished.abandoned]
      exact Function.update_of_ne isOther _ _
  have apart : ∀ other, state.slots other ≠ tid → other ≠ index := by
    rintro other notOwn rfl
    exact notOwn scanned.2
  refine inv.moves slots finished.live
    (fun other notOwn => (elsewhere other (apart other notOwn)).1)
    (fun other notOwn => (elsewhere other (apart other notOwn)).2)
    finished.use finished.pc ?_
  intro other unused
  have notGiven := Task.not_mem_returned unused
  rw [finished.returned, nothing] at notGiven
  have isOther : other ≠ index := by
    simpa using notGiven
  refine ⟨(elsewhere other isOther).1, (elsewhere other isOther).2, ?_⟩
  intro same isTask
  obtain rfl := Option.some.inj (was.symm.trans isTask)
  have notTaken : ¬ index = other := fun same => isOther same.symm
  simp [Task.uses, looking, nothing, TaskPc.taken, notTaken]

theorem look (step : LookStep state tid task use pc target)
    (slots : SlotInvariant target)
    (allowed : MatchesRested state (.step tid)) : FieldsInvariant target := by
  have array := inv.slots.tasks tid task was
  have known := inv.toolUse was looking
  have kept := given_of_searches looking
  have inSlots := inv.inSlots was
  cases step with
  | takes taken => exact inv.look_takes was looking taken slots
  | goes before after => exact inv.look_goes was looking before after slots
  | @finds index bounded same =>
      refine inv.look_finds was looking trivial bounded same ?_ slots
      intro ordinary absent
      exact allowed task use index was looking bounded same ordinary absent
  | misses =>
      exact inv.look_misses was looking trivial
        (array.scanned use _ looking) slots
  | initialises index => exact inv.look_initialises was looking slots
  | @hits index cached =>
      have given := array.cache index cached
      have own := array.returned index given
      obtain ⟨later, finished⟩ := known.finish_some tid given
        (inv.isSlot was own.1 own.2)
      exact inv.finished slots was finished inSlots (kept trivial)
  | fills index =>
      have given := (inv.tasks tid task was).2.fills use index looking
      have own := array.returned index given
      obtain ⟨later, finished⟩ :=
        (known.retask task.pc task.tlsCtx (state.slots index)).finish_some
          tid given (inv.isSlot was own.1 own.2)
      refine inv.finished slots was finished inSlots ?_
      intro other uses
      rcases (task.uses_iff other).mp uses with isGiven | isTaken
      · exact isGiven
      · rw [looking] at isTaken
        cases isTaken

end Steps

theorem start : FieldsInvariant slotStart where
  slots := slotInvariant_start
  tasks := by
    intro tid task live
    cases live
  rested := by
    intro index _ _ _
    exact FieldsFit.zero

/-- A new thread has no slot and no open section. -/
theorem fresh (state : SlotState) (threadFn : ThreadFn) :
    ToolUse state (.fresh threadFn) none where
  sections := by
    intro section_ member
    cases member
  counts := by
    intro ctx isUse
    cases isUse
  leaves := by
    intro isUse
    cases isUse
  starts := by
    intro isUse
    cases isUse
  fits := by
    intro index member
    cases member
  outside := by
    intro index member
    cases member
  rested := by
    intro _ index member
    cases member
  unhooked := by
    intro _ _
    refine ⟨rfl, ?_⟩
    intro current isUse
    cases isUse
  seen := by
    intro _ fields isSeen
    cases isSeen

theorem exit (inv : FieldsInvariant state)
    (slots : SlotInvariant (state.exit tid task))
    (was : state.live tid = some task) :
    FieldsInvariant (state.exit tid task) where
  slots := slots
  tasks := by
    intro other otherTask otherLive
    by_cases same : other = tid
    · subst same
      rw [show (state.exit other task).live other = none from
        Function.update_self _ _ _] at otherLive
      cases otherLive
    · have before : state.live other = some otherTask :=
        (Function.update_of_ne same _ _).symm.trans otherLive
      obtain ⟨known, pc⟩ := inv.tasks other otherTask before
      refine ⟨known.frame (fun _ _ => rfl) ?_, pc⟩
      intro index given
      have unused : task.uses index = false := by
        by_contra uses
        have isTid := (inv.slots.tasks tid task was).slot_of_uses
          (by simpa using uses)
        have isOther :=
          ((inv.slots.tasks other otherTask before).returned index given).2
        exact same (isOther.symm.trans isTid)
      simp [SlotState.exit, unused]
  rested := by
    intro index bounded rests unused
    simp only [SlotState.exit, Bool.or_eq_false_iff] at rests
    obtain ⟨rests, left⟩ := rests
    obtain ⟨known, pc⟩ := inv.tasks tid task was
    cases uses : task.uses index with
    | false =>
        refine inv.rested index bounded rests ?_
        intro other otherTask otherLive
        by_cases same : other = tid
        · subst same
          obtain rfl := Option.some.inj (was.symm.trans otherLive)
          exact uses
        · apply unused other otherTask
          exact (Function.update_of_ne same _ _).trans otherLive
    | true =>
        rw [uses, Bool.true_and] at left
        simp only [Task.busy, Bool.or_eq_false_iff, Bool.not_eq_false',
          List.isEmpty_iff] at left
        obtain ⟨noSections, notTaken⟩ := left
        rcases (task.uses_iff index).mp uses with given | isTaken
        · have fit := known.fits index given rests
          rw [noSections] at fit
          exact fit
        · rw [isTaken] at notTaken
          cases notTaken

/-- A thread that runs starts a lookup or leaves a section. -/
theorem runs (inv : FieldsInvariant state) (slots : SlotInvariant target)
    (was : state.live tid = some task) (running : task.pc = .running)
    {later : Task} (finished : Finished state target tid task.returned later) :
    FieldsInvariant target := by
  refine inv.finished slots was finished ?_ ?_
  · intro index given
    exact ((inv.slots.tasks tid task was).returned index given).2
  · intro index uses
    rcases (task.uses_iff index).mp uses with given | isTaken
    · exact given
    · rw [running] at isTaken
      cases isTaken

theorem looks (inv : FieldsInvariant state)
    (was : state.live tid = some task) (running : task.pc = .running)
    (slots : SlotInvariant (state.setTask tid (task.look use)))
    (own : ToolUse state (task.look use) (some use)) :
    FieldsInvariant (state.setTask tid (task.look use)) :=
  inv.runs slots was running
    ⟨rfl, fun _ _ => rfl, rfl, own.frame (fun _ _ => rfl) fun _ _ => rfl,
      .of_starts (task.look_starts use), rfl⟩

theorem call (inv : FieldsInvariant state)
    (was : state.live tid = some task) (running : task.pc = .running)
    (may : task.mayCall use = true)
    (slots : SlotInvariant (state.setTask tid (task.look use))) :
    FieldsInvariant (state.setTask tid (task.look use)) := by
  have known : ToolUse state task none := by
    simpa [running, TaskPc.use] using (inv.tasks tid task was).1
  refine inv.looks was running slots (known.look ?_ ?_ ?_ ?_ ?_)
  · rintro ctx rfl
    cases may
  · rintro rfl
    cases may
  · rintro rfl
    simp only [Task.mayCall, Bool.decide_and, Bool.and_eq_true,
      decide_eq_true_eq] at may
    exact may.2
  · intro _ _ _ counting
    cases use with
    | hookCtx | incDepth => cases may
    | bare | hookEnter | decDepth | opens => exact counting.elim
  · intro ordinary unhooked
    cases use with
    | bare | hookEnter => trivial
    | hookCtx | incDepth | decDepth => cases may
    | opens name =>
        cases name <;> simp [Task.mayCall, ordinary, unhooked] at may

theorem leave_section (inv : FieldsInvariant state)
    (was : state.live tid = some task) (running : task.pc = .running)
    {innermost : ToolSection} {rest : List ToolSection}
    (sections : task.sections = innermost :: rest)
    (other : innermost.isHook = false)
    (leaves : ∀ ctx, innermost ≠ .toolThread ctx)
    (slots : SlotInvariant ({ state with
      fields := closeSection state.fields innermost }.setTask tid
        { task with sections := rest })) :
    FieldsInvariant ({ state with
      fields := closeSection state.fields innermost }.setTask tid
        { task with sections := rest }) := by
  have known : ToolUse state task none := by
    simpa [running, TaskPc.use] using (inv.tasks tid task was).1
  have given : innermost.ctx ∈ task.returned := by
    apply known.sections
    rw [sections]
    exact List.mem_cons_self
  have own := (inv.slots.tasks tid task was).returned _ given
  have isSlot := inv.isSlot was own.1 own.2
  have closed : ToolUse
      { state with fields := closeSection state.fields innermost }
      { task with sections := rest } none := by
    refine known.change given isSlot rfl rfl ?_ ?_ ?_ known.seen
    · intro section_ member
      apply isSlot
      apply known.sections
      rw [sections]
      exact List.mem_cons_of_mem _ member
    · intro rests
      have fit := known.fits _ given rests
      rw [sections] at fit
      exact fit.close other leaves
    · intro ordinary
      by_contra unhooked
      have noSections :=
        (known.unhooked ordinary (by simpa using unhooked)).1
      rw [sections] at noSections
      cases noSections
  refine inv.runs slots was running ⟨rfl, ?_, rfl, ?_, ?_, rfl⟩
  · intro index absent
    apply closeSection_of_ne
    rintro rfl
    exact absent given
  · have noLookup : task.pc.use = none := by
      rw [running]
      rfl
    change ToolUse _ _ task.pc.use
    rw [noLookup]
    exact closed.frame (fun _ _ => rfl) fun _ _ => rfl
  · apply PcFits.of_starts
    simp [running, TaskPc.Starts]

theorem leave (inv : FieldsInvariant state)
    (was : state.live tid = some task) (running : task.pc = .running)
    (left : state.leave tid task = some target)
    (slots : SlotInvariant target) : FieldsInvariant target := by
  have known : ToolUse state task none := by
    simpa [running, TaskPc.use] using (inv.tasks tid task was).1
  cases sections : task.sections with
  | nil => simp [SlotState.leave, sections] at left
  | cons innermost rest =>
      cases innermost with
      | toolThread => simp [SlotState.leave, sections] at left
      | hook ctx saved =>
          simp only [SlotState.leave, sections, Option.some.injEq] at left
          subst left
          refine inv.looks was running slots (known.look ?_ ?_ ?_ ?_ ?_)
          · intro ctx isUse
            cases isUse
          · exact fun _ => ⟨ctx, saved, rest, sections⟩
          · intro isUse
            cases isUse
          · intro _ _ _ counting
            exact counting.elim
          · intro ordinary unhooked
            have noSections := (known.unhooked ordinary unhooked).1
            rw [sections] at noSections
            cases noSections
      | resolving | starting | capturing | quiet =>
          simp only [SlotState.leave, sections, Option.some.injEq] at left
          subst left
          refine inv.leave_section was running sections rfl ?_ slots
          intro ctx same
          cases same

/-- Every step keeps the fields of slots in use and at rest. -/
theorem next {label : SlotLabel} (inv : FieldsInvariant state)
    (allowed : KeepsFields state label)
    (taken : slotNext state label = some target) : FieldsInvariant target := by
  have slots := inv.slots.next allowed.1 taken
  cases label with
  | create tid threadFn =>
      simp only [slotNext] at taken
      split_ifs at taken with may
      cases taken
      refine inv.moves slots rfl (fun _ _ => rfl) (fun _ _ => rfl)
        ((fresh state threadFn).frame (fun _ _ => rfl) fun _ _ => rfl)
        (.of_starts trivial) ?_
      intro index _
      refine ⟨rfl, rfl, ?_⟩
      intro task live
      rw [may.2] at live
      cases live
  | exit tid =>
      obtain ⟨task, live, rfl⟩ := Option.map_eq_some_iff.mp taken
      exact inv.exit slots live
  | call tid use =>
      obtain ⟨task, live, called⟩ := Option.bind_eq_some_iff.mp taken
      split_ifs at called with may
      cases called
      exact inv.call live may.1 may.2 slots
  | leave tid =>
      obtain ⟨task, live, left⟩ := Option.bind_eq_some_iff.mp taken
      split_ifs at left with running
      exact inv.leave live running left slots
  | step tid =>
      obtain ⟨task, live, stepped⟩ := Option.bind_eq_some_iff.mp taken
      cases looking : task.pc with
      | running => simp [looking] at stepped
      | looking use pc =>
          simp only [looking, Option.some.injEq] at stepped
          subst stepped
          exact inv.look live looking (lookStep_cases state tid task use pc)
            slots allowed.2

end FieldsInvariant

/-- Every ordinary thread's first hook call read zeros. -/
def FirstHooksClean (state : SlotState) : Prop :=
  ∀ tid task fields, state.live tid = some task →
    task.threadFn = .ordinary → task.seen = some fields → fields.ReadsZero

theorem FieldsInvariant.clean {state : SlotState}
    (inv : FieldsInvariant state) : FirstHooksClean state := by
  intro tid task fields live ordinary seen
  exact (inv.tasks tid task live).1.seen ordinary fields seen

theorem fieldsInvariant_of_keepsFields {state : SlotState}
    (reachable : slotSystem.ReachableBy KeepsFields state) :
    FieldsInvariant state :=
  reachable.invariant FieldsInvariant
    (by
      rintro state rfl
      exact .start)
    (fun _ _ _ inv allowed taken => inv.next allowed taken)

/-- While reclaimed IDs are dead and new threads match slots at rest only, the
first hook call of an ordinary thread reads zeros. -/
theorem firstHooksClean_of_keepsFields {state : SlotState}
    (reachable : slotSystem.ReachableBy KeepsFields state) :
    FirstHooksClean state :=
  (fieldsInvariant_of_keepsFields reachable).clean

/-! ## The depth that is stored -/

/-- What holds of the depth in a fresh slot and whatever the hooks do to it;
no other code writes the two fields. -/
structure DepthProperty (holds : MttPerThread → Prop) : Prop where
  zero : holds .zero
  taken : holds .taken
  enter : ∀ fields, holds fields → holds (mttHookEnter fields)
  count : ∀ fields, holds fields → holds (mttHookIncDepth fields)
  uncount : ∀ fields, holds fields → holds (mttHookDecDepth fields)
  others : ∀ fields later, holds fields →
    later.hookDepth = fields.hookDepth →
    later.depthInited = fields.depthInited → holds later

namespace DepthProperty

variable {holds : MttPerThread → Prop} (property : DepthProperty holds)
  {fields : Nat → MttPerThread} (each : ∀ index, holds (fields index))

theorem update (each : ∀ index, holds (fields index)) (slot : Nat)
    {later : MttPerThread} (kept : holds later) :
    ∀ index, holds (Function.update fields slot later index) := by
  intro index
  rw [Function.update_apply]
  split
  · exact kept
  · exact each index

theorem changeAt {change : MttPerThread → MttPerThread}
    (keeps : ∀ fields, holds fields → holds (change fields))
    (each : ∀ index, holds (fields index)) (result : Option Nat) :
    ∀ index, holds (Slots.changeAt change fields result index) := by
  cases result with
  | none => exact each
  | some index => exact update each index (keeps _ (each index))

include property each

theorem closeSection (section_ : ToolSection) :
    ∀ index, holds (Slots.closeSection fields section_ index) := by
  cases section_ with
  | hook ctx | resolving ctx | starting ctx | capturing ctx | quiet ctx =>
      exact update each ctx (property.others _ _ (each ctx) rfl rfl)
  | toolThread => exact each

omit each in
theorem openSection {threadFn : ThreadFn} {ctx : Nat}
    {fields opened : MttPerThread} {name : SectionName}
    {added : List ToolSection} (kept : holds fields)
    (opens : Slots.openSection threadFn ctx fields name =
      some (opened, added)) : holds opened := by
  cases name with
  | resolve | capture =>
      simp only [Slots.openSection] at opens
      split_ifs at opens
      cases opens
      exact property.others _ _ kept rfl rfl
  | start | dataRead =>
      cases opens
      exact property.others _ _ kept rfl rfl
  | threadFn =>
      cases threadFn with
      | ordinary => cases opens
      | http | signal | reporter =>
          cases opens
          exact property.others _ _ kept rfl rfl

theorem resume (task : Task) (use : LookupUse) (result : Option Nat) :
    ∀ index, holds ((Slots.resume task fields use result).1 index) := by
  cases use with
  | bare => exact each
  | hookEnter hook =>
      cases result with
      | none => exact each
      | some index => exact update each index (property.enter _ (each index))
  | hookCtx hook => cases result <;> exact each
  | incDepth ctx =>
      have counted := changeAt property.count each result
      exact update counted ctx (property.others _ _ (counted ctx) rfl rfl)
  | decDepth =>
      simp only [Slots.resume]
      split
      · exact each
      · exact property.closeSection (changeAt property.uncount each result) _
  | opens name =>
      cases result with
      | none => exact each
      | some ctx =>
          simp only [Slots.resume]
          split
          · exact each
          · rename_i opened added opens
            exact update each ctx (property.openSection (each ctx) opens)

omit each

theorem found {state : SlotState}
    (each : ∀ index, holds (state.fields index))
    (tid : Tid) (task : Task) (use : LookupUse) (slot : Nat) :
    ∀ index, holds ((state.found tid task use slot).fields index) := by
  unfold SlotState.found
  cases use.cached with
  | true => exact each
  | false => exact property.resume each _ use (some slot)

theorem look {state target : SlotState} {tid : Tid} {task : Task}
    {use : LookupUse} {pc : ScanPc}
    (each : ∀ index, holds (state.fields index))
    (step : LookStep state tid task use pc target) :
    ∀ index, holds (target.fields index) := by
  cases step with
  | takes | goes => exact each
  | finds => exact property.found each _ _ _ _
  | misses =>
      unfold SlotState.missed
      cases use.cached <;> exact property.resume each _ use none
  | initialises index =>
      exact property.found (update each index property.taken) _ _ _ _
  | hits => exact property.resume each _ _ _
  | fills => exact property.resume each _ _ _

theorem next {state target : SlotState} {label : SlotLabel}
    (each : ∀ index, holds (state.fields index))
    (taken : slotNext state label = some target) :
    ∀ index, holds (target.fields index) := by
  cases label with
  | create tid threadFn =>
      simp only [slotNext] at taken
      split_ifs at taken
      cases taken
      exact each
  | exit tid =>
      obtain ⟨task, -, rfl⟩ := Option.map_eq_some_iff.mp taken
      exact each
  | call tid use =>
      obtain ⟨task, -, called⟩ := Option.bind_eq_some_iff.mp taken
      split_ifs at called
      cases called
      exact each
  | leave tid =>
      obtain ⟨task, -, left⟩ := Option.bind_eq_some_iff.mp taken
      split_ifs at left
      simp only [SlotState.leave] at left
      split at left <;> cases left
      · exact each
      · exact property.closeSection each _
  | step tid =>
      obtain ⟨task, -, stepped⟩ := Option.bind_eq_some_iff.mp taken
      cases looking : task.pc with
      | running => simp [looking] at stepped
      | looking use pc =>
          simp only [looking, Option.some.injEq] at stepped
          subst stepped
          exact property.look each (lookStep_cases state tid task use pc)

theorem reachable {state : SlotState}
    (reachable : slotSystem.Reachable state) (index : Nat) :
    holds (state.fields index) :=
  reachable.invariant (fun state => ∀ index, holds (state.fields index))
    (by
      rintro state rfl index
      exact property.zero)
    (fun _ _ _ each _ taken => property.next each taken) index

end DepthProperty

theorem depthProperty_bounded :
    DepthProperty fun fields => fields.hookDepth ≤ mttHookDepthMax where
  zero := Int.natCast_nonneg _
  taken := by decide
  enter := by
    intro fields bounded
    unfold mttHookEnter
    split_ifs
    · exact Int.natCast_nonneg _
    · exact Int.natCast_nonneg _
    · exact bounded
  count := by
    intro fields bounded
    simp only [mttHookIncDepth]
    by_cases inited : fields.depthInited = depthSentinel
    · simp only [inited, if_true]
      split
      · exact bounded
      · rename_i below
        exact Int.add_one_le_of_lt (not_le.mp below)
    · have below : ¬ (mttHookDepthMax : Int) ≤ 0 := by decide
      simp only [inited, if_false, below]
      exact Int.add_one_le_of_lt (by decide)
  uncount := by
    intro fields bounded
    unfold mttHookDecDepth
    split
    · exact (Int.sub_le_self _ (by decide)).trans bounded
    · exact Int.natCast_nonneg _
  others := by
    intro fields later bounded same _
    rw [same]
    exact bounded

theorem mttHookEnter_of_inited {state : SlotState}
    (reachable : slotSystem.Reachable state) {index : Nat}
    (inited : (state.fields index).depthInited = depthSentinel) :
    mttHookEnter (state.fields index) = state.fields index := by
  have bounded := depthProperty_bounded.reachable reachable index
  unfold mttHookEnter
  rw [if_neg (not_not.mpr inited), if_neg (not_lt.mpr bounded)]

/-! ## A first hook call on a matched slot -/

theorem CalmStep.keepsFields {state : SlotState} {label : SlotLabel}
    (calm : CalmStep state label) : KeepsFields state label := by
  refine ⟨calm.reclaimsDead, ?_⟩
  cases label with
  | create | exit | call | leave => trivial
  | step tid =>
      intro task use index live looking bounded same
      exact absurd same (calm task use _ live looking bounded)

/-- A new thread whose ID is in the first slot calls `malloc`. -/
theorem exists_firstHook {state : SlotState} {tid : Tid} (nonzero : tid ≠ 0)
    (dead : state.live tid = none) (matched : state.slots 0 = tid)
    {guard : SlotState → SlotLabel → Prop}
    (calm : ∀ state label, CalmStep state label → guard state label)
    (finds : guard (state.at tid (.fresh .ordinary) (.hookEnter .malloc)
      (.find 0)) (.step tid)) :
    ∃ target task, slotSystem.StepsBy guard state target ∧
      target.live tid = some task ∧ task.threadFn = .ordinary ∧
      task.seen = some (mttHookEnter (state.fields 0)) := by
  let given : Task :=
    { Task.fresh .ordinary with returned := [0], tlsCtx := some 0 }
  have created : slotSystem.next state (.create tid .ordinary) =
      some (state.setTask tid (.fresh .ordinary)) := by
    simp [slotSystem, slotNext, nonzero, dead]
  have called : slotSystem.next (state.setTask tid (.fresh .ordinary))
      (.call tid (.hookEnter .malloc)) =
      some (state.at tid (.fresh .ordinary) (.hookEnter .malloc) .cached) := by
    simp [slotSystem, slotNext, SlotState.setTask, SlotState.at, Task.fresh,
      Task.mayCall, Task.look, LookupUse.cached]
  have start : slotSystem.StepsBy guard state
      (state.at tid (.fresh .ordinary) (.hookEnter .malloc) .cached) := by
    refine .tail (.tail (.refl state) (calm _ _ ?_) created) (calm _ _ ?_)
      called <;> trivial
  have missed : slotSystem.StepsBy CalmStep
      (state.at tid (.fresh .ordinary) (.hookEnter .malloc) .cached)
      (state.at tid (.fresh .ordinary) (.hookEnter .malloc) (.find 0)) := by
    refine steps_at _ _ trivial ?_
    simp [SlotState.lookStep, Task.fresh, Task.goto]
    rfl
  have found : slotSystem.next
      (state.at tid (.fresh .ordinary) (.hookEnter .malloc) (.find 0))
      (.step tid) =
      some (state.at tid given (.hookEnter .malloc) (.fill 0)) := by
    refine (state.next_at tid _ _ _).trans ?_
    simp [SlotState.lookStep, mttMaxThreads, matched, SlotState.found,
      LookupUse.cached, given, Task.goto]
    rfl
  have filled := state.next_at tid given (.hookEnter .malloc) (.fill 0)
  refine ⟨_, _, .tail (.tail (start.trans (missed.mono calm)) finds found)
    (calm _ _ (CalmStep.at _ _ _ _ trivial)) filled,
    Function.update_self _ _ _, ?_, ?_⟩
  · split <;> rfl
  · simp only
    split <;> rfl

theorem KeepsFields.at_find {state : SlotState} {tid : Tid} {task : Task}
    {use : LookupUse} {index : Nat} (rested : state.abandoned index = false) :
    KeepsFields (state.at tid task use (.find index)) (.step tid) := by
  constructor
  · intro other laterUse place owner live looking
    have isTask : task.goto (.looking use (.find index)) = other := by
      simpa using live
    subst isTask
    obtain ⟨-, same⟩ := TaskPc.looking.inj looking
    cases same
  · intro other laterUse place live looking _ _ _ _
    have isTask : task.goto (.looking use (.find index)) = other := by
      simpa using live
    subst isTask
    obtain ⟨-, same⟩ := TaskPc.looking.inj looking
    obtain rfl := ScanPc.find.inj same
    exact rested

theorem slotStart_absent (tid : Tid) (nonzero : tid ≠ 0) :
    ∀ index < mttMaxThreads, slotStart.slots index ≠ tid :=
  fun _ _ => nonzero.symm

/-- A thread that exits at rest leaves its slot to one with the same ID. -/
theorem firstHooksClean_of_restedExit : ∃ state task fields,
    slotSystem.ReachableBy KeepsFields state ∧ state.live 1 = some task ∧
      task.seen = some fields ∧ FirstHooksClean state := by
  have taken : slotSystem.StepsBy CalmStep slotStart
      ((slotStart.setSlot 0 1).at 1 (.fresh .ordinary) (.bare false)
        (.init 0)) :=
    steps_taken one_ne_zero rfl (slotStart_absent 1 one_ne_zero)
      (by decide) (fun index earlier => absurd earlier (Nat.not_lt_zero _))
      rfl rfl rfl
  have given := (taken.trans (steps_init .ordinary)).mono
    fun _ _ => CalmStep.keepsFields
  let task : Task :=
    { Task.fresh .ordinary with pc := .running, returned := [0] }
  let rested := (slotStart.given 1 (.fresh .ordinary) 0).exit 1 task
  have exited : slotSystem.next (slotStart.given 1 (.fresh .ordinary) 0)
      (.exit 1) = some rested := rfl
  have reachable : slotSystem.ReachableBy KeepsFields rested := by
    have start : slotSystem.ReachableBy KeepsFields slotStart := .start rfl
    refine (start.extend given).step (CalmStep.keepsFields ?_) exited
    trivial
  obtain ⟨target, last, steps, live, -, seen⟩ :=
    @exists_firstHook rested 1 one_ne_zero rfl rfl KeepsFields
      (fun _ _ => CalmStep.keepsFields) (KeepsFields.at_find rfl)
  exact ⟨target, last, _, reachable.extend steps, live, seen,
    firstHooksClean_of_keepsFields (reachable.extend steps)⟩

/-- An HTTP thread exits, and its ID is given to a new thread. -/
theorem firstHook_sees_toolInternal :
    ¬ ∀ state, slotSystem.Reachable state → FirstHooksClean state := by
  intro clean
  have taken : slotSystem.StepsBy CalmStep slotStart
      ((slotStart.setSlot 0 1).at 1 (.fresh .http) (.opens .threadFn)
        (.init 0)) :=
    steps_taken one_ne_zero rfl (slotStart_absent 1 one_ne_zero)
      (by decide) (fun index earlier => absurd earlier (Nat.not_lt_zero _))
      rfl rfl rfl
  have marked := (slotStart.setSlot 0 1).next_at 1 (.fresh .http)
    (.opens .threadFn) (.init 0)
  let left := ((slotStart.setSlot 0 1).at 1 (.fresh .http) (.opens .threadFn)
    (.init 0)).lookStep 1 ((Task.fresh .http).goto
      (.looking (.opens .threadFn) (.init 0))) (.opens .threadFn) (.init 0)
  let task : Task :=
    { Task.fresh .http with
      pc := .running, sections := [.toolThread 0], returned := [0] }
  have exited : slotSystem.next left (.exit 1) = some (left.exit 1 task) := rfl
  have reachable : slotSystem.Reachable (left.exit 1 task) := by
    have start : slotSystem.ReachableBy CalmStep slotStart := .start rfl
    have took := (start.extend taken).mono fun _ _ _ => trivial
    exact (took.step trivial marked).step trivial exited
  obtain ⟨target, last, steps, live, ordinary, seen⟩ :=
    @exists_firstHook (left.exit 1 task) 1 one_ne_zero rfl rfl
      (fun _ _ => True) (fun _ _ _ => trivial) trivial
  have zeros := clean target (reachable.extend steps) 1 last _ live ordinary
    seen
  exact one_ne_zero zeros.2.2.2

end MemoryTraceTool.Slots
