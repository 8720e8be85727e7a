import MemoryTraceTool.CaptureStack
import MemoryTraceTool.HttpJson
import MemoryTraceTool.LibBlacklist

/-!
# The frames that are shown

The text report, the folded file for flame graphs and the dashboard each leave
out internal frames, and each has its own filter: `is_internal_frame` in
`reporter.c`, the macro `IS_INTERNAL` in `flamegraph.c` and the condition in
`write_leak_json`.  Only the first one looks at `MTT_LIB_BLACKLIST`.
-/

namespace MemoryTraceTool.FrameFilters

open Json LibBlacklist

/-! ## The filters -/

/-- `is_internal_frame`, with `lib_blacklist` if that is ready. -/
def isInternalFrame (libBlacklist : Option Bytes) (symbol : Bytes) : Bool :=
  if symbol = [] then true
  else if ascii "libmemorytracetool" <:+: symbol then true
  else if ascii "mtt_" <+: symbol then true
  else if ascii "capture_stack" <:+: symbol then true
  else if ascii "backtrace" <:+: symbol then true
  else if ascii "__libc_start" <:+: symbol then false
  else
    match libBlacklist with
    | none => false
    | some blist => searchTokens symbol (strtokComma blist)

/-- `IS_INTERNAL` -/
def isInternal (sym : Bytes) : Bool :=
  sym == [] || decide (ascii "libmemorytracetool" <:+: sym) ||
    decide (ascii "mtt_" <+: sym) || decide (ascii "capture_stack" <:+: sym) ||
    decide (ascii "backtrace" <:+: sym)

/-! ## The outputs -/

/-- An entry as the cache holds it. -/
structure StackEntry where
  entry : ResolvedStack
  few : entry.frames.length ≤ mttStackDepth

def StackEntry.symbols (stack : StackEntry) : List Bytes :=
  stack.entry.frames.map ResolvedFrame.resolved

/-- `"  #%-2d %s%s\n"`. -/
def frameLine (frameIdx : Nat) (sym : Bytes) : Bytes :=
  let index := decimal frameIdx
  ascii "  #" ++ index ++ List.replicate (2 - index.length) 32 ++ [32] ++
    sym ++ (if frameIdx = 0 then ascii "  <-- LEAK HERE" else []) ++ [10]

/-- One turn of the report's loop; the number is `frame_idx`. -/
def writeFrameLine (libBlacklist : Option Bytes) (state : Bytes × Nat)
    (sym : Bytes) : Bytes × Nat :=
  if isInternalFrame libBlacklist sym then state
  else (state.1 ++ frameLine state.2 sym, state.2 + 1)

/-- The stack trace of a leak in the report. -/
def writeStackTrace (libBlacklist : Option Bytes) (stack : StackEntry) :
    Bytes :=
  if stack.entry.isResolved then
    (stack.symbols.foldl (writeFrameLine libBlacklist) ([], 0)).1
  else ascii "  (symbols not resolved)\n"

/-- A frame up to its parenthesis, without the blanks before that. -/
def foldedName (sym : Bytes) : Bytes :=
  let paren := sym.idxOf 40
  let name :=
    if paren < sym.length ∧ 0 < paren then
      ((sym.take paren).reverse.dropWhile fun byte => byte == 32).reverse
    else sym
  name.take 255

/-- One turn of the collecting loop of the folded file. -/
def collectFrame (frames : List Bytes) (sym : Bytes) : List Bytes :=
  if frames.length < mttStackDepth then
    if isInternal sym then frames else frames ++ [foldedName sym]
  else frames

/-- A line of the folded file, from the bottom of the stack to its top. -/
def foldedText (names : List Bytes) (totalSize : Nat) : Bytes :=
  if names = [] then []
  else
    List.intercalate [59] names.reverse ++ [32] ++ decimal totalSize ++ [10]

def writeFolded (stack : StackEntry) (totalSize : Nat) : Bytes :=
  if stack.entry.isResolved then
    foldedText (stack.symbols.foldl collectFrame []) totalSize
  else []

/-! ## One symbol -/

/-- The list of libraries alone hides this symbol. -/
structure OnlyBlacklisted (libBlacklist : Option Bytes) (symbol : Bytes) :
    Prop where
  visible : isInternal symbol = false
  notStart : ¬ ascii "__libc_start" <:+: symbol
  listed : ∃ blist, libBlacklist = some blist ∧
    ∃ token ∈ libTokens blist, token <:+: symbol

/-- The three filters decide the same. -/
structure FiltersAgree (libBlacklist : Option Bytes) (symbol : Bytes) :
    Prop where
  folded : isInternalFrame libBlacklist symbol = isInternal symbol
  dashboard : isInternal symbol = MemoryTraceTool.isInternalFrame symbol

/-- The macro and the condition in `write_leak_json` are the same. -/
theorem isInternal_eq (symbol : Bytes) :
    isInternal symbol = MemoryTraceTool.isInternalFrame symbol := rfl

theorem isInternalFrame_of_isInternal {symbol : Bytes}
    (libBlacklist : Option Bytes) (internal : isInternal symbol = true) :
    isInternalFrame libBlacklist symbol = true := by
  simp only [isInternal, Bool.or_eq_true, beq_iff_eq, decide_eq_true_eq]
    at internal
  unfold isInternalFrame
  split_ifs <;> simp_all

theorem isInternalFrame_visible {symbol : Bytes}
    {libBlacklist : Option Bytes} (visible : isInternal symbol = false) :
    isInternalFrame libBlacklist symbol = true ↔
      OnlyBlacklisted libBlacklist symbol := by
  have checks := visible
  simp only [isInternal, Bool.or_eq_false_iff, beq_eq_false_iff_ne,
    decide_eq_false_iff_not] at checks
  obtain ⟨⟨⟨⟨nonempty, noTool⟩, noPrefix⟩, noCapture⟩, noBacktrace⟩ := checks
  unfold isInternalFrame
  rw [if_neg nonempty, if_neg noTool, if_neg noPrefix, if_neg noCapture,
    if_neg noBacktrace]
  by_cases start : ascii "__libc_start" <:+: symbol
  · rw [if_pos start]
    constructor
    · intro hidden
      cases hidden
    · intro only
      exact absurd start only.notStart
  · rw [if_neg start]
    cases libBlacklist with
    | none =>
        constructor
        · intro hidden
          cases hidden
        · rintro ⟨_, _, blist, missing, _⟩
          cases missing
    | some blist =>
        dsimp only
        rw [searchTokens_strtokComma]
        constructor
        · intro listed
          exact ⟨visible, start, blist, rfl, listed⟩
        · rintro ⟨_, _, listing, same, listed⟩
          cases same
          exact listed

theorem isInternalFrame_eq_true {symbol : Bytes}
    {libBlacklist : Option Bytes} :
    isInternalFrame libBlacklist symbol = true ↔
      isInternal symbol = true ∨ OnlyBlacklisted libBlacklist symbol := by
  cases visible : isInternal symbol with
  | true => simp [isInternalFrame_of_isInternal libBlacklist visible]
  | false => simp [isInternalFrame_visible visible]

theorem filtersAgree_iff {libBlacklist : Option Bytes} {symbol : Bytes} :
    FiltersAgree libBlacklist symbol ↔
      ¬ OnlyBlacklisted libBlacklist symbol := by
  constructor
  · rintro ⟨same, _⟩ only
    have hidden := isInternalFrame_eq_true.mpr (.inr only)
    rw [same, only.visible] at hidden
    cases hidden
  · intro other
    refine ⟨?_, isInternal_eq symbol⟩
    rw [Bool.eq_iff_iff, isInternalFrame_eq_true]
    exact or_iff_left other

/-! ## One stack -/

/-- The lines of some frames, the first with the given number. -/
def linesFrom : Nat → List Bytes → Bytes
  | _, [] => []
  | frameIdx, frame :: rest =>
      frameLine frameIdx frame ++ linesFrom (frameIdx + 1) rest

def visibleFrames (stack : StackEntry) : List Bytes :=
  stack.symbols.filter fun sym => !isInternal sym

def reportFrames (libBlacklist : Option Bytes) (stack : StackEntry) :
    List Bytes :=
  stack.symbols.filter fun sym => !isInternalFrame libBlacklist sym

theorem foldl_writeFrameLine (libBlacklist : Option Bytes)
    (symbols : List Bytes) (state : Bytes × Nat) :
    (symbols.foldl (writeFrameLine libBlacklist) state).1 =
      state.1 ++ linesFrom state.2 (symbols.filter fun sym =>
        !isInternalFrame libBlacklist sym) := by
  induction symbols generalizing state with
  | nil => simp [linesFrom]
  | cons sym symbols induction =>
      rw [List.foldl_cons, induction, writeFrameLine]
      cases hidden : isInternalFrame libBlacklist sym with
      | true => simp [hidden]
      | false => simp [hidden, linesFrom]

theorem writeStackTrace_eq {libBlacklist : Option Bytes} {stack : StackEntry}
    (resolved : stack.entry.isResolved = true) :
    writeStackTrace libBlacklist stack =
      linesFrom 0 (reportFrames libBlacklist stack) := by
  rw [writeStackTrace, if_pos resolved, foldl_writeFrameLine]
  rfl

theorem foldl_collectFrame (symbols names : List Bytes)
    (room : names.length + symbols.length ≤ mttStackDepth) :
    symbols.foldl collectFrame names =
      names ++ (symbols.filter fun sym => !isInternal sym).map foldedName := by
  induction symbols generalizing names with
  | nil => simp
  | cons sym symbols induction =>
      rw [List.length_cons] at room
      rw [List.foldl_cons, collectFrame, if_pos (by omega)]
      cases hidden : isInternal sym with
      | true =>
          rw [if_pos rfl, induction names (by omega)]
          simp [hidden]
      | false =>
          have more : (names ++ [foldedName sym]).length + symbols.length ≤
              mttStackDepth := by
            rw [List.length_append, List.length_singleton]
            omega
          rw [if_neg Bool.false_ne_true, induction _ more]
          simp [hidden]

theorem writeFolded_eq {stack : StackEntry} (totalSize : Nat)
    (resolved : stack.entry.isResolved = true) :
    writeFolded stack totalSize =
      foldedText ((visibleFrames stack).map foldedName) totalSize := by
  have room : ([] : List Bytes).length + stack.symbols.length ≤
      mttStackDepth := by
    have few := stack.few
    simpa [StackEntry.symbols] using few
  rw [writeFolded, if_pos resolved, foldl_collectFrame _ _ room]
  rfl

theorem servedFrames_eq {stack : StackEntry}
    (visible : ∃ symbol ∈ stack.symbols, isInternal symbol = false) :
    servedFrames (some stack.entry) = visibleFrames stack := by
  obtain ⟨symbol, member, shown⟩ := visible
  have nonempty : visibleFrames stack ≠ [] := by
    have kept : symbol ∈ visibleFrames stack :=
      List.mem_filter.mpr ⟨member, by rw [shown]; rfl⟩
    exact List.ne_nil_of_mem kept
  exact if_pos nonempty

/-! ## How long the trace is -/

def plainLength (frameIdx : Nat) (sym : Bytes) : Nat :=
  5 + max 2 (decimal frameIdx).length + sym.length

theorem length_frameLine (frameIdx : Nat) (sym : Bytes) :
    (frameLine frameIdx sym).length =
      plainLength frameIdx sym + if frameIdx = 0 then 15 else 0 := by
  have hash : (ascii "  #").length = 3 := rfl
  have marker : (ascii "  <-- LEAK HERE").length = 15 := rfl
  rw [frameLine, plainLength]
  simp only [List.length_append, List.length_replicate, List.length_cons,
    List.length_nil, hash]
  split
  · rw [marker]
    omega
  · rw [List.length_nil]
    omega

theorem decimal_length_mono {first second : Nat} (le : first ≤ second) :
    (decimal first).length ≤ (decimal second).length := by
  have lengths := Nat.le_length_digits_le 10 first second le
  rw [decimal, decimal, List.length_map, List.length_map, digits, digits]
  by_cases zero : second = 0
  · rw [if_pos zero, if_pos (by omega)]
  · have nonempty := List.length_pos_iff.mpr
      (Nat.digits_ne_nil_iff_ne_zero (b := 10).mpr zero)
    rw [if_neg zero]
    split
    · rw [List.length_reverse]
      exact nonempty
    · simpa using lengths

def plainTotal : Nat → List Bytes → Nat
  | _, [] => 0
  | frameIdx, frame :: rest =>
      plainLength frameIdx frame + plainTotal (frameIdx + 1) rest

theorem length_linesFrom_succ (frameIdx : Nat) (frames : List Bytes) :
    (linesFrom (frameIdx + 1) frames).length =
      plainTotal (frameIdx + 1) frames := by
  induction frames generalizing frameIdx with
  | nil => rfl
  | cons frame frames induction =>
      rw [linesFrom, plainTotal, List.length_append, length_frameLine,
        induction, if_neg (Nat.succ_ne_zero frameIdx), Nat.add_zero]

/-- Each frame that is left out makes the lines shorter. -/
theorem plainTotal_sublist {kept all : List Bytes} (sublist : kept.Sublist all)
    {first second : Nat} (le : first ≤ second) :
    plainTotal first kept + all.length ≤
      plainTotal second all + kept.length := by
  induction sublist generalizing first second with
  | slnil => simp [plainTotal]
  | cons frame _ induction =>
      have rest := induction (Nat.le_add_right_of_le le : first ≤ second + 1)
      rw [plainTotal, plainLength, List.length_cons]
      omega
  | cons_cons frame _ induction =>
      have rest := induction (Nat.add_le_add_right le 1)
      have index := decimal_length_mono le
      rw [plainTotal, plainTotal, plainLength, plainLength, List.length_cons,
        List.length_cons]
      omega

/-- A trace of fewer frames of a stack is another text. -/
theorem linesFrom_sublist_inj {kept all : List Bytes}
    (sublist : kept.Sublist all)
    (same : linesFrom 0 kept = linesFrom 0 all) : kept = all := by
  have lengths := congrArg List.length same
  have counts := plainTotal_sublist sublist (Nat.le_refl 0)
  have fewer := sublist.length_le
  apply sublist.eq_of_length_le
  cases kept with
  | nil =>
      cases all with
      | nil => rfl
      | cons frame all =>
          rw [linesFrom, linesFrom, List.length_nil, List.length_append,
            length_frameLine, plainLength] at lengths
          omega
  | cons first kept =>
      cases all with
      | nil => simp at fewer
      | cons frame all =>
          simp only [linesFrom, List.length_append, length_frameLine,
            length_linesFrom_succ] at lengths
          simp only [plainTotal] at counts
          omega

/-! ## The three outputs -/

/-- The report, the folded file and the dashboard show the same frames. -/
def SameFrames (libBlacklist : Option Bytes) (stack : StackEntry)
    (totalSize : Nat) : Prop :=
  ∃ frames, writeStackTrace libBlacklist stack = linesFrom 0 frames ∧
    writeFolded stack totalSize =
      foldedText (frames.map foldedName) totalSize ∧
    servedFrames (some stack.entry) = frames

theorem reportFrames_sublist (libBlacklist : Option Bytes)
    (stack : StackEntry) :
    (reportFrames libBlacklist stack).Sublist (visibleFrames stack) := by
  apply List.monotone_filter_right
  intro symbol shown
  rw [Bool.not_eq_true'] at shown ⊢
  cases internal : isInternal symbol with
  | false => rfl
  | true =>
      rw [isInternalFrame_of_isInternal libBlacklist internal] at shown
      cases shown

theorem reportFrames_eq_iff {libBlacklist : Option Bytes}
    {stack : StackEntry} :
    reportFrames libBlacklist stack = visibleFrames stack ↔
      ∀ symbol ∈ stack.symbols, ¬ OnlyBlacklisted libBlacklist symbol := by
  constructor
  · intro same symbol member only
    have shown : symbol ∈ visibleFrames stack :=
      List.mem_filter.mpr ⟨member, by rw [only.visible]; rfl⟩
    rw [← same] at shown
    have kept := (List.mem_filter.mp shown).2
    rw [isInternalFrame_eq_true.mpr (.inr only)] at kept
    cases kept
  · intro none
    apply List.filter_congr
    intro symbol member
    rw [(filtersAgree_iff.mpr (none symbol member)).folded]

theorem sameFrames_iff {libBlacklist : Option Bytes} {stack : StackEntry}
    {totalSize : Nat} (resolved : stack.entry.isResolved = true)
    (visible : ∃ symbol ∈ stack.symbols, isInternal symbol = false) :
    SameFrames libBlacklist stack totalSize ↔
      ∀ symbol ∈ stack.symbols, ¬ OnlyBlacklisted libBlacklist symbol := by
  rw [← reportFrames_eq_iff, SameFrames, writeStackTrace_eq resolved,
    writeFolded_eq totalSize resolved, servedFrames_eq visible]
  constructor
  · rintro ⟨frames, report, _, rfl⟩
    exact linesFrom_sublist_inj (reportFrames_sublist libBlacklist stack)
      report
  · intro same
    exact ⟨visibleFrames stack, by rw [same], rfl, rfl⟩

/-- When the filters decide the same for a symbol, and when the outputs show
the same frames of a stack. -/
theorem filters_iff (env : Option Bytes) :
    (∀ symbol, FiltersAgree (readLibBlacklist env) symbol ↔
      ¬ OnlyBlacklisted (readLibBlacklist env) symbol) ∧
    ∀ (stack : StackEntry) (totalSize : Nat),
      stack.entry.isResolved = true →
      (∃ symbol ∈ stack.symbols, isInternal symbol = false) →
      (SameFrames (readLibBlacklist env) stack totalSize ↔
        ∀ symbol ∈ stack.symbols,
          ¬ OnlyBlacklisted (readLibBlacklist env) symbol) :=
  ⟨fun _ => filtersAgree_iff, fun _ _ => sameFrames_iff⟩

def listedFrame : Bytes := ascii "f+0x1 (libfoo.so+0x2)"

/-- A frame of the program above one of a listed library. -/
def mixedStack : StackEntry where
  entry :=
    { frames :=
        [{ address := 4096, resolved := listedFrame },
          { address := 8192, resolved := ascii "main+0x3 (app+0x4)" }]
      isResolved := true }
  few := by decide

theorem filters_iff_mixedStack :
    SameFrames (readLibBlacklist (some (ascii "libbar.so"))) mixedStack 24 ↔
      ∀ symbol ∈ mixedStack.symbols,
        ¬ OnlyBlacklisted (readLibBlacklist (some (ascii "libbar.so")))
          symbol :=
  (filters_iff (some (ascii "libbar.so"))).2 mixedStack 24 rfl
    ⟨listedFrame, by decide, by decide⟩

theorem onlyBlacklisted_listedFrame :
    OnlyBlacklisted (readLibBlacklist (some (ascii "libfoo.so")))
      listedFrame :=
  ⟨by decide, by decide, ascii "libfoo.so", rfl, ascii "libfoo.so",
    by decide, by decide⟩

theorem not_filtersAgree_listedFrame :
    ¬ FiltersAgree (readLibBlacklist (some (ascii "libfoo.so")))
        listedFrame ∧
      ¬ SameFrames (readLibBlacklist (some (ascii "libfoo.so")))
        mixedStack 24 := by
  have only := onlyBlacklisted_listedFrame
  have visible : ∃ symbol ∈ mixedStack.symbols, isInternal symbol = false :=
    ⟨listedFrame, by decide, by decide⟩
  refine ⟨fun agree => filtersAgree_iff.mp agree only, fun same => ?_⟩
  exact (sameFrames_iff rfl visible).mp same listedFrame (by decide) only

end MemoryTraceTool.FrameFilters
