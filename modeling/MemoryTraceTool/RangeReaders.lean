import MemoryTraceTool.AddrValidate
import MemoryTraceTool.Lib.Transition

/-!
# Queries while the ranges are refreshed

`mtt_addr_is_executable` searches `g_ranges` without a lock.  A refresh, and
the parse of the first query, copy their ranges into the array one word after
the other and store the number of ranges last, while searches go on.
-/

namespace MemoryTraceTool.RangeReaders

open AddrValidate Transition

/-! ## The array and the threads -/

/-- The fields of an `exec_range_t` that a search reads. -/
inductive Bound where
  | lo
  | hi
  deriving DecidableEq, Repr

variable {w : Nat}

def boundOf (range : ExecRange w) : Bound → BitVec w
  | .lo => range.lo
  | .hi => range.hi

/-- The words that `memcpy` writes. -/
def wordsOf (tmp : List (ExecRange w)) : List (Nat × Bound) :=
  (List.range tmp.length).flatMap fun slot => [(slot, .lo), (slot, .hi)]

/-- Who runs `parse_maps_locked`: a query inside `pthread_once`, or a refresh
with `g_refresh_lock`. -/
inductive Parser (w : Nat) where
  | query (addr : BitVec w)
  | refresh
  deriving DecidableEq, Repr

/-- `g_init_once`. -/
inductive OnceControl where
  | fresh
  | running
  | done
  deriving DecidableEq, Repr

/-- The bisection of a query.  `count` and `probes` are ghosts: the number of
ranges it has loaded, and how many slots it has looked at. -/
structure Search (w : Nat) where
  addr : BitVec w
  count : Nat
  left : Int
  right : Int
  probes : Nat
  deriving DecidableEq, Repr

/-- `mid`. -/
def Search.middle (search : Search w) : Int :=
  search.left + (search.right - search.left) / 2

/-- What a thread does next. -/
inductive ThreadPc (w : Nat) where
  | idle
  | once (addr : BitVec w)
  | locking
  | parsing (parser : Parser w)
  | copying (parser : Parser w) (tmp : List (ExecRange w))
      (words : List (Nat × Bound))
  | finishing (parser : Parser w)
  | loading (addr : BitVec w)
  | lower (search : Search w)
  | upper (search : Search w)
  | answered (search : Search w) (result : Option Nat)
  deriving DecidableEq, Repr

/-- The words of `g_ranges`, `g_range_count` and the threads. -/
structure RangeState (Thread : Type) (w : Nat) where
  ranges : Nat → Bound → BitVec w
  rangeCount : Nat
  initOnce : OnceControl
  refreshLock : Bool
  threads : Thread → ThreadPc w

/-- A label says what the line loop finds: `buf` is static, so that two parses
at a time may leave any text in it. -/
inductive RangeLabel (Thread : Type) (w : Nat) where
  | query (thread : Thread) (addr : BitVec w)
  | refresh (thread : Thread)
  | step (thread : Thread)
  | parse (thread : Thread) (found : Option (List (ExecRange w)))
  | copy (thread : Thread) (slot : Nat) (bound : Bound)
  | leave (thread : Thread)

variable {Thread : Type}

def RangeState.initial : RangeState Thread w :=
  { ranges := fun _ _ => 0
    rangeCount := 0
    initOnce := .fresh
    refreshLock := false
    threads := fun _ => .idle }

section System

variable [DecidableEq Thread]

def RangeState.setThread (state : RangeState Thread w) (thread : Thread)
    (pc : ThreadPc w) : RangeState Thread w :=
  { state with threads := Function.update state.threads thread pc }

def RangeState.setWord (state : RangeState Thread w) (slot : Nat)
    (bound : Bound) (value : BitVec w) : RangeState Thread w :=
  { state with
    ranges := Function.update state.ranges slot
      (Function.update (state.ranges slot) bound value) }

/-- The start of a search, with the count as it is loaded. -/
def startSearch (addr : BitVec w) (count : Nat) : ThreadPc w :=
  let search : Search w :=
    { addr := mttFixThumbAddr addr
      count
      left := 0
      right := count - 1
      probes := 0 }
  if count = 0 then .answered search none else .lower search

/-- The head of the loop and the comparison with `g_ranges[mid].lo`. -/
def compareLower (state : RangeState Thread w) (search : Search w) :
    ThreadPc w :=
  if search.left ≤ search.right then
    if search.addr < state.ranges search.middle.toNat .lo then
      .lower
        { search with
          right := search.middle - 1
          probes := search.probes + 1 }
    else .upper search
  else .answered search none

/-- The comparison with `g_ranges[mid].hi`. -/
def compareUpper (state : RangeState Thread w) (search : Search w) :
    ThreadPc w :=
  if state.ranges search.middle.toNat .hi ≤ search.addr then
    .lower
      { search with
        left := search.middle + 1
        probes := search.probes + 1 }
  else
    .answered { search with probes := search.probes + 1 }
      (some search.middle.toNat)

/-- The next step of a thread that neither parses nor copies. -/
def threadStep (state : RangeState Thread w) (thread : Thread) :
    Option (RangeState Thread w) :=
  match state.threads thread with
  | .idle | .parsing _ | .answered _ _ => none
  | .once addr =>
      match state.initOnce with
      | .fresh =>
          some { state.setThread thread (.parsing (.query addr)) with
            initOnce := .running }
      | .running => none
      | .done => some (state.setThread thread (.loading addr))
  | .locking =>
      if state.refreshLock then none
      else
        some { state.setThread thread (.parsing .refresh) with
          refreshLock := true }
  | .copying parser tmp words =>
      if words = [] then
        some { state.setThread thread (.finishing parser) with
          rangeCount := tmp.length }
      else none
  | .finishing (.query addr) =>
      some { state.setThread thread (.loading addr) with initOnce := .done }
  | .finishing .refresh =>
      some { state.setThread thread .idle with refreshLock := false }
  | .loading addr =>
      some (state.setThread thread (startSearch addr state.rangeCount))
  | .lower search =>
      some (state.setThread thread (compareLower state search))
  | .upper search =>
      some (state.setThread thread (compareUpper state search))

def rangeNext (state : RangeState Thread w) :
    RangeLabel Thread w → Option (RangeState Thread w)
  | .query thread addr =>
      if state.threads thread = .idle then
        -- A null address is answered at once.
        if addr = 0 then some state
        else some (state.setThread thread (.once addr))
      else none
  | .refresh thread =>
      if state.threads thread = .idle then
        some (state.setThread thread .locking)
      else none
  | .step thread => threadStep state thread
  | .parse thread found =>
      match state.threads thread, found with
      | .parsing parser, none =>
          some (state.setThread thread (.finishing parser))
      | .parsing parser, some tmp =>
          if tmp.length ≤ mttMaxExecRanges then
            some (state.setThread thread (.copying parser tmp (wordsOf tmp)))
          else none
      | _, _ => none
  | .copy thread slot bound =>
      match state.threads thread with
      | .copying parser tmp words =>
          if (slot, bound) ∈ words then
            tmp[slot]?.map fun range =>
              (state.setWord slot bound (boundOf range bound)).setThread thread
                (.copying parser tmp (words.erase (slot, bound)))
          else none
      | _ => none
  | .leave thread =>
      match state.threads thread with
      | .answered _ _ => some (state.setThread thread .idle)
      | _ => none

/-- Any number of threads that query and refresh. -/
def rangeSystem (Thread : Type) [DecidableEq Thread] (w : Nat) :
    System (RangeState Thread w) (RangeLabel Thread w) where
  init := fun state => state = .initial
  next := rangeNext

end System

/-! ## What the array holds -/

/-- The tables that the line loops find. -/
def Parses (tables : Set (List (ExecRange w))) :
    RangeState Thread w → RangeLabel Thread w → Prop
  | _, .parse _ (some tmp) => tmp ∈ tables
  | _, _ => True

/-- The word of a slot in one of the tables. -/
def Known (tables : Set (List (ExecRange w))) (slot : Nat) (bound : Bound)
    (value : BitVec w) : Prop :=
  ∃ tmp ∈ tables, ∃ range, tmp[slot]? = some range ∧
    value = boundOf range bound

/-- The words that are known stay known. -/
def Keeps (tables : Set (List (ExecRange w)))
    (before after : Nat → Bound → BitVec w) : Prop :=
  ∀ slot bound, Known tables slot bound (before slot bound) →
    Known tables slot bound (after slot bound)

/-- A search looks at slots that are filled, and each look halves its
window. -/
structure SearchSound (tables : Set (List (ExecRange w)))
    (ranges : Nat → Bound → BitVec w) (search : Search w) : Prop where
  left : 0 ≤ search.left
  right : search.right < search.count
  filled : ∀ slot < search.count, ∀ bound,
    Known tables slot bound (ranges slot bound)
  most : search.count ≤ mttMaxExecRanges
  probes : search.probes ≤ 9
  halved : (search.right - search.left + 1).toNat * 2 ^ search.probes ≤
    mttMaxExecRanges

/-- The address lies between the bounds that two tables have for a slot. -/
def Between (tables : Set (List (ExecRange w))) (slot : Nat)
    (addr : BitVec w) : Prop :=
  ∃ low high, Known tables slot .lo low ∧ Known tables slot .hi high ∧
    low ≤ addr ∧ addr < high

/-- The position of a thread goes with the array. -/
def PcSound (tables : Set (List (ExecRange w)))
    (ranges : Nat → Bound → BitVec w) : ThreadPc w → Prop
  | .copying _ tmp words =>
      tmp ∈ tables ∧ tmp.length ≤ mttMaxExecRanges ∧
        ∀ slot < tmp.length, ∀ bound, (slot, bound) ∉ words →
          Known tables slot bound (ranges slot bound)
  | .lower search => SearchSound tables ranges search
  | .upper search =>
      SearchSound tables ranges search ∧ search.left ≤ search.right ∧
        ∃ low, Known tables search.middle.toNat .lo low ∧ low ≤ search.addr
  | .answered search result =>
      search.probes ≤ 9 ∧ ∀ slot ∈ result,
        slot < search.count ∧ search.count ≤ mttMaxExecRanges ∧
          Between tables slot search.addr
  | _ => True

/-- All slots below the count are filled. -/
structure Sound (tables : Set (List (ExecRange w)))
    (state : RangeState Thread w) : Prop where
  filled : ∀ slot < state.rangeCount, ∀ bound,
    Known tables slot bound (state.ranges slot bound)
  most : state.rangeCount ≤ mttMaxExecRanges
  threads : ∀ thread, PcSound tables state.ranges (state.threads thread)

/-! ## Steps of a search -/

variable {tables : Set (List (ExecRange w))}

theorem SearchSound.keeps {before after : Nat → Bound → BitVec w}
    {search : Search w} (sound : SearchSound tables before search)
    (keeps : Keeps tables before after) : SearchSound tables after search where
  left := sound.left
  right := sound.right
  filled := fun slot below bound => keeps _ _ (sound.filled slot below bound)
  most := sound.most
  probes := sound.probes
  halved := sound.halved

theorem PcSound.keeps {before after : Nat → Bound → BitVec w}
    {pc : ThreadPc w} (sound : PcSound tables before pc)
    (keeps : Keeps tables before after) : PcSound tables after pc := by
  cases pc with
  | copying parser tmp words =>
      obtain ⟨listed, short, copied⟩ := sound
      refine ⟨listed, short, ?_⟩
      intro slot below bound written
      exact keeps _ _ (copied slot below bound written)
  | lower search => exact SearchSound.keeps sound keeps
  | upper search =>
      obtain ⟨inside, window, low⟩ := sound
      exact ⟨inside.keeps keeps, window, low⟩
  | answered search result => exact sound
  | idle | once | locking | parsing | finishing | loading => trivial

section Search

variable {state : RangeState Thread w} {search : Search w}

theorem startSearch_sound (sound : Sound tables state) (addr : BitVec w) :
    PcSound tables state.ranges (startSearch addr state.rangeCount) := by
  have most := sound.most
  unfold startSearch
  split
  · exact ⟨Nat.zero_le 9, fun slot member => by cases member⟩
  · rename_i positive
    constructor
    · exact Int.le_refl 0
    · change (state.rangeCount : Int) - 1 < state.rangeCount
      omega
    · exact sound.filled
    · exact most
    · exact Nat.zero_le 9
    · simp only [pow_zero, Nat.mul_one]
      omega

theorem SearchSound.middle {ranges : Nat → Bound → BitVec w}
    (sound : SearchSound tables ranges search)
    (window : search.left ≤ search.right) :
    search.left ≤ search.middle ∧ search.middle ≤ search.right ∧
      search.middle.toNat < search.count ∧ search.probes < 9 := by
  have left := sound.left
  have right := sound.right
  have bounds : search.left ≤ search.middle ∧
      search.middle ≤ search.right := by
    unfold Search.middle
    omega
  refine ⟨bounds.1, bounds.2, by omega, ?_⟩
  have wide : 1 ≤ (search.right - search.left + 1).toNat := by omega
  have power : 2 ^ search.probes ≤ 2 ^ 8 := by
    calc 2 ^ search.probes
        ≤ (search.right - search.left + 1).toNat * 2 ^ search.probes :=
          Nat.le_mul_of_pos_left _ wide
      _ ≤ 2 ^ 8 := sound.halved
  have few := (Nat.pow_le_pow_iff_right (Nat.lt_succ_self 1)).mp power
  omega

/-- A look leaves a window of at most half the width. -/
theorem SearchSound.narrow {ranges : Nat → Bound → BitVec w}
    (sound : SearchSound tables ranges search)
    (window : search.left ≤ search.right) {left right : Int}
    (lowest : 0 ≤ left) (highest : right < search.count)
    (half : (right - left + 1).toNat * 2 ≤
      (search.right - search.left + 1).toNat) :
    SearchSound tables ranges
      { search with left, right, probes := search.probes + 1 } where
  left := lowest
  right := highest
  filled := sound.filled
  most := sound.most
  probes := (sound.middle window).2.2.2
  halved := by
    calc (right - left + 1).toNat * 2 ^ (search.probes + 1)
        = (right - left + 1).toNat * 2 * 2 ^ search.probes := by
          rw [pow_succ, Nat.mul_assoc, Nat.mul_comm 2]
      _ ≤ (search.right - search.left + 1).toNat * 2 ^ search.probes :=
          Nat.mul_le_mul_right _ half
      _ ≤ mttMaxExecRanges := sound.halved

theorem compareLower_sound (sound : SearchSound tables state.ranges search) :
    PcSound tables state.ranges (compareLower state search) := by
  unfold compareLower
  split
  · rename_i window
    obtain ⟨low, high, filled, few⟩ := sound.middle window
    have right := sound.right
    split
    · apply sound.narrow window sound.left
      · omega
      · unfold Search.middle
        omega
    · rename_i notBelow
      refine ⟨sound, window, _, sound.filled _ filled .lo, ?_⟩
      exact BitVec.not_lt.mp notBelow
  · exact ⟨sound.probes, fun slot member => by cases member⟩

theorem compareUpper_sound
    (sound : PcSound tables state.ranges (.upper search)) :
    PcSound tables state.ranges (compareUpper state search) := by
  obtain ⟨inside, window, low, known, least⟩ := sound
  obtain ⟨above, below, filled, few⟩ := inside.middle window
  have left := inside.left
  unfold compareUpper
  split
  · apply inside.narrow window
    · omega
    · exact inside.right
    · unfold Search.middle
      omega
  · rename_i notAbove
    refine ⟨few, ?_⟩
    intro slot member
    obtain rfl := Option.some.inj member
    exact ⟨filled, inside.most, low, _, known, inside.filled _ filled .hi,
      least, BitVec.not_le.mp notAbove⟩

end Search

/-! ## Steps of the system -/

/-- The search of a query that has loaded the count. -/
def ThreadPc.search : ThreadPc w → Option (Search w)
  | .lower search | .upper search | .answered search _ => some search
  | _ => none

/-- Positions that say nothing about the array. -/
def ThreadPc.Quiet : ThreadPc w → Prop
  | .copying _ _ _ | .lower _ | .upper _ | .answered _ _ => False
  | _ => True

/-- What a step does. -/
inductive Moved [DecidableEq Thread] (state : RangeState Thread w) :
    RangeLabel Thread w → RangeState Thread w → Prop where
  | stays {label : RangeLabel Thread w} : Moved state label state
  | quiet {label : RangeLabel Thread w} {target : RangeState Thread w}
      (thread : Thread) (pc : ThreadPc w) :
      (state.threads thread).search = none ∨ label = .leave thread →
      pc.Quiet → target.ranges = state.ranges →
      target.rangeCount = state.rangeCount →
      target.threads = Function.update state.threads thread pc →
      Moved state label target
  | starts {label : RangeLabel Thread w} (thread : Thread)
      (addr : BitVec w) :
      state.threads thread = .loading addr →
      Moved state label
        (state.setThread thread (startSearch addr state.rangeCount))
  | lower {label : RangeLabel Thread w} (thread : Thread)
      (search : Search w) :
      state.threads thread = .lower search →
      Moved state label
        (state.setThread thread (compareLower state search))
  | upper {label : RangeLabel Thread w} (thread : Thread)
      (search : Search w) :
      state.threads thread = .upper search →
      Moved state label
        (state.setThread thread (compareUpper state search))
  | parsed {tmp : List (ExecRange w)} (thread : Thread)
      (parser : Parser w) :
      state.threads thread = .parsing parser →
      tmp.length ≤ mttMaxExecRanges →
      Moved state (.parse thread (some tmp))
        (state.setThread thread (.copying parser tmp (wordsOf tmp)))
  | copied {parser : Parser w} {tmp : List (ExecRange w)}
      {words : List (Nat × Bound)} {slot : Nat} {bound : Bound}
      {range : ExecRange w} (thread : Thread) :
      state.threads thread = .copying parser tmp words →
      tmp[slot]? = some range →
      Moved state (.copy thread slot bound)
        ((state.setWord slot bound (boundOf range bound)).setThread thread
          (.copying parser tmp (words.erase (slot, bound))))
  | stored {label : RangeLabel Thread w} (thread : Thread)
      (parser : Parser w) (tmp : List (ExecRange w)) :
      state.threads thread = .copying parser tmp [] →
      Moved state label
        { state.setThread thread (.finishing parser) with
          rangeCount := tmp.length }

theorem mem_wordsOf {tmp : List (ExecRange w)} {slot : Nat} (bound : Bound)
    (below : slot < tmp.length) : (slot, bound) ∈ wordsOf tmp := by
  apply List.mem_flatMap.mpr
  refine ⟨slot, List.mem_range.mpr below, ?_⟩
  cases bound <;> simp

theorem setWord_keeps {tmp : List (ExecRange w)} (listed : tmp ∈ tables)
    {slot : Nat} {range : ExecRange w} (found : tmp[slot]? = some range)
    (state : RangeState Thread w) (bound : Bound) :
    Keeps tables state.ranges
        (state.setWord slot bound (boundOf range bound)).ranges ∧
      Known tables slot bound
        ((state.setWord slot bound (boundOf range bound)).ranges slot
          bound) := by
  have written :
      (state.setWord slot bound (boundOf range bound)).ranges slot bound =
        boundOf range bound := by
    simp [RangeState.setWord]
  have known : Known tables slot bound
      ((state.setWord slot bound (boundOf range bound)).ranges slot
        bound) := by
    rw [written]
    exact ⟨tmp, listed, range, found, rfl⟩
  refine ⟨?_, known⟩
  intro other part before
  by_cases sameSlot : other = slot
  · by_cases sameBound : part = bound
    · rw [sameSlot, sameBound]
      exact known
    · simpa [RangeState.setWord, sameSlot, sameBound] using before
  · simpa [RangeState.setWord, sameSlot] using before

theorem sound_initial (tables : Set (List (ExecRange w))) :
    Sound tables (.initial : RangeState Thread w) where
  filled := fun slot below => (Nat.not_lt_zero slot below).elim
  most := Nat.zero_le _
  threads := fun _ => trivial

section Steps

variable [DecidableEq Thread] {state target : RangeState Thread w}
  {label : RangeLabel Thread w} {thread : Thread}

theorem threadStep_moved (taken : threadStep state thread = some target) :
    Moved state label target := by
  unfold threadStep at taken
  cases pc : state.threads thread with
  | idle | parsing | answered =>
      rw [pc] at taken
      cases taken
  | once addr =>
      have apart : (state.threads thread).search = none ∨
          label = .leave thread := .inl (by rw [pc]; rfl)
      rw [pc] at taken
      cases once : state.initOnce with
      | fresh =>
          rw [once] at taken
          cases taken
          exact .quiet thread (.parsing (.query addr)) apart trivial rfl rfl
            rfl
      | running =>
          rw [once] at taken
          cases taken
      | done =>
          rw [once] at taken
          cases taken
          exact .quiet thread (.loading addr) apart trivial rfl rfl rfl
  | locking =>
      have apart : (state.threads thread).search = none ∨
          label = .leave thread := .inl (by rw [pc]; rfl)
      rw [pc] at taken
      dsimp only at taken
      split at taken
      · cases taken
      · cases taken
        exact .quiet thread (.parsing .refresh) apart trivial rfl rfl rfl
  | copying parser tmp words =>
      rw [pc] at taken
      dsimp only at taken
      split at taken
      · rename_i finished
        cases taken
        exact .stored thread parser tmp (finished ▸ pc)
      · cases taken
  | finishing parser =>
      have apart : (state.threads thread).search = none ∨
          label = .leave thread := .inl (by rw [pc]; rfl)
      rw [pc] at taken
      cases parser with
      | query addr =>
          cases taken
          exact .quiet thread (.loading addr) apart trivial rfl rfl rfl
      | refresh =>
          cases taken
          exact .quiet thread .idle apart trivial rfl rfl rfl
  | loading addr =>
      rw [pc] at taken
      cases taken
      exact .starts thread addr pc
  | lower search =>
      rw [pc] at taken
      cases taken
      exact .lower thread search pc
  | upper search =>
      rw [pc] at taken
      cases taken
      exact .upper thread search pc

theorem rangeNext_moved (taken : rangeNext state label = some target) :
    Moved state label target := by
  cases label with
  | query thread addr =>
      simp only [rangeNext] at taken
      split at taken
      · rename_i idle
        split at taken
        · cases taken
          exact .stays
        · cases taken
          exact .quiet thread (.once addr) (.inl (by rw [idle]; rfl)) trivial
            rfl rfl rfl
      · cases taken
  | refresh thread =>
      simp only [rangeNext] at taken
      split at taken
      · rename_i idle
        cases taken
        exact .quiet thread .locking (.inl (by rw [idle]; rfl)) trivial rfl
          rfl rfl
      · cases taken
  | step thread => exact threadStep_moved taken
  | parse thread found =>
      simp only [rangeNext] at taken
      split at taken
      · rename_i parser pc
        cases taken
        exact .quiet thread (.finishing parser) (.inl (by rw [pc]; rfl))
          trivial rfl rfl rfl
      · rename_i parser tmp pc
        split at taken
        · rename_i short
          cases taken
          exact .parsed thread parser pc short
        · cases taken
      · cases taken
  | copy thread slot bound =>
      simp only [rangeNext] at taken
      split at taken
      · rename_i parser tmp words pc
        split at taken
        · obtain ⟨range, found, rfl⟩ := Option.map_eq_some_iff.mp taken
          exact .copied thread pc found
        · cases taken
      · cases taken
  | leave thread =>
      simp only [rangeNext] at taken
      split at taken
      · cases taken
        exact .quiet thread .idle (.inr rfl) trivial rfl rfl rfl
      · cases taken

/-- A step that leaves the array as it is. -/
theorem Sound.moves {pc : ThreadPc w} (sound : Sound tables state)
    (ranges : target.ranges = state.ranges)
    (count : target.rangeCount = state.rangeCount)
    (threads : target.threads = Function.update state.threads thread pc)
    (inside : PcSound tables state.ranges pc) : Sound tables target := by
  constructor
  · rw [ranges, count]
    exact sound.filled
  · rw [count]
    exact sound.most
  · intro other
    rw [ranges]
    rcases moved_cases threads other with ⟨rfl, here⟩ | ⟨same, here⟩
    · rw [here]
      exact inside
    · rw [here]
      exact sound.threads other

theorem Moved.sound (moved : Moved state label target)
    (allowed : Parses tables state label) (sound : Sound tables state) :
    Sound tables target := by
  cases moved with
  | stays => exact sound
  | quiet thread pc apart quiet ranges count threads =>
      apply sound.moves ranges count threads
      cases pc with
      | copying | lower | upper | answered => exact quiet.elim
      | idle | once | locking | parsing | finishing | loading => trivial
  | starts thread addr pc =>
      exact sound.moves rfl rfl rfl (startSearch_sound sound addr)
  | lower thread search pc =>
      have inside := sound.threads thread
      rw [pc] at inside
      exact sound.moves rfl rfl rfl (compareLower_sound inside)
  | upper thread search pc =>
      have inside := sound.threads thread
      rw [pc] at inside
      exact sound.moves rfl rfl rfl (compareUpper_sound inside)
  | parsed thread parser pc short =>
      refine sound.moves rfl rfl rfl ⟨allowed, short, ?_⟩
      intro slot below bound missing
      exact (missing (mem_wordsOf bound below)).elim
  | @copied parser tmp words slot bound range thread pc found =>
      have inside := sound.threads thread
      rw [pc] at inside
      obtain ⟨listed, short, copied⟩ := inside
      obtain ⟨keeps, known⟩ := setWord_keeps listed found state bound
      have written : Sound tables
          (state.setWord slot bound (boundOf range bound)) := by
        constructor
        · intro other below part
          exact keeps other part (sound.filled other below part)
        · exact sound.most
        · intro other
          exact (sound.threads other).keeps keeps
      refine written.moves rfl rfl rfl ⟨listed, short, ?_⟩
      intro other below part missing
      by_cases same : (other, part) = (slot, bound)
      · obtain ⟨rfl, rfl⟩ := Prod.mk.inj same
        exact known
      · apply keeps
        apply copied other below part
        intro listedWord
        exact missing ((List.mem_erase_of_ne same).mpr listedWord)
  | stored thread parser tmp pc =>
      have inside := sound.threads thread
      rw [pc] at inside
      obtain ⟨listed, short, copied⟩ := inside
      have finished : Sound tables
          (state.setThread thread (.finishing parser)) :=
        sound.moves rfl rfl rfl trivial
      constructor
      · intro slot below bound
        exact copied slot below bound List.not_mem_nil
      · exact short
      · exact finished.threads

theorem sound_reachable
    (reachable : (rangeSystem Thread w).ReachableBy (Parses tables) state) :
    Sound tables state := by
  apply reachable.invariant (Sound tables)
  · intro start initial
    rw [initial]
    exact sound_initial tables
  · intro before label after sound allowed taken
    exact (rangeNext_moved taken).sound allowed sound

/-- The thread is inside the loop of a query. -/
def Searches (state : RangeState Thread w) (thread : Thread)
    (search : Search w) : Prop :=
  state.threads thread = .lower search ∨ state.threads thread = .upper search

/-- Whatever is copied meanwhile, a search is never blocked, looks at no more
than nine slots and at none that has not been filled, and a slot that it
answers has had a lower bound up to the address and an upper bound beyond
it. -/
theorem query_sound
    (reachable : (rangeSystem Thread w).ReachableBy (Parses tables) state) :
    (∀ thread search, Searches state thread search →
      search.probes ≤ 9 ∧ rangeNext state (.step thread) ≠ none ∧
        (search.left ≤ search.right →
          0 ≤ search.middle ∧ search.middle.toNat < mttMaxExecRanges ∧
            ∀ bound, Known tables search.middle.toNat bound
              (state.ranges search.middle.toNat bound))) ∧
      ∀ thread search result,
        state.threads thread = .answered search result →
          search.probes ≤ 9 ∧ ∀ slot ∈ result,
            slot < mttMaxExecRanges ∧ Between tables slot search.addr := by
  have sound := sound_reachable reachable
  constructor
  · intro thread search searches
    have inside : SearchSound tables state.ranges search := by
      have position := sound.threads thread
      rcases searches with lower | upper
      · rw [lower] at position
        exact position
      · rw [upper] at position
        exact position.1
    refine ⟨inside.probes, ?_, ?_⟩
    · rcases searches with lower | upper
      · simp [rangeNext, threadStep, lower]
      · simp [rangeNext, threadStep, upper]
    · intro window
      obtain ⟨above, -, filled, -⟩ := inside.middle window
      refine ⟨Int.le_trans inside.left above,
        Nat.lt_of_lt_of_le filled inside.most, ?_⟩
      exact inside.filled _ filled
  · intro thread search result answered
    have position := sound.threads thread
    rw [answered] at position
    refine ⟨position.1, ?_⟩
    intro slot member
    obtain ⟨below, most, between⟩ := position.2 slot member
    exact ⟨Nat.lt_of_lt_of_le below most, between⟩

end Steps

/-- One range before a library is unloaded and another is loaded above. -/
def oldTable : List (ExecRange 64) := [⟨0x1000, 0x2000, []⟩]

def newTable : List (ExecRange 64) := [⟨0x5000, 0x6000, []⟩]

def fillFirst (thread : Worker) (tmp : List (ExecRange 64)) :
    List (RangeLabel Worker 64) :=
  [.refresh thread, .step thread, .parse thread (some tmp),
    .copy thread 0 .lo, .copy thread 0 .hi]

/-- The second refresh comes between the two comparisons of a query. -/
def tornRun : List (RangeLabel Worker 64) :=
  fillFirst .first oldTable ++
    [.step .first, .step .first, .query .second 0x3000, .step .second,
      .parse .second none, .step .second, .step .second, .step .second] ++
    fillFirst .third newTable ++ [.step .second]

/-- An address between the ranges of the two tables is taken for
executable. -/
theorem query_sound_tornRun :
    ∃ (state : RangeState Worker 64) (search : Search 64),
      state.threads .second = .answered search (some 0) ∧
        Between {oldTable, newTable} 0 search.addr ∧
        ∀ tmp ∈ ({oldTable, newTable} : Set (List (ExecRange 64))),
          ∀ range ∈ tmp, ¬ (range.lo ≤ search.addr ∧
            search.addr < range.hi) := by
  have start : (rangeSystem Worker 64).ReachableBy
      (Parses {oldTable, newTable}) .initial := .start rfl
  have allowed : ∀ label ∈ tornRun, ∀ passed,
      Parses {oldTable, newTable} passed label := by
    simp [tornRun, fillFirst, Parses]
  have ends : ((rangeSystem Worker 64).run .initial tornRun).map
      (fun state => state.threads .second) =
        some (.answered ⟨0x3000, 1, 0, 0, 1⟩ (some 0)) := by
    decide
  obtain ⟨state, executed, answered⟩ := Option.map_eq_some_iff.mp ends
  obtain ⟨-, answers⟩ := query_sound
    (System.reachableBy_of_run start allowed executed)
  have between := (answers _ _ _ answered).2 0 rfl
  refine ⟨state, _, answered, between.2, ?_⟩
  simp [oldTable, newTable]

/-! ## Undisturbed searches -/

/-- The cache with the given words. -/
def tableOf (words : Nat → Bound → BitVec w) (count : Nat) : AddrState w :=
  { ranges := fun index => ⟨words index .lo, words index .hi, []⟩
    rangeCount := count
    initDone := true }

/-- The loop of `searchRanges` in a table. -/
def searchFrom (words : Nat → Bound → BitVec w) (search : Search w)
    (fuel : Nat) : Option Nat :=
  Intervals.search (fun index => (words index .lo).toNat)
    (fun index => (words index .hi).toNat) search.addr.toNat fuel search.left
    search.right

/-- The rest of the search leads to the answer of `searchRanges`. -/
structure Follows (words : Nat → Bound → BitVec w) (search : Search w) :
    Prop where
  left : 0 ≤ search.left
  right : search.right < search.count
  rest : ∃ fuel : Nat, search.right - search.left < fuel ∧
    searchFrom words search fuel =
      searchRanges (tableOf words search.count) search.addr

def PcFollows (words : Nat → Bound → BitVec w) : ThreadPc w → Prop
  | .lower search => Follows words search
  | .upper search =>
      Follows words search ∧ search.left ≤ search.right ∧
        ¬ search.addr < words search.middle.toNat .lo
  | .answered search result =>
      result = searchRanges (tableOf words search.count) search.addr
  | _ => True

/-- The slots of the search hold the words of the table. -/
def Agrees (ranges words : Nat → Bound → BitVec w) (count : Nat) : Prop :=
  ∀ slot < count, ∀ bound, ranges slot bound = words slot bound

section Undisturbed

variable {words : Nat → Bound → BitVec w} {search : Search w}
  {state : RangeState Thread w} {count : Nat}

theorem startSearch_follows (words : Nat → Bound → BitVec w)
    (addr : BitVec w) (count : Nat) :
    PcFollows words (startSearch addr count) := by
  unfold startSearch
  split
  · rename_i zero
    subst zero
    rfl
  · rename_i positive
    constructor
    · exact Int.le_refl 0
    · change (count : Int) - 1 < count
      omega
    · refine ⟨count, ?_, ?_⟩
      · change (count : Int) - 1 - 0 < count
        omega
      · exact (if_neg positive).symm

theorem Follows.unfold (follows : Follows words search)
    (window : search.left ≤ search.right) :
    ∃ fuel : Nat, search.right - search.left ≤ fuel ∧
      search.middle.toNat < search.count ∧
      (if (search.addr).toNat < (words search.middle.toNat .lo).toNat then
          searchFrom words { search with right := search.middle - 1 } fuel
        else if (words search.middle.toNat .hi).toNat ≤ search.addr.toNat then
          searchFrom words { search with left := search.middle + 1 } fuel
        else some search.middle.toNat) =
      searchRanges (tableOf words search.count) search.addr := by
  obtain ⟨fuel, wide, same⟩ := follows.rest
  have left := follows.left
  have right := follows.right
  cases fuel with
  | zero => omega
  | succ fuel =>
      refine ⟨fuel, by omega, ?_, ?_⟩
      · unfold Search.middle
        omega
      · rw [← same]
        simp only [searchFrom, Intervals.search, if_pos window]
        rfl

theorem compareLower_follows
    (agrees : Agrees state.ranges words search.count)
    (follows : Follows words search) :
    PcFollows words (compareLower state search) := by
  have left := follows.left
  have right := follows.right
  unfold compareLower
  split
  · rename_i window
    obtain ⟨fuel, wide, inside, same⟩ := follows.unfold window
    rw [agrees _ inside .lo]
    split
    · rename_i below
      rw [if_pos (BitVec.lt_def.mp below)] at same
      constructor
      · exact left
      · change search.middle - 1 < search.count
        omega
      · refine ⟨fuel, ?_, same⟩
        change search.middle - 1 - search.left < fuel
        unfold Search.middle
        omega
    · rename_i notBelow
      exact ⟨follows, window, notBelow⟩
  · rename_i empty
    obtain ⟨fuel, wide, same⟩ := follows.rest
    change none = searchRanges (tableOf words search.count) search.addr
    rw [← same]
    cases fuel with
    | zero => rfl
    | succ fuel => exact (if_neg empty).symm

theorem compareUpper_follows
    (agrees : Agrees state.ranges words search.count)
    (follows : PcFollows words (.upper search)) :
    PcFollows words (compareUpper state search) := by
  obtain ⟨before, window, notBelow⟩ := follows
  have left := before.left
  have right := before.right
  obtain ⟨fuel, wide, inside, same⟩ := before.unfold window
  rw [if_neg (fun below => notBelow (BitVec.lt_def.mpr below))] at same
  unfold compareUpper
  rw [agrees _ inside .hi]
  split
  · rename_i above
    rw [if_pos (BitVec.le_def.mp above)] at same
    constructor
    · change 0 ≤ search.middle + 1
      unfold Search.middle
      omega
    · exact right
    · refine ⟨fuel, ?_, same⟩
      change search.right - (search.middle + 1) < fuel
      unfold Search.middle
      omega
  · rename_i notAbove
    rw [if_neg (fun above => notAbove (BitVec.le_def.mpr above))] at same
    exact same

theorem search_startSearch (addr : BitVec w) (count : Nat) :
    ∃ search, (startSearch addr count).search = some search ∧
      search.addr = mttFixThumbAddr addr ∧ search.count = count := by
  unfold startSearch
  split
  · exact ⟨_, rfl, rfl, rfl⟩
  · exact ⟨_, rfl, rfl, rfl⟩

theorem search_compareLower (state : RangeState Thread w)
    (search : Search w) :
    ∃ later, (compareLower state search).search = some later ∧
      later.addr = search.addr ∧ later.count = search.count := by
  unfold compareLower
  split
  · split
    · exact ⟨_, rfl, rfl, rfl⟩
    · exact ⟨_, rfl, rfl, rfl⟩
  · exact ⟨_, rfl, rfl, rfl⟩

theorem search_compareUpper (state : RangeState Thread w)
    (search : Search w) :
    ∃ later, (compareUpper state search).search = some later ∧
      later.addr = search.addr ∧ later.count = search.count := by
  unfold compareUpper
  split
  · exact ⟨_, rfl, rfl, rfl⟩
  · exact ⟨_, rfl, rfl, rfl⟩

theorem setWord_agrees {slot : Nat} {bound : Bound} {value : BitVec w}
    (agrees : Agrees state.ranges words count)
    (same : slot < count → value = words slot bound) :
    Agrees (state.setWord slot bound value).ranges words count := by
  intro other below part
  by_cases sameSlot : other = slot
  · by_cases sameBound : part = bound
    · subst sameSlot sameBound
      simpa [RangeState.setWord] using same below
    · subst sameSlot
      simpa [RangeState.setWord, sameBound] using agrees other below part
  · simpa [RangeState.setWord, sameSlot] using agrees other below part

end Undisturbed

section OneQuery

variable [DecidableEq Thread] {words : Nat → Bound → BitVec w}
  {state target : RangeState Thread w} {thread : Thread} {count : Nat}
  {addr : BitVec w}

/-- What others write into the first slots is what stands there, and the
query is not left. -/
def Undisturbed (thread : Thread) (words : Nat → Bound → BitVec w)
    (count : Nat) : RangeState Thread w → RangeLabel Thread w → Prop
  | state, .copy other slot bound =>
      slot < count → ∀ parser tmp rest range,
        state.threads other = .copying parser tmp rest →
        tmp[slot]? = some range → boundOf range bound = words slot bound
  | _, .leave other => other ≠ thread
  | _, _ => True

/-- The query for an address that has loaded a count follows the table. -/
structure UnderWay (thread : Thread) (words : Nat → Bound → BitVec w)
    (count : Nat) (addr : BitVec w) (state : RangeState Thread w) :
    Prop where
  agrees : Agrees state.ranges words count
  follows : PcFollows words (state.threads thread)
  search : ∃ search, (state.threads thread).search = some search ∧
    search.addr = addr ∧ search.count = count

theorem UnderWay.moves {pc : ThreadPc w} {other : Thread}
    (underWay : UnderWay thread words count addr state)
    (ranges : Agrees target.ranges words count)
    (threads : target.threads = Function.update state.threads other pc)
    (inside : other = thread → PcFollows words pc ∧
      ∃ search, pc.search = some search ∧ search.addr = addr ∧
        search.count = count) :
    UnderWay thread words count addr target := by
  by_cases same : other = thread
  · subst same
    obtain ⟨follows, search⟩ := inside rfl
    constructor
    · exact ranges
    · rw [threads, Function.update_self]
      exact follows
    · rw [threads, Function.update_self]
      exact search
  · have kept : target.threads thread = state.threads thread := by
      rw [threads, Function.update_of_ne (Ne.symm same)]
    constructor
    · exact ranges
    · rw [kept]
      exact underWay.follows
    · rw [kept]
      exact underWay.search

theorem Moved.underWay {label : RangeLabel Thread w}
    (moved : Moved state label target)
    (undisturbed : Undisturbed thread words count state label)
    (before : UnderWay thread words count addr state) :
    UnderWay thread words count addr target := by
  obtain ⟨search, searching, sameAddr, sameCount⟩ := before.search
  have agrees := before.agrees
  -- The thread of the query is neither before its search nor copying.
  have elsewhere : ∀ {other : Thread},
      (state.threads other).search = none → other ≠ thread := by
    intro other none same
    rw [same, searching] at none
    cases none
  cases moved with
  | stays => exact before
  | quiet other pc apart quiet ranges counted threads =>
      refine before.moves (ranges ▸ agrees) threads ?_
      intro same
      rcases apart with none | leaves
      · exact (elsewhere none same).elim
      · subst leaves
        exact (undisturbed same).elim
  | starts other requested pc =>
      refine before.moves agrees rfl (fun same => ?_)
      exact (elsewhere (by rw [pc]; rfl) same).elim
  | lower other inner pc =>
      refine before.moves agrees rfl (fun same => ?_)
      subst same
      have follows := before.follows
      rw [pc] at follows searching
      cases searching
      obtain ⟨later, found, laterAddr, laterCount⟩ :=
        search_compareLower state search
      exact ⟨compareLower_follows (sameCount ▸ agrees) follows, later, found,
        laterAddr.trans sameAddr, laterCount.trans sameCount⟩
  | upper other inner pc =>
      refine before.moves agrees rfl (fun same => ?_)
      subst same
      have follows := before.follows
      rw [pc] at follows searching
      cases searching
      obtain ⟨later, found, laterAddr, laterCount⟩ :=
        search_compareUpper state search
      exact ⟨compareUpper_follows (sameCount ▸ agrees) follows, later, found,
        laterAddr.trans sameAddr, laterCount.trans sameCount⟩
  | parsed other parser pc short =>
      refine before.moves agrees rfl (fun same => ?_)
      exact (elsewhere (by rw [pc]; rfl) same).elim
  | copied other pc found =>
      refine before.moves (setWord_agrees agrees ?_) rfl (fun same => ?_)
      · intro below
        exact undisturbed below _ _ _ _ pc found
      · exact (elsewhere (by rw [pc]; rfl) same).elim
  | stored other parser tmp pc =>
      refine before.moves agrees rfl (fun same => ?_)
      exact (elsewhere (by rw [pc]; rfl) same).elim

/-- A query answers as a search of the array as it was when the count was
loaded, if until then nobody changes one of its slots. -/
theorem query_undisturbed {loaded : RangeState Thread w}
    (loading : state.threads thread = .loading addr)
    (loads : rangeNext state (.step thread) = some loaded)
    (steps : (rangeSystem Thread w).StepsBy
      (Undisturbed thread state.ranges state.rangeCount) loaded target)
    {search : Search w} {result : Option Nat}
    (answered : target.threads thread = .answered search result) :
    result = searchRanges (tableOf state.ranges state.rangeCount)
      (mttFixThumbAddr addr) := by
  have start : UnderWay thread state.ranges state.rangeCount
      (mttFixThumbAddr addr) loaded := by
    simp only [rangeNext, threadStep, loading] at loads
    cases loads
    have position : (state.setThread thread
        (startSearch addr state.rangeCount)).threads thread =
          startSearch addr state.rangeCount :=
      Function.update_self _ _ _
    constructor
    · intro slot below bound
      rfl
    · rw [position]
      exact startSearch_follows state.ranges addr state.rangeCount
    · rw [position]
      exact search_startSearch addr state.rangeCount
  have done : UnderWay thread state.ranges state.rangeCount
      (mttFixThumbAddr addr) target := by
    apply steps.preserves
      (UnderWay thread state.ranges state.rangeCount (mttFixThumbAddr addr))
    · intro before label after underWay undisturbed taken
      exact (rangeNext_moved taken).underWay undisturbed underWay
    · exact start
  obtain ⟨final, found, sameAddr, sameCount⟩ := done.search
  have follows := done.follows
  rw [answered] at found follows
  cases found
  rw [← sameAddr, ← sameCount]
  exact follows

end OneQuery

def grownTable : List (ExecRange 64) :=
  [⟨0x1000, 0x2000, []⟩, ⟨0x5000, 0x6000, []⟩]

/-- A refresh copies one more range while a query begins its search. -/
def grownState : RangeState Worker 64 where
  ranges := fun _ => boundOf ⟨0x1000, 0x2000, []⟩
  rangeCount := 1
  initOnce := .done
  refreshLock := true
  threads := fun
    | .first => .copying .refresh grownTable (wordsOf grownTable)
    | .second => .loading 0x1800
    | .third => .idle

theorem query_undisturbed_grownState :
    some 0 = searchRanges
      (tableOf grownState.ranges grownState.rangeCount)
      (mttFixThumbAddr 0x1800) := by
  have loading : grownState.threads .second = .loading 0x1800 := rfl
  have outside : ∀ (passed : RangeState Worker 64) (bound : Bound),
      Undisturbed .second grownState.ranges grownState.rangeCount passed
        (.copy .first 1 bound) := by
    intro passed bound below
    exact (Nat.lt_irrefl 1 below).elim
  have allowed : ∀ label ∈ [RangeLabel.copy Worker.first 1 .lo,
      .step .second, .copy .first 1 .hi, .step .second], ∀ passed,
      Undisturbed .second grownState.ranges grownState.rangeCount passed
        label := by
    simp only [List.forall_mem_cons]
    exact ⟨fun _ => outside _ _, fun _ => trivial, fun _ => outside _ _,
      fun _ => trivial, nofun⟩
  have ends : ((rangeSystem Worker 64).run grownState (.step .second ::
      [.copy .first 1 .lo, .step .second, .copy .first 1 .hi,
        .step .second])).map (fun state => state.threads .second) =
      some (.answered ⟨0x1800, 1, 0, 0, 1⟩ (some 0)) := by
    decide
  obtain ⟨target, executed, answered⟩ := Option.map_eq_some_iff.mp ends
  simp only [System.run, System.runBy, if_true] at executed
  obtain ⟨middle, taken, remaining⟩ := Option.bind_eq_some_iff.mp executed
  exact query_undisturbed loading taken
    (System.stepsBy_of_run allowed remaining) answered

/-! ## Tables that extend each other -/

/-- The tables that hold the first ranges of a list. -/
def prefixes (maps : List (ExecRange w)) : Set (List (ExecRange w)) :=
  {tmp | tmp <+: maps}

def mapsWords (maps : List (ExecRange w)) (slot : Nat) (bound : Bound) :
    BitVec w :=
  boundOf ((maps[slot]?).getD ⟨0, 0, []⟩) bound

section Prefixes

variable {maps : List (ExecRange w)} {state target : RangeState Thread w}
  {thread : Thread} {count : Nat}

theorem known_prefixes {slot : Nat} {bound : Bound} {value : BitVec w}
    (known : Known (prefixes maps) slot bound value) :
    slot < maps.length ∧ value = mapsWords maps slot bound := by
  obtain ⟨tmp, isPrefix, range, found, rfl⟩ := known
  obtain ⟨rest, rfl⟩ := isPrefix
  obtain ⟨below, -⟩ := List.getElem?_eq_some_iff.mp found
  refine ⟨?_, ?_⟩
  · rw [List.length_append]
    exact Nat.lt_add_right _ below
  · rw [mapsWords, List.getElem?_append_left below, found]
    rfl

theorem agrees_of_filled {ranges : Nat → Bound → BitVec w}
    (filled : ∀ slot < count, ∀ bound,
      Known (prefixes maps) slot bound (ranges slot bound)) :
    count ≤ maps.length ∧ Agrees ranges (mapsWords maps) count := by
  constructor
  · by_contra above
    have last := filled maps.length (Nat.lt_of_not_le above) .lo
    exact Nat.lt_irrefl _ (known_prefixes last).1
  · intro slot below bound
    exact (known_prefixes (filled slot below bound)).2

/-- A thread that searches follows the list. -/
structure PcExact (maps : List (ExecRange w)) (pc : ThreadPc w) : Prop where
  follows : PcFollows (mapsWords maps) pc
  fits : ∀ search, pc.search = some search → search.count ≤ maps.length

theorem PcExact.of_search {pc : ThreadPc w} {search : Search w}
    (found : pc.search = some search) (fits : search.count ≤ maps.length)
    (follows : PcFollows (mapsWords maps) pc) : PcExact maps pc := by
  refine ⟨follows, ?_⟩
  intro other same
  rw [found] at same
  obtain rfl := Option.some.inj same
  exact fits

def Exact (maps : List (ExecRange w)) (state : RangeState Thread w) : Prop :=
  ∀ thread, PcExact maps (state.threads thread)

variable [DecidableEq Thread]

theorem Exact.moves {pc : ThreadPc w} (answers : Exact maps state)
    (threads : target.threads = Function.update state.threads thread pc)
    (inside : PcExact maps pc) : Exact maps target := by
  intro other
  rcases moved_cases threads other with ⟨rfl, here⟩ | ⟨same, here⟩
  · rw [here]
    exact inside
  · rw [here]
    exact answers other

theorem Moved.exact {label : RangeLabel Thread w}
    (moved : Moved state label target)
    (sound : Sound (prefixes maps) state) (answers : Exact maps state) :
    Exact maps target := by
  cases moved with
  | stays => exact answers
  | quiet thread pc apart quiet ranges count threads =>
      apply answers.moves threads
      cases pc with
      | copying | lower | upper | answered => exact quiet.elim
      | idle | once | locking | parsing | finishing | loading =>
          exact ⟨trivial, nofun⟩
  | starts thread addr pc =>
      obtain ⟨search, found, -, same⟩ :=
        search_startSearch addr state.rangeCount
      have fits := (agrees_of_filled sound.filled).1
      exact answers.moves rfl (.of_search found (same ▸ fits)
        (startSearch_follows (mapsWords maps) addr state.rangeCount))
  | lower thread search pc =>
      have inside := sound.threads thread
      have before := answers thread
      rw [pc] at inside before
      obtain ⟨later, found, -, same⟩ := search_compareLower state search
      have agrees := agrees_of_filled (SearchSound.filled inside)
      exact answers.moves rfl (.of_search found (same ▸ agrees.1)
        (compareLower_follows agrees.2 before.follows))
  | upper thread search pc =>
      have inside := sound.threads thread
      have before := answers thread
      rw [pc] at inside before
      obtain ⟨later, found, -, same⟩ := search_compareUpper state search
      have agrees := agrees_of_filled inside.1.filled
      exact answers.moves rfl (.of_search found (same ▸ agrees.1)
        (compareUpper_follows agrees.2 before.follows))
  | parsed thread parser pc short =>
      exact answers.moves rfl ⟨trivial, nofun⟩
  | copied thread pc found => exact answers.moves rfl ⟨trivial, nofun⟩
  | stored thread parser tmp pc => exact answers.moves rfl ⟨trivial, nofun⟩

/-- When the tables that are read are all the first ranges of one list, every
query answers as a search of the table whose size it has loaded, whatever is
copied meanwhile. -/
theorem query_exact
    (reachable : (rangeSystem Thread w).ReachableBy
      (Parses (prefixes maps)) state) {search : Search w}
    {result : Option Nat}
    (answered : state.threads thread = .answered search result) :
    search.count ≤ maps.length ∧
      result =
        searchRanges (tableOf (mapsWords maps) search.count) search.addr := by
  have both : Sound (prefixes maps) state ∧ Exact maps state := by
    apply reachable.invariant
      (fun state => Sound (prefixes maps) state ∧ Exact maps state)
    · intro start initial
      rw [initial]
      exact ⟨sound_initial _, fun _ => ⟨trivial, nofun⟩⟩
    · intro before label after invariant allowed taken
      have moved := rangeNext_moved taken
      exact ⟨moved.sound allowed invariant.1,
        moved.exact invariant.1 invariant.2⟩
  have answers := both.2 thread
  rw [answered] at answers
  exact ⟨answers.fits search rfl, answers.follows⟩

end Prefixes

/-- A query between the first word and the last of a table that grows. -/
def grownRun : List (RangeLabel Worker 64) :=
  fillFirst .first (grownTable.take 1) ++
    [.step .first, .step .first, .query .second 0x1801, .step .second,
      .parse .second none, .step .second, .step .second] ++
    fillFirst .third grownTable ++
    [.step .second, .step .second, .copy .third 1 .lo]

theorem query_exact_grownRun :
    ∃ (state : RangeState Worker 64) (search : Search 64),
      state.threads .second = .answered search (some 0) ∧
        some 0 = searchRanges (tableOf (mapsWords grownTable) search.count)
          search.addr := by
  have start : (rangeSystem Worker 64).ReachableBy
      (Parses (prefixes grownTable)) .initial := .start rfl
  have allowed : ∀ label ∈ grownRun, ∀ passed,
      Parses (prefixes grownTable) passed label := by
    simp [grownRun, fillFirst, Parses, prefixes, grownTable]
  have ends : ((rangeSystem Worker 64).run .initial grownRun).map
      (fun state => state.threads .second) =
        some (.answered ⟨0x1800, 1, 0, 0, 1⟩ (some 0)) := by
    decide
  obtain ⟨state, executed, answered⟩ := Option.map_eq_some_iff.mp ends
  obtain ⟨-, same⟩ := query_exact
    (System.reachableBy_of_run start allowed executed) answered
  exact ⟨state, _, answered, same⟩

end MemoryTraceTool.RangeReaders
