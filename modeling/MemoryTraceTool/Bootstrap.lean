import Mathlib.Data.List.Basic
import MemoryTraceTool.Basic
import MemoryTraceTool.Lib.Transition

/-!
# The bootstrap allocator

Until the libc functions are resolved, `bootstrap_malloc` and
`bootstrap_calloc` hand out parts of a static buffer.  A request advances the
offset by one `fetch_add` before it tests the bound, and neither the rounding
nor the test guards against overflow.
-/

namespace MemoryTraceTool.Bootstrap

open Transition

/-- Round a size up to 8 bytes, in `size_t` arithmetic. -/
def alignUp (size : Word) : Word := (size + 7) &&& ~~~7#64

/-- `bootstrap_malloc`: the offset of the block in the buffer, or `none` for
NULL, and the offset that `fetch_add` leaves. -/
def bootstrapMalloc (old size : Word) : Option Word × Word :=
  let aligned := alignUp size
  (if BitVec.ofNat 64 mttBootstrapBufSize < old + aligned then none
    else some old, old + aligned)

/-- What the bootstrap allocator is asked for. -/
inductive BootstrapCall where
  | malloc (size : Word)
  | calloc (count size : Word)
  deriving DecidableEq

/-- The overflow check of `bootstrap_calloc`. -/
def BootstrapCall.overflows : BootstrapCall → Bool
  | .malloc _ => false
  | .calloc count size =>
      decide (0 < count ∧ 0 < size ∧ BitVec.allOnes 64 / size < count)

/-- What is passed to `bootstrap_malloc`. -/
def BootstrapCall.total : BootstrapCall → Word
  | .malloc size => size
  | .calloc count size => count * size

/-- The bytes that the caller asks for. -/
def BootstrapCall.bytes : BootstrapCall → Nat
  | .malloc size => size.toNat
  | .calloc count size => count.toNat * size.toNat

/-- The call as a whole, when no other comes between. -/
def BootstrapCall.run (call : BootstrapCall) (offset : Word) :
    Option Word × Word :=
  if call.overflows then (none, offset)
  else bootstrapMalloc offset call.total

/-- A block that was returned. -/
structure Block where
  start : Word
  bytes : Nat
  deriving DecidableEq

/-- `g_bootstrap_offset`, the calls before their `fetch_add`, the blocks
returned so far, and the offsets before and after each call that failed. -/
structure BootstrapState (Thread : Type) where
  offset : Word
  pending : Thread → Option BootstrapCall
  blocks : List Block
  failed : List (Word × Word)

inductive BootstrapLabel (Thread : Type) where
  | call (thread : Thread) (call : BootstrapCall)
  | fetchAdd (thread : Thread)

variable {Thread : Type} [DecidableEq Thread]

/-- The `fetch_add` of a call, which decides its result. -/
def BootstrapState.add (state : BootstrapState Thread)
    (call : BootstrapCall) : BootstrapState Thread :=
  let (result, offset) := bootstrapMalloc state.offset call.total
  match result with
  | some start =>
      { state with
        offset
        blocks := ⟨start, call.bytes⟩ :: state.blocks }
  | none =>
      { state with offset, failed := (state.offset, offset) :: state.failed }

/-- A call begins, or adds to the offset and is answered. -/
def bootstrapNext (state : BootstrapState Thread) :
    BootstrapLabel Thread → Option (BootstrapState Thread)
  | .call thread call =>
      if state.pending thread = none then
        if call.overflows then
          some { state with
            failed := (state.offset, state.offset) :: state.failed }
        else
          some { state with
            pending := Function.update state.pending thread (some call) }
      else none
  | .fetchAdd thread =>
      (state.pending thread).map fun call =>
        { state.add call with
          pending := Function.update state.pending thread none }

def BootstrapState.initial : BootstrapState Thread :=
  { offset := 0
    pending := fun _ => none
    blocks := []
    failed := [] }

/-- Any number of threads on the buffer at load time. -/
def bootstrapSystem (Thread : Type) [DecidableEq Thread] :
    System (BootstrapState Thread) (BootstrapLabel Thread) where
  init := fun state => state = .initial
  next := bootstrapNext

/-! ## The property and its condition -/

/-- The byte belongs to the block. -/
def Block.Holds (block : Block) (byte : Nat) : Prop :=
  block.start.toNat ≤ byte ∧ byte < block.start.toNat + block.bytes

/-- The call would get a block. -/
def Succeeds (call : BootstrapCall) (offset : Word) : Prop :=
  (call.run offset).1.isSome = true

/-- Blocks lie in the buffer and apart, and a call that failed did not change
which later calls succeed. -/
structure Sound (state : BootstrapState Thread) : Prop where
  inside : ∀ block ∈ state.blocks,
    block.start.toNat + block.bytes ≤ mttBootstrapBufSize
  apart : state.blocks.Pairwise fun block other =>
    ∀ byte, ¬ (block.Holds byte ∧ other.Holds byte)
  failed : ∀ offsets ∈ state.failed, ∀ call,
    Succeeds call offsets.1 ↔ Succeeds call offsets.2

/-- The rounded size fits into what is left of the buffer. -/
def Fits (offset : Word) (call : BootstrapCall) : Prop :=
  offset.toNat + (call.total.toNat + 7) / 8 * 8 ≤ mttBootstrapBufSize

instance (offset : Word) (call : BootstrapCall) :
    Decidable (Fits offset call) :=
  inferInstanceAs (Decidable (_ ≤ _))

/-- Each call fits when it reaches its `fetch_add`. -/
def StepFits (state : BootstrapState Thread) :
    BootstrapLabel Thread → Prop
  | .call _ _ => True
  | .fetchAdd thread => ∀ call ∈ state.pending thread, Fits state.offset call

/-! ## One call -/

theorem and_not_seven (word : Word) :
    word &&& ~~~7#64 = word >>> 3 <<< 3 := by
  have mask : ∀ index : Fin 64,
      (~~~7#64).getLsbD index = !decide (index < 3) := by
    decide
  apply BitVec.eq_of_getLsbD_eq
  intro index inside
  rw [BitVec.getLsbD_and, mask ⟨index, inside⟩, BitVec.getLsbD_shiftLeft,
    BitVec.getLsbD_ushiftRight]
  by_cases small : index < 3
  · simp [Fin.lt_def, small]
  · have back : 3 + (index - 3) = index := by omega
    simp [Fin.lt_def, small, inside, back]

/-- The rounding wraps for the seven largest sizes. -/
theorem alignUp_toNat (size : Word) :
    (alignUp size).toNat = (size.toNat + 7) % 2 ^ 64 / 8 * 8 := by
  have seven : (7 : Word).toNat = 7 := rfl
  unfold alignUp
  rw [and_not_seven, BitVec.toNat_shiftLeft, BitVec.toNat_ushiftRight,
    BitVec.toNat_add, Nat.shiftRight_eq_div_pow, Nat.shiftLeft_eq, seven]
  omega

/-- Past the overflow check the product is exact. -/
theorem BootstrapCall.total_toNat {call : BootstrapCall}
    (passed : call.overflows = false) : call.total.toNat = call.bytes := by
  cases call with
  | malloc size => rfl
  | calloc count size =>
      simp only [BootstrapCall.overflows, decide_eq_false_iff_not, not_and,
        BitVec.lt_def, BitVec.toNat_udiv, BitVec.toNat_allOnes] at passed
      simp only [BootstrapCall.total, BootstrapCall.bytes, BitVec.toNat_mul]
      apply Nat.mod_eq_of_lt
      by_cases zero : count.toNat = 0 ∨ size.toNat = 0
      · rcases zero with zero | zero <;> simp [zero]
      · have positive : 0 < count.toNat ∧ 0 < size.toNat := by omega
        have bound := Nat.le_of_not_lt (passed positive.1 positive.2)
        rw [Nat.le_div_iff_mul_le positive.2] at bound
        omega

theorem bufSize_lt (word : Word) :
    BitVec.ofNat 64 mttBootstrapBufSize < word ↔
      mttBootstrapBufSize < word.toNat :=
  Iff.rfl

/-- A call that fits gets the next part of the buffer. -/
theorem bootstrapMalloc_of_fits {offset : Word} {call : BootstrapCall}
    (fits : Fits offset call) :
    (bootstrapMalloc offset call.total).1 = some offset ∧
      (bootstrapMalloc offset call.total).2.toNat =
        offset.toNat + (call.total.toNat + 7) / 8 * 8 := by
  have aligned := alignUp_toNat call.total
  have next : (offset + alignUp call.total).toNat =
      offset.toNat + (call.total.toNat + 7) / 8 * 8 := by
    unfold Fits mttBootstrapBufSize at fits
    rw [BitVec.toNat_add, aligned]
    omega
  constructor
  · simp only [bootstrapMalloc]
    rw [if_neg]
    rw [bufSize_lt, next]
    exact Nat.not_lt.mpr fits
  · exact next

/-- A call that does not fit fails and moves the offset out of the buffer, or
gets a block that is longer than the buffer. -/
theorem bootstrapMalloc_of_not_fits {offset : Word} {call : BootstrapCall}
    (bounded : offset.toNat ≤ mttBootstrapBufSize)
    (unfit : ¬ Fits offset call) :
    ((bootstrapMalloc offset call.total).1 = none ∧
      mttBootstrapBufSize <
        (bootstrapMalloc offset call.total).2.toNat) ∨
    ((bootstrapMalloc offset call.total).1 = some offset ∧
      mttBootstrapBufSize < call.total.toNat) := by
  have aligned := alignUp_toNat call.total
  have size := call.total.isLt
  unfold Fits mttBootstrapBufSize at unfit
  simp only [bootstrapMalloc]
  by_cases rejected : BitVec.ofNat 64 mttBootstrapBufSize <
      offset + alignUp call.total
  · left
    rw [if_pos rejected]
    exact ⟨rfl, (bufSize_lt _).mp rejected⟩
  · right
    rw [if_neg rejected]
    refine ⟨rfl, ?_⟩
    rw [bufSize_lt, BitVec.toNat_add, aligned] at rejected
    unfold mttBootstrapBufSize at rejected bounded ⊢
    omega

/-! ## Runs -/

/-- The blocks lie below the offset, which stays in the buffer. -/
structure Progress (state : BootstrapState Thread) : Prop where
  bounded : state.offset.toNat ≤ mttBootstrapBufSize
  below : ∀ block ∈ state.blocks,
    block.start.toNat + block.bytes ≤ state.offset.toNat
  pending : ∀ thread, ∀ call ∈ state.pending thread, call.overflows = false

omit [DecidableEq Thread] in
theorem BootstrapState.add_of_fits (state : BootstrapState Thread)
    {call : BootstrapCall} (fits : Fits state.offset call) :
    state.add call =
      { state with
        offset := (bootstrapMalloc state.offset call.total).2
        blocks := ⟨state.offset, call.bytes⟩ :: state.blocks } := by
  unfold BootstrapState.add
  simp only [(bootstrapMalloc_of_fits fits).1]

omit [DecidableEq Thread] in
theorem add_progress {state : BootstrapState Thread} {call : BootstrapCall}
    (progress : Progress state) (sound : Sound state)
    (passed : call.overflows = false) (fits : Fits state.offset call) :
    Progress (state.add call) ∧ Sound (state.add call) := by
  have offset := (bootstrapMalloc_of_fits fits).2
  have bytes := call.total_toNat passed
  have room := fits
  unfold Fits at room
  rw [state.add_of_fits fits]
  constructor
  · constructor
    · rw [offset]
      exact fits
    · intro block member
      rcases List.mem_cons.mp member with rfl | earlier
      · rw [offset]
        dsimp only
        omega
      · have below := progress.below block earlier
        rw [offset]
        omega
    · exact progress.pending
  · constructor
    · intro block member
      rcases List.mem_cons.mp member with rfl | earlier
      · dsimp only
        omega
      · exact sound.inside block earlier
    · refine List.pairwise_cons.mpr ⟨?_, sound.apart⟩
      rintro block earlier byte ⟨new, old⟩
      have below := progress.below block earlier
      unfold Block.Holds at new old
      dsimp only at new
      omega
    · exact sound.failed

/-- A call of no bytes succeeds just while the offset is in the buffer. -/
theorem succeeds_zero_iff (offset : Word) :
    Succeeds (.malloc 0) offset ↔ offset.toNat ≤ mttBootstrapBufSize := by
  have zero : alignUp 0 = 0 := by decide
  have notOver : (BootstrapCall.malloc 0).overflows = false := rfl
  unfold Succeeds BootstrapCall.run bootstrapMalloc
  simp only [notOver, BootstrapCall.total, zero, add_zero, bufSize_lt,
    Bool.false_eq_true, if_false]
  by_cases outside : mttBootstrapBufSize < offset.toNat
  · simp [outside, Nat.not_le.mpr outside]
  · simp [outside, Nat.not_lt.mp outside]

omit [DecidableEq Thread] in
theorem fits_of_add_sound {state : BootstrapState Thread}
    {call : BootstrapCall} (progress : Progress state)
    (passed : call.overflows = false) (sound : Sound (state.add call)) :
    Fits state.offset call := by
  by_contra unfit
  rcases bootstrapMalloc_of_not_fits progress.bounded unfit with
    ⟨none, outside⟩ | ⟨some, long⟩
  · have added : (state.offset,
        (bootstrapMalloc state.offset call.total).2) ∈
          (state.add call).failed := by
      unfold BootstrapState.add
      simp only [none]
      exact List.mem_cons_self
    have same := sound.failed _ added (.malloc 0)
    rw [succeeds_zero_iff, succeeds_zero_iff] at same
    exact Nat.not_le.mpr outside (same.mp progress.bounded)
  · have added : (⟨state.offset, call.bytes⟩ : Block) ∈
        (state.add call).blocks := by
      unfold BootstrapState.add
      simp only [some]
      exact List.mem_cons_self
    have inside := sound.inside _ added
    rw [call.total_toNat passed] at long
    dsimp only at inside
    omega

theorem next_sound {state target : BootstrapState Thread}
    {label : BootstrapLabel Thread} (progress : Progress state)
    (sound : Sound state) (fits : StepFits state label)
    (taken : bootstrapNext state label = some target) :
    Progress target ∧ Sound target := by
  cases label with
  | call thread call =>
      simp only [bootstrapNext] at taken
      split at taken
      · split at taken
        · obtain rfl := Option.some.inj taken
          refine ⟨{ progress with }, { sound with failed := ?_ }⟩
          intro offsets member other
          rcases List.mem_cons.mp member with rfl | earlier
          · exact Iff.rfl
          · exact sound.failed offsets earlier other
        · rename_i passed
          obtain rfl := Option.some.inj taken
          refine ⟨{ progress with pending := ?_ }, { sound with }⟩
          intro other waiting member
          dsimp only at member
          by_cases same : other = thread
          · subst same
            rw [Function.update_self] at member
            obtain rfl := Option.some.inj member
            exact Bool.eq_false_of_not_eq_true passed
          · rw [Function.update_of_ne same] at member
            exact progress.pending other waiting member
      · cases taken
  | fetchAdd thread =>
      obtain ⟨call, waiting, rfl⟩ := Option.map_eq_some_iff.mp taken
      have callFits := fits call waiting
      obtain ⟨laterProgress, laterSound⟩ := add_progress progress sound
        (progress.pending thread call waiting) callFits
      refine ⟨{ laterProgress with pending := ?_ }, { laterSound with }⟩
      intro other pending member
      dsimp only at member
      by_cases same : other = thread
      · subst same
        rw [Function.update_self] at member
        cases member
      · rw [Function.update_of_ne same] at member
        exact progress.pending other pending member

theorem fits_of_next_sound {state target : BootstrapState Thread}
    {label : BootstrapLabel Thread} (progress : Progress state)
    (taken : bootstrapNext state label = some target)
    (sound : Sound target) : StepFits state label := by
  cases label with
  | call thread call => trivial
  | fetchAdd thread =>
      obtain ⟨call, waiting, rfl⟩ := Option.map_eq_some_iff.mp taken
      intro other same
      rw [waiting] at same
      obtain rfl := Option.some.inj same
      apply fits_of_add_sound progress (progress.pending thread _ waiting)
      exact { sound with }

/-- The results of a run are sound in all its states just when every call fits
when it takes its part. -/
theorem bootstrap_sound_iff_fits
    (labels : List (BootstrapLabel Thread)) :
    (∀ passed ∈ (bootstrapSystem Thread).visited .initial labels,
      Sound passed) ↔
      (bootstrapSystem Thread).Meets StepFits .initial labels := by
  apply System.forall_visited_iff_meets
  · intro state label target progress sound fits taken
    exact (next_sound progress sound fits taken).1
  · intro state label target progress sound taken
    constructor
    · exact fits_of_next_sound progress taken
    · intro fits
      exact (next_sound progress sound fits taken).2
  · constructor
    · exact Nat.zero_le _
    · intro block member
      cases member
    · intro thread call member
      cases member
  · constructor
    · intro block member
      cases member
    · exact List.Pairwise.nil
    · intro offsets member
      cases member

/-- The entry pool, asked for before `malloc` is resolved, does not fit. -/
def poolRequest : List (BootstrapLabel Worker) :=
  [.call .first (.malloc 20971440), .fetchAdd .first]

/-- The request fails and leaves no room for any later one. -/
theorem bootstrap_exhausted_by_poolRequest :
    ¬ ∀ labels : List (BootstrapLabel Worker),
      ∀ passed ∈ (bootstrapSystem Worker).visited .initial labels,
        Sound passed := by
  intro sound
  have meets := (bootstrap_sound_iff_fits poolRequest).mp (sound poolRequest)
  have fits : Fits 0 (.malloc 20971440) := meets.2.1 _ rfl
  revert fits
  decide

end MemoryTraceTool.Bootstrap
