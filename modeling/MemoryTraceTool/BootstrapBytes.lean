import MemoryTraceTool.Bootstrap

/-!
# The contents of the bootstrap blocks

`bootstrap_calloc` clears its block and `bootstrap_realloc` copies the old one,
of which it does not know the size, while other threads allocate and write.
The program may use a block from its return until it frees it or passes it to
`bootstrap_realloc`.
-/

namespace MemoryTraceTool.BootstrapBytes

open Bootstrap Transition

/-! ## The buffer and who may use it -/

/-- Who may use a byte of the buffer: nobody yet, a call that works on it, the
program, which may rely on its value, or nobody any more. -/
inductive Cell (Thread : Type) where
  | unused
  | busy (thread : Thread)
  | owned (known : Option UInt8)
  | gone
  deriving DecidableEq

variable {Thread : Type}

def Cell.isOwned : Cell Thread → Bool
  | .owned _ => true
  | .unused | .busy _ | .gone => false

def Cell.known : Cell Thread → Option UInt8
  | .owned known => known
  | .unused | .busy _ | .gone => none

/-- A block passed to `bootstrap_realloc`.  Its size and what the program
relies on in it are ghosts. -/
structure Held where
  start : Nat
  bytes : Nat
  known : Nat → Option UInt8

/-- A block to be allocated, for a `realloc` with the block it takes the place
of. -/
inductive Request where
  | fresh (call : BootstrapCall)
  | grown (held : Held) (size : Word)

/-- The call of `bootstrap_malloc` in a request. -/
def Request.call : Request → BootstrapCall
  | .fresh call => call
  | .grown _ size => .malloc size

def Request.held : Request → Option Held
  | .fresh _ => none
  | .grown held _ => some held

/-- The bytes that `memset` and `memcpy` write. -/
def Request.filled : Request → Nat
  | .fresh (.malloc _) => 0
  | .fresh (.calloc count size) => (alignUp (count * size)).toNat
  | .grown _ size =>
      if size.toNat < mttBootstrapBufSize then size.toNat
      else mttBootstrapBufSize

/-- What the program may rely on in the new block. -/
def Request.known : Request → Nat → Option UInt8
  | .fresh (.malloc _), _ => none
  | .fresh (.calloc _ _), _ => some 0
  | .grown held _, index =>
      if index < held.bytes then held.known index else none

/-- A new block that is filled, and the indices not written yet. -/
structure Filling where
  start : Nat
  request : Request
  todo : List Nat

/-- The bytes that the caller asks for. -/
def Filling.bytes (filling : Filling) : Nat := filling.request.call.bytes

/-- The bytes that are set apart. -/
def Filling.aligned (filling : Filling) : Nat :=
  (alignUp filling.request.call.total).toNat

/-- The byte that is written. -/
def Filling.source (filling : Filling) (bytes : Nat → UInt8) (index : Nat) :
    UInt8 :=
  match filling.request.held with
  | none => 0
  | some held => bytes (held.start + index)

/-- A thread is about to add to the offset, or fills its block byte by byte. -/
inductive ThreadPc where
  | idle
  | adding (request : Request)
  | filling (filling : Filling)

def ThreadPc.isIdle : ThreadPc → Bool
  | .idle => true
  | .adding _ | .filling _ => false

/-- `g_bootstrap_buf`, `g_bootstrap_offset`, the users of the bytes and the
threads. -/
structure ByteState (Thread : Type) where
  bytes : Nat → UInt8
  offset : Word
  cells : Nat → Cell Thread
  threads : Thread → ThreadPc

/-- A label of `realloc` or `free` tells the size of the block too. -/
inductive ByteLabel (Thread : Type) where
  | call (thread : Thread) (call : BootstrapCall)
  | realloc (thread : Thread) (ptr : Option Nat) (bytes : Nat) (size : Word)
  | free (ptr bytes : Nat)
  | fetchAdd (thread : Thread)
  | fill (thread : Thread) (index : Nat)
  | leave (thread : Thread)
  | write (address : Nat) (value : UInt8)

def ByteState.initial : ByteState Thread :=
  { bytes := fun _ => 0
    offset := 0
    cells := fun _ => .unused
    threads := fun _ => .idle }

/-- The bytes of a block are marked. -/
def markBlock (start bytes : Nat) (mark : Nat → Cell Thread)
    (cells : Nat → Cell Thread) : Nat → Cell Thread := fun address =>
  if start ≤ address ∧ address < start + bytes then mark (address - start)
  else cells address

def markHeld (request : Request) (mark : Held → Nat → Cell Thread)
    (cells : Nat → Cell Thread) : Nat → Cell Thread :=
  match request.held with
  | none => cells
  | some held => markBlock held.start held.bytes (mark held) cells

/-- The program owns the block, in the part that has been given out. -/
def ByteState.owns (state : ByteState Thread) (ptr bytes : Nat) : Bool :=
  decide (ptr ≤ state.offset.toNat ∧ ptr ≤ mttBootstrapBufSize) &&
    (List.range bytes).all fun index => (state.cells (ptr + index)).isOwned

section System

variable [DecidableEq Thread]

def ByteState.setThread (state : ByteState Thread) (thread : Thread)
    (pc : ThreadPc) : ByteState Thread :=
  { state with threads := Function.update state.threads thread pc }

/-- The first lines of `bootstrap_malloc` and `bootstrap_calloc`. -/
def ByteState.enter (state : ByteState Thread) (thread : Thread)
    (call : BootstrapCall) : ByteState Thread :=
  if call.overflows then state
  else state.setThread thread (.adding (.fresh call))

/-- `bootstrap_free` does nothing; the program gives the block up. -/
def ByteState.drop (state : ByteState Thread) (ptr bytes : Nat) :
    ByteState Thread :=
  { state with cells := markBlock ptr bytes (fun _ => .gone) state.cells }

/-- The first lines of `bootstrap_realloc`. -/
def ByteState.enterRealloc (state : ByteState Thread) (thread : Thread)
    (ptr bytes : Nat) (size : Word) : ByteState Thread :=
  if size = 0 then state.drop ptr bytes
  else
    let held : Held :=
      { start := ptr
        bytes
        known := fun index => (state.cells (ptr + index)).known }
    { state.setThread thread (.adding (.grown held size)) with
      cells := markBlock ptr bytes (fun _ => .busy thread) state.cells }

/-- The `fetch_add`, and NULL or the block that is to be filled. -/
def ByteState.add (state : ByteState Thread) (thread : Thread)
    (request : Request) : ByteState Thread :=
  let (result, offset) := bootstrapMalloc state.offset request.call.total
  match result with
  | none =>
      { state.setThread thread .idle with
        offset
        cells := markHeld request
          (fun held index => .owned (held.known index)) state.cells }
  | some start =>
      { state.setThread thread
          (.filling ⟨start.toNat, request, List.range request.filled⟩) with
        offset
        cells := markBlock start.toNat (alignUp request.call.total).toNat
          (fun _ => .busy thread) state.cells }

/-- The new block is returned, and the old one is over. -/
def ByteState.give (state : ByteState Thread) (thread : Thread)
    (filling : Filling) : ByteState Thread :=
  { state.setThread thread .idle with
    cells := markBlock filling.start filling.aligned
      (fun index =>
        if index < filling.bytes then .owned (filling.request.known index)
        else .gone)
      (markHeld filling.request (fun _ _ => .gone) state.cells) }

def byteNext (state : ByteState Thread) :
    ByteLabel Thread → Option (ByteState Thread)
  | .call thread call =>
      if (state.threads thread).isIdle then some (state.enter thread call)
      else none
  | .realloc thread none _ size =>
      if (state.threads thread).isIdle then
        some (state.enter thread (.malloc size))
      else none
  | .realloc thread (some ptr) bytes size =>
      if (state.threads thread).isIdle && state.owns ptr bytes then
        some (state.enterRealloc thread ptr bytes size)
      else none
  | .free ptr bytes =>
      if state.owns ptr bytes then some (state.drop ptr bytes) else none
  | .fetchAdd thread =>
      match state.threads thread with
      | .adding request => some (state.add thread request)
      | .idle | .filling _ => none
  | .fill thread index =>
      match state.threads thread with
      | .filling filling =>
          if index ∈ filling.todo then
            some
              { state.setThread thread
                  (.filling
                    { filling with todo := filling.todo.erase index }) with
                bytes := Function.update state.bytes (filling.start + index)
                  (filling.source state.bytes index) }
          else none
      | .idle | .adding _ => none
  | .leave thread =>
      match state.threads thread with
      | .filling filling =>
          if filling.todo = [] then some (state.give thread filling) else none
      | .idle | .adding _ => none
  | .write address value =>
      if (state.cells address).isOwned then
        some
          { state with
            bytes := Function.update state.bytes address value
            cells := Function.update state.cells address
              (.owned (some value)) }
      else none

/-- Any number of threads that allocate and write. -/
def byteSystem (Thread : Type) [DecidableEq Thread] :
    System (ByteState Thread) (ByteLabel Thread) where
  init := fun state => state = .initial
  next := byteNext

end System

/-- The call fails, or its block ends in the buffer. -/
def Guarded (offset : Word) (call : BootstrapCall) : Prop :=
  (bootstrapMalloc offset call.total).1 = none ∨ Fits offset call

instance (offset : Word) (call : BootstrapCall) :
    Decidable (Guarded offset call) :=
  inferInstanceAs (Decidable (_ ∨ _))

def ThreadPc.request : ThreadPc → Option Request
  | .adding request => some request
  | .idle | .filling _ => none

/-- No size is so large that the end of its block wraps around. -/
def StepGuarded (state : ByteState Thread) : ByteLabel Thread → Prop
  | .fetchAdd thread =>
      ∀ request ∈ (state.threads thread).request,
        Guarded state.offset request.call
  | .call _ _ | .realloc _ _ _ _ | .free _ _ | .fill _ _ | .leave _
  | .write _ _ => True

/-! ## What the bytes hold -/

/-- The thread has the old block, and the bytes that count are there. -/
structure HeldSound (state : ByteState Thread) (thread : Thread)
    (held : Held) : Prop where
  busy : ∀ index < held.bytes,
    state.cells (held.start + index) = .busy thread
  known : ∀ index < held.bytes, ∀ value, held.known index = some value →
    state.bytes (held.start + index) = value

/-- A new block is set apart above the old one and holds, where it has been
written, what the program relies on. -/
structure FillingSound (state : ByteState Thread) (thread : Thread)
    (filling : Filling) : Prop where
  bound : filling.bytes ≤ filling.aligned
  inside : filling.start + filling.aligned ≤ mttBootstrapBufSize
  busy : ∀ index < filling.aligned,
    state.cells (filling.start + index) = .busy thread
  todo : ∀ index ∈ filling.todo, index < filling.aligned
  held : ∀ held ∈ filling.request.held, HeldSound state thread held ∧
    held.start ≤ filling.start ∧
      ∀ index < held.bytes, held.start + index < filling.start
  written : ∀ index < filling.bytes, index ∉ filling.todo → ∀ value,
    filling.request.known index = some value →
      state.bytes (filling.start + index) = value

def PcSound (state : ByteState Thread) (thread : Thread) : ThreadPc → Prop
  | .idle => True
  | .adding request =>
      request.call.overflows = false ∧
        ∀ held ∈ request.held, HeldSound state thread held ∧
          held.start ≤ state.offset.toNat ∧
            held.start ≤ mttBootstrapBufSize
  | .filling filling => FillingSound state thread filling

/-- The bytes in use lie below the offset and hold what the program relies
on. -/
structure CellsSound (offset : Nat) (bytes : Nat → UInt8)
    (cells : Nat → Cell Thread) : Prop where
  used : ∀ address, cells address ≠ .unused →
    address < offset ∧ address < mttBootstrapBufSize
  known : ∀ address value, cells address = .owned (some value) →
    bytes address = value

/-- What holds between the steps of all threads. -/
structure Sound (state : ByteState Thread) : Prop where
  cells : CellsSound state.offset.toNat state.bytes state.cells
  threads : ∀ thread, PcSound state thread (state.threads thread)

/-! ## Marked blocks -/

section Marks

variable {start bytes index address : Nat} {mark : Nat → Cell Thread}
  {cells : Nat → Cell Thread}

theorem markBlock_inside (inside : index < bytes) :
    markBlock start bytes mark cells (start + index) = mark index := by
  unfold markBlock
  rw [if_pos (by omega), Nat.add_sub_cancel_left]

theorem markBlock_outside
    (outside : ∀ index < bytes, address ≠ start + index) :
    markBlock start bytes mark cells address = cells address := by
  unfold markBlock
  rw [if_neg]
  rintro ⟨above, below⟩
  exact outside (address - start) (by omega) (by omega)

theorem markBlock_cases (start bytes address : Nat) :
    (∃ index < bytes, address = start + index) ∨
      ∀ index < bytes, address ≠ start + index := by
  by_cases inside : start ≤ address ∧ address < start + bytes
  · exact .inl ⟨address - start, by omega, by omega⟩
  · exact .inr fun index below same => inside ⟨by omega, by omega⟩

/-- A byte that is marked otherwise is not in the block. -/
theorem outside_of_ne {cell : Cell Thread}
    (apart : ∀ index < bytes, cells (start + index) ≠ cell)
    (marked : cells address = cell) :
    ∀ index < bytes, address ≠ start + index := by
  intro index below same
  exact apart index below (same ▸ marked)

theorem CellsSound.marks {offset : Nat} {values : Nat → UInt8}
    (sound : CellsSound offset values cells)
    (inside : ∀ index < bytes,
      start + index < offset ∧ start + index < mttBootstrapBufSize)
    (marked : ∀ index < bytes, ∀ value, mark index = .owned (some value) →
      values (start + index) = value) :
    CellsSound offset values (markBlock start bytes mark cells) := by
  constructor
  · intro address used
    rcases markBlock_cases start bytes address with
      ⟨index, below, rfl⟩ | outside
    · exact inside index below
    · rw [markBlock_outside outside] at used
      exact sound.used address used
  · intro address value known
    rcases markBlock_cases start bytes address with
      ⟨index, below, rfl⟩ | outside
    · rw [markBlock_inside below] at known
      exact marked index below value known
    · rw [markBlock_outside outside] at known
      exact sound.known address value known

theorem CellsSound.remark {offset : Nat} {values : Nat → UInt8}
    (sound : CellsSound offset values cells)
    (used : ∀ index < bytes, cells (start + index) ≠ .unused)
    (marked : ∀ index < bytes, ∀ value, mark index = .owned (some value) →
      values (start + index) = value) :
    CellsSound offset values (markBlock start bytes mark cells) :=
  sound.marks (fun index below => sound.used _ (used index below)) marked

end Marks

/-! ## Frames -/

/-- The bytes that the thread works on stay as they are. -/
def KeepsBusy (state target : ByteState Thread) (thread : Thread) : Prop :=
  ∀ address, state.cells address = .busy thread →
    target.cells address = .busy thread ∧
      target.bytes address = state.bytes address

/-- What is below the offset stays below it. -/
def OffsetGrows (state target : ByteState Thread) : Prop :=
  ∀ position ≤ mttBootstrapBufSize, position ≤ state.offset.toNat →
    position ≤ target.offset.toNat

section Frames

variable {state target : ByteState Thread} {thread : Thread}

theorem HeldSound.keeps {held : Held} (sound : HeldSound state thread held)
    (keeps : KeepsBusy state target thread) :
    HeldSound target thread held := by
  constructor
  · intro index below
    exact (keeps _ (sound.busy index below)).1
  · intro index below value known
    rw [(keeps _ (sound.busy index below)).2]
    exact sound.known index below value known

theorem HeldSound.ne {held : Held} {cell : Cell Thread}
    (sound : HeldSound state thread held) (apart : cell ≠ .busy thread) :
    ∀ index < held.bytes, state.cells (held.start + index) ≠ cell := by
  intro index below same
  exact apart (same.symm.trans (sound.busy index below))

theorem FillingSound.keeps {filling : Filling}
    (sound : FillingSound state thread filling)
    (keeps : KeepsBusy state target thread) :
    FillingSound target thread filling where
  bound := sound.bound
  inside := sound.inside
  busy := fun index below => (keeps _ (sound.busy index below)).1
  todo := sound.todo
  held := fun held member =>
    ⟨(sound.held held member).1.keeps keeps, (sound.held held member).2⟩
  written := by
    intro index below written value known
    have inside := Nat.lt_of_lt_of_le below sound.bound
    rw [(keeps _ (sound.busy index inside)).2]
    exact sound.written index below written value known

theorem PcSound.keeps {pc : ThreadPc} (sound : PcSound state thread pc)
    (keeps : KeepsBusy state target thread)
    (grows : OffsetGrows state target) : PcSound target thread pc := by
  cases pc with
  | idle => trivial
  | adding request =>
      obtain ⟨passed, held⟩ := sound
      refine ⟨passed, ?_⟩
      intro block member
      obtain ⟨blockSound, below, inside⟩ := held block member
      exact ⟨blockSound.keeps keeps, grows _ inside below, inside⟩
  | filling filling => exact FillingSound.keeps sound keeps

/-- A step keeps what the threads rely on that it does not concern. -/
theorem Sound.moves (sound : Sound state) (grows : OffsetGrows state target)
    (cells : CellsSound target.offset.toNat target.bytes target.cells)
    (threads : ∀ other, (target.threads other = state.threads other ∧
        KeepsBusy state target other) ∨
      PcSound target other (target.threads other)) : Sound target := by
  refine ⟨cells, ?_⟩
  intro other
  rcases threads other with ⟨same, keeps⟩ | moved
  · rw [same]
    exact (sound.threads other).keeps keeps grows
  · exact moved

end Frames

theorem CellsSound.later {state target : ByteState Thread}
    {values : Nat → UInt8} {cells : Nat → Cell Thread}
    (sound : CellsSound state.offset.toNat values cells)
    (grows : OffsetGrows state target) :
    CellsSound target.offset.toNat values cells := by
  refine ⟨?_, sound.known⟩
  intro address used
  obtain ⟨below, inside⟩ := sound.used address used
  exact ⟨grows (address + 1) inside below, inside⟩

theorem sound_initial : Sound (.initial : ByteState Thread) := by
  constructor
  · constructor
    · intro address used
      exact (used rfl).elim
    · intro address value known
      cases known
  · exact fun _ => trivial

/-! ## The steps -/

section Steps

variable [DecidableEq Thread] {state : ByteState Thread} {thread : Thread}
  {ptr bytes : Nat}

theorem setThread_other {other : Thread} {pc : ThreadPc}
    (apart : other ≠ thread) :
    (state.setThread thread pc).threads other = state.threads other :=
  Function.update_of_ne apart _ _

theorem setThread_self {pc : ThreadPc} :
    (state.setThread thread pc).threads thread = pc :=
  Function.update_self _ _ _

theorem Sound.movesThread {target : ByteState Thread} {pc : ThreadPc}
    (sound : Sound state) (grows : OffsetGrows state target)
    (cells : CellsSound target.offset.toNat target.bytes target.cells)
    (threads : target.threads = (state.setThread thread pc).threads)
    (others : ∀ other ≠ thread, KeepsBusy state target other)
    (own : PcSound target thread pc) : Sound target := by
  refine sound.moves grows cells ?_
  intro other
  by_cases same : other = thread
  · right
    rw [same, threads, setThread_self]
    exact own
  · left
    rw [threads]
    exact ⟨setThread_other same, others other same⟩

theorem enter_sound (sound : Sound state) (call : BootstrapCall) :
    Sound (state.enter thread call) := by
  unfold ByteState.enter
  cases overflows : call.overflows with
  | true => exact sound
  | false =>
      exact sound.movesThread (fun _ _ below => below) sound.cells rfl
        (fun _ _ _ busy => ⟨busy, rfl⟩) ⟨overflows, nofun⟩

omit [DecidableEq Thread] in
theorem owns_cells (owned : state.owns ptr bytes = true) :
    (ptr ≤ state.offset.toNat ∧ ptr ≤ mttBootstrapBufSize) ∧
      ∀ index < bytes, ∃ known, state.cells (ptr + index) = .owned known := by
  simp only [ByteState.owns, Bool.and_eq_true, decide_eq_true_eq,
    List.all_eq_true, List.mem_range] at owned
  refine ⟨owned.1, ?_⟩
  intro index below
  have isOwned := owned.2 index below
  cases cell : state.cells (ptr + index) with
  | owned known => exact ⟨known, rfl⟩
  | unused | busy _ | gone =>
      rw [cell] at isOwned
      cases isOwned

omit [DecidableEq Thread] in
theorem owns_ne (owned : state.owns ptr bytes = true) {cell : Cell Thread}
    (other : cell.isOwned = false) :
    ∀ index < bytes, state.cells (ptr + index) ≠ cell := by
  intro index below same
  obtain ⟨known, isOwned⟩ := (owns_cells owned).2 index below
  rw [← same, isOwned] at other
  cases other

omit [DecidableEq Thread] in
theorem drop_sound (sound : Sound state)
    (owned : state.owns ptr bytes = true) : Sound (state.drop ptr bytes) := by
  have cells : CellsSound state.offset.toNat state.bytes
      (markBlock ptr bytes (fun _ => .gone) state.cells) :=
    sound.cells.remark (owns_ne owned rfl) fun _ _ _ => nofun
  refine sound.moves (fun _ _ below => below) cells ?_
  intro other
  left
  refine ⟨rfl, ?_⟩
  intro address busy
  refine ⟨?_, rfl⟩
  change markBlock ptr bytes (fun _ => .gone) state.cells address = _
  exact (markBlock_outside (outside_of_ne (owns_ne owned rfl) busy)).trans
    busy

theorem enterRealloc_sound (sound : Sound state)
    (owned : state.owns ptr bytes = true) (size : Word) :
    Sound (state.enterRealloc thread ptr bytes size) := by
  unfold ByteState.enterRealloc
  split
  · exact drop_sound sound owned
  · have cells : CellsSound state.offset.toNat state.bytes
        (markBlock ptr bytes (fun _ => .busy thread) state.cells) :=
      sound.cells.remark (owns_ne owned rfl) fun _ _ _ => nofun
    refine sound.movesThread (fun _ _ below => below) cells rfl ?_ ?_
    · intro other _ address busy
      refine ⟨?_, rfl⟩
      change markBlock ptr bytes (fun _ => .busy thread) state.cells
        address = _
      exact (markBlock_outside
        (outside_of_ne (owns_ne owned rfl) busy)).trans busy
    · refine ⟨rfl, ?_⟩
      rintro held ⟨⟩
      refine ⟨⟨?_, ?_⟩, (owns_cells owned).1⟩
      · intro index below
        change markBlock ptr bytes (fun _ => .busy thread) state.cells
          (ptr + index) = _
        exact markBlock_inside below
      · intro index below value known
        obtain ⟨last, isOwned⟩ := (owns_cells owned).2 index below
        dsimp only at known
        rw [isOwned] at known
        apply sound.cells.known
        rw [isOwned]
        exact congrArg Cell.owned known

/-! ### The `fetch_add` -/

omit [DecidableEq Thread] in
theorem markHeld_sound {offset : Nat} {values : Nat → UInt8}
    {cells : Nat → Cell Thread} {request : Request}
    {mark : Held → Nat → Cell Thread}
    (sound : CellsSound offset values cells)
    (used : ∀ held ∈ request.held, ∀ index < held.bytes,
      cells (held.start + index) ≠ .unused)
    (marked : ∀ held ∈ request.held, ∀ index < held.bytes, ∀ value,
      mark held index = .owned (some value) →
        values (held.start + index) = value) :
    CellsSound offset values (markHeld request mark cells) := by
  cases request with
  | fresh call => exact sound
  | grown held size => exact sound.remark (used held rfl) (marked held rfl)

omit [DecidableEq Thread] in
theorem markHeld_keeps {cells : Nat → Cell Thread} {request : Request}
    {mark : Held → Nat → Cell Thread} {cell : Cell Thread} {address : Nat}
    (apart : ∀ held ∈ request.held, ∀ index < held.bytes,
      cells (held.start + index) ≠ cell)
    (marked : cells address = cell) :
    markHeld request mark cells address = cell := by
  cases request with
  | fresh call => exact marked
  | grown held size =>
      exact (markBlock_outside (outside_of_ne (apart held rfl) marked)).trans
        marked

theorem bootstrapMalloc_none {old size : Word}
    (fails : (bootstrapMalloc old size).1 = none) :
    mttBootstrapBufSize < (bootstrapMalloc old size).2.toNat := by
  simp only [bootstrapMalloc] at fails ⊢
  split at fails
  · rename_i beyond
    exact (bufSize_lt _).mp beyond
  · cases fails

theorem aligned_of_fits {offset : Word} {call : BootstrapCall}
    (fits : Fits offset call) :
    (alignUp call.total).toNat = (call.total.toNat + 7) / 8 * 8 := by
  have aligned := alignUp_toNat call.total
  have size := call.total.isLt
  unfold Fits mttBootstrapBufSize at fits
  omega

/-- The block is at least as long as the caller asks for. -/
theorem bytes_le_aligned {offset : Word} {call : BootstrapCall}
    (fits : Fits offset call) (passed : call.overflows = false) :
    call.bytes ≤ (alignUp call.total).toNat := by
  have bytes := call.total_toNat passed
  have aligned := aligned_of_fits fits
  omega

theorem Request.filled_le {offset : Word} {request : Request}
    (fits : Fits offset request.call) :
    request.filled ≤ (alignUp request.call.total).toNat := by
  have aligned := aligned_of_fits fits
  cases request with
  | fresh call =>
      cases call with
      | malloc size => exact Nat.zero_le _
      | calloc count size => exact Nat.le_refl _
  | grown held size =>
      have total : (Request.grown held size).call.total = size := rfl
      rw [total] at aligned ⊢
      simp only [Request.filled]
      split <;> omega

/-- Where the program relies on values, the whole block is written. -/
theorem Request.bytes_le_filled {offset : Word} {request : Request}
    (fits : Fits offset request.call)
    (passed : request.call.overflows = false) {index : Nat} {value : UInt8}
    (known : request.known index = some value) :
    request.call.bytes ≤ request.filled := by
  cases request with
  | fresh call =>
      cases call with
      | malloc size => cases known
      | calloc count size => exact bytes_le_aligned fits passed
  | grown held size =>
      have bytes : (Request.grown held size).call.bytes = size.toNat := rfl
      have total : (Request.grown held size).call.total = size := rfl
      unfold Fits at fits
      rw [total] at fits
      rw [bytes]
      simp only [Request.filled]
      split <;> omega

theorem add_of_none (thread : Thread) {request : Request}
    (fails : (bootstrapMalloc state.offset request.call.total).1 = none) :
    state.add thread request =
      { state.setThread thread .idle with
        offset := (bootstrapMalloc state.offset request.call.total).2
        cells := markHeld request
          (fun held index => .owned (held.known index)) state.cells } := by
  unfold ByteState.add
  simp only [fails]

theorem add_of_fits (thread : Thread) {request : Request}
    (fits : Fits state.offset request.call) :
    state.add thread request =
      { state.setThread thread
          (.filling ⟨state.offset.toNat, request,
            List.range request.filled⟩) with
        offset := (bootstrapMalloc state.offset request.call.total).2
        cells := markBlock state.offset.toNat
          (alignUp request.call.total).toNat (fun _ => .busy thread)
          state.cells } := by
  unfold ByteState.add
  simp only [(bootstrapMalloc_of_fits fits).1]

omit [DecidableEq Thread] in
/-- What is in use is not above the offset. -/
theorem Sound.outside (sound : Sound state) {address count : Nat}
    (used : state.cells address ≠ .unused) :
    ∀ index < count, address ≠ state.offset.toNat + index := by
  intro index _ same
  have before := (sound.cells.used address used).1
  omega

theorem add_failed (sound : Sound state) {request : Request}
    (pc : state.threads thread = .adding request)
    (fails : (bootstrapMalloc state.offset request.call.total).1 = none) :
    Sound (state.add thread request) := by
  have own := sound.threads thread
  rw [pc] at own
  obtain ⟨-, held⟩ := own
  have beyond := bootstrapMalloc_none fails
  have added := add_of_none thread fails
  have grows : OffsetGrows state (state.add thread request) := by
    intro position inside below
    rw [added]
    dsimp only
    omega
  have cells : CellsSound state.offset.toNat state.bytes
      (markHeld request (fun held index => .owned (held.known index))
        state.cells) := by
    apply markHeld_sound sound.cells
    · intro block member
      exact (held block member).1.ne nofun
    · intro block member index below value known
      exact (held block member).1.known index below value
        (Cell.owned.inj known)
  have later := cells.later grows
  rw [added] at grows later ⊢
  refine sound.movesThread grows later rfl ?_ trivial
  intro other same address busy
  refine ⟨?_, rfl⟩
  apply markHeld_keeps _ busy
  intro block member
  exact (held block member).1.ne (by simpa using same)

theorem add_keeps (thread : Thread) (sound : Sound state) {request : Request}
    (fits : Fits state.offset request.call) (other : Thread) :
    KeepsBusy state (state.add thread request) other := by
  intro address busy
  have used : state.cells address ≠ .unused := by
    rw [busy]
    nofun
  rw [add_of_fits thread fits]
  refine ⟨?_, rfl⟩
  dsimp only
  rw [markBlock_outside (sound.outside used), busy]

/-- The new block before its first byte is written. -/
theorem add_filling (sound : Sound state) {request : Request}
    (pc : state.threads thread = .adding request)
    (fits : Fits state.offset request.call) :
    FillingSound (state.add thread request) thread
      ⟨state.offset.toNat, request, List.range request.filled⟩ := by
  have own := sound.threads thread
  rw [pc] at own
  obtain ⟨passed, held⟩ := own
  constructor
  · exact bytes_le_aligned fits passed
  · have room := fits
    unfold Fits at room
    rw [← aligned_of_fits fits] at room
    exact room
  · intro index below
    rw [add_of_fits thread fits]
    change markBlock state.offset.toNat (alignUp request.call.total).toNat
      (fun _ => .busy thread) state.cells (state.offset.toNat + index) = _
    exact markBlock_inside below
  · intro index member
    exact Nat.lt_of_lt_of_le (List.mem_range.mp member)
      (Request.filled_le fits)
  · intro block member
    obtain ⟨blockSound, start, -⟩ := held block member
    refine ⟨blockSound.keeps (add_keeps thread sound fits thread), start, ?_⟩
    intro index below
    have apart : (.unused : Cell Thread) ≠ .busy thread := nofun
    exact (sound.cells.used _ (blockSound.ne apart index below)).1
  · intro index below missing value known
    have whole := Request.bytes_le_filled fits passed known
    exact (missing
      (List.mem_range.mpr (Nat.lt_of_lt_of_le below whole))).elim

theorem add_fits (sound : Sound state) {request : Request}
    (pc : state.threads thread = .adding request)
    (fits : Fits state.offset request.call) :
    Sound (state.add thread request) := by
  obtain ⟨-, next⟩ := bootstrapMalloc_of_fits fits
  have room := fits
  unfold Fits at room
  rw [← aligned_of_fits fits] at next room
  have added := add_of_fits thread fits
  have grows : OffsetGrows state (state.add thread request) := by
    intro position inside below
    rw [added]
    dsimp only
    omega
  have kept := sound.cells.later grows
  have keeps := add_keeps thread sound fits
  have filling := add_filling sound pc fits
  rw [added] at grows kept keeps filling ⊢
  have cells : CellsSound
      (bootstrapMalloc state.offset request.call.total).2.toNat state.bytes
      (markBlock state.offset.toNat (alignUp request.call.total).toNat
        (fun _ => .busy thread) state.cells) := by
    apply kept.marks
    · intro index below
      dsimp only
      omega
    · exact fun _ _ _ => nofun
  exact sound.movesThread grows cells rfl (fun other _ => keeps other) filling

theorem add_sound (sound : Sound state) {request : Request}
    (pc : state.threads thread = .adding request)
    (guarded : Guarded state.offset request.call) :
    Sound (state.add thread request) := by
  rcases guarded with fails | fits
  · exact add_failed sound pc fails
  · exact add_fits sound pc fits

/-! ### Filling and returning -/

omit [DecidableEq Thread] in
/-- What is written is what the program relies on. -/
theorem FillingSound.source_eq {filling : Filling}
    (sound : FillingSound state thread filling) {index : Nat} {value : UInt8}
    (known : filling.request.known index = some value) :
    filling.source state.bytes index = value := by
  obtain ⟨start, request, todo⟩ := filling
  cases request with
  | fresh call =>
      cases call with
      | malloc size => cases known
      | calloc count size => exact Option.some.inj known
  | grown held size =>
      simp only [Request.known] at known
      split at known
      · rename_i below
        exact (sound.held held rfl).1.known index below value known
      · cases known

omit [DecidableEq Thread] in
/-- A byte that is marked otherwise is not written. -/
theorem FillingSound.apart {filling : Filling}
    (sound : FillingSound state thread filling) {index address : Nat}
    (member : index ∈ filling.todo) {cell : Cell Thread}
    (marked : state.cells address = cell) (apart : cell ≠ .busy thread) :
    address ≠ filling.start + index := by
  intro same
  rw [same, sound.busy index (sound.todo index member)] at marked
  exact apart marked.symm

theorem FillingSound.fill {filling : Filling}
    (sound : FillingSound state thread filling) (index : Nat)
    (pc : ThreadPc) :
    FillingSound
      { state.setThread thread pc with
        bytes := Function.update state.bytes (filling.start + index)
          (filling.source state.bytes index) }
      thread { filling with todo := filling.todo.erase index } := by
  refine ⟨sound.bound, sound.inside, sound.busy, ?_, ?_, ?_⟩
  · intro later listed
    exact sound.todo later (List.mem_of_mem_erase listed)
  · intro held heldBy
    obtain ⟨heldSound, start, before⟩ := sound.held held heldBy
    refine ⟨⟨heldSound.busy, ?_⟩, start, before⟩
    intro position below value known
    rw [← heldSound.known position below value known]
    apply Function.update_of_ne
    have lower := before position below
    omega
  · intro position below missing value known
    by_cases now : position = index
    · rw [now] at known ⊢
      exact (Function.update_self _ _ _).trans (sound.source_eq known)
    · have earlier : position ∉ filling.todo := by
        intro listed
        exact missing ((List.mem_erase_of_ne now).mpr listed)
      rw [← sound.written position below earlier value known]
      apply Function.update_of_ne
      dsimp only
      omega

theorem fill_sound (sound : Sound state) {filling : Filling} {index : Nat}
    (pc : state.threads thread = .filling filling)
    (member : index ∈ filling.todo) :
    Sound
      { state.setThread thread
          (.filling { filling with todo := filling.todo.erase index }) with
        bytes := Function.update state.bytes (filling.start + index)
          (filling.source state.bytes index) } := by
  have own := sound.threads thread
  rw [pc] at own
  change FillingSound state thread filling at own
  refine sound.movesThread (fun _ _ below => below) ⟨sound.cells.used, ?_⟩
    rfl ?_ (own.fill index _)
  · intro address value known
    have apart := own.apart member known nofun
    exact (Function.update_of_ne apart _ _).trans
      (sound.cells.known address value known)
  · intro other same address busy
    have apart := own.apart member busy (by simpa using same)
    exact ⟨busy, Function.update_of_ne apart _ _⟩

theorem give_cells (state : ByteState Thread) (filling : Filling) :
    (state.give thread filling).cells =
      markBlock filling.start filling.aligned
        (fun index =>
          if index < filling.bytes then .owned (filling.request.known index)
          else .gone)
        (markHeld filling.request (fun _ _ => .gone) state.cells) := rfl

/-- A byte that is marked otherwise stays so when the block is returned. -/
theorem FillingSound.give_keeps {filling : Filling}
    (sound : FillingSound state thread filling) {address : Nat}
    {cell : Cell Thread} (marked : state.cells address = cell)
    (apart : cell ≠ .busy thread) :
    (state.give thread filling).cells address = cell := by
  have outside : ∀ index < filling.aligned,
      address ≠ filling.start + index := by
    apply outside_of_ne _ marked
    intro index below same
    exact apart (same.symm.trans (sound.busy index below))
  rw [give_cells, markBlock_outside outside]
  apply markHeld_keeps _ marked
  intro held member
  exact (sound.held held member).1.ne apart

theorem give_sound (sound : Sound state) {filling : Filling}
    (pc : state.threads thread = .filling filling)
    (finished : filling.todo = []) : Sound (state.give thread filling) := by
  have own := sound.threads thread
  rw [pc] at own
  change FillingSound state thread filling at own
  have given : CellsSound state.offset.toNat state.bytes
      (markHeld filling.request (fun _ _ => .gone) state.cells) := by
    apply markHeld_sound sound.cells
    · intro held member
      exact (own.held held member).1.ne nofun
    · exact fun _ _ _ _ _ => nofun
  have cells : CellsSound state.offset.toNat state.bytes
      (state.give thread filling).cells := by
    rw [give_cells]
    apply given.marks
    · intro index below
      have busy := own.busy index below
      apply sound.cells.used
      rw [busy]
      nofun
    · intro index _ value known
      split at known
      · rename_i below
        apply own.written index below _ value (Cell.owned.inj known)
        rw [finished]
        exact List.not_mem_nil
      · cases known
  refine sound.movesThread (fun _ _ below => below) cells rfl ?_ trivial
  intro other same address busy
  have apart : (.busy other : Cell Thread) ≠ .busy thread := by
    simpa using same
  exact ⟨own.give_keeps busy apart, rfl⟩

omit [DecidableEq Thread] in
theorem write_sound (sound : Sound state) {address : Nat} {value : UInt8}
    (owned : (state.cells address).isOwned = true) :
    Sound
      { state with
        bytes := Function.update state.bytes address value
        cells := Function.update state.cells address
          (.owned (some value)) } := by
  have cells : CellsSound state.offset.toNat
      (Function.update state.bytes address value)
      (Function.update state.cells address (.owned (some value))) := by
    constructor
    · intro other used
      apply sound.cells.used
      by_cases same : other = address
      · intro unused
        rw [← same, unused] at owned
        cases owned
      · rwa [Function.update_of_ne same] at used
    · intro other last known
      by_cases same : other = address
      · rw [same, Function.update_self] at known ⊢
        exact Option.some.inj (Cell.owned.inj known)
      · rw [Function.update_of_ne same] at known ⊢
        exact sound.cells.known other last known
  refine sound.moves (fun _ _ below => below) cells ?_
  intro other
  left
  refine ⟨rfl, ?_⟩
  intro place busy
  have apart : place ≠ address := by
    intro same
    rw [← same, busy] at owned
    cases owned
  exact ⟨(Function.update_of_ne apart _ _).trans busy,
    Function.update_of_ne apart _ _⟩

/-! ## Runs -/

theorem fetchAdd_eq {target : ByteState Thread}
    (taken : byteNext state (.fetchAdd thread) = some target) :
    ∃ request, state.threads thread = .adding request ∧
      target = state.add thread request := by
  simp only [byteNext] at taken
  cases pc : state.threads thread with
  | adding request =>
      rw [pc] at taken
      exact ⟨request, rfl, (Option.some.inj taken).symm⟩
  | idle | filling _ =>
      rw [pc] at taken
      cases taken

omit [DecidableEq Thread] in
theorem guarded_of_pc {request : Request}
    (guarded : StepGuarded state (.fetchAdd thread))
    (pc : state.threads thread = .adding request) :
    Guarded state.offset request.call := by
  apply guarded
  rw [pc]
  rfl

theorem fill_eq {target : ByteState Thread} {index : Nat}
    (taken : byteNext state (.fill thread index) = some target) :
    ∃ filling, state.threads thread = .filling filling ∧
      index ∈ filling.todo ∧
      target =
        { state.setThread thread
            (.filling { filling with todo := filling.todo.erase index }) with
          bytes := Function.update state.bytes (filling.start + index)
            (filling.source state.bytes index) } := by
  simp only [byteNext] at taken
  cases pc : state.threads thread with
  | filling filling =>
      rw [pc] at taken
      dsimp only at taken
      split at taken
      · rename_i member
        exact ⟨filling, rfl, member, (Option.some.inj taken).symm⟩
      · cases taken
  | idle | adding _ =>
      rw [pc] at taken
      cases taken

theorem leave_eq {target : ByteState Thread}
    (taken : byteNext state (.leave thread) = some target) :
    ∃ filling, state.threads thread = .filling filling ∧
      filling.todo = [] ∧ target = state.give thread filling := by
  simp only [byteNext] at taken
  cases pc : state.threads thread with
  | filling filling =>
      rw [pc] at taken
      dsimp only at taken
      split at taken
      · rename_i finished
        exact ⟨filling, rfl, finished, (Option.some.inj taken).symm⟩
      · cases taken
  | idle | adding _ =>
      rw [pc] at taken
      cases taken

theorem next_sound {label : ByteLabel Thread} {target : ByteState Thread}
    (sound : Sound state) (guarded : StepGuarded state label)
    (taken : byteNext state label = some target) : Sound target := by
  cases label with
  | call thread call =>
      simp only [byteNext] at taken
      split at taken
      · cases taken
        exact enter_sound sound call
      · cases taken
  | realloc thread ptr bytes size =>
      cases ptr with
      | none =>
          simp only [byteNext] at taken
          split at taken
          · cases taken
            exact enter_sound sound (.malloc size)
          · cases taken
      | some ptr =>
          simp only [byteNext] at taken
          split at taken
          · rename_i allowed
            cases taken
            rw [Bool.and_eq_true] at allowed
            exact enterRealloc_sound sound allowed.2 size
          · cases taken
  | free ptr bytes =>
      simp only [byteNext] at taken
      split at taken
      · rename_i owned
        cases taken
        exact drop_sound sound owned
      · cases taken
  | fetchAdd thread =>
      obtain ⟨request, pc, rfl⟩ := fetchAdd_eq taken
      exact add_sound sound pc (guarded_of_pc guarded pc)
  | fill thread index =>
      obtain ⟨filling, pc, member, rfl⟩ := fill_eq taken
      exact fill_sound sound pc member
  | leave thread =>
      obtain ⟨filling, pc, finished, rfl⟩ := leave_eq taken
      exact give_sound sound pc finished
  | write address value =>
      simp only [byteNext] at taken
      split at taken
      · rename_i owned
        cases taken
        exact write_sound sound owned
      · cases taken

theorem sound_reachable
    (reachable : (byteSystem Thread).ReachableBy StepGuarded state) :
    Sound state := by
  apply reachable.invariant Sound
  · intro start initial
    rw [initial]
    exact sound_initial
  · intro before label after sound guarded taken
    exact next_sound sound guarded taken

/-- In the buffer the program finds what it relies on, and a call reads and
writes inside the buffer only, and writes only bytes that are set apart for
it.  Where `memcpy` copies into its own source, it does so above the old
block. -/
theorem contents_kept
    (reachable : (byteSystem Thread).ReachableBy StepGuarded state) :
    (∀ address value, state.cells address = .owned (some value) →
      address < mttBootstrapBufSize ∧ state.bytes address = value) ∧
      ∀ thread filling, state.threads thread = .filling filling →
        ∀ index ∈ filling.todo,
          filling.start + index < mttBootstrapBufSize ∧
            state.cells (filling.start + index) = .busy thread ∧
            ∀ held ∈ filling.request.held,
              held.start + index < mttBootstrapBufSize ∧
                (index < held.bytes →
                  held.start + index < filling.start) := by
  have sound := sound_reachable reachable
  constructor
  · intro address value owned
    refine ⟨?_, sound.cells.known address value owned⟩
    apply (sound.cells.used address _).2
    rw [owned]
    nofun
  · intro thread filling pc index member
    have own := sound.threads thread
    rw [pc] at own
    change FillingSound state thread filling at own
    have below := own.todo index member
    have inside := own.inside
    refine ⟨by omega, own.busy index below, ?_⟩
    intro held heldBy
    obtain ⟨-, start, before⟩ := own.held held heldBy
    exact ⟨by omega, before index⟩

end Steps

/-- A block is cleared, written and grown to twice its size: the copy overlaps
its own source, and runs downwards. -/
def grownRun : List (ByteLabel Worker) :=
  [.call .first (.calloc 1 8), .fetchAdd .first] ++
    (List.range 8).map (.fill .first) ++
    [.leave .first, .write 0 3, .realloc .second (some 0) 8 16,
      .fetchAdd .second] ++
    (List.range 16).reverse.map (.fill .second) ++ [.leave .second]

instance : ∀ (state : ByteState Thread) (label : ByteLabel Thread),
    Decidable (StepGuarded state label)
  | state, .fetchAdd thread =>
      inferInstanceAs (Decidable (∀ request ∈ (state.threads thread).request,
        Guarded state.offset request.call))
  | _, .call _ _ | _, .realloc _ _ _ _ | _, .free _ _ | _, .fill _ _
  | _, .leave _ | _, .write _ _ => inferInstanceAs (Decidable True)

theorem contents_kept_grownRun :
    ∃ state : ByteState Worker, state.cells 8 = .owned (some 3) ∧
      state.bytes 8 = 3 := by
  have start : (byteSystem Worker).init .initial := rfl
  obtain ⟨state, reachable, tested⟩ :=
    System.exists_reachableBy_of_runBy (byteSystem Worker) StepGuarded
      (fun state => state.cells 8 == .owned (some 3)) grownRun start
      (by decide +kernel)
  have owned := beq_iff_eq.mp tested
  have kept := contents_kept reachable
  exact ⟨state, owned, (kept.1 8 3 owned).2⟩

/-! ## Bytes that the program leaves alone -/

/-- The program neither writes the byte nor gives its block up. -/
def Spares (address : Nat) : ByteLabel Thread → Prop
  | .write other _ => address ≠ other
  | .free ptr bytes | .realloc _ (some ptr) bytes _ =>
      ¬ (ptr ≤ address ∧ address < ptr + bytes)
  | .realloc _ none _ _ | .call _ _ | .fetchAdd _ | .fill _ _
  | .leave _ => True

/-- The byte has the same user and the same value. -/
def SameByte (address : Nat) (state target : ByteState Thread) : Prop :=
  target.cells address = state.cells address ∧
    target.bytes address = state.bytes address

section Spared

variable {state : ByteState Thread} {thread : Thread} {address : Nat}

theorem SameByte.refl : SameByte address state state := ⟨rfl, rfl⟩

theorem outside_of_spares {ptr bytes : Nat}
    (spares : ¬ (ptr ≤ address ∧ address < ptr + bytes)) :
    ∀ index < bytes, address ≠ ptr + index := by
  intro index below same
  exact spares ⟨by omega, by omega⟩

theorem drop_same {ptr bytes : Nat}
    (spares : ¬ (ptr ≤ address ∧ address < ptr + bytes)) :
    SameByte address state (state.drop ptr bytes) := by
  refine ⟨?_, rfl⟩
  change markBlock ptr bytes (fun _ => .gone) state.cells address = _
  exact markBlock_outside (outside_of_spares spares)

theorem ne_busy (owned : (state.cells address).isOwned = true) :
    state.cells address ≠ .busy thread := by
  intro busy
  rw [busy] at owned
  cases owned

variable [DecidableEq Thread]

theorem enter_same (call : BootstrapCall) :
    SameByte address state (state.enter thread call) := by
  unfold ByteState.enter
  split
  · exact .refl
  · exact ⟨rfl, rfl⟩

theorem enterRealloc_same {ptr bytes : Nat} (size : Word)
    (spares : ¬ (ptr ≤ address ∧ address < ptr + bytes)) :
    SameByte address state (state.enterRealloc thread ptr bytes size) := by
  unfold ByteState.enterRealloc
  split
  · exact drop_same spares
  · refine ⟨?_, rfl⟩
    change markBlock ptr bytes (fun _ => .busy thread) state.cells
      address = _
    exact markBlock_outside (outside_of_spares spares)

theorem add_same (sound : Sound state) {request : Request}
    (pc : state.threads thread = .adding request)
    (guarded : Guarded state.offset request.call)
    (owned : (state.cells address).isOwned = true) :
    SameByte address state (state.add thread request) := by
  have own := sound.threads thread
  rw [pc] at own
  obtain ⟨-, held⟩ := own
  rcases guarded with fails | fits
  · rw [add_of_none thread fails]
    refine ⟨markHeld_keeps ?_ rfl, rfl⟩
    intro block member
    exact (held block member).1.ne (ne_busy owned)
  · rw [add_of_fits thread fits]
    refine ⟨?_, rfl⟩
    have used : state.cells address ≠ .unused := by
      intro unused
      rw [unused] at owned
      cases owned
    dsimp only
    exact markBlock_outside (sound.outside used)

theorem fill_same (sound : Sound state) {filling : Filling} {index : Nat}
    (pc : state.threads thread = .filling filling)
    (member : index ∈ filling.todo)
    (owned : (state.cells address).isOwned = true) :
    SameByte address state
      { state.setThread thread
          (.filling { filling with todo := filling.todo.erase index }) with
        bytes := Function.update state.bytes (filling.start + index)
          (filling.source state.bytes index) } := by
  have own := sound.threads thread
  rw [pc] at own
  change FillingSound state thread filling at own
  have apart := own.apart member rfl (ne_busy owned)
  exact ⟨rfl, Function.update_of_ne apart _ _⟩

theorem give_same (sound : Sound state) {filling : Filling}
    (pc : state.threads thread = .filling filling)
    (owned : (state.cells address).isOwned = true) :
    SameByte address state (state.give thread filling) := by
  have own := sound.threads thread
  rw [pc] at own
  change FillingSound state thread filling at own
  exact ⟨own.give_keeps rfl (ne_busy owned), rfl⟩

/-- No step but its own writes a byte of the program. -/
theorem next_same {label : ByteLabel Thread} {target : ByteState Thread}
    (sound : Sound state) (guarded : StepGuarded state label)
    (spares : Spares address label)
    (owned : (state.cells address).isOwned = true)
    (taken : byteNext state label = some target) :
    SameByte address state target := by
  cases label with
  | call thread call =>
      simp only [byteNext] at taken
      split at taken
      · cases taken
        exact enter_same call
      · cases taken
  | realloc thread ptr bytes size =>
      cases ptr with
      | none =>
          simp only [byteNext] at taken
          split at taken
          · cases taken
            exact enter_same (.malloc size)
          · cases taken
      | some ptr =>
          simp only [byteNext] at taken
          split at taken
          · cases taken
            exact enterRealloc_same size spares
          · cases taken
  | free ptr bytes =>
      simp only [byteNext] at taken
      split at taken
      · cases taken
        exact drop_same spares
      · cases taken
  | fetchAdd thread =>
      obtain ⟨request, pc, rfl⟩ := fetchAdd_eq taken
      exact add_same sound pc (guarded_of_pc guarded pc) owned
  | fill thread index =>
      obtain ⟨filling, pc, member, rfl⟩ := fill_eq taken
      exact fill_same sound pc member owned
  | leave thread =>
      obtain ⟨filling, pc, -, rfl⟩ := leave_eq taken
      exact give_same sound pc owned
  | write other value =>
      simp only [byteNext] at taken
      split at taken
      · cases taken
        exact ⟨Function.update_of_ne spares _ _,
          Function.update_of_ne spares _ _⟩
      · cases taken

/-- Whatever the calls of all threads do, a byte that the program owns keeps
its value, relied on or not, until the program writes it or gives it up. -/
theorem owned_kept {target : ByteState Thread}
    (reachable : (byteSystem Thread).ReachableBy StepGuarded state)
    (owned : (state.cells address).isOwned = true)
    (steps : (byteSystem Thread).StepsBy
      (fun passed label => StepGuarded passed label ∧ Spares address label)
      state target) :
    (target.cells address).isOwned = true ∧
      target.bytes address = state.bytes address := by
  have invariant : Sound target ∧ SameByte address state target := by
    apply steps.preserves
      (fun passed => Sound passed ∧ SameByte address state passed)
    · intro middle label later kept allowed taken
      obtain ⟨sound, cell, byte⟩ := kept
      have isOwned : (middle.cells address).isOwned = true := by
        rw [cell]
        exact owned
      obtain ⟨sameCell, sameByte⟩ := next_same sound allowed.1 allowed.2
        isOwned taken
      exact ⟨next_sound sound allowed.1 taken, sameCell.trans cell,
        sameByte.trans byte⟩
    · exact ⟨sound_reachable reachable, .refl⟩
  obtain ⟨-, cell, byte⟩ := invariant
  rw [cell]
  exact ⟨owned, byte⟩

end Spared

/-- Another thread clears a block behind that of the first. -/
def neighbourRun : List (ByteLabel Worker) :=
  [.call .second (.calloc 3 3), .fetchAdd .second] ++
    (List.range 16).map (.fill .second) ++ [.leave .second, .write 9 7]

instance (address : Nat) : ∀ label : ByteLabel Thread,
    Decidable (Spares address label)
  | .write other _ => inferInstanceAs (Decidable (address ≠ other))
  | .free ptr bytes | .realloc _ (some ptr) bytes _ =>
      inferInstanceAs (Decidable
        (¬ (ptr ≤ address ∧ address < ptr + bytes)))
  | .realloc _ none _ _ | .call _ _ | .fetchAdd _ | .fill _ _
  | .leave _ => inferInstanceAs (Decidable True)

theorem owned_kept_neighbourRun :
    ∃ target : ByteState Worker, target.bytes 0 = 3 ∧
      target.bytes 9 = 7 := by
  have start : (byteSystem Worker).init .initial := rfl
  obtain ⟨state, reachable, tested⟩ :=
    System.exists_reachableBy_of_runBy (byteSystem Worker) StepGuarded
      (fun state => (state.cells 0).isOwned && (state.bytes 0 == 3 &&
        ((byteSystem Worker).runBy
          (fun passed label => StepGuarded passed label ∧ Spares 0 label)
          state neighbourRun).any fun target => target.bytes 9 == 7))
      ([.call .first (.calloc 1 8), .fetchAdd .first] ++
        (List.range 8).map (.fill .first) ++ [.leave .first, .write 0 3])
      start (by decide +kernel)
  rw [Bool.and_eq_true, Bool.and_eq_true, beq_iff_eq] at tested
  obtain ⟨owned, value, ends⟩ := tested
  cases executed : (byteSystem Worker).runBy
      (fun passed label => StepGuarded passed label ∧ Spares 0 label)
      state neighbourRun with
  | none =>
      rw [executed] at ends
      cases ends
  | some target =>
      rw [executed, Option.any_some, beq_iff_eq] at ends
      have kept := owned_kept reachable owned
        (System.stepsBy_of_runBy executed)
      exact ⟨target, kept.2.trans value, ends⟩

end MemoryTraceTool.BootstrapBytes
