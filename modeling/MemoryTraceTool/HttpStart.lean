import MemoryTraceTool.Basic

/-!
# Starting and stopping the HTTP server

`mtt_http_server_start` tries to bind the requested port four times and then
the five ports after it, counting in an `int` that it narrows to 16 bits.  The
descriptor and the port are published before the thread is created.
-/

namespace MemoryTraceTool.HttpStart

/-- `mtt_http_server_t`. -/
structure HttpServer where
  running : Bool
  listenFd : Int
  port : BitVec 16
  thread : Word
  deriving DecidableEq, Repr

/-- The descriptors of the process, the ports its sockets are bound to, and
how often `close` was called for a descriptor that is not open. -/
structure Descriptors where
  isOpen : Int → Bool
  boundPort : Int → Option (BitVec 16)
  badCloses : Nat

/-- The record of the server and the descriptors of the process. -/
structure HttpState where
  server : HttpServer
  descriptors : Descriptors

/-- The answers of the system during one start: a descriptor that was not in
use, one answer for each attempt to bind, and the port that binding port 0
leads to. -/
structure StartAnswers (descriptors : Descriptors) where
  socket : Option Nat
  bind : Nat → Bool
  anyPort : BitVec 16
  listen : Bool
  pthreadCreate : Option Word
  fresh : ∀ fd, socket = some fd → descriptors.isOpen (fd : Int) = false
  anyPort_ne_zero : anyPort ≠ 0

namespace Descriptors

variable (descriptors : Descriptors)

/-- The descriptors after one more was opened. -/
def opened (fd : Int) : Descriptors :=
  { descriptors with
    isOpen := Function.update descriptors.isOpen fd true
    boundPort := Function.update descriptors.boundPort fd none }

def close (fd : Int) : Descriptors :=
  if descriptors.isOpen fd then
    { descriptors with isOpen := Function.update descriptors.isOpen fd false }
  else { descriptors with badCloses := descriptors.badCloses + 1 }

/-- A successful `bind`; for port 0 the kernel chooses. -/
def bindTo (fd : Int) (anyPort port : BitVec 16) : Descriptors :=
  { descriptors with
    boundPort := Function.update descriptors.boundPort fd
      (some (if port = 0 then anyPort else port)) }

end Descriptors

def mttHttpBindRetries : Nat := 4

/-- The attempts on the requested port from one on. -/
def bindRequested (bind : Nat → Bool) : Nat → Nat → Bool
  | 0, _ => false
  | left + 1, attempt => bind attempt || bindRequested bind left (attempt + 1)

/-- The loop over the ports after the requested one, `tryPort` being an
`int`. -/
def bindFallback (bind : Nat → Bool) : Nat → Nat → Nat → Option Nat
  | 0, _, _ => none
  | left + 1, attempt, tryPort =>
      if bind attempt then some tryPort
      else bindFallback bind left (attempt + 1) (tryPort + 1)

/-- The port of the attempt that succeeded, before it is narrowed. -/
def bindPort (bind : Nat → Bool) (port : BitVec 16) : Option Nat :=
  if bindRequested bind mttHttpBindRetries 0 then some port.toNat
  else bindFallback bind 5 mttHttpBindRetries (port.toNat + 1)

/-- `mtt_http_server_start`, with the port that it returns. -/
def mttHttpServerStart (state : HttpState)
    (answers : StartAnswers state.descriptors) (port : BitVec 16) :
    BitVec 16 × HttpState :=
  if port = 0 then (0, state)
  else if state.server.running then (state.server.port, state)
  else
    match answers.socket with
    | none => (0, state)
    | some fd =>
        let descriptors := state.descriptors.opened fd
        match bindPort answers.bind port with
        | none => (0, { state with descriptors := descriptors.close fd })
        | some tryPort =>
            let port := BitVec.ofNat 16 tryPort
            let descriptors := descriptors.bindTo fd answers.anyPort port
            if !answers.listen then
              (0, { state with descriptors := descriptors.close fd })
            else
              let server :=
                { state.server with
                  listenFd := fd
                  port := port
                  running := true }
              match answers.pthreadCreate with
              | none =>
                  (0,
                    { server := { server with running := false }
                      descriptors := descriptors.close fd })
              | some tid =>
                  (port,
                    { server := { server with thread := tid }
                      descriptors := descriptors })

/-- `mtt_http_server_stop`. -/
def mttHttpServerStop (state : HttpState) : HttpState :=
  let server := { state.server with running := false }
  if 0 < server.listenFd then
    { server := { server with listenFd := -1 }
      descriptors := state.descriptors.close server.listenFd }
  else { state with server := server }

/-- `mtt_http_reset_for_fork`, in the child. -/
def mttHttpResetForFork (state : HttpState) : HttpState :=
  let server := { state.server with running := false }
  if 0 < server.listenFd then
    { server := { server with listenFd := -1, thread := 0, port := 0 }
      descriptors := state.descriptors.close server.listenFd }
  else { state with server := { server with thread := 0, port := 0 } }

/-! ## What a start promises -/

/-- Neither stopping nor resetting closes a descriptor that is not open. -/
def StopsClean (state : HttpState) : Prop :=
  (mttHttpServerStop state).descriptors.badCloses =
      state.descriptors.badCloses ∧
    (mttHttpResetForFork state).descriptors.badCloses =
      state.descriptors.badCloses

/-- A port is returned exactly when the server runs, and the listening socket
is bound to it; otherwise nothing is left behind. -/
structure StartSound (port : BitVec 16) (socket : Option Nat)
    (result : BitVec 16 × HttpState) : Prop where
  running : result.1 ≠ 0 ↔ result.2.server.running = true
  bound : result.1 ≠ 0 →
    result.2.descriptors.isOpen result.2.server.listenFd = true ∧
      result.2.descriptors.boundPort result.2.server.listenFd =
        some result.1 ∧
      port.toNat ≤ result.1.toNat ∧
      result.1.toNat ≤ min (port.toNat + 5) 65535
  failed : result.1 = 0 →
    (∀ fd, socket = some fd →
      result.2.descriptors.isOpen (fd : Int) = false) ∧
      StopsClean result.2

/-- The first attempt that succeeds: those from 4 on are for the ports after
the requested one. -/
def firstBound (bind : Nat → Bool) : Option Nat :=
  (List.range 9).find? bind

/-- The listening socket is there and only the thread is missing. -/
def Listens {descriptors : Descriptors} (answers : StartAnswers descriptors)
    (fd attempt : Nat) : Prop :=
  answers.socket = some fd ∧ firstBound answers.bind = some attempt ∧
    answers.listen = true

/-- When a start keeps what it promises. -/
structure StartsWell (state : HttpState)
    (answers : StartAnswers state.descriptors) (port : BitVec 16) : Prop where
  /-- The port that is bound is a port. -/
  inRange : ∀ fd attempt, Listens answers fd attempt →
    answers.pthreadCreate ≠ none → port.toNat + (attempt - 3) ≤ 65535
  /-- A thread that cannot be created leaves no descriptor that `stop` would
  close. -/
  threadFails : ∀ fd attempt, Listens answers fd attempt →
    answers.pthreadCreate = none → fd = 0
  /-- Without a listening socket the old descriptor stays. -/
  stays : (∀ fd attempt, ¬ Listens answers fd attempt) →
    0 < state.server.listenFd →
    state.descriptors.isOpen state.server.listenFd = true

/-! ## The attempts -/

theorem bindRequested_eq (bind : Nat → Bool) (left attempt : Nat) :
    bindRequested bind left attempt =
      ((List.range' attempt left).find? bind).isSome := by
  induction left generalizing attempt with
  | zero => rfl
  | succ left induction =>
      rw [bindRequested, induction, List.range'_succ, List.find?_cons]
      cases bind attempt <;> rfl

theorem bindFallback_eq (bind : Nat → Bool) (left attempt tryPort : Nat) :
    bindFallback bind left attempt tryPort =
      ((List.range' attempt left).find? bind).map fun found =>
        tryPort + (found - attempt) := by
  induction left generalizing attempt tryPort with
  | zero => rfl
  | succ left induction =>
      rw [bindFallback, List.range'_succ, List.find?_cons, induction]
      cases here : bind attempt with
      | true => simp
      | false =>
          simp only [Bool.false_eq_true, if_false]
          apply Option.map_congr
          intro found isFound
          have member :=
            List.mem_range'_1.mp (List.mem_of_find?_eq_some isFound)
          omega

theorem bindPort_eq (bind : Nat → Bool) (port : BitVec 16) :
    bindPort bind port =
      (firstBound bind).map fun attempt => port.toNat + (attempt - 3) := by
  have attempts : List.range 9 = List.range' 0 4 ++ List.range' 4 5 := rfl
  rw [bindPort, bindRequested_eq, bindFallback_eq, firstBound, attempts,
    List.find?_append, mttHttpBindRetries]
  cases first : (List.range' 0 4).find? bind with
  | some attempt =>
      have member := List.mem_range'_1.mp (List.mem_of_find?_eq_some first)
      have early : attempt - 3 = 0 := by omega
      simp [early]
  | none =>
      simp only [Option.isSome_none, Bool.false_eq_true, if_false,
        Option.none_or]
      apply Option.map_congr
      intro attempt isFound
      have member := List.mem_range'_1.mp (List.mem_of_find?_eq_some isFound)
      omega

theorem firstBound_lt {bind : Nat → Bool} {attempt : Nat}
    (found : firstBound bind = some attempt) : attempt < 9 :=
  List.mem_range.mp (List.mem_of_find?_eq_some found)

/-! ## Closing -/

theorem stopsClean_iff (state : HttpState) :
    StopsClean state ↔ (0 < state.server.listenFd →
      state.descriptors.isOpen state.server.listenFd = true) := by
  unfold StopsClean mttHttpServerStop mttHttpResetForFork Descriptors.close
  by_cases positive : 0 < state.server.listenFd
  · by_cases isOpen : state.descriptors.isOpen state.server.listenFd = true
    · simp [positive, isOpen]
    · simp [positive, isOpen]
  · simp [positive]

namespace Descriptors

variable {descriptors : Descriptors} {fd : Nat}

theorem close_opened (unused : descriptors.isOpen (fd : Int) = false) :
    ((descriptors.opened fd).close fd).isOpen = descriptors.isOpen := by
  simp [close, opened, ← unused]

theorem close_bindTo (unused : descriptors.isOpen (fd : Int) = false)
    (anyPort port : BitVec 16) :
    (((descriptors.opened fd).bindTo fd anyPort port).close fd).isOpen =
      descriptors.isOpen := by
  simp [close, opened, bindTo, ← unused]

end Descriptors

/-! ## The exits -/

theorem startSound_of_kept {state later : HttpState} {port : BitVec 16}
    {socket : Option Nat} (idle : state.server.running = false)
    (server : later.server = state.server)
    (isOpen : later.descriptors.isOpen = state.descriptors.isOpen)
    (fresh : ∀ fd, socket = some fd →
      state.descriptors.isOpen (fd : Int) = false) :
    StartSound port socket (0, later) ↔
      (0 < state.server.listenFd →
        state.descriptors.isOpen state.server.listenFd = true) := by
  constructor
  · intro sound
    have clean := (sound.failed rfl).2
    rw [stopsClean_iff] at clean
    dsimp only at clean
    rw [server, isOpen] at clean
    exact clean
  · intro clean
    refine ⟨?_, fun nonzero => absurd rfl nonzero, fun _ => ⟨?_, ?_⟩⟩
    · simp [server, idle]
    · intro fd isSocket
      simp only [isOpen]
      exact fresh fd isSocket
    · rw [stopsClean_iff]
      simp only [server, isOpen]
      exact clean

section Exits

variable {state : HttpState} {answers : StartAnswers state.descriptors}
  {port : BitVec 16}

theorem not_listens_of_socket (missing : answers.socket = none)
    (fd attempt : Nat) : ¬ Listens answers fd attempt := by
  rintro ⟨isSocket, -, -⟩
  rw [missing] at isSocket
  cases isSocket

theorem not_listens_of_bind (unbound : firstBound answers.bind = none)
    (fd attempt : Nat) : ¬ Listens answers fd attempt := by
  rintro ⟨-, isBound, -⟩
  rw [unbound] at isBound
  cases isBound

theorem not_listens_of_listen (silent : answers.listen = false)
    (fd attempt : Nat) : ¬ Listens answers fd attempt := by
  rintro ⟨-, -, listens⟩
  rw [silent] at listens
  cases listens

/-- Without a listening socket only the old descriptor matters. -/
theorem startsWell_of_deaf
    (deaf : ∀ fd attempt, ¬ Listens answers fd attempt) :
    StartsWell state answers port ↔
      (0 < state.server.listenFd →
        state.descriptors.isOpen state.server.listenFd = true) := by
  constructor
  · intro well
    exact well.stays deaf
  · intro clean
    refine ⟨?_, ?_, fun _ => clean⟩
    · intro fd attempt listens
      exact absurd listens (deaf fd attempt)
    · intro fd attempt listens
      exact absurd listens (deaf fd attempt)

theorem startsWell_of_listens {fd attempt : Nat}
    (listens : Listens answers fd attempt) :
    StartsWell state answers port ↔
      (answers.pthreadCreate ≠ none →
        port.toNat + (attempt - 3) ≤ 65535) ∧
      (answers.pthreadCreate = none → fd = 0) := by
  obtain ⟨socket, bound, listening⟩ := listens
  constructor
  · intro well
    exact ⟨well.inRange fd attempt ⟨socket, bound, listening⟩,
      well.threadFails fd attempt ⟨socket, bound, listening⟩⟩
  · rintro ⟨inRange, threadFails⟩
    refine ⟨?_, ?_, ?_⟩
    · rintro other later ⟨otherSocket, otherBound, -⟩
      obtain rfl := Option.some.inj (bound.symm.trans otherBound)
      exact inRange
    · rintro other later ⟨otherSocket, -, -⟩
      obtain rfl := Option.some.inj (socket.symm.trans otherSocket)
      exact threadFails
    · intro deaf
      exact absurd ⟨socket, bound, listening⟩ (deaf fd attempt)

theorem startSound_threadFails {fd : Nat} {server : HttpServer}
    {descriptors : Descriptors} (socket : answers.socket = some fd)
    (running : server.running = false) (listenFd : server.listenFd = fd)
    (closed : descriptors.isOpen (fd : Int) = false) :
    StartSound port answers.socket (0, ⟨server, descriptors⟩) ↔ fd = 0 := by
  have clean : StopsClean ⟨server, descriptors⟩ ↔ fd = 0 := by
    rw [stopsClean_iff]
    dsimp only
    rw [listenFd, closed]
    simp
  constructor
  · intro sound
    exact clean.mp (sound.failed rfl).2
  · intro zero
    refine ⟨?_, fun nonzero => absurd rfl nonzero, fun _ => ⟨?_, ?_⟩⟩
    · simp [running]
    · intro other isSocket
      obtain rfl := Option.some.inj (socket.symm.trans isSocket)
      exact closed
    · exact clean.mpr zero

/-- The server runs on the port that was bound, if that is a port. -/
theorem startSound_running {fd attempt : Nat} {server : HttpServer}
    {descriptors : Descriptors} (positive : port ≠ 0)
    (early : attempt < 9)
    (running : server.running = true) (listenFd : server.listenFd = fd)
    (isOpen : descriptors.isOpen (fd : Int) = true)
    (bound : descriptors.boundPort (fd : Int) =
      some (if BitVec.ofNat 16 (port.toNat + (attempt - 3)) = 0 then
        answers.anyPort
      else BitVec.ofNat 16 (port.toNat + (attempt - 3)))) :
    StartSound port answers.socket
        (BitVec.ofNat 16 (port.toNat + (attempt - 3)),
          ⟨server, descriptors⟩) ↔
      port.toNat + (attempt - 3) ≤ 65535 := by
  have below : port.toNat < 65536 := port.isLt
  have above : 0 < port.toNat := by
    apply Nat.pos_of_ne_zero
    intro zero
    exact positive (BitVec.eq_of_toNat_eq zero)
  constructor
  · intro sound
    by_contra wrapped
    by_cases zero : BitVec.ofNat 16 (port.toNat + (attempt - 3)) = 0
    · exact sound.running.mpr running zero
    · have least := (sound.bound zero).2.2.1
      rw [BitVec.toNat_ofNat] at least
      omega
  · intro inRange
    have kept : (BitVec.ofNat 16 (port.toNat + (attempt - 3))).toNat =
        port.toNat + (attempt - 3) := by
      rw [BitVec.toNat_ofNat]
      exact Nat.mod_eq_of_lt (by omega)
    have nonzero : BitVec.ofNat 16 (port.toNat + (attempt - 3)) ≠ 0 := by
      intro zero
      rw [zero] at kept
      simp only [BitVec.ofNat_eq_ofNat, BitVec.toNat_ofNat] at kept
      omega
    rw [if_neg nonzero] at bound
    refine ⟨?_, fun _ => ⟨?_, ?_, ?_, ?_⟩, fun zero => absurd zero nonzero⟩
    · simp only [running, iff_true]
      exact nonzero
    · rw [listenFd]
      exact isOpen
    · rw [listenFd]
      exact bound
    · rw [kept]
      omega
    · rw [kept]
      omega

end Exits

/-- A start keeps its promise exactly if the port it binds is a port, and no
thread fails while its descriptor would stay behind. -/
theorem startSound_iff (state : HttpState)
    (answers : StartAnswers state.descriptors) (port : BitVec 16)
    (positive : port ≠ 0) (idle : state.server.running = false) :
    StartSound port answers.socket (mttHttpServerStart state answers port) ↔
      StartsWell state answers port := by
  unfold mttHttpServerStart
  simp only [positive, idle, if_false, Bool.false_eq_true, bindPort_eq]
  cases socket : answers.socket with
  | none =>
      rw [startsWell_of_deaf (not_listens_of_socket socket)]
      exact startSound_of_kept idle rfl rfl (by simp)
  | some fd =>
      have unused := answers.fresh fd socket
      have fresh : ∀ other, some fd = some other →
          state.descriptors.isOpen (other : Int) = false := by
        rintro other ⟨⟩
        exact unused
      cases bound : firstBound answers.bind with
      | none =>
          rw [startsWell_of_deaf (not_listens_of_bind bound)]
          exact startSound_of_kept idle rfl
            (Descriptors.close_opened unused) fresh
      | some attempt =>
          simp only [Option.map_some]
          cases listening : answers.listen with
          | false =>
              rw [startsWell_of_deaf (not_listens_of_listen listening)]
              exact startSound_of_kept idle rfl
                (Descriptors.close_bindTo unused _ _) fresh
          | true =>
              have listens : Listens answers fd attempt :=
                ⟨socket, bound, listening⟩
              rw [startsWell_of_listens listens, ← socket]
              cases created : answers.pthreadCreate with
              | none =>
                  have closed := congrFun (Descriptors.close_bindTo unused
                    answers.anyPort
                    (BitVec.ofNat 16 (port.toNat + (attempt - 3)))) fd
                  simp only [ne_eq, not_true_eq_false, false_implies,
                    true_and, forall_const]
                  exact startSound_threadFails socket rfl rfl
                    (closed.trans unused)
              | some tid =>
                  simp only [ne_eq, reduceCtorEq, not_false_eq_true,
                    forall_const, false_implies, and_true]
                  exact startSound_running positive (firstBound_lt bound) rfl
                    rfl (by simp [Descriptors.bindTo, Descriptors.opened])
                    (by simp [Descriptors.bindTo])

/-! ## Two starts that go wrong -/

/-- The statically initialised server, with the standard descriptors open. -/
def idleState : HttpState :=
  { server := { running := false, listenFd := 0, port := 0, thread := 0 }
    descriptors :=
      { isOpen := fun fd => decide (0 ≤ fd ∧ fd ≤ 2)
        boundPort := fun _ => none
        badCloses := 0 } }

/-- One attempt to bind succeeds. -/
def answersAt (attempt : Nat) (pthreadCreate : Option Word) :
    StartAnswers idleState.descriptors where
  socket := some 3
  bind := fun index => index == attempt
  anyPort := 40000
  listen := true
  pthreadCreate := pthreadCreate
  fresh := by
    rintro fd ⟨⟩
    rfl
  anyPort_ne_zero := by decide

theorem startSound_iff_fallback :
    StartSound 8080 (some 3)
      (mttHttpServerStart idleState (answersAt 4 (some 1)) 8080) := by
  refine (startSound_iff idleState (answersAt 4 (some 1)) 8080 (by decide)
    rfl).mpr ⟨?_, ?_, ?_⟩
  · rintro fd attempt ⟨-, bound, -⟩ -
    have isFourth : firstBound (answersAt 4 (some 1)).bind = some 4 := by
      decide
    obtain rfl := Option.some.inj (isFourth.symm.trans bound)
    decide
  · rintro fd attempt - failed
    cases failed
  · intro _ positive
    exact absurd positive (by decide)

/-- Above the last port the walk binds port 0, and the server runs although 0
is returned; a thread that cannot be created leaves a descriptor that `stop`
closes again. -/
theorem not_startSound_lastPort_threadFails :
    ¬ StartSound 65535 (some 3)
        (mttHttpServerStart idleState (answersAt 4 (some 1)) 65535) ∧
      ¬ StartSound 8080 (some 3)
        (mttHttpServerStart idleState (answersAt 0 none) 8080) := by
  constructor
  · intro sound
    exact sound.running.mpr rfl rfl
  · intro sound
    have clean := (sound.failed rfl).2.1
    exact absurd clean (by decide)

end MemoryTraceTool.HttpStart
