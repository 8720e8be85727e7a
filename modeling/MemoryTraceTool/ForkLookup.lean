import MemoryTraceTool.Basic
import MemoryTraceTool.Lib.Transition

/-!
# Looking up the real `fork`

The first thread in the `fork` hook asks `dlsym` for the real function and the
others wait for its answer.  The loop in which all of them wait, the winner
included, ends when the pointer is set; the flag that it also reads has no
value for a symbol that is missing.
-/

namespace MemoryTraceTool.ForkLookup

open Transition

/-- Control points of the `fork` hook up to the call of the real function. -/
inductive ForkPc where
  | outside
  | compareExchange
  | dlsym
  | loadRawFork
  | loadResolved
  | test
  | failed
  | forking
  deriving DecidableEq, Repr

/-- `g_raw_fork`, `g_fork_resolved` and where the threads are. -/
structure ForkState (Thread : Type) where
  rawFork : Option Word
  forkResolved : Bool
  threads : Thread → ForkPc

/-- A thread calls `fork`, takes a step of the lookup, or leaves. -/
inductive ForkLabel (Thread : Type) where
  | fork (thread : Thread)
  | step (thread : Thread)
  | leave (thread : Thread)
  deriving DecidableEq, Repr

variable {Thread : Type} [DecidableEq Thread]

def ForkState.goto (state : ForkState Thread) (thread : Thread)
    (pc : ForkPc) : ForkState Thread :=
  { state with threads := Function.update state.threads thread pc }

/-- One step of `resolve_raw_fork` or of the test after it; `symbol` is what
`dlsym` answers. -/
def forkStep (symbol : Option Word) (state : ForkState Thread)
    (thread : Thread) : Option (ForkState Thread) :=
  match state.threads thread with
  | .outside | .failed | .forking => none
  | .compareExchange =>
      if state.forkResolved then some (state.goto thread .loadRawFork)
      else some { state.goto thread .dlsym with forkResolved := true }
  | .dlsym => some { state.goto thread .loadRawFork with rawFork := symbol }
  | .loadRawFork =>
      if state.rawFork = none then some (state.goto thread .loadResolved)
      else some (state.goto thread .test)
  | .loadResolved =>
      if state.forkResolved then some (state.goto thread .loadRawFork)
      else some (state.goto thread .test)
  | .test =>
      -- a missing symbol is to give `ENOSYS`
      if state.rawFork = none then some (state.goto thread .failed)
      else some (state.goto thread .forking)

def forkNext (symbol : Option Word) (state : ForkState Thread) :
    ForkLabel Thread → Option (ForkState Thread)
  | .fork thread =>
      if state.threads thread = .outside then
        some (state.goto thread .compareExchange)
      else none
  | .step thread => forkStep symbol state thread
  | .leave thread =>
      if state.threads thread = .failed ∨ state.threads thread = .forking then
        some (state.goto thread .outside)
      else none

def forkStart (Thread : Type) : ForkState Thread :=
  { rawFork := none
    forkResolved := false
    threads := fun _ => .outside }

def forkSystem (Thread : Type) [DecidableEq Thread] (symbol : Option Word) :
    System (ForkState Thread) (ForkLabel Thread) where
  init := fun state => state = forkStart Thread
  next := forkNext symbol

/-! ## Waiting -/

/-- Inside `resolve_raw_fork`. -/
def ForkPc.Resolving (pc : ForkPc) : Prop :=
  pc = .compareExchange ∨ pc = .dlsym ∨ pc = .loadRawFork ∨
    pc = .loadResolved

/-- A thread has won the exchange and is back from `dlsym`. -/
def ForkState.Answered (state : ForkState Thread) : Prop :=
  state.forkResolved = true ∧ ∀ thread, state.threads thread ≠ .dlsym

/-- Continuations of a run in which a thread stays inside, with the number of
its own steps. -/
inductive Stays (symbol : Option Word) (thread : Thread)
    (source : ForkState Thread) : Nat → ForkState Thread → Prop where
  | refl : Stays symbol thread source 0 source
  | own {count : Nat} {state target : ForkState Thread} :
      Stays symbol thread source count state →
      forkNext symbol state (.step thread) = some target →
      (target.threads thread).Resolving →
      Stays symbol thread source (count + 1) target
  | other {count : Nat} {state target : ForkState Thread}
      {label : ForkLabel Thread} :
      Stays symbol thread source count state →
      label ≠ .step thread → forkNext symbol state label = some target →
      Stays symbol thread source count target

/-- Once `dlsym` has answered, every thread inside leaves after finitely many
of its own steps, and a missing symbol can lead to `ENOSYS`. -/
def WaitsEnd (Thread : Type) [DecidableEq Thread] (symbol : Option Word) :
    Prop :=
  (∀ state, (forkSystem Thread symbol).Reachable state → state.Answered →
    ∀ thread, (state.threads thread).Resolving →
      ∃ bound, ∀ count target, Stays symbol thread state count target →
        count ≤ bound) ∧
  (symbol = none → ∃ state, (forkSystem Thread symbol).Reachable state ∧
    ∃ thread, state.threads thread = .failed)

/-! ## What a step does -/

/-- What a step of a thread does to the two variables. -/
inductive ForkMove (symbol : Option Word) (rawFork : Option Word)
    (forkResolved : Bool) :
    ForkPc → Option Word → Bool → ForkPc → Prop where
  | loses (resolved : forkResolved = true) :
      ForkMove symbol rawFork forkResolved .compareExchange rawFork
        forkResolved .loadRawFork
  | wins (unresolved : forkResolved = false) :
      ForkMove symbol rawFork forkResolved .compareExchange rawFork true
        .dlsym
  | answers :
      ForkMove symbol rawFork forkResolved .dlsym symbol forkResolved
        .loadRawFork
  | missing (missing : rawFork = none) :
      ForkMove symbol rawFork forkResolved .loadRawFork rawFork forkResolved
        .loadResolved
  | found (found : rawFork ≠ none) :
      ForkMove symbol rawFork forkResolved .loadRawFork rawFork forkResolved
        .test
  | again (resolved : forkResolved = true) :
      ForkMove symbol rawFork forkResolved .loadResolved rawFork forkResolved
        .loadRawFork
  | gives (unresolved : forkResolved = false) :
      ForkMove symbol rawFork forkResolved .loadResolved rawFork forkResolved
        .test
  | fails (missing : rawFork = none) :
      ForkMove symbol rawFork forkResolved .test rawFork forkResolved .failed
  | forks (found : rawFork ≠ none) :
      ForkMove symbol rawFork forkResolved .test rawFork forkResolved .forking
  | calls :
      ForkMove symbol rawFork forkResolved .outside rawFork forkResolved
        .compareExchange
  | leaves {pc : ForkPc} (ended : pc = .failed ∨ pc = .forking) :
      ForkMove symbol rawFork forkResolved pc rawFork forkResolved .outside

def ForkLabel.thread : ForkLabel Thread → Thread
  | .fork thread | .step thread | .leave thread => thread

theorem forkNext_cases {symbol : Option Word} {state target : ForkState Thread}
    {label : ForkLabel Thread}
    (taken : forkNext symbol state label = some target) :
    ∃ pc, target.threads =
        Function.update state.threads label.thread pc ∧
      ForkMove symbol state.rawFork state.forkResolved
        (state.threads label.thread) target.rawFork target.forkResolved
        pc := by
  cases label with
  | fork thread =>
      simp only [forkNext, Option.ite_none_right_eq_some,
        Option.some.injEq] at taken
      obtain ⟨outside, rfl⟩ := taken
      exact ⟨_, rfl, by simp only [ForkLabel.thread, outside]; exact .calls⟩
  | leave thread =>
      simp only [forkNext, Option.ite_none_right_eq_some,
        Option.some.injEq] at taken
      obtain ⟨ended, rfl⟩ := taken
      exact ⟨_, rfl, .leaves ended⟩
  | step thread =>
      simp only [forkNext, forkStep] at taken
      cases pc : state.threads thread with
      | outside | failed | forking => simp [pc] at taken
      | compareExchange =>
          simp only [pc] at taken
          split_ifs at taken with resolved <;> cases taken
          · exact ⟨_, rfl, by rw [ForkLabel.thread, pc]; exact .loses resolved⟩
          · exact ⟨_, rfl, by
              rw [ForkLabel.thread, pc]
              exact .wins (Bool.eq_false_iff.mpr resolved)⟩
      | dlsym =>
          simp only [pc, Option.some.injEq] at taken
          subst taken
          exact ⟨_, rfl, by rw [ForkLabel.thread, pc]; exact .answers⟩
      | loadRawFork =>
          simp only [pc] at taken
          split_ifs at taken with missing <;> cases taken
          · exact ⟨_, rfl, by
              rw [ForkLabel.thread, pc]
              exact .missing missing⟩
          · exact ⟨_, rfl, by rw [ForkLabel.thread, pc]; exact .found missing⟩
      | loadResolved =>
          simp only [pc] at taken
          split_ifs at taken with resolved <;> cases taken
          · exact ⟨_, rfl, by rw [ForkLabel.thread, pc]; exact .again resolved⟩
          · exact ⟨_, rfl, by
              rw [ForkLabel.thread, pc]
              exact .gives (Bool.eq_false_iff.mpr resolved)⟩
      | test =>
          simp only [pc] at taken
          split_ifs at taken with missing <;> cases taken
          · exact ⟨_, rfl, by rw [ForkLabel.thread, pc]; exact .fails missing⟩
          · exact ⟨_, rfl, by rw [ForkLabel.thread, pc]; exact .forks missing⟩

theorem thread_ne_of_resolving {symbol : Option Word}
    {state target : ForkState Thread} {label : ForkLabel Thread}
    {thread : Thread} (inside : (state.threads thread).Resolving)
    (notStep : label ≠ .step thread)
    (taken : forkNext symbol state label = some target) :
    label.thread ≠ thread := by
  rintro rfl
  cases label with
  | fork thread =>
      simp only [forkNext, Option.ite_none_right_eq_some] at taken
      simp [ForkLabel.thread, ForkPc.Resolving, taken.1] at inside
  | leave thread =>
      simp only [forkNext, Option.ite_none_right_eq_some] at taken
      rcases taken.1 with failed | forking
      · simp [ForkLabel.thread, ForkPc.Resolving, failed] at inside
      · simp [ForkLabel.thread, ForkPc.Resolving, forking] at inside
  | step thread => exact notStep rfl

/-! ## A symbol that is found -/

/-- Once the exchange is won, a thread is in `dlsym` or its answer is
stored. -/
def ForkState.Known (symbol : Option Word) (state : ForkState Thread) : Prop :=
  state.forkResolved = true →
    (∃ thread, state.threads thread = .dlsym) ∨ state.rawFork = symbol

theorem known_next {symbol : Option Word} {state target : ForkState Thread}
    {label : ForkLabel Thread} (known : state.Known symbol)
    (taken : forkNext symbol state label = some target) :
    target.Known symbol := by
  obtain ⟨pc, threads, move⟩ := forkNext_cases taken
  intro resolved
  have keeps (before : state.forkResolved = true)
      (same : target.rawFork = state.rawFork)
      (notDlsym : state.threads label.thread ≠ .dlsym) :
      (∃ thread, target.threads thread = .dlsym) ∨
        target.rawFork = symbol := by
    rcases known before with ⟨thread, asks⟩ | answered
    · left
      refine ⟨thread, ?_⟩
      have apart : thread ≠ label.thread := by
        rintro rfl
        exact notDlsym asks
      rw [threads, Function.update_of_ne apart]
      exact asks
    · right
      rw [same, answered]
  generalize was : state.threads label.thread = pcBefore at move keeps
  generalize rawAfter : target.rawFork = raw at move keeps ⊢
  generalize resolvedAfter : target.forkResolved = flag at move resolved
  cases move with
  | wins =>
      left
      refine ⟨label.thread, ?_⟩
      rw [threads, Function.update_self]
  | answers => exact .inr rfl
  | leaves ended =>
      refine keeps resolved rfl ?_
      rcases ended with rfl | rfl <;> simp
  | loses | missing | found | again | gives | fails | forks | calls =>
      exact keeps resolved rfl (by simp)

theorem known_reachable {symbol : Option Word} {state : ForkState Thread}
    (reachable : (forkSystem Thread symbol).Reachable state) :
    state.Known symbol := by
  refine reachable.invariant _ ?_ ?_
  · rintro state rfl resolved
    cases resolved
  · intro state label target known _ taken
    exact known_next known taken

/-- The answer is stored and is a function. -/
structure ForkState.Settled (state : ForkState Thread) : Prop where
  answered : state.Answered
  found : state.rawFork ≠ none

theorem settled_next {function : Word} {state target : ForkState Thread}
    {label : ForkLabel Thread} (settled : state.Settled)
    (taken : forkNext (some function) state label = some target) :
    target.Settled := by
  obtain ⟨pc, threads, move⟩ := forkNext_cases taken
  obtain ⟨⟨resolved, nobody⟩, found⟩ := settled
  have others (notDlsym : pc ≠ .dlsym) :
      ∀ thread, target.threads thread ≠ .dlsym := by
    intro thread
    rw [threads]
    by_cases same : thread = label.thread
    · rw [same, Function.update_self]
      exact notDlsym
    · rw [Function.update_of_ne same]
      exact nobody thread
  have asker := nobody label.thread
  generalize was : state.threads label.thread = pcBefore at move asker
  generalize rawAfter : target.rawFork = raw at move
  generalize resolvedAfter : target.forkResolved = flag at move
  cases move with
  | wins unresolved =>
      rw [resolved] at unresolved
      cases unresolved
  | answers => exact absurd rfl asker
  | loses | missing | found | again | gives | fails | forks | calls
  | leaves =>
      exact ⟨⟨resolvedAfter.trans resolved, others (by simp)⟩,
        by rw [rawAfter]; exact found⟩

/-- The own steps that a thread still takes before it tests a pointer that is
set. -/
def ForkPc.waits : ForkPc → Nat
  | .compareExchange | .loadResolved => 1
  | _ => 0

theorem stays_bounded {function : Word} {source target : ForkState Thread}
    {thread : Thread} {count : Nat} (settled : source.Settled)
    (inside : (source.threads thread).Resolving)
    (stays : Stays (some function) thread source count target) :
    target.Settled ∧ (target.threads thread).Resolving ∧
      count + (target.threads thread).waits ≤
        (source.threads thread).waits := by
  induction stays with
  | refl => exact ⟨settled, inside, by omega⟩
  | @own count state target _ taken insideAfter induction =>
      obtain ⟨settledNow, insideNow, fewer⟩ := induction
      refine ⟨settled_next settledNow taken, insideAfter, ?_⟩
      obtain ⟨pc, threads, move⟩ := forkNext_cases taken
      simp only [ForkLabel.thread] at threads move
      have after : target.threads thread = pc := by
        rw [threads, Function.update_self]
      rw [after] at insideAfter ⊢
      have asker := settledNow.answered.2 thread
      generalize state.threads thread = pcBefore at move fewer asker insideNow
      generalize target.rawFork = raw at move
      generalize target.forkResolved = flag at move
      cases move with
      | wins unresolved =>
          rw [settledNow.answered.1] at unresolved
          cases unresolved
      | answers => exact absurd rfl asker
      | missing missing => exact absurd missing settledNow.found
      | loses | again =>
          simp only [ForkPc.waits] at fewer ⊢
          omega
      | found | gives | fails | forks | leaves =>
          simp [ForkPc.Resolving] at insideAfter
      | calls => simp [ForkPc.Resolving] at insideNow
  | @other count state target label _ notStep taken induction =>
      obtain ⟨settledNow, insideNow, fewer⟩ := induction
      have apart := thread_ne_of_resolving insideNow notStep taken
      obtain ⟨pc, threads, -⟩ := forkNext_cases taken
      have same : target.threads thread = state.threads thread := by
        rw [threads, Function.update_of_ne apart.symm]
      rw [same]
      exact ⟨settled_next settledNow taken, insideNow, fewer⟩

/-! ## A symbol that is missing -/

/-- A thread that has learned that the symbol is missing. -/
def waitingState (thread : Thread) (pc : ForkPc) : ForkState Thread :=
  { rawFork := none
    forkResolved := true
    threads := Function.update (fun _ => .outside) thread pc }

theorem waitingState_reachable (thread : Thread) :
    (forkSystem Thread none).Reachable (waitingState thread .loadRawFork) := by
  have calls : (forkSystem Thread none).next (forkStart Thread)
      (.fork thread) =
        some ((forkStart Thread).goto thread .compareExchange) := by
    simp [forkSystem, forkNext, forkStart]
  have wins : (forkSystem Thread none).next
      ((forkStart Thread).goto thread .compareExchange) (.step thread) =
        some (waitingState thread .dlsym) := by
    simp [forkSystem, forkNext, forkStep, ForkState.goto, forkStart,
      waitingState]
  have answers : (forkSystem Thread none).next (waitingState thread .dlsym)
      (.step thread) = some (waitingState thread .loadRawFork) := by
    simp [forkSystem, forkNext, forkStep, ForkState.goto, waitingState]
  have start : (forkSystem Thread none).Reachable (forkStart Thread) :=
    .start rfl
  exact .step (.step (.step start trivial calls) trivial wins) trivial answers

theorem waitingState_answered (thread : Thread) :
    (waitingState thread .loadRawFork).Answered := by
  refine ⟨rfl, ?_⟩
  intro other
  simp only [waitingState]
  by_cases same : other = thread
  · rw [same, Function.update_self]
    decide
  · rw [Function.update_of_ne same]
    decide

theorem stays_unbounded (thread : Thread) (rounds : Nat) :
    Stays none thread (waitingState thread .loadRawFork) (2 * rounds)
      (waitingState thread .loadRawFork) := by
  induction rounds with
  | zero => exact .refl
  | succ rounds induction =>
      have loaded : Stays none thread (waitingState thread .loadRawFork)
          (2 * rounds + 1) (waitingState thread .loadResolved) := by
        refine .own induction ?_ ?_
        · simp [forkNext, forkStep, ForkState.goto, waitingState]
        · simp [waitingState, ForkPc.Resolving]
      refine .own loaded ?_ ?_
      · simp [forkNext, forkStep, ForkState.goto, waitingState]
      · simp [waitingState, ForkPc.Resolving]

theorem not_waitsEnd_of_missing (thread : Thread) :
    ¬ WaitsEnd Thread none := by
  rintro ⟨ends, -⟩
  have inside :
      ((waitingState thread .loadRawFork).threads thread).Resolving := by
    simp [waitingState, ForkPc.Resolving]
  obtain ⟨bound, bounded⟩ := ends _ (waitingState_reachable thread)
    (waitingState_answered thread) thread inside
  have less := bounded _ _ (stays_unbounded thread (bound + 1))
  omega

/-- Without a symbol every thread in the hook waits or is on its way to. -/
structure ForkState.Spins (state : ForkState Thread) : Prop where
  missing : state.rawFork = none
  waiting : ∀ thread, state.threads thread = .outside ∨
    state.threads thread = .compareExchange ∨
    state.forkResolved = true ∧ (state.threads thread).Resolving

theorem spins_next {state target : ForkState Thread}
    {label : ForkLabel Thread} (spins : state.Spins)
    (taken : forkNext none state label = some target) : target.Spins := by
  obtain ⟨pc, threads, move⟩ := forkNext_cases taken
  obtain ⟨missing, waiting⟩ := spins
  have own := waiting label.thread
  have moves (raw : target.rawFork = none)
      (resolved : state.forkResolved = true → target.forkResolved = true)
      (here : pc = .outside ∨ pc = .compareExchange ∨
        target.forkResolved = true ∧ pc.Resolving) : target.Spins := by
    refine ⟨raw, ?_⟩
    intro thread
    rw [threads]
    by_cases same : thread = label.thread
    · rw [same, Function.update_self]
      exact here
    · rw [Function.update_of_ne same]
      rcases waiting thread with outside | enters | ⟨flag, inside⟩
      · exact .inl outside
      · exact .inr (.inl enters)
      · exact .inr (.inr ⟨resolved flag, inside⟩)
  generalize state.threads label.thread = pcBefore at move own
  generalize rawAfter : target.rawFork = raw at move moves
  generalize resolvedAfter : target.forkResolved = flag at move moves
  cases move with
  | found found | forks found => exact absurd missing found
  | fails => simp [ForkPc.Resolving] at own
  | gives unresolved => simp [unresolved] at own
  | leaves => exact moves missing id (.inl rfl)
  | calls => exact moves missing id (.inr (.inl rfl))
  | loses resolved | again resolved =>
      exact moves missing id
        (.inr (.inr ⟨resolved, by simp [ForkPc.Resolving]⟩))
  | wins =>
      exact moves missing (fun _ => rfl)
        (.inr (.inr ⟨rfl, by simp [ForkPc.Resolving]⟩))
  | answers =>
      simp only [reduceCtorEq, false_or] at own
      exact moves rfl id (.inr (.inr ⟨own.1, by simp [ForkPc.Resolving]⟩))
  | missing =>
      simp only [reduceCtorEq, false_or] at own
      exact moves missing id (.inr (.inr ⟨own.1, by simp [ForkPc.Resolving]⟩))

/-- No thread passes the loop, so none ever gets `ENOSYS`. -/
theorem never_fails {state : ForkState Thread}
    (reachable : (forkSystem Thread none).Reachable state) (thread : Thread) :
    state.threads thread ≠ .failed := by
  have spins : state.Spins := by
    refine reachable.invariant _ ?_ ?_
    · rintro state rfl
      exact ⟨rfl, fun _ => .inl rfl⟩
    · intro state label target spins _ taken
      exact spins_next spins taken
  intro failed
  have waiting := spins.waiting thread
  simp [failed, ForkPc.Resolving] at waiting

/-- The waiting ends exactly when `dlsym` finds the real function. -/
theorem waitsEnd_iff_found [Inhabited Thread] (symbol : Option Word) :
    WaitsEnd Thread symbol ↔ symbol ≠ none := by
  constructor
  · rintro ends rfl
    exact not_waitsEnd_of_missing default ends
  · intro found
    obtain ⟨function, rfl⟩ := Option.ne_none_iff_exists'.mp found
    refine ⟨?_, fun missing => absurd missing found⟩
    intro state reachable answered thread inside
    have stored : state.rawFork = some function := by
      rcases known_reachable reachable answered.1 with ⟨asker, asks⟩ | stored
      · exact absurd asks (answered.2 asker)
      · exact stored
    have settled : state.Settled := ⟨answered, by rw [stored]; exact found⟩
    refine ⟨(state.threads thread).waits, ?_⟩
    intro count target stays
    have bounded := (stays_bounded settled inside stays).2.2
    omega

theorem not_waitsEnd_missing : ¬ WaitsEnd Unit none :=
  not_waitsEnd_of_missing ()

end MemoryTraceTool.ForkLookup
