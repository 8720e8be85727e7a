/-!
# Programs over a state

Programs that read and change a state, and triples of a precondition, a
program and a postcondition of its result.  Every program ends, so a triple
speaks about all of its runs.
-/

/-- From a state to a result and the state after it. -/
def StateProgram (σ α : Type) := σ → α × σ

namespace StateProgram

variable {σ α β : Type}

instance : Monad (StateProgram σ) where
  pure value := fun state => (value, state)
  bind program next := fun state =>
    next (program state).1 (program state).2

def read (view : σ → α) : StateProgram σ α := fun state => (view state, state)

def change (step : σ → σ) : StateProgram σ Unit := fun state => ((), step state)

/-- Where `pre` holds the program leads to a result and a state of `post`. -/
def Triple (pre : σ → Prop) (program : StateProgram σ α)
    (post : α → σ → Prop) : Prop :=
  ∀ state, pre state → post (program state).1 (program state).2

namespace Triple

variable {pre : σ → Prop} {program : StateProgram σ α}
  {mid post : α → σ → Prop} {last : β → σ → Prop}

theorem pure {value : α} (holds : ∀ state, pre state → post value state) :
    Triple pre (Pure.pure value) post :=
  holds

theorem bind {next : α → StateProgram σ β}
    (first : Triple pre program mid)
    (second : ∀ value, Triple (mid value) (next value) last) :
    Triple pre (program >>= next) last :=
  fun state holds => second _ _ (first state holds)

theorem ite {condition : Prop} [Decidable condition]
    {other : StateProgram σ α}
    (holds : condition → Triple pre program post)
    (fails : ¬ condition → Triple pre other post) :
    Triple pre (if condition then program else other) post := by
  split
  · exact holds ‹_›
  · exact fails ‹_›

theorem weaken (triple : Triple pre program mid)
    (implies : ∀ value state, mid value state → post value state) :
    Triple pre program post :=
  fun state holds => implies _ _ (triple state holds)

end Triple

end StateProgram
