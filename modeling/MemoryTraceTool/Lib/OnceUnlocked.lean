import MemoryTraceTool.Lib.Once

/-!
# Stores outside the lock of an initialisation

Every call of a double-checked initialisation makes some stores without the
lock.  What all stores keep holds throughout, and when all calls read the same,
these stores are done, and stay done, once any call has returned.
-/

namespace Once

open Transition

variable {Thread : Type x} {Config : Type u} {Outcome : Type v}
  {Service : Type w}

/-! ## The stores that a run makes -/

/-- A store of a call that reads and finds only what is allowed. -/
def Recipe.Makes (recipe : Recipe Config Outcome Service)
    (allowed : Outcome → Prop) (store : Config → Config) : Prop :=
  (∃ outcome, allowed outcome ∧ store ∈ recipe.early outcome) ∨
    (∃ outcome, allowed outcome ∧ store ∈ recipe.prepare outcome) ∨
    ∃ read found, allowed read ∧ allowed found ∧
      store ∈ recipe.stores read found

/-- The stores that the thread has still to make are those of such calls. -/
def Pc.Allowed (recipe : Recipe Config Outcome Service)
    (allowed : Outcome → Prop) : Pc Config Outcome Service → Prop
  | .early rest | .write rest => ∀ store ∈ rest, recipe.Makes allowed store
  | .prepare read rest =>
      allowed read ∧ ∀ store ∈ rest, recipe.Makes allowed store
  | .acquire read | .recheck read => allowed read
  | _ => True

structure Bounded (recipe : Recipe Config Outcome Service)
    (allowed : Outcome → Prop)
    (state : State Thread Config Outcome Service) : Prop where
  threads : ∀ thread, (state.threads thread).Allowed recipe allowed
  performed : ∀ performance ∈ state.performed,
    allowed performance.read ∧ allowed performance.found

section Bounds

variable [DecidableEq Thread] {recipe : Recipe Config Outcome Service}
  {allowed : Outcome → Prop}
  {state target : State Thread Config Outcome Service} {thread : Thread}
  {pc : Pc Config Outcome Service}

theorem Bounded.move (bounded : Bounded recipe allowed state)
    (threads : target.threads = (state.move thread pc).threads)
    (mine : pc.Allowed recipe allowed)
    (performed : ∀ performance ∈ target.performed,
      allowed performance.read ∧ allowed performance.found) :
    Bounded recipe allowed target where
  threads := by
    rw [threads]
    exact forall_move (fun _ pc => pc.Allowed recipe allowed) mine
      fun other _ => bounded.threads other
  performed := performed

/-- What a step stores, if anything. -/
inductive Stores (recipe : Recipe Config Outcome Service)
    (allowed : Outcome → Prop) (before : Config) : Config → Prop where
  | nothing : Stores recipe allowed before before
  | one (store : Config → Config) (makes : recipe.Makes allowed store) :
      Stores recipe allowed before (store before)

theorem Bounded.step (bounded : Bounded recipe allowed state)
    {outcome : Outcome} (found : allowed outcome)
    (taken : step recipe state thread outcome = some target) :
    Bounded recipe allowed target ∧
      Stores recipe allowed state.config target.config := by
  have mine := bounded.threads thread
  unfold Once.step at taken
  cases position : state.threads thread with
  | idle => simp [position] at taken
  | returned => simp [position] at taken
  | early stores | write stores =>
      rw [position] at taken mine
      cases stores with
      | nil =>
          cases taken
          exact ⟨bounded.move rfl trivial bounded.performed, .nothing⟩
      | cons store rest =>
          cases taken
          obtain ⟨makes, others⟩ := List.forall_mem_cons.mp mine
          exact ⟨bounded.move rfl others bounded.performed,
            .one store makes⟩
  | prepare read stores =>
      rw [position] at taken mine
      cases stores with
      | nil =>
          cases taken
          exact ⟨bounded.move rfl mine.1 bounded.performed, .nothing⟩
      | cons store rest =>
          cases taken
          obtain ⟨makes, others⟩ := List.forall_mem_cons.mp mine.2
          exact ⟨bounded.move rfl ⟨mine.1, others⟩ bounded.performed,
            .one store makes⟩
  | enter =>
      rw [position] at taken
      cases taken
      refine ⟨bounded.move rfl ?_ bounded.performed, .nothing⟩
      split
      · trivial
      · exact ⟨found, fun store member =>
          .inr (.inl ⟨outcome, found, member⟩)⟩
  | acquire read =>
      rw [position] at taken mine
      dsimp only at taken
      split at taken
      · cases taken
        exact ⟨bounded.move rfl mine bounded.performed, .nothing⟩
      · contradiction
  | recheck read =>
      rw [position] at taken mine
      dsimp only at taken
      split at taken
      · cases taken
        exact ⟨bounded.move rfl trivial bounded.performed, .nothing⟩
      · cases taken
        refine ⟨bounded.move rfl ?_ ?_, .nothing⟩
        · exact fun store member =>
            .inr (.inr ⟨read, outcome, mine, found, member⟩)
        · exact List.forall_mem_cons.mpr
            ⟨⟨mine, found⟩, bounded.performed⟩
  | publish =>
      rw [position] at taken
      cases taken
      exact ⟨bounded.move rfl trivial bounded.performed, .nothing⟩
  | leave ran =>
      rw [position] at taken
      cases taken
      refine ⟨bounded.move rfl ?_ bounded.performed, .nothing⟩
      split <;> trivial
  | serve services =>
      rw [position] at taken
      cases services <;> cases taken <;>
        exact ⟨bounded.move rfl trivial bounded.performed, .nothing⟩

theorem Bounded.next (bounded : Bounded recipe allowed state)
    {label : Label Thread Outcome} (found : allowed label.outcome)
    (taken : next recipe state label = some target) :
    Bounded recipe allowed target ∧
      Stores recipe allowed state.config target.config := by
  cases label with
  | step thread outcome => exact bounded.step found taken
  | call thread outcome =>
      obtain ⟨_, rfl⟩ := next_call taken
      refine ⟨bounded.move rfl ?_ bounded.performed, .nothing⟩
      exact fun store member => .inl ⟨outcome, found, member⟩

omit [DecidableEq Thread] in
theorem bounded_idle (performed : state.performed = [])
    (idle : ∀ thread, state.threads thread = .idle) :
    Bounded recipe allowed state where
  threads := by
    intro thread
    rw [idle]
    trivial
  performed := by simp [performed]

theorem bounded_reachable
    (reachable : (system recipe).ReachableBy
      (fun _ label => allowed label.outcome) state) :
    Bounded recipe allowed state := by
  apply reachable.invariant (Bounded recipe allowed)
  · intro start initial
    obtain ⟨_, _, _, _, performed, idle⟩ := initial
    exact bounded_idle performed idle
  · intro source label later bounded found taken
    exact (bounded.next found taken).1

/-- What every store keeps holds in every run. -/
theorem config_kept (allowed : Outcome → Prop) (property : Config → Prop)
    (start : property recipe.start)
    (kept : ∀ store, recipe.Makes allowed store → ∀ config,
      property config → property (store config))
    (reachable : (system recipe).ReachableBy
      (fun _ label => allowed label.outcome) state) :
    property state.config := by
  have both := reachable.invariant
    (fun state => Bounded recipe allowed state ∧ property state.config)
    (fun state initial => by
      obtain ⟨_, _, config, _, performed, idle⟩ := initial
      exact ⟨bounded_idle performed idle, config ▸ start⟩)
    (fun source label later holds found taken => by
      obtain ⟨bounded, stores⟩ := holds.1.next found taken
      refine ⟨bounded, ?_⟩
      generalize later.config = config at stores
      cases stores with
      | nothing => exact holds.2
      | one store makes => exact kept store makes _ holds.2)
  exact both.2

end Bounds

/-! ## Calls that all read the same -/

/-- All calls make the same stores without the lock, which other stores do not
undo. -/
structure Steady (recipe : Recipe Config Outcome Service)
    (allowed : Outcome → Prop) (early prepare : List (Config → Config)) :
    Prop where
  early_eq : ∀ outcome, allowed outcome → recipe.early outcome = early
  prepare_eq : ∀ outcome, allowed outcome → recipe.prepare outcome = prepare
  again : ∀ store ∈ early ++ prepare, ∀ config,
    store (store config) = store config
  kept : ∀ store ∈ early ++ prepare, ∀ other, recipe.Makes allowed other →
    ∀ config, store config = config → store (other config) = other config

/-- Making the stores again would change nothing. -/
def Done (stores : List (Config → Config)) (config : Config) : Prop :=
  ∀ store ∈ stores, store config = config

/-- Some of the stores are made, the rest is still to be made. -/
def Partly (stores rest : List (Config → Config)) (config : Config) : Prop :=
  ∃ made, stores = made ++ rest ∧ Done made config

/-- What the thread has stored without the lock. -/
def Pc.Stored (early prepare : List (Config → Config)) (config : Config) :
    Pc Config Outcome Service → Prop
  | .idle => True
  | .early rest => Partly early rest config
  | .enter => Done early config
  | .prepare _ rest => Done early config ∧ Partly prepare rest config
  | _ => Done (early ++ prepare) config

structure Settled (early prepare : List (Config → Config))
    (state : State Thread Config Outcome Service) : Prop where
  threads : ∀ thread,
    (state.threads thread).Stored early prepare state.config
  published : state.flag = true → Done (early ++ prepare) state.config

section Settling

variable [DecidableEq Thread] {recipe : Recipe Config Outcome Service}
  {allowed : Outcome → Prop} {early prepare : List (Config → Config)}
  {state target : State Thread Config Outcome Service} {thread : Thread}
  {config later : Config}

theorem Steady.done (steady : Steady recipe allowed early prepare)
    (stores : Stores recipe allowed config later)
    {made : List (Config → Config)} (within : made ⊆ early ++ prepare)
    (done : Done made config) : Done made later := by
  cases stores with
  | nothing => exact done
  | one other makes =>
      intro store member
      exact steady.kept store (within member) other makes config
        (done store member)

theorem Steady.stored (steady : Steady recipe allowed early prepare)
    (stores : Stores recipe allowed config later)
    {pc : Pc Config Outcome Service}
    (stored : pc.Stored early prepare config) :
    pc.Stored early prepare later := by
  have first : early ⊆ early ++ prepare := List.subset_append_left _ _
  have second : prepare ⊆ early ++ prepare := List.subset_append_right _ _
  have partly : ∀ {list rest : List (Config → Config)},
      list ⊆ early ++ prepare → Partly list rest config →
        Partly list rest later := by
    intro list rest within some
    obtain ⟨made, whole, done⟩ := some
    have fewer : made ⊆ list := by
      rw [whole]
      exact List.subset_append_left _ _
    have inside := List.Subset.trans fewer within
    exact ⟨made, whole, steady.done stores inside done⟩
  cases pc with
  | idle => trivial
  | early rest => exact partly first stored
  | enter => exact steady.done stores first stored
  | prepare read rest =>
      exact ⟨steady.done stores first stored.1, partly second stored.2⟩
  | _ => exact steady.done stores (List.Subset.refl _) stored

theorem Steady.advance (steady : Steady recipe allowed early prepare)
    {list rest : List (Config → Config)} {store : Config → Config}
    (within : list ⊆ early ++ prepare) (makes : recipe.Makes allowed store)
    (partly : Partly list (store :: rest) config) :
    Partly list rest (store config) := by
  obtain ⟨made, rfl, done⟩ := partly
  refine ⟨made ++ [store], by simp, ?_⟩
  have fewer : made ⊆ early ++ prepare :=
    List.Subset.trans (List.subset_append_left made (store :: rest)) within
  intro other member
  rcases List.mem_append.mp member with earlier | last
  · exact steady.done (.one store makes) fewer done other earlier
  · obtain rfl := List.mem_singleton.mp last
    apply steady.again
    exact within (List.mem_append_right _ List.mem_cons_self)

omit [DecidableEq Thread] in
theorem Partly.whole {list : List (Config → Config)}
    (partly : Partly list [] config) : Done list config := by
  obtain ⟨made, rfl, done⟩ := partly
  rwa [List.append_nil]

theorem done_append {first second : List (Config → Config)}
    (one : Done first config) (two : Done second config) :
    Done (first ++ second) config := by
  intro store member
  exact (List.mem_append.mp member).elim (one store) (two store)

theorem Settled.move (steady : Steady recipe allowed early prepare)
    (settled : Settled early prepare state)
    (stores : Stores recipe allowed state.config target.config)
    {pc : Pc Config Outcome Service}
    (threads : target.threads = (state.move thread pc).threads)
    (mine : pc.Stored early prepare target.config)
    (flag : target.flag = true → state.flag = true ∨
      Done (early ++ prepare) state.config) :
    Settled early prepare target where
  threads := by
    rw [threads]
    exact forall_move (fun _ pc => pc.Stored early prepare target.config)
      mine fun other _ => steady.stored stores (settled.threads other)
  published := by
    intro isSet
    apply steady.done stores (List.Subset.refl _)
    exact (flag isSet).elim settled.published id

theorem Settled.step (steady : Steady recipe allowed early prepare)
    (bounded : Bounded recipe allowed state)
    (settled : Settled early prepare state) {outcome : Outcome}
    (found : allowed outcome)
    (taken : step recipe state thread outcome = some target) :
    Settled early prepare target := by
  have stores := (bounded.step found taken).2
  have permitted := bounded.threads thread
  have stored := settled.threads thread
  have first : early ⊆ early ++ prepare := List.subset_append_left _ _
  have second : prepare ⊆ early ++ prepare := List.subset_append_right _ _
  unfold Once.step at taken
  cases position : state.threads thread with
  | idle => simp [position] at taken
  | returned => simp [position] at taken
  | early rest =>
      rw [position] at taken stored permitted
      cases rest with
      | nil =>
          cases taken
          exact settled.move steady stores rfl stored.whole .inl
      | cons store rest =>
          cases taken
          exact settled.move steady stores rfl (steady.advance first
            (permitted store List.mem_cons_self) stored) .inl
  | enter =>
      rw [position] at taken stored
      cases taken
      refine settled.move steady stores rfl ?_ .inl
      split
      · rename_i isSet
        exact settled.published isSet
      · exact ⟨stored, [], (steady.prepare_eq outcome found).symm,
          List.forall_mem_nil _⟩
  | prepare read rest =>
      rw [position] at taken stored permitted
      cases rest with
      | nil =>
          cases taken
          exact settled.move steady stores rfl
            (done_append stored.1 stored.2.whole) .inl
      | cons store rest =>
          cases taken
          have makes := permitted.2 store List.mem_cons_self
          exact settled.move steady stores rfl
            ⟨steady.done (.one store makes) first stored.1,
              steady.advance second makes stored.2⟩ .inl
  | acquire read =>
      rw [position] at taken stored
      dsimp only at taken
      split at taken
      · cases taken
        exact settled.move steady stores rfl stored .inl
      · contradiction
  | recheck read =>
      rw [position] at taken stored
      dsimp only at taken
      split at taken
      · cases taken
        exact settled.move steady stores rfl stored .inl
      · cases taken
        exact settled.move steady stores rfl stored .inl
  | write rest =>
      have kept := steady.done stores (List.Subset.refl _)
      rw [position] at taken stored
      cases rest <;> cases taken <;>
        exact settled.move steady stores rfl (kept stored) .inl
  | publish =>
      rw [position] at taken stored
      cases taken
      exact settled.move steady stores rfl stored fun _ => .inr stored
  | leave ran =>
      rw [position] at taken stored
      cases taken
      refine settled.move steady stores rfl ?_ .inl
      cases ran <;> exact stored
  | serve services =>
      rw [position] at taken stored
      cases services <;> cases taken <;>
        exact settled.move steady stores rfl stored .inl

/-- After any call has returned the stores without the lock are done. -/
theorem settled_reachable (steady : Steady recipe allowed early prepare)
    (reachable : (system recipe).ReachableBy
      (fun _ label => allowed label.outcome) state) :
    Settled early prepare state := by
  have both := reachable.invariant
    (fun state => Bounded recipe allowed state ∧
      Settled early prepare state)
    (fun state initial => by
      obtain ⟨flag, _, _, _, performed, idle⟩ := initial
      refine ⟨bounded_idle performed idle, ?_, ?_⟩
      · intro thread
        rw [idle]
        trivial
      · rw [flag]
        exact fun impossible => nomatch impossible)
    (fun source label later holds found taken => by
      have bounded := holds.1.next found taken
      refine ⟨bounded.1, ?_⟩
      cases label with
      | step thread outcome =>
          exact holds.2.step steady holds.1 found taken
      | call thread outcome =>
          obtain ⟨_, rfl⟩ := next_call taken
          exact holds.2.move steady bounded.2 rfl
            ⟨[], (steady.early_eq outcome found).symm,
              List.forall_mem_nil _⟩ .inl)
  exact both.2

end Settling

end Once
