import MemoryTraceTool.Lib.LockedLists

/-!
# What programs on locked lists may do

A discipline says which lock guards a list and what the cells of a list hold.
Safe programs keep it whatever the other threads do: each cell is outside the
model, in one list, or in the hands of one thread.
-/

namespace LockedLists

open Transition

/-- The lock of a list, what a cell in a list holds, the order in which a thread
waits for locks, and the cells that must not get lost. -/
structure Discipline (Lock : Type u) (Id : Type v) (Cell : Type w)
    (Data : Type x) where
  lockOf : Id → Lock
  rank : Lock → Nat
  Fits : Id → Cell → Data → Prop
  Permanent : Cell → Prop

/-- The list or the thread that has a cell. -/
inductive Place (Thread : Type z) (Id : Type v) where
  | listed (id : Id)
  | kept (thread : Thread)

variable {Thread : Type z} {Call : Type c} {Lock : Type u} {Id : Type v}
  {Cell : Type w} {Data : Type x} {Answer : Type a} {Result : Type y}
  [DecidableEq Cell]

/-- `held` are the locks of the thread and `own` what its cells hold.  A cell
that a search unlinks, or that is gained, was not a cell of the thread. -/
def Prog.Safe (discipline : Discipline Lock Id Cell Data) :
    Set Lock → (Cell → Option Data) →
      Prog Lock Id Cell Data Answer Result → Prop
  | held, own, .done _ =>
      held = ∅ ∧ ∀ cell, own cell ≠ none → ¬ discipline.Permanent cell
  | held, own, .ask rest => ∀ answer, (rest answer).Safe discipline held own
  | held, own, .lock mutex rest =>
      (∀ other ∈ held, discipline.rank other < discipline.rank mutex) ∧
        rest.Safe discipline (insert mutex held) own
  | held, own, .tryLock mutex rest =>
      (rest true).Safe discipline (insert mutex held) own ∧
        (rest false).Safe discipline held own
  | held, own, .unlock mutex rest =>
      mutex ∈ held ∧ rest.Safe discipline (held \ {mutex}) own
  | held, own, .gain rest =>
      (rest none).Safe discipline held own ∧
        ∀ cell value, own cell = none →
          (rest (some cell)).Safe discipline held
            (Function.update own cell (some value))
  | held, own, .dispose cell rest =>
      own cell ≠ none ∧ ¬ discipline.Permanent cell ∧
        rest.Safe discipline held (Function.update own cell none)
  | held, own, .read cell rest =>
      ∃ value, own cell = some value ∧
        (rest value).Safe discipline held own
  | held, own, .write cell value rest | held, own, .reset cell value rest =>
      own cell ≠ none ∧
        rest.Safe discipline held (Function.update own cell (some value))
  | held, own, .push id cell rest =>
      discipline.lockOf id ∈ held ∧
        (∃ value, own cell = some value ∧ discipline.Fits id cell value) ∧
        rest.Safe discipline held (Function.update own cell none)
  | held, own, .find unlinks id test rest =>
      discipline.lockOf id ∈ held ∧ (rest none).Safe discipline held own ∧
        ∀ cell value, own cell = none → discipline.Fits id cell value →
          test value = true →
          (rest (some (cell, value))).Safe discipline held
            (if unlinks then Function.update own cell (some value) else own)
  | held, own, .collect id _ rest =>
      discipline.lockOf id ∈ held ∧
        ∀ copied, (rest copied).Safe discipline held own

/-- `more` are the cells of `own` and cells that may get lost. -/
structure Extends (discipline : Discipline Lock Id Cell Data)
    (own more : Cell → Option Data) : Prop where
  keeps : ∀ cell, own cell ≠ none → more cell = own cell
  useless : ∀ cell, own cell = none → more cell ≠ none →
    ¬ discipline.Permanent cell

namespace Extends

variable {discipline : Discipline Lock Id Cell Data}
  {own more : Cell → Option Data}

omit [DecidableEq Cell] in
theorem absent (extension : Extends discipline own more) {cell : Cell}
    (missing : more cell = none) : own cell = none := by
  by_contra owned
  rw [extension.keeps cell owned] at missing
  exact owned missing

omit [DecidableEq Cell] in
theorem present (extension : Extends discipline own more) {cell : Cell}
    (owned : own cell ≠ none) : more cell ≠ none := by
  rw [extension.keeps cell owned]
  exact owned

omit [DecidableEq Cell] in
theorem eq_some (extension : Extends discipline own more) {cell : Cell}
    {value : Data} (owned : own cell = some value) :
    more cell = some value := by
  rw [extension.keeps cell (by simp [owned]), owned]

theorem update (extension : Extends discipline own more) (cell : Cell)
    (value : Option Data) :
    Extends discipline (Function.update own cell value)
      (Function.update more cell value) := by
  constructor
  · intro other
    by_cases same : other = cell
    · subst same
      simp
    · simpa [same] using extension.keeps other
  · intro other
    by_cases same : other = cell
    · subst same
      simp only [Function.update_self]
      exact fun missing owned => absurd missing owned
    · simpa [same] using extension.useless other

end Extends

/-- What a thread keeps beyond its needs does no harm. -/
theorem Prog.Safe.more {discipline : Discipline Lock Id Cell Data}
    {prog : Prog Lock Id Cell Data Answer Result} {held : Set Lock}
    {own more : Cell → Option Data} (safe : prog.Safe discipline held own)
    (extension : Extends discipline own more) :
    prog.Safe discipline held more := by
  induction prog generalizing held own more with
  | done result =>
      refine ⟨safe.1, ?_⟩
      intro cell owned
      by_cases missing : own cell = none
      · exact extension.useless cell missing owned
      · exact safe.2 cell missing
  | ask rest induction =>
      intro answer
      exact induction answer (safe answer) extension
  | lock mutex rest induction => exact ⟨safe.1, induction safe.2 extension⟩
  | tryLock mutex rest induction =>
      exact ⟨induction true safe.1 extension, induction false safe.2 extension⟩
  | unlock mutex rest induction => exact ⟨safe.1, induction safe.2 extension⟩
  | gain rest induction =>
      refine ⟨induction none safe.1 extension, ?_⟩
      intro cell value missing
      exact induction (some cell) (safe.2 cell value (extension.absent missing))
        (extension.update cell _)
  | dispose cell rest induction =>
      exact ⟨extension.present safe.1, safe.2.1,
        induction safe.2.2 (extension.update cell none)⟩
  | read cell rest induction =>
      obtain ⟨value, owned, restSafe⟩ := safe
      exact ⟨value, extension.eq_some owned,
        induction value restSafe extension⟩
  | write cell value rest induction =>
      exact ⟨extension.present safe.1,
        induction safe.2 (extension.update cell _)⟩
  | reset cell value rest induction =>
      exact ⟨extension.present safe.1,
        induction safe.2 (extension.update cell _)⟩
  | push id cell rest induction =>
      obtain ⟨locked, ⟨value, owned, fits⟩, restSafe⟩ := safe
      exact ⟨locked, ⟨value, extension.eq_some owned, fits⟩,
        induction restSafe (extension.update cell none)⟩
  | find unlinks id test rest induction =>
      refine ⟨safe.1, induction none safe.2.1 extension, ?_⟩
      intro cell value missing fits passes
      apply induction _ (safe.2.2 cell value (extension.absent missing) fits
        passes)
      cases unlinks with
      | false => exact extension
      | true => exact extension.update cell _
  | collect id limit rest induction =>
      exact ⟨safe.1, fun copied =>
        induction copied (safe.2 copied) extension⟩

/-! ## The invariant -/

section Places

variable [DecidableEq Thread]

/-- The locks of a thread. -/
def Shared.held (shared : Shared Thread Lock Cell Data) (thread : Thread) :
    Set Lock :=
  {lock | shared.owner lock = some thread}

open Classical in
/-- What the cells of a thread hold. -/
noncomputable def keeps (place : Cell → Option (Place Thread Id))
    (data : Cell → Data) (thread : Thread) (cell : Cell) : Option Data :=
  if place cell = some (.kept thread) then some (data cell) else none

/-- The lists have the cells that are placed there, each once. -/
structure Sound (discipline : Discipline Lock Id Cell Data)
    (shared : Shared Thread Lock Cell Data) (lists : Id → List Cell)
    (place : Cell → Option (Place Thread Id)) : Prop where
  placed : ∀ id cell, cell ∈ lists id ↔ place cell = some (.listed id)
  distinct : ∀ id, (lists id).Nodup
  fits : ∀ id cell, place cell = some (.listed id) →
    discipline.Fits id cell (shared.data cell)
  live : ∀ cell, place cell ≠ none → shared.live cell = true
  permanent : ∀ cell, discipline.Permanent cell → place cell ≠ none

/-- Every thread runs a safe program. -/
structure Typed (discipline : Discipline Lock Id Cell Data)
    (state : AtomicState Thread Lock Id Cell Data Answer Result)
    (place : Cell → Option (Place Thread Id)) : Prop extends
    Sound discipline state.shared state.lists place where
  safe : ∀ thread, (state.threads thread).Safe discipline
    (state.shared.held thread) (keeps place state.shared.data thread)

/-- What a step of one thread leaves alone. -/
structure Frame (discipline : Discipline Lock Id Cell Data) (thread : Thread)
    (shared : Shared Thread Lock Cell Data) (lists : Id → List Cell)
    (place : Cell → Option (Place Thread Id))
    (later : Shared Thread Lock Cell Data) (laterLists : Id → List Cell)
    (laterPlace : Cell → Option (Place Thread Id)) : Prop where
  held : ∀ other, other ≠ thread → later.held other = shared.held other
  kept : ∀ other, other ≠ thread → ∀ cell,
    laterPlace cell = some (.kept other) ↔ place cell = some (.kept other)
  data : ∀ cell, place cell ≠ some (.kept thread) →
    later.data cell = shared.data cell
  lists : ∀ id, discipline.lockOf id ∉ shared.held thread →
    laterLists id = lists id

omit [DecidableEq Cell] [DecidableEq Thread] in
theorem keeps_eq_some {place : Cell → Option (Place Thread Id)}
    {data : Cell → Data} {thread : Thread} {cell : Cell} {value : Data} :
    keeps place data thread cell = some value ↔
      place cell = some (.kept thread) ∧ data cell = value := by
  simp [keeps]

omit [DecidableEq Cell] [DecidableEq Thread] in
theorem keeps_eq_none {place : Cell → Option (Place Thread Id)}
    {data : Cell → Data} {thread : Thread} {cell : Cell} :
    keeps place data thread cell = none ↔
      place cell ≠ some (.kept thread) := by
  simp [keeps]

omit [DecidableEq Cell] [DecidableEq Thread] in
theorem keeps_ne_none {place : Cell → Option (Place Thread Id)}
    {data : Cell → Data} {thread : Thread} {cell : Cell} :
    keeps place data thread cell ≠ none ↔
      place cell = some (.kept thread) := by
  simp [keeps]

omit [DecidableEq Thread] in
theorem keeps_take (place : Cell → Option (Place Thread Id))
    (data : Cell → Data) (thread : Thread) (cell : Cell) :
    keeps (Function.update place cell (some (.kept thread))) data thread =
      Function.update (keeps place data thread) cell (some (data cell)) := by
  funext other
  by_cases same : other = cell
  · subst same
    simp [keeps]
  · unfold keeps
    rw [Function.update_of_ne same, Function.update_of_ne same]

omit [DecidableEq Thread] in
theorem keeps_give (place : Cell → Option (Place Thread Id))
    (data : Cell → Data) {thread : Thread} (cell : Cell)
    {target : Option (Place Thread Id)}
    (elsewhere : target ≠ some (.kept thread)) :
    keeps (Function.update place cell target) data thread =
      Function.update (keeps place data thread) cell none := by
  funext other
  by_cases same : other = cell
  · subst same
    simp [keeps, elsewhere]
  · unfold keeps
    rw [Function.update_of_ne same, Function.update_of_ne same]

omit [DecidableEq Thread] in
theorem keeps_setData {place : Cell → Option (Place Thread Id)}
    (data : Cell → Data) {thread : Thread} {cell : Cell} (value : Data)
    (mine : place cell = some (.kept thread)) :
    keeps place (Function.update data cell value) thread =
      Function.update (keeps place data thread) cell (some value) := by
  funext other
  by_cases same : other = cell
  · subst same
    simp [keeps, mine]
  · simp [keeps, Function.update_of_ne same]

end Places

section Owners

variable [DecidableEq Lock] {shared : Shared Thread Lock Cell Data}

omit [DecidableEq Cell] in
theorem Shared.held_take (mutex : Lock) (thread : Thread) :
    (shared.setOwner mutex (some thread)).held thread =
      insert mutex (shared.held thread) := by
  ext other
  by_cases same : other = mutex
  · subst same
    simp [Shared.held, Shared.setOwner]
  · simp [Shared.held, Shared.setOwner, same]

omit [DecidableEq Cell] in
theorem Shared.held_release (mutex : Lock) (thread : Thread) :
    (shared.setOwner mutex none).held thread =
      shared.held thread \ {mutex} := by
  ext other
  by_cases same : other = mutex
  · subst same
    simp [Shared.held, Shared.setOwner]
  · simp [Shared.held, Shared.setOwner, same]

omit [DecidableEq Cell] in
/-- A free lock, or one of the thread, is no lock of another thread. -/
theorem Shared.held_setOwner {mutex : Lock} {thread other : Thread}
    {owner : Option Thread} (different : other ≠ thread)
    (before : shared.owner mutex = none ∨ shared.owner mutex = some thread)
    (after : owner = none ∨ owner = some thread) :
    (shared.setOwner mutex owner).held other = shared.held other := by
  ext item
  by_cases same : item = mutex
  · subst same
    rcases before with before | before <;> rcases after with after | after <;>
      simp [Shared.held, Shared.setOwner, before, after, different.symm]
  · simp [Shared.held, Shared.setOwner, same]

end Owners

namespace Frame

variable {discipline : Discipline Lock Id Cell Data} {thread : Thread}
  {shared later : Shared Thread Lock Cell Data}
  {lists laterLists : Id → List Cell}
  {place laterPlace : Cell → Option (Place Thread Id)}

omit [DecidableEq Cell] in
theorem refl (discipline : Discipline Lock Id Cell Data) (thread : Thread)
    (shared : Shared Thread Lock Cell Data) (lists : Id → List Cell)
    (place : Cell → Option (Place Thread Id)) :
    Frame discipline thread shared lists place shared lists place :=
  { held := fun _ _ => rfl
    kept := fun _ _ _ => Iff.rfl
    data := fun _ _ => rfl
    lists := fun _ _ => rfl }

omit [DecidableEq Cell] in
theorem keeps_eq
    (frame : Frame discipline thread shared lists place later laterLists
      laterPlace) {other : Thread} (different : other ≠ thread) :
    keeps laterPlace later.data other = keeps place shared.data other := by
  funext cell
  by_cases kept : place cell = some (.kept other)
  · have same := frame.data cell (by
      rw [kept]
      simpa using different)
    rw [keeps_eq_some.mpr ⟨kept, same.symm⟩,
      keeps_eq_some.mpr ⟨(frame.kept other different cell).mpr kept, rfl⟩]
  · rw [keeps_eq_none.mpr kept, keeps_eq_none.mpr]
    rwa [ne_eq, frame.kept other different cell]

end Frame

/-! ## One step -/

namespace Sound

variable {discipline : Discipline Lock Id Cell Data}
  {shared : Shared Thread Lock Cell Data} {lists : Id → List Cell}
  {place : Cell → Option (Place Thread Id)}

theorem setData (sound : Sound discipline shared lists place) {cell : Cell}
    {thread : Thread} (mine : place cell = some (.kept thread))
    (value : Data) :
    Sound discipline (shared.setData cell value) lists place := by
  refine { sound with fits := ?_ }
  intro id other listed
  have different : other ≠ cell := by
    rintro rfl
    rw [mine] at listed
    simp at listed
  simp only [Shared.setData, Function.update_of_ne different]
  exact sound.fits id other listed

theorem hand (sound : Sound discipline shared lists place) {cell : Cell}
    (unlisted : ∀ id, place cell ≠ some (.listed id)) {live : Bool}
    {target : Option (Place Thread Id)}
    (unlistedLater : ∀ id, target ≠ some (.listed id))
    (alive : target ≠ none → live = true)
    (lost : target = none → ¬ discipline.Permanent cell) :
    Sound discipline (shared.setLive cell live) lists
      (Function.update place cell target) := by
  constructor
  · intro id other
    rw [sound.placed id other]
    by_cases same : other = cell
    · subst same
      rw [Function.update_self]
      exact iff_of_false (unlisted id) (unlistedLater id)
    · rw [Function.update_of_ne same]
  · exact sound.distinct
  · intro id other listed
    by_cases same : other = cell
    · subst same
      rw [Function.update_self] at listed
      exact absurd listed (unlistedLater id)
    · rw [Function.update_of_ne same] at listed
      exact sound.fits id other listed
  · intro other present
    by_cases same : other = cell
    · subst same
      rw [Function.update_self] at present
      simpa [Shared.setLive] using alive present
    · rw [Function.update_of_ne same] at present
      simpa [Shared.setLive, same] using sound.live other present
  · intro other permanent
    by_cases same : other = cell
    · subst same
      rw [Function.update_self]
      exact fun gone => lost gone permanent
    · rw [Function.update_of_ne same]
      exact sound.permanent other permanent

variable [DecidableEq Id]

/-- One list changes by one cell, which goes to its new place. -/
theorem relist (sound : Sound discipline shared lists place) {cell : Cell}
    (present : place cell ≠ none) {id : Id} {cells : List Cell}
    {target : Place Thread Id} (distinct : cells.Nodup)
    (moved : ∀ other, other ≠ id → place cell ≠ some (.listed other) ∧
      some target ≠ some (.listed other))
    (same : ∀ other, other ≠ cell → (other ∈ cells ↔ other ∈ lists id))
    (here : cell ∈ cells ↔ some target = some (.listed id))
    (fits : some target = some (.listed id) →
      discipline.Fits id cell (shared.data cell)) :
    Sound discipline shared (Function.update lists id cells)
      (Function.update place cell (some target)) := by
  constructor
  · intro index other
    by_cases isCell : other = cell
    · subst isCell
      rw [Function.update_self]
      by_cases isId : index = id
      · subst isId
        rw [Function.update_self]
        exact here
      · rw [Function.update_of_ne isId, sound.placed index other]
        exact iff_of_false (moved index isId).1 (moved index isId).2
    · rw [Function.update_of_ne isCell]
      by_cases isId : index = id
      · subst isId
        rw [Function.update_self, same other isCell]
        exact sound.placed index other
      · rw [Function.update_of_ne isId]
        exact sound.placed index other
  · intro index
    by_cases isId : index = id
    · subst isId
      rw [Function.update_self]
      exact distinct
    · rw [Function.update_of_ne isId]
      exact sound.distinct index
  · intro index other listed
    by_cases isCell : other = cell
    · subst isCell
      rw [Function.update_self] at listed
      by_cases isId : index = id
      · subst isId
        exact fits listed
      · exact absurd listed (moved index isId).2
    · rw [Function.update_of_ne isCell] at listed
      exact sound.fits index other listed
  · intro other placed
    by_cases isCell : other = cell
    · subst isCell
      exact sound.live other present
    · rw [Function.update_of_ne isCell] at placed
      exact sound.live other placed
  · intro other permanent
    by_cases isCell : other = cell
    · subst isCell
      rw [Function.update_self]
      exact Option.some_ne_none target
    · rw [Function.update_of_ne isCell]
      exact sound.permanent other permanent

theorem push (sound : Sound discipline shared lists place) {cell : Cell}
    {thread : Thread} (mine : place cell = some (.kept thread)) {id : Id}
    (fits : discipline.Fits id cell (shared.data cell)) :
    Sound discipline shared (Function.update lists id (cell :: lists id))
      (Function.update place cell (some (.listed id))) := by
  have outside : ∀ index, place cell ≠ some (.listed index) := by
    intro index listed
    rw [mine] at listed
    simp at listed
  apply sound.relist
  · rw [mine]
    exact Option.some_ne_none _
  · rw [List.nodup_cons, sound.placed]
    exact ⟨outside id, sound.distinct id⟩
  · intro other different
    exact ⟨outside other, by simpa using different.symm⟩
  · intro other different
    simp [different]
  · simp
  · exact fun _ => fits

/-- The first cell that passes the test goes to the thread. -/
theorem unlink (sound : Sound discipline shared lists place) {id : Id}
    {passes : Cell → Bool} {cell : Cell}
    (found : (lists id).find? passes = some cell) (thread : Thread) :
    Sound discipline shared
      (Function.update lists id ((lists id).eraseP passes))
      (Function.update place cell (some (.kept thread))) := by
  have member : cell ∈ lists id := List.mem_of_find?_eq_some found
  have placed := (sound.placed id cell).mp member
  obtain ⟨pass, before, after, split, fails⟩ :=
    List.find?_eq_some_iff_append.mp found
  have erased : (lists id).eraseP passes = before ++ after := by
    rw [split, List.eraseP_append_right _ (by simpa using fails),
      List.eraseP_cons_of_pos pass]
  have distinct := sound.distinct id
  rw [split, List.nodup_middle, List.nodup_cons] at distinct
  rw [erased]
  apply sound.relist
  · rw [placed]
    exact Option.some_ne_none _
  · exact distinct.2
  · intro other different
    rw [placed]
    exact ⟨by simpa using different.symm, by simp⟩
  · intro other different
    rw [split]
    simp [different]
  · exact iff_of_false distinct.1 (by simp)
  · intro impossible
    simp at impossible

end Sound

section Step

variable [DecidableEq Thread] [DecidableEq Lock] [DecidableEq Id]
  {discipline : Discipline Lock Id Cell Data}

namespace Frame

variable {thread : Thread} {shared later : Shared Thread Lock Cell Data}
  {lists : Id → List Cell} {place : Cell → Option (Place Thread Id)}

omit [DecidableEq Cell] [DecidableEq Thread] [DecidableEq Id] in
theorem setOwner {mutex : Lock} {owner : Option Thread}
    (before : shared.owner mutex = none ∨ shared.owner mutex = some thread)
    (after : owner = none ∨ owner = some thread) :
    Frame discipline thread shared lists place (shared.setOwner mutex owner)
      lists place :=
  { refl discipline thread shared lists place with
    held := fun _ different =>
      Shared.held_setOwner different before after }

omit [DecidableEq Thread] [DecidableEq Lock] [DecidableEq Id] in
theorem setData {cell : Cell} (mine : place cell = some (.kept thread))
    (value : Data) :
    Frame discipline thread shared lists place (shared.setData cell value)
      lists place := by
  refine { refl discipline thread shared lists place with data := ?_ }
  intro other elsewhere
  have different : other ≠ cell := by
    rintro rfl
    exact elsewhere mine
  exact Function.update_of_ne different _ _

omit [DecidableEq Thread] [DecidableEq Lock] [DecidableEq Id] in
/-- A cell that no other thread keeps changes hands. -/
theorem kept_update {cell : Cell} {target : Option (Place Thread Id)}
    (before : ∀ other, other ≠ thread → place cell ≠ some (.kept other))
    (after : ∀ other, other ≠ thread → target ≠ some (.kept other))
    (other : Thread) (different : other ≠ thread) (item : Cell) :
    Function.update place cell target item = some (.kept other) ↔
      place item = some (.kept other) := by
  by_cases same : item = cell
  · subst same
    rw [Function.update_self]
    exact iff_of_false (after other different) (before other different)
  · rw [Function.update_of_ne same]

omit [DecidableEq Thread] [DecidableEq Lock] [DecidableEq Id] in
theorem hand {cell : Cell} {live : Bool} {target : Option (Place Thread Id)}
    (before : ∀ other, other ≠ thread → place cell ≠ some (.kept other))
    (after : ∀ other, other ≠ thread → target ≠ some (.kept other)) :
    Frame discipline thread shared lists place (shared.setLive cell live)
      lists (Function.update place cell target) :=
  { refl discipline thread shared lists place with
    kept := kept_update before after }

omit [DecidableEq Thread] [DecidableEq Lock] in
theorem relist {cell : Cell} {target : Option (Place Thread Id)} {id : Id}
    (locked : discipline.lockOf id ∈ shared.held thread) (cells : List Cell)
    (before : ∀ other, other ≠ thread → place cell ≠ some (.kept other))
    (after : ∀ other, other ≠ thread → target ≠ some (.kept other)) :
    Frame discipline thread shared lists place shared
      (Function.update lists id cells) (Function.update place cell target) := by
  refine { refl discipline thread shared lists place with
    kept := kept_update before after, lists := ?_ }
  intro index unlocked
  apply Function.update_of_ne
  rintro rfl
  exact unlocked locked

end Frame

variable {thread : Thread} {answer : Answer} {given : Option Cell}
  {shared later : Shared Thread Lock Cell Data}
  {lists laterLists : Id → List Cell}
  {place : Cell → Option (Place Thread Id)}

/-- The step has kept the discipline, and the rest of the program is safe. -/
def Leads (discipline : Discipline Lock Id Cell Data) (thread : Thread)
    (shared : Shared Thread Lock Cell Data) (lists : Id → List Cell)
    (place : Cell → Option (Place Thread Id))
    (later : Shared Thread Lock Cell Data) (laterLists : Id → List Cell)
    (rest : Prog Lock Id Cell Data Answer Result) : Prop :=
  ∃ laterPlace, Sound discipline later laterLists laterPlace ∧
    rest.Safe discipline (later.held thread)
      (keeps laterPlace later.data thread) ∧
    Frame discipline thread shared lists place later laterLists laterPlace

section Cases

variable {rest : Prog Lock Id Cell Data Answer Result} {mutex : Lock}
  {cell : Cell} {id : Id}

omit [DecidableEq Thread] [DecidableEq Id] in
theorem leads_lock (sound : Sound discipline shared lists place)
    (free : shared.owner mutex = none)
    (safe : rest.Safe discipline (insert mutex (shared.held thread))
      (keeps place shared.data thread)) :
    Leads discipline thread shared lists place
      (shared.setOwner mutex (some thread)) lists rest := by
  refine ⟨place, { sound with }, ?_, .setOwner (.inl free) (.inr rfl)⟩
  rw [Shared.held_take]
  exact safe

omit [DecidableEq Thread] [DecidableEq Id] in
theorem leads_unlock (sound : Sound discipline shared lists place)
    (held : mutex ∈ shared.held thread)
    (safe : rest.Safe discipline (shared.held thread \ {mutex})
      (keeps place shared.data thread)) :
    Leads discipline thread shared lists place (shared.setOwner mutex none)
      lists rest := by
  refine ⟨place, { sound with }, ?_, .setOwner (.inr held) (.inl rfl)⟩
  rw [Shared.held_release]
  exact safe

omit [DecidableEq Thread] [DecidableEq Lock] [DecidableEq Id] in
theorem leads_gain (sound : Sound discipline shared lists place)
    (dead : shared.live cell = false)
    (safe : ∀ value, keeps place shared.data thread cell = none →
      rest.Safe discipline (shared.held thread)
        (Function.update (keeps place shared.data thread) cell
          (some value))) :
    Leads discipline thread shared lists place (shared.setLive cell true)
      lists rest := by
  have unplaced : place cell = none := by
    by_contra present
    rw [sound.live cell present] at dead
    contradiction
  refine ⟨Function.update place cell (some (.kept thread)),
    sound.hand (by simp [unplaced]) (by simp) (fun _ => rfl) (by simp), ?_,
    .hand (by simp [unplaced]) ?_⟩
  · rw [keeps_take]
    apply safe
    rw [keeps_eq_none, unplaced]
    simp
  · intro other different
    simpa using different.symm

omit [DecidableEq Thread] [DecidableEq Lock] [DecidableEq Id] in
theorem leads_dispose (sound : Sound discipline shared lists place)
    (own : keeps place shared.data thread cell ≠ none)
    (spare : ¬ discipline.Permanent cell)
    (safe : rest.Safe discipline (shared.held thread)
      (Function.update (keeps place shared.data thread) cell none)) :
    Leads discipline thread shared lists place (shared.setLive cell false)
      lists rest := by
  have mine := keeps_ne_none.mp own
  refine ⟨Function.update place cell none,
    sound.hand (by simp [mine]) (by simp) (by simp) (fun _ => spare), ?_,
    .hand ?_ (by simp)⟩
  · rw [keeps_give _ _ _ (by simp)]
    exact safe
  · intro other different
    simpa [mine] using different.symm

omit [DecidableEq Thread] [DecidableEq Lock] [DecidableEq Id] in
/-- A cell of the thread gets a new value. -/
theorem leads_setData (sound : Sound discipline shared lists place)
    {value : Data} (own : keeps place shared.data thread cell ≠ none)
    (safe : rest.Safe discipline (shared.held thread)
      (Function.update (keeps place shared.data thread) cell
        (some value))) :
    Leads discipline thread shared lists place (shared.setData cell value)
      lists rest := by
  have mine := keeps_ne_none.mp own
  refine ⟨place, sound.setData mine value, ?_, .setData mine value⟩
  rw [Shared.setData, keeps_setData _ _ mine]
  exact safe

omit [DecidableEq Thread] [DecidableEq Lock] in
theorem leads_push (sound : Sound discipline shared lists place)
    (locked : discipline.lockOf id ∈ shared.held thread)
    (own : ∃ value, keeps place shared.data thread cell = some value ∧
      discipline.Fits id cell value)
    (safe : rest.Safe discipline (shared.held thread)
      (Function.update (keeps place shared.data thread) cell none)) :
    Leads discipline thread shared lists place shared
      (Function.update lists id (cell :: lists id)) rest := by
  obtain ⟨value, held, fits⟩ := own
  obtain ⟨mine, rfl⟩ := keeps_eq_some.mp held
  refine ⟨_, sound.push mine fits, ?_, .relist locked _ ?_ (by simp)⟩
  · rw [keeps_give _ _ _ (by simp)]
    exact safe
  · intro other different
    simpa [mine] using different.symm

omit [DecidableEq Thread] [DecidableEq Lock] in
/-- A cell that is found stays in its list or goes to the thread. -/
theorem leads_find (sound : Sound discipline shared lists place)
    (locked : discipline.lockOf id ∈ shared.held thread)
    {unlinks : Bool} {test : Data → Bool}
    (first : (lists id).find? (fun cell => test (shared.data cell)) =
      some cell)
    (safe : keeps place shared.data thread cell = none →
      discipline.Fits id cell (shared.data cell) →
      test (shared.data cell) = true →
      rest.Safe discipline (shared.held thread)
        (if unlinks then
          Function.update (keeps place shared.data thread) cell
            (some (shared.data cell))
        else keeps place shared.data thread)) :
    Leads discipline thread shared lists place shared
      (if unlinks then
        Function.update lists id
          ((lists id).eraseP fun cell => test (shared.data cell))
      else lists) rest := by
  have placed := (sound.placed id cell).mp (List.mem_of_find?_eq_some first)
  have found := safe (keeps_eq_none.mpr (by simp [placed]))
    (sound.fits id cell placed) (by simpa using List.find?_some first)
  cases unlinks with
  | false =>
      exact ⟨place, sound, found, Frame.refl discipline thread shared lists
        place⟩
  | true =>
      refine ⟨_, sound.unlink first thread, ?_,
        .relist locked _ (by simp [placed]) ?_⟩
      · rw [keeps_take]
        exact found
      · intro other different
        simpa using different.symm

end Cases

omit [DecidableEq Thread] in
theorem Prog.Safe.step {prog rest : Prog Lock Id Cell Data Answer Result}
    (sound : Sound discipline shared lists place)
    (safe : prog.Safe discipline (shared.held thread)
      (keeps place shared.data thread))
    (taken : prog.step shared lists thread answer given =
      some (later, laterLists, rest)) :
    Leads discipline thread shared lists place later laterLists rest := by
  have still := Frame.refl discipline thread shared lists place
  cases prog with
  | done result => simp [Prog.step, Shared.step] at taken
  | ask next =>
      simp only [Prog.step, Shared.step, Option.map_some, Option.some.injEq,
        Prod.mk.injEq] at taken
      obtain ⟨rfl, rfl, rfl⟩ := taken
      exact ⟨place, sound, safe answer, still⟩
  | lock mutex next =>
      simp only [Prog.step, Shared.step] at taken
      split at taken
      · rename_i free
        simp only [Option.map_some, Option.some.injEq,
          Prod.mk.injEq] at taken
        obtain ⟨rfl, rfl, rfl⟩ := taken
        exact leads_lock sound free safe.2
      · simp at taken
  | tryLock mutex next =>
      simp only [Prog.step, Shared.step] at taken
      split at taken
      · rename_i free
        simp only [Option.map_some, Option.some.injEq,
          Prod.mk.injEq] at taken
        obtain ⟨rfl, rfl, rfl⟩ := taken
        exact leads_lock sound free safe.1
      · simp only [Option.map_some, Option.some.injEq,
          Prod.mk.injEq] at taken
        obtain ⟨rfl, rfl, rfl⟩ := taken
        exact ⟨place, sound, safe.2, still⟩
  | unlock mutex next =>
      simp only [Prog.step, Shared.step, Option.map_some, Option.some.injEq,
        Prod.mk.injEq] at taken
      obtain ⟨rfl, rfl, rfl⟩ := taken
      exact leads_unlock sound safe.1 safe.2
  | gain next =>
      cases given with
      | none =>
          simp only [Prog.step, Shared.step, Option.map_some,
            Option.some.injEq, Prod.mk.injEq] at taken
          obtain ⟨rfl, rfl, rfl⟩ := taken
          exact ⟨place, sound, safe.1, still⟩
      | some cell =>
          simp only [Prog.step, Shared.step] at taken
          split at taken
          · rename_i dead
            simp only [Option.map_some, Option.some.injEq,
              Prod.mk.injEq] at taken
            obtain ⟨rfl, rfl, rfl⟩ := taken
            exact leads_gain sound dead (safe.2 cell)
          · simp at taken
  | dispose cell next =>
      simp only [Prog.step, Shared.step, Option.map_some, Option.some.injEq,
        Prod.mk.injEq] at taken
      obtain ⟨rfl, rfl, rfl⟩ := taken
      exact leads_dispose sound safe.1 safe.2.1 safe.2.2
  | read cell next =>
      simp only [Prog.step, Shared.step, Option.map_some, Option.some.injEq,
        Prod.mk.injEq] at taken
      obtain ⟨rfl, rfl, rfl⟩ := taken
      obtain ⟨value, mine, safe⟩ := safe
      rw [(keeps_eq_some.mp mine).2]
      exact ⟨place, sound, safe, still⟩
  | write cell value next =>
      simp only [Prog.step, Shared.step, Option.map_some, Option.some.injEq,
        Prod.mk.injEq] at taken
      obtain ⟨rfl, rfl, rfl⟩ := taken
      exact leads_setData sound safe.1 safe.2
  | reset cell value next =>
      simp only [Prog.step, Option.some.injEq, Prod.mk.injEq] at taken
      obtain ⟨rfl, rfl, rfl⟩ := taken
      exact leads_setData sound safe.1 safe.2
  | push id cell next =>
      simp only [Prog.step, Option.some.injEq, Prod.mk.injEq] at taken
      obtain ⟨rfl, rfl, rfl⟩ := taken
      exact leads_push sound safe.1 safe.2.1 safe.2.2
  | find unlinks id test next =>
      obtain ⟨locked, missing, found⟩ := safe
      simp only [Prog.step] at taken
      split at taken
      · simp only [Option.some.injEq, Prod.mk.injEq] at taken
        obtain ⟨rfl, rfl, rfl⟩ := taken
        exact ⟨place, sound, missing, still⟩
      · rename_i cell first
        simp only [Option.some.injEq, Prod.mk.injEq] at taken
        obtain ⟨rfl, rfl, rfl⟩ := taken
        exact leads_find sound locked first (found cell (shared.data cell))
  | collect id limit next =>
      simp only [Prog.step, Option.some.injEq, Prod.mk.injEq] at taken
      obtain ⟨rfl, rfl, rfl⟩ := taken
      exact ⟨place, sound, safe.2 _, still⟩

/-! ## Whole runs -/

variable {program : Call → Prog Lock Id Cell Data Answer Result}
  {state target : AtomicState Thread Lock Id Cell Data Answer Result}

/-- Threads that only call safe programs keep the discipline. -/
theorem Typed.next
    (safe : ∀ call, (program call).Safe discipline ∅ fun _ => none)
    (typed : Typed discipline state place)
    {label : Label Thread Call Cell Answer}
    (taken : atomicNext program state label = some target) :
    ∃ laterPlace, Typed discipline target laterPlace ∧
      Frame discipline label.thread state.shared state.lists place
        target.shared target.lists laterPlace := by
  cases label with
  | call thread call =>
      simp only [atomicNext] at taken
      split at taken
      · rename_i idle
        simp only [Option.some.injEq] at taken
        subst taken
        obtain ⟨unlocked, useless⟩ : state.shared.held thread = ∅ ∧
            ∀ cell, keeps place state.shared.data thread cell ≠ none →
              ¬ discipline.Permanent cell := by
          have finished := typed.safe thread
          cases current : state.threads thread with
          | done result =>
              rw [current] at finished
              exact finished
          | _ => simp [current, Prog.isDone] at idle
        refine ⟨place, { typed.toSound with safe := ?_ }, .refl ..⟩
        intro other
        dsimp only
        by_cases same : other = thread
        · subst same
          rw [Function.update_self, unlocked]
          exact (safe call).more ⟨by simp, fun cell _ => useless cell⟩
        · rw [Function.update_of_ne same]
          exact typed.safe other
      · contradiction
  | step thread answer given =>
      simp only [atomicNext] at taken
      obtain ⟨⟨later, laterLists, rest⟩, stepped, rfl⟩ :=
        Option.map_eq_some_iff.mp taken
      obtain ⟨laterPlace, sound, restSafe, frame⟩ :=
        Prog.Safe.step typed.toSound (typed.safe thread) stepped
      refine ⟨laterPlace, { sound with safe := ?_ }, frame⟩
      intro other
      dsimp only
      by_cases same : other = thread
      · subst same
        rw [Function.update_self]
        exact restSafe
      · rw [Function.update_of_ne same, frame.held other same,
          frame.keeps_eq same]
        exact typed.safe other

end Step

end LockedLists
