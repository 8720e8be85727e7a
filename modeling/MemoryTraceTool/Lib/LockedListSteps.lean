import MemoryTraceTool.Lib.LockedListSafety

/-!
# Locked lists refine single steps

Every reachable state of the threads that take one access to memory at a time
stands for a reachable state of the threads that take one operation at a time.
The lists in memory are the abstract lists throughout: a cell appears in its
list, or leaves it, with the one write to the pointer to it.
-/

namespace LockedLists

open Transition Chain

variable {Thread : Type z} {Call : Type c} {Lock : Type u} {Id : Type v}
  {Cell : Type w} {Data : Type x} {Answer : Type a} {Result : Type y}

/-- The operation that a thread is in, and how far it has come: `before` are
the cells of the list that a walk has passed. -/
inductive Doing (memory : Memory Id Cell) (lists : Id → List Cell)
    (data : Cell → Data) :
    Control Lock Id Cell Data Answer Result →
      Prog Lock Id Cell Data Answer Result → Prop where
  | run {prog} : Doing memory lists data (.run prog) prog
  | link {id cell rest} :
      Doing memory lists data (.link id cell (memory.head id) rest)
        (.push id cell rest)
  | enter {id cell rest} (linked : memory.next cell = memory.head id) :
      Doing memory lists data (.enter id cell rest) (.push id cell rest)
  | look {unlinks id before cell after test rest}
      (split : lists id = before ++ cell :: after)
      (fails : ∀ item ∈ before, test (data item) = false) :
      Doing memory lists data
        (.look unlinks id before.getLast? cell test rest)
        (.find unlinks id test rest)
  | advance {unlinks id before cell after test rest}
      (split : lists id = before ++ cell :: after)
      (fails : ∀ item ∈ before, test (data item) = false)
      (different : test (data cell) = false) :
      Doing memory lists data (.advance unlinks id cell test rest)
        (.find unlinks id test rest)
  | skip {id before cell after test rest}
      (split : lists id = before ++ cell :: after)
      (fails : ∀ item ∈ before, test (data item) = false)
      (passes : test (data cell) = true) :
      Doing memory lists data
        (.skip id before.getLast? cell (data cell) test rest)
        (.find true id test rest)
  | bypass {id before cell after test rest}
      (split : lists id = before ++ cell :: after)
      (fails : ∀ item ∈ before, test (data item) = false)
      (passes : test (data cell) = true) :
      Doing memory lists data
        (.bypass id before.getLast? cell (data cell) (memory.next cell) test
          rest)
        (.find true id test rest)
  | copy {id before cell after limit rest}
      (split : lists id = before ++ cell :: after)
      (room : before.length < limit) :
      Doing memory lists data (.copy id cell limit (before.map data) rest)
        (.collect id limit rest)
  | onward {id before cell after limit rest}
      (split : lists id = before ++ cell :: after)
      (room : before.length < limit) :
      Doing memory lists data
        (.onward id cell limit ((before ++ [cell]).map data) rest)
        (.collect id limit rest)

/-- The list that a program works on next. -/
def Prog.list : Prog Lock Id Cell Data Answer Result → Option Id
  | .push id _ _ | .find _ id _ _ | .collect id _ _ => some id
  | _ => none

/-- The cell that a program links next. -/
def Prog.linked : Prog Lock Id Cell Data Answer Result → Option Cell
  | .push _ cell _ => some cell
  | _ => none

theorem Doing.isDone {memory : Memory Id Cell} {lists : Id → List Cell}
    {data : Cell → Data} {control : Control Lock Id Cell Data Answer Result}
    {prog : Prog Lock Id Cell Data Answer Result}
    (doing : Doing memory lists data control prog)
    (finished : control.isDone = true) : prog.isDone = true := by
  cases doing with
  | run => exact finished
  | _ => simp [Control.isDone] at finished

/-- A thread goes on with its operation if the list and its cells, and the
cell that it links, are as they were. -/
theorem Doing.frame {memory later : Memory Id Cell}
    {lists laterLists : Id → List Cell} {data laterData : Cell → Data}
    {control : Control Lock Id Cell Data Answer Result}
    {prog : Prog Lock Id Cell Data Answer Result}
    (doing : Doing memory lists data control prog)
    (sameList : ∀ id, prog.list = some id → later.head id = memory.head id ∧
      laterLists id = lists id ∧ ∀ cell ∈ lists id,
        later.next cell = memory.next cell ∧ laterData cell = data cell)
    (sameCell : ∀ cell, prog.linked = some cell →
      later.next cell = memory.next cell) :
    Doing later laterLists laterData control prog := by
  cases doing with
  | run => exact .run
  | @link id cell rest =>
      rw [← (sameList id rfl).1]
      exact .link
  | @enter id cell rest linked =>
      refine .enter ?_
      rw [sameCell cell rfl, (sameList id rfl).1]
      exact linked
  | @look unlinks id before cell after test rest split fails =>
      obtain ⟨_, sameCells, same⟩ := sameList id rfl
      refine .look (sameCells.trans split) ?_
      intro item passed
      rw [(same item (by simp [split, passed])).2]
      exact fails item passed
  | @advance unlinks id before cell after test rest split fails different =>
      obtain ⟨_, sameCells, same⟩ := sameList id rfl
      refine .advance (sameCells.trans split) ?_ ?_
      · intro item passed
        rw [(same item (by simp [split, passed])).2]
        exact fails item passed
      · rw [(same cell (by simp [split])).2]
        exact different
  | @skip id before cell after test rest split fails passes =>
      obtain ⟨_, sameCells, same⟩ := sameList id rfl
      have sameValue := (same cell (by simp [split])).2
      rw [← sameValue]
      refine .skip (sameCells.trans split) ?_ ?_
      · intro item passed
        rw [(same item (by simp [split, passed])).2]
        exact fails item passed
      · rw [sameValue]
        exact passes
  | @bypass id before cell after test rest split fails passes =>
      obtain ⟨_, sameCells, same⟩ := sameList id rfl
      obtain ⟨sameNext, sameValue⟩ := same cell (by simp [split])
      rw [← sameValue, ← sameNext]
      refine .bypass (sameCells.trans split) ?_ ?_
      · intro item passed
        rw [(same item (by simp [split, passed])).2]
        exact fails item passed
      · rw [sameValue]
        exact passes
  | @copy id before cell after limit rest split room =>
      obtain ⟨_, sameCells, same⟩ := sameList id rfl
      have sameCopies : before.map laterData = before.map data :=
        List.map_congr_left fun item passed =>
          (same item (by simp [split, passed])).2
      rw [← sameCopies]
      exact .copy (sameCells.trans split) room
  | @onward id before cell after limit rest split room =>
      obtain ⟨_, sameCells, same⟩ := sameList id rfl
      have sameCopies :
          (before ++ [cell]).map laterData = (before ++ [cell]).map data :=
        List.map_congr_left fun item passed => by
          refine (same item ?_).2
          rw [split]
          simp only [List.mem_append, List.mem_singleton] at passed
          simp only [List.mem_append, List.mem_cons]
          exact passed.imp_right .inl
      rw [← sameCopies]
      exact .onward (sameCells.trans split) room

/-! ## One access to memory -/

/-- The pointer behind a cell leads to the rest of the list. -/
theorem linked_after {next : Cell → Option Cell} {start : Option Cell}
    {before after : List Cell} {cell : Cell}
    (linked : Linked next start (before ++ cell :: after)) :
    Linked next (next cell) after := by
  induction before generalizing start with
  | nil => exact linked.2
  | cons first before induction => exact induction linked.2

variable [DecidableEq Thread] [DecidableEq Lock] [DecidableEq Id]
  [DecidableEq Cell]

/-- The operation of a thread either takes place or is still going on. -/
def Prog.Advances (prog : Prog Lock Id Cell Data Answer Result)
    (shared : Shared Thread Lock Cell Data) (lists : Id → List Cell)
    (thread : Thread) (answer : Answer) (given : Option Cell)
    (later : Shared Thread Lock Cell Data) (laterLists : Id → List Cell)
    (laterProg : Prog Lock Id Cell Data Answer Result) : Prop :=
  prog.step shared lists thread answer given =
      some (later, laterLists, laterProg) ∨
    later = shared ∧ laterLists = lists ∧ laterProg = prog

/-- A step of one thread writes the heads of the lists it has locked, and the
next fields of its own cells and of the cells in those lists. -/
structure Confined (discipline : Discipline Lock Id Cell Data)
    (thread : Thread) (shared : Shared Thread Lock Cell Data)
    (place : Cell → Option (Place Thread Id)) (memory later : Memory Id Cell) :
    Prop where
  head : ∀ id, discipline.lockOf id ∉ shared.held thread →
    later.head id = memory.head id
  next : ∀ cell, place cell ≠ some (.kept thread) →
    (∀ id, place cell = some (.listed id) →
      discipline.lockOf id ∉ shared.held thread) →
    later.next cell = memory.next cell

section Walks

variable {shared : Shared Thread Lock Cell Data} {memory : Memory Id Cell}
  {lists : Id → List Cell} {id : Id} {pointer : Option Cell}
  {before remaining : List Cell}

omit [DecidableEq Thread] in
/-- A search goes on behind the cells that it has passed, or ends. -/
theorem Doing.arrive (unlinks : Bool) {test : Data → Bool}
    (rest : Option (Cell × Data) → Prog Lock Id Cell Data Answer Result)
    (thread : Thread) (answer : Answer) (given : Option Cell)
    (split : lists id = before ++ remaining)
    (linked : Linked memory.next pointer remaining)
    (fails : ∀ item ∈ before, test (shared.data item) = false) :
    ∃ laterProg, Prog.Advances (.find unlinks id test rest) shared lists
        thread answer given shared lists laterProg ∧
      Doing memory lists shared.data
        (.arrive unlinks id before.getLast? test rest pointer) laterProg := by
  cases remaining with
  | nil =>
      rw [show pointer = none from linked]
      refine ⟨rest none, .inl ?_, .run⟩
      have missing : (lists id).find? (fun cell => test (shared.data cell)) =
          none := by
        rw [split, List.append_nil, List.find?_eq_none]
        intro item passed
        simpa using fails item passed
      simp only [Prog.step, missing]
  | cons cell after =>
      rw [linked.1]
      exact ⟨_, .inr ⟨rfl, rfl, rfl⟩, .look split fails⟩

omit [DecidableEq Thread] in
/-- A copying walk goes on behind the cells that it has copied, or ends. -/
theorem Doing.proceed {limit : Nat}
    (rest : List Data → Prog Lock Id Cell Data Answer Result)
    (thread : Thread) (answer : Answer) (given : Option Cell)
    (split : lists id = before ++ remaining)
    (linked : Linked memory.next pointer remaining)
    (room : before.length ≤ limit) :
    ∃ laterProg, Prog.Advances (.collect id limit rest) shared lists
        thread answer given shared lists laterProg ∧
      Doing memory lists shared.data
        (.proceed id limit (before.map shared.data) rest pointer)
        laterProg := by
  cases remaining with
  | nil =>
      rw [show pointer = none from linked]
      refine ⟨rest (before.map shared.data), .inl ?_, .run⟩
      simp only [Prog.step]
      rw [split, List.append_nil, List.take_of_length_le room]
  | cons cell after =>
      rw [linked.1]
      simp only [Control.proceed, List.length_map]
      split
      · rename_i short
        exact ⟨_, .inr ⟨rfl, rfl, rfl⟩, .copy split short⟩
      · rename_i full
        refine ⟨rest (before.map shared.data), .inl ?_, .run⟩
        have exact_ : limit = before.length := by omega
        simp only [Prog.step]
        rw [split, exact_, List.take_left]

end Walks

section Links

variable {discipline : Discipline Lock Id Cell Data}
  {shared : Shared Thread Lock Cell Data} {lists : Id → List Cell}
  {place : Cell → Option (Place Thread Id)} {memory : Memory Id Cell}

omit [DecidableEq Thread] [DecidableEq Lock] [DecidableEq Id] in
/-- The next field of a cell in no list may be written. -/
theorem linked_setNext (sound : Sound discipline shared lists place)
    (linked : ∀ id, Linked memory.next (memory.head id) (lists id))
    {cell : Cell} (unlisted : ∀ id, place cell ≠ some (.listed id))
    (value : Option Cell) (id : Id) :
    Linked (memory.setNext cell value).next
      ((memory.setNext cell value).head id) (lists id) := by
  apply (linked id).update
  rw [sound.placed]
  exact unlisted id

omit [DecidableEq Thread] [DecidableEq Lock] [DecidableEq Cell] in
theorem linked_setHead
    (linked : ∀ id, Linked memory.next (memory.head id) (lists id))
    {id : Id} {start : Option Cell} {cells : List Cell}
    (linkedHere : Linked memory.next start cells) (other : Id) :
    Linked (memory.setHead id start).next
      ((memory.setHead id start).head other)
      (Function.update lists id cells other) := by
  by_cases same : other = id
  · subst same
    simp only [Memory.setHead, Function.update_self]
    exact linkedHere
  · simp only [Memory.setHead, Function.update_of_ne same]
    exact linked other

omit [DecidableEq Thread] [DecidableEq Lock] in
/-- The write to the pointer to a cell takes the cell out of its list. -/
theorem linked_bypass (sound : Sound discipline shared lists place)
    (linked : ∀ id, Linked memory.next (memory.head id) (lists id))
    {id : Id} {before after : List Cell} {cell : Cell}
    (split : lists id = before ++ cell :: after) (other : Id) :
    let later := match before.getLast? with
      | none => memory.setHead id (memory.next cell)
      | some previous => memory.setNext previous (memory.next cell)
    Linked later.next (later.head other)
      (Function.update lists id (before ++ after) other) := by
  have here := linked id
  have distinct := sound.distinct id
  rw [split] at here distinct
  cases last : before.getLast? with
  | none =>
      rw [List.getLast?_eq_none_iff] at last
      subst last
      exact linked_setHead linked here.2 other
  | some previous =>
      obtain ⟨early, rfl⟩ := List.getLast?_eq_some_iff.mp last
      dsimp only [Memory.setNext]
      by_cases same : other = id
      · subst same
        rw [Function.update_self]
        simp only [List.append_assoc, List.cons_append,
          List.nil_append] at here distinct ⊢
        exact here.bypass distinct
      · rw [Function.update_of_ne same]
        apply (linked other).update
        have member : previous ∈ lists id := by
          rw [split]
          simp
        rw [sound.placed, (sound.placed id previous).mp member]
        simpa using Ne.symm same

end Links

namespace Confined

variable {discipline : Discipline Lock Id Cell Data} {thread : Thread}
  {shared : Shared Thread Lock Cell Data}
  {place : Cell → Option (Place Thread Id)} {memory : Memory Id Cell}

omit [DecidableEq Thread] [DecidableEq Lock] [DecidableEq Id]
  [DecidableEq Cell] in
theorem refl (discipline : Discipline Lock Id Cell Data) (thread : Thread)
    (shared : Shared Thread Lock Cell Data)
    (place : Cell → Option (Place Thread Id)) (memory : Memory Id Cell) :
    Confined discipline thread shared place memory memory :=
  ⟨fun _ _ => rfl, fun _ _ _ => rfl⟩

omit [DecidableEq Thread] [DecidableEq Lock] [DecidableEq Id] in
theorem setNext {cell : Cell}
    (mine : place cell = some (.kept thread) ∨ ∃ id,
      place cell = some (.listed id) ∧
        discipline.lockOf id ∈ shared.held thread)
    (value : Option Cell) :
    Confined discipline thread shared place memory
      (memory.setNext cell value) := by
  refine ⟨fun _ _ => rfl, ?_⟩
  intro other notKept unlocked
  apply Function.update_of_ne
  rintro rfl
  rcases mine with kept | ⟨id, listed, locked⟩
  · exact notKept kept
  · exact unlocked id listed locked

omit [DecidableEq Thread] [DecidableEq Lock] [DecidableEq Cell] in
theorem setHead {id : Id} (locked : discipline.lockOf id ∈ shared.held thread)
    (start : Option Cell) :
    Confined discipline thread shared place memory
      (memory.setHead id start) := by
  refine ⟨?_, fun _ _ _ => rfl⟩
  intro other unlocked
  apply Function.update_of_ne
  rintro rfl
  exact unlocked locked

end Confined

section OneStep

variable {discipline : Discipline Lock Id Cell Data}
  {thread : Thread} {answer : Answer} {given : Option Cell}
  {shared later : Shared Thread Lock Cell Data}
  {memory laterMemory : Memory Id Cell} {lists : Id → List Cell}
  {place : Cell → Option (Place Thread Id)}
  {laterControl : Control Lock Id Cell Data Answer Result}
  {prog : Prog Lock Id Cell Data Answer Result}

omit [DecidableEq Thread] in
/-- A search that has passed `before` and found `cell` does so in one step. -/
theorem find_step (unlinks : Bool) {test : Data → Bool}
    (rest : Option (Cell × Data) → Prog Lock Id Cell Data Answer Result)
    {id : Id} {before after : List Cell} {cell : Cell}
    (split : lists id = before ++ cell :: after)
    (fails : ∀ item ∈ before, test (shared.data item) = false)
    (passes : test (shared.data cell) = true) :
    (Prog.find unlinks id test rest).step shared lists thread answer given =
      some (shared,
        if unlinks then Function.update lists id (before ++ after) else lists,
        rest (some (cell, shared.data cell))) := by
  have found : (lists id).find? (fun item => test (shared.data item)) =
      some cell := by
    rw [List.find?_eq_some_iff_append]
    refine ⟨passes, before, after, split, ?_⟩
    intro item passed
    simpa using fails item passed
  have erased : (lists id).eraseP (fun item => test (shared.data item)) =
      before ++ after := by
    rw [split, List.eraseP_append_right _ (by simpa using fails)]
    congr 1
    exact List.eraseP_cons_of_pos passes
  simp only [Prog.step, found, erased]

omit [DecidableEq Thread] in
theorem Doing.step_run (sound : Sound discipline shared lists place)
    (safe : prog.Safe discipline (shared.held thread)
      (keeps place shared.data thread))
    (linked : ∀ id, Linked memory.next (memory.head id) (lists id))
    (taken : (Control.run prog).step shared memory thread answer given =
      some (later, laterMemory, laterControl)) :
    ∃ laterLists laterProg,
      prog.Advances shared lists thread answer given later laterLists
        laterProg ∧
      (∀ id, Linked laterMemory.next (laterMemory.head id)
        (laterLists id)) ∧
      Doing laterMemory laterLists later.data laterControl laterProg ∧
      Confined discipline thread shared place memory laterMemory := by
  have still := Confined.refl discipline thread shared place memory
  -- the actions on no list are the same in both systems
  have apart : (Control.run prog).step shared memory thread answer given =
        (shared.step thread answer given prog).map
          (fun moved => (moved.1, memory, .run moved.2)) →
      prog.step shared lists thread answer given =
        (shared.step thread answer given prog).map
          (fun moved => (moved.1, lists, moved.2)) →
      ∃ laterLists laterProg,
        prog.Advances shared lists thread answer given later laterLists
          laterProg ∧
        (∀ id, Linked laterMemory.next (laterMemory.head id)
          (laterLists id)) ∧
        Doing laterMemory laterLists later.data laterControl laterProg ∧
        Confined discipline thread shared place memory laterMemory := by
    intro fine single
    rw [fine, Option.map_eq_some_iff] at taken
    obtain ⟨⟨target, rest⟩, stepped, same⟩ := taken
    simp only [Prod.mk.injEq] at same
    obtain ⟨rfl, rfl, rfl⟩ := same
    refine ⟨lists, rest, .inl ?_, linked, .run, still⟩
    rw [single, stepped, Option.map_some]
  cases prog with
  | done result => exact apart rfl rfl
  | ask next => exact apart rfl rfl
  | lock mutex next => exact apart rfl rfl
  | tryLock mutex next => exact apart rfl rfl
  | unlock mutex next => exact apart rfl rfl
  | gain next => exact apart rfl rfl
  | dispose cell next => exact apart rfl rfl
  | read cell next => exact apart rfl rfl
  | write cell value next => exact apart rfl rfl
  | reset cell value next =>
      simp only [Control.step, Option.some.injEq, Prod.mk.injEq] at taken
      obtain ⟨rfl, rfl, rfl⟩ := taken
      have mine := keeps_ne_none.mp safe.1
      exact ⟨lists, next, .inl rfl,
        linked_setNext sound linked (by simp [mine]) none, .run,
        .setNext (.inl mine) none⟩
  | push id cell next =>
      simp only [Control.step, Option.some.injEq, Prod.mk.injEq] at taken
      obtain ⟨rfl, rfl, rfl⟩ := taken
      exact ⟨lists, _, .inr ⟨rfl, rfl, rfl⟩, linked, .link, still⟩
  | find unlinks id test next =>
      simp only [Control.step, Option.some.injEq, Prod.mk.injEq] at taken
      obtain ⟨rfl, rfl, rfl⟩ := taken
      obtain ⟨laterProg, advances, doing⟩ :=
        Doing.arrive unlinks next thread answer given
          (List.nil_append (lists id)).symm (linked id) (by simp)
      exact ⟨lists, laterProg, advances, linked, doing, still⟩
  | collect id limit next =>
      simp only [Control.step, Option.some.injEq, Prod.mk.injEq] at taken
      obtain ⟨rfl, rfl, rfl⟩ := taken
      obtain ⟨laterProg, advances, doing⟩ :=
        Doing.proceed next thread answer given
          (List.nil_append (lists id)).symm (linked id) (Nat.zero_le limit)
      exact ⟨lists, laterProg, advances, linked, doing, still⟩

omit [DecidableEq Thread] in
/-- One access to memory by a thread with a safe program is a step of its
operation, or goes on with it. -/
theorem Doing.step {control : Control Lock Id Cell Data Answer Result}
    (doing : Doing memory lists shared.data control prog)
    (sound : Sound discipline shared lists place)
    (safe : prog.Safe discipline (shared.held thread)
      (keeps place shared.data thread))
    (linked : ∀ id, Linked memory.next (memory.head id) (lists id))
    (taken : control.step shared memory thread answer given =
      some (later, laterMemory, laterControl)) :
    ∃ laterLists laterProg,
      prog.Advances shared lists thread answer given later laterLists
        laterProg ∧
      (∀ id, Linked laterMemory.next (laterMemory.head id)
        (laterLists id)) ∧
      Doing laterMemory laterLists later.data laterControl laterProg ∧
      Confined discipline thread shared place memory laterMemory := by
  have still := Confined.refl discipline thread shared place memory
  have same : prog.Advances shared lists thread answer given shared lists
      prog := .inr ⟨rfl, rfl, rfl⟩
  cases doing with
  | run => exact Doing.step_run sound safe linked taken
  | @link id cell rest =>
      simp only [Control.step, Option.some.injEq, Prod.mk.injEq] at taken
      obtain ⟨rfl, rfl, rfl⟩ := taken
      obtain ⟨_, ⟨value, held, _⟩, _⟩ := safe
      have mine := (keeps_eq_some.mp held).1
      refine ⟨lists, _, same,
        linked_setNext sound linked (by simp [mine]) (memory.head id),
        .enter ?_, .setNext (.inl mine) _⟩
      exact Function.update_self ..
  | @enter id cell rest linkedCell =>
      simp only [Control.step, Option.some.injEq, Prod.mk.injEq] at taken
      obtain ⟨rfl, rfl, rfl⟩ := taken
      refine ⟨_, rest, .inl rfl, linked_setHead linked ⟨rfl, ?_⟩, .run,
        .setHead safe.1 _⟩
      rw [linkedCell]
      exact linked id
  | @look unlinks id before cell after test rest split fails =>
      simp only [Control.step, Option.some.injEq, Prod.mk.injEq] at taken
      obtain ⟨rfl, rfl, rfl⟩ := taken
      cases passes : test (shared.data cell) with
      | false =>
          exact ⟨lists, _, same, linked, .advance split fails passes, still⟩
      | true =>
          cases unlinks with
          | false =>
              exact ⟨lists, _, .inl (find_step false rest split fails passes),
                linked, .run, still⟩
          | true =>
              exact ⟨lists, _, same, linked, .skip split fails passes, still⟩
  | @advance unlinks id before cell after test rest split fails different =>
      simp only [Control.step, Option.some.injEq, Prod.mk.injEq] at taken
      obtain ⟨rfl, rfl, rfl⟩ := taken
      have here := linked id
      rw [split] at here
      have passed : lists id = (before ++ [cell]) ++ after := by
        rw [split, List.append_assoc, List.singleton_append]
      obtain ⟨laterProg, advances, doing⟩ :=
        Doing.arrive unlinks rest thread answer given passed
          (linked_after here) (by
            intro item member
            rcases List.mem_append.mp member with early | last
            · exact fails item early
            · rw [List.mem_singleton.mp last]
              exact different)
      rw [List.getLast?_concat] at doing
      exact ⟨lists, laterProg, advances, linked, doing, still⟩
  | @skip id before cell after test rest split fails passes =>
      simp only [Control.step, Option.some.injEq, Prod.mk.injEq] at taken
      obtain ⟨rfl, rfl, rfl⟩ := taken
      exact ⟨lists, _, same, linked, .bypass split fails passes, still⟩
  | @bypass id before cell after test rest split fails passes =>
      simp only [Control.step, Option.some.injEq, Prod.mk.injEq] at taken
      obtain ⟨rfl, rfl, rfl⟩ := taken
      refine ⟨_, _, .inl (find_step true rest split fails passes),
        linked_bypass sound linked split, .run, ?_⟩
      cases last : before.getLast? with
      | none => exact .setHead safe.1 _
      | some previous =>
          refine .setNext (.inr ⟨id, ?_, safe.1⟩) _
          rw [← sound.placed, split]
          exact List.mem_append_left _ (List.mem_of_getLast? last)
  | @copy id before cell after limit rest split room =>
      simp only [Control.step, Option.some.injEq, Prod.mk.injEq] at taken
      obtain ⟨rfl, rfl, rfl⟩ := taken
      refine ⟨lists, _, same, linked, ?_, still⟩
      rw [← List.map_singleton, ← List.map_append]
      exact .onward split room
  | @onward id before cell after limit rest split room =>
      simp only [Control.step, Option.some.injEq, Prod.mk.injEq] at taken
      obtain ⟨rfl, rfl, rfl⟩ := taken
      have here := linked id
      rw [split] at here
      have passed : lists id = (before ++ [cell]) ++ after := by
        rw [split, List.append_assoc, List.singleton_append]
      have stillRoom : (before ++ [cell]).length ≤ limit := by
        rw [List.length_append, List.length_singleton]
        exact room
      obtain ⟨laterProg, advances, doing⟩ :=
        Doing.proceed rest thread answer given passed (linked_after here)
          stillRoom
      exact ⟨lists, laterProg, advances, linked, doing, still⟩

end OneStep

/-! ## Whole runs -/

/-- The lists in memory are the abstract ones, and every thread is in its
operation. -/
structure Refines (fine : FineState Thread Lock Id Cell Data Answer Result)
    (atomic : AtomicState Thread Lock Id Cell Data Answer Result) : Prop where
  shared : fine.shared = atomic.shared
  linked : ∀ id, Linked fine.memory.next (fine.memory.head id)
    (atomic.lists id)
  doing : ∀ thread, Doing fine.memory atomic.lists atomic.shared.data
    (fine.threads thread) (atomic.threads thread)

section Runs

variable {discipline : Discipline Lock Id Cell Data}
  {program : Call → Prog Lock Id Cell Data Answer Result}

omit [DecidableEq Thread] [DecidableEq Lock] [DecidableEq Id] in
theorem Prog.Safe.locked {prog : Prog Lock Id Cell Data Answer Result}
    {held : Set Lock} {own : Cell → Option Data}
    (safe : prog.Safe discipline held own) {id : Id}
    (works : prog.list = some id) : discipline.lockOf id ∈ held := by
  cases prog with
  | push index cell rest =>
      simp only [Prog.list, Option.some.injEq] at works
      exact works ▸ safe.1
  | find unlinks index test rest =>
      simp only [Prog.list, Option.some.injEq] at works
      exact works ▸ safe.1
  | collect index limit rest =>
      simp only [Prog.list, Option.some.injEq] at works
      exact works ▸ safe.1
  | _ => simp [Prog.list] at works

omit [DecidableEq Thread] [DecidableEq Lock] [DecidableEq Id] in
theorem Prog.Safe.linksOwn {prog : Prog Lock Id Cell Data Answer Result}
    {held : Set Lock} {own : Cell → Option Data}
    (safe : prog.Safe discipline held own) {cell : Cell}
    (links : prog.linked = some cell) : own cell ≠ none := by
  cases prog with
  | push index other rest =>
      simp only [Prog.linked, Option.some.injEq] at links
      obtain ⟨_, ⟨value, mine, _⟩, _⟩ := safe
      rw [← links, mine]
      exact Option.some_ne_none value
  | _ => simp [Prog.linked] at links

omit [DecidableEq Thread] [DecidableEq Lock] [DecidableEq Id]
  [DecidableEq Cell] in
theorem not_held {shared : Shared Thread Lock Cell Data}
    {thread other : Thread} (different : other ≠ thread) {mutex : Lock}
    (held : mutex ∈ shared.held other) : mutex ∉ shared.held thread := by
  intro also
  have same : some other = some thread := held.symm.trans also
  exact different (Option.some.inj same)

omit [DecidableEq Thread] [DecidableEq Lock] [DecidableEq Id] in
/-- A step of one thread does not disturb the operation of another. -/
theorem Doing.other {thread other : Thread} (different : other ≠ thread)
    {shared later : Shared Thread Lock Cell Data}
    {lists laterLists : Id → List Cell}
    {place laterPlace : Cell → Option (Place Thread Id)}
    {memory laterMemory : Memory Id Cell}
    {control : Control Lock Id Cell Data Answer Result}
    {prog : Prog Lock Id Cell Data Answer Result}
    (doing : Doing memory lists shared.data control prog)
    (sound : Sound discipline shared lists place)
    (safe : prog.Safe discipline (shared.held other)
      (keeps place shared.data other))
    (frame : Frame discipline thread shared lists place later laterLists
      laterPlace)
    (confined : Confined discipline thread shared place memory laterMemory) :
    Doing laterMemory laterLists later.data control prog := by
  apply doing.frame
  · intro id works
    have unlocked := not_held different (safe.locked works)
    refine ⟨confined.head id unlocked, frame.lists id unlocked, ?_⟩
    intro cell member
    have placed := (sound.placed id cell).mp member
    have notKept : place cell ≠ some (.kept thread) := by simp [placed]
    refine ⟨confined.next cell notKept ?_, frame.data cell notKept⟩
    intro index listed
    have same : index = id := by simpa [placed] using listed.symm
    rw [same]
    exact unlocked
  · intro cell links
    have kept := keeps_ne_none.mp (safe.linksOwn links)
    apply confined.next cell
    · rw [kept]
      simpa using different
    · intro id listed
      simp [kept] at listed

variable {fine later : FineState Thread Lock Id Cell Data Answer Result}
  {atomic : AtomicState Thread Lock Id Cell Data Answer Result}
  {place : Cell → Option (Place Thread Id)}

/-- An access by one thread is a single step of its operation, or nothing that
the single steps show. -/
theorem Refines.next (refines : Refines fine atomic)
    (typed : Typed discipline atomic place)
    {label : Label Thread Call Cell Answer}
    (taken : fineNext program fine label = some later) :
    ∃ target, (atomicNext program atomic label = some target ∨
      target = atomic) ∧ Refines later target := by
  cases label with
  | call thread call =>
      simp only [fineNext] at taken
      split at taken
      · rename_i idle
        simp only [Option.some.injEq] at taken
        subst taken
        have finished := (refines.doing thread).isDone idle
        refine ⟨_, .inl (if_pos finished), refines.shared, refines.linked, ?_⟩
        intro other
        dsimp only
        by_cases same : other = thread
        · subst same
          rw [Function.update_self, Function.update_self]
          exact .run
        · rw [Function.update_of_ne same, Function.update_of_ne same]
          exact refines.doing other
      · contradiction
  | step thread answer given =>
      simp only [fineNext] at taken
      obtain ⟨⟨shared, memory, control⟩, stepped, rfl⟩ :=
        Option.map_eq_some_iff.mp taken
      rw [refines.shared] at stepped
      obtain ⟨lists, prog, advances, linked, doing, confined⟩ :=
        (refines.doing thread).step typed.toSound (typed.safe thread)
          refines.linked stepped
      rcases advances with single | ⟨rfl, rfl, rfl⟩
      · obtain ⟨laterPlace, _, _, frame⟩ :=
          Prog.Safe.step typed.toSound (typed.safe thread) single
        refine ⟨{ shared, lists
                  threads := Function.update atomic.threads thread prog },
          .inl ?_, rfl, linked, ?_⟩
        · simp only [atomicNext, single, Option.map_some]
        · intro other
          dsimp only
          by_cases same : other = thread
          · subst same
            rw [Function.update_self, Function.update_self]
            exact doing
          · rw [Function.update_of_ne same, Function.update_of_ne same]
            exact (refines.doing other).other same typed.toSound
              (typed.safe other) frame confined
      · refine ⟨atomic, .inr rfl, rfl, linked, ?_⟩
        intro other
        dsimp only
        by_cases same : other = thread
        · subst same
          rw [Function.update_self]
          exact doing
        · rw [Function.update_of_ne same]
          exact (refines.doing other).other same typed.toSound
            (typed.safe other) (.refl ..) confined

/-- Every run of single accesses stands for a run of whole operations. -/
theorem exists_atomic
    {fineInit : FineState Thread Lock Id Cell Data Answer Result → Prop}
    {atomicInit : AtomicState Thread Lock Id Cell Data Answer Result → Prop}
    (safe : ∀ call, (program call).Safe discipline ∅ fun _ => none)
    (initial : ∀ state, fineInit state → ∃ target place, atomicInit target ∧
      Typed discipline target place ∧ Refines state target)
    (reachable : (fineSystem program fineInit).Reachable fine) :
    ∃ target place, (atomicSystem program atomicInit).Reachable target ∧
      Typed discipline target place ∧ Refines fine target := by
  induction reachable with
  | start isInitial =>
      obtain ⟨target, place, starts, typed, refines⟩ := initial _ isInitial
      exact ⟨target, place, .start starts, typed, refines⟩
  | @step state next label _ _ taken induction =>
      obtain ⟨target, place, reached, typed, refines⟩ := induction
      obtain ⟨following, single | rfl, laterRefines⟩ :=
        refines.next typed taken
      · obtain ⟨laterPlace, laterTyped, _⟩ := typed.next safe single
        exact ⟨following, laterPlace, .step reached trivial single, laterTyped,
          laterRefines⟩
      · exact ⟨following, place, reached, typed, laterRefines⟩

end Runs

/-! ## Races -/

/-- What an access reads or writes. -/
inductive Location (Id : Type v) (Cell : Type w) where
  | head (id : Id)
  | next (cell : Cell)
  | data (cell : Cell)
  deriving DecidableEq

/-- The locations of the next step of a thread; a cell that is given back is
as good as written. -/
def Control.accesses : Control Lock Id Cell Data Answer Result →
    List (Location Id Cell)
  | .run (.dispose cell _) | .run (.reset cell _ _) =>
      [.data cell, .next cell]
  | .run (.read cell _) | .run (.write cell _ _) => [.data cell]
  | .run (.push id _ _) | .run (.find _ id _ _) | .run (.collect id _ _) =>
      [.head id]
  | .run _ => []
  | .link _ cell _ _ => [.next cell]
  | .enter id _ _ => [.head id]
  | .look _ _ _ cell _ _ | .copy _ cell _ _ _ => [.data cell]
  | .advance _ _ cell _ _ | .skip _ _ cell _ _ _ | .onward _ cell _ _ _ =>
      [.next cell]
  | .bypass id none _ _ _ _ _ => [.head id]
  | .bypass _ (some previous) _ _ _ _ _ => [.next previous]

/-- The cell of a location, if it is not a head. -/
def Location.cell : Location Id Cell → Option Cell
  | .head _ => none
  | .next cell | .data cell => some cell

section Races

variable {discipline : Discipline Lock Id Cell Data}
  {shared : Shared Thread Lock Cell Data} {lists : Id → List Cell}
  {place : Cell → Option (Place Thread Id)} {thread : Thread}

/-- A cell is the thread's own, or in a list that it has locked. -/
def Reserved (discipline : Discipline Lock Id Cell Data)
    (shared : Shared Thread Lock Cell Data)
    (place : Cell → Option (Place Thread Id)) (thread : Thread)
    (cell : Cell) : Prop :=
  place cell = some (.kept thread) ∨ ∃ id, place cell = some (.listed id) ∧
    discipline.lockOf id ∈ shared.held thread

/-- The locations that a thread may access. -/
def Location.Reserved (discipline : Discipline Lock Id Cell Data)
    (shared : Shared Thread Lock Cell Data)
    (place : Cell → Option (Place Thread Id)) (thread : Thread) :
    Location Id Cell → Prop
  | .head id => discipline.lockOf id ∈ shared.held thread
  | .next cell | .data cell =>
      LockedLists.Reserved discipline shared place thread cell

omit [DecidableEq Thread] [DecidableEq Lock] [DecidableEq Id]
  [DecidableEq Cell] in
theorem Reserved.unique {other : Thread} {cell : Cell}
    (one : Reserved discipline shared place thread cell)
    (two : Reserved discipline shared place other cell) : other = thread := by
  rcases one with kept | ⟨id, listed, locked⟩
  · rcases two with alsoKept | ⟨id, listed, _⟩
    · simpa [kept] using alsoKept.symm
    · simp [kept] at listed
  · rcases two with kept | ⟨index, alsoListed, alsoLocked⟩
    · simp [kept] at listed
    · have same : id = index := by simpa [listed] using alsoListed
      subst same
      by_contra different
      exact not_held different alsoLocked locked

omit [DecidableEq Thread] [DecidableEq Lock] [DecidableEq Id]
  [DecidableEq Cell] in
theorem Location.Reserved.unique {other : Thread}
    {location : Location Id Cell}
    (one : location.Reserved discipline shared place thread)
    (two : location.Reserved discipline shared place other) :
    other = thread := by
  cases location with
  | head id =>
      by_contra different
      exact not_held different two one
  | next cell => exact LockedLists.Reserved.unique one two
  | data cell => exact LockedLists.Reserved.unique one two

omit [DecidableEq Thread] [DecidableEq Lock] [DecidableEq Id] in
theorem Doing.reserved {memory : Memory Id Cell}
    {control : Control Lock Id Cell Data Answer Result}
    {prog : Prog Lock Id Cell Data Answer Result}
    (doing : Doing memory lists shared.data control prog)
    (sound : Sound discipline shared lists place)
    (safe : prog.Safe discipline (shared.held thread)
      (keeps place shared.data thread)) :
    ∀ location ∈ control.accesses,
      location.Reserved discipline shared place thread := by
  have own : ∀ cell, keeps place shared.data thread cell ≠ none →
      Reserved discipline shared place thread cell :=
    fun cell mine => .inl (keeps_ne_none.mp mine)
  have inList : ∀ {id cell}, discipline.lockOf id ∈ shared.held thread →
      cell ∈ lists id → Reserved discipline shared place thread cell :=
    fun locked member => .inr ⟨_, (sound.placed _ _).mp member, locked⟩
  cases doing with
  | run =>
      cases prog with
      | dispose cell rest =>
          simp only [Control.accesses, List.forall_mem_cons]
          exact ⟨own cell safe.1, own cell safe.1, by simp⟩
      | reset cell value rest =>
          simp only [Control.accesses, List.forall_mem_cons]
          exact ⟨own cell safe.1, own cell safe.1, by simp⟩
      | read cell rest =>
          obtain ⟨value, mine, _⟩ := safe
          simp only [Control.accesses, List.forall_mem_cons]
          exact ⟨own cell (by simp [mine]), by simp⟩
      | write cell value rest =>
          simp only [Control.accesses, List.forall_mem_cons]
          exact ⟨own cell safe.1, by simp⟩
      | push id cell rest =>
          simp only [Control.accesses, List.forall_mem_cons]
          exact ⟨safe.1, by simp⟩
      | find unlinks id test rest =>
          simp only [Control.accesses, List.forall_mem_cons]
          exact ⟨safe.1, by simp⟩
      | collect id limit rest =>
          simp only [Control.accesses, List.forall_mem_cons]
          exact ⟨safe.1, by simp⟩
      | _ => simp [Control.accesses]
  | @link id cell rest =>
      simp only [Control.accesses, List.forall_mem_cons]
      exact ⟨own cell (safe.linksOwn rfl), by simp⟩
  | @enter id cell rest _ =>
      simp only [Control.accesses, List.forall_mem_cons]
      exact ⟨safe.1, by simp⟩
  | @look unlinks id before cell after test rest split _ =>
      simp only [Control.accesses, List.forall_mem_cons]
      exact ⟨inList safe.1 (by simp [split]), by simp⟩
  | @advance unlinks id before cell after test rest split _ _ =>
      simp only [Control.accesses, List.forall_mem_cons]
      exact ⟨inList safe.1 (by simp [split]), by simp⟩
  | @skip id before cell after test rest split _ _ =>
      simp only [Control.accesses, List.forall_mem_cons]
      exact ⟨inList safe.1 (by simp [split]), by simp⟩
  | @bypass id before cell after test rest split _ _ =>
      cases last : before.getLast? with
      | none =>
          simp only [Control.accesses, List.forall_mem_cons]
          exact ⟨safe.1, by simp⟩
      | some previous =>
          simp only [Control.accesses, List.forall_mem_cons]
          refine ⟨inList safe.1 ?_, by simp⟩
          rw [split]
          exact List.mem_append_left _ (List.mem_of_getLast? last)
  | @copy id before cell after limit rest split _ =>
      simp only [Control.accesses, List.forall_mem_cons]
      exact ⟨inList safe.1 (by simp [split]), by simp⟩
  | @onward id before cell after limit rest split _ =>
      simp only [Control.accesses, List.forall_mem_cons]
      exact ⟨inList safe.1 (by simp [split]), by simp⟩

variable {fine : FineState Thread Lock Id Cell Data Answer Result}
  {atomic : AtomicState Thread Lock Id Cell Data Answer Result}

omit [DecidableEq Thread] [DecidableEq Lock] [DecidableEq Id] in
/-- No two threads are about to access the same location. -/
theorem Refines.noRace (refines : Refines fine atomic)
    (typed : Typed discipline atomic place) {other : Thread}
    (different : other ≠ thread) {location : Location Id Cell}
    (one : location ∈ (fine.threads thread).accesses) :
    location ∉ (fine.threads other).accesses := by
  intro two
  apply different
  exact Location.Reserved.unique
    ((refines.doing thread).reserved typed.toSound (typed.safe thread)
      location one)
    ((refines.doing other).reserved typed.toSound (typed.safe other)
      location two)

omit [DecidableEq Thread] [DecidableEq Lock] [DecidableEq Id] in
/-- No thread is about to access a cell that was not gained, or was given
back. -/
theorem Refines.alive (refines : Refines fine atomic)
    (typed : Typed discipline atomic place) {location : Location Id Cell}
    (accessed : location ∈ (fine.threads thread).accesses) {cell : Cell}
    (isCell : location.cell = some cell) : fine.shared.live cell = true := by
  have reserved := (refines.doing thread).reserved typed.toSound
    (typed.safe thread) location accessed
  have placed : Reserved discipline atomic.shared place thread cell := by
    cases location with
    | head id => simp [Location.cell] at isCell
    | next other =>
        simp only [Location.cell, Option.some.injEq] at isCell
        exact isCell ▸ reserved
    | data other =>
        simp only [Location.cell, Option.some.injEq] at isCell
        exact isCell ▸ reserved
  rw [refines.shared]
  apply typed.live cell
  rcases placed with kept | ⟨id, listed, _⟩
  · simp [kept]
  · simp [listed]

end Races

/-! ## Progress -/

section Progress

variable {discipline : Discipline Lock Id Cell Data}
  {fine : FineState Thread Lock Id Cell Data Answer Result}
  {atomic : AtomicState Thread Lock Id Cell Data Answer Result}
  {place : Cell → Option (Place Thread Id)}

omit [DecidableEq Thread] in
/-- A thread that cannot go on is idle or waits for a lock. -/
theorem Control.blocked {shared : Shared Thread Lock Cell Data}
    {memory : Memory Id Cell} {thread : Thread} {answer : Answer}
    {control : Control Lock Id Cell Data Answer Result}
    (stuck : control.step shared memory thread answer none = none) :
    control.isDone = true ∨ ∃ mutex rest,
      control = .run (.lock mutex rest) ∧ shared.owner mutex ≠ none := by
  cases control with
  | run prog =>
      cases prog with
      | done result => exact .inl rfl
      | lock mutex rest =>
          refine .inr ⟨mutex, rest, rfl, ?_⟩
          intro unowned
          simp [Control.step, Shared.step, unowned] at stuck
      | tryLock mutex rest =>
          simp only [Control.step, Shared.step] at stuck
          split at stuck <;> simp at stuck
      | _ => simp [Control.step, Shared.step] at stuck
  | _ => simp [Control.step] at stuck

omit [DecidableEq Thread] [DecidableEq Lock] [DecidableEq Id] in
theorem Refines.owner_busy (refines : Refines fine atomic)
    (typed : Typed discipline atomic place) {thread : Thread} {mutex : Lock}
    (owns : mutex ∈ atomic.shared.held thread) :
    (fine.threads thread).isDone = false := by
  rw [Bool.eq_false_iff]
  intro idle
  have finished := (refines.doing thread).isDone idle
  have safe := typed.safe thread
  cases current : atomic.threads thread with
  | done result =>
      rw [current] at safe
      rw [safe.1] at owns
      exact owns
  | _ => simp [current, Prog.isDone] at finished

omit [DecidableEq Thread] [DecidableEq Lock] [DecidableEq Id] in
theorem Refines.waits_above (refines : Refines fine atomic)
    (typed : Typed discipline atomic place) {thread : Thread}
    {mutex other : Lock} {rest : Prog Lock Id Cell Data Answer Result}
    (waits : fine.threads thread = .run (.lock mutex rest))
    (owns : other ∈ atomic.shared.held thread) :
    discipline.rank other < discipline.rank mutex := by
  have doing := refines.doing thread
  have safe := typed.safe thread
  rw [waits] at doing
  cases same : atomic.threads thread with
  | lock current next =>
      rw [same] at doing safe
      cases doing
      exact safe.1 other owns
  | _ =>
      rw [same] at doing
      cases doing

/-- While a call is going on, one of the calls going on can take a step. -/
theorem Refines.progress
    (program : Call → Prog Lock Id Cell Data Answer Result)
    (refines : Refines fine atomic)
    (typed : Typed discipline atomic place) {bound : Nat}
    (ranked : ∀ mutex, discipline.rank mutex < bound) (answer : Answer)
    {thread : Thread} (busy : (fine.threads thread).isDone = false) :
    ∃ other, (fine.threads other).isDone = false ∧
      (fineNext program fine (.step other answer none)).isSome := by
  by_contra stuck
  have waiting : ∀ other, (fine.threads other).isDone = false →
      ∃ mutex rest, fine.threads other = .run (.lock mutex rest) ∧
        fine.shared.owner mutex ≠ none := by
    intro other going
    have blocked : (fine.threads other).step fine.shared fine.memory other
        answer none = none := by
      by_contra steps
      obtain ⟨target, taken⟩ := Option.ne_none_iff_exists'.mp steps
      apply stuck
      refine ⟨other, going, ?_⟩
      simp only [fineNext, taken, Option.map_some, Option.isSome_some]
    rcases Control.blocked blocked with idle | waits
    · rw [going] at idle
      contradiction
    · exact waits
  -- each owner waits for a lock of a higher rank
  have endless : ∀ room other, (fine.threads other).isDone = false →
      ∀ mutex rest, fine.threads other = .run (.lock mutex rest) →
        fine.shared.owner mutex ≠ none →
        bound - discipline.rank mutex ≤ room → False := by
    intro room
    induction room with
    | zero =>
        intro other _ mutex _ _ _ exhausted
        have below := ranked mutex
        omega
    | succ room induction =>
        intro other _ mutex rest _ owned bounded
        obtain ⟨holder, owner⟩ := Option.ne_none_iff_exists'.mp owned
        have owns : mutex ∈ atomic.shared.held holder := by
          rw [refines.shared] at owner
          exact owner
        have going := refines.owner_busy typed owns
        obtain ⟨next, later, waits, alsoOwned⟩ := waiting holder going
        have above := refines.waits_above typed waits owns
        exact induction holder going next later waits alsoOwned (by omega)
  obtain ⟨mutex, rest, waits, owned⟩ := waiting thread busy
  exact endless _ thread busy mutex rest waits owned le_rfl

end Progress

end LockedLists
