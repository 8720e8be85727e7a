import Mathlib.Data.Set.Insert
import MemoryTraceTool.Lib.Chain
import MemoryTraceTool.Lib.Transition

/-!
# Threads that work on locked lists

Any number of threads run programs over linked lists, one access to memory in
each step.  Each list has a lock, and a program is safe if it works on a list
only under its lock and on the fields of a cell only while the cell is its own
or in such a list.  The steps of safe programs then refine a system in which
every operation on a list is a single step on an abstract list, and no two
threads ever access the same location, one of them to write.
-/

namespace LockedLists

open Transition

/-- What a thread does to lists, to the fields of their cells and to locks.
`ask` reads something outside the model, `gain` gets a new cell from outside,
if there is one, and `reset` writes the next field of a cell as well. -/
inductive Prog (Lock : Type u) (Id : Type v) (Cell : Type w) (Data : Type x)
    (Answer : Type a) (Result : Type y) where
  | done (result : Result)
  | ask (rest : Answer → Prog Lock Id Cell Data Answer Result)
  | lock (lock : Lock) (rest : Prog Lock Id Cell Data Answer Result)
  | tryLock (lock : Lock) (rest : Bool → Prog Lock Id Cell Data Answer Result)
  | unlock (lock : Lock) (rest : Prog Lock Id Cell Data Answer Result)
  | gain (rest : Option Cell → Prog Lock Id Cell Data Answer Result)
  | dispose (cell : Cell) (rest : Prog Lock Id Cell Data Answer Result)
  | read (cell : Cell) (rest : Data → Prog Lock Id Cell Data Answer Result)
  | write (cell : Cell) (value : Data)
      (rest : Prog Lock Id Cell Data Answer Result)
  | reset (cell : Cell) (value : Data)
      (rest : Prog Lock Id Cell Data Answer Result)
  | push (id : Id) (cell : Cell) (rest : Prog Lock Id Cell Data Answer Result)
  | find (unlinks : Bool) (id : Id) (test : Data → Bool)
      (rest : Option (Cell × Data) → Prog Lock Id Cell Data Answer Result)
  | collect (id : Id) (limit : Nat)
      (rest : List Data → Prog Lock Id Cell Data Answer Result)

/-- Where a thread is: before an action, or inside an operation on a list. -/
inductive Control (Lock : Type u) (Id : Type v) (Cell : Type w)
    (Data : Type x) (Answer : Type a) (Result : Type y) where
  | run (prog : Prog Lock Id Cell Data Answer Result)
  | link (id : Id) (cell : Cell) (first : Option Cell)
      (rest : Prog Lock Id Cell Data Answer Result)
  | enter (id : Id) (cell : Cell) (rest : Prog Lock Id Cell Data Answer Result)
  | look (unlinks : Bool) (id : Id) (previous : Option Cell) (cell : Cell)
      (test : Data → Bool)
      (rest : Option (Cell × Data) → Prog Lock Id Cell Data Answer Result)
  | advance (unlinks : Bool) (id : Id) (cell : Cell) (test : Data → Bool)
      (rest : Option (Cell × Data) → Prog Lock Id Cell Data Answer Result)
  | skip (id : Id) (previous : Option Cell) (cell : Cell) (value : Data)
      (test : Data → Bool)
      (rest : Option (Cell × Data) → Prog Lock Id Cell Data Answer Result)
  | bypass (id : Id) (previous : Option Cell) (cell : Cell) (value : Data)
      (after : Option Cell) (test : Data → Bool)
      (rest : Option (Cell × Data) → Prog Lock Id Cell Data Answer Result)
  | copy (id : Id) (cell : Cell) (limit : Nat) (copied : List Data)
      (rest : List Data → Prog Lock Id Cell Data Answer Result)
  | onward (id : Id) (cell : Cell) (limit : Nat) (copied : List Data)
      (rest : List Data → Prog Lock Id Cell Data Answer Result)

/-- What both systems share: the fields of the cells, the owners of the locks
and the cells that were gained and not disposed of. -/
structure Shared (Thread : Type z) (Lock : Type u) (Cell : Type w)
    (Data : Type x) where
  data : Cell → Data
  owner : Lock → Option Thread
  live : Cell → Bool

/-- A call by an idle thread, or a step of a thread; `answer` is what the next
`ask` reads and `given` the cell that the next `gain` gets. -/
inductive Label (Thread : Type z) (Call : Type c) (Cell : Type w)
    (Answer : Type a) where
  | call (thread : Thread) (call : Call)
  | step (thread : Thread) (answer : Answer) (given : Option Cell)

variable {Thread : Type z} {Call : Type c} {Lock : Type u} {Id : Type v}
  {Cell : Type w} {Data : Type x} {Answer : Type a} {Result : Type y}

/-- The thread that a label names. -/
def Label.thread : Label Thread Call Cell Answer → Thread
  | .call thread _ | .step thread _ _ => thread

def Prog.isDone : Prog Lock Id Cell Data Answer Result → Bool
  | .done _ => true
  | _ => false

section Steps

variable [DecidableEq Thread] [DecidableEq Lock] [DecidableEq Id]
  [DecidableEq Cell]

namespace Shared

variable (shared : Shared Thread Lock Cell Data)

def setOwner (lock : Lock) (owner : Option Thread) :
    Shared Thread Lock Cell Data :=
  { shared with owner := Function.update shared.owner lock owner }

def setData (cell : Cell) (value : Data) : Shared Thread Lock Cell Data :=
  { shared with data := Function.update shared.data cell value }

def setLive (cell : Cell) (live : Bool) : Shared Thread Lock Cell Data :=
  { shared with live := Function.update shared.live cell live }

/-- The actions that leave the lists alone. -/
def step (thread : Thread) (answer : Answer) (given : Option Cell) :
    Prog Lock Id Cell Data Answer Result →
      Option (Shared Thread Lock Cell Data ×
        Prog Lock Id Cell Data Answer Result)
  | .ask rest => some (shared, rest answer)
  | .lock lock rest =>
      if shared.owner lock = none then
        some (shared.setOwner lock (some thread), rest)
      else none
  | .tryLock lock rest =>
      if shared.owner lock = none then
        some (shared.setOwner lock (some thread), rest true)
      else some (shared, rest false)
  | .unlock lock rest => some (shared.setOwner lock none, rest)
  | .gain rest =>
      match given with
      | none => some (shared, rest none)
      | some cell =>
          if shared.live cell = false then
            some (shared.setLive cell true, rest (some cell))
          else none
  | .dispose cell rest => some (shared.setLive cell false, rest)
  | .read cell rest => some (shared, rest (shared.data cell))
  | .write cell value rest => some (shared.setData cell value, rest)
  | .done _ | .reset _ _ _ | .push _ _ _ | .find _ _ _ _ | .collect _ _ _ =>
      none

end Shared

/-- The lists in memory, and where the threads are. -/
structure FineState (Thread : Type z) (Lock : Type u) (Id : Type v)
    (Cell : Type w) (Data : Type x) (Answer : Type a) (Result : Type y) where
  shared : Shared Thread Lock Cell Data
  memory : Chain.Memory Id Cell
  threads : Thread → Control Lock Id Cell Data Answer Result

/-- A walk has loaded a pointer to the next cell. -/
def Control.arrive (unlinks : Bool) (id : Id) (previous : Option Cell)
    (test : Data → Bool)
    (rest : Option (Cell × Data) → Prog Lock Id Cell Data Answer Result) :
    Option Cell → Control Lock Id Cell Data Answer Result
  | none => .run (rest none)
  | some cell => .look unlinks id previous cell test rest

/-- A copying walk has loaded a pointer to the next cell. -/
def Control.proceed (id : Id) (limit : Nat) (copied : List Data)
    (rest : List Data → Prog Lock Id Cell Data Answer Result) :
    Option Cell → Control Lock Id Cell Data Answer Result
  | none => .run (rest copied)
  | some cell =>
      if copied.length < limit then .copy id cell limit copied rest
      else .run (rest copied)

/-- One access to memory.  `find` compares the data of one cell after the
other; a cell that it unlinks is skipped by a write to the pointer through
which it was reached. -/
def Control.step (shared : Shared Thread Lock Cell Data)
    (memory : Chain.Memory Id Cell) (thread : Thread) (answer : Answer)
    (given : Option Cell) : Control Lock Id Cell Data Answer Result →
      Option (Shared Thread Lock Cell Data × Chain.Memory Id Cell ×
        Control Lock Id Cell Data Answer Result)
  | .run (.reset cell value rest) =>
      some (shared.setData cell value, memory.setNext cell none, .run rest)
  | .run (.push id cell rest) =>
      some (shared, memory, .link id cell (memory.head id) rest)
  | .run (.find unlinks id test rest) =>
      some (shared, memory,
        .arrive unlinks id none test rest (memory.head id))
  | .run (.collect id limit rest) =>
      some (shared, memory, .proceed id limit [] rest (memory.head id))
  | .run prog =>
      (shared.step thread answer given prog).map fun (later, rest) =>
        (later, memory, .run rest)
  | .link id cell first rest =>
      some (shared, memory.setNext cell first, .enter id cell rest)
  | .enter id cell rest =>
      some (shared, memory.setHead id (some cell), .run rest)
  | .look unlinks id previous cell test rest =>
      let value := shared.data cell
      some (shared, memory,
        if test value then
          if unlinks then .skip id previous cell value test rest
          else .run (rest (some (cell, value)))
        else .advance unlinks id cell test rest)
  | .advance unlinks id cell test rest =>
      some (shared, memory,
        .arrive unlinks id (some cell) test rest (memory.next cell))
  | .skip id previous cell value test rest =>
      some (shared, memory,
        .bypass id previous cell value (memory.next cell) test rest)
  | .bypass id previous cell value after _ rest =>
      some (shared,
        match previous with
        | none => memory.setHead id after
        | some previous => memory.setNext previous after,
        .run (rest (some (cell, value))))
  | .copy id cell limit copied rest =>
      some (shared, memory,
        .onward id cell limit (copied ++ [shared.data cell]) rest)
  | .onward id cell limit copied rest =>
      some (shared, memory,
        .proceed id limit copied rest (memory.next cell))

def Control.isDone : Control Lock Id Cell Data Answer Result → Bool
  | .run prog => prog.isDone
  | _ => false

/-- The programs of all threads interleave access by access. -/
def fineNext (program : Call → Prog Lock Id Cell Data Answer Result)
    (state : FineState Thread Lock Id Cell Data Answer Result) :
    Label Thread Call Cell Answer →
      Option (FineState Thread Lock Id Cell Data Answer Result)
  | .call thread call =>
      if (state.threads thread).isDone then
        some { state with
          threads := Function.update state.threads thread
            (.run (program call)) }
      else none
  | .step thread answer given =>
      ((state.threads thread).step state.shared state.memory thread answer
        given).map fun (shared, memory, control) =>
          { shared, memory
            threads := Function.update state.threads thread control }

/-- Threads that take one access to memory at a time. -/
def fineSystem (program : Call → Prog Lock Id Cell Data Answer Result)
    (init : FineState Thread Lock Id Cell Data Answer Result → Prop) :
    System (FineState Thread Lock Id Cell Data Answer Result)
      (Label Thread Call Cell Answer) where
  init := init
  next := fineNext program

/-! ## Operations as single steps -/

structure AtomicState (Thread : Type z) (Lock : Type u) (Id : Type v)
    (Cell : Type w) (Data : Type x) (Answer : Type a) (Result : Type y) where
  shared : Shared Thread Lock Cell Data
  lists : Id → List Cell
  threads : Thread → Prog Lock Id Cell Data Answer Result

def Prog.step (shared : Shared Thread Lock Cell Data)
    (lists : Id → List Cell) (thread : Thread) (answer : Answer)
    (given : Option Cell) : Prog Lock Id Cell Data Answer Result →
      Option (Shared Thread Lock Cell Data × (Id → List Cell) ×
        Prog Lock Id Cell Data Answer Result)
  | .reset cell value rest => some (shared.setData cell value, lists, rest)
  | .push id cell rest =>
      some (shared, Function.update lists id (cell :: lists id), rest)
  | .find unlinks id test rest =>
      let passes := fun cell => test (shared.data cell)
      match (lists id).find? passes with
      | none => some (shared, lists, rest none)
      | some cell =>
          some (shared,
            if unlinks then
              Function.update lists id ((lists id).eraseP passes)
            else lists,
            rest (some (cell, shared.data cell)))
  | .collect id limit rest =>
      some (shared, lists, rest (((lists id).take limit).map shared.data))
  | prog =>
      (shared.step thread answer given prog).map fun (later, rest) =>
        (later, lists, rest)

/-- The programs of all threads interleave action by action. -/
def atomicNext (program : Call → Prog Lock Id Cell Data Answer Result)
    (state : AtomicState Thread Lock Id Cell Data Answer Result) :
    Label Thread Call Cell Answer →
      Option (AtomicState Thread Lock Id Cell Data Answer Result)
  | .call thread call =>
      if (state.threads thread).isDone then
        some { state with
          threads := Function.update state.threads thread (program call) }
      else none
  | .step thread answer given =>
      ((state.threads thread).step state.shared state.lists thread answer
        given).map fun (shared, lists, prog) =>
          { shared, lists
            threads := Function.update state.threads thread prog }

/-- Threads that work on abstract lists, each operation in one step. -/
def atomicSystem (program : Call → Prog Lock Id Cell Data Answer Result)
    (init : AtomicState Thread Lock Id Cell Data Answer Result → Prop) :
    System (AtomicState Thread Lock Id Cell Data Answer Result)
      (Label Thread Call Cell Answer) where
  init := init
  next := atomicNext program

end Steps

end LockedLists
