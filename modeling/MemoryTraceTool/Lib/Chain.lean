import Mathlib.Algebra.BigOperators.Group.Finset.Piecewise
import Mathlib.Algebra.Order.BigOperators.Group.Finset
import Mathlib.Data.Fintype.Basic
import Mathlib.Data.List.Basic
import Mathlib.Data.List.Nodup
import Mathlib.Logic.Function.Basic

/-!
# Linked lists that share one next field

Cells with a single `next` field are linked into lists, each named by an
identifier and entered through its head pointer.  `Represents` ties the memory
to abstract lists of which every cell belongs to at most one.
-/

namespace Chain

variable {Id : Type u} {Cell : Type v} [DecidableEq Id] [DecidableEq Cell]

/-- Head pointers and next fields; `none` is a NULL pointer. -/
structure Memory (Id : Type u) (Cell : Type v) where
  head : Id → Option Cell
  next : Cell → Option Cell

namespace Memory

/-- Write the next field of a cell. -/
def setNext (memory : Memory Id Cell) (cell : Cell) (value : Option Cell) :
    Memory Id Cell :=
  { memory with next := Function.update memory.next cell value }

def setHead (memory : Memory Id Cell) (id : Id) (value : Option Cell) :
    Memory Id Cell :=
  { memory with head := Function.update memory.head id value }

/-- Link a cell in front of a list. -/
def push (memory : Memory Id Cell) (id : Id) (cell : Cell) :
    Memory Id Cell :=
  (memory.setNext cell (memory.head id)).setHead id (some cell)

/-- Take the first cell off a list. -/
def pop (memory : Memory Id Cell) (id : Id) :
    Option (Cell × Memory Id Cell) :=
  (memory.head id).map fun cell =>
    (cell, memory.setHead id (memory.next cell))

/-- Walk a list up to the first cell with the property, and return it with its
predecessor. -/
def locate (next : Cell → Option Cell) (test : Cell → Bool) :
    Nat → Option Cell → Option Cell → Option (Option Cell × Cell)
  | 0, _, _ => none
  | _ + 1, _, none => none
  | fuel + 1, previous, some cell =>
      if test cell then some (previous, cell)
      else locate next test fuel (some cell) (next cell)

/-- Unlink the first cell with the property. -/
def unlink (memory : Memory Id Cell) (fuel : Nat) (id : Id)
    (test : Cell → Bool) : Option (Cell × Memory Id Cell) :=
  match locate memory.next test fuel none (memory.head id) with
  | none => none
  | some (none, cell) => some (cell, memory.setHead id (memory.next cell))
  | some (some previous, cell) =>
      some (cell, memory.setNext previous (memory.next cell))

end Memory

/-- The cells reached from a pointer, in order. -/
def Linked (next : Cell → Option Cell) : Option Cell → List Cell → Prop
  | start, [] => start = none
  | start, cell :: rest => start = some cell ∧ Linked next (next cell) rest

structure Represents (memory : Memory Id Cell) (lists : Id → List Cell)
    (place : Cell → Option Id) : Prop where
  linked : ∀ id, Linked memory.next (memory.head id) (lists id)
  distinct : ∀ id, (lists id).Nodup
  placed : ∀ id cell, cell ∈ lists id ↔ place cell = some id

theorem Linked.update {next : Cell → Option Cell} {start : Option Cell}
    {cells : List Cell} (linked : Linked next start cells) {cell : Cell}
    (outside : cell ∉ cells) (value : Option Cell) :
    Linked (Function.update next cell value) start cells := by
  induction cells generalizing start with
  | nil => exact linked
  | cons first rest induction =>
      rw [List.mem_cons, not_or] at outside
      refine ⟨linked.1, ?_⟩
      rw [Function.update_of_ne (Ne.symm outside.1)]
      exact induction linked.2 outside.2

omit [DecidableEq Cell] in
theorem Linked.unique {next : Cell → Option Cell} {start : Option Cell}
    {first second : List Cell} (firstLinked : Linked next start first)
    (secondLinked : Linked next start second) : first = second := by
  induction first generalizing start second with
  | nil =>
      cases second with
      | nil => rfl
      | cons cell rest =>
          have null : start = none := firstLinked
          rw [null] at secondLinked
          exact absurd secondLinked.1.symm (Option.some_ne_none cell)
  | cons cell rest induction =>
      cases second with
      | nil =>
          have null : start = none := secondLinked
          rw [null] at firstLinked
          exact absurd firstLinked.1.symm (Option.some_ne_none cell)
      | cons other others =>
          have same : cell = other := by
            have starts := firstLinked.1
            rw [secondLinked.1, Option.some.injEq] at starts
            exact starts.symm
          subst same
          rw [induction firstLinked.2 secondLinked.2]

theorem Linked.bypass {next : Cell → Option Cell} {start : Option Cell}
    {before after : List Cell} {previous cell : Cell}
    (linked : Linked next start (before ++ previous :: cell :: after))
    (distinct : (before ++ previous :: cell :: after).Nodup) :
    Linked (Function.update next previous (next cell)) start
      (before ++ previous :: after) := by
  induction before generalizing start with
  | nil =>
      obtain ⟨starts, _, rest⟩ := linked
      refine ⟨starts, ?_⟩
      rw [Function.update_self]
      apply rest.update
      rw [List.nil_append, List.nodup_cons] at distinct
      exact fun member => distinct.1 (List.mem_cons_of_mem _ member)
  | cons first before induction =>
      obtain ⟨starts, rest⟩ := linked
      rw [List.cons_append, List.nodup_cons] at distinct
      have different : first ≠ previous := by
        rintro rfl
        exact distinct.1 (by simp)
      refine ⟨starts, ?_⟩
      rw [Function.update_of_ne different]
      exact induction rest distinct.2

omit [DecidableEq Cell] in
/-- Where a walk ends, with enough fuel for the whole list. -/
theorem locate_eq {next : Cell → Option Cell} {test : Cell → Bool}
    {start : Option Cell} {cells : List Cell} {fuel : Nat}
    (previous : Option Cell) (linked : Linked next start cells)
    (enough : cells.length < fuel) :
    (cells.find? test = none ∧
      Memory.locate next test fuel previous start = none) ∨
    ∃ before cell after, cells = before ++ cell :: after ∧
      cells.find? test = some cell ∧
      cells.eraseP test = before ++ after ∧
      Memory.locate next test fuel previous start =
        some (before.getLast?.or previous, cell) := by
  induction cells generalizing start previous fuel with
  | nil =>
      left
      obtain ⟨fuel, rfl⟩ := Nat.exists_eq_succ_of_ne_zero
        (Nat.pos_iff_ne_zero.mp (Nat.zero_lt_of_lt enough))
      rw [show start = none from linked]
      exact ⟨rfl, rfl⟩
  | cons first rest induction =>
      obtain ⟨starts, restLinked⟩ := linked
      obtain ⟨fuel, rfl⟩ := Nat.exists_eq_succ_of_ne_zero
        (Nat.pos_iff_ne_zero.mp (Nat.zero_lt_of_lt enough))
      have restEnough : rest.length < fuel := by
        rw [List.length_cons] at enough
        omega
      subst starts
      by_cases here : test first = true
      · right
        refine ⟨[], first, rest, rfl, ?_, ?_, ?_⟩
        · rw [List.find?_cons_of_pos here]
        · rw [List.eraseP_cons_of_pos here, List.nil_append]
        · simp [Memory.locate, here]
      · rcases induction (some first) restLinked restEnough with
          ⟨missing, walked⟩ | ⟨before, cell, after, split, found, erased, walked⟩
        · left
          rw [List.find?_cons_of_neg here]
          refine ⟨missing, ?_⟩
          simpa [Memory.locate, here] using walked
        · right
          refine ⟨first :: before, cell, after, ?_, ?_, ?_, ?_⟩
          · rw [split, List.cons_append]
          · rw [List.find?_cons_of_neg here, found]
          · rw [List.eraseP_cons_of_neg here, erased, List.cons_append]
          · rw [Memory.locate, if_neg here, walked]
            cases before with
            | nil => simp
            | cons second before =>
                have last := List.getLast?_eq_some_getLast
                  (List.cons_ne_nil second before)
                rw [List.getLast?_cons_cons, last]
                rfl

namespace Represents

variable {memory : Memory Id Cell} {lists : Id → List Cell}
  {place : Cell → Option Id}

omit [DecidableEq Id] [DecidableEq Cell] in
theorem outside (represents : Represents memory lists place) {cell : Cell}
    (free : place cell = none) (id : Id) : cell ∉ lists id := by
  intro member
  rw [(represents.placed id cell).mp member] at free
  contradiction

omit [DecidableEq Id] in
/-- The next field of a cell outside all lists may be overwritten. -/
theorem setNext (represents : Represents memory lists place) {cell : Cell}
    (free : place cell = none) (value : Option Cell) :
    Represents (memory.setNext cell value) lists place :=
  { linked := fun id =>
      (represents.linked id).update (represents.outside free id) value
    distinct := represents.distinct
    placed := represents.placed }

theorem push (represents : Represents memory lists place) {cell : Cell}
    (free : place cell = none) (id : Id) :
    Represents (memory.push id cell)
      (Function.update lists id (cell :: lists id))
      (Function.update place cell (some id)) := by
  have outside := represents.outside free
  constructor
  · intro other
    have kept := (represents.linked other).update (outside other)
      (memory.head id)
    by_cases same : other = id
    · subst same
      simp only [Memory.push, Memory.setHead, Memory.setNext,
        Function.update_self]
      refine ⟨rfl, ?_⟩
      rw [Function.update_self]
      exact kept
    · simp only [Memory.push, Memory.setHead, Memory.setNext,
        Function.update_of_ne same]
      exact kept
  · intro other
    by_cases same : other = id
    · subst same
      rw [Function.update_self, List.nodup_cons]
      exact ⟨outside other, represents.distinct other⟩
    · rw [Function.update_of_ne same]
      exact represents.distinct other
  · intro other member
    by_cases same : other = id
    · subst same
      rw [Function.update_self, List.mem_cons]
      by_cases here : member = cell
      · subst here
        simp
      · rw [Function.update_of_ne here, represents.placed other member]
        simp [here]
    · rw [Function.update_of_ne same]
      by_cases here : member = cell
      · subst here
        rw [Function.update_self, Option.some.injEq]
        exact iff_of_false (outside other) (Ne.symm same)
      · rw [Function.update_of_ne here]
        exact represents.placed other member

/-- Shortening one list by a cell frees that cell. -/
theorem remove (represents : Represents memory lists place)
    {later : Memory Id Cell} {id : Id} {cell : Cell} {kept : List Cell}
    (member : cell ∈ lists id)
    (same : ∀ other, other ≠ id → Linked later.next (later.head other)
      (lists other))
    (linked : Linked later.next (later.head id) kept)
    (distinct : kept.Nodup)
    (rest : ∀ other, other ∈ kept ↔ other ∈ lists id ∧ other ≠ cell) :
    Represents later (Function.update lists id kept)
      (Function.update place cell none) := by
  have placed := (represents.placed id cell).mp member
  constructor
  · intro other
    by_cases here : other = id
    · rw [here, Function.update_self]
      exact linked
    · rw [Function.update_of_ne here]
      exact same other here
  · intro other
    by_cases here : other = id
    · rw [here, Function.update_self]
      exact distinct
    · rw [Function.update_of_ne here]
      exact represents.distinct other
  · intro other item
    by_cases here : other = id
    · subst here
      rw [Function.update_self, rest item, represents.placed other item]
      by_cases removed : item = cell
      · subst removed
        simp
      · simp [removed]
    · rw [Function.update_of_ne here, represents.placed other item]
      by_cases removed : item = cell
      · subst removed
        rw [Function.update_self, placed, Option.some.injEq]
        exact iff_of_false (Ne.symm here) (by simp)
      · rw [Function.update_of_ne removed]

theorem pop (represents : Represents memory lists place) {id : Id}
    {cell : Cell} {later : Memory Id Cell}
    (popped : memory.pop id = some (cell, later)) :
    ∃ rest, lists id = cell :: rest ∧ place cell = some id ∧
      Represents later (Function.update lists id rest)
        (Function.update place cell none) := by
  unfold Memory.pop at popped
  obtain ⟨first, starts, same⟩ := Option.map_eq_some_iff.mp popped
  rw [Prod.mk.injEq] at same
  obtain ⟨rfl, rfl⟩ := same
  have linked := represents.linked id
  have distinct := represents.distinct id
  cases cells : lists id with
  | nil =>
      rw [cells] at linked
      have empty : memory.head id = none := linked
      rw [starts] at empty
      contradiction
  | cons head rest =>
      rw [cells] at linked distinct
      obtain ⟨isHead, restLinked⟩ := linked
      rw [starts, Option.some.injEq] at isHead
      subst isHead
      have member : first ∈ lists id := cells ▸ List.mem_cons_self
      refine ⟨rest, rfl, (represents.placed id first).mp member, ?_⟩
      refine represents.remove member ?_ ?_ (List.nodup_cons.mp distinct).2 ?_
      · intro other different
        simp only [Memory.setHead, Function.update_of_ne different]
        exact represents.linked other
      · simpa only [Memory.setHead, Function.update_self] using restLinked
      · intro other
        rw [cells, List.mem_cons]
        constructor
        · intro later
          refine ⟨Or.inr later, ?_⟩
          rintro rfl
          exact (List.nodup_cons.mp distinct).1 later
        · rintro ⟨rfl | later, different⟩
          · exact (different rfl).elim
          · exact later

omit [DecidableEq Id] [DecidableEq Cell] in
/-- A walk finds the first cell with the property. -/
theorem locate (represents : Represents memory lists place) {fuel : Nat}
    {id : Id} (test : Cell → Bool) (enough : (lists id).length < fuel) :
    ((lists id).find? test = none ∧
      Memory.locate memory.next test fuel none (memory.head id) = none) ∨
    ∃ previous cell, (lists id).find? test = some cell ∧
      Memory.locate memory.next test fuel none (memory.head id) =
        some (previous, cell) := by
  rcases locate_eq none (represents.linked id) enough with
    missing | ⟨_, cell, _, _, found, _, walked⟩
  · exact .inl missing
  · exact .inr ⟨_, cell, found, walked⟩

/-- Unlinking takes the first cell with the property out of the list, or finds
that there is none. -/
theorem unlink (represents : Represents memory lists place) {fuel : Nat}
    {id : Id} (test : Cell → Bool) (enough : (lists id).length < fuel) :
    ((lists id).find? test = none ∧ memory.unlink fuel id test = none) ∨
    ∃ cell later, (lists id).find? test = some cell ∧
      memory.unlink fuel id test = some (cell, later) ∧
      place cell = some id ∧
      Represents later (Function.update lists id ((lists id).eraseP test))
        (Function.update place cell none) := by
  have distinct := represents.distinct id
  rcases locate_eq none (represents.linked id) enough with
    ⟨missing, walked⟩ | ⟨before, cell, after, split, found, erased, walked⟩
  · exact Or.inl ⟨missing, by simp [Memory.unlink, walked]⟩
  · right
    have member : cell ∈ lists id := List.mem_of_find?_eq_some found
    rw [Option.or_none] at walked
    have linked := represents.linked id
    rw [split] at distinct linked
    have shorter : (before ++ after).Nodup :=
      distinct.sublist ((List.sublist_cons_self cell after).append_left before)
    have rest : ∀ other, other ∈ before ++ after ↔
        other ∈ lists id ∧ other ≠ cell := by
      intro other
      rw [split]
      have apart := List.nodup_middle.mp distinct
      rw [List.nodup_cons] at apart
      constructor
      · intro kept
        refine ⟨?_, fun same => apart.1 (same ▸ kept)⟩
        rcases List.mem_append.mp kept with early | late
        · exact List.mem_append_left _ early
        · exact List.mem_append_right _ (List.mem_cons_of_mem _ late)
      · rintro ⟨present, different⟩
        rcases List.mem_append.mp present with early | late
        · exact List.mem_append_left _ early
        · rcases List.mem_cons.mp late with same | late
          · exact (different same).elim
          · exact List.mem_append_right _ late
    rw [erased]
    have placed := (represents.placed id cell).mp member
    cases last : before.getLast? with
    | none =>
        rw [List.getLast?_eq_none_iff] at last
        subst last
        rw [List.getLast?_nil] at walked
        refine ⟨cell, memory.setHead id (memory.next cell), found, ?_, placed, ?_⟩
        · simp [Memory.unlink, walked]
        · refine represents.remove member ?_ ?_ shorter rest
          · intro other different
            simp only [Memory.setHead, Function.update_of_ne different]
            exact represents.linked other
          · simpa only [Memory.setHead, Function.update_self, List.nil_append]
              using linked.2
    | some previous =>
        rw [last] at walked
        obtain ⟨early, rfl⟩ := List.getLast?_eq_some_iff.mp last
        refine ⟨cell, memory.setNext previous (memory.next cell), found, ?_,
          placed, ?_⟩
        · simp [Memory.unlink, walked]
        · have previousMember : previous ∈ lists id := by
            rw [split]
            simp
          refine represents.remove member ?_ ?_ shorter rest
          · intro other different
            refine (represents.linked other).update ?_ _
            intro elsewhere
            have first := (represents.placed id previous).mp previousMember
            have second := (represents.placed other previous).mp elsewhere
            rw [first, Option.some.injEq] at second
            exact different second.symm
          · have around : early ++ [previous] ++ cell :: after =
                early ++ previous :: cell :: after := by simp
            rw [around] at linked distinct
            have bypassed := linked.bypass distinct
            simpa [Memory.setNext] using bypassed

omit [DecidableEq Id] [DecidableEq Cell] in
/-- Memory whose head pointers are all NULL represents empty lists. -/
theorem empty (next : Cell → Option Cell) :
    Represents (⟨fun _ => none, next⟩ : Memory Id Cell)
      (fun _ => []) (fun _ => none) :=
  { linked := fun _ => rfl
    distinct := fun _ => List.nodup_nil
    placed := fun _ _ => by simp }

/-- Link different cells one after the other, each into a list of its own. -/
theorem pushAll (represents : Represents memory lists place)
    (destination : Cell → Id) {cells : List Cell} (distinct : cells.Nodup)
    (free : ∀ cell ∈ cells, place cell = none) :
    ∃ later, Represents
      (cells.foldl (fun memory cell => memory.push (destination cell) cell) memory)
      later (fun cell => if cell ∈ cells then some (destination cell)
        else place cell) := by
  induction cells generalizing memory lists place with
  | nil => exact ⟨lists, by simpa using represents⟩
  | cons cell rest induction =>
      rw [List.nodup_cons] at distinct
      have pushed := represents.push (free cell List.mem_cons_self)
        (destination cell)
      obtain ⟨later, done⟩ := induction pushed distinct.2 (by
        intro other member
        have different : other ≠ cell := by
          rintro rfl
          exact distinct.1 member
        rw [Function.update_of_ne different]
        exact free other (List.mem_cons_of_mem _ member))
      refine ⟨later, ?_⟩
      rw [List.foldl_cons]
      convert done using 2 with other
      by_cases here : other = cell
      · subst here
        simp [distinct.1]
      · simp [here]

/-- The lengths of some lists add up to the number of cells in them. -/
theorem sum_length [Fintype Cell]
    (represents : Represents memory lists place) (ids : Finset Id) :
    ∑ id ∈ ids, (lists id).length =
      ∑ cell, if ∃ id ∈ ids, place cell = some id then 1 else 0 := by
  classical
  rw [← Finset.card_filter]
  have lengths : ∀ id ∈ ids, (lists id).length =
      (Finset.univ.filter fun cell => (∃ other ∈ ids,
        place cell = some other) ∧ place cell = some id).card := by
    intro id member
    rw [← List.toFinset_card_of_nodup (represents.distinct id)]
    congr 1
    ext cell
    rw [List.mem_toFinset, represents.placed id cell, Finset.mem_filter]
    constructor
    · intro there
      exact ⟨Finset.mem_univ cell, ⟨id, member, there⟩, there⟩
    · exact fun there => there.2.2
  rw [Finset.sum_congr rfl lengths]
  have fibres := Finset.card_eq_sum_card_fiberwise
    (s := Finset.univ.filter fun cell => ∃ id ∈ ids, place cell = some id)
    (t := ids.image some) (f := place) (by
      intro cell member
      obtain ⟨id, chosen, there⟩ := (Finset.mem_filter.mp member).2
      exact Finset.mem_coe.mpr
        (Finset.mem_image.mpr ⟨id, chosen, there.symm⟩))
  rw [fibres, Finset.sum_image fun _ _ _ _ same => Option.some.inj same]
  simp only [Finset.filter_filter]

end Represents

end Chain
