import Mathlib.Data.List.Basic
import Mathlib.Data.Int.ModEq
import Mathlib.Logic.Function.Basic

/-!
# Ring buffers

A ring of `capacity` slots with one write position.  The history of all values
ever written is the abstract state; the ring holds its last `capacity` values,
the value written at time `index` in slot `index % capacity`.
-/

namespace Ring

/-- The next write position: one further, or the start after the last slot. -/
def advance (capacity head : Nat) : Nat :=
  if capacity ≤ head + 1 then 0 else head + 1

theorem advance_mod {capacity : Nat} (positive : 0 < capacity)
    (count : Nat) :
    advance capacity (count % capacity) = (count + 1) % capacity := by
  have below := Nat.mod_lt count positive
  rw [Nat.add_mod_eq_ite]
  unfold advance
  by_cases one : capacity = 1
  · subst one
    simp [Nat.mod_one]
  · rw [Nat.mod_eq_of_lt (show 1 < capacity by omega)]
    split <;> omega

/-- The last `amount` values of a history, oldest first. -/
def recent (amount : Nat) (history : List α) : List α :=
  history.drop (history.length - amount)

theorem recent_length (amount : Nat) (history : List α) :
    (recent amount history).length = min history.length amount := by
  rw [recent, List.length_drop]
  omega

theorem recent_of_length_le {amount : Nat} {history : List α}
    (short : history.length ≤ amount) : recent amount history = history := by
  rw [recent, Nat.sub_eq_zero_of_le short, List.drop_zero]

/-- The slots and the write position after a history of writes. -/
structure Holds (capacity : Nat) (slots : Nat → α) (head : Nat)
    (history : List α) : Prop where
  head : head = history.length % capacity
  slot : ∀ index value, history[index]? = some value →
    history.length ≤ index + capacity → slots (index % capacity) = value

theorem Holds.empty (capacity : Nat) (slots : Nat → α) :
    Holds capacity slots 0 [] :=
  { head := (Nat.zero_mod capacity).symm
    slot := by simp }

theorem Holds.push {capacity : Nat} (positive : 0 < capacity)
    {slots : Nat → α} {head : Nat} {history : List α}
    (holds : Holds capacity slots head history) (value : α) :
    Holds capacity (Function.update slots head value) (advance capacity head)
      (history ++ [value]) := by
  constructor
  · rw [holds.head, advance_mod positive, List.length_append,
      List.length_singleton]
  · intro index other found kept
    rw [List.length_append, List.length_singleton] at kept
    by_cases newest : index = history.length
    · subst newest
      simp only [List.getElem?_concat_length, Option.some.injEq] at found
      rw [holds.head, Function.update_self, found]
    · have bound := (List.getElem?_eq_some_iff.mp found).1
      rw [List.length_append, List.length_singleton] at bound
      have older : index < history.length := by omega
      rw [List.getElem?_append_left older] at found
      have different : index % capacity ≠ head := by
        rw [holds.head]
        intro same
        have offset : history.length - index < capacity := by omega
        have multiple : capacity ∣ history.length - index :=
          (Nat.modEq_iff_dvd' (by omega)).mp same
        have := Nat.le_of_dvd (by omega) multiple
        omega
      rw [Function.update_of_ne different]
      exact holds.slot index other found (by omega)

theorem Holds.slot_filling {capacity : Nat} {slots : Nat → α} {head : Nat}
    {history : List α} (holds : Holds capacity slots head history)
    (filling : history.length ≤ capacity) {index : Nat} {value : α}
    (found : history[index]? = some value) : slots index = value := by
  have bound := (List.getElem?_eq_some_iff.mp found).1
  have slot := holds.slot index value found (by omega)
  rwa [Nat.mod_eq_of_lt (by omega)] at slot

/-- Once the ring is full, its window starts at the write position. -/
theorem Holds.slot_wrapped {capacity : Nat} {slots : Nat → α} {head : Nat}
    {history : List α} (holds : Holds capacity slots head history)
    (wrapped : capacity ≤ history.length) {index : Nat} {value : α}
    (found : (recent capacity history)[index]? = some value) :
    slots ((head + index) % capacity) = value := by
  rw [recent, List.getElem?_drop] at found
  have bound := (List.getElem?_eq_some_iff.mp found).1
  have slot := holds.slot _ value found (by omega)
  have position :
      (history.length - capacity + index) % capacity =
        (head + index) % capacity := by
    have total :
        history.length - capacity + index + capacity =
          history.length + index := by omega
    rw [holds.head, Nat.mod_add_mod, ← total, Nat.add_mod_right]
  rwa [← position]

/-- The copy loop of a range read: at most `remaining` values, from `index` up
to the end of the valid range. -/
def collect (slot : Nat → α) (valid : Nat) : Nat → Nat → List α
  | 0, _ => []
  | remaining + 1, index =>
      if index < valid then
        slot index :: collect slot valid remaining (index + 1)
      else
        []

theorem collect_eq_take {slot : Nat → α} {window : List α}
    (agree : ∀ index value, window[index]? = some value → slot index = value)
    (remaining index : Nat) :
    collect slot window.length remaining index =
      (window.drop index).take remaining := by
  induction remaining generalizing index with
  | zero => simp [collect]
  | succ remaining induction =>
      simp only [collect]
      split
      · rename_i inside
        have value := agree index _ (List.getElem?_eq_getElem inside)
        rw [List.drop_eq_getElem_cons inside, List.take_succ_cons,
          induction (index + 1), value]
      · rename_i outside
        rw [List.drop_eq_nil_of_le (Nat.not_lt.mp outside), List.take_nil]

/-- The oldest values of the kept window are the most recent ones only while
the history fits the amount. -/
theorem take_recent_eq_iff {amount capacity : Nat} {history : List α}
    (distinct : history.Nodup) (positive : 0 < amount)
    (smaller : amount < capacity) :
    (recent capacity history).take amount = recent amount history ↔
      history.length ≤ amount := by
  constructor
  · intro same
    by_contra long
    have firsts := congrArg (fun window => window[0]?) same
    simp only [recent, List.getElem?_take_of_lt positive,
      List.getElem?_drop, Nat.add_zero] at firsts
    have inside : history.length - capacity < history.length := by omega
    have positions := (List.getElem?_inj inside distinct).mp firsts
    omega
  · intro short
    rw [recent_of_length_le short, recent_of_length_le (by omega),
      List.take_of_length_le short]

end Ring
