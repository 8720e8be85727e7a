import Mathlib.Order.Lattice

/-!
# Searching half-open intervals

A bisection over positions whose intervals do not overlap and ascend.  The
bounds of the window are integers, since the upper one goes below zero when
the window is left of the first position.
-/

namespace Intervals

variable {α : Type u} [LinearOrder α]

/-- The position in the window whose interval holds the point; the fuel bounds
the turns. -/
def search (lower upper : Nat → α) (point : α) :
    Nat → Int → Int → Option Nat
  | 0, _, _ => none
  | fuel + 1, left, right =>
      if left ≤ right then
        let middle := left + (right - left) / 2
        if point < lower middle.toNat then
          search lower upper point fuel left (middle - 1)
        else if upper middle.toNat ≤ point then
          search lower upper point fuel (middle + 1) right
        else some middle.toNat
      else none

/-- The first `count` intervals hold their lower bounds, and each ends before
the later ones begin. -/
structure Ascending (lower upper : Nat → α) (count : Nat) : Prop where
  nonempty : ∀ position < count, lower position < upper position
  apart : ∀ before after, before < after → after < count →
    upper before ≤ lower after

variable {lower upper : Nat → α} {point : α} {fuel : Nat} {left right : Int}

/-- A position that is found lies in the window and its interval holds the
point, whatever the order of the intervals. -/
theorem search_sound {position : Nat} (positive : 0 ≤ left)
    (found : search lower upper point fuel left right = some position) :
    (position : Int) ≤ right ∧ lower position ≤ point ∧
      point < upper position := by
  induction fuel generalizing left right with
  | zero => cases found
  | succ fuel induction =>
      simp only [search] at found
      split at found
      · rename_i window
        split at found
        · have later := induction positive found
          exact ⟨by omega, later.2⟩
        · rename_i above
          split at found
          · exact induction (by omega) found
          · rename_i below
            obtain rfl := Option.some.inj found
            exact ⟨by omega, not_lt.mp above, not_le.mp below⟩
      · cases found

/-- An interval of the window that holds the point is found. -/
theorem search_complete {count position : Nat}
    (ascending : Ascending lower upper count)
    (positive : 0 ≤ left) (inside : right < count)
    (fits : right - left < fuel)
    (after : left ≤ position) (before : (position : Int) ≤ right)
    (above : lower position ≤ point) (below : point < upper position) :
    search lower upper point fuel left right = some position := by
  induction fuel generalizing left right with
  | zero => omega
  | succ fuel induction =>
      have window : left ≤ right := Int.le_trans after before
      have middleBounds :
          left ≤ left + (right - left) / 2 ∧
            left + (right - left) / 2 ≤ right := by
        omega
      obtain ⟨middle, same⟩ :
          ∃ middle : Nat, left + (right - left) / 2 = middle :=
        Int.eq_ofNat_of_zero_le (by omega)
      simp only [search, if_pos window, same, Int.toNat_natCast]
      rw [same] at middleBounds
      by_cases smaller : point < lower middle
      · rw [if_pos smaller]
        have leftOf : position < middle := by
          by_contra notLeft
          rcases Nat.lt_or_eq_of_le (Nat.le_of_not_lt notLeft) with
            later | rfl
          · have apart := ascending.apart middle position later (by omega)
            have nonempty := ascending.nonempty middle (by omega)
            exact absurd (lt_of_lt_of_le nonempty apart)
              (not_lt.mpr (le_of_lt (lt_of_le_of_lt above smaller)))
          · exact absurd smaller (not_lt.mpr above)
        exact induction positive (by omega) (by omega) after (by omega)
      · rw [if_neg smaller]
        by_cases larger : upper middle ≤ point
        · rw [if_pos larger]
          have rightOf : middle < position := by
            by_contra notRight
            rcases Nat.lt_or_eq_of_le (Nat.le_of_not_lt notRight) with
              earlier | rfl
            · have apart := ascending.apart position middle earlier (by omega)
              exact smaller (lt_of_lt_of_le below apart)
            · exact absurd below (not_lt.mpr larger)
          exact induction (by omega) inside (by omega) (by omega) before
        · rw [if_neg larger]
          -- Two intervals that hold one point are the same.
          have equal : middle = position := by
            rcases Nat.lt_trichotomy middle position with
              earlier | equal | later
            · have apart := ascending.apart middle position earlier (by omega)
              exact absurd (le_trans apart above) larger
            · exact equal
            · have apart := ascending.apart position middle later (by omega)
              exact absurd (lt_of_lt_of_le below apart) smaller
          rw [equal]

end Intervals
