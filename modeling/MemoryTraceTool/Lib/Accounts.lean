import Mathlib.Algebra.BigOperators.Group.Finset.Basic
import Mathlib.Algebra.BigOperators.Group.Finset.Piecewise
import Mathlib.Algebra.Order.BigOperators.Group.Finset

/-!
# Sums of local amounts

A shared quantity is split into amounts kept by many places or threads.  A
step changes one of them, and amounts claimed at different places are bounded
by the total over all places.
-/

namespace Accounts

/-- Changing one local value changes the sum by the difference of its
amounts. -/
theorem sum_update {ι : Type u} {Local : Type v} [DecidableEq ι]
    (places : Finset ι) (amount : Local → Int) (locals : ι → Local)
    {place : ι} (member : place ∈ places) (value : Local) :
    ∑ other ∈ places, amount (Function.update locals place value other) =
      ∑ other ∈ places, amount (locals other) +
        (amount value - amount (locals place)) := by
  have updated :
      (fun other => amount (Function.update locals place value other)) =
        Function.update (fun other => amount (locals other)) place
          (amount value) := by
    funext other
    by_cases same : other = place
    · subst same
      simp
    · simp [same]
  have erased :=
    Finset.sum_erase_eq_sub (f := fun other => amount (locals other)) member
  rw [updated, Finset.sum_update_of_mem member,
    Finset.sdiff_singleton_eq_erase, erased]
  omega

/-- Amounts claimed at different places are bounded by the total. -/
theorem sum_claims_le {Claimant : Type u} {ι : Type v} [Fintype Claimant]
    [DecidableEq ι] (place : Claimant → Option ι) (claim : Claimant → Int)
    (places : Finset ι) (amount : ι → Int)
    (nonneg : ∀ i ∈ places, 0 ≤ amount i)
    (placed : ∀ claimant i, place claimant = some i →
      i ∈ places ∧ claim claimant ≤ amount i)
    (unplaced : ∀ claimant, place claimant = none → claim claimant ≤ 0)
    (different : ∀ first second i, place first = some i →
      place second = some i → first = second) :
    ∑ claimant, claim claimant ≤ ∑ i ∈ places, amount i := by
  classical
  let claimants := Finset.univ.filter fun claimant =>
    (place claimant).isSome = true
  let paid := fun claimant => (place claimant).elim 0 amount
  have dropped : ∑ claimant, claim claimant ≤
      ∑ claimant ∈ claimants, paid claimant := by
    rw [Finset.sum_filter]
    apply Finset.sum_le_sum
    intro claimant _
    cases there : place claimant with
    | none => simpa using unplaced claimant there
    | some i => simpa [paid, there] using (placed claimant i there).2
  have images : ∑ claimant ∈ claimants, paid claimant =
      ∑ target ∈ claimants.image place, target.elim 0 amount := by
    rw [Finset.sum_image]
    intro first firstClaims second _ same
    obtain ⟨i, here⟩ := Option.isSome_iff_exists.mp
      (Finset.mem_filter.mp firstClaims).2
    exact different first second i here (same ▸ here)
  have inside : claimants.image place ⊆ places.image some := by
    intro target member
    obtain ⟨claimant, claims, rfl⟩ := Finset.mem_image.mp member
    obtain ⟨i, here⟩ := Option.isSome_iff_exists.mp
      (Finset.mem_filter.mp claims).2
    rw [here]
    exact Finset.mem_image_of_mem some (placed claimant i here).1
  calc
    ∑ claimant, claim claimant
      ≤ ∑ target ∈ claimants.image place, target.elim 0 amount :=
        images ▸ dropped
    _ ≤ ∑ target ∈ places.image some, target.elim 0 amount := by
        apply Finset.sum_le_sum_of_subset_of_nonneg inside
        intro target member _
        obtain ⟨i, here, rfl⟩ := Finset.mem_image.mp member
        exact nonneg i here
    _ = ∑ i ∈ places, amount i := by
        rw [Finset.sum_image fun _ _ _ _ same => Option.some.inj same]
        rfl

end Accounts
