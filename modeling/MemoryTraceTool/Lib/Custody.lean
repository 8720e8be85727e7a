import Mathlib.Algebra.BigOperators.Ring.Finset
import MemoryTraceTool.Lib.Accounts
import Mathlib.Data.List.Count

/-!
# Custody of allocated blocks

An allocator hands out blocks, and holders pass them around before giving them
back.  Blocks lent by another source are foreign: nothing is promised about
them.  Every other claim on a block is backed by the allocator: no block is
claimed twice, and none that is not allocated.
-/

namespace Custody

/-- The blocks an allocator has handed out and not taken back, and the blocks
that came from somewhere else. -/
structure Ledger (Block : Type u) where
  live : Block → Bool
  foreign : Block → Bool

variable {Block : Type u} [DecidableEq Block]

namespace Ledger

def acquire (ledger : Ledger Block) (block : Block) : Ledger Block :=
  { ledger with live := Function.update ledger.live block true }

def release (ledger : Ledger Block) (block : Block) : Ledger Block :=
  { ledger with live := Function.update ledger.live block false }

def lend (ledger : Ledger Block) (block : Block) : Ledger Block :=
  { ledger with foreign := Function.update ledger.foreign block true }

end Ledger

/-- Between two ledgers, claims on `given` are exchanged for claims on
`taken`: a new claim is paid for by an old one or by a new allocation. -/
structure Moves (before after : Ledger Block) (given taken : List Block) :
    Prop where
  foreign : ∀ block, after.foreign block = false →
    before.foreign block = false
  balance : ∀ block, after.foreign block = false →
    taken.count block + (before.live block).toNat ≤
      given.count block + (after.live block).toNat

namespace Moves

variable {before middle after : Ledger Block}
  {given kept taken : List Block}

theorem of_count_le (ledger : Ledger Block)
    (fewer : ∀ block, taken.count block ≤ given.count block) :
    Moves ledger ledger given taken := by
  refine ⟨fun _ native => native, ?_⟩
  intro block _
  exact Nat.add_le_add_right (fewer block) _

theorem refl (ledger : Ledger Block) (blocks : List Block) :
    Moves ledger ledger blocks blocks :=
  of_count_le ledger fun _ => Nat.le_refl _

theorem of_perm (ledger : Ledger Block) (same : given.Perm taken) :
    Moves ledger ledger given taken :=
  of_count_le ledger fun block => (same.count_eq block).ge

theorem trans (first : Moves before middle given kept)
    (second : Moves middle after kept taken) :
    Moves before after given taken := by
  refine ⟨?_, ?_⟩
  · intro block native
    exact first.foreign block (second.foreign block native)
  · intro block native
    have early := first.balance block (second.foreign block native)
    have late := second.balance block native
    omega

/-- Claims that are not touched may be added on both sides. -/
theorem frame (moved : Moves before after given taken) (rest : List Block) :
    Moves before after (given ++ rest) (taken ++ rest) := by
  refine ⟨moved.foreign, ?_⟩
  intro block native
  have balanced := moved.balance block native
  simp only [List.count_append]
  omega

theorem acquire (ledger : Ledger Block) {block : Block}
    (fresh : ledger.live block = false) :
    Moves ledger (ledger.acquire block) [] [block] := by
  refine ⟨fun _ native => native, ?_⟩
  intro other _
  by_cases same : other = block
  · subst same
    simp [Ledger.acquire, fresh]
  · simp [Ledger.acquire, same, Ne.symm same]

theorem release (ledger : Ledger Block) (block : Block) :
    Moves ledger (ledger.release block) [block] [] := by
  refine ⟨fun _ native => native, ?_⟩
  intro other _
  by_cases same : other = block
  · subst same
    have atMostOne := Bool.toNat_le (ledger.live other)
    simpa [Ledger.release] using atMostOne
  · simp [Ledger.release, same]

theorem lend (ledger : Ledger Block) (block : Block) :
    Moves ledger (ledger.lend block) [] [block] := by
  have native : ∀ other, (ledger.lend block).foreign other = false →
      other ≠ block ∧ ledger.foreign other = false := by
    intro other lent
    by_cases same : other = block
    · subst same
      simp [Ledger.lend] at lent
    · refine ⟨same, ?_⟩
      simpa [Ledger.lend, same] using lent
  refine ⟨fun other lent => (native other lent).2, ?_⟩
  intro other lent
  have different := (native other lent).1
  simp [Ledger.lend, Ne.symm different]

end Moves

variable {Holder : Type v} [Fintype Holder]

/-- Claims on a block, by nobody in particular or by a holder, are at most as
many as its allocations, unless it is foreign. -/
def Backed (ledger : Ledger Block) (common : List Block)
    (held : Holder → List Block) : Prop :=
  ∀ block, ledger.foreign block = false →
    common.count block + ∑ holder, (held holder).count block ≤
      (ledger.live block).toNat

theorem backed_empty (ledger : Ledger Block) :
    Backed ledger [] fun _ : Holder => [] := by
  intro block _
  simp

/-- A block that is claimed and not foreign is allocated. -/
theorem Backed.live {ledger : Ledger Block} {common : List Block}
    {held : Holder → List Block} (backed : Backed ledger common held)
    {block : Block} (native : ledger.foreign block = false)
    (claimed : block ∈ common ∨ ∃ holder, block ∈ held holder) :
    ledger.live block = true := by
  have bounded := backed block native
  have positive : 0 < (ledger.live block).toNat := by
    rcases claimed with member | ⟨holder, member⟩
    · have counted := List.count_pos_iff.mpr member
      omega
    · have counted := List.count_pos_iff.mpr member
      have part : (held holder).count block ≤
          ∑ other, (held other).count block :=
        Finset.single_le_sum (f := fun other => (held other).count block)
          (fun _ _ => Nat.zero_le _) (Finset.mem_univ holder)
      omega
  cases allocated : ledger.live block with
  | true => rfl
  | false => simp [allocated] at positive

theorem Backed.common_step {ledger later : Ledger Block}
    {common commonLater : List Block} {held : Holder → List Block}
    (backed : Backed ledger common held)
    (moved : Moves ledger later common commonLater) :
    Backed later commonLater held := by
  intro block native
  have bounded := backed block (moved.foreign block native)
  have balanced := moved.balance block native
  omega

/-- The step rule: what one holder and the common claims exchange keeps all
claims backed. -/
theorem Backed.step [DecidableEq Holder] {ledger later : Ledger Block}
    {common commonLater : List Block} {held : Holder → List Block}
    (backed : Backed ledger common held) {holder : Holder}
    {blocks : List Block}
    (moved : Moves ledger later (common ++ held holder)
      (commonLater ++ blocks)) :
    Backed later commonLater (Function.update held holder blocks) := by
  intro block native
  have bounded := backed block (moved.foreign block native)
  have balanced := moved.balance block native
  have total := Accounts.sum_update Finset.univ
    (fun blocks : List Block => (blocks.count block : Int)) held
    (Finset.mem_univ holder) blocks
  rw [← Nat.cast_sum, ← Nat.cast_sum] at total
  simp only [List.count_append] at balanced
  omega

end Custody
