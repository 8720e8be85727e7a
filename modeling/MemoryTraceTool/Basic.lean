import Mathlib.Data.BitVec
import Mathlib.Data.Fintype.Defs
import Mathlib.Data.Finset.Insert
import Mathlib.Tactic.Abel

/-!
# Constants and machine words

The compile-time limits of the tool, its 64-bit words, the address hash that
selects a bucket and a lock stripe, and the threads of concrete runs.
-/

namespace MemoryTraceTool

def mttBuckets : Nat := 4096

def mttMaxEntries : Nat := 131072

def mttLockStripes : Nat := 64

/-- Capacity of `stack[]` and `frames[]`. -/
def mttStackDepth : Nat := 64

def mttBlacklistRangesMax : Nat := 64

def mttBootstrapBufSize : Nat := 65536

/-- `sizeof(mtt_entry_t)` with 64-bit pointers. -/
def mttEntrySize : Nat := 560

def mttBigAllocThreshold : Nat := 1024 * 1024

/-- Requests of at least this size are exempt from sampling. -/
def mttSampleExemptThreshold : Nat := 1024

/-- A `size_t`, a `uint64_t` or an address; `fetch_add` wraps. -/
abbrev Word := BitVec 64

namespace Word

/-- A word that holds an integer modulo `2 ^ 64` holds the changed integer
after `fetch_add`. -/
theorem intCast_add_ofNat (value : Int) (amount : Nat) :
    ((value : Int) : Word) + BitVec.ofNat 64 amount =
      ((value + amount : Int) : Word) := by
  push_cast
  rfl

theorem intCast_sub_ofNat (value : Int) (amount : Nat) :
    ((value : Int) : Word) - BitVec.ofNat 64 amount =
      ((value - amount : Int) : Word) := by
  push_cast
  rfl

/-- A counter and the integer it stands for move together. -/
theorem add_balanced (counter : Word) {amount : Nat} {before after : Int}
    (moved : after = before + amount) :
    counter + BitVec.ofNat 64 amount - ((after : Int) : Word) =
      counter - ((before : Int) : Word) := by
  rw [moved, ← intCast_add_ofNat, add_sub_add_right_eq_sub]

theorem sub_balanced (counter : Word) {amount : Nat} {before after : Int}
    (moved : after = before - amount) :
    counter - BitVec.ofNat 64 amount - ((after : Int) : Word) =
      counter - ((before : Int) : Word) := by
  rw [moved, ← intCast_sub_ofNat, sub_sub_sub_cancel_right]

/-- A counter that balances the moved part of a sum of integers. -/
theorem rebalance {later counter : Word} {linked linkedLater sum
    own ownLater : Int}
    (balanced : later - ((linkedLater + ownLater : Int) : Word) =
      counter - ((linked + own : Int) : Word))
    (stands : counter = ((linked + sum : Int) : Word)) :
    later = ((linkedLater + (sum + (ownLater - own)) : Int) : Word) := by
  have moved := sub_eq_iff_eq_add.mp balanced
  rw [moved, stands]
  push_cast
  abel

theorem toNat_intCast {value : Int} (nonneg : 0 ≤ value)
    (bounded : value < 2 ^ 64) :
    ((value : Int) : Word).toNat = value.toNat := by
  change (BitVec.ofInt 64 value).toNat = value.toNat
  rw [BitVec.toNat_ofInt, Int.emod_eq_of_lt nonneg (by exact_mod_cast bounded)]

end Word

/-- The bucket of an address: a Fibonacci hash of the address without its
three alignment bits, mixed with the seed and reduced to the table size. -/
def mttBucketOf (ptr : Word) (bucketCount : Nat) (seed : Word) : Nat :=
  (((ptr >>> 3) * 11400714819323198485#64 ^^^ seed) &&&
    BitVec.ofNat 64 (bucketCount - 1)).toNat

/-- The lock stripe of an address. -/
def mttStripeOf (ptr : Word) (bucketCount : Nat) (seed : Word) : Nat :=
  mttBucketOf ptr bucketCount seed &&& (mttLockStripes - 1)

theorem mttBucketOf_lt (ptr seed : Word) :
    mttBucketOf ptr mttBuckets seed < mttBuckets := by
  unfold mttBucketOf
  rw [BitVec.toNat_and]
  exact Nat.lt_of_le_of_lt Nat.and_le_right (by decide)

theorem mttStripeOf_eq_mod (ptr seed : Word) :
    mttStripeOf ptr mttBuckets seed =
      mttBucketOf ptr mttBuckets seed % mttLockStripes := by
  unfold mttStripeOf mttLockStripes
  exact Nat.and_two_pow_sub_one_eq_mod _ 6

theorem mttStripeOf_lt (ptr seed : Word) :
    mttStripeOf ptr mttBuckets seed < mttLockStripes := by
  rw [mttStripeOf_eq_mod]
  exact Nat.mod_lt _ (by decide)

/-- The threads of concrete runs. -/
inductive Worker where
  | first
  | second
  | third
  deriving DecidableEq, Repr

instance : Fintype Worker where
  elems := {.first, .second, .third}
  complete := by
    intro worker
    cases worker <;> decide

end MemoryTraceTool
