import MemoryTraceTool.PoolMemory

/-!
# The home stripes of blocks

`mtt_bucket_of` drops three alignment bits, but the blocks of a 64-bit
`malloc` are aligned to 16 bytes.  The fourth bit survives the shift and the
odd multiplier, so the low bit of the seed decides which half of the buckets,
lock stripes and free lists the blocks have as their homes.
-/

namespace MemoryTraceTool

/-- The address of a block of a 64-bit `malloc`. -/
def IsBlockAddress (ptr : Word) : Prop :=
  ptr ≠ 0 ∧ ptr.toNat % 16 = 0

/-- Some block has its entry in the bucket. -/
def IsHomeBucket (seed : Word) (bucket : Nat) : Prop :=
  ∃ ptr, IsBlockAddress ptr ∧ mttBucketOf ptr mttBuckets seed = bucket

/-- Some block has its entry under the lock of the stripe, and takes it from
the free list of the stripe first. -/
def IsHomeStripe (seed : Word) (stripe : Nat) : Prop :=
  ∃ ptr, IsBlockAddress ptr ∧ mttStripeOf ptr mttBuckets seed = stripe

/-- The hash and the seed are reduced to their twelve low bits first. -/
theorem mttBucketOf_eq (ptr seed : Word) :
    mttBucketOf ptr mttBuckets seed =
      (ptr.toNat / 8 * 11400714819323198485 % mttBuckets) ^^^
        (seed.toNat % mttBuckets) := by
  have mask : (BitVec.ofNat 64 (mttBuckets - 1)).toNat = 2 ^ 12 - 1 := rfl
  have power : mttBuckets = 2 ^ 12 := rfl
  unfold mttBucketOf
  rw [BitVec.toNat_and, mask, Nat.and_two_pow_sub_one_eq_mod, BitVec.toNat_xor,
    Nat.xor_mod_two_pow, BitVec.toNat_mul, BitVec.toNat_ushiftRight,
    Nat.shiftRight_eq_div_pow, power, Nat.mod_mod_of_dvd _ (by decide)]
  rfl

theorem mttBucketOf_parity {ptr : Word} (aligned : ptr.toNat % 16 = 0)
    (seed : Word) :
    mttBucketOf ptr mttBuckets seed % 2 = seed.toNat % 2 := by
  have even : ptr.toNat / 8 * 11400714819323198485 % mttBuckets % 2 = 0 := by
    unfold mttBuckets
    omega
  rw [mttBucketOf_eq, ← Nat.pow_one 2, Nat.xor_mod_two_pow, Nat.pow_one, even,
    Nat.zero_xor]
  exact Nat.mod_mod_of_dvd _ (by decide)

/-- The block whose hash has the twelve low bits `2 * half`: 829 is the
inverse of the multiplier modulo 2048. -/
def blockOfHash (half : Nat) : Word :=
  BitVec.ofNat 64 (16 * (half * 829 % 2048 + 2048))

theorem blockOfHash_toNat (half : Nat) :
    (blockOfHash half).toNat = 16 * (half * 829 % 2048 + 2048) := by
  unfold blockOfHash
  rw [BitVec.toNat_ofNat]
  omega

theorem isBlockAddress_blockOfHash (half : Nat) :
    IsBlockAddress (blockOfHash half) := by
  have value := blockOfHash_toNat half
  constructor
  · intro null
    rw [null] at value
    simp at value
  · omega

theorem mttBucketOf_blockOfHash {half : Nat} (small : half < 2048)
    (seed : Word) :
    mttBucketOf (blockOfHash half) mttBuckets seed =
      2 * half ^^^ (seed.toNat % mttBuckets) := by
  have hash : (blockOfHash half).toNat / 8 * 11400714819323198485 %
      mttBuckets = 2 * half := by
    rw [blockOfHash_toNat]
    unfold mttBuckets
    omega
  rw [mttBucketOf_eq, hash]

/-- The buckets of blocks are those with the low bit of the seed. -/
theorem isHomeBucket_iff (seed : Word) (bucket : Nat) :
    IsHomeBucket seed bucket ↔
      bucket < mttBuckets ∧ bucket % 2 = seed.toNat % 2 := by
  constructor
  · rintro ⟨ptr, ⟨_, aligned⟩, rfl⟩
    exact ⟨mttBucketOf_lt ptr seed, mttBucketOf_parity aligned seed⟩
  · rintro ⟨inside, parity⟩
    let hash := bucket ^^^ (seed.toNat % mttBuckets)
    have reduced : seed.toNat % mttBuckets < 2 ^ 12 :=
      Nat.mod_lt _ (by decide)
    have small : hash < 2 ^ 12 := Nat.xor_lt_two_pow inside reduced
    have even : hash % 2 = 0 := by
      have low : seed.toNat % mttBuckets % 2 = seed.toNat % 2 :=
        Nat.mod_mod_of_dvd _ (by decide)
      have bits := Nat.xor_mod_two_pow (a := bucket)
        (b := seed.toNat % mttBuckets) (n := 1)
      rw [Nat.pow_one, low, parity, Nat.xor_self] at bits
      exact bits
    have half : 2 * (hash / 2) = hash := by omega
    refine ⟨blockOfHash (hash / 2), isBlockAddress_blockOfHash _, ?_⟩
    rw [mttBucketOf_blockOfHash (by omega), half, Nat.xor_assoc, Nat.xor_self,
      Nat.xor_zero]

theorem isHomeStripe_iff (seed : Word) (stripe : Nat) :
    IsHomeStripe seed stripe ↔
      stripe < mttLockStripes ∧ stripe % 2 = seed.toNat % 2 := by
  constructor
  · rintro ⟨ptr, ⟨_, aligned⟩, rfl⟩
    refine ⟨mttStripeOf_lt ptr seed, ?_⟩
    rw [mttStripeOf_eq_mod, ← mttBucketOf_parity aligned seed]
    exact Nat.mod_mod_of_dvd _ (by decide)
  · rintro ⟨inside, parity⟩
    have bounded : stripe < mttBuckets := Nat.lt_trans inside (by decide)
    obtain ⟨ptr, block, home⟩ :=
      (isHomeBucket_iff seed stripe).mpr ⟨bounded, parity⟩
    refine ⟨ptr, block, ?_⟩
    rw [mttStripeOf_eq_mod, home]
    exact Nat.mod_eq_of_lt inside

/-- The slots of an aligned pool go back to the same half of the free lists,
although `mtt_ensure_init` fills all of them. -/
theorem stripeOf_address_parity {layout : PoolLayout}
    (base : layout.base.toNat % 16 = 0) (size : layout.entrySize % 16 = 0)
    (slot : layout.Slot) :
    layout.stripeOf (layout.address slot) % 2 =
      layout.hashSeed.toNat % 2 := by
  have aligned : (layout.address slot).toNat % 16 = 0 := by
    unfold PoolLayout.address
    have multiple : slot.val * layout.entrySize % 16 = 0 := by
      rw [Nat.mul_mod, size, Nat.mul_zero, Nat.zero_mod]
    rw [BitVec.toNat_add, BitVec.toNat_ofNat]
    omega
  unfold PoolLayout.stripeOf
  rw [mttStripeOf_eq_mod, ← mttBucketOf_parity aligned layout.hashSeed]
  exact Nat.mod_mod_of_dvd _ (by decide)

/-- A bucket, or a stripe, is the home of some block just when it has the low
bit of the seed. -/
theorem homes_iff_parity (seed : Word) :
    (∀ bucket, IsHomeBucket seed bucket ↔
      bucket < mttBuckets ∧ bucket % 2 = seed.toNat % 2) ∧
    ∀ stripe, IsHomeStripe seed stripe ↔
      stripe < mttLockStripes ∧ stripe % 2 = seed.toNat % 2 :=
  ⟨isHomeBucket_iff seed, isHomeStripe_iff seed⟩

/-- With an even seed no block has the bucket 1. -/
theorem noBlock_bucket_one :
    ¬ ∀ seed bucket, bucket < mttBuckets → IsHomeBucket seed bucket := by
  intro reached
  have parity := (isHomeBucket_iff 0 1).mp (reached 0 1 (by decide))
  exact absurd parity.2 (by decide)

end MemoryTraceTool
