import MemoryTraceTool.Basic

/-!
# Hashes of call stacks

The scan groups live blocks by a 64-bit hash of their call stack, computed by
a variant of xxHash64 over the bytes of the frame addresses, which are stored
in little-endian order.  A bounded cache keeps the stacks seen so far.
Addresses and sizes have the width `w` of the platform.
-/

namespace MemoryTraceTool

def mttStackCacheSize : Nat := 4096

def xxhPrime64_1 : Word := 0x9E3779B185EBCA87#64
def xxhPrime64_2 : Word := 0xC2B2AE3D27D4EB4F#64
def xxhPrime64_3 : Word := 0x165667B19E3779F9#64
def xxhPrime64_4 : Word := 0x85EBCA77C2B2AE63#64
def xxhPrime64_5 : Word := 0x27D4EB2F165667C5#64

def rotateLeft (value : Word) (bits : Nat) : Word :=
  value <<< bits ||| value >>> (64 - bits)

/-- `xxhash64_round`. -/
def xxhash64Round (acc input : Word) : Word :=
  rotateLeft (acc + input * xxhPrime64_2) 31 * xxhPrime64_1

/-- The bytes of an address in memory. -/
def addressBytes (address : BitVec w) : List (BitVec 8) :=
  (List.range (w / 8)).map fun index =>
    (address >>> (8 * index)).setWidth 8

/-- `memcpy` of `count` bytes into a 64-bit variable that was zero. -/
def readBytes (bytes : List (BitVec 8)) (offset count : Nat) : Word :=
  (List.range count).foldl (fun value index =>
    value ||| (bytes.getD (offset + index) 0).setWidth 64 <<< (8 * index)) 0

/-- The four accumulators of the main loop. -/
structure XxhLanes where
  v1 : Word
  v2 : Word
  v3 : Word
  v4 : Word

def XxhLanes.start (seed : Word) : XxhLanes :=
  { v1 := seed + xxhPrime64_1 + xxhPrime64_2
    v2 := seed + xxhPrime64_2
    v3 := seed + 0
    v4 := seed - xxhPrime64_1 }

/-- One turn of the main loop, over the 32 bytes at `offset`. -/
def XxhLanes.turn (bytes : List (BitVec 8)) (offset : Nat)
    (lanes : XxhLanes) : XxhLanes :=
  { v1 := xxhash64Round lanes.v1 (readBytes bytes offset 8)
    v2 := xxhash64Round lanes.v2 (readBytes bytes (offset + 8) 8)
    v3 := xxhash64Round lanes.v3 (readBytes bytes (offset + 16) 8)
    v4 := xxhash64Round lanes.v4 (readBytes bytes (offset + 24) 8) }

/-- The four lanes in one word. -/
def XxhLanes.merge (lanes : XxhLanes) : Word :=
  [lanes.v1, lanes.v2, lanes.v3, lanes.v4].foldl xxhash64Round
    (rotateLeft lanes.v1 1 + rotateLeft lanes.v2 7 + rotateLeft lanes.v3 12 +
      rotateLeft lanes.v4 18)

/-- The tail loop over whole 8-byte words. -/
def xxhashTail8 (bytes : List (BitVec 8)) (offset : Nat) (h64 : Word) :
    Word :=
  let k1 := readBytes bytes offset 8 * xxhPrime64_2
  let mixed := h64 ^^^ rotateLeft k1 31 * xxhPrime64_1
  rotateLeft mixed 27 * xxhPrime64_1 + xxhPrime64_4

def xxhashTail4 (bytes : List (BitVec 8)) (offset : Nat) (h64 : Word) :
    Word :=
  rotateLeft (h64 ^^^ readBytes bytes offset 4 * xxhPrime64_1) 23 *
    xxhPrime64_2 + xxhPrime64_3

def xxhashTail1 (bytes : List (BitVec 8)) (offset : Nat) (h64 : Word) :
    Word :=
  rotateLeft (h64 ^^^ readBytes bytes offset 1 * xxhPrime64_5) 11 *
    xxhPrime64_1

/-- The last mixing of the bits. -/
def xxhashAvalanche (h64 : Word) : Word :=
  let h64 := (h64 ^^^ h64 >>> 33) * xxhPrime64_2
  let h64 := (h64 ^^^ h64 >>> 29) * xxhPrime64_3
  h64 ^^^ h64 >>> 32

/-- `xxhash64_frames`; no frames have the hash 0. -/
def xxhash64Frames (frames : List (BitVec w)) (seed : Word) : Word :=
  if frames = [] then 0
  else
    let bytes := frames.flatMap addressBytes
    let h64 :=
      if 32 ≤ bytes.length then
        ((List.range (bytes.length / 32)).foldl (fun lanes turn =>
          lanes.turn bytes (32 * turn)) (XxhLanes.start seed)).merge
      else seed + xxhPrime64_5
    let totalBytes := bytes.length % 32
    let start8 := bytes.length - totalBytes
    let h64 := (List.range (totalBytes / 8)).foldl (fun h64 turn =>
      xxhashTail8 bytes (start8 + 8 * turn) h64)
      (h64 + BitVec.ofNat 64 totalBytes)
    let rest := totalBytes % 8
    let start4 := bytes.length - rest
    let h64 := if 4 ≤ rest then xxhashTail4 bytes start4 h64 else h64
    let start1 := bytes.length - rest % 4
    xxhashAvalanche ((List.range (rest % 4)).foldl (fun h64 turn =>
      xxhashTail1 bytes (start1 + turn) h64) h64)

/-- `MTT_FIX_THUMB_ADDR` clears the lowest bit. -/
def mttFixThumbAddr (address : BitVec w) : BitVec w :=
  address &&& ~~~1#w

/-- The hash leaves out the innermost frame of a stack of several. -/
def mttStackHashCompute (frames : List (BitVec w)) : Word :=
  if frames = [] then 0
  else
    let start := if 1 < frames.length then 1 else 0
    xxhash64Frames ((frames.drop start).map mttFixThumbAddr)
      0x9e3779b97f4a7c15#64

/-- A cached stack; its symbols are left out. -/
structure MttStackEntry (w : Nat) where
  hash : Word
  frames : List (BitVec w)
  deriving DecidableEq

/-- `mtt_stack_cache_t`: chains by bucket. -/
structure MttStackCache (w : Nat) where
  entries : Nat → List (MttStackEntry w)
  count : Nat

def MttStackCache.empty (w : Nat) : MttStackCache w :=
  { entries := fun _ => []
    count := 0 }

/-- Find the stack in the cache, or add it unless the cache is full or the
allocation of the entry fails. -/
def mttStackCacheLookup (fails : Bool) (cache : MttStackCache w)
    (frames : List (BitVec w)) :
    Option (MttStackEntry w) × MttStackCache w :=
  if frames = [] then (none, cache)
  else
    let hash := mttStackHashCompute frames
    let bucket := (hash &&& BitVec.ofNat 64 (mttStackCacheSize - 1)).toNat
    let clean := frames.map mttFixThumbAddr
    match (cache.entries bucket).find? fun entry =>
      entry.hash = hash ∧ entry.frames = clean with
    | some entry => (some entry, cache)
    | none =>
        if mttStackCacheSize ≤ cache.count then (none, cache)
        else if fails then (none, cache)
        else
          let entry : MttStackEntry w := { hash, frames := clean }
          (some entry,
            { entries := Function.update cache.entries bucket
                (entry :: cache.entries bucket)
              count := cache.count + 1 })

theorem mttStackCacheLookup_hash {fails : Bool} {cache : MttStackCache w}
    {frames : List (BitVec w)} {entry : MttStackEntry w}
    (found : (mttStackCacheLookup fails cache frames).1 = some entry) :
    entry.hash = mttStackHashCompute frames := by
  simp only [mttStackCacheLookup] at found
  split at found
  · cases found
  · split at found
    · rename_i hit
      cases found
      have matched := List.find?_some hit
      exact (of_decide_eq_true matched).1
    · split at found
      · cases found
      · split at found
        · cases found
        · cases found
          rfl

end MemoryTraceTool
