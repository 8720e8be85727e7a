import MemoryTraceTool.SymbolText

/-!
# The cache of frame texts

`resolve_one_frame` keeps the texts of 512 addresses in a table that is probed
at four slots from the hash on.  When all four are taken, the first is
overwritten.
-/

namespace MemoryTraceTool.SymbolCache

open Json SymbolText

variable {w : Nat}

def addrCacheBuckets : Nat := 512

/-- `addr_cache_entry_t`; the address 0 marks a free slot. -/
structure CacheEntry (w : Nat) where
  addr : BitVec w
  symbol : Bytes
  deriving DecidableEq, Repr

/-- `g_addr_cache`. -/
abbrev AddrCache (w : Nat) := Fin addrCacheBuckets → CacheEntry w

def AddrCache.empty : AddrCache w := fun _ => ⟨0, []⟩

/-- The multiplicative hash, cut to the size of the table. -/
def bucketOf (addr : BitVec w) : Nat :=
  (((addr.setWidth 64) >>> 3 * 11400714819323198485#64) &&&
    BitVec.ofNat 64 (addrCacheBuckets - 1)).toNat

/-- The slot that is probed after so many others. -/
def probe (addr : BitVec w) (i : Nat) : Fin addrCacheBuckets :=
  ⟨(bucketOf addr + i) % addrCacheBuckets, Nat.mod_lt _ (by decide)⟩

/-- The slots probed for an address, in order. -/
def window (addr : BitVec w) : List (Fin addrCacheBuckets) :=
  (List.range 4).map (probe addr)

/-- `addr_cache_lookup`. -/
def addrCacheLookup (cache : AddrCache w) (addr : BitVec w) (outSize : Nat) :
    Option Bytes :=
  if addr = 0 ∨ outSize = 0 then none
  else
    ((window addr).find? fun idx => (cache idx).addr == addr).map fun idx =>
      (cache idx).symbol.take (outSize - 1)

/-- `addr_cache_insert`: the first slot of the window that is free or holds the
address, or else its first one. -/
def addrCacheInsert (cache : AddrCache w) (addr : BitVec w)
    (symbol : Bytes) : AddrCache w :=
  if addr = 0 then cache
  else
    let kept : CacheEntry w := ⟨addr, symbol.take (mttSymbolMax - 1)⟩
    match (window addr).find? fun idx =>
        (cache idx).addr == 0 || (cache idx).addr == addr with
    | some idx => Function.update cache idx kept
    | none => Function.update cache (probe addr 0) kept

/-- What the buffer `out` holds afterwards, and the cache. -/
def resolveOneFrame (symbols : Symbols w) (cache : AddrCache w)
    (addr : BitVec w) (out : Bytes) : Bytes × AddrCache w :=
  if addr = 0 then (out, cache)
  else
    match addrCacheLookup cache addr mttSymbolMax with
    | some symbol => (symbol, cache)
    | none =>
        let out := frameText symbols addr
        (out, addrCacheInsert cache addr out)

/-- A frame with its `resolved` buffer. -/
structure StackFrame (w : Nat) where
  frame : BitVec w
  resolved : Bytes
  deriving DecidableEq, Repr

/-- The part of a `mtt_stack_entry_t` that is resolved. -/
structure StackEntry (w : Nat) where
  frames : List (StackFrame w)
  isResolved : Bool
  deriving DecidableEq, Repr

/-- The loop over the frames of an entry. -/
def resolveFrames (symbols : Symbols w) (cache : AddrCache w) :
    List (StackFrame w) → List (StackFrame w) × AddrCache w
  | [] => ([], cache)
  | frame :: rest =>
      let resolved := resolveOneFrame symbols cache frame.frame frame.resolved
      let later := resolveFrames symbols resolved.2 rest
      ({ frame with resolved := resolved.1 } :: later.1, later.2)

/-- `mtt_stack_resolve` with the address cache. -/
def mttStackResolve (symbols : Symbols w) (cache : AddrCache w)
    (entry : StackEntry w) : StackEntry w × AddrCache w :=
  if entry.isResolved then (entry, cache)
  else
    let resolved := resolveFrames symbols cache entry.frames
    ({ frames := resolved.1, isResolved := true }, resolved.2)

/-- Entries resolved one after the other. -/
def resolveEntries (symbols : Symbols w) (cache : AddrCache w) :
    List (StackEntry w) → List (StackEntry w) × AddrCache w
  | [] => ([], cache)
  | entry :: rest =>
      let resolved := mttStackResolve symbols cache entry
      let later := resolveEntries symbols resolved.2 rest
      (resolved.1 :: later.1, later.2)

/-! ## Without the cache -/

def resolveUncached (symbols : Symbols w) (addr : BitVec w) (out : Bytes) :
    Bytes :=
  if addr = 0 then out else frameText symbols addr

def stackResolveUncached (symbols : Symbols w) (entry : StackEntry w) :
    StackEntry w :=
  if entry.isResolved then entry
  else
    { frames := entry.frames.map fun frame =>
        { frame with
          resolved := resolveUncached symbols frame.frame frame.resolved }
      isResolved := true }

/-! ## What the cache holds -/

/-- An address in the cache stands with its own text in its own window, and
in one slot only. -/
structure CacheSound (symbols : Symbols w) (cache : AddrCache w) : Prop where
  symbol : ∀ idx, (cache idx).addr ≠ 0 →
    (cache idx).symbol = frameText symbols (cache idx).addr
  inWindow : ∀ idx, (cache idx).addr ≠ 0 → idx ∈ window (cache idx).addr
  once : ∀ first second, (cache first).addr ≠ 0 →
    (cache first).addr = (cache second).addr → first = second

theorem cacheSound_empty (symbols : Symbols w) :
    CacheSound symbols .empty where
  symbol := fun _ taken => absurd rfl taken
  inWindow := fun _ taken => absurd rfl taken
  once := fun _ _ taken => absurd rfl taken

/-- A hit is the text of the address itself. -/
theorem symbol_of_lookup {symbols : Symbols w} {cache : AddrCache w}
    {addr : BitVec w} {outSize : Nat} {found : Bytes}
    (sound : CacheSound symbols cache)
    (hit : addrCacheLookup cache addr outSize = some found) :
    found = (frameText symbols addr).take (outSize - 1) := by
  unfold addrCacheLookup at hit
  split_ifs at hit with missing
  obtain ⟨idx, isFound, rfl⟩ := Option.map_eq_some_iff.mp hit
  have same : (cache idx).addr = addr := by
    simpa using List.find?_some isFound
  have taken : (cache idx).addr ≠ 0 := by
    rw [same]
    exact fun zero => missing (.inl zero)
  rw [sound.symbol idx taken, same]

theorem addr_ne_of_miss {symbols : Symbols w} {cache : AddrCache w}
    {addr : BitVec w} {outSize : Nat} (sound : CacheSound symbols cache)
    (nonzero : addr ≠ 0) (room : outSize ≠ 0)
    (miss : addrCacheLookup cache addr outSize = none)
    (idx : Fin addrCacheBuckets) : (cache idx).addr ≠ addr := by
  rintro rfl
  unfold addrCacheLookup at miss
  rw [if_neg (not_or.mpr ⟨nonzero, room⟩), Option.map_eq_none_iff,
    List.find?_eq_none] at miss
  exact miss idx (sound.inWindow idx nonzero) (by simp)

/-- Storing an absent address in a slot of its window keeps the cache sound,
whatever the slot held before. -/
theorem CacheSound.update {symbols : Symbols w} {cache : AddrCache w}
    {addr : BitVec w} (sound : CacheSound symbols cache)
    (absent : ∀ idx, (cache idx).addr ≠ addr)
    {slot : Fin addrCacheBuckets} (inWindow : slot ∈ window addr) :
    CacheSound symbols
      (Function.update cache slot ⟨addr, frameText symbols addr⟩) := by
  constructor
  · intro idx taken
    by_cases same : idx = slot
    · rw [same, Function.update_self]
    · rw [Function.update_of_ne same] at taken ⊢
      exact sound.symbol idx taken
  · intro idx taken
    by_cases same : idx = slot
    · rw [same, Function.update_self]
      exact inWindow
    · rw [Function.update_of_ne same] at taken ⊢
      exact sound.inWindow idx taken
  · intro first second taken equal
    by_cases firstSame : first = slot
    · by_cases secondSame : second = slot
      · rw [firstSame, secondSame]
      · rw [firstSame, Function.update_self,
          Function.update_of_ne secondSame] at equal
        exact absurd equal.symm (absent second)
    · rw [Function.update_of_ne firstSame] at taken equal
      by_cases secondSame : second = slot
      · rw [secondSame, Function.update_self] at equal
        exact absurd equal (absent first)
      · rw [Function.update_of_ne secondSame] at equal
        exact sound.once first second taken equal

theorem CacheSound.insert {symbols : Symbols w} {cache : AddrCache w}
    {addr : BitVec w} (sound : CacheSound symbols cache)
    (absent : ∀ idx, (cache idx).addr ≠ addr) :
    CacheSound symbols
      (addrCacheInsert cache addr (frameText symbols addr)) := by
  unfold addrCacheInsert
  split_ifs with zero
  · exact sound
  · have whole : (frameText symbols addr).take (mttSymbolMax - 1) =
        frameText symbols addr :=
      List.take_of_length_le
        (Nat.le_sub_one_of_lt (length_frameText_lt symbols addr))
    rw [whole]
    dsimp only
    split
    · rename_i slot found
      exact sound.update absent (List.mem_of_find?_eq_some found)
    · refine sound.update absent (List.mem_map.mpr ⟨0, ?_, rfl⟩)
      decide

/-! ## Runs -/

theorem resolveOneFrame_eq {symbols : Symbols w} {cache : AddrCache w}
    (sound : CacheSound symbols cache) (addr : BitVec w) (out : Bytes) :
    (resolveOneFrame symbols cache addr out).1 =
        resolveUncached symbols addr out ∧
      CacheSound symbols (resolveOneFrame symbols cache addr out).2 := by
  unfold resolveOneFrame resolveUncached
  split_ifs with zero
  · exact ⟨rfl, sound⟩
  · cases hit : addrCacheLookup cache addr mttSymbolMax with
    | some found =>
        refine ⟨?_, sound⟩
        rw [symbol_of_lookup sound hit]
        exact List.take_of_length_le
          (Nat.le_sub_one_of_lt (length_frameText_lt symbols addr))
    | none =>
        have absent := addr_ne_of_miss sound zero (by decide) hit
        exact ⟨rfl, sound.insert absent⟩

theorem resolveFrames_eq {symbols : Symbols w} {cache : AddrCache w}
    (sound : CacheSound symbols cache) (frames : List (StackFrame w)) :
    (resolveFrames symbols cache frames).1 =
        frames.map (fun frame =>
          { frame with
            resolved := resolveUncached symbols frame.frame frame.resolved }) ∧
      CacheSound symbols (resolveFrames symbols cache frames).2 := by
  induction frames generalizing cache with
  | nil => exact ⟨rfl, sound⟩
  | cons frame rest induction =>
      obtain ⟨text, laterSound⟩ :=
        resolveOneFrame_eq sound frame.frame frame.resolved
      obtain ⟨texts, lastSound⟩ := induction laterSound
      simp only [resolveFrames, List.map_cons]
      exact ⟨by rw [text, texts], lastSound⟩

theorem mttStackResolve_eq {symbols : Symbols w} {cache : AddrCache w}
    (sound : CacheSound symbols cache) (entry : StackEntry w) :
    (mttStackResolve symbols cache entry).1 =
        stackResolveUncached symbols entry ∧
      CacheSound symbols (mttStackResolve symbols cache entry).2 := by
  unfold mttStackResolve stackResolveUncached
  split_ifs with resolved
  · exact ⟨rfl, sound⟩
  · obtain ⟨texts, laterSound⟩ := resolveFrames_eq sound entry.frames
    dsimp only
    exact ⟨by rw [texts], laterSound⟩

theorem resolveEntries_eq {symbols : Symbols w} {cache : AddrCache w}
    (sound : CacheSound symbols cache) (entries : List (StackEntry w)) :
    (resolveEntries symbols cache entries).1 =
        entries.map (stackResolveUncached symbols) ∧
      CacheSound symbols (resolveEntries symbols cache entries).2 := by
  induction entries generalizing cache with
  | nil => exact ⟨rfl, sound⟩
  | cons entry rest induction =>
      obtain ⟨first, laterSound⟩ := mttStackResolve_eq sound entry
      obtain ⟨others, lastSound⟩ := induction laterSound
      simp only [resolveEntries, List.map_cons]
      exact ⟨by rw [first, others], lastSound⟩

/-- Whatever stacks are resolved, in whatever order, their texts are those
without the cache; a lookup never gives the text of another address, and no
address is in two slots. -/
theorem resolveEntries_uncached (symbols : Symbols w)
    (entries : List (StackEntry w)) :
    (resolveEntries symbols .empty entries).1 =
        entries.map (stackResolveUncached symbols) ∧
      (∀ addr found,
        addrCacheLookup (resolveEntries symbols .empty entries).2 addr
            mttSymbolMax = some found →
          found = frameText symbols addr) ∧
      ∀ first second,
        ((resolveEntries symbols .empty entries).2 first).addr ≠ 0 →
        ((resolveEntries symbols .empty entries).2 first).addr =
            ((resolveEntries symbols .empty entries).2 second).addr →
        first = second := by
  obtain ⟨texts, sound⟩ := resolveEntries_eq (cacheSound_empty symbols) entries
  refine ⟨texts, ?_, sound.once⟩
  intro addr found hit
  rw [symbol_of_lookup sound hit]
  exact List.take_of_length_le
    (Nat.le_sub_one_of_lt (length_frameText_lt symbols addr))

end MemoryTraceTool.SymbolCache
