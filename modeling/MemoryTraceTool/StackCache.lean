import MemoryTraceTool.Lib.Chain
import MemoryTraceTool.Lib.ChainedTable
import MemoryTraceTool.Lib.Transition
import MemoryTraceTool.StackHash

/-!
# The cache of call stacks

`mtt_stack_cache_lookup` returns a pointer to the one entry of a stack and
adds the entry when there is none.  Reports keep these pointers, so that no
entry may move or change.
-/

namespace MemoryTraceTool.StackCache

open Transition

/-- The cache in memory.  `given` are the blocks that `raw_malloc` gave to
it. -/
structure Cache (w : Nat) (Node : Type) where
  memory : Chain.Memory Nat Node
  entry : Node → MttStackEntry w
  count : Nat
  given : Node → Bool

variable {w : Nat} {Node : Type} [DecidableEq Node]

/-- The cache at load time, all of it zero. -/
def Cache.empty (next : Node → Option Node) (entry : Node → MttStackEntry w) :
    Cache w Node :=
  { memory := ⟨fun _ => none, next⟩
    entry
    count := 0
    given := fun _ => false }

/-- The frames as they are stored and compared. -/
def cleanFrames (frames : List (BitVec w)) : List (BitVec w) :=
  frames.map mttFixThumbAddr

def bucketOf (hash : Word) : Nat :=
  (hash &&& BitVec.ofNat 64 (mttStackCacheSize - 1)).toNat

/-- The comparison of an entry with a hash and frames. -/
def Cache.matchesEntry (cache : Cache w Node) (frames : List (BitVec w))
    (node : Node) : Bool :=
  decide ((cache.entry node).hash = mttStackHashCompute frames ∧
    (cache.entry node).frames = cleanFrames frames)

/-- Link a new entry at the head of its bucket. -/
def Cache.add (cache : Cache w Node) (frames : List (BitVec w)) (node : Node) :
    Cache w Node :=
  let hash := mttStackHashCompute frames
  { memory := cache.memory.push (bucketOf hash) node
    entry := Function.update cache.entry node
      { hash, frames := cleanFrames frames }
    count := cache.count + 1
    given := Function.update cache.given node true }

/-- The pointer that is returned, and the cache; `reply` is the answer of
`raw_malloc`.  A chain is at most as long as the cache is large. -/
def mttStackCacheLookup (cache : Cache w Node) (frames : List (BitVec w))
    (reply : Option Node) : Option Node × Cache w Node :=
  if frames = [] then (none, cache)
  else
    let bucket := bucketOf (mttStackHashCompute frames)
    match Chain.Memory.locate cache.memory.next (cache.matchesEntry frames)
      (mttStackCacheSize + 1) none (cache.memory.head bucket) with
    | some (_, node) => (some node, cache)
    | none =>
        if mttStackCacheSize ≤ cache.count then (none, cache)
        else
          match reply with
          | none => (none, cache)
          | some node => (some node, cache.add frames node)

/-- A lookup and the answer of `raw_malloc` to it. -/
structure Lookup (w : Nat) (Node : Type) where
  frames : List (BitVec w)
  reply : Option Node
  deriving DecidableEq

/-- The stack has 1 to 64 frames, and `raw_malloc` gives no block that the
cache has. -/
def Lookup.Allowed (lookup : Lookup w Node) (cache : Cache w Node) : Prop :=
  0 < lookup.frames.length ∧ lookup.frames.length ≤ mttStackDepth ∧
    ∀ node ∈ lookup.reply, cache.given node = false

instance (lookup : Lookup w Node) (cache : Cache w Node) :
    Decidable (lookup.Allowed cache) :=
  inferInstanceAs (Decidable (_ ∧ _ ∧ _))

/-- Lookups on a cache that was empty at first. -/
def cacheSystem (w : Nat) (Node : Type) [DecidableEq Node] :
    System (Cache w Node) (Lookup w Node) where
  init := fun cache => ∃ next entry, cache = Cache.empty next entry
  next := fun cache lookup =>
    if lookup.Allowed cache then
      some (mttStackCacheLookup cache lookup.frames lookup.reply).2
    else none

/-! ## Hashes and stored frames -/

theorem mttFixThumbAddr_idem (address : BitVec w) :
    mttFixThumbAddr (mttFixThumbAddr address) = mttFixThumbAddr address := by
  unfold mttFixThumbAddr
  rw [BitVec.and_assoc, BitVec.and_self]

theorem cleanFrames_idem (frames : List (BitVec w)) :
    cleanFrames (cleanFrames frames) = cleanFrames frames := by
  unfold cleanFrames
  rw [List.map_map]
  apply List.map_congr_left
  intro address _
  exact mttFixThumbAddr_idem address

theorem mttStackHashCompute_cleanFrames (frames : List (BitVec w)) :
    mttStackHashCompute (cleanFrames frames) = mttStackHashCompute frames := by
  have cleaned : ∀ start, ((cleanFrames frames).drop start).map
      mttFixThumbAddr = (frames.drop start).map mttFixThumbAddr := by
    intro start
    unfold cleanFrames
    rw [← List.map_drop]
    exact cleanFrames_idem (frames.drop start)
  unfold mttStackHashCompute
  simp only [cleaned]
  simp [cleanFrames]

theorem hash_eq_of_cleanFrames {frames other : List (BitVec w)}
    (same : cleanFrames frames = cleanFrames other) :
    mttStackHashCompute frames = mttStackHashCompute other := by
  rw [← mttStackHashCompute_cleanFrames, same, mttStackHashCompute_cleanFrames]

theorem bucketOf_lt (hash : Word) : bucketOf hash < mttStackCacheSize := by
  unfold bucketOf
  rw [BitVec.toNat_and]
  exact Nat.lt_of_le_of_lt Nat.and_le_right (by decide)

/-! ## The chains of the cache -/

/-- Each entry is linked into the bucket of its hash, no stack has two
entries, and `count` is their number. -/
structure CacheShape (cache : Cache w Node) (chains : Nat → List Node)
    (place : Node → Option Nat) : Prop where
  represents : Chain.Represents cache.memory chains place
  placed : ∀ node bucket, place node = some bucket →
    bucket = bucketOf (cache.entry node).hash
  hashed : ∀ node, place node ≠ none →
    (cache.entry node).hash = mttStackHashCompute (cache.entry node).frames
  unique : ∀ first second, place first ≠ none → place second ≠ none →
    (cache.entry first).frames = (cache.entry second).frames → first = second
  given : ∀ node, place node ≠ none → cache.given node = true
  count : cache.count = (ChainedTable.collect chains mttStackCacheSize).length
  bounded : cache.count ≤ mttStackCacheSize

/-- The chains of the cache are well formed lists of its entries. -/
def CacheInvariant (cache : Cache w Node) : Prop :=
  ∃ chains place, CacheShape cache chains place

omit [DecidableEq Node] in
theorem length_le_collect (chains : Nat → List Node) {bucket : Nat}
    (inside : bucket < mttStackCacheSize) :
    (chains bucket).length ≤
      (ChainedTable.collect chains mttStackCacheSize).length := by
  have emptied := ChainedTable.length_collect_update chains inside []
  rw [List.length_nil] at emptied
  omega

namespace CacheShape

variable {cache : Cache w Node} {chains : Nat → List Node}
  {place : Node → Option Nat}

omit [DecidableEq Node] in
theorem empty (next : Node → Option Node) (entry : Node → MttStackEntry w) :
    CacheShape (Cache.empty next entry) (fun _ => []) (fun _ => none) := by
  constructor
  · exact Chain.Represents.empty next
  · intro node bucket there
    cases there
  · intro node there
    exact absurd rfl there
  · intro first second there
    exact absurd rfl there
  · intro node there
    exact absurd rfl there
  · simp [Cache.empty, ChainedTable.collect]
  · exact Nat.zero_le _

theorem lookup_cases (shape : CacheShape cache chains place)
    {frames : List (BitVec w)} (nonempty : frames ≠ [])
    (reply : Option Node) :
    (∃ node, place node ≠ none ∧
      (cache.entry node).frames = cleanFrames frames ∧
      mttStackCacheLookup cache frames reply = (some node, cache)) ∨
    (∀ node, place node ≠ none →
      (cache.entry node).frames ≠ cleanFrames frames) ∧
      ((mttStackCacheLookup cache frames reply = (none, cache) ∧
        (cache.count = mttStackCacheSize ∨ reply = none)) ∨
      ∃ node, reply = some node ∧ cache.count < mttStackCacheSize ∧
        mttStackCacheLookup cache frames reply =
          (some node, cache.add frames node)) := by
  let bucket := bucketOf (mttStackHashCompute frames)
  have enough : (chains bucket).length < mttStackCacheSize + 1 := by
    have inside : (chains bucket).length ≤ _ :=
      length_le_collect chains (bucketOf_lt (mttStackHashCompute frames))
    rw [← shape.count] at inside
    have bounded := shape.bounded
    omega
  rcases shape.represents.locate (cache.matchesEntry frames) enough with
    ⟨missing, walked⟩ | ⟨_, node, found, walked⟩
  · right
    constructor
    · intro node there same
      obtain ⟨index, placed⟩ := Option.ne_none_iff_exists'.mp there
      have hash : (cache.entry node).hash = mttStackHashCompute frames := by
        rw [shape.hashed node there, same, mttStackHashCompute_cleanFrames]
      have here : index = bucket := by
        rw [shape.placed node index placed, hash]
      rw [here] at placed
      have member := (shape.represents.placed bucket node).mpr placed
      have passed := List.find?_eq_none.mp missing node member
      exact passed (by simp [Cache.matchesEntry, hash, same])
    · unfold mttStackCacheLookup
      rw [if_neg nonempty]
      simp only [bucket] at walked
      simp only [walked]
      split
      · rename_i full
        have count := Nat.le_antisymm shape.bounded full
        exact .inl ⟨rfl, .inl count⟩
      · rename_i room
        cases reply with
        | none => exact .inl ⟨rfl, .inr rfl⟩
        | some node => exact .inr ⟨node, rfl, Nat.lt_of_not_le room, rfl⟩
  · left
    have matched := List.find?_some found
    simp only [Cache.matchesEntry, decide_eq_true_eq] at matched
    have placed := (shape.represents.placed bucket node).mp
      (List.mem_of_find?_eq_some found)
    refine ⟨node, ?_, matched.2, ?_⟩
    · rw [placed]
      exact Option.some_ne_none _
    · unfold mttStackCacheLookup
      rw [if_neg nonempty]
      simp only [bucket] at walked
      simp only [walked]

/-- A new entry keeps the others where and as they are. -/
theorem add (shape : CacheShape cache chains place)
    {frames : List (BitVec w)} {node : Node}
    (fresh : cache.given node = false)
    (room : cache.count < mttStackCacheSize)
    (absent : ∀ other, place other ≠ none →
      (cache.entry other).frames ≠ cleanFrames frames) :
    CacheShape (cache.add frames node)
      (Function.update chains (bucketOf (mttStackHashCompute frames))
        (node :: chains (bucketOf (mttStackHashCompute frames))))
      (Function.update place node
        (some (bucketOf (mttStackHashCompute frames)))) := by
  have free : place node = none := by
    by_contra there
    rw [shape.given node there] at fresh
    cases fresh
  let bucket := bucketOf (mttStackHashCompute frames)
  let entry : MttStackEntry w :=
    { hash := mttStackHashCompute frames, frames := cleanFrames frames }
  have newEntry : (cache.add frames node).entry node = entry :=
    Function.update_self ..
  have older : ∀ other,
      Function.update place node (some bucket) other ≠ none →
      other = node ∨ place other ≠ none ∧
        (cache.add frames node).entry other = cache.entry other := by
    intro other there
    by_cases same : other = node
    · exact .inl same
    · rw [Function.update_of_ne same] at there
      exact .inr ⟨there, Function.update_of_ne same ..⟩
  constructor
  · exact shape.represents.push free bucket
  · intro other index there
    by_cases same : other = node
    · subst same
      rw [Function.update_self, Option.some.injEq] at there
      rw [newEntry, ← there]
    · rw [Function.update_of_ne same] at there
      rw [shape.placed other index there]
      exact congrArg (fun entry : MttStackEntry w => bucketOf entry.hash)
        (Function.update_of_ne same ..).symm
  · intro other there
    rcases older other there with rfl | ⟨there, kept⟩
    · rw [newEntry]
      exact (mttStackHashCompute_cleanFrames frames).symm
    · rw [kept]
      exact shape.hashed other there
  · intro first second firstThere secondThere same
    rcases older first firstThere with rfl | ⟨firstWas, firstKept⟩
    · rcases older second secondThere with rfl | ⟨secondWas, secondKept⟩
      · rfl
      · rw [newEntry, secondKept] at same
        exact absurd same.symm (absent second secondWas)
    · rcases older second secondThere with rfl | ⟨secondWas, secondKept⟩
      · rw [newEntry, firstKept] at same
        exact absurd same (absent first firstWas)
      · rw [firstKept, secondKept] at same
        exact shape.unique first second firstWas secondWas same
  · intro other there
    by_cases same : other = node
    · rw [same]
      exact Function.update_self ..
    · exact (Function.update_of_ne same ..).trans
        (shape.given other ((older other there).resolve_left same).1)
  · have longer := ChainedTable.length_collect_update chains
      (bucketOf_lt (mttStackHashCompute frames))
      (node :: chains (bucketOf (mttStackHashCompute frames)))
    rw [List.length_cons, ← shape.count] at longer
    have count : (cache.add frames node).count = cache.count + 1 := rfl
    omega
  · exact room

end CacheShape

/-! ## Runs of lookups -/

/-- The node is linked into a bucket. -/
def IsEntry (cache : Cache w Node) (node : Node) : Prop :=
  ∃ bucket chain, bucket < mttStackCacheSize ∧
    Chain.Linked cache.memory.next (cache.memory.head bucket) chain ∧
    node ∈ chain

/-- The entries stay where they are, with the same hash and frames. -/
def Extends (before after : Cache w Node) : Prop :=
  ∀ node, IsEntry before node →
    IsEntry after node ∧ after.entry node = before.entry node

omit [DecidableEq Node] in
theorem CacheShape.isEntry_iff {cache : Cache w Node}
    {chains : Nat → List Node} {place : Node → Option Nat}
    (shape : CacheShape cache chains place) (node : Node) :
    IsEntry cache node ↔ place node ≠ none := by
  constructor
  · rintro ⟨bucket, chain, _, linked, member⟩
    rw [linked.unique (shape.represents.linked bucket)] at member
    rw [(shape.represents.placed bucket node).mp member]
    exact Option.some_ne_none _
  · intro there
    obtain ⟨bucket, placed⟩ := Option.ne_none_iff_exists'.mp there
    refine ⟨bucket, chains bucket, ?_, shape.represents.linked bucket,
      (shape.represents.placed bucket node).mpr placed⟩
    rw [shape.placed node bucket placed]
    exact bucketOf_lt _

theorem lookup_extends {cache : Cache w Node} {lookup : Lookup w Node}
    (invariant : CacheInvariant cache) (allowed : lookup.Allowed cache) :
    CacheInvariant (mttStackCacheLookup cache lookup.frames lookup.reply).2 ∧
      Extends cache
        (mttStackCacheLookup cache lookup.frames lookup.reply).2 := by
  obtain ⟨chains, place, shape⟩ := invariant
  have nonempty : lookup.frames ≠ [] := by
    intro empty
    have filled := allowed.1
    rw [empty] at filled
    cases filled
  have unchanged : Extends cache cache := fun node there => ⟨there, rfl⟩
  rcases shape.lookup_cases nonempty lookup.reply with
    ⟨node, _, _, hit⟩ | ⟨absent, ⟨missed, _⟩ | ⟨node, given, room, added⟩⟩
  · rw [hit]
    exact ⟨⟨chains, place, shape⟩, unchanged⟩
  · rw [missed]
    exact ⟨⟨chains, place, shape⟩, unchanged⟩
  · rw [added]
    have fresh := allowed.2.2 node given
    have later := shape.add fresh room absent
    refine ⟨⟨_, _, later⟩, ?_⟩
    intro other there
    rw [shape.isEntry_iff] at there
    have different : other ≠ node := by
      rintro rfl
      rw [shape.given other there] at fresh
      cases fresh
    refine ⟨?_, Function.update_of_ne different ..⟩
    rw [later.isEntry_iff, Function.update_of_ne different]
    exact there

theorem cacheNext_extends {cache later : Cache w Node}
    {lookup : Lookup w Node} (invariant : CacheInvariant cache)
    (taken : (cacheSystem w Node).next cache lookup = some later) :
    CacheInvariant later ∧ Extends cache later := by
  simp only [cacheSystem] at taken
  split at taken
  · rename_i allowed
    obtain rfl := Option.some.inj taken
    exact lookup_extends invariant allowed
  · cases taken

theorem steps_extends {cache later : Cache w Node}
    (invariant : CacheInvariant cache)
    (steps : (cacheSystem w Node).StepsBy (fun _ _ => True) cache later) :
    CacheInvariant later ∧ Extends cache later := by
  apply steps.preserves fun passed =>
    CacheInvariant passed ∧ Extends cache passed
  · rintro passed lookup target ⟨passedInvariant, kept⟩ _ taken
    obtain ⟨targetInvariant, extended⟩ :=
      cacheNext_extends passedInvariant taken
    refine ⟨targetInvariant, ?_⟩
    intro node there
    obtain ⟨passedThere, same⟩ := kept node there
    obtain ⟨targetThere, sameAgain⟩ := extended node passedThere
    exact ⟨targetThere, sameAgain.trans same⟩
  · exact ⟨invariant, fun node there => ⟨there, rfl⟩⟩

theorem cacheInvariant_reachable {cache : Cache w Node}
    (reachable : (cacheSystem w Node).Reachable cache) :
    CacheInvariant cache := by
  apply reachable.invariant CacheInvariant
  · rintro _ ⟨next, entry, rfl⟩
    exact ⟨_, _, .empty next entry⟩
  · intro _ _ _ invariant _ taken
    exact (cacheNext_extends invariant taken).1

/-- `count` is the number of the entries in the buckets, and bounded. -/
structure CountsEntries (cache : Cache w Node) (chains : Nat → List Node) :
    Prop where
  linked : ∀ bucket, Chain.Linked cache.memory.next
    (cache.memory.head bucket) (chains bucket)
  distinct : (ChainedTable.collect chains mttStackCacheSize).Nodup
  count : cache.count = (ChainedTable.collect chains mttStackCacheSize).length
  bounded : cache.count ≤ mttStackCacheSize

/-- What a lookup answers, now and after further lookups of the stack. -/
structure AnswersLookup (cache : Cache w Node) (frames : List (BitVec w))
    (reply : Option Node) (result : Option Node × Cache w Node) : Prop where
  entry : ∀ node, result.1 = some node →
    IsEntry result.2 node ∧
      (result.2.entry node).frames = cleanFrames frames ∧
      (result.2.entry node).hash = mttStackHashCompute frames
  null : result.1 = none →
    (∀ node, IsEntry cache node →
      (cache.entry node).frames ≠ cleanFrames frames) ∧
      (cache.count = mttStackCacheSize ∨ reply = none)
  again : ∀ node, result.1 = some node → ∀ later,
    (cacheSystem w Node).StepsBy (fun _ _ => True) result.2 later →
    ∀ other, cleanFrames other = cleanFrames frames → ∀ otherReply,
      mttStackCacheLookup later other otherReply = (some node, later)

theorem lookup_of_isEntry {cache : Cache w Node}
    (invariant : CacheInvariant cache) {node : Node}
    (there : IsEntry cache node) {frames : List (BitVec w)}
    (nonempty : frames ≠ [])
    (stored : (cache.entry node).frames = cleanFrames frames)
    (reply : Option Node) :
    mttStackCacheLookup cache frames reply = (some node, cache) := by
  obtain ⟨chains, place, shape⟩ := invariant
  rw [shape.isEntry_iff] at there
  rcases shape.lookup_cases nonempty reply with
    ⟨found, foundThere, foundStored, hit⟩ | ⟨absent, _⟩
  · rw [hit, shape.unique found node foundThere there
      (foundStored.trans stored.symm)]
  · exact absurd stored (absent node there)

theorem answersLookup {cache : Cache w Node} {lookup : Lookup w Node}
    (invariant : CacheInvariant cache) (allowed : lookup.Allowed cache) :
    AnswersLookup cache lookup.frames lookup.reply
      (mttStackCacheLookup cache lookup.frames lookup.reply) := by
  obtain ⟨laterInvariant, _⟩ := lookup_extends invariant allowed
  have nonempty : lookup.frames ≠ [] := by
    intro empty
    have filled := allowed.1
    rw [empty] at filled
    cases filled
  have entry : ∀ node,
      (mttStackCacheLookup cache lookup.frames lookup.reply).1 = some node →
      IsEntry (mttStackCacheLookup cache lookup.frames lookup.reply).2 node ∧
        ((mttStackCacheLookup cache lookup.frames
          lookup.reply).2.entry node).frames = cleanFrames lookup.frames := by
    obtain ⟨chains, place, shape⟩ := invariant
    intro node returned
    rcases shape.lookup_cases nonempty lookup.reply with
      ⟨found, there, stored, hit⟩ | ⟨absent, ⟨missed, _⟩ | ⟨new, given, room,
        added⟩⟩
    · rw [hit] at returned ⊢
      obtain rfl := Option.some.inj returned
      exact ⟨(shape.isEntry_iff found).mpr there, stored⟩
    · rw [missed] at returned
      cases returned
    · rw [added] at returned ⊢
      obtain rfl := Option.some.inj returned
      have later := shape.add (allowed.2.2 new given) room absent
      refine ⟨(later.isEntry_iff new).mpr ?_, ?_⟩
      · rw [Function.update_self]
        exact Option.some_ne_none _
      · simp only [Cache.add, Function.update_self]
  constructor
  · intro node returned
    obtain ⟨there, stored⟩ := entry node returned
    obtain ⟨chains, place, shape⟩ := laterInvariant
    refine ⟨there, stored, ?_⟩
    rw [shape.hashed node ((shape.isEntry_iff node).mp there), stored,
      mttStackHashCompute_cleanFrames]
  · obtain ⟨chains, place, shape⟩ := invariant
    intro null
    rcases shape.lookup_cases nonempty lookup.reply with
      ⟨found, _, _, hit⟩ | ⟨absent, ⟨_, reason⟩ | ⟨new, _, _, added⟩⟩
    · rw [hit] at null
      cases null
    · refine ⟨?_, reason⟩
      intro node there
      exact absent node ((shape.isEntry_iff node).mp there)
    · rw [added] at null
      cases null
  · intro node returned later steps other same reply
    obtain ⟨there, stored⟩ := entry node returned
    obtain ⟨endInvariant, extended⟩ := steps_extends laterInvariant steps
    obtain ⟨stillThere, kept⟩ := extended node there
    apply lookup_of_isEntry endInvariant stillThere
    · rintro rfl
      apply nonempty
      exact List.map_eq_nil_iff.mp same.symm
    · rw [kept, stored, same]

/-- After any lookups: the entries are counted, a lookup answers with the one
entry of the stack or has a reason not to, and no entry moves or changes. -/
theorem stackCache_answers {cache : Cache w Node}
    (reachable : (cacheSystem w Node).Reachable cache) :
    (∃ chains, CountsEntries cache chains) ∧
      (∀ lookup : Lookup w Node, lookup.Allowed cache →
        AnswersLookup cache lookup.frames lookup.reply
          (mttStackCacheLookup cache lookup.frames lookup.reply)) ∧
      (∀ later, (cacheSystem w Node).StepsBy (fun _ _ => True) cache later →
        Extends cache later) ∧
      ∀ frames other : List (BitVec w), cleanFrames frames = cleanFrames other →
        mttStackHashCompute frames = mttStackHashCompute other := by
  have invariant := cacheInvariant_reachable reachable
  refine ⟨?_, ?_, ?_, ?_⟩
  · obtain ⟨chains, place, shape⟩ := invariant
    refine ⟨chains, shape.represents.linked, ?_, shape.count, shape.bounded⟩
    unfold ChainedTable.collect
    rw [List.nodup_flatMap]
    refine ⟨fun bucket _ => shape.represents.distinct bucket, ?_⟩
    apply List.nodup_range.pairwise_of_forall_ne
    intro first _ second _ different node here there
    have firstPlaced := (shape.represents.placed _ node).mp here
    have secondPlaced := (shape.represents.placed _ node).mp there
    rw [firstPlaced, Option.some.injEq] at secondPlaced
    exact different secondPlaced
  · intro lookup allowed
    exact answersLookup invariant allowed
  · intro later steps
    exact (steps_extends invariant steps).2
  · intro frames other same
    exact hash_eq_of_cleanFrames same

/-- Two stacks that differ in bit 0 only, and `raw_malloc` that fails for a
third. -/
def threeLookups : List (Lookup 64 Nat) :=
  [⟨[4097, 8192], some 1⟩, ⟨[4096, 8193], some 2⟩, ⟨[4096], none⟩]

theorem stackCache_answers_threeLookups :
    ∃ cache : Cache 64 Nat, cache.count = 1 ∧
      (∃ chains, CountsEntries cache chains) ∧
      (∀ lookup : Lookup 64 Nat, lookup.Allowed cache →
        AnswersLookup cache lookup.frames lookup.reply
          (mttStackCacheLookup cache lookup.frames lookup.reply)) ∧
      (∀ later, (cacheSystem 64 Nat).StepsBy (fun _ _ => True) cache later →
        Extends cache later) ∧
      ∀ frames other : List (BitVec 64),
        cleanFrames frames = cleanFrames other →
        mttStackHashCompute frames = mttStackHashCompute other := by
  obtain ⟨cache, reachable, counted⟩ :=
    (cacheSystem 64 Nat).exists_reachable_of_run
      (fun cache => cache.count == 1) threeLookups
      (show (cacheSystem 64 Nat).init
        (Cache.empty (fun _ => none) fun _ => ⟨0, []⟩) from ⟨_, _, rfl⟩)
      (by decide +kernel)
  exact ⟨cache, by simpa using counted, stackCache_answers reachable⟩

end MemoryTraceTool.StackCache
