import Mathlib.Algebra.Order.BigOperators.Group.List
import Mathlib.Order.Bounds.Basic
import MemoryTraceTool.LeakSites

/-!
# Ages of leak sites

What a scan says about the time span of a site and about expired blocks.  The
snapshot lists the blocks bucket by bucket, not by age, and a site is updated
block by block.
-/

namespace MemoryTraceTool

/-- Stage 4.6 counts the expired sites. -/
def expiredAllocCount (table : LeakTable w) : Nat :=
  table.sorted.countP MttLeakSite.isExpired

/-- The times of the blocks of a key. -/
def timesOf (snaps : List (MttAllocSnap w)) (key : Word) : Set Int :=
  fun time => ∃ snap ∈ blocksOf snaps key, snap.timestamp = time

/-- The site fields and the counter say when the blocks of each key were
allocated and which of them are older than the threshold. -/
structure DescribesTimes (clock : ScanClock) (table : LeakTable w)
    (snaps : List (MttAllocSnap w)) : Prop where
  firstSeen : ∀ site ∈ table.sites,
    IsLeast (timesOf snaps site.stackHash) site.firstSeen
  lastSeen : ∀ site ∈ table.sites,
    IsGreatest (timesOf snaps site.stackHash) site.lastSeen
  isExpired : ∀ site ∈ table.sites, site.isExpired = true ↔
    0 < clock.leakThresholdSec ∧ ∃ snap ∈ blocksOf snaps site.stackHash,
      clock.leakThresholdSec < clock.now - snap.timestamp
  expired : expiredAllocCount table =
    snaps.countP fun snap => clock.expired snap.timestamp

/-- The first block of each key in the snapshot is its oldest. -/
def OldestFirst (snaps : List (MttAllocSnap w)) : Prop :=
  ∀ snap ∈ snaps, ∀ first ∈ (blocksOf snaps (snapKey snap)).head?,
    first.timestamp ≤ snap.timestamp

/-- Blocks with one key were allocated at the same time. -/
def EvenAges (snaps : List (MttAllocSnap w)) : Prop :=
  ∀ first ∈ snaps, ∀ second ∈ snaps, snapKey first = snapKey second →
    first.timestamp = second.timestamp

/-- No two expired blocks have the same key. -/
def ExpiredApart (clock : ScanClock) (snaps : List (MttAllocSnap w)) : Prop :=
  ∀ snap ∈ snaps, ((blocksOf snaps (snapKey snap)).countP fun block =>
    clock.expired block.timestamp) ≤ 1

def NoneExpired (clock : ScanClock) (snaps : List (MttAllocSnap w)) : Prop :=
  ∀ snap ∈ snaps, clock.expired snap.timestamp = false

/-- The scan can have the array of its sites, and a site for each key. -/
structure SitesAllocated (failures : LeakFailures)
    (snaps : List (MttAllocSnap w)) : Prop where
  leakSite : ∀ request < (snaps.map snapKey).dedup.length,
    failures.leakSite request = false
  sorted : failures.sorted = false

/-- As many requests for a site fail as there are blocks. -/
def NoSites (failures : LeakFailures) (snaps : List (MttAllocSnap w)) :
    Prop :=
  ∀ request < snaps.length, failures.leakSite request = true

instance (snaps : List (MttAllocSnap w)) : Decidable (OldestFirst snaps) := by
  unfold OldestFirst
  infer_instance

instance (clock : ScanClock) (snaps : List (MttAllocSnap w)) :
    Decidable (ExpiredApart clock snaps) := by
  unfold ExpiredApart
  infer_instance

/-! ## One site -/

theorem mem_blocksOf {snaps : List (MttAllocSnap w)} {key : Word}
    {snap : MttAllocSnap w} :
    snap ∈ blocksOf snaps key ↔ snap ∈ snaps ∧ snapKey snap = key := by
  simp [blocksOf]

/-- What the times of a site are, for blocks in their order. -/
structure SiteTimes (clock : ScanClock) (site : MttLeakSite w)
    (blocks : List (MttAllocSnap w)) : Prop where
  firstSeen : ∀ first ∈ blocks.head?, site.firstSeen = first.timestamp
  reached : ∃ snap ∈ blocks, snap.timestamp = site.lastSeen
  lastSeen : ∀ snap ∈ blocks, snap.timestamp ≤ site.lastSeen
  isExpired : site.isExpired =
    blocks.any fun snap => clock.expired snap.timestamp

theorem siteTimes_newLeakSite {clock : ScanClock} {hash : Word}
    {snap : MttAllocSnap w} (positive : 0 < snap.timestamp) :
    SiteTimes clock (newLeakSite clock hash snap) [snap] := by
  constructor
  · intro first member
    rw [List.head?_cons, Option.mem_some_iff] at member
    subst member
    exact if_pos positive
  · exact ⟨snap, List.mem_singleton_self snap, rfl⟩
  · intro other member
    rw [List.mem_singleton] at member
    rw [member]
    rfl
  · simp [newLeakSite]

theorem SiteTimes.add {clock : ScanClock} {site : MttLeakSite w}
    {blocks : List (MttAllocSnap w)} {snap : MttAllocSnap w}
    (times : SiteTimes clock site blocks)
    (positive : ∀ block ∈ blocks, 0 < block.timestamp) :
    SiteTimes clock (addToLeakSite clock site snap) (blocks ++ [snap]) := by
  obtain ⟨last, inside, latest⟩ := times.reached
  constructor
  · intro first member
    have nonempty : blocks ≠ [] := List.ne_nil_of_mem inside
    rw [List.head?_append_of_ne_nil _ nonempty] at member
    have seen := times.firstSeen first member
    have later : site.firstSeen ≠ 0 := by
      have after := positive first (List.mem_of_mem_head? member)
      omega
    simpa [addToLeakSite, later] using seen
  · by_cases newer : site.lastSeen < snap.timestamp
    · refine ⟨snap, List.mem_append_right _ (List.mem_singleton_self snap), ?_⟩
      simp [addToLeakSite, newer]
    · refine ⟨last, List.mem_append_left _ inside, ?_⟩
      simp [addToLeakSite, newer, latest]
  · intro block member
    simp only [addToLeakSite]
    rcases List.mem_append.mp member with earlier | isLast
    · have bound := times.lastSeen block earlier
      split <;> omega
    · rw [List.mem_singleton] at isLast
      subst isLast
      split <;> omega
  · simp only [addToLeakSite, times.isExpired, List.any_append, List.any_cons,
      List.any_nil, Bool.or_false]
    cases blocks.any fun snap => clock.expired snap.timestamp <;> rfl

theorem siteOf_times {clock : ScanClock} {blocks : List (MttAllocSnap w)}
    {site : MttLeakSite w}
    (positive : ∀ block ∈ blocks, 0 < block.timestamp)
    (found : siteOf clock blocks = some site) :
    SiteTimes clock site blocks := by
  unfold siteOf at found
  induction blocks using List.reverseRecOn generalizing site with
  | nil => cases found
  | append_singleton blocks snap induction =>
      have earlier : ∀ block ∈ blocks, 0 < block.timestamp :=
        fun block member => positive block (List.mem_append_left _ member)
      rw [Grouping.summary_concat, Option.some.injEq] at found
      subst found
      cases before : Grouping.summary (leakRule clock snapKey) blocks with
      | none =>
          rw [Grouping.summary_eq_none_iff] at before
          subst before
          exact siteTimes_newLeakSite (positive snap List.mem_cons_self)
      | some site => exact (induction earlier before).add earlier

variable {clock : ScanClock} {cache : MttStackCache w}
  {snaps : List (MttAllocSnap w)}

theorem siteTimes_of_mem (positive : ∀ snap ∈ snaps, 0 < snap.timestamp)
    {site : MttLeakSite w}
    (member : site ∈ (scanLeakTable clock cache snaps).sites) :
    SiteTimes clock site (blocksOf snaps site.stackHash) := by
  apply siteOf_times
  · intro block inside
    exact positive block (mem_blocksOf.mp inside).1
  · exact (mem_sites_iff.mp member).2

theorem exists_site (clock : ScanClock) (cache : MttStackCache w)
    (few : (snaps.map snapKey).dedup.length ≤ mttLeakDedupSize)
    {snap : MttAllocSnap w} (member : snap ∈ snaps) :
    ∃ site ∈ (scanLeakTable clock cache snaps).sites,
      site.stackHash = snapKey snap := by
  have admitted := (mem_admittedKeys_iff few).mpr (List.mem_map_of_mem member)
  have key := (perm_siteKeys clock cache snaps).mem_iff.mpr admitted
  exact List.mem_map.mp key

theorem SiteTimes.isLeast_iff {site : MttLeakSite w}
    (times : SiteTimes clock site (blocksOf snaps site.stackHash)) :
    IsLeast (timesOf snaps site.stackHash) site.firstSeen ↔
      ∀ first ∈ (blocksOf snaps site.stackHash).head?,
        ∀ snap ∈ blocksOf snaps site.stackHash,
          first.timestamp ≤ snap.timestamp := by
  obtain ⟨last, inside, _⟩ := times.reached
  constructor
  · intro least first isFirst snap member
    rw [← times.firstSeen first isFirst]
    exact least.2 ⟨snap, member, rfl⟩
  · intro oldest
    obtain ⟨first, isFirst⟩ : ∃ first,
        first ∈ (blocksOf snaps site.stackHash).head? := by
      cases blocks : blocksOf snaps site.stackHash with
      | nil =>
          rw [blocks] at inside
          cases inside
      | cons first rest => exact ⟨first, rfl⟩
    rw [times.firstSeen first isFirst]
    constructor
    · exact ⟨first, List.mem_of_mem_head? isFirst, rfl⟩
    · intro time seen
      obtain ⟨snap, member, rfl⟩ := seen
      exact oldest first isFirst snap member

theorem SiteTimes.isGreatest {site : MttLeakSite w}
    (times : SiteTimes clock site (blocksOf snaps site.stackHash)) :
    IsGreatest (timesOf snaps site.stackHash) site.lastSeen := by
  constructor
  · exact times.reached
  · intro time seen
    obtain ⟨snap, member, rfl⟩ := seen
    exact times.lastSeen snap member

theorem SiteTimes.isExpired_iff {site : MttLeakSite w}
    {blocks : List (MttAllocSnap w)} (times : SiteTimes clock site blocks) :
    site.isExpired = true ↔
      0 < clock.leakThresholdSec ∧ ∃ snap ∈ blocks,
        clock.leakThresholdSec < clock.now - snap.timestamp := by
  rw [times.isExpired, List.any_eq_true]
  simp only [ScanClock.expired, decide_eq_true_eq]
  constructor
  · intro expired
    obtain ⟨snap, member, enabled, older⟩ := expired
    exact ⟨enabled, snap, member, older⟩
  · intro expired
    obtain ⟨enabled, snap, member, older⟩ := expired
    exact ⟨snap, member, enabled, older⟩

theorem firstSeen_iff_oldestFirst
    (positive : ∀ snap ∈ snaps, 0 < snap.timestamp)
    (few : (snaps.map snapKey).dedup.length ≤ mttLeakDedupSize) :
    (∀ site ∈ (scanLeakTable clock cache snaps).sites,
      IsLeast (timesOf snaps site.stackHash) site.firstSeen) ↔
        OldestFirst snaps := by
  constructor
  · intro least snap member first isFirst
    obtain ⟨site, present, same⟩ := exists_site clock cache few member
    have times := siteTimes_of_mem positive present
    rw [← same] at isFirst
    apply times.isLeast_iff.mp (least site present) first isFirst
    rw [same]
    exact mem_blocksOf.mpr ⟨member, rfl⟩
  · intro oldest site present
    apply (siteTimes_of_mem positive present).isLeast_iff.mpr
    intro first isFirst snap member
    obtain ⟨inside, same⟩ := mem_blocksOf.mp member
    rw [← same] at isFirst
    exact oldest snap inside first isFirst

/-! ## The number of expired blocks -/

theorem sum_map_eq_iff {items : List Item} {lower upper : Item → Nat}
    (below : ∀ item ∈ items, lower item ≤ upper item) :
    (items.map lower).sum = (items.map upper).sum ↔
      ∀ item ∈ items, lower item = upper item := by
  constructor
  · intro same item member
    by_contra different
    have less := List.sum_lt_sum lower upper below
      ⟨item, member, Nat.lt_of_le_of_ne (below item member) different⟩
    exact Nat.ne_of_lt less same
  · intro same
    rw [List.map_congr_left same]

/-- The expired blocks of one key. -/
def expiredOf (clock : ScanClock) (snaps : List (MttAllocSnap w))
    (key : Word) : Nat :=
  (blocksOf snaps key).countP fun block => clock.expired block.timestamp

theorem countP_eq_sum_map (items : List Item) (test : Item → Bool) :
    items.countP test = (items.map fun item => (test item).toNat).sum := by
  induction items with
  | nil => rfl
  | cons item items induction =>
      rw [List.countP_cons, List.map_cons, List.sum_cons, induction,
        Nat.add_comm]
      cases test item <;> rfl

/-- The counter counts each key with an expired block once. -/
theorem expiredAllocCount_eq
    (positive : ∀ snap ∈ snaps, 0 < snap.timestamp) :
    expiredAllocCount (scanLeakTable clock cache snaps) =
      ((scanLeakTable clock cache snaps).sites.map fun site =>
        min 1 (expiredOf clock snaps site.stackHash)).sum := by
  rw [expiredAllocCount, (sorted_perm clock cache snaps).countP_eq,
    countP_eq_sum_map]
  apply congrArg List.sum
  apply List.map_congr_left
  intro site member
  rw [(siteTimes_of_mem positive member).isExpired, expiredOf]
  cases any : (blocksOf snaps site.stackHash).any fun snap =>
      clock.expired snap.timestamp with
  | false =>
      have none : (blocksOf snaps site.stackHash).countP (fun block =>
          clock.expired block.timestamp) = 0 := by
        rw [List.countP_eq_zero]
        intro block inside expired
        rw [List.any_eq_false] at any
        exact any block inside expired
      rw [none]
      rfl
  | true =>
      obtain ⟨block, inside, expired⟩ := List.any_eq_true.mp any
      have some : 0 < (blocksOf snaps site.stackHash).countP (fun block =>
          clock.expired block.timestamp) :=
        List.countP_pos_iff.mpr ⟨block, inside, expired⟩
      exact (Nat.min_eq_left some).symm

theorem countP_expired_eq (cache : MttStackCache w)
    (few : (snaps.map snapKey).dedup.length ≤ mttLeakDedupSize) :
    (snaps.countP fun snap => clock.expired snap.timestamp) =
      ((scanLeakTable clock cache snaps).sites.map fun site =>
        expiredOf clock snaps site.stackHash).sum := by
  rw [countP_eq_sum_map, ← sum_blocksOf few clock cache]
  simp only [expiredOf, countP_eq_sum_map]

theorem expired_iff_expiredApart
    (positive : ∀ snap ∈ snaps, 0 < snap.timestamp)
    (few : (snaps.map snapKey).dedup.length ≤ mttLeakDedupSize) :
    (expiredAllocCount (scanLeakTable clock cache snaps) =
      snaps.countP fun snap => clock.expired snap.timestamp) ↔
        ExpiredApart clock snaps := by
  rw [expiredAllocCount_eq positive, countP_expired_eq cache few,
    sum_map_eq_iff fun _ _ => Nat.min_le_right 1 _]
  constructor
  · intro single snap member
    obtain ⟨site, present, same⟩ := exists_site clock cache few member
    have one := single site present
    rw [same] at one
    have bound : expiredOf clock snaps (snapKey snap) ≤ 1 := by omega
    exact bound
  · intro apart site present
    apply Nat.min_eq_right
    obtain ⟨snap, inside, _⟩ := (siteTimes_of_mem positive present).reached
    obtain ⟨member, same⟩ := mem_blocksOf.mp inside
    rw [← same]
    exact apart snap member

/-! ## A scan whose allocations succeed -/

theorem describesTimes_iff
    (positive : ∀ snap ∈ snaps, 0 < snap.timestamp)
    (few : (snaps.map snapKey).dedup.length ≤ mttLeakDedupSize) :
    DescribesTimes clock (scanLeakTable clock cache snaps) snaps ↔
      OldestFirst snaps ∧ ExpiredApart clock snaps := by
  constructor
  · intro describes
    exact ⟨(firstSeen_iff_oldestFirst positive few).mp describes.firstSeen,
      (expired_iff_expiredApart positive few).mp describes.expired⟩
  · intro both
    obtain ⟨oldest, apart⟩ := both
    constructor
    · exact (firstSeen_iff_oldestFirst positive few).mpr oldest
    · exact fun site member => (siteTimes_of_mem positive member).isGreatest
    · exact fun site member =>
        (siteTimes_of_mem positive member).isExpired_iff
    · exact (expired_iff_expiredApart positive few).mpr apart

/-! ## A scan whose allocations may fail -/

variable {failures : LeakFailures}

theorem keptSnaps_sublist (failures : LeakFailures)
    (snaps : List (MttAllocSnap w)) :
    (keptSnaps failures snaps).Sublist snaps :=
  Grouping.keep_sublist _ _ _ snaps

theorem keptSnaps_few
    (few : (snaps.map snapKey).dedup.length ≤ mttLeakDedupSize) :
    ((keptSnaps failures snaps).map snapKey).dedup.length ≤
      mttLeakDedupSize := by
  have within : ((keptSnaps failures snaps).map snapKey).dedup ⊆
      (snaps.map snapKey).dedup := by
    intro key member
    rw [List.mem_dedup] at member ⊢
    exact ((keptSnaps_sublist failures snaps).map snapKey).subset member
  exact ((List.nodup_dedup _).subperm within).length_le.trans few

theorem scanLeakTableWith_sites (clock : ScanClock)
    (failures : LeakFailures) (cache : MttStackCache w)
    (snaps : List (MttAllocSnap w)) :
    (scanLeakTableWith failures clock cache snaps).sites =
      (scanLeakTable clock cache (keptSnaps failures snaps)).sites := by
  simp only [scanLeakTable, scanLeakTableWith,
    dedup_table_kept clock failures cache cache]

theorem scanLeakTableWith_sorted (clock : ScanClock)
    (failures : LeakFailures) (cache : MttStackCache w)
    (snaps : List (MttAllocSnap w)) :
    (scanLeakTableWith failures clock cache snaps).sorted =
      if failures.sorted then []
      else (scanLeakTable clock cache (keptSnaps failures snaps)).sorted := by
  simp only [scanLeakTable, scanLeakTableWith,
    dedup_table_kept clock failures cache cache]
  rfl

/-- The blocks that a scan keeps are all blocks, if each key gets its
site. -/
theorem keptSnaps_eq_self
    (granted : ∀ request < (snaps.map snapKey).dedup.length,
      failures.leakSite request = false) :
    keptSnaps failures snaps = snaps := by
  apply (Grouping.keep_eq_self_iff snaps).mpr
  intro request below
  apply granted request
  have within : Grouping.admitted (leakRule ⟨0, 0⟩ snapKey) mttLeakDedupSize
      snaps ⊆ (snaps.map snapKey).dedup :=
    fun key member => List.mem_dedup.mpr (Grouping.mem_keys_of_admitted member)
  exact Nat.lt_of_lt_of_le below
    ((Grouping.nodup_admitted snaps).subperm within).length_le

theorem DescribesTimes.congr {table other : LeakTable w}
    (describes : DescribesTimes clock table snaps)
    (sites : table.sites = other.sites)
    (sorted : table.sorted = other.sorted) :
    DescribesTimes clock other snaps := by
  have expired := describes.expired
  rw [expiredAllocCount, sorted] at expired
  constructor
  · intro site member
    rw [← sites] at member
    exact describes.firstSeen site member
  · intro site member
    rw [← sites] at member
    exact describes.lastSeen site member
  · intro site member
    rw [← sites] at member
    exact describes.isExpired site member
  · exact expired

theorem SitesAllocated.describes_iff
    (allocated : SitesAllocated failures snaps) :
    DescribesTimes clock (scanLeakTableWith failures clock cache snaps) snaps ↔
      DescribesTimes clock (scanLeakTable clock cache snaps) snaps := by
  have kept := keptSnaps_eq_self allocated.leakSite
  have sites := scanLeakTableWith_sites clock failures cache snaps
  have sorted := scanLeakTableWith_sorted clock failures cache snaps
  rw [kept] at sites
  rw [kept, allocated.sorted, if_neg Bool.false_ne_true] at sorted
  constructor
  · exact fun describes => describes.congr sites sorted
  · exact fun describes => describes.congr sites.symm sorted.symm

theorem siteTimes_of_kept (positive : ∀ snap ∈ snaps, 0 < snap.timestamp)
    {site : MttLeakSite w}
    (member : site ∈ (scanLeakTableWith failures clock cache snaps).sites) :
    SiteTimes clock site
      (blocksOf (keptSnaps failures snaps) site.stackHash) := by
  rw [scanLeakTableWith_sites] at member
  apply siteTimes_of_mem _ member
  intro snap kept
  exact positive snap ((keptSnaps_sublist failures snaps).subset kept)

theorem expiredAllocCount_le
    (positive : ∀ snap ∈ snaps, 0 < snap.timestamp)
    (few : (snaps.map snapKey).dedup.length ≤ mttLeakDedupSize) :
    expiredAllocCount (scanLeakTableWith failures clock cache snaps) ≤
      (keptSnaps failures snaps).countP
        fun snap => clock.expired snap.timestamp := by
  have positiveKept : ∀ snap ∈ keptSnaps failures snaps,
      0 < snap.timestamp :=
    fun snap kept =>
      positive snap ((keptSnaps_sublist failures snaps).subset kept)
  rw [expiredAllocCount, scanLeakTableWith_sorted]
  split
  · exact Nat.zero_le _
  · refine Nat.le_trans (Nat.le_of_eq (expiredAllocCount_eq positiveKept)) ?_
    rw [countP_expired_eq cache (keptSnaps_few few)]
    exact List.sum_le_sum fun site _ => Nat.min_le_right _ _

theorem SiteTimes.of_evenAges {site : MttLeakSite w} (even : EvenAges snaps)
    (times : SiteTimes clock site
      (blocksOf (keptSnaps failures snaps) site.stackHash)) :
    SiteTimes clock site (blocksOf snaps site.stackHash) := by
  have within : ∀ snap ∈ blocksOf (keptSnaps failures snaps) site.stackHash,
      snap ∈ blocksOf snaps site.stackHash := by
    intro snap member
    obtain ⟨kept, same⟩ := mem_blocksOf.mp member
    exact mem_blocksOf.mpr
      ⟨(keptSnaps_sublist failures snaps).subset kept, same⟩
  have sameAge : ∀ first ∈ blocksOf snaps site.stackHash,
      ∀ second ∈ blocksOf snaps site.stackHash,
        first.timestamp = second.timestamp := by
    intro first inFirst second inSecond
    obtain ⟨firstMember, firstKey⟩ := mem_blocksOf.mp inFirst
    obtain ⟨secondMember, secondKey⟩ := mem_blocksOf.mp inSecond
    exact even first firstMember second secondMember
      (firstKey.trans secondKey.symm)
  obtain ⟨last, keptLast, lastSeen⟩ := times.reached
  obtain ⟨head, isHead⟩ : ∃ head, head ∈
      (blocksOf (keptSnaps failures snaps) site.stackHash).head? := by
    cases blocks : blocksOf (keptSnaps failures snaps) site.stackHash with
    | nil =>
        rw [blocks] at keptLast
        cases keptLast
    | cons head rest => exact ⟨head, rfl⟩
  have firstSeen := times.firstSeen head isHead
  have keptHead := List.mem_of_mem_head? isHead
  constructor
  · intro first isFirst
    rw [firstSeen]
    exact sameAge head (within head keptHead) first
      (List.mem_of_mem_head? isFirst)
  · exact ⟨last, within last keptLast, lastSeen⟩
  · intro snap member
    rw [← lastSeen]
    exact Int.le_of_eq (sameAge snap member last (within last keptLast))
  · rw [times.isExpired, Bool.eq_iff_iff, List.any_eq_true, List.any_eq_true]
    constructor
    · intro expired
      obtain ⟨snap, member, old⟩ := expired
      exact ⟨snap, within snap member, old⟩
    · intro expired
      obtain ⟨snap, member, old⟩ := expired
      refine ⟨last, keptLast, ?_⟩
      rw [sameAge last (within last keptLast) snap member]
      exact old

theorem SiteTimes.isLeast {site : MttLeakSite w} (even : EvenAges snaps)
    (times : SiteTimes clock site (blocksOf snaps site.stackHash)) :
    IsLeast (timesOf snaps site.stackHash) site.firstSeen := by
  apply times.isLeast_iff.mpr
  intro first isFirst snap member
  obtain ⟨inSnaps, key⟩ := mem_blocksOf.mp member
  obtain ⟨firstIn, firstKey⟩ :=
    mem_blocksOf.mp (List.mem_of_mem_head? isFirst)
  exact Int.le_of_eq (even first firstIn snap inSnaps (firstKey.trans key.symm))

theorem keptSnaps_noSites (none : NoSites failures snaps) :
    keptSnaps failures snaps = [] := by
  have room : 0 < mttLeakDedupSize := by decide
  exact congrArg Grouping.Keeping.items (Grouping.keep_none room none)

/-- Every site has the right times if the blocks of each key have one age, or
if there is no site. -/
theorem sites_described (positive : ∀ snap ∈ snaps, 0 < snap.timestamp)
    (even : EvenAges snaps ∨ NoSites failures snaps) {site : MttLeakSite w}
    (member : site ∈ (scanLeakTableWith failures clock cache snaps).sites) :
    SiteTimes clock site (blocksOf snaps site.stackHash) ∧
      IsLeast (timesOf snaps site.stackHash) site.firstSeen := by
  rcases even with even | none
  · have times := (siteTimes_of_kept positive member).of_evenAges even
    exact ⟨times, times.isLeast even⟩
  · have times := siteTimes_of_kept positive member
    rw [keptSnaps_noSites none] at times
    obtain ⟨snap, absent, -⟩ := times.reached
    cases absent

theorem expired_counted (positive : ∀ snap ∈ snaps, 0 < snap.timestamp)
    (few : (snaps.map snapKey).dedup.length ≤ mttLeakDedupSize)
    (counted : NoneExpired clock snaps ∨
      SitesAllocated failures snaps ∧ ExpiredApart clock snaps) :
    expiredAllocCount (scanLeakTableWith failures clock cache snaps) =
      snaps.countP fun snap => clock.expired snap.timestamp := by
  rcases counted with none | ⟨allocated, apart⟩
  · have nothing : (snaps.countP fun snap => clock.expired snap.timestamp) =
        0 := by
      rw [List.countP_eq_zero]
      intro snap member
      rw [none snap member]
      exact Bool.false_ne_true
    have bound : expiredAllocCount
        (scanLeakTableWith failures clock cache snaps) ≤
          snaps.countP fun snap => clock.expired snap.timestamp :=
      (expiredAllocCount_le positive few).trans
        (keptSnaps_sublist failures snaps).countP_le
    omega
  · have counted : expiredAllocCount (scanLeakTable clock cache snaps) =
        snaps.countP fun snap => clock.expired snap.timestamp :=
      (expired_iff_expiredApart positive few).mpr apart
    rw [← counted, expiredAllocCount, expiredAllocCount,
      scanLeakTableWith_sorted, allocated.sorted,
      keptSnaps_eq_self allocated.leakSite]
    rfl

theorem describesTimes_of_evenAges
    (positive : ∀ snap ∈ snaps, 0 < snap.timestamp)
    (few : (snaps.map snapKey).dedup.length ≤ mttLeakDedupSize)
    (even : EvenAges snaps ∨ NoSites failures snaps)
    (counted : NoneExpired clock snaps ∨
      SitesAllocated failures snaps ∧ ExpiredApart clock snaps) :
    DescribesTimes clock (scanLeakTableWith failures clock cache snaps)
      snaps := by
  constructor
  · exact fun site member => (sites_described positive even member).2
  · exact fun site member =>
      (sites_described positive even member).1.isGreatest
  · exact fun site member =>
      (sites_described positive even member).1.isExpired_iff
  · exact expired_counted positive few counted

/-- The values of a scan that describe the same blocks are the same. -/
structure SameTimes (table other : LeakTable w) : Prop where
  sites : ∀ site ∈ table.sites, ∀ twin ∈ other.sites,
    site.stackHash = twin.stackHash →
      site.firstSeen = twin.firstSeen ∧ site.lastSeen = twin.lastSeen ∧
        site.isExpired = twin.isExpired
  expired : expiredAllocCount table = expiredAllocCount other

theorem DescribesTimes.same {table other : LeakTable w}
    {reordered : List (MttAllocSnap w)}
    (describes : DescribesTimes clock table snaps)
    (also : DescribesTimes clock other reordered)
    (permutation : snaps.Perm reordered) : SameTimes table other := by
  have blocks : ∀ key snap,
      snap ∈ blocksOf snaps key ↔ snap ∈ blocksOf reordered key := by
    intro key snap
    rw [mem_blocksOf, mem_blocksOf, permutation.mem_iff]
  constructor
  · intro site member twin twinMember same
    have times : timesOf snaps site.stackHash =
        timesOf reordered twin.stackHash := by
      rw [← same]
      ext time
      exact exists_congr fun snap => and_congr_left' (blocks _ snap)
    have first := describes.firstSeen site member
    have last := describes.lastSeen site member
    rw [times] at first last
    refine ⟨first.unique (also.firstSeen twin twinMember),
      last.unique (also.lastSeen twin twinMember), ?_⟩
    rw [Bool.eq_iff_iff, describes.isExpired site member,
      also.isExpired twin twinMember, same]
    exact and_congr_right fun _ => exists_congr fun snap =>
      and_congr_left' (same ▸ blocks _ snap)
  · rw [describes.expired, also.expired, permutation.countP_eq]

/-! ## Every order of the snapshot -/

/-- In whatever order the snapshot lists the blocks, the times are right, and
so they are the same. -/
structure TimesRight (clock : ScanClock) (failures : LeakFailures)
    (cache : MttStackCache w) (snaps : List (MttAllocSnap w)) : Prop where
  describes : ∀ reordered, snaps.Perm reordered →
    DescribesTimes clock (scanLeakTableWith failures clock cache reordered)
      reordered
  same : ∀ reordered, snaps.Perm reordered →
    SameTimes (scanLeakTableWith failures clock cache snaps)
      (scanLeakTableWith failures clock cache reordered)

variable {reordered : List (MttAllocSnap w)}

theorem EvenAges.perm (even : EvenAges snaps)
    (permutation : snaps.Perm reordered) : EvenAges reordered := by
  intro first inFirst second inSecond same
  exact even first (permutation.mem_iff.mpr inFirst) second
    (permutation.mem_iff.mpr inSecond) same

theorem NoSites.perm (none : NoSites failures snaps)
    (permutation : snaps.Perm reordered) : NoSites failures reordered := by
  intro request below
  rw [← permutation.length_eq] at below
  exact none request below

theorem NoneExpired.perm (none : NoneExpired clock snaps)
    (permutation : snaps.Perm reordered) : NoneExpired clock reordered :=
  fun snap member => none snap (permutation.mem_iff.mpr member)

theorem dedup_length_perm (permutation : snaps.Perm reordered) :
    (snaps.map snapKey).dedup.length =
      (reordered.map snapKey).dedup.length :=
  (permutation.map snapKey).dedup.length_eq

theorem SitesAllocated.perm (allocated : SitesAllocated failures snaps)
    (permutation : snaps.Perm reordered) :
    SitesAllocated failures reordered := by
  refine ⟨?_, allocated.sorted⟩
  rw [← dedup_length_perm permutation]
  exact allocated.leakSite

theorem ExpiredApart.perm (apart : ExpiredApart clock snaps)
    (permutation : snaps.Perm reordered) : ExpiredApart clock reordered := by
  intro snap member
  have same := (permutation.filter fun other =>
    snapKey other = snapKey snap).countP_eq
      fun block => clock.expired block.timestamp
  rw [blocksOf, ← same]
  exact apart snap (permutation.mem_iff.mpr member)

/-- The first block that is kept gives its time to its site. -/
theorem exists_site_of_head (positive : ∀ snap ∈ snaps, 0 < snap.timestamp)
    (few : (snaps.map snapKey).dedup.length ≤ mttLeakDedupSize)
    {block : MttAllocSnap w} {more : List (MttAllocSnap w)}
    (kept : keptSnaps failures snaps = block :: more) :
    ∃ site ∈ (scanLeakTableWith failures clock cache snaps).sites,
      site.stackHash = snapKey block ∧
        site.firstSeen = block.timestamp := by
  have isKept : block ∈ keptSnaps failures snaps := by
    rw [kept]
    exact List.mem_cons_self
  obtain ⟨site, present, same⟩ :=
    exists_site clock cache (keptSnaps_few few) isKept
  rw [← scanLeakTableWith_sites] at present
  refine ⟨site, present, same, ?_⟩
  apply (siteTimes_of_kept positive present).firstSeen
  simp [kept, same, blocksOf]

/-- The first site that can be had may be that of any block. -/
theorem evenAges_of_describes
    (positive : ∀ snap ∈ snaps, 0 < snap.timestamp)
    (few : (snaps.map snapKey).dedup.length ≤ mttLeakDedupSize)
    (describes : ∀ reordered, snaps.Perm reordered →
      DescribesTimes clock (scanLeakTableWith failures clock cache reordered)
        reordered) : EvenAges snaps ∨ NoSites failures snaps := by
  by_contra neither
  obtain ⟨uneven, sites⟩ := not_or.mp neither
  apply uneven
  intro older inOlder younger inYounger same
  by_contra different
  wlog before : older.timestamp < younger.timestamp
    generalizing older younger
  · exact this younger inYounger older inOlder same.symm
      (Ne.symm different) (by omega)
  obtain ⟨granted, below, succeeds⟩ : ∃ request < snaps.length,
      failures.leakSite request = false := by
    simpa [NoSites] using sites
  have some : ∃ request, failures.leakSite request = false :=
    ⟨granted, succeeds⟩
  have first := Nat.find_min' some succeeds
  have arranged := List.perm_cons_erase inYounger
  have many := arranged.length_eq
  rw [List.length_cons] at many
  have split : ((snaps.erase younger).take (Nat.find some)).length =
      Nat.find some := by
    rw [List.length_take]
    omega
  have permutation : snaps.Perm
      ((snaps.erase younger).take (Nat.find some) ++
        younger :: (snaps.erase younger).drop (Nat.find some)) := by
    refine arranged.trans (List.Perm.trans ?_ List.perm_middle.symm)
    rw [List.take_append_drop]
  obtain ⟨more, -, kept⟩ : ∃ more,
      more.Sublist ((snaps.erase younger).drop (Nat.find some)) ∧
      keptSnaps failures ((snaps.erase younger).take (Nat.find some) ++
        younger :: (snaps.erase younger).drop (Nat.find some)) =
          younger :: more := by
    apply Grouping.keep_first
    · decide
    · intro request earlier
      have failed := Nat.find_min some (split ▸ earlier)
      simpa using failed
    · rw [split]
      exact Nat.find_spec some
  have right := describes _ permutation
  obtain ⟨site, present, key, seen⟩ := exists_site_of_head
    (fun snap member => positive snap (permutation.mem_iff.mpr member))
    (dedup_length_perm permutation ▸ few) kept
  have least := (right.firstSeen site present).2
    ⟨older, mem_blocksOf.mpr ⟨permutation.mem_iff.mp inOlder,
      same.trans key.symm⟩, rfl⟩
  rw [seen] at least
  omega

/-- The first request that fails may be that of any block. -/
theorem granted_of_describes
    (positive : ∀ snap ∈ snaps, 0 < snap.timestamp)
    (few : (snaps.map snapKey).dedup.length ≤ mttLeakDedupSize)
    (describes : ∀ reordered, snaps.Perm reordered →
      DescribesTimes clock (scanLeakTableWith failures clock cache reordered)
        reordered) {snap : MttAllocSnap w} (member : snap ∈ snaps)
    (expired : clock.expired snap.timestamp = true) :
    ∀ request < (snaps.map snapKey).dedup.length,
      failures.leakSite request = false := by
  by_contra fails
  obtain ⟨failing, below, failed⟩ : ∃ request,
      request < (snaps.map snapKey).dedup.length ∧
        failures.leakSite request = true := by
    simpa using fails
  have some : ∃ request, failures.leakSite request = true :=
    ⟨failing, failed⟩
  have first := Nat.find_min' some failed
  obtain ⟨before, rest, permutation, many, distinct, new⟩ :=
    Grouping.exists_perm_behind (leakRule ⟨0, 0⟩ snapKey) member
      (Nat.lt_of_le_of_lt first below)
  obtain ⟨more, within, kept⟩ : ∃ more, more.Sublist rest ∧
      keptSnaps failures (before ++ snap :: rest) = before ++ more := by
    apply Grouping.keep_drops distinct new
    · omega
    · intro request earlier
      have granted := Nat.find_min some (many ▸ earlier)
      simpa using granted
    · rw [many]
      exact Nat.find_spec some
  have right := (describes _ permutation).expired
  have bound : expiredAllocCount (scanLeakTableWith failures clock cache
      (before ++ snap :: rest)) ≤ _ :=
    expiredAllocCount_le
      (fun snap member => positive snap (permutation.mem_iff.mpr member))
      (dedup_length_perm permutation ▸ few)
  have fewer : (more.countP fun snap => clock.expired snap.timestamp) ≤
      rest.countP fun snap => clock.expired snap.timestamp :=
    within.countP_le
  rw [right, kept, List.countP_append, List.countP_append,
    List.countP_cons, if_pos expired] at bound
  omega

theorem sorted_of_describes
    (describes : DescribesTimes clock
      (scanLeakTableWith failures clock cache snaps) snaps)
    {snap : MttAllocSnap w} (member : snap ∈ snaps)
    (expired : clock.expired snap.timestamp = true) :
    failures.sorted = false := by
  by_contra failed
  have counted := describes.expired
  rw [expiredAllocCount, scanLeakTableWith_sorted,
    if_pos (by simpa using failed), List.countP_nil, eq_comm,
    List.countP_eq_zero] at counted
  exact counted snap member expired

theorem timesRight_iff (positive : ∀ snap ∈ snaps, 0 < snap.timestamp)
    (few : (snaps.map snapKey).dedup.length ≤ mttLeakDedupSize) :
    TimesRight clock failures cache snaps ↔
      (EvenAges snaps ∨ NoSites failures snaps) ∧
        (NoneExpired clock snaps ∨
          SitesAllocated failures snaps ∧ ExpiredApart clock snaps) := by
  constructor
  · intro right
    refine ⟨evenAges_of_describes positive few right.describes, ?_⟩
    by_cases none : NoneExpired clock snaps
    · exact .inl none
    · obtain ⟨snap, member, expired⟩ : ∃ snap ∈ snaps,
          clock.expired snap.timestamp = true := by
        simpa [NoneExpired] using none
      have itself := right.describes snaps (List.Perm.refl snaps)
      have allocated : SitesAllocated failures snaps :=
        ⟨granted_of_describes positive few right.describes member expired,
          sorted_of_describes itself member expired⟩
      have describes := allocated.describes_iff.mp itself
      exact .inr ⟨allocated, ((describesTimes_iff positive few).mp describes).2⟩
  · intro condition
    obtain ⟨even, counted⟩ := condition
    have describes : ∀ reordered, snaps.Perm reordered → DescribesTimes clock
        (scanLeakTableWith failures clock cache reordered) reordered := by
      intro reordered permutation
      apply describesTimes_of_evenAges
      · exact fun snap member =>
          positive snap (permutation.mem_iff.mpr member)
      · exact dedup_length_perm permutation ▸ few
      · exact even.imp (fun even => even.perm permutation)
          fun none => none.perm permutation
      · exact counted.imp (fun none => none.perm permutation)
          fun both => ⟨both.1.perm permutation, both.2.perm permutation⟩
    refine ⟨describes, ?_⟩
    intro reordered permutation
    exact (describes snaps (List.Perm.refl snaps)).same
      (describes reordered permutation) permutation

/-- The times of all sites and the number of expired blocks are right, in
every order of the snapshot, exactly when the blocks of each key have one age
and no failed allocation and no second expired block of a key is missed; in
one given order the oldest block of each key need only come first. -/
theorem scanTimes_iff_evenAges
    (positive : ∀ snap ∈ snaps, 0 < snap.timestamp)
    (few : (snaps.map snapKey).dedup.length ≤ mttLeakDedupSize) :
    (TimesRight clock failures cache snaps ↔
      (EvenAges snaps ∨ NoSites failures snaps) ∧
        (NoneExpired clock snaps ∨
          SitesAllocated failures snaps ∧ ExpiredApart clock snaps)) ∧
    (SitesAllocated failures snaps →
      (DescribesTimes clock (scanLeakTableWith failures clock cache snaps)
          snaps ↔
        OldestFirst snaps ∧ ExpiredApart clock snaps)) :=
  ⟨timesRight_iff positive few, fun allocated =>
    allocated.describes_iff.trans (describesTimes_iff positive few)⟩

/-- The sixth request for a site fails. -/
def sixthFails : LeakFailures :=
  { stackEntry := fun _ => true
    leakSite := fun request => request = 5
    sorted := false }

theorem scanTimes_iff_evenAges_threeBlocks :
    TimesRight ⟨100, 60⟩ sixthFails (.empty 64)
      [framelessSnap 16 70, framelessSnap 24 20, framelessSnap 16 70] := by
  apply (scanTimes_iff_evenAges (by decide) (by decide)).1.mpr
  refine ⟨.inl ?_, .inr ⟨⟨?_, rfl⟩, by decide⟩⟩
  · unfold EvenAges
    decide
  · decide

/-- Two blocks of one size, the younger one first. -/
theorem scanTimes_wrong_youngerFirst :
    ¬ ∀ (clock : ScanClock) (failures : LeakFailures)
        (cache : MttStackCache 64) (snaps : List (MttAllocSnap 64)),
      (∀ snap ∈ snaps, 0 < snap.timestamp) →
      (snaps.map snapKey).dedup.length ≤ mttLeakDedupSize →
      TimesRight clock failures cache snaps := by
  intro claimed
  have right := claimed ⟨100, 60⟩ .none (.empty 64)
    [framelessSnap 16 20, framelessSnap 16 10] (by decide) (by decide)
  have describes := right.describes _ (List.Perm.refl _)
  have oldest := ((describesTimes_iff (by decide) (by decide)).mp
    describes).1
  exact absurd oldest (by decide)

end MemoryTraceTool
