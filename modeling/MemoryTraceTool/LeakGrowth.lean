import MemoryTraceTool.LeakTimes

/-!
# Growth of leak sites between scans

Each scan remembers the hashes and sizes of its sites, and the next scan
reports by how much every site has grown since.  A key without a site in the
earlier scan counts as having had no bytes.
-/

namespace MemoryTraceTool

/-- One scan: its snapshot, and whether its report file can be opened. -/
structure Scan (w : Nat) where
  clock : ScanClock
  snaps : List (MttAllocSnap w)
  reportOpens : Bool

/-- What the reporter keeps from one scan to the next; `prevDiff` pairs the
arrays `prev_diff_hashes` and `prev_diff_sizes`. -/
structure Reporter (w : Nat) where
  stackCache : MttStackCache w
  leakBytesTotal : BitVec w
  expiredAllocCount : Nat
  prevDiff : List (Word × BitVec w)
  prevScanTime : Int
  cachedSites : List (MttLeakSite w)

/-- The remembered total of a key, or 0. -/
def prevTotal (prevDiff : List (Word × BitVec w)) (hash : Word) : BitVec w :=
  match prevDiff.find? fun pair => pair.1 = hash with
  | some pair => pair.2
  | none => 0

/-- Stage 4.5. -/
def setDiffSize (prevDiff : List (Word × BitVec w)) (site : MttLeakSite w) :
    MttLeakSite w :=
  { site with
    diffSize :=
      if prevTotal prevDiff site.stackHash < site.totalSize then
        site.totalSize - prevTotal prevDiff site.stackHash
      else 0 }

/-- Stages 2 to 7 of `scan_and_report_locked`, with the sites it writes to the
report. -/
def scanAndReport (reporter : Reporter w) (scan : Scan w) :
    Reporter w × List (MttLeakSite w) :=
  let table := scanLeakTable scan.clock reporter.stackCache scan.snaps
  let sorted := table.sorted.map (setDiffSize reporter.prevDiff)
  let counted : Reporter w :=
    { reporter with
      stackCache := table.cache
      leakBytesTotal := table.leakBytesTotal
      expiredAllocCount := expiredAllocCount table }
  if scan.reportOpens then
    ({ counted with
        prevDiff := sorted.map fun site => (site.stackHash, site.totalSize)
        prevScanTime := scan.clock.now
        cachedSites := sorted },
      sorted)
  else (counted, [])

/-- One scan after the other, from what the first one finds. -/
def runScans (reporter : Reporter w) (scans : List (Scan w)) : Reporter w :=
  scans.foldl (fun reporter scan => (scanAndReport reporter scan).1) reporter

/-- A reported growth is a growth of the live bytes, by that amount. -/
def GrowthIsReal (before after : List (MttAllocSnap w))
    (report : List (MttLeakSite w)) : Prop :=
  ∀ site ∈ report, 0 < site.diffSize →
    liveBytes before site.stackHash < liveBytes after site.stackHash ∧
      site.diffSize =
        liveBytes after site.stackHash - liveBytes before site.stackHash

/-- A key that has live bytes in both snapshots and gets a site in the later
one also gets a site in the earlier one. -/
def SitesPersist (before after : List (MttAllocSnap w)) : Prop :=
  ∀ key ∈ admittedKeys after, liveBytes after key ≠ 0 →
    liveBytes before key ≠ 0 → key ∈ admittedKeys before

/-! ## Two scans -/

theorem mem_sorted_totalSize {clock : ScanClock} {cache : MttStackCache w}
    {snaps : List (MttAllocSnap w)} {site : MttLeakSite w}
    (member : site ∈ (scanLeakTable clock cache snaps).sorted) :
    site.totalSize = liveBytes snaps site.stackHash := by
  have inSites := (sorted_perm clock cache snaps).mem_iff.mp member
  exact siteOf_totalSize (mem_sites_iff.mp inSites).2

theorem mem_sortedKeys_iff {clock : ScanClock} {cache : MttStackCache w}
    {snaps : List (MttAllocSnap w)} {key : Word} :
    (∃ site ∈ (scanLeakTable clock cache snaps).sorted,
      site.stackHash = key) ↔ key ∈ admittedKeys snaps := by
  have keys := ((sorted_perm clock cache snaps).map
    MttLeakSite.stackHash).trans (perm_siteKeys clock cache snaps)
  rw [← keys.mem_iff]
  exact List.mem_map.symm

/-- What the reporter remembers of a snapshot. -/
structure Remembers (reporter : Reporter w) (snaps : List (MttAllocSnap w)) :
    Prop where
  total : ∀ key ∈ admittedKeys snaps,
    prevTotal reporter.prevDiff key = liveBytes snaps key
  unknown : ∀ key ∉ admittedKeys snaps, prevTotal reporter.prevDiff key = 0

theorem scanAndReport_remembers (reporter : Reporter w) {scan : Scan w}
    (opens : scan.reportOpens = true) :
    Remembers (scanAndReport reporter scan).1 scan.snaps := by
  have hasSite : ∀ key, (∃ site ∈ (scanLeakTable scan.clock
      reporter.stackCache scan.snaps).sorted, site.stackHash = key) ↔
        key ∈ admittedKeys scan.snaps := fun key => mem_sortedKeys_iff
  constructor
  · intro key admitted
    obtain ⟨site, member, same⟩ := (hasSite key).mpr admitted
    simp only [scanAndReport, opens, if_true, List.map_map]
    unfold prevTotal
    split
    · rename_i pair found
      have sameKey : pair.1 = key := by simpa using List.find?_some found
      obtain ⟨other, otherMember, rfl⟩ :=
        List.mem_map.mp (List.mem_of_find?_eq_some found)
      rw [← sameKey]
      have total := mem_sorted_totalSize otherMember
      exact total
    · rename_i missing
      have absent := List.find?_eq_none.mp missing
      refine (absent (site.stackHash, site.totalSize) ?_ ?_).elim
      · exact List.mem_map.mpr ⟨site, member, rfl⟩
      · exact decide_eq_true same
  · intro key unknown
    simp only [scanAndReport, opens, if_true, List.map_map]
    unfold prevTotal
    split
    · rename_i pair found
      have sameKey : pair.1 = key := by simpa using List.find?_some found
      obtain ⟨site, member, rfl⟩ :=
        List.mem_map.mp (List.mem_of_find?_eq_some found)
      exact (unknown ((hasSite key).mp ⟨site, member, sameKey⟩)).elim
    · rfl

theorem pos_iff_ne_zero {value : BitVec w} : 0 < value ↔ value ≠ 0 := by
  rw [BitVec.lt_def, ne_eq, BitVec.toNat_eq]
  simp only [BitVec.ofNat_eq_ofNat, BitVec.toNat_ofNat, Nat.zero_mod]
  omega

/-- The difference to a remembered total is a real growth, unless the key had
live bytes that are not remembered. -/
theorem diffSize_real_iff {total live : BitVec w} {remembered : Prop}
    {prev diff : BitVec w} (prev_known : remembered → prev = live)
    (prev_unknown : ¬ remembered → prev = 0)
    (diff_eq : diff = if prev < total then total - prev else 0) :
    (0 < diff → live < total ∧ diff = total - live) ↔
      (total ≠ 0 → live ≠ 0 → remembered) := by
  by_cases known : remembered
  · have prev_eq := prev_known known
    subst prev_eq
    constructor
    · exact fun _ _ _ => known
    · intro _ positive
      by_cases grown : prev < total
      · rw [if_pos grown] at diff_eq
        exact ⟨grown, diff_eq⟩
      · rw [if_neg grown] at diff_eq
        exact (pos_iff_ne_zero.mp positive diff_eq).elim
  · have prev_eq := prev_unknown known
    subst prev_eq
    have diff_total : diff = total := by
      by_cases some : 0 < total
      · rw [diff_eq, if_pos some, sub_zero]
      · rw [pos_iff_ne_zero, not_not] at some
        rw [diff_eq, some]
        simp
    rw [diff_total]
    constructor
    · intro real nonzero liveNonzero
      obtain ⟨less, same⟩ := real (pos_iff_ne_zero.mpr nonzero)
      exact (liveNonzero (by simpa using same.symm)).elim
    · intro none positive
      have dead : live = 0 := by
        by_contra liveNonzero
        exact known (none (pos_iff_ne_zero.mp positive) liveNonzero)
      rw [dead]
      exact ⟨positive, (sub_zero _).symm⟩

theorem growthIsReal_iff {reporter : Reporter w}
    {before : List (MttAllocSnap w)} {after : Scan w}
    (remembers : Remembers reporter before)
    (opens : after.reportOpens = true) :
    GrowthIsReal before after.snaps (scanAndReport reporter after).2 ↔
      SitesPersist before after.snaps := by
  have perSite : ∀ site ∈ (scanLeakTable after.clock reporter.stackCache
      after.snaps).sorted,
      (0 < (setDiffSize reporter.prevDiff site).diffSize →
        liveBytes before site.stackHash <
          liveBytes after.snaps site.stackHash ∧
        (setDiffSize reporter.prevDiff site).diffSize =
          liveBytes after.snaps site.stackHash -
            liveBytes before site.stackHash) ↔
      (liveBytes after.snaps site.stackHash ≠ 0 →
        liveBytes before site.stackHash ≠ 0 →
        site.stackHash ∈ admittedKeys before) := by
    intro site member
    apply diffSize_real_iff (remembers.total site.stackHash)
      (remembers.unknown site.stackHash)
    rw [← mem_sorted_totalSize member]
    rfl
  simp only [scanAndReport, opens, if_true]
  constructor
  · intro real key admitted
    have hasSite : ∃ site ∈ (scanLeakTable after.clock reporter.stackCache
        after.snaps).sorted, site.stackHash = key :=
      mem_sortedKeys_iff.mpr admitted
    obtain ⟨site, member, rfl⟩ := hasSite
    exact (perSite site member).mp
      (real _ (List.mem_map_of_mem member))
  · intro persist site member
    obtain ⟨original, present, rfl⟩ := List.mem_map.mp member
    exact (perSite original present).mpr
      (persist _ (mem_sortedKeys_iff.mp ⟨original, present, rfl⟩))

/-! ## Sequences of scans -/

theorem runScans_remembers (reporter : Reporter w) (history : List (Scan w))
    {before : Scan w} (opens : before.reportOpens = true) :
    Remembers (runScans reporter (history ++ [before])) before.snaps := by
  unfold runScans
  rw [List.foldl_append]
  exact scanAndReport_remembers _ opens

theorem growthIsReal_afterScans (reporter : Reporter w)
    (history : List (Scan w)) (before after : Scan w)
    (beforeOpens : before.reportOpens = true)
    (afterOpens : after.reportOpens = true) :
    GrowthIsReal before.snaps after.snaps
        (scanAndReport (runScans reporter (history ++ [before])) after).2 ↔
      SitesPersist before.snaps after.snaps :=
  growthIsReal_iff (runScans_remembers reporter history beforeOpens)
    afterOpens

/-- In a sequence of scans every reported growth is real exactly when no key
that gets a site was left without one by the scan before. -/
theorem reportedGrowth_real_iff (reporter : Reporter w)
    (scans : List (Scan w))
    (opens : ∀ scan ∈ scans, scan.reportOpens = true) :
    (∀ history before after rest,
      scans = history ++ before :: after :: rest →
      GrowthIsReal before.snaps after.snaps
        (scanAndReport (runScans reporter (history ++ [before])) after).2) ↔
    ∀ history before after rest,
      scans = history ++ before :: after :: rest →
      SitesPersist before.snaps after.snaps := by
  have perPair : ∀ history before after rest,
      scans = history ++ before :: after :: rest →
      (GrowthIsReal before.snaps after.snaps
        (scanAndReport (runScans reporter (history ++ [before])) after).2 ↔
      SitesPersist before.snaps after.snaps) := by
    intro history before after rest split
    apply growthIsReal_afterScans reporter history before after
    · exact opens before (by simp [split])
    · exact opens after (by simp [split])
  constructor
  · intro real history before after rest split
    exact (perPair history before after rest split).mp
      (real history before after rest split)
  · intro persist history before after rest split
    exact (perPair history before after rest split).mpr
      (persist history before after rest split)

/-- The reporter before its first scan. -/
def Reporter.start (w : Nat) : Reporter w :=
  { stackCache := .empty w
    leakBytesTotal := 0
    expiredAllocCount := 0
    prevDiff := []
    prevScanTime := 0
    cachedSites := [] }

def framelessScan (snaps : List (MttAllocSnap 64)) : Scan 64 :=
  { clock := ⟨100, 60⟩
    snaps
    reportOpens := true }

/-- A scan of a site, and a scan of the site after it has grown. -/
def smallScan : Scan 64 := framelessScan [framelessSnap 16 10]

def grownScan : Scan 64 :=
  framelessScan [framelessSnap 16 10, framelessSnap 16 20]

theorem reportedGrowth_real_growingScans :
    GrowthIsReal smallScan.snaps grownScan.snaps
      (scanAndReport (runScans (.start 64) [smallScan]) grownScan).2 := by
  have real := (reportedGrowth_real_iff (.start 64) [smallScan, grownScan]
    (by decide)).mpr
  refine real ?_ [] smallScan grownScan [] rfl
  intro history before after rest split
  cases history with
  | nil =>
      cases split
      intro key admitted _ _
      have seen := (mem_admittedKeys_iff (by decide)).mp admitted
      apply (mem_admittedKeys_iff (by decide)).mpr
      simpa [smallScan, grownScan, framelessScan, framelessSnap, snapKey]
        using seen
  | cons scan history =>
      have lengths := congrArg List.length split
      simp only [List.length_cons, List.length_nil, List.length_append]
        at lengths
      omega

/-! ## A full site table -/

/-- Blocks of 2048 different sizes. -/
def crowd : List (MttAllocSnap 64) :=
  (List.range mttLeakDedupSize).map fun index =>
    framelessSnap (BitVec.ofNat 64 (index + 1)) 10

/-- A block of one more size. -/
def latecomer : MttAllocSnap 64 :=
  framelessSnap (BitVec.ofNat 64 (mttLeakDedupSize + 1)) 10

theorem crowd_keys :
    crowd.map snapKey = (List.range mttLeakDedupSize).map fun index =>
      sizeHash (BitVec.ofNat 64 (index + 1)) := by
  simp [crowd, framelessSnap, snapKey]

theorem sizeHash_ofNat_inj {first second : Nat}
    (small : first ≤ mttLeakDedupSize) (also : second ≤ mttLeakDedupSize)
    (same : sizeHash (BitVec.ofNat 64 (first + 1)) =
      sizeHash (BitVec.ofNat 64 (second + 1))) : first = second := by
  have sizes := congrArg BitVec.toNat
    (sizeHash_injective (Nat.le_refl 64) same)
  simp only [BitVec.toNat_ofNat] at sizes
  unfold mttLeakDedupSize at small also
  omega

theorem crowd_nodup : (crowd.map snapKey).Nodup := by
  rw [crowd_keys]
  apply List.Nodup.map_on
  · intro first firstIn second secondIn
    exact sizeHash_ofNat_inj (Nat.le_of_lt (List.mem_range.mp firstIn))
      (Nat.le_of_lt (List.mem_range.mp secondIn))
  · exact List.nodup_range

theorem latecomer_notIn_crowd : snapKey latecomer ∉ crowd.map snapKey := by
  rw [crowd_keys]
  intro member
  obtain ⟨index, inRange, same⟩ := List.mem_map.mp member
  have below := List.mem_range.mp inRange
  have equal := sizeHash_ofNat_inj (Nat.le_of_lt below) (Nat.le_refl _) same
  exact Nat.ne_of_lt below equal

theorem length_admittedKeys_crowd :
    (admittedKeys crowd).length = mttLeakDedupSize := by
  have few : (crowd.map snapKey).dedup.length ≤ mttLeakDedupSize := by
    rw [crowd_nodup.dedup, crowd_keys, List.length_map, List.length_range]
  have distinct : (admittedKeys crowd).Nodup := by
    rw [admittedKeys_eq ⟨0, 0⟩]
    exact Grouping.nodup_admitted crowd
  have permutation : (admittedKeys crowd).Perm (crowd.map snapKey) := by
    rw [List.perm_ext_iff_of_nodup distinct crowd_nodup]
    exact fun _ => mem_admittedKeys_iff few
  rw [permutation.length_eq, crowd_keys, List.length_map, List.length_range]

theorem latecomer_notAdmitted :
    snapKey latecomer ∉ admittedKeys (crowd ++ [latecomer]) := by
  have full : admittedKeys (crowd ++ [latecomer]) = admittedKeys crowd := by
    rw [admittedKeys_eq ⟨0, 0⟩, Grouping.admitted_concat,
      ← admittedKeys_eq ⟨0, 0⟩, Grouping.admitKey, if_pos]
    exact .inr (Nat.le_of_eq length_admittedKeys_crowd.symm)
  rw [full]
  intro admitted
  rw [admittedKeys_eq ⟨0, 0⟩] at admitted
  have seen := Grouping.mem_keys_of_admitted admitted
  exact latecomer_notIn_crowd seen

theorem liveBytes_latecomer :
    liveBytes (crowd ++ [latecomer]) (snapKey latecomer) =
      latecomer.size := by
  have none : blocksOf crowd (snapKey latecomer) = [] := by
    rw [blocksOf, List.filter_eq_nil_iff]
    intro snap member same
    apply latecomer_notIn_crowd
    rw [← of_decide_eq_true same]
    exact List.mem_map_of_mem member
  have blocks : blocksOf (crowd ++ [latecomer]) (snapKey latecomer) =
      [latecomer] := by
    rw [blocksOf, List.filter_append, ← blocksOf, none]
    simp
  rw [liveBytes, blocks]
  simp

/-- A block that found no site in the first scan counts as growth in the
second, although nothing was allocated. -/
theorem reportedGrowth_unreal_latecomer :
    ¬ ∀ (reporter : Reporter 64) (scans : List (Scan 64)),
      (∀ scan ∈ scans, scan.reportOpens = true) →
      ∀ history before after rest,
        scans = history ++ before :: after :: rest →
        GrowthIsReal before.snaps after.snaps
          (scanAndReport (runScans reporter (history ++ [before]))
            after).2 := by
  intro claimed
  have real := claimed (.start 64)
    [framelessScan (crowd ++ [latecomer]), framelessScan [latecomer]]
    (by
      intro scan member
      rcases List.mem_pair.mp member with rfl | rfl <;> rfl)
    [] _ _ [] rfl
  have persist := (growthIsReal_afterScans (.start 64) []
    (framelessScan (crowd ++ [latecomer])) (framelessScan [latecomer])
    rfl rfl).mp real
  apply latecomer_notAdmitted
  apply persist
  · decide
  · decide
  · rw [framelessScan, liveBytes_latecomer]
    decide

end MemoryTraceTool
