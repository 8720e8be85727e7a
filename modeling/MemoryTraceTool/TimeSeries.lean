import Mathlib.Data.List.Nodup
import MemoryTraceTool.Lib.Ring

/-!
# Time series

The reporter records one point a second in a ring of 3600 points.  The HTTP
handler and the two cache updates of the scan each read a range of at most 360
points, starting at the oldest point that is left.
-/

namespace MemoryTraceTool

/-- Capacity of the ring: one hour at one point a second. -/
def mttTsMaxPoints : Nat := 3600

/-- The number of points the dashboard and the scan read. -/
def mttTsReadPoints : Nat := 360

/-- `mtt_ts_point_t`. -/
structure MttTsPoint where
  timestamp : Int
  currentBytes : Nat
  peakBytes : Nat
  allocCount : Nat
  freeCount : Nat
  entryCount : Nat
  rssBytes : Nat
  leakBytes : Nat
  totalAllocBytes : Nat
  deriving DecidableEq, Repr

/-- The point of zeroed memory. -/
def MttTsPoint.zero : MttTsPoint :=
  { timestamp := 0
    currentBytes := 0
    peakBytes := 0
    allocCount := 0
    freeCount := 0
    entryCount := 0
    rssBytes := 0
    leakBytes := 0
    totalAllocBytes := 0 }

/-- What one call of `mtt_ts_record_point` reads: the clock, the counters, and
the resident pages if `/proc/self/statm` could be parsed. -/
structure TsReading where
  time : Int
  currentBytes : Nat
  peakBytes : Nat
  allocCount : Nat
  freeCount : Nat
  entryCount : Nat
  leakBytesTotal : Nat
  totalBytes : Nat
  rssPages : Option Int
  pageSize : Nat
  deriving DecidableEq, Repr

def TsReading.point (reading : TsReading) : MttTsPoint :=
  { timestamp := reading.time
    currentBytes := reading.currentBytes
    peakBytes := reading.peakBytes
    allocCount := reading.allocCount
    freeCount := reading.freeCount
    entryCount := reading.entryCount
    leakBytes := reading.leakBytesTotal
    totalAllocBytes := reading.totalBytes
    rssBytes :=
      match reading.rssPages with
      | some pages => if 0 < pages then pages.toNat * reading.pageSize else 0
      | none => 0 }

/-- The ring; `count` is a 32-bit counter of all points written. -/
structure MttTimeSeries (Point : Type) where
  points : Nat → Point
  head : Nat
  count : Nat

variable {Point : Type}

/-- `mtt_ts_init` on zeroed memory. -/
def mttTsInit (zero : Point) : MttTimeSeries Point :=
  { points := fun _ => zero
    head := 0
    count := 0 }

/-- The locked part of `mtt_ts_record_point`. -/
def mttTsStore (series : MttTimeSeries Point) (point : Point) :
    MttTimeSeries Point :=
  { points := Function.update series.points series.head point
    head := Ring.advance mttTsMaxPoints series.head
    count := (series.count + 1) % 2 ^ 32 }

/-- `mtt_ts_record_point`. -/
def mttTsRecordPoint (ready stateReady : Bool)
    (series : MttTimeSeries MttTsPoint) (reading : TsReading) :
    MttTimeSeries MttTsPoint :=
  if ready && stateReady then mttTsStore series reading.point else series

/-- The points copied to the output array, or `none` for the error code of
invalid arguments. -/
def mttTsGetRange (series : MttTimeSeries Point) (startIdx : Nat)
    (outNull : Bool) (maxOut : Nat) (outCountNull : Bool) :
    Option (List Point) :=
  if outNull || outCountNull || maxOut == 0 then none
  else if series.count = 0 then some []
  else if series.count ≤ mttTsMaxPoints then
    some (Ring.collect series.points series.count maxOut startIdx)
  else
    some (Ring.collect
      (fun index => series.points ((series.head + index) % mttTsMaxPoints))
      mttTsMaxPoints maxOut startIdx)

/-- The array `handle_api_data` reads before it prints it; it ignores the
return code. -/
def handleApiDataRead (ready rawMalloc bufferAllocated : Bool)
    (series : MttTimeSeries Point) : List Point :=
  if ready && rawMalloc && bufferAllocated then
    (mttTsGetRange series 0 false mttTsReadPoints false).getD []
  else
    []

/-- The update of `cached_ts_data` in stage 0 and, in the same words, stage 7
of `scan_and_report_locked`. -/
def scanCacheTimeSeries (ready rawMalloc bufferAllocated dataAllocated : Bool)
    (series : MttTimeSeries Point) (cached : List Point) : List Point :=
  if ready && rawMalloc && bufferAllocated then
    match mttTsGetRange series 0 false mttTsReadPoints false with
    | some (point :: rest) => if dataAllocated then point :: rest else cached
    | _ => cached
  else
    cached

/-- The series after a history of recorded points. -/
def tsAfter (zero : Point) (history : List Point) : MttTimeSeries Point :=
  history.foldl mttTsStore (mttTsInit zero)

/-- The abstract reading of the ring: the points recorded so far. -/
structure TsHolds (series : MttTimeSeries Point) (history : List Point) :
    Prop where
  ring : Ring.Holds mttTsMaxPoints series.points series.head history
  count : series.count = history.length % 2 ^ 32

theorem TsHolds.store {series : MttTimeSeries Point} {history : List Point}
    (holds : TsHolds series history) (point : Point) :
    TsHolds (mttTsStore series point) (history ++ [point]) := by
  constructor
  · exact holds.ring.push (by decide) point
  · simp only [mttTsStore, holds.count, List.length_append,
      List.length_singleton]
    rw [Nat.mod_add_mod]

theorem TsHolds.foldl {series : MttTimeSeries Point} {before : List Point}
    (holds : TsHolds series before) (history : List Point) :
    TsHolds (history.foldl mttTsStore series) (before ++ history) := by
  induction history generalizing series before with
  | nil => simpa using holds
  | cons point history induction =>
      have next := induction (holds.store point)
      rwa [List.append_assoc, List.singleton_append] at next

theorem tsAfter_holds (zero : Point) (history : List Point) :
    TsHolds (tsAfter zero history) history := by
  have start : TsHolds (mttTsInit zero) ([] : List Point) :=
    ⟨Ring.Holds.empty _ _, rfl⟩
  exact start.foldl history

theorem mttTsRecordPoint_foldl (zero : MttTsPoint)
    (readings : List TsReading) :
    readings.foldl (mttTsRecordPoint true true) (mttTsInit zero) =
      tsAfter zero (readings.map TsReading.point) := by
  rw [tsAfter, List.foldl_map]
  rfl

/-- A range read returns the points from `startIdx` on in the window of kept
points, at most `maxOut` of them. -/
theorem mttTsGetRange_eq {series : MttTimeSeries Point}
    {history : List Point} (holds : TsHolds series history)
    (counted : history.length < 2 ^ 32) (startIdx maxOut : Nat)
    (positive : 0 < maxOut) :
    mttTsGetRange series startIdx false maxOut false =
      some (((Ring.recent mttTsMaxPoints history).drop startIdx).take
        maxOut) := by
  have count : series.count = history.length := by
    rw [holds.count, Nat.mod_eq_of_lt counted]
  have nonzero : (maxOut == 0) = false := by
    simpa using Nat.pos_iff_ne_zero.mp positive
  simp only [mttTsGetRange, nonzero, Bool.or_false, Bool.false_eq_true,
    if_false, count]
  split
  · rename_i empty
    rw [List.length_eq_zero_iff.mp empty]
    simp [Ring.recent]
  · split
    · rename_i filling
      rw [Ring.recent_of_length_le filling]
      congr 1
      apply Ring.collect_eq_take
      intro index value found
      exact holds.ring.slot_filling filling found
    · rename_i wrapped
      have full : mttTsMaxPoints ≤ history.length := by omega
      have window : (Ring.recent mttTsMaxPoints history).length =
          mttTsMaxPoints := by
        rw [Ring.recent_length, Nat.min_eq_right full]
      have copied := Ring.collect_eq_take
        (fun index value found => holds.ring.slot_wrapped full found)
        maxOut startIdx
      rw [window] at copied
      rw [copied]

/-! ## What the dashboard is served -/

/-- The dashboard reads, and the scan caches, exactly the most recent points
in recording order, ending with the newest one. -/
structure ServesRecent (series : MttTimeSeries Point)
    (history cached : List Point) : Prop where
  read : handleApiDataRead true true true series =
    Ring.recent mttTsReadPoints history
  cache : scanCacheTimeSeries true true true true series cached =
    Ring.recent mttTsReadPoints history
  newest : (handleApiDataRead true true true series).getLast? =
    history.getLast?

/-- Both readers get the oldest points of the kept window. -/
theorem handleApiDataRead_eq (zero : Point) {history : List Point}
    (counted : history.length < 2 ^ 32) :
    handleApiDataRead true true true (tsAfter zero history) =
      (Ring.recent mttTsMaxPoints history).take mttTsReadPoints := by
  have range := mttTsGetRange_eq (tsAfter_holds zero history) counted 0
    mttTsReadPoints (by decide)
  simp [handleApiDataRead, range]

theorem scanCacheTimeSeries_eq (zero : Point) {history : List Point}
    (cached : List Point) (recorded : 1 ≤ history.length)
    (counted : history.length < 2 ^ 32) :
    scanCacheTimeSeries true true true true (tsAfter zero history) cached =
      (Ring.recent mttTsMaxPoints history).take mttTsReadPoints := by
  have range := mttTsGetRange_eq (tsAfter_holds zero history) counted 0
    mttTsReadPoints (by decide)
  rw [List.drop_zero] at range
  cases window :
      (Ring.recent mttTsMaxPoints history).take mttTsReadPoints with
  | nil =>
      have length := congrArg List.length window
      rw [List.length_take, Ring.recent_length, List.length_nil] at length
      unfold mttTsReadPoints mttTsMaxPoints at length
      omega
  | cons point rest => simp [scanCacheTimeSeries, range, window]

theorem servesRecent_of_length_le (zero : Point) {history : List Point}
    (cached : List Point) (recorded : 1 ≤ history.length)
    (short : history.length ≤ mttTsReadPoints) :
    ServesRecent (tsAfter zero history) history cached := by
  have counted : history.length < 2 ^ 32 :=
    Nat.lt_of_le_of_lt short (by decide)
  have kept : history.length ≤ mttTsMaxPoints :=
    Nat.le_trans short (by decide)
  have window :
      (Ring.recent mttTsMaxPoints history).take mttTsReadPoints = history := by
    rw [Ring.recent_of_length_le kept, List.take_of_length_le short]
  have recent : Ring.recent mttTsReadPoints history = history :=
    Ring.recent_of_length_le short
  constructor
  · rw [handleApiDataRead_eq zero counted, window, recent]
  · rw [scanCacheTimeSeries_eq zero cached recorded counted, window, recent]
  · rw [handleApiDataRead_eq zero counted, window]

theorem servesRecent_iff_of_nodup (zero : Point) {history : List Point}
    (cached : List Point) (distinct : history.Nodup)
    (recorded : 1 ≤ history.length) (counted : history.length < 2 ^ 32) :
    ServesRecent (tsAfter zero history) history cached ↔
      history.length ≤ mttTsReadPoints := by
  constructor
  · intro serves
    have same := serves.read
    rw [handleApiDataRead_eq zero counted] at same
    exact (Ring.take_recent_eq_iff distinct (by decide) (by decide)).mp same
  · exact servesRecent_of_length_le zero cached recorded

/-- Recorded points carry the number of the call that recorded them, so that
two calls with equal counters stay apart. -/
def stampedPoints (readings : List TsReading) : List (MttTsPoint × Nat) :=
  (readings.map TsReading.point).zipIdx

theorem stampedPoints_length (readings : List TsReading) :
    (stampedPoints readings).length = readings.length := by
  simp [stampedPoints]

theorem stampedPoints_nodup (readings : List TsReading) :
    (stampedPoints readings).Nodup := by
  apply List.Nodup.of_map Prod.snd
  rw [stampedPoints, List.zipIdx_map_snd]
  exact List.nodup_range'

/-- The dashboard serves the most recent recorded points exactly while no more
points were recorded than it reads. -/
theorem servesRecent_iff_length_le (readings : List TsReading)
    (recorded : 1 ≤ readings.length) (counted : readings.length < 2 ^ 32) :
    (readings.length ≤ mttTsReadPoints →
      ∀ zero cached,
        ServesRecent
          (readings.foldl (mttTsRecordPoint true true) (mttTsInit zero))
          (readings.map TsReading.point) cached) ∧
    ∀ zero cached,
      ServesRecent (tsAfter zero (stampedPoints readings))
          (stampedPoints readings) cached ↔
        readings.length ≤ mttTsReadPoints := by
  constructor
  · intro short zero cached
    rw [mttTsRecordPoint_foldl]
    apply servesRecent_of_length_le
    · simpa using recorded
    · simpa using short
  · intro zero cached
    rw [← stampedPoints_length readings]
    apply servesRecent_iff_of_nodup zero cached (stampedPoints_nodup readings)
    · rwa [stampedPoints_length]
    · rwa [stampedPoints_length]

/-- Readings taken once a second from second one on, one block more each
time. -/
def secondsReadings (count : Nat) : List TsReading :=
  (List.range count).map fun second : Nat =>
    { time := second + 1
      currentBytes := 16 * (second + 1)
      peakBytes := 16 * (second + 1)
      allocCount := second + 1
      freeCount := 0
      entryCount := second + 1
      leakBytesTotal := 0
      totalBytes := 16 * (second + 1)
      rssPages := none
      pageSize := 4096 }

theorem secondsReadings_length (count : Nat) :
    (secondsReadings count).length = count := by
  rw [secondsReadings, List.length_map, List.length_range]

theorem servesRecent_iff_sixMinutes :
    ServesRecent
        ((secondsReadings 360).foldl (mttTsRecordPoint true true)
          (mttTsInit .zero))
        ((secondsReadings 360).map TsReading.point) [] ∧
      ¬ ServesRecent
        (tsAfter (.zero, 0) (stampedPoints (secondsReadings 500)))
        (stampedPoints (secondsReadings 500)) [] := by
  have short := secondsReadings_length 360
  have long := secondsReadings_length 500
  constructor
  · exact (servesRecent_iff_length_le (secondsReadings 360)
      (by rw [short]; decide) (by rw [short]; decide)).1
      (by rw [short]; decide) .zero []
  · rw [(servesRecent_iff_length_le (secondsReadings 500)
      (by rw [long]; decide) (by rw [long]; decide)).2 (.zero, 0) [], long]
    decide

theorem servesRecent_fails_after_sixMinutes :
    ¬ ∀ (readings : List TsReading) (zero : MttTsPoint)
        (cached : List MttTsPoint),
      1 ≤ readings.length → readings.length < 2 ^ 32 →
      ServesRecent
        (readings.foldl (mttTsRecordPoint true true) (mttTsInit zero))
        (readings.map TsReading.point) cached := by
  intro claimed
  have length := secondsReadings_length 361
  have distinct :
      ((secondsReadings 361).map TsReading.point).Nodup := by
    rw [secondsReadings, List.map_map]
    apply List.Nodup.map _ List.nodup_range
    intro first second same
    have times := congrArg MttTsPoint.timestamp same
    simp only [Function.comp_apply, TsReading.point] at times
    omega
  have serves := claimed (secondsReadings 361) .zero []
    (by rw [length]; decide) (by rw [length]; decide)
  rw [mttTsRecordPoint_foldl, servesRecent_iff_of_nodup _ _ distinct
    (by rw [List.length_map, length]; decide)
    (by rw [List.length_map, length]; decide), List.length_map, length]
    at serves
  exact absurd serves (by decide)

/-! ## What a range read writes -/

/-- The return code, the caller's array and `*out_count`, and the indices at
which `points[]` was read. -/
structure TsRead (Point : Type) where
  code : Int
  out : Nat → Point
  outCount : Nat
  indices : List Nat

/-- The copy loop of `mtt_ts_get_range` in 32-bit arithmetic; `remaining` is
`max_out - read_count`. -/
def tsCopyLoop (points : Nat → Point) (slot : Nat → Nat) (validCount : Nat) :
    Nat → Nat → TsRead Point → TsRead Point
  | 0, _, read => read
  | remaining + 1, i, read =>
      if i < validCount then
        tsCopyLoop points slot validCount remaining ((i + 1) % 2 ^ 32)
          { read with
            out := Function.update read.out read.outCount (points (slot i))
            outCount := read.outCount + 1
            indices := slot i :: read.indices }
      else read

/-- `mtt_ts_get_range` with the memory that it writes. -/
def mttTsGetRangeInto (series : MttTimeSeries Point) (startIdx : Nat)
    (outNull : Bool) (maxOut : Nat) (outCountNull : Bool)
    (out : Nat → Point) (outCount : Nat) : TsRead Point :=
  if outNull || outCountNull || maxOut == 0 then
    { code := -1, out, outCount, indices := [] }
  else
    let start : TsRead Point := { code := 0, out, outCount := 0, indices := [] }
    if series.count = 0 then start
    else if series.count ≤ mttTsMaxPoints then
      tsCopyLoop series.points id series.count maxOut startIdx start
    else
      tsCopyLoop series.points
        (fun i => (series.head + i) % 2 ^ 32 % mttTsMaxPoints)
        mttTsMaxPoints maxOut startIdx start

/-- The call succeeds, writes these points and leaves the rest of the array,
and reads `points[]` within its bounds. -/
structure ReadsPoints (read : TsRead Point) (out : Nat → Point)
    (points : List Point) : Prop where
  code : read.code = 0
  outCount : read.outCount = points.length
  out : ∀ k, read.out k = (points[k]?).getD (out k)
  indices : ∀ index ∈ read.indices, index < mttTsMaxPoints

/-- The slots hold the points of a window. -/
def HoldsWindow (points : Nat → Point) (slot : Nat → Nat)
    (window : List Point) : Prop :=
  ∀ i point, window[i]? = some point →
    points (slot i) = point ∧ slot i < mttTsMaxPoints

theorem ReadsPoints.tsCopyLoop {points : Nat → Point} {slot : Nat → Nat}
    {window written : List Point} {out : Nat → Point}
    (holds : HoldsWindow points slot window)
    (short : window.length ≤ mttTsMaxPoints) (remaining i : Nat)
    {read : TsRead Point} (reads : ReadsPoints read out written) :
    ReadsPoints
      (MemoryTraceTool.tsCopyLoop points slot window.length remaining i read)
      out (written ++ (window.drop i).take remaining) := by
  induction remaining generalizing i read written with
  | zero => simpa [MemoryTraceTool.tsCopyLoop] using reads
  | succ remaining induction =>
      simp only [MemoryTraceTool.tsCopyLoop]
      split
      · rename_i inside
        obtain ⟨value, bounded⟩ := holds i _ (List.getElem?_eq_getElem inside)
        have next : (i + 1) % 2 ^ 32 = i + 1 := by
          unfold mttTsMaxPoints at short
          omega
        rw [List.drop_eq_getElem_cons inside, List.take_succ_cons, next,
          List.append_cons]
        apply induction
        constructor
        · exact reads.code
        · rw [List.length_append, List.length_singleton, reads.outCount]
        · intro k
          dsimp only
          by_cases here : k = read.outCount
          · rw [here, Function.update_self, reads.outCount, value,
              List.getElem?_concat_length, Option.getD_some]
          · rw [Function.update_of_ne here, reads.out]
            rw [reads.outCount] at here
            by_cases earlier : k < written.length
            · rw [List.getElem?_append_left earlier]
            · rw [List.getElem?_eq_none (by omega),
                List.getElem?_eq_none (by simp; omega)]
        · intro index member
          rcases List.mem_cons.mp member with same | earlier
          · rw [same]
            exact bounded
          · exact reads.indices index earlier
      · rename_i outside
        rw [List.drop_eq_nil_of_le (Nat.not_lt.mp outside), List.take_nil,
          List.append_nil]
        exact reads

theorem mttTsGetRangeInto_reads {series : MttTimeSeries Point}
    {history : List Point} (holds : TsHolds series history)
    (counted : history.length < 2 ^ 32) (startIdx : Nat) {maxOut : Nat}
    (positive : 0 < maxOut) (out : Nat → Point) (outCount : Nat) :
    ReadsPoints
      (mttTsGetRangeInto series startIdx false maxOut false out outCount) out
      (((Ring.recent mttTsMaxPoints history).drop startIdx).take maxOut) := by
  have count : series.count = history.length := by
    rw [holds.count, Nat.mod_eq_of_lt counted]
  have nonzero : (maxOut == 0) = false := by
    simpa using Nat.pos_iff_ne_zero.mp positive
  let start : TsRead Point := { code := 0, out, outCount := 0, indices := [] }
  have begun : ReadsPoints start out [] := by
    constructor <;> simp [start]
  have window : (Ring.recent mttTsMaxPoints history).length =
      min history.length mttTsMaxPoints :=
    Ring.recent_length mttTsMaxPoints history
  have short : (Ring.recent mttTsMaxPoints history).length ≤
      mttTsMaxPoints := by
    rw [window]
    exact Nat.min_le_right _ _
  simp only [mttTsGetRangeInto, nonzero, Bool.or_false, Bool.false_eq_true,
    if_false, count]
  rw [← List.nil_append (((Ring.recent mttTsMaxPoints history).drop
    startIdx).take maxOut)]
  split
  · rename_i empty
    rw [List.length_eq_zero_iff.mp empty]
    simpa [Ring.recent] using begun
  · split
    · rename_i filling
      have valid : history.length =
          (Ring.recent mttTsMaxPoints history).length := by
        rw [window, Nat.min_eq_left filling]
      have slots : HoldsWindow series.points id
          (Ring.recent mttTsMaxPoints history) := by
        intro i point found
        have inside := (List.getElem?_eq_some_iff.mp found).1
        rw [Ring.recent_of_length_le filling] at found
        exact ⟨holds.ring.slot_filling filling found,
          Nat.lt_of_lt_of_le inside short⟩
      have copied := begun.tsCopyLoop slots short maxOut startIdx
      rw [← valid] at copied
      exact copied
    · rename_i wrapped
      have full : mttTsMaxPoints ≤ history.length := by omega
      have valid : mttTsMaxPoints =
          (Ring.recent mttTsMaxPoints history).length := by
        rw [window, Nat.min_eq_right full]
      have slots : HoldsWindow series.points
          (fun i => (series.head + i) % 2 ^ 32 % mttTsMaxPoints)
          (Ring.recent mttTsMaxPoints history) := by
        intro i point found
        have inside := (List.getElem?_eq_some_iff.mp found).1
        have head : series.head < mttTsMaxPoints := by
          rw [holds.ring.head]
          exact Nat.mod_lt _ (by decide)
        have exact_ : (series.head + i) % 2 ^ 32 = series.head + i := by
          unfold mttTsMaxPoints at head short inside
          omega
        dsimp only
        rw [exact_]
        exact ⟨holds.ring.slot_wrapped full found,
          Nat.mod_lt _ (by decide)⟩
      have copied := begun.tsCopyLoop slots short maxOut startIdx
      rw [← valid] at copied
      exact copied

/-- After any number of recorded points below 2^32 a range read writes the
points from `start_idx` on of the window that is kept, and both functions stay
within `points[]`. -/
theorem tsGetRange_writes (zero : MttTsPoint) {readings : List TsReading}
    (counted : readings.length < 2 ^ 32) (startIdx : Nat) {maxOut : Nat}
    (positive : 0 < maxOut) (out : Nat → MttTsPoint) (outCount : Nat) :
    ReadsPoints
      (mttTsGetRangeInto
        (readings.foldl (mttTsRecordPoint true true) (mttTsInit zero))
        startIdx false maxOut false out outCount)
      out
      (((Ring.recent mttTsMaxPoints (readings.map TsReading.point)).drop
        startIdx).take maxOut) ∧
    (readings.foldl (mttTsRecordPoint true true) (mttTsInit zero)).head <
      mttTsMaxPoints := by
  rw [mttTsRecordPoint_foldl]
  have holds := tsAfter_holds zero (readings.map TsReading.point)
  constructor
  · apply mttTsGetRangeInto_reads holds _ startIdx positive out outCount
    rwa [List.length_map]
  · rw [holds.ring.head]
    exact Nat.mod_lt _ (by decide)

theorem tsGetRange_writes_twoReadings :
    ReadsPoints
      (mttTsGetRangeInto
        ((secondsReadings 2).foldl (mttTsRecordPoint true true)
          (mttTsInit .zero)) 1 false 5 false (fun _ => .zero) 7)
      (fun _ => .zero)
      (((Ring.recent mttTsMaxPoints
        ((secondsReadings 2).map TsReading.point)).drop 1).take 5) ∧
    ((secondsReadings 2).foldl (mttTsRecordPoint true true)
      (mttTsInit .zero)).head < mttTsMaxPoints :=
  tsGetRange_writes .zero (by decide) 1 (by decide) (fun _ => .zero) 7

end MemoryTraceTool
