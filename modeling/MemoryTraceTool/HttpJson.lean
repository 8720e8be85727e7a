import MemoryTraceTool.Basic
import MemoryTraceTool.Lib.Json
import MemoryTraceTool.TimeSeries

/-!
# The JSON served over HTTP

The two handlers write their answers piece by piece, placing commas around the
elements they skip.  Numbers are printed from their C types; a C string is the
list of the bytes before its terminator, and every write is complete.
-/

namespace MemoryTraceTool

open Json

/-! ## What the handlers read -/

/-- A leak site with the C widths of its fields; the times are signed. -/
structure HttpLeakSite where
  stackHash : Word
  firstSeen : Word
  lastSeen : Word
  count : Word
  perLeakSize : Word
  totalSize : Word
  diffSize : Word
  isExpired : BitVec 32

/-- A return address and the text it was resolved to. -/
structure ResolvedFrame where
  address : Word
  resolved : Bytes

/-- The frames of a stack cache entry; their number is `frame_count`. -/
structure ResolvedStack where
  frames : List ResolvedFrame
  isResolved : Bool

/-- A point of the time series with the C widths of its fields. -/
structure HttpTsPoint where
  timestamp : Word
  currentBytes : Word
  peakBytes : Word
  allocCount : Word
  freeCount : Word
  entryCount : Word
  rssBytes : Word
  leakBytes : Word
  totalAllocBytes : Word

/-- The fields of `mtt_state_t` that are served. -/
structure TrackerView where
  currentBytes : Word
  peakBytes : Word
  allocCount : Word
  freeCount : Word
  totalBytes : Word
  poolUsed : Word
  poolCapacity : Word
  poolRawSize : Word
  poolMode : BitVec 32
  procNameReady : Bool
  procName : Bytes

/-- The cached report: the sites and the pairs are arrays of pointers, either
of which may be missing. -/
structure CachedReport where
  sites : Nat → HttpLeakSite
  cachedSites : Option (List (Option Nat))
  cachedPairs : Option (List (Option Nat × Option Nat))

/-- What the handler learns from the system; `ctx` tells whether the thread
has a slot, and `rssPages` is the page count if it could be read. -/
structure HttpSystem where
  pid : BitVec 32
  now : Word
  sessionStart : Word
  ctx : Bool
  rssPages : Option Word
  pageSize : Word
  entrySize : Word
  tsReady : Bool
  rawMalloc : Bool
  bufferAllocated : Bool

/-! ## Writing -/

/-- `snprintf` into a buffer, the clamp of its result, and the write. -/
def writeFormatted (size : Nat) (fd text : Bytes) : Bytes :=
  fd ++ text.take (size - 1)

/-- The escaping loop; the source has it four times in the same words. -/
def writeEscaped (fd str : Bytes) : Bytes :=
  str.foldl (fun fd c =>
    if c = 34 ∨ c = 92 then fd ++ [92] ++ [c]
    else if c < 32 then fd ++ (ascii "\\u" ++ hex4 c.toNat)
    else fd ++ [c]) fd

/-- `write_json_string`: the bytes between two quotes, with escapes. -/
def writeJsonString (fd str : Bytes) : Bytes :=
  writeEscaped (fd ++ [34]) str ++ [34]

/-- `mtt_stack_resolve`, which resolves a stack once. -/
def mttStackResolve (resolveOneFrame : Word → Bytes) (entry : ResolvedStack) :
    ResolvedStack :=
  if entry.isResolved then entry
  else
    { frames := entry.frames.map fun frame =>
        { frame with resolved := resolveOneFrame frame.address }
      isResolved := true }

/-- The frames that are not shown at first. -/
def isInternalFrame (sym : Bytes) : Bool :=
  sym == [] || decide (ascii "libmemorytracetool" <:+: sym)
    || decide (ascii "mtt_" <+: sym)
    || decide (ascii "capture_stack" <:+: sym)
    || decide (ascii "backtrace" <:+: sym)

/-- One turn of the loops of the first two tiers; the flag is
`wrote_frame`. -/
def writeVisibleFrame (state : Bytes × Bool) (frame : ResolvedFrame) :
    Bytes × Bool :=
  if isInternalFrame frame.resolved then state
  else
    let fd := if state.2 then state.1 ++ [44] else state.1
    (writeEscaped (fd ++ [34]) frame.resolved ++ [34], true)

/-- One turn of the loop of the last tier. -/
def writeInternalFrame (state : Bytes × Bool) (frame : ResolvedFrame) :
    Bytes × Bool :=
  let fd := if state.2 then state.1 ++ [44] else state.1
  let fd := fd ++ ascii "\"[INT] "
  let fd :=
    if frame.resolved ≠ [] then writeEscaped fd frame.resolved
    else writeFormatted 4096 fd (ascii "0x" ++ hex frame.address.toNat)
  (fd ++ [34], true)

/-- What is written of a site before its frames. -/
def leakHead (site : HttpLeakSite) : Bytes :=
  ascii "\x7b\"hash\":\"0x" ++ hex site.stackHash.toNat ++
    ascii "\",\"count\":" ++ decimal site.count.toNat ++
    ascii ",\"per_leak_size\":" ++ decimal site.perLeakSize.toNat ++
    ascii ",\"total_size\":" ++ decimal site.totalSize.toNat ++
    ascii ",\"diff_size\":" ++ decimal site.diffSize.toNat ++
    ascii ",\"is_expired\":" ++ integer site.isExpired.toInt ++
    ascii ",\"first_seen\":" ++ integer site.firstSeen.toInt ++
    ascii ",\"last_seen\":" ++ integer site.lastSeen.toInt ++
    ascii ",\"stack\":["

/-- The frame list of a site, in up to three attempts. -/
def writeFrames (fd : Bytes) (se : Option ResolvedStack) : Bytes :=
  match se with
  | none => fd
  | some entry =>
      let state := (fd, false)
      let state :=
        if entry.isResolved then entry.frames.foldl writeVisibleFrame state
        else state
      let state :=
        if !state.2 && 0 < entry.frames.length then
          (entry.frames.drop 1).foldl writeVisibleFrame state
        else state
      let state :=
        if !state.2 && 1 < entry.frames.length then
          (entry.frames.drop 1).foldl writeInternalFrame state
        else state
      state.1

/-- The stack entries live in memory that the function may change. -/
def writeLeakJson (resolveOneFrame : Word → Bytes)
    (entries : Nat → ResolvedStack) (site : Option HttpLeakSite)
    (se : Option Nat) (fd : Bytes) : Bytes × (Nat → ResolvedStack) :=
  match site with
  | none => (fd ++ ascii "\x7b\x7d", entries)
  | some site =>
      let fd := writeFormatted 4096 fd (leakHead site)
      let entries :=
        match se with
        | some ptr =>
            if !(entries ptr).isResolved then
              Function.update entries ptr
                (mttStackResolve resolveOneFrame (entries ptr))
            else entries
        | none => entries
      (writeFrames fd (se.map entries) ++ ascii "]\x7d", entries)

/-- The linear search for the stack entry of a site. -/
def findStackEntry (cachedPairs : Option (List (Option Nat × Option Nat)))
    (site : Option Nat) : Option Nat :=
  match cachedPairs with
  | none => none
  | some pairs =>
      match pairs.find? fun pair => pair.1 == site with
      | some pair => pair.2
      | none => none

/-- One turn of the loop over the cached sites; the flag is `wrote_leak`. -/
def writeLeakStep (resolveOneFrame : Word → Bytes) (report : CachedReport)
    (state : Bytes × Bool × (Nat → ResolvedStack)) (cached : Option Nat) :
    Bytes × Bool × (Nat → ResolvedStack) :=
  match cached with
  | none => state
  | some ptr =>
      let fd := if state.2.1 then state.1 ++ [44] else state.1
      let written := writeLeakJson resolveOneFrame state.2.2
        (some (report.sites ptr)) (findStackEntry report.cachedPairs cached) fd
      (written.1, true, written.2)

/-- The elements of the leaks array; both handlers have this loop. -/
def writeLeaks (resolveOneFrame : Word → Bytes) (report : CachedReport)
    (entries : Nat → ResolvedStack) (fd : Bytes) : Bytes :=
  match report.cachedSites with
  | none => fd
  | some cached =>
      (cached.foldl (writeLeakStep resolveOneFrame report)
        (fd, false, entries)).1

def httpHeader : Bytes :=
  ascii "HTTP/1.0 200 OK\r\n" ++
    ascii "Content-Type: application/json; charset=utf-8\r\n" ++
    ascii "Cache-Control: no-store, no-cache, max-age=0\r\n" ++
    ascii "Connection: close\r\n" ++
    ascii "\r\n"

/-- `handle_api_leaks`. -/
def handleApiLeaks (resolveOneFrame : Word → Bytes) (report : CachedReport)
    (entries : Nat → ResolvedStack) (fd : Bytes) : Bytes :=
  let fd := fd ++ httpHeader
  let fd := fd ++ ascii "\x7b\"leaks\":["
  writeLeaks resolveOneFrame report entries fd ++ ascii "]\x7d"

/-- The counters of a tracker state that may be missing. -/
def readOrZero (tracker : Option TrackerView) (field : TrackerView → Word) :
    Word :=
  match tracker with
  | some tracker => field tracker
  | none => 0

/-- The difference of the two counters, or 0. -/
def servedLeakCount (tracker : Option TrackerView) : Word :=
  let allocs := readOrZero tracker TrackerView.allocCount
  let frees := readOrZero tracker TrackerView.freeCount
  if frees < allocs then allocs - frees else 0

def servedPoolMode (tracker : Option TrackerView) : BitVec 32 :=
  match tracker with
  | some tracker => tracker.poolMode
  | none => 0

/-- The resident size in bytes, as far as `/proc/self/statm` gives it. -/
def servedRss (system : HttpSystem) : Word :=
  if system.ctx then
    match system.rssPages with
    | some pages => if 0 < pages.toInt then pages * system.pageSize else 0
    | none => 0
  else 0

def servedProcName (tracker : Option TrackerView) : Bytes :=
  match tracker with
  | some tracker =>
      if tracker.procNameReady && tracker.procName != [] then tracker.procName
      else ascii "unknown"
  | none => ascii "unknown"

/-- The counters as text. -/
def statsText (system : HttpSystem) (tracker : Option TrackerView) : Bytes :=
  ascii "\x7b\"current_bytes\":" ++
      decimal (readOrZero tracker TrackerView.currentBytes).toNat ++
    ascii ",\"peak_bytes\":" ++
      decimal (readOrZero tracker TrackerView.peakBytes).toNat ++
    ascii ",\"alloc_count\":" ++
      decimal (readOrZero tracker TrackerView.allocCount).toNat ++
    ascii ",\"free_count\":" ++
      decimal (readOrZero tracker TrackerView.freeCount).toNat ++
    ascii ",\"leak_count\":" ++ decimal (servedLeakCount tracker).toNat ++
    ascii ",\"total_allocated\":" ++
      decimal (readOrZero tracker TrackerView.totalBytes).toNat ++
    ascii ",\"rss_bytes\":" ++ decimal (servedRss system).toNat ++
    ascii "\x7d"

/-- The state of the pool as text. -/
def poolText (system : HttpSystem) (tracker : Option TrackerView) : Bytes :=
  ascii "\x7b\"used\":" ++
      decimal (readOrZero tracker TrackerView.poolUsed).toNat ++
    ascii ",\"capacity\":" ++
      decimal (readOrZero tracker TrackerView.poolCapacity).toNat ++
    ascii ",\"bytes_used\":" ++
      decimal (readOrZero tracker TrackerView.poolUsed *
        system.entrySize).toNat ++
    ascii ",\"bytes_total\":" ++
      decimal (readOrZero tracker TrackerView.poolRawSize).toNat ++
    ascii ",\"mode\":" ++ integer (servedPoolMode tracker).toInt ++
    ascii "\x7d"

/-- The second formatted part: the times, the counters and the pool. -/
def dataStats (system : HttpSystem) (tracker : Option TrackerView) : Bytes :=
  ascii ",\"session_start\":" ++ integer system.sessionStart.toInt ++
    ascii ",\"last_scan\":" ++ integer system.now.toInt ++
    ascii ",\"stats\":" ++ statsText system tracker ++
    ascii ",\"pool\":" ++ poolText system tracker

/-- One point of the series as text. -/
def tsPointText (point : HttpTsPoint) : Bytes :=
  ascii "\x7b\"ts\":" ++ integer point.timestamp.toInt ++
    ascii ",\"cur\":" ++ decimal point.currentBytes.toNat ++
    ascii ",\"peak\":" ++ decimal point.peakBytes.toNat ++
    ascii ",\"allocs\":" ++ decimal point.allocCount.toNat ++
    ascii ",\"frees\":" ++ decimal point.freeCount.toNat ++
    ascii ",\"entries\":" ++ decimal point.entryCount.toNat ++
    ascii ",\"rss\":" ++ decimal point.rssBytes.toNat ++
    ascii ",\"leak\":" ++ decimal point.leakBytes.toNat ++
    ascii ",\"talloc\":" ++ decimal point.totalAllocBytes.toNat ++
    ascii "\x7d"

/-- One turn of the loop over the time series; the flag is `wrote_first`. -/
def writeTsStep (state : Bytes × Bool) (point : HttpTsPoint) : Bytes × Bool :=
  if point.timestamp = 0 then state
  else
    let fd := if state.2 then state.1 ++ [44] else state.1
    (writeFormatted 8192 fd (tsPointText point), true)

/-- `handle_api_data`. -/
def handleApiData (resolveOneFrame : Word → Bytes) (system : HttpSystem)
    (tracker : Option TrackerView) (series : MttTimeSeries HttpTsPoint)
    (report : CachedReport) (entries : Nat → ResolvedStack) (fd : Bytes) :
    Bytes :=
  let fd := fd ++ httpHeader
  let fd := writeFormatted 8192 fd
    (ascii "\x7b\"pid\":" ++ integer system.pid.toInt ++
      ascii ",\"proc_name\":")
  let fd := writeJsonString fd (servedProcName tracker)
  let fd := writeFormatted 8192 fd (dataStats system tracker)
  let fd := fd ++ ascii ",\"time_series\":["
  let points := handleApiDataRead system.tsReady system.rawMalloc
    system.bufferAllocated series
  let fd := (points.foldl writeTsStep (fd, false)).1
  let fd := fd ++ ascii "]"
  let fd := fd ++ ascii ",\"leaks\":["
  writeLeaks resolveOneFrame report entries fd ++ ascii "]\x7d"

/-! ## What the answers say -/

def internalFrameText (frame : ResolvedFrame) : Bytes :=
  ascii "[INT] " ++
    if frame.resolved ≠ [] then frame.resolved
    else ascii "0x" ++ hex frame.address.toNat

/-- The texts shown for a resolved stack: those of its visible frames, and if
there is none, those of all frames but the first, marked as internal. -/
def servedFrames (se : Option ResolvedStack) : List Bytes :=
  match se with
  | none => []
  | some entry =>
      let visible := (entry.frames.map ResolvedFrame.resolved).filter
        fun sym => !isInternalFrame sym
      if visible ≠ [] then visible
      else (entry.frames.drop 1).map internalFrameText

def numberOf (word : Word) : Value := .number word.toNat

/-- The JSON value of a site. -/
def leakValue (site : HttpLeakSite) (frames : List Bytes) : Value :=
  .object [
    (ascii "hash", .string (ascii "0x" ++ hex site.stackHash.toNat)),
    (ascii "count", numberOf site.count),
    (ascii "per_leak_size", numberOf site.perLeakSize),
    (ascii "total_size", numberOf site.totalSize),
    (ascii "diff_size", numberOf site.diffSize),
    (ascii "is_expired", .number site.isExpired.toInt),
    (ascii "first_seen", .number site.firstSeen.toInt),
    (ascii "last_seen", .number site.lastSeen.toInt),
    (ascii "stack", .array (frames.map Value.string))]

/-- The object of a cached site, with the frames of its stack entry once that
is resolved. -/
def cachedLeakValue (resolveOneFrame : Word → Bytes) (report : CachedReport)
    (entries : Nat → ResolvedStack) (cached : Option Nat) : Option Value :=
  cached.map fun ptr =>
    leakValue (report.sites ptr) (servedFrames
      ((findStackEntry report.cachedPairs cached).map fun se =>
        mttStackResolve resolveOneFrame (entries se)))

/-- One object for each cached site that is there, in order. -/
def leakValues (resolveOneFrame : Word → Bytes) (report : CachedReport)
    (entries : Nat → ResolvedStack) : List Value :=
  (report.cachedSites.getD []).filterMap
    (cachedLeakValue resolveOneFrame report entries)

def tsPointValue (point : HttpTsPoint) : Value :=
  .object [
    (ascii "ts", .number point.timestamp.toInt),
    (ascii "cur", numberOf point.currentBytes),
    (ascii "peak", numberOf point.peakBytes),
    (ascii "allocs", numberOf point.allocCount),
    (ascii "frees", numberOf point.freeCount),
    (ascii "entries", numberOf point.entryCount),
    (ascii "rss", numberOf point.rssBytes),
    (ascii "leak", numberOf point.leakBytes),
    (ascii "talloc", numberOf point.totalAllocBytes)]

def statsValue (system : HttpSystem) (tracker : Option TrackerView) : Value :=
  .object [
    (ascii "current_bytes",
      numberOf (readOrZero tracker TrackerView.currentBytes)),
    (ascii "peak_bytes", numberOf (readOrZero tracker TrackerView.peakBytes)),
    (ascii "alloc_count",
      numberOf (readOrZero tracker TrackerView.allocCount)),
    (ascii "free_count", numberOf (readOrZero tracker TrackerView.freeCount)),
    (ascii "leak_count", numberOf (servedLeakCount tracker)),
    (ascii "total_allocated",
      numberOf (readOrZero tracker TrackerView.totalBytes)),
    (ascii "rss_bytes", numberOf (servedRss system))]

def poolValue (system : HttpSystem) (tracker : Option TrackerView) : Value :=
  .object [
    (ascii "used", numberOf (readOrZero tracker TrackerView.poolUsed)),
    (ascii "capacity",
      numberOf (readOrZero tracker TrackerView.poolCapacity)),
    (ascii "bytes_used",
      numberOf (readOrZero tracker TrackerView.poolUsed * system.entrySize)),
    (ascii "bytes_total",
      numberOf (readOrZero tracker TrackerView.poolRawSize)),
    (ascii "mode", .number (servedPoolMode tracker).toInt)]

/-- The points served, those of a zero timestamp left out. -/
def servedPoints (system : HttpSystem) (series : MttTimeSeries HttpTsPoint) :
    List HttpTsPoint :=
  (handleApiDataRead system.tsReady system.rawMalloc system.bufferAllocated
    series).filter fun point => point.timestamp ≠ 0

/-- The value that `handle_api_data` should write. -/
def dataValue (resolveOneFrame : Word → Bytes) (system : HttpSystem)
    (tracker : Option TrackerView) (series : MttTimeSeries HttpTsPoint)
    (report : CachedReport) (entries : Nat → ResolvedStack) : Value :=
  .object [
    (ascii "pid", .number system.pid.toInt),
    (ascii "proc_name", .string (servedProcName tracker)),
    (ascii "session_start", .number system.sessionStart.toInt),
    (ascii "last_scan", .number system.now.toInt),
    (ascii "stats", statsValue system tracker),
    (ascii "pool", poolValue system tracker),
    (ascii "time_series",
      .array ((servedPoints system series).map tsPointValue)),
    (ascii "leaks", .array (leakValues resolveOneFrame report entries))]

/-- The value that `handle_api_leaks` should write. -/
def leaksValue (resolveOneFrame : Word → Bytes) (report : CachedReport)
    (entries : Nat → ResolvedStack) : Value :=
  .object [
    (ascii "leaks", .array (leakValues resolveOneFrame report entries))]

/-! ## Strings -/

theorem writeEscaped_eq (fd str : Bytes) :
    writeEscaped fd str = fd ++ escape str := by
  unfold writeEscaped
  induction str generalizing fd with
  | nil => simp [escape]
  | cons c str induction =>
      have unfolded : escape (c :: str) = escapeByte c ++ escape str := rfl
      rw [List.foldl_cons, induction, unfolded]
      unfold escapeByte
      split
      · simp
      · split
        · simp [ascii]
        · simp

theorem writeJsonString_eq (fd str : Bytes) :
    writeJsonString fd str = fd ++ quoted str := by
  rw [writeJsonString, writeEscaped_eq, quoted]
  simp

theorem escape_append (first second : Bytes) :
    escape (first ++ second) = escape first ++ escape second := by
  rw [escape, List.flatMap_append]
  rfl

theorem escapeByte_hexDigit :
    ∀ digit < 16, escapeByte (hexDigit digit) = [hexDigit digit] := by
  decide

theorem escape_hex (value : Nat) : escape (hex value) = hex value := by
  have plain : ∀ digit ∈ digits 16 value,
      escapeByte (hexDigit digit) = [hexDigit digit] := fun digit member =>
    escapeByte_hexDigit digit (digits_lt (by decide) member)
  rw [escape, hex, List.flatMap_map, List.flatMap_congr plain,
    List.map_eq_flatMap]

/-! ## Buffers -/

theorem writeFormatted_eq {size : Nat} (fd : Bytes) {text : Bytes}
    (fits : text.length < size) : writeFormatted size fd text = fd ++ text := by
  rw [writeFormatted, List.take_of_length_le (by omega)]

theorem decimal_word_length (word : Word) :
    (decimal word.toNat).length ≤ 20 := by
  apply decimal_length_le (by decide)
  have bounded := word.isLt
  omega

theorem hex_word_length (word : Word) : (hex word.toNat).length ≤ 16 := by
  apply hex_length_le (by decide)
  exact word.isLt

theorem integer_word_length (word : Word) :
    (integer word.toInt).length ≤ 21 := by
  apply integer_length_le (by decide)
  have below := @BitVec.toInt_lt 64 word
  have above := @BitVec.le_toInt 64 word
  omega

theorem integer_int_length (word : BitVec 32) :
    (integer word.toInt).length ≤ 21 := by
  apply integer_length_le (by decide)
  have below := @BitVec.toInt_lt 32 word
  have above := @BitVec.le_toInt 32 word
  omega

theorem leakHead_fits (site : HttpLeakSite) :
    (leakHead site).length < 4096 := by
  have hash := hex_word_length site.stackHash
  have count := decimal_word_length site.count
  have perLeak := decimal_word_length site.perLeakSize
  have total := decimal_word_length site.totalSize
  have diff := decimal_word_length site.diffSize
  have expired := integer_int_length site.isExpired
  have first := integer_word_length site.firstSeen
  have last := integer_word_length site.lastSeen
  unfold leakHead
  simp only [List.length_append, ascii_length]
  simp
  omega

theorem statsText_length (system : HttpSystem)
    (tracker : Option TrackerView) :
    (statsText system tracker).length < 4000 := by
  have number := decimal_word_length
  have current := number (readOrZero tracker TrackerView.currentBytes)
  have peak := number (readOrZero tracker TrackerView.peakBytes)
  have allocs := number (readOrZero tracker TrackerView.allocCount)
  have frees := number (readOrZero tracker TrackerView.freeCount)
  have leak := number (servedLeakCount tracker)
  have total := number (readOrZero tracker TrackerView.totalBytes)
  have rss := number (servedRss system)
  unfold statsText
  simp only [List.length_append, ascii_length]
  simp
  omega

theorem poolText_length (system : HttpSystem)
    (tracker : Option TrackerView) :
    (poolText system tracker).length < 4000 := by
  have number := decimal_word_length
  have mode := integer_int_length (servedPoolMode tracker)
  have used := number (readOrZero tracker TrackerView.poolUsed)
  have capacity := number (readOrZero tracker TrackerView.poolCapacity)
  have bytes := number (readOrZero tracker TrackerView.poolUsed *
    system.entrySize)
  have raw := number (readOrZero tracker TrackerView.poolRawSize)
  unfold poolText
  simp only [List.length_append, ascii_length]
  simp [-BitVec.toNat_mul]
  omega

theorem dataStats_fits (system : HttpSystem) (tracker : Option TrackerView) :
    (dataStats system tracker).length < 8192 := by
  have session := integer_word_length system.sessionStart
  have now := integer_word_length system.now
  have stats := statsText_length system tracker
  have pool := poolText_length system tracker
  unfold dataStats
  simp only [List.length_append, ascii_length]
  simp
  omega

theorem tsPointText_fits (point : HttpTsPoint) :
    (tsPointText point).length < 8192 := by
  have number := decimal_word_length
  have stamp := integer_word_length point.timestamp
  have current := number point.currentBytes
  have peak := number point.peakBytes
  have allocs := number point.allocCount
  have frees := number point.freeCount
  have counted := number point.entryCount
  have rss := number point.rssBytes
  have leak := number point.leakBytes
  have total := number point.totalAllocBytes
  unfold tsPointText
  simp only [List.length_append, ascii_length]
  simp
  omega

/-! ## Leak sites -/

theorem writeVisibleFrame_eq (state : Bytes × Bool) (frame : ResolvedFrame) :
    writeVisibleFrame state frame =
      if isInternalFrame frame.resolved then state
      else writeNext state (quoted frame.resolved) := by
  unfold writeVisibleFrame
  split
  · rfl
  · simp only [writeEscaped_eq, writeNext, quoted]
    cases state.2 <;> simp

theorem foldl_writeVisibleFrame (frames : List ResolvedFrame)
    (state : Bytes × Bool) :
    frames.foldl writeVisibleFrame state =
      (((frames.map ResolvedFrame.resolved).filter fun sym =>
        !isInternalFrame sym).map quoted).foldl writeNext state := by
  induction frames generalizing state with
  | nil => rfl
  | cons frame frames induction =>
      rw [List.foldl_cons, writeVisibleFrame_eq, induction]
      cases shown : isInternalFrame frame.resolved with
      | true => simp [shown]
      | false => simp [shown]

theorem writeInternalFrame_eq (state : Bytes × Bool) (frame : ResolvedFrame) :
    writeInternalFrame state frame =
      writeNext state (quoted (internalFrameText frame)) := by
  have marked : escape (ascii "[INT] ") = ascii "[INT] " := by decide
  have marker : escape (ascii "0x") = ascii "0x" := by decide
  have fits : (ascii "0x" ++ hex frame.address.toNat).length < 4096 := by
    have length := hex_word_length frame.address
    rw [List.length_append]
    have short : (ascii "0x").length = 2 := rfl
    omega
  have opening : ascii "\"[INT] " = 34 :: ascii "[INT] " := rfl
  simp only [writeInternalFrame, internalFrameText, writeNext, quoted,
    writeEscaped_eq, writeFormatted_eq _ fits, escape_append, marked, opening]
  by_cases unresolved : frame.resolved = []
  · rw [if_neg (not_not.mpr unresolved), if_neg (not_not.mpr unresolved),
      escape_append, marker, escape_hex]
    cases state.2 <;> simp
  · rw [if_pos unresolved, if_pos unresolved]
    cases state.2 <;> simp

theorem foldl_writeInternalFrame (frames : List ResolvedFrame)
    (state : Bytes × Bool) :
    frames.foldl writeInternalFrame state =
      ((frames.map internalFrameText).map quoted).foldl writeNext state := by
  induction frames generalizing state with
  | nil => rfl
  | cons frame frames induction =>
      rw [List.foldl_cons, writeInternalFrame_eq, induction]
      rfl

/-- The second tier finds nothing that the first has left out, so a stack
without visible frames goes to the third. -/
theorem writeFrames_eq (fd : Bytes) {entry : ResolvedStack}
    (resolved : entry.isResolved = true) :
    writeFrames fd (some entry) =
      fd ++ separated ((servedFrames (some entry)).map quoted) := by
  have dropped : ((entry.frames.drop 1).map ResolvedFrame.resolved).filter
      (fun sym => !isInternalFrame sym) <:+
        (entry.frames.map ResolvedFrame.resolved).filter
          fun sym => !isInternalFrame sym :=
    (((List.drop_suffix 1 entry.frames).map _).filter _)
  simp only [writeFrames, servedFrames, resolved, if_true,
    foldl_writeVisibleFrame, foldl_writeInternalFrame, foldl_writeNext]
  generalize (entry.frames.map ResolvedFrame.resolved).filter
    (fun sym => !isInternalFrame sym) = visible at dropped
  cases visible with
  | cons first rest => simp
  | nil =>
      have skipped := List.suffix_nil.mp dropped
      have restart := foldl_writeNext fd
        (((entry.frames.drop 1).map internalFrameText).map quoted)
      have unchanged : (if 0 < entry.frames.length then (fd, false)
          else (fd, false)) = (fd, false) := ite_self _
      simp only [List.map_nil, separated, List.append_nil, List.isEmpty_nil,
        Bool.not_true, Bool.not_false, Bool.true_and, decide_eq_true_eq,
        skipped, List.foldl_nil, unchanged, restart, ne_eq, not_true_eq_false,
        if_false]
      by_cases several : 1 < entry.frames.length
      · rw [if_pos several]
      · have none : entry.frames.drop 1 = [] :=
          List.drop_eq_nil_of_le (by omega)
        rw [if_neg several, none]
        simp [separated]

theorem printItems_map_string (texts : List Bytes) :
    printItems (texts.map Value.string) = texts.map quoted := by
  rw [printItems_eq_map, List.map_map]
  rfl

theorem quoted_hash (value : Nat) :
    quoted (ascii "0x" ++ hex value) =
      ascii "\"0x" ++ hex value ++ ascii "\"" := by
  have marker : escape (ascii "0x") = ascii "0x" := by decide
  rw [quoted, escape_append, marker, escape_hex]
  rfl

/-- The pieces written for a site make up one object. -/
theorem print_leakValue (site : HttpLeakSite) (frames : List Bytes) :
    print (leakValue site frames) =
      leakHead site ++ separated (frames.map quoted) ++ ascii "]\x7d" := by
  unfold leakValue leakHead
  simp only [numberOf, print, printMembers, separated, printItems_map_string,
    quoted_hash, integer_natCast, List.append_assoc, List.cons_append]
  rfl

theorem mttStackResolve_isResolved (resolveOneFrame : Word → Bytes)
    (entry : ResolvedStack) :
    (mttStackResolve resolveOneFrame entry).isResolved = true := by
  unfold mttStackResolve
  split
  · assumption
  · rfl

theorem mttStackResolve_of_isResolved (resolveOneFrame : Word → Bytes)
    {entry : ResolvedStack} (resolved : entry.isResolved = true) :
    mttStackResolve resolveOneFrame entry = entry := by
  rw [mttStackResolve, if_pos resolved]

/-- Memory in which some entries have been resolved since. -/
def SameOnceResolved (resolveOneFrame : Word → Bytes)
    (entries later : Nat → ResolvedStack) : Prop :=
  ∀ ptr, mttStackResolve resolveOneFrame (later ptr) =
    mttStackResolve resolveOneFrame (entries ptr)

theorem SameOnceResolved.resolve {resolveOneFrame : Word → Bytes}
    {entries later : Nat → ResolvedStack}
    (same : SameOnceResolved resolveOneFrame entries later) (ptr : Nat) :
    SameOnceResolved resolveOneFrame entries
      (Function.update later ptr
        (mttStackResolve resolveOneFrame (later ptr))) := by
  intro other
  by_cases here : other = ptr
  · subst here
    rw [Function.update_self, mttStackResolve_of_isResolved _
      (mttStackResolve_isResolved resolveOneFrame _)]
    exact same other
  · rw [Function.update_of_ne here]
    exact same other

/-- A site writes its object, with the frames its stack entry has once it is
resolved. -/
theorem writeLeakJson_eq {resolveOneFrame : Word → Bytes}
    {entries later : Nat → ResolvedStack}
    (same : SameOnceResolved resolveOneFrame entries later)
    (site : HttpLeakSite) (se : Option Nat) (fd : Bytes) :
    (writeLeakJson resolveOneFrame later (some site) se fd).1 =
        fd ++ print (leakValue site (servedFrames (se.map fun ptr =>
          mttStackResolve resolveOneFrame (entries ptr)))) ∧
      SameOnceResolved resolveOneFrame entries
        (writeLeakJson resolveOneFrame later (some site) se fd).2 := by
  simp only [writeLeakJson, writeFormatted_eq fd (leakHead_fits site),
    print_leakValue]
  cases se with
  | none =>
      constructor
      · simp [writeFrames, servedFrames, separated]
      · exact same
  | some ptr =>
      have written : (if !(later ptr).isResolved then
          Function.update later ptr
            (mttStackResolve resolveOneFrame (later ptr)) else later) ptr =
          mttStackResolve resolveOneFrame (entries ptr) := by
        rw [← same ptr]
        cases resolved : (later ptr).isResolved with
        | true => exact (mttStackResolve_of_isResolved _ resolved).symm
        | false => exact Function.update_self ..
      constructor
      · simp only [Option.map_some, written]
        rw [writeFrames_eq _ (mttStackResolve_isResolved resolveOneFrame _)]
        simp only [List.append_assoc]
      · dsimp only
        split
        · exact same.resolve ptr
        · exact same

/-- The loop over the cached sites writes their objects, separated by
commas. -/
theorem foldl_writeLeakStep {resolveOneFrame : Word → Bytes}
    (report : CachedReport) {entries : Nat → ResolvedStack}
    (cached : List (Option Nat)) {later : Nat → ResolvedStack}
    (same : SameOnceResolved resolveOneFrame entries later)
    (fd : Bytes) (wrote : Bool) :
    (cached.foldl (writeLeakStep resolveOneFrame report)
        (fd, wrote, later)).1 =
      (((cached.filterMap
        (cachedLeakValue resolveOneFrame report entries)).map print).foldl
          writeNext (fd, wrote)).1 := by
  induction cached generalizing later fd wrote with
  | nil => rfl
  | cons first rest induction =>
      cases first with
      | none => exact induction same fd wrote
      | some ptr =>
          obtain ⟨text, kept⟩ := writeLeakJson_eq same (report.sites ptr)
            (findStackEntry report.cachedPairs (some ptr))
            (if wrote then fd ++ [44] else fd)
          have separator : (if wrote then fd ++ [44] else fd) =
              fd ++ if wrote then [44] else [] := by
            cases wrote <;> simp
          rw [List.foldl_cons]
          refine (induction kept _ true).trans ?_
          rw [text, separator]
          rfl

theorem writeLeaks_eq (resolveOneFrame : Word → Bytes)
    (report : CachedReport) (entries : Nat → ResolvedStack) (fd : Bytes) :
    writeLeaks resolveOneFrame report entries fd =
      fd ++ separated (printItems
        (leakValues resolveOneFrame report entries)) := by
  rw [printItems_eq_map, writeLeaks, leakValues]
  cases report.cachedSites with
  | none => simp [separated]
  | some cached =>
      refine (foldl_writeLeakStep report cached (fun _ => rfl) fd false).trans
        ?_
      rw [foldl_writeNext]
      rfl

/-! ## The time series -/

theorem print_tsPointValue (point : HttpTsPoint) :
    print (tsPointValue point) = tsPointText point := by
  unfold tsPointValue tsPointText
  simp only [numberOf, print, printMembers, separated, integer_natCast,
    List.append_assoc, List.cons_append]
  rfl

theorem writeTsStep_eq (state : Bytes × Bool) (point : HttpTsPoint) :
    writeTsStep state point =
      if point.timestamp = 0 then state
      else writeNext state (print (tsPointValue point)) := by
  unfold writeTsStep
  split
  · rfl
  · simp only [writeFormatted_eq _ (tsPointText_fits point), writeNext,
      print_tsPointValue]
    cases state.2 <;> simp

theorem foldl_writeTsStep (points : List HttpTsPoint)
    (state : Bytes × Bool) :
    points.foldl writeTsStep state =
      (((points.filter fun point => point.timestamp ≠ 0).map
        tsPointValue).map print).foldl writeNext state := by
  induction points generalizing state with
  | nil => rfl
  | cons point points induction =>
      rw [List.foldl_cons, writeTsStep_eq, induction]
      by_cases zero : point.timestamp = 0
      · rw [if_pos zero, List.filter_cons_of_neg (by simpa using zero)]
      · rw [if_neg zero, List.filter_cons_of_pos (by simpa using zero)]
        rfl

/-! ## The answers -/

theorem print_statsValue (system : HttpSystem)
    (tracker : Option TrackerView) :
    print (statsValue system tracker) = statsText system tracker := by
  unfold statsValue statsText
  simp only [numberOf, print, printMembers, separated, integer_natCast,
    List.append_assoc, List.cons_append]
  rfl

theorem print_poolValue (system : HttpSystem)
    (tracker : Option TrackerView) :
    print (poolValue system tracker) = poolText system tracker := by
  unfold poolValue poolText
  simp only [numberOf, print, printMembers, separated, integer_natCast,
    List.append_assoc, List.cons_append]
  rfl

theorem handleApiLeaks_eq (resolveOneFrame : Word → Bytes)
    (report : CachedReport) (entries : Nat → ResolvedStack) (fd : Bytes) :
    handleApiLeaks resolveOneFrame report entries fd =
      fd ++ httpHeader ++
        print (leaksValue resolveOneFrame report entries) := by
  simp only [handleApiLeaks, writeLeaks_eq, leaksValue, print, printMembers,
    separated, List.append_assoc, List.cons_append]
  rfl

theorem handleApiData_eq (resolveOneFrame : Word → Bytes)
    (system : HttpSystem) (tracker : Option TrackerView)
    (series : MttTimeSeries HttpTsPoint) (report : CachedReport)
    (entries : Nat → ResolvedStack) (fd : Bytes) :
    handleApiData resolveOneFrame system tracker series report entries fd =
      fd ++ httpHeader ++ print (dataValue resolveOneFrame system tracker
        series report entries) := by
  have pidFits : (ascii "\x7b\"pid\":" ++ integer system.pid.toInt ++
      ascii ",\"proc_name\":").length < 8192 := by
    have pid := integer_int_length system.pid
    simp only [List.length_append, ascii_length]
    simp
    omega
  simp only [handleApiData, writeFormatted_eq _ pidFits,
    writeFormatted_eq _ (dataStats_fits system tracker), writeJsonString_eq,
    foldl_writeTsStep, foldl_writeNext, writeLeaks_eq]
  simp only [dataValue, print, printMembers, separated, printItems_eq_map,
    ← print_statsValue, ← print_poolValue, dataStats, servedPoints,
    List.append_assoc, List.cons_append]
  rfl

end MemoryTraceTool
