import MemoryTraceTool.HttpJson
import MemoryTraceTool.HttpRequests

/-!
# The writes of the HTTP server

A response is sent by many calls of `MTT_DIAG_WRITE`, which drops the result
of `write`.  The handlers are those of the JSON texts, on a descriptor that
keeps the calls apart; what the client gets of each call is up to the socket.
-/

namespace MemoryTraceTool.HttpWrites

open Json HttpRequests

/-! ## The socket -/

/-- The answer to one call of `write`: the socket takes up to so many bytes,
or the call is interrupted before it takes any. -/
inductive WriteResult where
  | accepts (most : ℕ+)
  | interrupted

def WriteResult.most : WriteResult → Nat
  | .accepts most => most
  | .interrupted => 0

/-- The answers to the calls in order; data that is offered again and again is
taken in the end. -/
structure WriteResults where
  result : Nat → WriteResult
  accepts : ∀ index, ∃ later ≥ index, result later ≠ .interrupted

/-- What the client receives of a list of calls, the next of which has the
given number. -/
def received (results : WriteResults) : Nat → List Bytes → Bytes
  | _, [] => []
  | index, chunk :: rest =>
      chunk.take (results.result index).most ++
        received results (index + 1) rest

/-- Every call takes all that it is given. -/
def TakesWhole (results : WriteResults) (start : Nat) (writes : List Bytes) :
    Prop :=
  ∀ index chunk, writes[index]? = some chunk →
    chunk.length ≤ (results.result (start + index)).most

theorem length_received_le (results : WriteResults) (start : Nat)
    (writes : List Bytes) :
    (received results start writes).length ≤ writes.flatten.length := by
  induction writes generalizing start with
  | nil => exact Nat.le_refl _
  | cons chunk rest induction =>
      have later := induction (start + 1)
      simp only [received, List.flatten_cons, List.length_append,
        List.length_take]
      omega

theorem takesWhole_cons {results : WriteResults} {start : Nat} {chunk : Bytes}
    {rest : List Bytes} :
    TakesWhole results start (chunk :: rest) ↔
      chunk.length ≤ (results.result start).most ∧
        TakesWhole results (start + 1) rest := by
  constructor
  · intro whole
    refine ⟨whole 0 chunk rfl, ?_⟩
    intro index later found
    have fits := whole (index + 1) later found
    rwa [← Nat.add_assoc, Nat.add_right_comm] at fits
  · rintro ⟨first, later⟩ index found isFound
    cases index with
    | zero =>
        obtain rfl := Option.some.inj isFound
        exact first
    | succ index =>
        have fits := later index found isFound
        rwa [Nat.add_right_comm] at fits

/-- What arrives is what was written exactly if no call was cut short: what is
lost is never made up for. -/
theorem received_eq_flatten_iff (results : WriteResults) (start : Nat)
    (writes : List Bytes) :
    received results start writes = writes.flatten ↔
      TakesWhole results start writes := by
  induction writes generalizing start with
  | nil => simp [received, TakesWhole]
  | cons chunk rest induction =>
      rw [takesWhole_cons, ← induction (start + 1)]
      simp only [received, List.flatten_cons]
      constructor
      · intro same
        have total := congrArg List.length same
        have later := length_received_le results (start + 1) rest
        simp only [List.length_append, List.length_take] at total
        have first : chunk.length ≤ (results.result start).most := by
          omega
        rw [List.take_of_length_le first] at same
        exact ⟨first, List.append_cancel_left same⟩
      · rintro ⟨first, later⟩
        rw [List.take_of_length_le first, later]

/-! ## The handlers -/

/-- `snprintf` into a buffer, the clamp of its result, and the write. -/
def writeFormatted (size : Nat) (fd : List Bytes) (text : Bytes) :
    List Bytes :=
  fd ++ [text.take (size - 1)]

/-- The escapes of `write_json_string`, one call of `write` for each piece. -/
def writeEscaped (fd : List Bytes) (str : Bytes) : List Bytes :=
  str.foldl (fun fd c =>
    if c = 34 ∨ c = 92 then fd ++ [[92]] ++ [[c]]
    else if c < 32 then fd ++ [ascii "\\u" ++ hex4 c.toNat]
    else fd ++ [[c]]) fd

/-- `write_json_string`, with the two quotes as calls of their own. -/
def writeJsonString (fd : List Bytes) (str : Bytes) : List Bytes :=
  writeEscaped (fd ++ [[34]]) str ++ [[34]]

/-- The first two tiers: a frame that is not internal. -/
def writeVisibleFrame (state : List Bytes × Bool) (frame : ResolvedFrame) :
    List Bytes × Bool :=
  if isInternalFrame frame.resolved then state
  else
    let fd := if state.2 then state.1 ++ [[44]] else state.1
    (writeEscaped (fd ++ [[34]]) frame.resolved ++ [[34]], true)

/-- The third tier: any frame, marked as internal. -/
def writeInternalFrame (state : List Bytes × Bool) (frame : ResolvedFrame) :
    List Bytes × Bool :=
  let fd := if state.2 then state.1 ++ [[44]] else state.1
  let fd := fd ++ [ascii "\"[INT] "]
  let fd :=
    if frame.resolved ≠ [] then writeEscaped fd frame.resolved
    else writeFormatted 4096 fd (ascii "0x" ++ hex frame.address.toNat)
  (fd ++ [[34]], true)

/-- The frames of a site in their tiers. -/
def writeFrames (fd : List Bytes) (se : Option ResolvedStack) : List Bytes :=
  match se with
  | none => fd
  | some entry =>
      let state := (fd, false)
      let state :=
        if entry.isResolved then entry.frames.foldl writeVisibleFrame state
        else state
      let state :=
        if !state.2 && 0 < entry.frames.length then
          (entry.frames.drop 1).foldl writeVisibleFrame state
        else state
      let state :=
        if !state.2 && 1 < entry.frames.length then
          (entry.frames.drop 1).foldl writeInternalFrame state
        else state
      state.1

/-- `write_leak_json`. -/
def writeLeakJson (resolveOneFrame : Word → Bytes)
    (entries : Nat → ResolvedStack) (site : Option HttpLeakSite)
    (se : Option Nat) (fd : List Bytes) :
    List Bytes × (Nat → ResolvedStack) :=
  match site with
  | none => (fd ++ [ascii "\x7b\x7d"], entries)
  | some site =>
      let fd := writeFormatted 4096 fd (leakHead site)
      let entries :=
        match se with
        | some ptr =>
            if !(entries ptr).isResolved then
              Function.update entries ptr
                (mttStackResolve resolveOneFrame (entries ptr))
            else entries
        | none => entries
      (writeFrames fd (se.map entries) ++ [ascii "]\x7d"], entries)

def writeLeakStep (resolveOneFrame : Word → Bytes) (report : CachedReport)
    (state : List Bytes × Bool × (Nat → ResolvedStack))
    (cached : Option Nat) : List Bytes × Bool × (Nat → ResolvedStack) :=
  match cached with
  | none => state
  | some ptr =>
      let fd := if state.2.1 then state.1 ++ [[44]] else state.1
      let written := writeLeakJson resolveOneFrame state.2.2
        (some (report.sites ptr)) (findStackEntry report.cachedPairs cached) fd
      (written.1, true, written.2)

/-- The loop over the cached sites. -/
def writeLeaks (resolveOneFrame : Word → Bytes) (report : CachedReport)
    (entries : Nat → ResolvedStack) (fd : List Bytes) : List Bytes :=
  match report.cachedSites with
  | none => fd
  | some cached =>
      (cached.foldl (writeLeakStep resolveOneFrame report)
        (fd, false, entries)).1

/-- `handle_api_leaks`. -/
def handleApiLeaks (resolveOneFrame : Word → Bytes) (report : CachedReport)
    (entries : Nat → ResolvedStack) (fd : List Bytes) : List Bytes :=
  let fd := fd ++ [httpHeader]
  let fd := fd ++ [ascii "\x7b\"leaks\":["]
  writeLeaks resolveOneFrame report entries fd ++ [ascii "]\x7d"]

def writeTsStep (state : List Bytes × Bool) (point : HttpTsPoint) :
    List Bytes × Bool :=
  if point.timestamp = 0 then state
  else
    let fd := if state.2 then state.1 ++ [[44]] else state.1
    (writeFormatted 8192 fd (tsPointText point), true)

/-- `handle_api_data`. -/
def handleApiData (resolveOneFrame : Word → Bytes) (system : HttpSystem)
    (tracker : Option TrackerView) (series : MttTimeSeries HttpTsPoint)
    (report : CachedReport) (entries : Nat → ResolvedStack)
    (fd : List Bytes) : List Bytes :=
  let fd := fd ++ [httpHeader]
  let fd := writeFormatted 8192 fd
    (ascii "\x7b\"pid\":" ++ integer system.pid.toInt ++
      ascii ",\"proc_name\":")
  let fd := writeJsonString fd (servedProcName tracker)
  let fd := writeFormatted 8192 fd (dataStats system tracker)
  let fd := fd ++ [ascii ",\"time_series\":["]
  let points := handleApiDataRead system.tsReady system.rawMalloc
    system.bufferAllocated series
  let fd := (points.foldl writeTsStep (fd, false)).1
  let fd := fd ++ [ascii "]"]
  let fd := fd ++ [ascii ",\"leaks\":["]
  writeLeaks resolveOneFrame report entries fd ++ [ascii "]\x7d"]

def rootHeader : Bytes :=
  ascii "HTTP/1.0 200 OK\r\n" ++
    ascii "Content-Type: text/html; charset=utf-8\r\n" ++
    ascii "Cache-Control: no-store, no-cache, max-age=0\r\n" ++
    ascii "Connection: close\r\n" ++
    ascii "\r\n"

/-- The page is a parameter: any text. -/
def handleRoot (dashboardHtml : Bytes) (fd : List Bytes) : List Bytes :=
  let fd := fd ++ [rootHeader]
  fd ++ [dashboardHtml]

def notFoundBody : Bytes := ascii "\x7b\"error\":\"not found\"\x7d"

def notFoundHeader : Bytes :=
  ascii "HTTP/1.0 404 Not Found\r\n" ++
    ascii "Content-Type: application/json\r\n" ++
    ascii "Content-Length: " ++ decimal notFoundBody.length ++
    ascii "\r\nConnection: close\r\n\r\n"

/-- `handle_404`; its header has room for 255 bytes. -/
def handle404 (fd : List Bytes) : List Bytes :=
  let fd := fd ++ [notFoundHeader.take 255]
  fd ++ [notFoundBody]

/-! ## The text of the writes -/

/-- The state of a loop over a text, from that of the loop over writes. -/
def textOf {State : Type} (state : List Bytes × State) : Bytes × State :=
  (state.1.flatten, state.2)

theorem flatten_write (fd : List Bytes) (chunk : Bytes) :
    (fd ++ [chunk]).flatten = fd.flatten ++ chunk := by
  simp

theorem flatten_comma (fd : List Bytes) (wrote : Bool) :
    (if wrote then fd ++ [[44]] else fd).flatten =
      if wrote then fd.flatten ++ [44] else fd.flatten := by
  cases wrote <;> simp

theorem flatten_writeFormatted (size : Nat) (fd : List Bytes) (text : Bytes) :
    (writeFormatted size fd text).flatten =
      MemoryTraceTool.writeFormatted size fd.flatten text :=
  flatten_write fd _

theorem flatten_writeEscaped (fd : List Bytes) (str : Bytes) :
    (writeEscaped fd str).flatten =
      MemoryTraceTool.writeEscaped fd.flatten str := by
  unfold writeEscaped MemoryTraceTool.writeEscaped
  refine (List.foldl_hom List.flatten ?_).symm
  intro fd c
  split_ifs <;> simp

theorem flatten_writeJsonString (fd : List Bytes) (str : Bytes) :
    (writeJsonString fd str).flatten =
      MemoryTraceTool.writeJsonString fd.flatten str := by
  rw [writeJsonString, flatten_write, flatten_writeEscaped, flatten_write,
    MemoryTraceTool.writeJsonString]

theorem textOf_writeVisibleFrame (state : List Bytes × Bool)
    (frame : ResolvedFrame) :
    MemoryTraceTool.writeVisibleFrame (textOf state) frame =
      textOf (writeVisibleFrame state frame) := by
  unfold writeVisibleFrame MemoryTraceTool.writeVisibleFrame
  by_cases internal : isInternalFrame frame.resolved
  · simp only [internal, if_true]
  · simp only [internal, Bool.false_eq_true, if_false, textOf, flatten_write,
      flatten_writeEscaped, flatten_comma]
    rfl

theorem textOf_writeInternalFrame (state : List Bytes × Bool)
    (frame : ResolvedFrame) :
    MemoryTraceTool.writeInternalFrame (textOf state) frame =
      textOf (writeInternalFrame state frame) := by
  unfold writeInternalFrame MemoryTraceTool.writeInternalFrame
  by_cases unresolved : frame.resolved = []
  · simp only [unresolved, ne_eq, not_true_eq_false, if_false, textOf,
      flatten_write, flatten_writeFormatted, flatten_comma]
    rfl
  · simp only [unresolved, ne_eq, not_false_eq_true, if_true, textOf,
      flatten_write, flatten_writeEscaped, flatten_comma]
    rfl

theorem flatten_writeFrames (fd : List Bytes) (se : Option ResolvedStack) :
    (writeFrames fd se).flatten =
      MemoryTraceTool.writeFrames fd.flatten se := by
  have visible (frames : List ResolvedFrame) (state : List Bytes × Bool) :
      frames.foldl MemoryTraceTool.writeVisibleFrame (textOf state) =
        textOf (frames.foldl writeVisibleFrame state) :=
    List.foldl_hom textOf textOf_writeVisibleFrame
  have internal (frames : List ResolvedFrame) (state : List Bytes × Bool) :
      frames.foldl MemoryTraceTool.writeInternalFrame (textOf state) =
        textOf (frames.foldl writeInternalFrame state) :=
    List.foldl_hom textOf textOf_writeInternalFrame
  cases se with
  | none => rfl
  | some entry =>
      have first :
          (if entry.isResolved then
              entry.frames.foldl MemoryTraceTool.writeVisibleFrame
                (fd.flatten, false)
            else (fd.flatten, false)) =
            textOf (if entry.isResolved then
              entry.frames.foldl writeVisibleFrame (fd, false)
            else (fd, false)) := by
        split_ifs
        · exact visible entry.frames (fd, false)
        · rfl
      simp only [writeFrames, MemoryTraceTool.writeFrames, first]
      generalize (if entry.isResolved then
        entry.frames.foldl writeVisibleFrame (fd, false)
        else (fd, false)) = state
      have second :
          (if !(textOf state).2 && 0 < entry.frames.length then
              (entry.frames.drop 1).foldl MemoryTraceTool.writeVisibleFrame
                (textOf state)
            else textOf state) =
            textOf (if !state.2 && 0 < entry.frames.length then
              (entry.frames.drop 1).foldl writeVisibleFrame state
            else state) := by
        rw [visible]
        exact (apply_ite textOf _ _ _).symm
      rw [second]
      generalize (if !state.2 && 0 < entry.frames.length then
        (entry.frames.drop 1).foldl writeVisibleFrame state
        else state) = later
      rw [internal, ← apply_ite textOf]
      rfl

section Leaks

variable (resolveOneFrame : Word → Bytes)

theorem textOf_writeLeakJson (entries : Nat → ResolvedStack)
    (site : Option HttpLeakSite) (se : Option Nat) (fd : List Bytes) :
    MemoryTraceTool.writeLeakJson resolveOneFrame entries site se fd.flatten =
      textOf (writeLeakJson resolveOneFrame entries site se fd) := by
  cases site with
  | none =>
      simp only [writeLeakJson, MemoryTraceTool.writeLeakJson, textOf,
        flatten_write]
  | some site =>
      cases se with
      | none | some ptr =>
          simp only [writeLeakJson, MemoryTraceTool.writeLeakJson, textOf,
            flatten_write, flatten_writeFrames, flatten_writeFormatted]

theorem textOf_writeLeakStep (report : CachedReport)
    (state : List Bytes × Bool × (Nat → ResolvedStack))
    (cached : Option Nat) :
    MemoryTraceTool.writeLeakStep resolveOneFrame report (textOf state)
        cached =
      textOf (writeLeakStep resolveOneFrame report state cached) := by
  cases cached with
  | none => rfl
  | some ptr =>
      have comma := flatten_comma state.1 state.2.1
      have written := textOf_writeLeakJson resolveOneFrame state.2.2
        (some (report.sites ptr)) (findStackEntry report.cachedPairs (some ptr))
        (if state.2.1 then state.1 ++ [[44]] else state.1)
      rw [comma] at written
      simp only [writeLeakStep, MemoryTraceTool.writeLeakStep]
      exact congrArg (fun written => (written.1, true, written.2)) written

theorem flatten_writeLeaks (report : CachedReport)
    (entries : Nat → ResolvedStack) (fd : List Bytes) :
    (writeLeaks resolveOneFrame report entries fd).flatten =
      MemoryTraceTool.writeLeaks resolveOneFrame report entries
        fd.flatten := by
  unfold writeLeaks MemoryTraceTool.writeLeaks
  cases report.cachedSites with
  | none => rfl
  | some cached =>
      have loop : cached.foldl
          (MemoryTraceTool.writeLeakStep resolveOneFrame report)
          (textOf (fd, false, entries)) =
        textOf (cached.foldl (writeLeakStep resolveOneFrame report)
          (fd, false, entries)) :=
        List.foldl_hom textOf (textOf_writeLeakStep resolveOneFrame report)
      exact (congrArg Prod.fst loop).symm

theorem flatten_handleApiLeaks (report : CachedReport)
    (entries : Nat → ResolvedStack) (fd : List Bytes) :
    (handleApiLeaks resolveOneFrame report entries fd).flatten =
      MemoryTraceTool.handleApiLeaks resolveOneFrame report entries
        fd.flatten := by
  simp only [handleApiLeaks, MemoryTraceTool.handleApiLeaks, flatten_write,
    flatten_writeLeaks]

theorem textOf_writeTsStep (state : List Bytes × Bool)
    (point : HttpTsPoint) :
    MemoryTraceTool.writeTsStep (textOf state) point =
      textOf (writeTsStep state point) := by
  unfold writeTsStep MemoryTraceTool.writeTsStep
  by_cases unset : point.timestamp = 0
  · simp only [unset, if_true]
  · simp only [unset, if_false, textOf, flatten_writeFormatted, flatten_comma]
    rfl

theorem flatten_writeTsLoop (points : List HttpTsPoint) (fd : List Bytes) :
    (points.foldl writeTsStep (fd, false)).1.flatten =
      (points.foldl MemoryTraceTool.writeTsStep (fd.flatten, false)).1 := by
  have loop : points.foldl MemoryTraceTool.writeTsStep (textOf (fd, false)) =
      textOf (points.foldl writeTsStep (fd, false)) :=
    List.foldl_hom textOf textOf_writeTsStep
  exact (congrArg Prod.fst loop).symm

theorem flatten_handleApiData (system : HttpSystem)
    (tracker : Option TrackerView) (series : MttTimeSeries HttpTsPoint)
    (report : CachedReport) (entries : Nat → ResolvedStack)
    (fd : List Bytes) :
    (handleApiData resolveOneFrame system tracker series report entries
        fd).flatten =
      MemoryTraceTool.handleApiData resolveOneFrame system tracker series
        report entries fd.flatten := by
  simp only [handleApiData, MemoryTraceTool.handleApiData, flatten_write,
    flatten_writeLeaks, flatten_writeTsLoop, flatten_writeFormatted,
    flatten_writeJsonString]

end Leaks

/-! ## Responses -/

/-- What the handlers read. -/
structure Served where
  resolveOneFrame : Word → Bytes
  dashboardHtml : Bytes
  system : HttpSystem
  tracker : Option TrackerView
  series : MttTimeSeries HttpTsPoint
  report : CachedReport
  entries : Nat → ResolvedStack

/-- The calls of `write` for a page. -/
def Served.writes (served : Served) : Page → List Bytes
  | .root => handleRoot served.dashboardHtml []
  | .apiData =>
      handleApiData served.resolveOneFrame served.system served.tracker
        served.series served.report served.entries []
  | .apiLeaks =>
      handleApiLeaks served.resolveOneFrame served.report served.entries []
  | .notFound => handle404 []

/-- The complete response. -/
def Served.response (served : Served) : Page → Bytes
  | .root => rootHeader ++ served.dashboardHtml
  | .apiData =>
      MemoryTraceTool.handleApiData served.resolveOneFrame served.system
        served.tracker served.series served.report served.entries []
  | .apiLeaks =>
      MemoryTraceTool.handleApiLeaks served.resolveOneFrame served.report
        served.entries []
  | .notFound => notFoundHeader ++ notFoundBody

theorem flatten_writes (served : Served) (page : Page) :
    (served.writes page).flatten = served.response page := by
  cases page with
  | root => simp [Served.writes, Served.response, handleRoot]
  | apiData => exact flatten_handleApiData _ _ _ _ _ _ []
  | apiLeaks => exact flatten_handleApiLeaks _ _ _ []
  | notFound =>
      have short : notFoundHeader.take 255 = notFoundHeader := by decide
      simp [Served.writes, Served.response, handle404, short]

/-- The client gets the complete response to a request. -/
def SendsAll (served : Served) (results : WriteResults) (request : Bytes) :
    Prop :=
  received results 0 (served.writes (requestedPage request)) =
    served.response (requestedPage request)

/-- A response is complete exactly if no call of `write` is cut short or
interrupted. -/
theorem sendsAll_iff (served : Served) (results : WriteResults)
    (request : Bytes) :
    SendsAll served results request ↔
      TakesWhole results 0 (served.writes (requestedPage request)) := by
  rw [SendsAll, ← flatten_writes]
  exact received_eq_flatten_iff results 0 _

/-- A process without a report. -/
def emptyServed : Served where
  resolveOneFrame := fun _ => []
  dashboardHtml := []
  system :=
    { pid := 1
      now := 0
      sessionStart := 0
      ctx := false
      rssPages := none
      pageSize := 4096
      entrySize := 560
      tsReady := false
      rawMalloc := true
      bufferAllocated := true }
  tracker := none
  series := mttTsInit ⟨0, 0, 0, 0, 0, 0, 0, 0, 0⟩
  report :=
    { sites := fun _ => ⟨0, 0, 0, 0, 0, 0, 0, 0⟩
      cachedSites := none
      cachedPairs := none }
  entries := fun _ => ⟨[], false⟩

/-- The second call takes three bytes, all others take what they are given. -/
def shortWrite : WriteResults where
  result := fun index => .accepts (if index = 1 then 3 else 65536)
  accepts := fun index => ⟨index, Nat.le_refl _, by simp⟩

/-- The start of the object is cut after three bytes, and its end follows. -/
theorem not_sendsAll_shortWrite :
    ¬ SendsAll emptyServed shortWrite
      (ascii "GET /api/leaks HTTP/1.0\r\n\r\n") := by
  unfold SendsAll
  decide

end MemoryTraceTool.HttpWrites
