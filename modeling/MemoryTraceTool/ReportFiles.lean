import MemoryTraceTool.Lib.Json
import MemoryTraceTool.Lib.Publish

/-!
# The files of the reports

A scan writes its report to a temporary file and renames it, then writes the
folded stacks in place and, if it is asked to, a JSON report by way of another
temporary file; the reporter thread overwrites a line in a heartbeat file.
The names hold the process id and, but for the heartbeat file, the name of the
program.
-/

namespace MemoryTraceTool.ReportFiles

open Transition Publish Json

/-! ## The paths -/

/-- `snprintf` into a buffer of `size` bytes. -/
def snprintf (size : Nat) (text : Bytes) : Bytes := text.take (size - 1)

/-- A process id and the contents of `proc_name[256]`. -/
structure Process where
  pid : Nat
  procName : Bytes
  pidFits : pid < 2 ^ 31
  nameFits : procName.length < 256

inductive LogDir where
  | primary
  | fallback
  deriving DecidableEq, Repr

def LogDir.path : LogDir → Bytes
  | .primary => ascii "/var/log/mtt"
  | .fallback => ascii "/tmp/mtt-logs"

/-- `ensure_log_dir`: `made` tells that `mkdir` succeeds or the directory is
there. -/
def ensureLogDir (made writable : Bool) : LogDir :=
  if made && writable then .primary else .fallback

def mttHeartbeatDir : Bytes := ascii "/var/log/mtt"

/-- `"%s/%d_"` and what follows. -/
def pidPath (dir : Bytes) (pid : Nat) (rest : Bytes) : Bytes :=
  dir ++ 47 :: (decimal pid ++ 95 :: rest)

def logPath (dir : LogDir) (process : Process) : Bytes :=
  snprintf 768
    (pidPath dir.path process.pid (process.procName ++ ascii ".log"))

def tmpPath (dir : LogDir) (process : Process) : Bytes :=
  snprintf 768
    (pidPath dir.path process.pid (process.procName ++ ascii ".log.tmp"))

def foldedPath (dir : LogDir) (process : Process) : Bytes :=
  snprintf 512
    (pidPath dir.path process.pid (process.procName ++ ascii ".folded"))

def heartbeatPath (process : Process) : Bytes :=
  snprintf 256 (pidPath mttHeartbeatDir process.pid (ascii "heartbeat.log"))

def jsonTmp (jsonPath : Bytes) : Bytes :=
  snprintf 512 (jsonPath ++ ascii ".tmp")

theorem snprintf_of_fits {size : Nat} {text : Bytes}
    (fits : text.length < size) : snprintf size text = text :=
  List.take_of_length_le (by omega)

theorem pidPath_length {dir rest : Bytes} {process : Process} :
    (pidPath dir process.pid rest).length ≤ dir.length + rest.length + 12 := by
  have digits : (decimal process.pid).length ≤ 10 := by
    apply decimal_length_le (by decide)
    exact Nat.lt_trans process.pidFits (by decide)
  simp only [pidPath, List.length_append, List.length_cons]
  omega

theorem dir_length (dir : LogDir) : dir.path.length ≤ 13 := by
  cases dir <;> decide

section Names

variable (dir : LogDir) (process : Process)

theorem logPath_eq :
    logPath dir process =
      pidPath dir.path process.pid (process.procName ++ ascii ".log") := by
  apply snprintf_of_fits
  have whole := @pidPath_length dir.path
    (process.procName ++ ascii ".log") process
  have short := dir_length dir
  have name := process.nameFits
  have ending : (ascii ".log").length = 4 := rfl
  rw [List.length_append] at whole
  omega

theorem tmpPath_eq :
    tmpPath dir process =
      pidPath dir.path process.pid
        (process.procName ++ ascii ".log.tmp") := by
  apply snprintf_of_fits
  have whole := @pidPath_length dir.path
    (process.procName ++ ascii ".log.tmp") process
  have short := dir_length dir
  have name := process.nameFits
  have ending : (ascii ".log.tmp").length = 8 := rfl
  rw [List.length_append] at whole
  omega

theorem foldedPath_eq :
    foldedPath dir process =
      pidPath dir.path process.pid (process.procName ++ ascii ".folded") := by
  apply snprintf_of_fits
  have whole := @pidPath_length dir.path
    (process.procName ++ ascii ".folded") process
  have short := dir_length dir
  have name := process.nameFits
  have ending : (ascii ".folded").length = 7 := rfl
  rw [List.length_append] at whole
  omega

theorem heartbeatPath_eq :
    heartbeatPath process =
      pidPath mttHeartbeatDir process.pid (ascii "heartbeat.log") := by
  apply snprintf_of_fits
  have whole := @pidPath_length mttHeartbeatDir (ascii "heartbeat.log")
    process
  have short : mttHeartbeatDir.length = 12 := rfl
  have ending : (ascii "heartbeat.log").length = 13 := rfl
  omega

end Names

/-! ## Different files have different paths -/

theorem pidPath_inj {dir rest other : Bytes} {pid pid' : Nat}
    (same : pidPath dir pid rest = pidPath dir pid' other) :
    pid = pid' ∧ rest = other := by
  have tails := List.append_cancel_left same
  have numbers := (List.cons.inj tails).2
  have ends (rest : Bytes) : NumberEnds (95 :: rest) :=
    numberEnds_cons (by decide)
  have left := parseNat_decimal pid (ends rest)
  rw [numbers, parseNat_decimal pid' (ends other)] at left
  have pairs := Option.some.inj left
  rw [Prod.mk.injEq, List.cons.injEq] at pairs
  exact ⟨pairs.1.symm, pairs.2.2.symm⟩

/-- The paths in the two directories differ in their second byte. -/
theorem pidPath_dir {dir other : LogDir} {pid pid' : Nat}
    {rest rest' : Bytes}
    (same : pidPath dir.path pid rest = pidPath other.path pid' rest') :
    dir = other := by
  have bytes := congrArg (fun path => path[1]?) same
  cases dir <;> cases other <;>
    simp_all [pidPath, LogDir.path, ascii]

theorem pidPath_last (dir : Bytes) (pid : Nat) (name : Bytes)
    {ending : Bytes} {last : UInt8} (ends : ending.getLast? = some last) :
    (pidPath dir pid (name ++ ending)).getLast? = some last := by
  have shape : pidPath dir pid (name ++ ending) =
      (dir ++ 47 :: (decimal pid ++ 95 :: name)) ++ ending := by
    simp [pidPath]
  rw [shape, List.getLast?_append, ends]
  rfl

section Endings

variable (dir : LogDir) (process : Process)

theorem logPath_last : (logPath dir process).getLast? = some 103 := by
  rw [logPath_eq]
  exact pidPath_last _ _ _ rfl

theorem tmpPath_last : (tmpPath dir process).getLast? = some 112 := by
  rw [tmpPath_eq]
  exact pidPath_last _ _ _ rfl

theorem foldedPath_last : (foldedPath dir process).getLast? = some 100 := by
  rw [foldedPath_eq]
  exact pidPath_last _ _ _ rfl

theorem heartbeatPath_last : (heartbeatPath process).getLast? = some 103 := by
  rw [heartbeatPath_eq]
  exact pidPath_last mttHeartbeatDir process.pid [] rfl

end Endings

theorem logPath_pid {dir dir' : LogDir} {process other : Process}
    (same : logPath dir process = logPath dir' other) :
    process.pid = other.pid := by
  rw [logPath_eq, logPath_eq] at same
  cases pidPath_dir same
  exact (pidPath_inj same).1

theorem tmpPath_pid {dir dir' : LogDir} {process other : Process}
    (same : tmpPath dir process = tmpPath dir' other) :
    process.pid = other.pid := by
  rw [tmpPath_eq, tmpPath_eq] at same
  cases pidPath_dir same
  exact (pidPath_inj same).1

theorem logPath_ne_tmpPath (dir dir' : LogDir) (process other : Process) :
    logPath dir process ≠ tmpPath dir' other := by
  intro same
  have last := logPath_last dir process
  rw [same, tmpPath_last] at last
  contradiction

theorem foldedPath_ne_tmpPath (dir dir' : LogDir) (process other : Process) :
    foldedPath dir process ≠ tmpPath dir' other := by
  intro same
  have last := foldedPath_last dir process
  rw [same, tmpPath_last] at last
  contradiction

theorem foldedPath_ne_logPath (dir dir' : LogDir) (process other : Process) :
    foldedPath dir process ≠ logPath dir' other := by
  intro same
  have last := foldedPath_last dir process
  rw [same, logPath_last] at last
  contradiction

theorem heartbeatPath_ne_tmpPath (dir : LogDir) (process other : Process) :
    heartbeatPath process ≠ tmpPath dir other := by
  intro same
  have last := heartbeatPath_last process
  rw [same, tmpPath_last] at last
  contradiction

/-- A heartbeat file is a report file only of a process with this name. -/
theorem heartbeatPath_eq_logPath_iff {dir : LogDir}
    {process other : Process} :
    heartbeatPath process = logPath dir other ↔
      dir = .primary ∧ process.pid = other.pid ∧
        other.procName = ascii "heartbeat" := by
  have heartbeat : ascii "heartbeat.log" =
      ascii "heartbeat" ++ ascii ".log" := rfl
  rw [heartbeatPath_eq, logPath_eq]
  constructor
  · intro same
    have directory : mttHeartbeatDir = LogDir.primary.path := rfl
    rw [directory] at same
    have dirs := pidPath_dir same
    subst dirs
    obtain ⟨pids, names⟩ := pidPath_inj same
    rw [heartbeat] at names
    exact ⟨rfl, pids, (List.append_cancel_right names).symm⟩
  · rintro ⟨rfl, pids, name⟩
    rw [pids, name]
    rfl

/-! ## The writers -/

/-- Scans are serialised by `scan_mutex`; the heartbeat file is written
outside it. -/
inductive Writer where
  | scanner
  | heartbeat
  deriving DecidableEq, Repr

variable {Id : Type}

/-- What the processes write; `jsonPath` is the `MTT_REPORT_FILE` of each,
which it reads once. -/
inductive Writes (processes : Id → Process) (jsonPath : Id → Option Bytes) :
    Id × Writer → Job Bytes UInt8 → Prop where
  | report (id : Id) (made writable : Bool) (text : Bytes) :
      Writes processes jsonPath (id, .scanner)
        { opened := tmpPath (ensureLogDir made writable) (processes id)
          target := some (logPath (ensureLogDir made writable) (processes id))
          text }
  | folded (id : Id) (made writable : Bool) (text : Bytes) :
      Writes processes jsonPath (id, .scanner)
        { opened := foldedPath (ensureLogDir made writable) (processes id)
          target := none
          text }
  | json (id : Id) (path text : Bytes) (set : jsonPath id = some path)
      (filled : path ≠ []) :
      Writes processes jsonPath (id, .scanner)
        { opened := jsonTmp path
          target := some path
          text }
  | heartbeat (id : Id) (text : Bytes) :
      Writes processes jsonPath (id, .heartbeat)
        { opened := heartbeatPath (processes id)
          target := none
          text }

/-- The jobs that are started are those of the processes. -/
def WritesOwn (processes : Id → Process) (jsonPath : Id → Option Bytes)
    (_ : State (Id × Writer) Bytes UInt8) :
    Label (Id × Writer) Bytes UInt8 → Prop
  | .start client job => Writes processes jsonPath client job
  | _ => True

/-- The paths of the text report, temporary or not. -/
def ReportPath (processes : Id → Process) (path : Bytes) : Prop :=
  ∃ id dir, path = logPath dir (processes id) ∨
    path = tmpPath dir (processes id)

/-- The JSON reports do not go to the files of a text report. -/
def JsonApart (processes : Id → Process) (jsonPath : Id → Option Bytes) :
    Prop :=
  ∀ id path, jsonPath id = some path → path ≠ [] →
    ¬ ReportPath processes path ∧ ¬ ReportPath processes (jsonTmp path)

def IsHeartbeat (process : Process) : Prop :=
  process.procName = ascii "heartbeat"

instance (process : Process) : Decidable (IsHeartbeat process) :=
  inferInstanceAs (Decidable (_ = _))

/-- The scanner of a process has its report files to itself, but for a
process with the name of the heartbeat files. -/
def reportDiscipline (processes : Id → Process)
    (distinct : ∀ id other,
      (processes id).pid = (processes other).pid → id = other) :
    Discipline (Id × Writer) Bytes where
  temp := fun client path =>
    client.2 = .scanner ∧ ¬ IsHeartbeat (processes client.1) ∧
      ∃ dir, path = tmpPath dir (processes client.1)
  target := fun client path =>
    client.2 = .scanner ∧ ¬ IsHeartbeat (processes client.1) ∧
      ∃ dir, path = logPath dir (processes client.1)
  temp_unique := by
    rintro ⟨id, writer⟩ ⟨other, otherWriter⟩ path ⟨rfl, -, dir, rfl⟩
      ⟨rfl, -, otherDir, same⟩
    rw [distinct id other (tmpPath_pid same)]
  target_unique := by
    rintro ⟨id, writer⟩ ⟨other, otherWriter⟩ path ⟨rfl, -, dir, rfl⟩
      ⟨rfl, -, otherDir, same⟩
    rw [distinct id other (logPath_pid same)]
  apart := by
    rintro client other path ⟨-, -, dir, rfl⟩ ⟨-, -, otherDir, same⟩
    exact logPath_ne_tmpPath _ _ _ _ same

section Discipline

variable {processes : Id → Process}
  (distinct : ∀ id other,
    (processes id).pid = (processes other).pid → id = other)

/-- A path is nobody's if it is no report path of another process and no
temporary one. -/
theorem free_of_ne {path : Bytes}
    (log : ∀ id dir, ¬ IsHeartbeat (processes id) →
      path ≠ logPath dir (processes id))
    (tmp : ∀ id dir, ¬ IsHeartbeat (processes id) →
      path ≠ tmpPath dir (processes id)) :
    (reportDiscipline processes distinct).Free path := by
  rintro ⟨id, writer⟩
  constructor
  · rintro ⟨-, named, dir, same⟩
    exact tmp id dir named same
  · rintro ⟨-, named, dir, same⟩
    exact log id dir named same

theorem allows_of_writes {jsonPath : Id → Option Bytes}
    (apart : JsonApart processes jsonPath) {client : Id × Writer}
    {job : Job Bytes UInt8}
    (writes : Writes processes jsonPath client job) :
    (reportDiscipline processes distinct).Allows client job := by
  cases writes with
  | report id made writable text =>
      by_cases named : IsHeartbeat (processes id)
      · have alone : ∀ other, (processes id).pid = (processes other).pid →
            IsHeartbeat (processes other) :=
          fun other same => distinct id other same ▸ named
        refine .other (free_of_ne distinct ?_ ?_) ?_
        · intro other otherDir _
          exact (logPath_ne_tmpPath _ _ _ _).symm
        · intro other otherDir unnamed same
          exact unnamed (alone other (tmpPath_pid same))
        · rintro _ ⟨⟩
          refine free_of_ne distinct ?_ ?_
          · intro other otherDir unnamed same
            exact unnamed (alone other (logPath_pid same))
          · intro other otherDir _
            exact logPath_ne_tmpPath _ _ _ _
      · exact .report _ rfl ⟨rfl, named, _, rfl⟩ ⟨rfl, named, _, rfl⟩
  | folded id made writable text =>
      refine .other (free_of_ne distinct ?_ ?_) nofun
      · intro other otherDir _
        exact foldedPath_ne_logPath _ _ _ _
      · intro other otherDir _
        exact foldedPath_ne_tmpPath _ _ _ _
  | json id path text set filled =>
      obtain ⟨target, temp⟩ := apart id path set filled
      refine .other (free_of_ne distinct ?_ ?_) ?_
      · intro other dir _ same
        exact temp ⟨other, dir, .inl same⟩
      · intro other dir _ same
        exact temp ⟨other, dir, .inr same⟩
      · rintro _ ⟨⟩
        refine free_of_ne distinct ?_ ?_
        · intro other dir _ same
          exact target ⟨other, dir, .inl same⟩
        · intro other dir _ same
          exact target ⟨other, dir, .inr same⟩
  | heartbeat id text =>
      refine .other (free_of_ne distinct ?_ ?_) nofun
      · intro other dir named same
        exact named (heartbeatPath_eq_logPath_iff.mp same).2.2
      · intro other dir _
        exact heartbeatPath_ne_tmpPath _ _ _

theorem keeps_of_writesOwn {jsonPath : Id → Option Bytes}
    (apart : JsonApart processes jsonPath)
    (state : State (Id × Writer) Bytes UInt8)
    (label : Label (Id × Writer) Bytes UInt8)
    (own : WritesOwn processes jsonPath state label) :
    (reportDiscipline processes distinct).Keeps state label := by
  cases label with
  | start client job => exact allows_of_writes distinct apart own
  | flush _ _ _ | close _ | rename _ _ | unlink _ _ | die _ => trivial

end Discipline

def emptyDisk : Disk Bytes UInt8 :=
  { entry := fun _ => none
    data := fun _ => []
    next := 0 }

/-- Two processes, of which the second has the name of the heartbeat files. -/
def twoProcesses : Bool → Process
  | false => ⟨41, ascii "app", by decide, by decide⟩
  | true => ⟨42, ascii "heartbeat", by decide, by decide⟩

/-- The first process is also asked for a JSON report. -/
def appJson : Bool → Option Bytes
  | false => some (ascii "/j")
  | true => none

abbrev appLog : Bytes := logPath .primary (twoProcesses false)

theorem appJson_apart : JsonApart twoProcesses appJson := by
  have other : ∀ rest, ¬ ReportPath twoProcesses (ascii "/j" ++ rest) := by
    rintro rest ⟨id, dir, same | same⟩
    · rw [logPath_eq] at same
      have bytes := congrArg (fun path => path[1]?) same
      cases dir <;> simp [pidPath, LogDir.path, ascii] at bytes
    · rw [tmpPath_eq] at same
      have bytes := congrArg (fun path => path[1]?) same
      cases dir <;> simp [pidPath, LogDir.path, ascii] at bytes
  intro id path set filled
  cases id with
  | false =>
      cases set
      exact ⟨other [], other (ascii ".tmp")⟩
  | true => cases set

/-- The report of the first process comes in two flushes, the second process
writes its heartbeat in between, and the JSON report is cut off by a full
disk. -/
def reportSteps : List (Label (Bool × Writer) Bytes UInt8) :=
  [.start (false, .scanner)
      { opened := tmpPath .primary (twoProcesses false)
        target := some appLog
        text := ascii "leaks" },
    .flush (false, .scanner) 2 0,
    .start (true, .heartbeat)
      { opened := heartbeatPath (twoProcesses true)
        target := none
        text := ascii "ts" },
    .flush (true, .heartbeat) 2 0, .die (true, .heartbeat),
    .flush (false, .scanner) 3 0, .close (false, .scanner),
    .rename (false, .scanner) true,
    .start (false, .scanner)
      { opened := jsonTmp (ascii "/j")
        target := some (ascii "/j")
        text := ascii "json" },
    .flush (false, .scanner) 1 3, .close (false, .scanner),
    .rename (false, .scanner) true]

end MemoryTraceTool.ReportFiles
