import MemoryTraceTool.Lib.Transition

/-!
# Publishing files by renaming

Clients write texts to files: some write to a temporary file and rename it to
the path that readers open, others write in place.  A directory maps paths to
inodes, an open stream stays on its inode whatever becomes of the path, and a
client may die at any moment.  When each client keeps the paths it publishes
and its temporary ones to itself, a reader finds at a published path one
finished text, and the inode it opened never changes again.
-/

namespace Publish

open Transition

/-! ## Files -/

/-- The directory and the contents of the inodes below `next`. -/
structure Disk (Path Byte : Type) where
  entry : Path → Option Nat
  data : Nat → List Byte
  next : Nat

/-- Paths lead to inodes that exist, and no two to the same. -/
structure Disk.Proper {Path Byte : Type} (disk : Disk Path Byte) : Prop where
  exist : ∀ path inode, disk.entry path = some inode → inode < disk.next
  single : ∀ path other inode, disk.entry path = some inode →
    disk.entry other = some inode → path = other

section Disk

variable {Path Byte : Type}

def Disk.append (disk : Disk Path Byte) (inode : Nat) (bytes : List Byte) :
    Disk Path Byte :=
  { disk with
    data := Function.update disk.data inode (disk.data inode ++ bytes) }

theorem Disk.append_data_self (disk : Disk Path Byte) (inode : Nat)
    (bytes : List Byte) :
    (disk.append inode bytes).data inode = disk.data inode ++ bytes := by
  simp [append]

variable [DecidableEq Path]

/-- `fopen(path, "w")`: the inode of the stream, and the disk afterwards. -/
def Disk.create (disk : Disk Path Byte) (path : Path) :
    Nat × Disk Path Byte :=
  match disk.entry path with
  | some inode =>
      (inode, { disk with data := Function.update disk.data inode [] })
  | none =>
      (disk.next,
        { entry := Function.update disk.entry path (some disk.next)
          data := Function.update disk.data disk.next []
          next := disk.next + 1 })

/-- `rename` of an existing file. -/
def Disk.rename (disk : Disk Path Byte) (source target : Path) :
    Disk Path Byte :=
  if source = target then disk
  else
    { disk with
      entry := Function.update
        (Function.update disk.entry target (disk.entry source)) source none }

def Disk.unlink (disk : Disk Path Byte) (path : Path) : Disk Path Byte :=
  { disk with entry := Function.update disk.entry path none }

theorem Disk.create_entry_self (disk : Disk Path Byte) (path : Path) :
    (disk.create path).2.entry path = some (disk.create path).1 := by
  cases there : disk.entry path with
  | some inode => simp [create, there]
  | none => simp [create, there]

theorem Disk.create_entry_of_ne (disk : Disk Path Byte) {path other : Path}
    (different : other ≠ path) :
    (disk.create path).2.entry other = disk.entry other := by
  cases there : disk.entry path with
  | some inode => simp [create, there]
  | none => simp [create, there, different]

theorem Disk.create_data_self (disk : Disk Path Byte) (path : Path) :
    (disk.create path).2.data (disk.create path).1 = [] := by
  cases there : disk.entry path with
  | some inode => simp [create, there]
  | none => simp [create, there]

theorem Disk.create_data_of_ne (disk : Disk Path Byte) {path : Path}
    {inode : Nat} (different : inode ≠ (disk.create path).1) :
    (disk.create path).2.data inode = disk.data inode := by
  cases there : disk.entry path with
  | some opened => simp_all [create]
  | none => simp_all [create]

theorem Disk.create_next_le (disk : Disk Path Byte) (path : Path) :
    disk.next ≤ (disk.create path).2.next := by
  cases there : disk.entry path with
  | some inode => simp [create, there]
  | none => simp [create, there]

theorem Disk.create_inode (disk : Disk Path Byte) (path : Path) :
    disk.entry path = some (disk.create path).1 ∨
      disk.entry path = none ∧ (disk.create path).1 = disk.next := by
  cases there : disk.entry path with
  | some inode => simp [create, there]
  | none => simp [create, there]

theorem Disk.Proper.create {disk : Disk Path Byte} (proper : disk.Proper)
    (path : Path) :
    (disk.create path).2.Proper ∧
      (disk.create path).1 < (disk.create path).2.next := by
  cases there : disk.entry path with
  | some inode =>
      refine ⟨⟨?_, ?_⟩, ?_⟩
      · simpa [Disk.create, there] using proper.exist
      · simpa [Disk.create, there] using proper.single
      · simpa [Disk.create, there] using proper.exist path inode there
  | none =>
      have fresh : ∀ other, disk.entry other ≠ some disk.next := by
        intro other same
        exact Nat.lt_irrefl _ (proper.exist other _ same)
      refine ⟨⟨?_, ?_⟩, by simp [Disk.create, there]⟩
      · intro other inode found
        simp only [Disk.create, there] at found ⊢
        by_cases same : other = path
        · subst same
          simp only [Function.update_self, Option.some.injEq] at found
          omega
        · rw [Function.update_of_ne same] at found
          exact Nat.lt_succ_of_lt (proper.exist other inode found)
      · intro first second inode atFirst atSecond
        simp only [Disk.create, there] at atFirst atSecond
        by_cases firstSame : first = path <;>
          by_cases secondSame : second = path
        · rw [firstSame, secondSame]
        · subst firstSame
          rw [Function.update_self, Option.some.injEq] at atFirst
          rw [Function.update_of_ne secondSame, ← atFirst] at atSecond
          exact absurd atSecond (fresh second)
        · subst secondSame
          rw [Function.update_self, Option.some.injEq] at atSecond
          rw [Function.update_of_ne firstSame, ← atSecond] at atFirst
          exact absurd atFirst (fresh first)
        · rw [Function.update_of_ne firstSame] at atFirst
          rw [Function.update_of_ne secondSame] at atSecond
          exact proper.single first second inode atFirst atSecond

/-- After a rename, an inode is where it was, or it came from the source. -/
theorem Disk.rename_entry {disk : Disk Path Byte} {source target path : Path}
    {inode : Nat} (there : (disk.rename source target).entry path =
      some inode) :
    disk.entry path = some inode ∧ (source ≠ target → path ≠ source ∧
      path ≠ target) ∨
    path = target ∧ disk.entry source = some inode := by
  by_cases same : source = target
  · rw [rename, if_pos same] at there
    exact .inl ⟨there, fun different => absurd same different⟩
  · rw [rename, if_neg same] at there
    by_cases atSource : path = source
    · subst atSource
      simp at there
    · simp only [Function.update_of_ne atSource] at there
      by_cases atTarget : path = target
      · subst atTarget
        exact .inr ⟨rfl, by simpa using there⟩
      · rw [Function.update_of_ne atTarget] at there
        exact .inl ⟨there, fun _ => ⟨atSource, atTarget⟩⟩

theorem Disk.Proper.rename {disk : Disk Path Byte} (proper : disk.Proper)
    (source target : Path) : (disk.rename source target).Proper := by
  have next : (disk.rename source target).next = disk.next := by
    rw [Disk.rename]
    split <;> rfl
  constructor
  · intro path inode there
    rw [next]
    rcases Disk.rename_entry there with ⟨before, -⟩ | ⟨-, before⟩
    · exact proper.exist path inode before
    · exact proper.exist source inode before
  · intro path other inode there otherThere
    rcases Disk.rename_entry there with ⟨before, apart⟩ | ⟨rfl, before⟩ <;>
      rcases Disk.rename_entry otherThere with
        ⟨otherBefore, otherApart⟩ | ⟨rfl, otherBefore⟩
    · exact proper.single path other inode before otherBefore
    · have same := proper.single path source inode before otherBefore
      by_cases moved : source = other
      · rw [same, moved]
      · exact absurd same (apart moved).1
    · have same := proper.single source other inode before otherBefore
      by_cases moved : source = path
      · rw [← moved, same]
      · exact absurd same.symm (otherApart moved).1
    · rfl

theorem Disk.unlink_entry {disk : Disk Path Byte} {removed path : Path}
    {inode : Nat}
    (there : (disk.unlink removed).entry path = some inode) :
    path ≠ removed ∧ disk.entry path = some inode := by
  by_cases same : path = removed
  · subst same
    simp [unlink] at there
  · simp only [unlink, Function.update_of_ne same] at there
    exact ⟨same, there⟩

theorem Disk.Proper.unlink {disk : Disk Path Byte} (proper : disk.Proper)
    (removed : Path) : (disk.unlink removed).Proper := by
  constructor
  · intro path inode there
    exact proper.exist path inode (Disk.unlink_entry there).2
  · intro path other inode there otherThere
    exact proper.single path other inode (Disk.unlink_entry there).2
      (Disk.unlink_entry otherThere).2

end Disk

/-! ## Clients -/

/-- A text to be written to `opened`, and the path it is then renamed to. -/
structure Job (Path Byte : Type) where
  opened : Path
  target : Option Path
  text : List Byte

/-- Where a client stands with its job.  `rest` is what the stream still holds
back; `whole` tells that none of the text was lost. -/
inductive Stage (Path Byte : Type) where
  | idle
  | writing (job : Job Path Byte) (inode : Nat) (rest : List Byte)
      (whole : Bool)
  | closed (job : Job Path Byte) (whole : Bool)
  | abandoned (job : Job Path Byte)
  | dead

/-- `published` is a ghost: the text of the last rename to a path, and whether
all of it had been written. -/
structure State (Client Path Byte : Type) where
  disk : Disk Path Byte
  stages : Client → Stage Path Byte
  published : Path → Option (List Byte × Bool)

/-- `flush` writes the next `taken` bytes and drops `lost` after them, as a
stream does whose write fails; `close` comes when nothing is held back. -/
inductive Label (Client Path Byte : Type) where
  | start (client : Client) (job : Job Path Byte)
  | flush (client : Client) (taken lost : Nat)
  | close (client : Client)
  | rename (client : Client) (succeeds : Bool)
  | unlink (client : Client) (succeeds : Bool)
  | die (client : Client)

variable {Client Path Byte : Type}

def State.move [DecidableEq Client] (state : State Client Path Byte)
    (client : Client) (stage : Stage Path Byte) : State Client Path Byte :=
  { state with stages := Function.update state.stages client stage }

/-- A stream that cannot be opened leaves the client idle, which is no
step. -/
def next [DecidableEq Client] [DecidableEq Path]
    (state : State Client Path Byte) :
    Label Client Path Byte → Option (State Client Path Byte)
  | .start client job =>
      match state.stages client with
      | .idle =>
          let (inode, disk) := state.disk.create job.opened
          some { state.move client (.writing job inode job.text true) with
            disk }
      | _ => none
  | .flush client taken lost =>
      match state.stages client with
      | .writing job inode rest whole =>
          some { state.move client
              (.writing job inode (rest.drop (taken + lost))
                (whole && ((rest.drop taken).take lost).isEmpty)) with
            disk := state.disk.append inode (rest.take taken) }
      | _ => none
  | .close client =>
      match state.stages client with
      | .writing job _ [] whole =>
          some (state.move client
            (if job.target.isSome then .closed job whole else .idle))
      | _ => none
  | .rename client succeeds =>
      match state.stages client with
      | .closed job whole =>
          match job.target with
          | none => none
          | some target =>
              if succeeds then
                if (state.disk.entry job.opened).isSome then
                  some { state.move client .idle with
                    disk := state.disk.rename job.opened target
                    published := Function.update state.published target
                      (some (job.text, whole)) }
                else none
              else some (state.move client (.abandoned job))
      | _ => none
  | .unlink client succeeds =>
      match state.stages client with
      | .abandoned job =>
          some { state.move client .idle with
            disk :=
              if succeeds then state.disk.unlink job.opened else state.disk }
      | _ => none
  | .die client =>
      match state.stages client with
      | .dead => none
      | _ => some (state.move client .dead)

/-- Any number of clients on a disk without hard links. -/
def system (Client : Type) [DecidableEq Client] [DecidableEq Path]
    (disk : Disk Path Byte) :
    System (State Client Path Byte) (Label Client Path Byte) where
  init := fun state =>
    disk.Proper ∧ state.disk = disk ∧
      (∀ client, state.stages client = .idle) ∧
      ∀ path, state.published path = none
  next := next

/-! ## Paths kept to oneself -/

/-- The temporary paths and the published ones belong to one client each. -/
structure Discipline (Client Path : Type) where
  temp : Client → Path → Prop
  target : Client → Path → Prop
  temp_unique : ∀ client other path, temp client path → temp other path →
    client = other
  target_unique : ∀ client other path, target client path →
    target other path → client = other
  apart : ∀ client other path, target client path → ¬ temp other path

namespace Discipline

variable (discipline : Discipline Client Path)

/-- The path is nobody's. -/
def Free (path : Path) : Prop :=
  ∀ client, ¬ discipline.temp client path ∧ ¬ discipline.target client path

/-- A job publishes through paths of the client, or uses nobody's paths. -/
inductive Allows (client : Client) (job : Job Path Byte) : Prop where
  | report (target : Path) : job.target = some target →
      discipline.temp client job.opened →
      discipline.target client target → Allows client job
  | other : discipline.Free job.opened →
      (∀ target, job.target = some target → discipline.Free target) →
      Allows client job

/-- Only allowed jobs are started. -/
def Keeps (_ : State Client Path Byte) :
    Label Client Path Byte → Prop
  | .start client job => discipline.Allows client job
  | _ => True

/-- The published paths, the one just renamed to apart, and the temporary
paths of the other clients. -/
def Kept (client : Client) (renamed : Option Path) (path : Path) : Prop :=
  (∃ owner, discipline.target owner path) ∧ renamed ≠ some path ∨
    ∃ owner, owner ≠ client ∧ discipline.temp owner path

end Discipline

/-- The kept paths and their files stay, and the inodes that nobody's paths
lead to stay with them. -/
structure Change (discipline : Discipline Client Path)
    (kept : Path → Prop) (disk changed : Disk Path Byte) : Prop where
  next : disk.next ≤ changed.next
  entry : ∀ path, kept path → changed.entry path = disk.entry path
  data : ∀ path inode, kept path → disk.entry path = some inode →
    changed.data inode = disk.data inode
  free : ∀ inode, inode < disk.next →
    (∀ path, disk.entry path = some inode → discipline.Free path) →
    ∀ path, changed.entry path = some inode → discipline.Free path

/-- What is known of a client at a stage. -/
def StageSound (discipline : Discipline Client Path)
    (disk : Disk Path Byte) (client : Client) : Stage Path Byte → Prop
  | .idle | .dead => True
  | .writing job inode rest whole =>
      inode < disk.next ∧ discipline.Allows client job ∧
        (discipline.temp client job.opened →
          disk.entry job.opened = some inode ∧
            (whole = true → disk.data inode ++ rest = job.text)) ∧
        (discipline.Free job.opened →
          ∀ path, disk.entry path = some inode → discipline.Free path)
  | .closed job whole =>
      discipline.Allows client job ∧
        (discipline.temp client job.opened →
          ∃ inode, disk.entry job.opened = some inode ∧
            (whole = true → disk.data inode = job.text))
  | .abandoned job => discipline.Allows client job

/-- A published path holds the text of the last rename to it, and before the
first one what was there in the beginning. -/
structure Sound (discipline : Discipline Client Path)
    (start : Disk Path Byte) (state : State Client Path Byte) : Prop where
  proper : state.disk.Proper
  stages : ∀ client,
    StageSound discipline state.disk client (state.stages client)
  untouched : ∀ owner path, discipline.target owner path →
    state.published path = none →
    state.disk.entry path = start.entry path ∧
      ∀ inode, start.entry path = some inode →
        state.disk.data inode = start.data inode
  published : ∀ owner path text whole, discipline.target owner path →
    state.published path = some (text, whole) →
    ∃ inode, state.disk.entry path = some inode ∧
      (whole = true → state.disk.data inode = text)

/-! ## What the steps change -/

section Changes

variable {discipline : Discipline Client Path} {client : Client}
  {job : Job Path Byte} {disk : Disk Path Byte}

theorem Discipline.Allows.opened
    (allowed : discipline.Allows client job) :
    discipline.temp client job.opened ∨ discipline.Free job.opened := by
  cases allowed with
  | report target _ temp _ => exact .inl temp
  | other free _ => exact .inr free

theorem Discipline.Allows.opened_not_kept {renamed : Option Path}
    (allowed : discipline.Allows client job) :
    ¬ discipline.Kept client renamed job.opened := by
  rintro (⟨⟨owner, target⟩, -⟩ | ⟨owner, other, temp⟩)
  · rcases allowed.opened with mine | free
    · exact discipline.apart owner client _ target mine
    · exact (free owner).2 target
  · rcases allowed.opened with mine | free
    · exact other (discipline.temp_unique owner client _ temp mine)
    · exact (free owner).1 temp

theorem Discipline.Free.not_kept {renamed : Option Path} {path : Path}
    (free : discipline.Free path) :
    ¬ discipline.Kept client renamed path := by
  rintro (⟨⟨owner, target⟩, -⟩ | ⟨owner, -, temp⟩)
  · exact (free owner).2 target
  · exact (free owner).1 temp

/-- A file that is nobody's is renamed to a path that is nobody's. -/
theorem Discipline.Allows.target_free {target : Path}
    (allowed : discipline.Allows client job)
    (renamed : job.target = some target)
    (free : discipline.Free job.opened) : discipline.Free target := by
  cases allowed with
  | report _ _ temp _ => exact absurd temp (free client).1
  | other _ targets => exact targets target renamed

theorem Discipline.Allows.target_not_kept {target : Path}
    (allowed : discipline.Allows client job)
    (renamed : job.target = some target) :
    ¬ discipline.Kept client (some target) target := by
  rintro (⟨-, different⟩ | ⟨owner, -, temp⟩)
  · exact different rfl
  · cases allowed with
    | report path named _ mine =>
        have same : path = target := Option.some.inj (named.symm.trans renamed)
        exact discipline.apart client owner target (same ▸ mine) temp
    | other _ targets => exact (targets target renamed owner).1 temp

theorem Change.refl (kept : Path → Prop) :
    Change discipline kept disk disk :=
  ⟨Nat.le_refl _, fun _ _ => rfl, fun _ _ _ _ => rfl,
    fun _ _ free => free⟩

theorem append_change {inode : Nat} {rest : List Byte} {whole : Bool}
    (proper : disk.Proper)
    (sound : StageSound discipline disk client
      (.writing job inode rest whole)) (bytes : List Byte) :
    Change discipline (discipline.Kept client none) disk
      (disk.append inode bytes) := by
  obtain ⟨-, allowed, mine, others⟩ := sound
  refine ⟨Nat.le_refl _, fun _ _ => rfl, ?_, fun _ _ free => free⟩
  intro path other kept there
  have different : other ≠ inode := by
    rintro rfl
    rcases allowed.opened with temp | free
    · have same := proper.single _ _ _ there (mine temp).1
      exact allowed.opened_not_kept (same ▸ kept)
    · exact (others free path there).not_kept kept
  simp [Disk.append, different]

variable [DecidableEq Path]

theorem create_change (proper : disk.Proper)
    (allowed : discipline.Allows client job) :
    Change discipline (discipline.Kept client none) disk
      (disk.create job.opened).2 := by
  refine ⟨disk.create_next_le _, ?_, ?_, ?_⟩
  · intro path kept
    apply disk.create_entry_of_ne
    rintro rfl
    exact allowed.opened_not_kept kept
  · intro path inode kept there
    apply disk.create_data_of_ne
    rintro rfl
    rcases disk.create_inode job.opened with opened | ⟨-, fresh⟩
    · have same := proper.single _ _ _ there opened
      exact allowed.opened_not_kept (same ▸ kept)
    · have old := proper.exist _ _ there
      omega
  · intro inode old free path there
    by_cases same : path = job.opened
    · subst same
      rw [disk.create_entry_self] at there
      rcases disk.create_inode job.opened with opened | ⟨-, fresh⟩
      · exact free _ (opened.trans there)
      · have inodes := Option.some.inj there
        omega
    · rw [disk.create_entry_of_ne same] at there
      exact free path there

theorem rename_change {target : Path}
    (allowed : discipline.Allows client job)
    (renamed : job.target = some target) :
    Change discipline (discipline.Kept client (some target)) disk
      (disk.rename job.opened target) := by
  have next : (disk.rename job.opened target).next = disk.next ∧
      (disk.rename job.opened target).data = disk.data := by
    rw [Disk.rename]
    split <;> exact ⟨rfl, rfl⟩
  refine ⟨Nat.le_of_eq next.1.symm, ?_, ?_, ?_⟩
  · intro path kept
    have opened : path ≠ job.opened := by
      rintro rfl
      exact allowed.opened_not_kept kept
    have moved : path ≠ target := by
      rintro rfl
      exact allowed.target_not_kept renamed kept
    rw [Disk.rename]
    split
    · rfl
    · simp [opened, moved]
  · intro path inode _ _
    rw [next.2]
  · intro inode _ free path there
    rcases Disk.rename_entry there with ⟨before, -⟩ | ⟨rfl, before⟩
    · exact free path before
    · exact allowed.target_free renamed (free _ before)

theorem unlink_change (allowed : discipline.Allows client job) :
    Change discipline (discipline.Kept client none) disk
      (disk.unlink job.opened) := by
  refine ⟨Nat.le_refl _, ?_, fun _ _ _ _ => rfl, ?_⟩
  · intro path kept
    have different : path ≠ job.opened := by
      rintro rfl
      exact allowed.opened_not_kept kept
    simp [Disk.unlink, different]
  · intro inode _ free path there
    exact free path (Disk.unlink_entry there).2

end Changes

/-! ## The invariant -/

section Invariant

variable {discipline : Discipline Client Path} {client : Client}

/-- A rename to a path of some client brings the text of the job there. -/
theorem StageSound.noted [DecidableEq Path] {disk : Disk Path Byte}
    {job : Job Path Byte}
    {whole : Bool} {published : Path → Option (List Byte × Bool)}
    {owner : Client} {target : Path}
    (sound : StageSound discipline disk client (.closed job whole))
    (renamed : job.target = some target)
    (owned : discipline.target owner target) :
    ∃ text noted inode,
      Function.update published target (some (job.text, whole)) target =
          some (text, noted) ∧
        (disk.rename job.opened target).entry target = some inode ∧
        (noted = true → (disk.rename job.opened target).data inode =
          text) := by
  obtain ⟨allowed, mine⟩ := sound
  cases allowed with
  | report _ _ temp _ =>
      obtain ⟨inode, there, text⟩ := mine temp
      have different : job.opened ≠ target := by
        intro same
        exact discipline.apart owner client target owned (same ▸ temp)
      refine ⟨job.text, whole, inode, Function.update_self .., ?_, ?_⟩
      · simp [Disk.rename, different, different.symm, there]
      · simpa [Disk.rename, different] using text
  | other _ targets => exact absurd owned (targets _ renamed owner).2

theorem StageSound.keep {renamed : Option Path}
    {disk changed : Disk Path Byte} {mover : Client}
    {stage : Stage Path Byte}
    (change : Change discipline (discipline.Kept mover renamed) disk changed)
    (different : client ≠ mover)
    (sound : StageSound discipline disk client stage) :
    StageSound discipline changed client stage := by
  have kept : ∀ path, discipline.temp client path →
      discipline.Kept mover renamed path :=
    fun path temp => .inr ⟨client, different, temp⟩
  cases stage with
  | idle => trivial
  | dead => trivial
  | abandoned job => exact sound
  | writing job inode rest whole =>
      obtain ⟨old, allowed, mine, others⟩ := sound
      refine ⟨Nat.lt_of_lt_of_le old change.next, allowed, ?_, ?_⟩
      · intro temp
        obtain ⟨there, text⟩ := mine temp
        rw [change.entry _ (kept _ temp), change.data _ _ (kept _ temp) there]
        exact ⟨there, text⟩
      · intro free
        exact change.free inode old (others free)
  | closed job whole =>
      obtain ⟨allowed, mine⟩ := sound
      refine ⟨allowed, fun temp => ?_⟩
      obtain ⟨inode, there, text⟩ := mine temp
      refine ⟨inode, ?_, ?_⟩
      · rw [change.entry _ (kept _ temp)]
        exact there
      · rw [change.data _ _ (kept _ temp) there]
        exact text

variable [DecidableEq Client]

/-- A step keeps the invariant if it changes no kept path, leaves the client
at a sound stage, and notes the text at a path of a client that it renames
to. -/
theorem Sound.keep {start : Disk Path Byte}
    {state : State Client Path Byte} {renamed : Option Path}
    {disk : Disk Path Byte} {stage : Stage Path Byte}
    {published : Path → Option (List Byte × Bool)}
    (sound : Sound discipline start state) (proper : disk.Proper)
    (change : Change discipline (discipline.Kept client renamed)
      state.disk disk)
    (stageSound : StageSound discipline disk client stage)
    (others : ∀ path, renamed ≠ some path →
      published path = state.published path)
    (noted : ∀ owner path, discipline.target owner path →
      renamed = some path →
      ∃ text whole inode, published path = some (text, whole) ∧
        disk.entry path = some inode ∧
        (whole = true → disk.data inode = text)) :
    Sound discipline start
      { state.move client stage with disk, published } := by
  have kept : ∀ owner path, discipline.target owner path →
      renamed ≠ some path → discipline.Kept client renamed path :=
    fun owner path target different => .inl ⟨⟨owner, target⟩, different⟩
  refine ⟨proper, ?_, ?_, ?_⟩
  · intro other
    simp only [State.move]
    by_cases same : other = client
    · subst same
      rw [Function.update_self]
      exact stageSound
    · rw [Function.update_of_ne same]
      exact (sound.stages other).keep change same
  · intro owner path target none
    by_cases here : renamed = some path
    · obtain ⟨text, whole, inode, some, -⟩ := noted owner path target here
      exact absurd (none.symm.trans some) (by simp)
    · have before := sound.untouched owner path target
        ((others path here).symm.trans none)
      refine ⟨?_, ?_⟩
      · exact (change.entry path (kept owner path target here)).trans before.1
      · intro inode there
        exact (change.data path inode (kept owner path target here)
          (before.1.trans there)).trans (before.2 inode there)
  · intro owner path text whole target some
    by_cases here : renamed = Option.some path
    · obtain ⟨notedText, notedWhole, inode, same, there, data⟩ :=
        noted owner path target here
      have pair := Option.some.inj (same.symm.trans some)
      rw [Prod.mk.injEq] at pair
      exact ⟨inode, there, pair.1 ▸ pair.2 ▸ data⟩
    · obtain ⟨inode, there, data⟩ := sound.published owner path text whole
        target ((others path here).symm.trans some)
      refine ⟨inode, ?_, ?_⟩
      · exact (change.entry path (kept owner path target here)).trans there
      · intro all
        exact (change.data path inode (kept owner path target here)
          there).trans (data all)

variable [DecidableEq Path]

theorem append_flush {written rest : List Byte} {taken lost : Nat}
    (none : (rest.drop taken).take lost = []) :
    written ++ rest.take taken ++ rest.drop (taken + lost) =
      written ++ rest := by
  have kept := List.take_append_drop lost (rest.drop taken)
  rw [none, List.nil_append, List.drop_drop] at kept
  rw [kept, List.append_assoc, List.take_append_drop]

theorem Sound.step {start : Disk Path Byte}
    {state after : State Client Path Byte} {label : Label Client Path Byte}
    (sound : Sound discipline start state)
    (allowed : discipline.Keeps state label)
    (taken : next state label = some after) :
    Sound discipline start after := by
  cases label with
  | start client job =>
      simp only [next] at taken
      split at taken
      · cases taken
        have created := sound.proper.create job.opened
        refine sound.keep created.1 (create_change sound.proper allowed) ?_
          (fun _ _ => rfl) nofun
        refine ⟨created.2, allowed, ?_, ?_⟩
        · intro temp
          refine ⟨Disk.create_entry_self _ _, fun _ => ?_⟩
          rw [Disk.create_data_self, List.nil_append]
        · intro free path there
          have same := created.1.single _ _ _ there
            (Disk.create_entry_self _ _)
          exact same ▸ free
      · contradiction
  | flush client taken lost =>
      simp only [next] at taken
      split at taken
      · rename_i job inode rest whole stage
        cases taken
        have before := sound.stages client
        rw [stage] at before
        refine sound.keep ⟨sound.proper.exist, sound.proper.single⟩
          (append_change sound.proper before _) ?_ (fun _ _ => rfl) nofun
        obtain ⟨old, job, mine, others⟩ := before
        refine ⟨old, job, fun temp => ⟨(mine temp).1, fun all => ?_⟩, others⟩
        simp only [Bool.and_eq_true] at all
        rw [← (mine temp).2 all.1, Disk.append_data_self]
        exact append_flush (List.isEmpty_iff.mp all.2)
      · contradiction
  | close client =>
      simp only [next] at taken
      split at taken
      · rename_i job inode whole stage
        cases taken
        have before := sound.stages client
        rw [stage] at before
        refine sound.keep sound.proper (.refl (discipline.Kept client none))
          ?_ (fun _ _ => rfl) nofun
        split
        · refine ⟨before.2.1, fun temp => ?_⟩
          obtain ⟨there, text⟩ := before.2.2.1 temp
          exact ⟨inode, there, by simpa using text⟩
        · trivial
      · contradiction
  | rename client succeeds =>
      simp only [next] at taken
      split at taken
      · rename_i job whole stage
        have before := sound.stages client
        rw [stage] at before
        split at taken
        · contradiction
        · rename_i target renamed
          split at taken
          · split at taken
            · cases taken
              refine sound.keep (sound.proper.rename _ _)
                (rename_change before.1 renamed) trivial ?_ ?_
              · intro path different
                apply Function.update_of_ne
                rintro rfl
                exact different rfl
              · intro owner path mine same
                cases same
                exact before.noted renamed mine
            · contradiction
          · cases taken
            exact sound.keep sound.proper
              (.refl (discipline.Kept client none)) before.1
              (fun _ _ => rfl) nofun
      · contradiction
  | unlink client succeeds =>
      simp only [next] at taken
      split at taken
      · rename_i job stage
        cases taken
        have before := sound.stages client
        rw [stage] at before
        cases succeeds with
        | true =>
            exact sound.keep (sound.proper.unlink _) (unlink_change before)
              trivial (fun _ _ => rfl) nofun
        | false =>
            exact sound.keep sound.proper
              (.refl (discipline.Kept client none)) trivial
              (fun _ _ => rfl) nofun
      · contradiction
  | die client =>
      simp only [next] at taken
      split at taken
      · contradiction
      · cases taken
        exact sound.keep sound.proper (.refl (discipline.Kept client none))
          trivial (fun _ _ => rfl) nofun

theorem sound_reachable {start : Disk Path Byte}
    {state : State Client Path Byte}
    (reachable : (system Client start).ReachableBy discipline.Keeps state) :
    Sound discipline start state := by
  refine reachable.invariant (Sound discipline start) ?_ ?_
  · rintro initial ⟨proper, rfl, idle, none⟩
    refine ⟨proper, ?_, fun _ _ _ _ => ⟨rfl, fun _ _ => rfl⟩, ?_⟩
    · intro client
      rw [idle client]
      trivial
    · intro owner path text whole _ some
      exact absurd ((none path).symm.trans some) (by simp)
  · intro before label after sound allowed taken
    exact sound.step allowed taken

end Invariant

/-! ## Readers -/

section Readers

variable {discipline : Discipline Client Path}

/-- No stream is on the inode, and it is at published paths only. -/
structure Sealed (discipline : Discipline Client Path)
    (state : State Client Path Byte) (inode : Nat) : Prop where
  exist : inode < state.disk.next
  paths : ∀ path, state.disk.entry path = some inode →
    ∃ owner, discipline.target owner path
  closed : ∀ client job rest whole,
    state.stages client ≠ .writing job inode rest whole

/-- No stream is on the inode of a published path. -/
theorem Sound.sealed {start : Disk Path Byte}
    {state : State Client Path Byte} {owner : Client} {path : Path}
    {inode : Nat} (sound : Sound discipline start state)
    (target : discipline.target owner path)
    (there : state.disk.entry path = some inode) :
    Sealed discipline state inode := by
  refine ⟨sound.proper.exist path inode there, ?_, ?_⟩
  · intro other found
    exact ⟨owner, sound.proper.single _ _ _ there found ▸ target⟩
  · intro client job rest whole writing
    have stage := sound.stages client
    rw [writing] at stage
    obtain ⟨-, allowed, mine, others⟩ := stage
    rcases allowed.opened with temp | free
    · have same := sound.proper.single _ _ _ there (mine temp).1
      exact discipline.apart owner client path target (same ▸ temp)
    · exact (others free path there owner).2 target

theorem Sealed.not_opened {state : State Client Path Byte} {client : Client}
    {job : Job Path Byte} {inode : Nat}
    (closed : Sealed discipline state inode)
    (allowed : discipline.Allows client job) :
    state.disk.entry job.opened ≠ some inode := by
  intro there
  obtain ⟨owner, target⟩ := closed.paths _ there
  rcases allowed.opened with temp | free
  · exact discipline.apart owner client _ target temp
  · exact (free owner).2 target

variable [DecidableEq Client]

theorem Sealed.keep {state : State Client Path Byte} {client : Client}
    {stage : Stage Path Byte} {disk : Disk Path Byte}
    {published : Path → Option (List Byte × Bool)} {inode : Nat}
    (closed : Sealed discipline state inode)
    (next : state.disk.next ≤ disk.next)
    (entry : ∀ path, disk.entry path = some inode →
      state.disk.entry path = some inode)
    (stream : ∀ job rest whole, stage ≠ .writing job inode rest whole) :
    Sealed discipline { state.move client stage with disk, published }
      inode := by
  refine ⟨Nat.lt_of_lt_of_le closed.exist next, ?_, ?_⟩
  · intro path there
    exact closed.paths path (entry path there)
  · intro other job rest whole
    simp only [State.move]
    by_cases same : other = client
    · subst same
      rw [Function.update_self]
      exact stream job rest whole
    · rw [Function.update_of_ne same]
      exact closed.closed other job rest whole

variable [DecidableEq Path]

theorem Sealed.step {start : Disk Path Byte}
    {state after : State Client Path Byte} {label : Label Client Path Byte}
    {inode : Nat} (sound : Sound discipline start state)
    (closed : Sealed discipline state inode)
    (allowed : discipline.Keeps state label)
    (taken : next state label = some after) :
    Sealed discipline after inode ∧
      after.disk.data inode = state.disk.data inode := by
  cases label with
  | start client job =>
      simp only [next] at taken
      split at taken
      · cases taken
        have different : inode ≠ (state.disk.create job.opened).1 := by
          rintro rfl
          rcases state.disk.create_inode job.opened with there | ⟨-, fresh⟩
          · exact closed.not_opened allowed there
          · have old := closed.exist
            omega
        refine ⟨closed.keep (state.disk.create_next_le _) ?_ ?_,
          state.disk.create_data_of_ne different⟩
        · intro path there
          have other : path ≠ job.opened := by
            rintro rfl
            rw [Disk.create_entry_self] at there
            exact different (Option.some.inj there).symm
          rwa [Disk.create_entry_of_ne _ other] at there
        · intro other rest whole writing
          cases writing
          exact different rfl
      · contradiction
  | flush client taken lost =>
      simp only [next] at taken
      split at taken
      · rename_i job opened rest whole stage
        cases taken
        have different : inode ≠ opened := by
          rintro rfl
          exact closed.closed client job rest whole stage
        refine ⟨closed.keep (Nat.le_refl _) (fun _ there => there) ?_, ?_⟩
        · intro other rest whole writing
          cases writing
          exact different rfl
        · simp [Disk.append, different]
      · contradiction
  | close client =>
      simp only [next] at taken
      split at taken
      · cases taken
        refine ⟨closed.keep (Nat.le_refl _) (fun _ there => there) ?_, rfl⟩
        intro job rest whole
        split <;> exact nofun
      · contradiction
  | rename client succeeds =>
      simp only [next] at taken
      split at taken
      · rename_i job whole stage
        have before := sound.stages client
        rw [stage] at before
        split at taken
        · contradiction
        · rename_i target renamed
          split at taken
          · split at taken
            · cases taken
              refine ⟨closed.keep ?_ ?_ nofun, ?_⟩
              · rw [Disk.rename]
                split <;> exact Nat.le_refl _
              · intro path there
                rcases Disk.rename_entry there with ⟨found, -⟩ | ⟨-, found⟩
                · exact found
                · exact absurd found (closed.not_opened before.1)
              · simp only [Disk.rename]
                split <;> rfl
            · contradiction
          · cases taken
            exact ⟨closed.keep (Nat.le_refl _) (fun _ there => there) nofun,
              rfl⟩
      · contradiction
  | unlink client succeeds =>
      simp only [next] at taken
      split at taken
      · cases taken
        refine ⟨closed.keep ?_ ?_ nofun, ?_⟩
        · split <;> exact Nat.le_refl _
        · intro path there
          split at there
          · exact (Disk.unlink_entry there).2
          · exact there
        · dsimp only
          split <;> rfl
      · contradiction
  | die client =>
      simp only [next] at taken
      split at taken
      · contradiction
      · cases taken
        exact ⟨closed.keep (Nat.le_refl _) (fun _ there => there) nofun, rfl⟩

theorem read_later {start : Disk Path Byte}
    {state later : State Client Path Byte} {owner : Client} {path : Path}
    {inode : Nat}
    (reachable : (system Client start).ReachableBy discipline.Keeps state)
    (target : discipline.target owner path)
    (there : state.disk.entry path = some inode)
    (steps : (system Client start).StepsBy discipline.Keeps state later) :
    later.disk.data inode = state.disk.data inode := by
  have sound := sound_reachable reachable
  have kept := steps.preserves
    (fun after => Sound discipline start after ∧
      Sealed discipline after inode ∧
      after.disk.data inode = state.disk.data inode) ?_
    ⟨sound, sound.sealed target there, rfl⟩
  · exact kept.2.2
  · rintro before label after ⟨sound, closed, same⟩ allowed taken
    have kept := closed.step sound allowed taken
    exact ⟨sound.step allowed taken, kept.1, kept.2.trans same⟩

end Readers

end Publish
