import MemoryTraceTool.StackHash
import MemoryTraceTool.Lib.Intervals
import MemoryTraceTool.Lib.Scanf

/-!
# Executable address ranges

`addr_validate.c` reads `/proc/self/maps` into a buffer of 16 KB, keeps the
executable ranges of its lines and searches them by bisection.  A text that
does not fit ends inside a line.  Addresses and `unsigned long` have `w` bits.
-/

namespace MemoryTraceTool.AddrValidate

open Scanf

def mttMaxExecRanges : Nat := 256

def mttMapsBufSize : Nat := 16384

def mttLibnameMax : Nat := 64

/-- `exec_range_t`. -/
structure ExecRange (w : Nat) where
  lo : BitVec w
  hi : BitVec w
  libname : Bytes
  deriving DecidableEq, Repr

/-- A text behind a file descriptor, and how much a read at an offset gives
before the end of the text. -/
structure MapsFile where
  text : Bytes
  chunk : Nat → Nat
  chunk_pos : ∀ offset, 0 < chunk offset

/-- `g_ranges`, `g_range_count` and whether `g_init_once` has run. -/
structure AddrState (w : Nat) where
  ranges : Nat → ExecRange w
  rangeCount : Nat
  initDone : Bool

/-- The read loop from a number of bytes read on; the fuel bounds the reads. -/
def readMaps (chunk : Nat → Nat) : Nat → Nat → Bytes → Bytes
  | 0, _, _ => []
  | fuel + 1, total, rest =>
      if total < mttMapsBufSize - 1 then
        let got :=
          min (min (chunk total) (mttMapsBufSize - 1 - total)) rest.length
        if got = 0 then []
        else rest.take got ++ readMaps chunk fuel (total + got) (rest.drop got)
      else []

/-- `"%lx-%lx %7s %*x %*x:%*x %*u %n"`. -/
def mapsFormat (w : Nat) : List Directive :=
  [.number w 16 true, .char 45, .number w 16 true, .space, .word 7, .space,
    .number 32 16 false, .space, .number 32 16 false, .char 58,
    .number 32 16 false, .space, .number 32 10 false, .space, .position]

/-- The bytes before the terminator. -/
def cString (text : Bytes) : Bytes := text.takeWhile fun byte => byte ≠ 0

/-- The text from the last occurrence on. -/
def strrchr : Bytes → UInt8 → Option Bytes
  | [], _ => none
  | byte :: rest, wanted =>
      match strrchr rest wanted with
      | some found => some found
      | none => if byte = wanted then some (byte :: rest) else none

/-- The name that is kept of a path. -/
def libnameOf (path : Bytes) : Bytes :=
  let base :=
    match strrchr path 47 with
    | some found => found.drop 1
    | none => path
  base.take (mttLibnameMax - 1)

/-- One turn of the line loop, on a line without its end. -/
def parseLine (w : Nat) (line : Bytes) : Option (ExecRange w) :=
  let text := cString line
  match sscanf (mapsFormat w) text with
  | { items := .number lo :: .number hi :: .word perm :: _,
      positions := pathOff :: _ } =>
      if 0 < pathOff ∧ 120 ∈ perm then
        let path := (text.drop pathOff).dropWhile fun byte =>
          byte = 32 ∨ byte = 9
        some
          { lo := BitVec.ofNat w lo
            hi := BitVec.ofNat w hi
            libname := libnameOf path }
      else none
  | _ => none

/-- The line loop with room for some more ranges; the fuel bounds the turns. -/
def parseLines (w : Nat) : Nat → Nat → Bytes → List (ExecRange w)
  | 0, _, _ => []
  | fuel + 1, room, text =>
      if room = 0 ∨ text = [] then []
      else
        let line := text.takeWhile fun byte => byte ≠ 10
        let rest := (text.dropWhile fun byte => byte ≠ 10).drop 1
        match parseLine w line with
        | some range => range :: parseLines w fuel (room - 1) rest
        | none => parseLines w fuel room rest

variable {w : Nat}

/-- Without the file everything stays as it is. -/
def parseMapsLocked (file : Option MapsFile) (state : AddrState w) :
    AddrState w :=
  match file with
  | none => state
  | some file =>
      let buf := readMaps file.chunk mttMapsBufSize 0 file.text
      let tmp := parseLines w buf.length mttMaxExecRanges buf
      { state with
        ranges := fun index => (tmp[index]?).getD (state.ranges index)
        rangeCount := tmp.length }

/-- `mtt_addr_validate_init`: the file is read once. -/
def mttAddrValidateInit (file : Option MapsFile) (state : AddrState w) :
    AddrState w :=
  if state.initDone then state
  else { parseMapsLocked file state with initDone := true }

/-- The bisection of both queries. -/
def searchRanges (state : AddrState w) (address : BitVec w) : Option Nat :=
  if state.rangeCount = 0 then none
  else
    Intervals.search (fun index => (state.ranges index).lo.toNat)
      (fun index => (state.ranges index).hi.toNat) address.toNat
      state.rangeCount 0 (state.rangeCount - 1)

/-- `mtt_addr_is_executable`, with the initialisation that it may start. -/
def mttAddrIsExecutable (file : Option MapsFile) (state : AddrState w)
    (addr : BitVec w) : Bool × AddrState w :=
  if addr = 0 then (false, state)
  else
    let state := mttAddrValidateInit file state
    ((searchRanges state (mttFixThumbAddr addr)).isSome, state)

/-- `mtt_addr_libname`; NULL stands for no mapping. -/
def mttAddrLibname (file : Option MapsFile) (state : AddrState w)
    (addr : BitVec w) : Option Bytes × AddrState w :=
  if addr = 0 then (none, state)
  else
    let state := mttAddrValidateInit file state
    ((searchRanges state (mttFixThumbAddr addr)).map fun index =>
      (state.ranges index).libname, state)

/-- A query that initialises the cache answers as the later ones do. -/
theorem mttAddrIsExecutable_stable (file : Option MapsFile)
    (state : AddrState w) (first addr : BitVec w) :
    (mttAddrIsExecutable file (mttAddrIsExecutable file state first).2
        addr).1 =
      (mttAddrIsExecutable file state addr).1 := by
  have initialised : (mttAddrValidateInit file state).initDone = true := by
    unfold mttAddrValidateInit
    split
    · assumption
    · rfl
  have once : mttAddrValidateInit file (mttAddrValidateInit file state) =
      mttAddrValidateInit file state := if_pos initialised
  by_cases zero : first = 0
  · have unchanged : (mttAddrIsExecutable file state first).2 = state := by
      rw [mttAddrIsExecutable, if_pos zero]
    rw [unchanged]
  · simp only [mttAddrIsExecutable, if_neg zero, once]
    split <;> rfl

/-! ## The lines of the kernel -/

/-- A line of `/proc/self/maps` about a range of addresses of `w` bits. -/
structure MapsLine (w : Nat) where
  lo : Bytes
  hi : Bytes
  readable : Bool
  writable : Bool
  executable : Bool
  isShared : Bool
  offset : Bytes
  major : Bytes
  minor : Bytes
  inode : Bytes
  padding : Nat
  path : Bytes
  lo_hex : IsNumeral 16 lo
  hi_hex : IsNumeral 16 hi
  offset_hex : IsNumeral 16 offset
  major_hex : IsNumeral 16 major
  minor_hex : IsNumeral 16 minor
  inode_decimal : IsNumeral 10 inode
  nonempty : numeral 16 lo < numeral 16 hi
  fits : numeral 16 hi < 2 ^ w
  path_bytes : ∀ byte ∈ path, byte ≠ 10 ∧ byte ≠ 0
  path_start : ∀ byte ∈ path.head?, isSpace byte = false

namespace MapsLine

variable (line : MapsLine w)

def lower : Nat := numeral 16 line.lo

def upper : Nat := numeral 16 line.hi

/-- `rwxp`, a missing permission as `-`. -/
def perm : Bytes :=
  [if line.readable then 114 else 45, if line.writable then 119 else 45,
    if line.executable then 120 else 45, if line.isShared then 115 else 112]

/-- The inode, the blanks after it and the path. -/
def tail : Bytes :=
  line.inode ++ (List.replicate (line.padding + 1) 32 ++ line.path)

def text : Bytes :=
  line.lo ++ 45 :: line.hi ++ 32 :: line.perm ++ 32 :: line.offset ++
    32 :: line.major ++ 58 :: line.minor ++ 32 :: line.tail

/-- The mapping holds the address, its upper bound excluded. -/
def Covers (address : BitVec w) : Prop :=
  line.lower ≤ address.toNat ∧ address.toNat < line.upper

/-- What is kept of an executable line. -/
def range : ExecRange w :=
  { lo := BitVec.ofNat w line.lower
    hi := BitVec.ofNat w line.upper
    libname := libnameOf line.path }

end MapsLine

/-- The lines of `/proc/self/maps`, each with its newline. -/
def mapsText (maps : List (MapsLine w)) : Bytes :=
  maps.flatMap fun line => line.text ++ [10]

/-- Disjoint ranges in ascending order. -/
def AscendingMaps (maps : List (MapsLine w)) : Prop :=
  maps.Pairwise fun before after => before.upper ≤ after.lower

/-! ## The read loop -/

/-- The buffer holds the text up to its last byte but one. -/
theorem readMaps_eq_take {chunk : Nat → Nat}
    (positive : ∀ offset, 0 < chunk offset) {fuel total : Nat} {rest : Bytes}
    (enough : mttMapsBufSize - 1 - total < fuel) :
    readMaps chunk fuel total rest =
      rest.take (mttMapsBufSize - 1 - total) := by
  induction fuel generalizing total rest with
  | zero => omega
  | succ fuel induction =>
      simp only [readMaps]
      by_cases room : total < mttMapsBufSize - 1
      · rw [if_pos room]
        generalize same :
          min (min (chunk total) (mttMapsBufSize - 1 - total)) rest.length =
            got
        have some_ := positive total
        by_cases zero : got = 0
        · rw [if_pos zero]
          have empty : rest = [] := List.eq_nil_of_length_eq_zero (by omega)
          rw [empty, List.take_nil]
        · rw [if_neg zero, induction (by omega), ← List.take_add]
          congr 1
          omega
      · rw [if_neg room]
        have full : mttMapsBufSize - 1 - total = 0 := by omega
        rw [full, List.take_zero]

/-! ## One line -/

namespace MapsLine

variable (line : MapsLine w)

theorem lower_fits : numeral 16 line.lo < 2 ^ w :=
  lt_trans line.nonempty line.fits

theorem perm_solid : ∀ byte ∈ line.perm, isSpace byte = false := by
  have pick : ∀ (flag : Bool) (yes no : UInt8), isSpace yes = false →
      isSpace no = false → isSpace (if flag then yes else no) = false := by
    intro flag yes no isYes isNo
    cases flag
    · exact isNo
    · exact isYes
  intro byte member
  simp only [perm, List.mem_cons, List.not_mem_nil, or_false] at member
  rcases member with rfl | rfl | rfl | rfl <;>
    exact pick _ _ _ (by decide) (by decide)

theorem mem_perm_iff : 120 ∈ line.perm ↔ line.executable = true := by
  unfold perm
  cases line.readable <;> cases line.writable <;> cases line.executable <;>
    cases line.isShared <;> decide

/-- The fields before the inode. -/
def fields : List Field :=
  [.number w 16 true line.lo line.lo_hex fun _ => line.lower_fits,
    .char 45,
    .number w 16 true line.hi line.hi_hex fun _ => line.fits,
    .blank,
    .word 7 line.perm (by simp [perm]) (by simp [perm]) line.perm_solid,
    .blank,
    .number 32 16 false line.offset line.offset_hex (by simp),
    .blank,
    .number 32 16 false line.major line.major_hex (by simp),
    .char 58,
    .number 32 16 false line.minor line.minor_hex (by simp),
    .blank]

theorem text_eq_segments : line.text = segments line.fields ++ line.tail := by
  simp [text, segments, fields, Field.number, Field.char, Field.blank,
    Field.word]

theorem mapsFormat_eq_fields :
    mapsFormat w = line.fields.map Field.directive ++
      [.number 32 10 false, .space, .position] := rfl

theorem items_fields :
    line.fields.filterMap Field.item =
      [.number line.lower, .number line.upper, .word line.perm] := rfl

theorem head_of_numeral {base : Nat} {digits text : Bytes}
    (number : IsNumeral base digits) (front : digits <+: text) :
    ∀ byte ∈ text.head?, isSpace byte = false := by
  obtain ⟨first, more, rfl⟩ := List.exists_cons_of_ne_nil number.nonempty
  obtain ⟨rest, rfl⟩ := front
  rintro byte ⟨⟩
  exact not_isSpace_of_isDigit (number.digits first List.mem_cons_self)

theorem endsNumber_head {base : Nat} {byte : UInt8} {rest : Bytes}
    (ends : EndsNumber base byte) :
    ∀ next ∈ (byte :: rest).head?, EndsNumber base next := by
  rintro next ⟨⟩
  exact ends

theorem chained_fields : Chained line.fields line.tail := by
  have blank : EndsNumber 16 32 := by
    refine ⟨?_, ?_, ?_⟩ <;> decide
  have dash : EndsNumber 16 45 := by
    refine ⟨?_, ?_, ?_⟩ <;> decide
  have colon : EndsNumber 16 58 := by
    refine ⟨?_, ?_, ?_⟩ <;> decide
  refine ⟨endsNumber_head dash, fun _ _ => trivial, endsNumber_head blank, ?_,
    ?_, ?_, endsNumber_head blank, ?_, endsNumber_head colon,
    fun _ _ => trivial, endsNumber_head blank, ?_, trivial⟩
  · rintro byte ⟨⟩
    exact line.perm_solid _ List.mem_cons_self
  · rintro byte ⟨⟩
    exact (by decide : isSpace 32 = true)
  · exact head_of_numeral line.offset_hex
      ((List.prefix_append line.offset _).trans (List.prefix_append _ _))
  · exact head_of_numeral line.major_hex
      ((List.prefix_append line.major _).trans (List.prefix_append _ _))
  · exact head_of_numeral line.inode_decimal
      (List.prefix_append line.inode _)

theorem plain_of_isDigit {base : Nat} {digits : Bytes}
    (number : IsNumeral base digits) :
    ∀ byte ∈ digits, byte ≠ 10 ∧ byte ≠ 0 := by
  intro byte member
  have range := isDigit_range (number.digits byte member)
  constructor
  · rintro rfl
    exact absurd range (by decide)
  · rintro rfl
    exact absurd range (by decide)

/-- No line holds a line end or a terminator. -/
theorem text_plain : ∀ byte ∈ line.text, byte ≠ 10 ∧ byte ≠ 0 := by
  have solid : ∀ byte ∈ line.perm, byte ≠ 10 ∧ byte ≠ 0 := by
    intro byte member
    have space := line.perm_solid byte member
    simp only [perm, List.mem_cons, List.not_mem_nil, or_false] at member
    constructor
    · rintro rfl
      exact absurd space (by decide)
    · rintro rfl
      revert member
      cases line.readable <;> cases line.writable <;>
        cases line.executable <;> cases line.isShared <;> decide
  intro byte member
  simp only [text, tail, List.mem_append, List.mem_cons,
    List.mem_replicate] at member
  rcases member with (((((inLo | rfl | inHi) | rfl | inPerm) | rfl |
    inOffset) | rfl | inMajor) | rfl | inMinor) | rfl | inInode | ⟨-, rfl⟩ |
    inPath
  · exact plain_of_isDigit line.lo_hex byte inLo
  · decide
  · exact plain_of_isDigit line.hi_hex byte inHi
  · decide
  · exact solid byte inPerm
  · decide
  · exact plain_of_isDigit line.offset_hex byte inOffset
  · decide
  · exact plain_of_isDigit line.major_hex byte inMajor
  · decide
  · exact plain_of_isDigit line.minor_hex byte inMinor
  · decide
  · exact plain_of_isDigit line.inode_decimal byte inInode
  · decide
  · exact line.path_bytes byte inPath

end MapsLine

theorem cString_of_plain {text : Bytes}
    (plain : ∀ byte ∈ text, byte ≠ 10 ∧ byte ≠ 0) : cString text = text := by
  apply List.takeWhile_eq_self_iff.mpr
  intro byte member
  simpa using (plain byte member).2

theorem items_tailFormat (length : Nat) (text : Bytes) :
    (scanFrom length [.number 32 10 false, .space, .position] text).items =
      [] := by
  simp only [scanFrom, consume]
  cases scanNumber 32 10 text <;> simp

theorem MapsLine.sscanf_cut (line : MapsLine w) {cut : Bytes}
    (front : cut <+: line.text) :
    (sscanf (mapsFormat w) cut).positions = [] ∨
      (sscanf (mapsFormat w) cut).items =
        [.number line.lower, .number line.upper, .word line.perm] := by
  rw [line.text_eq_segments] at front
  have blocked : Blocked [.number 32 10 false, .space, .position] := trivial
  rcases scanFrom_cut cut.length line.chained_fields blocked
      front with ⟨left, -, -, scanned⟩ | stopped
  · right
    rw [sscanf, line.mapsFormat_eq_fields, scanned, items_tailFormat,
      line.items_fields, List.append_nil]
  · left
    rw [sscanf, line.mapsFormat_eq_fields, stopped]

theorem MapsLine.parseLine_cut (line : MapsLine w) {cut : Bytes}
    {range : ExecRange w} (front : cut <+: line.text)
    (kept : parseLine w cut = some range) :
    line.executable = true ∧ range.lo = BitVec.ofNat w line.lower ∧
      range.hi = BitVec.ofNat w line.upper := by
  have plain := cString_of_plain fun byte member =>
    line.text_plain byte (front.mem member)
  simp only [parseLine, plain] at kept
  have scanned := line.sscanf_cut front
  split at kept
  · rename_i lo hi perm more pathOff later same
    rw [same] at scanned
    rcases scanned with stopped | items
    · cases stopped
    · simp only [List.cons.injEq, Item.number.injEq, Item.word.injEq] at items
      obtain ⟨rfl, rfl, rfl, -⟩ := items
      split at kept
      · rename_i accepted
        obtain rfl := Option.some.inj kept
        exact ⟨line.mem_perm_iff.mp accepted.2, rfl, rfl⟩
      · cases kept
  · cases kept

theorem MapsLine.sscanf_text (line : MapsLine w) :
    sscanf (mapsFormat w) line.text =
      { items := [.number line.lower, .number line.upper, .word line.perm]
        positions := [line.text.length - line.path.length] } := by
  have inode : scanNumber 32 10 line.tail = some
      (converted 32 false (numeral 10 line.inode),
        List.replicate (line.padding + 1) 32 ++ line.path) := by
    apply scanNumber_append line.inode_decimal
    rintro byte ⟨⟩
    refine ⟨?_, ?_, ?_⟩ <;> decide
  have blanks : (List.replicate (line.padding + 1) 32 ++ line.path).dropWhile
      isSpace = line.path := by
    apply (span_append _ line.path_start).2
    intro byte member
    obtain rfl := List.eq_of_mem_replicate member
    decide
  have row := scanFrom_row line.text.length
    [.number 32 10 false, .space, .position] line.chained_fields
  rw [← line.text_eq_segments, ← line.mapsFormat_eq_fields,
    line.items_fields, items_tailFormat, List.append_nil] at row
  rw [sscanf, row]
  simp [scanFrom, consume, inode, blanks]

theorem MapsLine.parseLine_text (line : MapsLine w) :
    parseLine w line.text =
      if line.executable then some line.range else none := by
  have path : line.text.drop (line.text.length - line.path.length) =
      line.path := by
    obtain ⟨front, same⟩ : ∃ front, line.text = front ++ line.path := by
      rw [line.text_eq_segments]
      simp only [MapsLine.tail, ← List.append_assoc]
      exact ⟨_, rfl⟩
    rw [same, List.length_append, Nat.add_sub_cancel, List.drop_left]
  have stripped : (line.path.dropWhile fun byte =>
      decide (byte = 32 ∨ byte = 9)) = line.path := by
    apply dropWhile_of_head
    intro byte member
    have start := line.path_start byte member
    rw [decide_eq_false_iff_not]
    rintro (rfl | rfl)
    · exact absurd start (by decide)
    · exact absurd start (by decide)
  have found : 0 < line.text.length - line.path.length := by
    rw [line.text_eq_segments]
    simp only [MapsLine.tail, List.length_append, List.length_replicate]
    omega
  simp only [parseLine, cString_of_plain line.text_plain, line.sscanf_text,
    path, stripped, found, line.mem_perm_iff, true_and]
  rfl

/-! ## The whole text -/

theorem parseLines_nil (fuel room : Nat) : parseLines w fuel room [] = [] := by
  cases fuel <;> simp [parseLines]

/-- A turn of the loop on a line that the text holds with its end. -/
theorem parseLines_line (line : MapsLine w) {fuel room : Nat} (rest : Bytes)
    (spare : 0 < room) :
    parseLines w (fuel + 1) room (line.text ++ 10 :: rest) =
      if line.executable then
        line.range :: parseLines w fuel (room - 1) rest
      else parseLines w fuel room rest := by
  have inside : ∀ byte ∈ line.text, decide (byte ≠ 10) = true := by
    intro byte member
    simpa using (line.text_plain byte member).1
  have ends : ∀ byte ∈ (10 :: rest).head?, decide (byte ≠ 10) = false := by
    simp
  have span := span_append inside ends
  have going : ¬ (room = 0 ∨ line.text ++ 10 :: rest = []) := by
    simp
    omega
  rw [parseLines, if_neg going]
  simp only [span.1, span.2, line.parseLine_text]
  cases line.executable <;> simp

/-- A turn of the loop on a line that ends with the text. -/
theorem parseLines_cut (line : MapsLine w) {fuel room : Nat} {cut : Bytes}
    (front : cut <+: line.text) :
    ∀ range ∈ parseLines w fuel room cut, parseLine w cut = some range := by
  have inside : ∀ byte ∈ cut, decide (byte ≠ 10) = true := by
    intro byte member
    simpa using (line.text_plain byte (front.mem member)).1
  have ends : ∀ byte ∈ ([] : Bytes).head?, decide (byte ≠ 10) = false := by
    simp
  have span := span_append inside ends
  rw [List.append_nil] at span
  intro range member
  cases fuel with
  | zero => cases member
  | succ fuel =>
      rw [parseLines] at member
      split at member
      · cases member
      · simp only [span.1, span.2, List.drop_nil, parseLines_nil] at member
        split at member
        · rename_i kept
          rw [kept, List.mem_singleton.mp member]
        · cases member

/-- What is kept of a text that is cut off comes from its executable lines. -/
theorem mem_parseLines {maps : List (MapsLine w)} {fuel room : Nat}
    {text : Bytes} (front : text <+: mapsText maps) :
    ∀ range ∈ parseLines w fuel room text,
      ∃ line ∈ maps, line.executable = true ∧
        range.lo = BitVec.ofNat w line.lower ∧
        range.hi = BitVec.ofNat w line.upper := by
  induction maps generalizing fuel room text with
  | nil =>
      rw [List.prefix_nil.mp front, parseLines_nil]
      exact fun range member => absurd member List.not_mem_nil
  | cons line maps induction =>
      have follows : mapsText (line :: maps) =
          line.text ++ 10 :: mapsText maps := by
        simp [mapsText]
      rw [follows] at front
      have cutInside : text <+: line.text →
          ∀ range ∈ parseLines w fuel room text,
            ∃ other ∈ line :: maps, other.executable = true ∧
              range.lo = BitVec.ofNat w other.lower ∧
              range.hi = BitVec.ofNat w other.upper := by
        intro inside range member
        have kept := parseLines_cut line inside range member
        exact ⟨line, List.mem_cons_self, line.parseLine_cut inside kept⟩
      rcases List.prefix_or_prefix_of_prefix front
          (List.prefix_append line.text _) with inside | ⟨left, rfl⟩
      · exact cutInside inside
      · have leftFront := (List.prefix_append_right_inj _).mp front
        rcases List.prefix_cons_iff.mp leftFront with
          rfl | ⟨rest, rfl, restFront⟩
        · exact cutInside (by simp)
        · intro range member
          cases fuel with
          | zero => cases member
          | succ fuel =>
              by_cases spare : 0 < room
              · rw [parseLines_line line rest spare] at member
                split at member
                · rename_i executable
                  rcases List.mem_cons.mp member with rfl | later
                  · exact ⟨line, List.mem_cons_self, executable, rfl, rfl⟩
                  · obtain ⟨other, inMaps, facts⟩ :=
                      induction restFront range later
                    exact ⟨other, List.mem_cons_of_mem _ inMaps, facts⟩
                · obtain ⟨other, inMaps, facts⟩ :=
                    induction restFront range member
                  exact ⟨other, List.mem_cons_of_mem _ inMaps, facts⟩
              · rw [parseLines, if_pos (.inl (by omega))] at member
                cases member

theorem parseLines_mapsText {maps : List (MapsLine w)} {fuel room : Nat}
    (few : (maps.filter MapsLine.executable).length ≤ room)
    (enough : (mapsText maps).length ≤ fuel) :
    parseLines w fuel room (mapsText maps) =
      (maps.filter MapsLine.executable).map MapsLine.range := by
  induction maps generalizing fuel room with
  | nil => exact parseLines_nil fuel room
  | cons line maps induction =>
      have follows : mapsText (line :: maps) =
          line.text ++ 10 :: mapsText maps := by
        simp [mapsText]
      rw [follows] at enough ⊢
      rw [List.length_append, List.length_cons] at enough
      obtain ⟨fuel, rfl⟩ : ∃ more, fuel = more + 1 := ⟨fuel - 1, by omega⟩
      by_cases executable : line.executable = true
      · rw [List.filter_cons_of_pos executable] at few ⊢
        rw [List.length_cons] at few
        rw [parseLines_line line _ (by omega), if_pos executable,
          induction (by omega) (by omega), List.map_cons]
      · rw [List.filter_cons_of_neg executable] at few ⊢
        by_cases spare : 0 < room
        · rw [parseLines_line line _ spare, if_neg executable,
            induction few (by omega)]
        · have none_ : maps.filter MapsLine.executable = [] :=
            List.eq_nil_of_length_eq_zero (by omega)
          rw [parseLines, if_pos (.inl (by omega)), none_, List.map_nil]

/-! ## The queries -/

/-- The cached ranges are those of the last time that a text was read. -/
def LastRead (text : Bytes) (state : AddrState w) : Prop :=
  ∃ (file : MapsFile) (before : AddrState w), file.text = text ∧
    state.ranges = (parseMapsLocked (some file) before).ranges ∧
    state.rangeCount = (parseMapsLocked (some file) before).rangeCount

/-- The file name in a path: what comes after its last slash. -/
def IsBasename (path base : Bytes) : Prop :=
  47 ∉ base ∧ (path = base ∨ ∃ directory, path = directory ++ 47 :: base)

theorem strrchr_none {path : Bytes} {byte : UInt8}
    (missing : strrchr path byte = none) : byte ∉ path := by
  induction path with
  | nil => exact List.not_mem_nil
  | cons first rest induction =>
      simp only [strrchr] at missing
      split at missing
      · cases missing
      · rename_i later
        split at missing
        · cases missing
        · rename_i different
          intro member
          rcases List.mem_cons.mp member with rfl | inRest
          · exact different rfl
          · exact induction later inRest

theorem strrchr_some {path found : Bytes} {byte : UInt8}
    (present : strrchr path byte = some found) :
    ∃ directory base, path = directory ++ found ∧ found = byte :: base ∧
      byte ∉ base := by
  induction path with
  | nil => cases present
  | cons first rest induction =>
      simp only [strrchr] at present
      split at present
      · rename_i later
        obtain ⟨directory, base, same, shape, missing⟩ :=
          induction (later.trans present)
        exact ⟨first :: directory, base, by rw [same, List.cons_append],
          shape, missing⟩
      · rename_i later
        split at present
        · rename_i same
          obtain rfl := Option.some.inj present
          exact ⟨[], rest, rfl, by rw [same], strrchr_none later⟩
        · cases present

/-- The name that is kept is the file name, cut to 63 bytes. -/
theorem libnameOf_basename (path : Bytes) :
    ∃ base, IsBasename path base ∧ libnameOf path = base.take 63 := by
  unfold libnameOf
  cases found : strrchr path 47 with
  | none => exact ⟨path, ⟨strrchr_none found, .inl rfl⟩, rfl⟩
  | some suffix =>
      obtain ⟨directory, base, same, rfl, missing⟩ := strrchr_some found
      exact ⟨base, ⟨missing, .inr ⟨directory, same⟩⟩, rfl⟩

/-- The ranges that a text leaves in the cache. -/
def keptRanges (w : Nat) (text : Bytes) : List (ExecRange w) :=
  let buf := text.take (mttMapsBufSize - 1)
  parseLines w buf.length mttMaxExecRanges buf

theorem readMaps_text (file : MapsFile) :
    readMaps file.chunk mttMapsBufSize 0 file.text =
      file.text.take (mttMapsBufSize - 1) :=
  readMaps_eq_take file.chunk_pos (by decide)

theorem LastRead.count {text : Bytes} {state : AddrState w}
    (last : LastRead text state) :
    state.rangeCount = (keptRanges w text).length := by
  obtain ⟨file, before, rfl, -, count⟩ := last
  rw [count]
  simp only [parseMapsLocked, keptRanges, readMaps_text]

theorem LastRead.range {text : Bytes} {state : AddrState w}
    (last : LastRead text state) {index : Nat}
    (inside : index < (keptRanges w text).length) :
    state.ranges index = (keptRanges w text)[index] := by
  obtain ⟨file, before, rfl, ranges, -⟩ := last
  rw [ranges]
  simp only [parseMapsLocked, readMaps_text]
  change ((keptRanges w file.text)[index]?).getD _ = _
  rw [List.getElem?_eq_getElem inside, Option.getD_some]

/-- A position that the bisection finds holds a cached range of the address. -/
theorem searchRanges_sound {text : Bytes} {state : AddrState w}
    {address : BitVec w} {index : Nat} (last : LastRead text state)
    (found : searchRanges state address = some index) :
    ∃ range ∈ keptRanges w text, range.lo.toNat ≤ address.toNat ∧
      address.toNat < range.hi.toNat := by
  unfold searchRanges at found
  split at found
  · cases found
  · have sound := Intervals.search_sound (by omega) found
    have inside : index < (keptRanges w text).length := by
      rw [← last.count]
      omega
    rw [last.range inside] at sound
    exact ⟨_, List.getElem_mem inside, sound.2⟩

theorem searchRanges_complete {text : Bytes} {state : AddrState w}
    {address : BitVec w} {index : Nat} (last : LastRead text state)
    (ascending : Intervals.Ascending
      (fun index => (state.ranges index).lo.toNat)
      (fun index => (state.ranges index).hi.toNat)
      (keptRanges w text).length)
    (inside : index < (keptRanges w text).length)
    (above : (keptRanges w text)[index].lo.toNat ≤ address.toNat)
    (below : address.toNat < (keptRanges w text)[index].hi.toNat) :
    searchRanges state address = some index := by
  have count := last.count
  rw [← last.range inside] at above below
  unfold searchRanges
  rw [if_neg (by omega)]
  exact Intervals.search_complete ascending (Int.le_refl 0) (by omega)
    (by omega) (by omega) (by omega) above below

theorem MapsLine.range_lo (line : MapsLine w) :
    line.range.lo.toNat = line.lower :=
  (BitVec.toNat_ofNat _ _).trans (Nat.mod_eq_of_lt line.lower_fits)

theorem MapsLine.range_hi (line : MapsLine w) :
    line.range.hi.toNat = line.upper :=
  (BitVec.toNat_ofNat _ _).trans (Nat.mod_eq_of_lt line.fits)

/-- A cut text leaves only ranges of executable lines. -/
theorem mem_keptRanges {maps : List (MapsLine w)} {text : Bytes}
    (front : text <+: mapsText maps) {range : ExecRange w}
    (member : range ∈ keptRanges w text) :
    ∃ line ∈ maps, line.executable = true ∧
      range.lo.toNat = line.lower ∧ range.hi.toNat = line.upper := by
  obtain ⟨line, inMaps, executable, lo, hi⟩ :=
    mem_parseLines ((List.take_prefix _ text).trans front) range member
  refine ⟨line, inMaps, executable, ?_, ?_⟩
  · rw [lo]
    exact line.range_lo
  · rw [hi]
    exact line.range_hi

theorem keptRanges_mapsText {maps : List (MapsLine w)}
    (fits : (mapsText maps).length ≤ mttMapsBufSize - 1)
    (few : (maps.filter MapsLine.executable).length ≤ mttMaxExecRanges) :
    keptRanges w (mapsText maps) =
      (maps.filter MapsLine.executable).map MapsLine.range := by
  unfold keptRanges
  rw [List.take_of_length_le fits]
  exact parseLines_mapsText few le_rfl

theorem ascending_keptRanges {maps : List (MapsLine w)} {state : AddrState w}
    (ascending : AscendingMaps maps) (last : LastRead (mapsText maps) state)
    (kept : keptRanges w (mapsText maps) =
      (maps.filter MapsLine.executable).map MapsLine.range) :
    Intervals.Ascending (fun index => (state.ranges index).lo.toNat)
      (fun index => (state.ranges index).hi.toNat)
      (keptRanges w (mapsText maps)).length := by
  have filtered := ascending.filter MapsLine.executable
  have line : ∀ index (inside : index < (keptRanges w (mapsText maps)).length),
      ∃ (bound : index < (maps.filter MapsLine.executable).length),
        state.ranges index =
          (maps.filter MapsLine.executable)[index].range := by
    intro index inside
    have bound : index < (maps.filter MapsLine.executable).length := by
      simpa [kept] using inside
    refine ⟨bound, ?_⟩
    rw [last.range inside]
    simp [kept]
  constructor
  · intro index inside
    obtain ⟨bound, same⟩ := line index inside
    rw [same, MapsLine.range_lo, MapsLine.range_hi]
    exact MapsLine.nonempty _
  · intro before after earlier inside
    obtain ⟨afterBound, afterSame⟩ := line after inside
    obtain ⟨beforeBound, beforeSame⟩ := line before (by omega)
    rw [afterSame, beforeSame, MapsLine.range_lo, MapsLine.range_hi]
    exact List.pairwise_iff_getElem.mp filtered before after beforeBound
      afterBound earlier

/-- After a read of the text, or of what the buffer holds of it, an address is
taken for executable only if an executable line covers it; if the whole text
was read, every such address is, under the file name of that line. -/
theorem mttAddr_describes_maps {maps : List (MapsLine w)}
    (ascending : AscendingMaps maps) {text : Bytes}
    (front : text <+: mapsText maps) {file : Option MapsFile}
    {state : AddrState w}
    (last : LastRead text (mttAddrValidateInit file state))
    {addr : BitVec w} (nonnull : addr ≠ 0) :
    ((mttAddrIsExecutable file state addr).1 = true →
      ∃ line ∈ maps, line.executable = true ∧
        line.Covers (mttFixThumbAddr addr)) ∧
    (text = mapsText maps → text.length ≤ mttMapsBufSize - 1 →
      (maps.filter MapsLine.executable).length ≤ mttMaxExecRanges →
      ∀ line ∈ maps, line.executable = true →
        line.Covers (mttFixThumbAddr addr) →
        (mttAddrIsExecutable file state addr).1 = true ∧
          ∃ base, IsBasename line.path base ∧
            (mttAddrLibname file state addr).1 = some (base.take 63)) := by
  unfold mttAddrIsExecutable mttAddrLibname
  rw [if_neg nonnull, if_neg nonnull]
  dsimp only
  refine ⟨?_, ?_⟩
  · intro accepted
    obtain ⟨index, found⟩ := Option.isSome_iff_exists.mp accepted
    obtain ⟨range, member, above, below⟩ := searchRanges_sound last found
    obtain ⟨line, inMaps, executable, lo, hi⟩ := mem_keptRanges front member
    exact ⟨line, inMaps, executable, lo ▸ above, hi ▸ below⟩
  · rintro rfl fits few line inMaps executable covers
    have kept := keptRanges_mapsText fits few
    obtain ⟨index, bound, same⟩ := List.mem_iff_getElem.mp
      (List.mem_filter.mpr ⟨inMaps, executable⟩)
    have inside : index < (keptRanges w (mapsText maps)).length := by
      simpa [kept] using bound
    have range : (keptRanges w (mapsText maps))[index] = line.range := by
      simp [kept, same]
    obtain ⟨above, below⟩ := covers
    rw [← line.range_lo, ← range] at above
    rw [← line.range_hi, ← range] at below
    have found := searchRanges_complete last
      (ascending_keptRanges ascending last kept) inside above below
    obtain ⟨base, isBase, name⟩ := libnameOf_basename line.path
    refine ⟨by rw [found, Option.isSome_some], base, isBase, ?_⟩
    rw [found, Option.map_some, last.range inside, range]
    exact congrArg some name

/-- `1000-2000 r-xp 0 0:0 7 /l/c`. -/
def textLine : MapsLine 64 where
  lo := [49, 48, 48, 48]
  hi := [50, 48, 48, 48]
  readable := true
  writable := false
  executable := true
  isShared := false
  offset := [48]
  major := [48]
  minor := [48]
  inode := [55]
  padding := 0
  path := [47, 108, 47, 99]
  lo_hex := .of_all (by decide) (by decide)
  hi_hex := .of_all (by decide) (by decide)
  offset_hex := .of_all (by decide) (by decide)
  major_hex := .of_all (by decide) (by decide)
  minor_hex := .of_all (by decide) (by decide)
  inode_decimal := .of_all (by decide) (by decide)
  nonempty := by decide
  fits := by decide
  path_bytes := by simp
  path_start := by simp [isSpace]

/-- `2000-3000 rw-p 0 0:0 7 /l/c`. -/
def dataLine : MapsLine 64 :=
  { textLine with
    lo := [50, 48, 48, 48]
    hi := [51, 48, 48, 48]
    writable := true
    executable := false
    lo_hex := .of_all (by decide) (by decide)
    hi_hex := .of_all (by decide) (by decide)
    nonempty := by decide
    fits := by decide }

/-- `8000-a000 r-xp 0 0:0 7 [vdso]`. -/
def vdsoLine : MapsLine 64 :=
  { textLine with
    lo := [56, 48, 48, 48]
    hi := [97, 48, 48, 48]
    path := [91, 118, 100, 115, 111, 93]
    lo_hex := .of_all (by decide) (by decide)
    hi_hex := .of_all (by decide) (by decide)
    nonempty := by decide
    fits := by decide
    path_bytes := by simp
    path_start := by simp [isSpace] }

/-- The file of three lines, read seven bytes at a time. -/
def textFile : MapsFile where
  text := mapsText [textLine, dataLine, vdsoLine]
  chunk := fun _ => 7
  chunk_pos := fun _ => by decide

/-- Static memory before the first query. -/
def startState : AddrState 64 :=
  { ranges := fun _ => { lo := 0, hi := 0, libname := [] }
    rangeCount := 0
    initDone := false }

/-- The first byte of the text with the Thumb bit set, a byte of the data and
the end of the vdso. -/
theorem mttAddr_describes_maps_textFile :
    (mttAddrIsExecutable (some textFile) startState 0x1001).1 = true ∧
      (mttAddrIsExecutable (some textFile) startState 0x2800).1 = false ∧
      (mttAddrIsExecutable (some textFile) startState 0x9fff).1 = true ∧
      ∃ base, IsBasename vdsoLine.path base ∧
        (mttAddrLibname (some textFile) startState 0x9fff).1 =
          some (base.take 63) := by
  have ascending : AscendingMaps [textLine, dataLine, vdsoLine] := by
    unfold AscendingMaps
    decide
  have last : LastRead (mapsText [textLine, dataLine, vdsoLine])
      (mttAddrValidateInit (some textFile) startState) :=
    ⟨textFile, startState, rfl, rfl, rfl⟩
  have described {addr : Word} (nonnull : addr ≠ 0) :=
    mttAddr_describes_maps ascending List.prefix_rfl last nonnull
  have text := (@described 0x1001 (by decide)).2 rfl (by decide) (by decide)
    textLine (by simp) rfl ⟨by decide, by decide⟩
  have vdso := (@described 0x9fff (by decide)).2 rfl (by decide) (by decide)
    vdsoLine (by simp) rfl ⟨by decide, by decide⟩
  have data := (@described 0x2800 (by decide)).1
  refine ⟨text.1, ?_, vdso⟩
  apply Bool.eq_false_iff.mpr
  intro accepted
  obtain ⟨line, member, executable, above, below⟩ := data accepted
  simp only [List.mem_cons, List.not_mem_nil, or_false] at member
  rcases member with rfl | rfl | rfl
  · exact absurd below (by decide)
  · cases executable
  · exact absurd above (by decide)

end MemoryTraceTool.AddrValidate
