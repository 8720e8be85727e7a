import MemoryTraceTool.FrameFilters
import MemoryTraceTool.LeakSites

/-!
# The files for other programs

Beside its text a scan writes the leak sites into two files that programs
read: a JSON report at `MTT_REPORT_FILE`, and collapsed stacks for
`flamegraph.pl`.  Readers of these formats get the sites back.
-/

namespace MemoryTraceTool.OutputFiles

open FrameFilters Json

/-! ## The JSON report -/

section Offline

variable {w : Nat}

def leakText (site : MttLeakSite w) : Bytes :=
  ascii "\x7b\"count\":" ++ decimal site.count ++
    ascii ",\"size\":" ++ decimal site.totalSize.toNat ++
    ascii ",\"hash\":\"" ++ hex site.stackHash.toNat ++ ascii "\"\x7d"

/-- One turn of the loop; the number is `i`. -/
def writeOfflineLeak (state : Bytes × Nat) (site : MttLeakSite w) :
    Bytes × Nat :=
  (state.1 ++ (if 0 < state.2 then ascii "," else []) ++ leakText site,
    state.2 + 1)

/-- What is written to `json_tmp`. -/
def offlineReport (pid now : Int) (sorted : List (MttLeakSite w)) : Bytes :=
  let jf := ascii "\x7b\"pid\":" ++ integer pid ++ ascii ",\"ts\":" ++
    integer now ++ ascii ",\"leaks\":["
  (sorted.foldl writeOfflineLeak (jf, 0)).1 ++ ascii "]\x7d\n"

/-- A site as the report has it. -/
structure OfflineLeak where
  count : Nat
  size : Nat
  hash : Nat
  deriving DecidableEq, Repr

def offlineLeak (site : MttLeakSite w) : OfflineLeak :=
  { count := site.count
    size := site.totalSize.toNat
    hash := site.stackHash.toNat }

/-! ### Reading -/

def readHex (text : Bytes) : Option Nat :=
  (text.mapM hexValue).map fun digits => Nat.ofDigits 16 digits.reverse

def readLeak : Value → Option OfflineLeak
  | .object [(first, .number count), (second, .number size),
      (third, .string hash)] =>
      if first = ascii "count" ∧ second = ascii "size" ∧
          third = ascii "hash" then
        (readHex hash).map fun hash => ⟨count.toNat, size.toNat, hash⟩
      else none
  | _ => none

def readReport : Value → Option (Int × Int × List OfflineLeak)
  | .object [(first, .number pid), (second, .number now),
      (third, .array leaks)] =>
      if first = ascii "pid" ∧ second = ascii "ts" ∧ third = ascii "leaks" then
        (leaks.mapM readLeak).map fun leaks => (pid, now, leaks)
      else none
  | _ => none

/-- One JSON value and a newline. -/
def readOffline (text : Bytes) : Option (Int × Int × List OfflineLeak) :=
  if text.getLast? = some 10 then (parse text.dropLast).bind readReport
  else none

theorem mapM_hexValue {digits : List Nat}
    (below : ∀ digit ∈ digits, digit < 16) :
    (digits.map hexDigit).mapM hexValue = some digits := by
  induction digits with
  | nil => rfl
  | cons digit rest induction =>
      have own := hexValue_hexDigit digit (below digit List.mem_cons_self)
      have others := induction fun other member =>
        below other (List.mem_cons_of_mem _ member)
      rw [List.map_cons, List.mapM_cons, own, others]
      rfl

theorem readHex_hex (value : Nat) : readHex (hex value) = some value := by
  have below : ∀ digit ∈ digits 16 value, digit < 16 :=
    fun digit member => digits_lt (by decide) member
  rw [readHex, hex, mapM_hexValue below, Option.map_some, ofDigits_digits]

def leakObject (site : MttLeakSite w) : Value :=
  .object [
    (ascii "count", .number site.count),
    (ascii "size", .number site.totalSize.toNat),
    (ascii "hash", .string (hex site.stackHash.toNat))]

theorem print_leakObject (site : MttLeakSite w) :
    print (leakObject site) = leakText site := by
  have count : escape (ascii "count") = ascii "count" := by decide
  have size : escape (ascii "size") = ascii "size" := by decide
  have hash : escape (ascii "hash") = ascii "hash" := by decide
  simp only [leakObject, print, printMembers, separated, quoted, count, size,
    hash, escape_hex, integer_natCast, leakText]
  simp [ascii]

theorem readLeak_leakObject (site : MttLeakSite w) :
    readLeak (leakObject site) = some (offlineLeak site) := by
  simp [readLeak, leakObject, readHex_hex, offlineLeak]

theorem foldl_writeOfflineLeak (sites : List (MttLeakSite w))
    (state : Bytes × Nat) :
    (sites.foldl writeOfflineLeak state).1 =
      ((sites.map leakText).foldl writeNext
        (state.1, decide (0 < state.2))).1 := by
  induction sites generalizing state with
  | nil => rfl
  | cons site sites induction =>
      rw [List.foldl_cons, induction, List.map_cons, List.foldl_cons]
      have comma : ascii "," = [44] := rfl
      simp only [writeOfflineLeak, writeNext, comma, decide_eq_true_eq,
        Nat.succ_pos, decide_true]

def reportObject (pid now : Int) (sorted : List (MttLeakSite w)) : Value :=
  .object [
    (ascii "pid", .number pid),
    (ascii "ts", .number now),
    (ascii "leaks", .array (sorted.map leakObject))]

theorem offlineReport_eq (pid now : Int) (sorted : List (MttLeakSite w)) :
    offlineReport pid now sorted =
      print (reportObject pid now sorted) ++ [10] := by
  have first : escape (ascii "pid") = ascii "pid" := by decide
  have second : escape (ascii "ts") = ascii "ts" := by decide
  have third : escape (ascii "leaks") = ascii "leaks" := by decide
  have texts : printItems (sorted.map leakObject) = sorted.map leakText := by
    rw [printItems_eq_map, List.map_map]
    exact List.map_congr_left fun site _ => print_leakObject site
  unfold offlineReport
  dsimp only
  rw [foldl_writeOfflineLeak]
  simp only [Nat.lt_irrefl, decide_false, foldl_writeNext, reportObject,
    print, printMembers, separated, quoted, first, second, third, texts]
  simp [ascii]

/-- A reader of the JSON report gets the process, the time and, in the order
of the scan, the count, the bytes and the hash of every site. -/
theorem readOffline_offlineReport (pid now : Int)
    (sorted : List (MttLeakSite w)) :
    readOffline (offlineReport pid now sorted) =
      some (pid, now, sorted.map offlineLeak) := by
  have leaks : (sorted.map leakObject).mapM readLeak =
      some (sorted.map offlineLeak) := by
    induction sorted with
    | nil => rfl
    | cons site sorted induction =>
        rw [List.map_cons, List.mapM_cons, readLeak_leakObject, induction]
        rfl
  rw [readOffline, offlineReport_eq, List.getLast?_concat, if_pos rfl,
    List.dropLast_concat, parse_print, Option.bind_some, reportObject,
    readReport, if_pos ⟨rfl, rfl, rfl⟩, leaks, Option.map_some]

end Offline

/-! ## The folded file -/

section Folded

variable {w : Nat}

/-- A site and the stack entry of its pair. -/
structure FoldedSite (w : Nat) where
  site : MttLeakSite w
  stack : Option StackEntry

/-- One turn of the loop of `mtt_flamegraph_write`. -/
def writeSite (pair : FoldedSite w) : Bytes :=
  if pair.site.count = 0 then []
  else
    match pair.stack with
    | none => []
    | some stack => writeFolded stack pair.site.totalSize.toNat

def mttFlamegraphWrite (pairs : List (FoldedSite w)) : Bytes :=
  pairs.flatMap writeSite

/-- The function names of a site, the innermost first, and its bytes, if the
file has a line for it. -/
def foldedStack (pair : FoldedSite w) : Option (List Bytes × Nat) :=
  match pair.stack with
  | none => none
  | some stack =>
      if pair.site.count = 0 ∨ stack.entry.isResolved = false ∨
          visibleFrames stack = [] then none
      else
        some ((visibleFrames stack).map foldedName,
          pair.site.totalSize.toNat)

/-! ### Reading -/

def readCount (text : Bytes) : Option Nat :=
  match parseNat text with
  | some (count, []) => some count
  | _ => none

/-- The count stands behind the last blank. -/
def readLine (line : Bytes) : Option (List Bytes × Nat) :=
  let count := (line.reverse.takeWhile fun byte => byte != 32).reverse
  let stack := ((line.reverse.dropWhile fun byte => byte != 32).drop 1).reverse
  (readCount count).map fun count => ((stack.splitOn 59).reverse, count)

def readFolded (text : Bytes) : Option (List (List Bytes × Nat)) :=
  (text.splitOn 10).dropLast.mapM readLine

/-- A line without its newline. -/
def lineText (folded : List Bytes × Nat) : Bytes :=
  List.intercalate [59] folded.1.reverse ++ [32] ++ decimal folded.2

theorem writeSite_eq (pair : FoldedSite w) :
    writeSite pair =
      ((foldedStack pair).map fun folded => lineText folded ++ [10]).getD [] := by
  unfold writeSite foldedStack
  cases pair.stack with
  | none => simp
  | some stack =>
      by_cases empty : pair.site.count = 0
      · simp [empty]
      · cases resolved : stack.entry.isResolved with
        | false => simp [empty, resolved, writeFolded]
        | true =>
            by_cases hidden : visibleFrames stack = []
            · simp [empty, resolved, hidden, writeFolded_eq _ resolved,
                foldedText]
            · simp [empty, resolved, hidden, writeFolded_eq _ resolved,
                foldedText, lineText]

theorem readCount_decimal (value : Nat) :
    readCount (decimal value) = some value := by
  have ends : NumberEnds [] := by
    intro byte first
    cases first
  have parsed := parseNat_decimal value ends
  rw [List.append_nil] at parsed
  rw [readCount, parsed]

theorem notMem_decimal {byte : UInt8} (value : Nat)
    (other : isDigit byte = false) : byte ∉ decimal value := by
  intro member
  rw [isDigit_of_mem_decimal byte member] at other
  contradiction

theorem readLine_lineText {folded : List Bytes × Nat}
    (nonempty : folded.1 ≠ []) (plain : ∀ name ∈ folded.1, 59 ∉ name) :
    readLine (lineText folded) = some folded := by
  have digits : ∀ byte ∈ (decimal folded.2).reverse,
      (byte != 32) = true := by
    intro byte member
    rw [List.mem_reverse] at member
    rw [bne_iff_ne]
    rintro rfl
    exact notMem_decimal folded.2 (by decide) member
  have reversed : (lineText folded).reverse =
      (decimal folded.2).reverse ++
        32 :: (List.intercalate [59] folded.1.reverse).reverse := by
    simp [lineText]
  have count : ((lineText folded).reverse.takeWhile fun byte => byte != 32) =
      (decimal folded.2).reverse := by
    rw [reversed, List.takeWhile_append_of_pos digits,
      List.takeWhile_cons_of_neg (by decide), List.append_nil]
  have stack : ((lineText folded).reverse.dropWhile fun byte => byte != 32) =
      32 :: (List.intercalate [59] folded.1.reverse).reverse := by
    rw [reversed, List.dropWhile_append_of_pos digits,
      List.dropWhile_cons_of_neg (by decide)]
  have names : (List.intercalate [59] folded.1.reverse).splitOn 59 =
      folded.1.reverse := by
    apply List.splitOn_intercalate
    · intro name member
      exact plain name (List.mem_reverse.mp member)
    · simpa using nonempty
  rw [readLine, count, stack, List.reverse_reverse, readCount_decimal]
  simp only [List.drop_succ_cons, List.drop_zero, List.reverse_reverse, names,
    Option.map_some]

/-! ### The whole file -/

theorem foldedName_subset (symbol : Bytes) : foldedName symbol ⊆ symbol := by
  intro byte member
  unfold foldedName at member
  have inName := List.mem_of_mem_take member
  split at inName
  · rw [List.mem_reverse] at inName
    have inside := (List.dropWhile_sublist _).subset inName
    rw [List.mem_reverse] at inside
    exact List.mem_of_mem_take inside
  · exact inName

/-- No symbol has a semicolon or a newline. -/
def PlainSymbols (pair : FoldedSite w) : Prop :=
  ∀ stack, pair.stack = some stack → ∀ symbol ∈ stack.symbols,
    59 ∉ symbol ∧ 10 ∉ symbol

theorem foldedStack_plain {pair : FoldedSite w} (plain : PlainSymbols pair)
    {folded : List Bytes × Nat} (line : foldedStack pair = some folded) :
    folded.1 ≠ [] ∧ ∀ name ∈ folded.1, 59 ∉ name ∧ 10 ∉ name := by
  unfold foldedStack at line
  split at line
  · contradiction
  · rename_i stack found
    split at line
    · contradiction
    · rename_i shown
      cases line
      rw [not_or, not_or] at shown
      refine ⟨by simpa using shown.2.2, ?_⟩
      intro name member
      obtain ⟨symbol, visible, rfl⟩ := List.mem_map.mp member
      have inStack := (List.mem_filter.mp visible).1
      have bytes := plain stack found symbol inStack
      exact ⟨fun semicolon => bytes.1 (foldedName_subset symbol semicolon),
        fun newline => bytes.2 (foldedName_subset symbol newline)⟩

theorem mem_intercalate {separator : Bytes} {texts : List Bytes}
    {byte : UInt8} (member : byte ∈ List.intercalate separator texts) :
    byte ∈ separator ∨ ∃ text ∈ texts, byte ∈ text := by
  induction texts with
  | nil => simp at member
  | cons text rest induction =>
      by_cases last : rest = []
      · subst last
        rw [List.intercalate_singleton] at member
        exact .inr ⟨text, List.mem_cons_self, member⟩
      · rw [List.intercalate_cons_of_ne_nil last, List.mem_append,
          List.mem_append] at member
        rcases member with (inText | between) | later
        · exact .inr ⟨text, List.mem_cons_self, inText⟩
        · exact .inl between
        · rcases induction later with between | ⟨other, inRest, inOther⟩
          · exact .inl between
          · exact .inr ⟨other, List.mem_cons_of_mem _ inRest, inOther⟩

theorem notMem_lineText {folded : List Bytes × Nat}
    (plain : ∀ name ∈ folded.1, 10 ∉ name) : 10 ∉ lineText folded := by
  intro newline
  rw [lineText, List.mem_append, List.mem_append] at newline
  rcases newline with (inNames | blank) | inCount
  · rcases mem_intercalate inNames with semicolon | ⟨name, member, inName⟩
    · simp at semicolon
    · exact plain name (List.mem_reverse.mp member) inName
  · simp at blank
  · exact notMem_decimal folded.2 (by decide) inCount

theorem splitOn_lines {lines : List Bytes}
    (plain : ∀ line ∈ lines, 10 ∉ line) :
    ((lines.flatMap fun line => line ++ [10]).splitOn 10).dropLast =
      lines := by
  have joined : (lines.flatMap fun line => line ++ [10]) =
      List.intercalate [10] (lines ++ [[]]) := by
    clear plain
    induction lines with
    | nil => rfl
    | cons line lines induction =>
        have more : lines ++ [[]] ≠ [] := by simp
        rw [List.flatMap_cons, induction, List.cons_append,
          List.intercalate_cons_of_ne_nil more]
  have split : (List.intercalate [10] (lines ++ [[]])).splitOn 10 =
      lines ++ [[]] := by
    apply List.splitOn_intercalate
    · intro line member
      rcases List.mem_append.mp member with inLines | last
      · exact plain line inLines
      · simp [List.mem_singleton.mp last]
    · simp
  rw [joined, split, List.dropLast_concat]

theorem mttFlamegraphWrite_eq (pairs : List (FoldedSite w)) :
    mttFlamegraphWrite pairs =
      ((pairs.filterMap foldedStack).map lineText).flatMap fun line =>
        line ++ [10] := by
  unfold mttFlamegraphWrite
  induction pairs with
  | nil => rfl
  | cons pair pairs induction =>
      rw [List.flatMap_cons, induction, writeSite_eq]
      cases line : foldedStack pair with
      | none => simp [line]
      | some folded => simp [line]

/-- A reader of the folded file gets, for every site with visible frames, the
names of the functions and the bytes of the site. -/
theorem readFolded_mttFlamegraphWrite {pairs : List (FoldedSite w)}
    (plain : ∀ pair ∈ pairs, PlainSymbols pair) :
    readFolded (mttFlamegraphWrite pairs) =
      some (pairs.filterMap foldedStack) := by
  have names : ∀ folded ∈ pairs.filterMap foldedStack,
      folded.1 ≠ [] ∧ ∀ name ∈ folded.1, 59 ∉ name ∧ 10 ∉ name := by
    intro folded member
    obtain ⟨pair, inPairs, line⟩ := List.mem_filterMap.mp member
    exact foldedStack_plain (plain pair inPairs) line
  have lines : ∀ line ∈ (pairs.filterMap foldedStack).map lineText,
      10 ∉ line := by
    intro line member
    obtain ⟨folded, written, rfl⟩ := List.mem_map.mp member
    exact notMem_lineText fun name inNames =>
      ((names folded written).2 name inNames).2
  rw [readFolded, mttFlamegraphWrite_eq, splitOn_lines lines]
  generalize pairs.filterMap foldedStack = written at names
  induction written with
  | nil => rfl
  | cons folded written induction =>
      have own := names folded List.mem_cons_self
      have read := readLine_lineText own.1 fun name member =>
        (own.2 name member).1
      have others := induction fun other member =>
        names other (List.mem_cons_of_mem _ member)
      rw [List.map_cons, List.mapM_cons, read, others]
      rfl

end Folded

/-- A site of 24 bytes with two visible frames. -/
def mixedSite : FoldedSite 64 where
  site := newLeakSite ⟨100, 60⟩ 0 (framelessSnap 24 10)
  stack := some mixedStack

theorem readFolded_mixedSite :
    readFolded (mttFlamegraphWrite [mixedSite]) =
      some [([ascii "f+0x1", ascii "main+0x3"], 24)] := by
  have plain : ∀ pair ∈ [mixedSite], PlainSymbols pair := by
    intro pair member stack found
    rw [List.mem_singleton.mp member] at found
    cases found
    decide
  rw [readFolded_mttFlamegraphWrite plain]
  decide

end MemoryTraceTool.OutputFiles
