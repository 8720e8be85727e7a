import MemoryTraceTool.AddrValidate
import MemoryTraceTool.LibBlacklist

/-!
# The address ranges of listed libraries

`MTT_LIB_BLACKLIST_FAST` names libraries whose requests the hooks pass on.
`mtt_ensure_init` looks for them in `/proc/self/maps` and appends their ranges
to a table of 64.  `mtt_fork_child` resets the rest of the tool and leaves the
table as it is, so that a child appends to what it inherited.  Addresses have
`w` bits.
-/

namespace MemoryTraceTool.BlacklistRanges

open Scanf LibBlacklist
open AddrValidate (MapsLine mapsText cString)

/-- `mtt_addr_range_t`. -/
structure AddrRange (w : Nat) where
  start : BitVec w
  stop : BitVec w
  deriving DecidableEq, Repr

variable {w : Nat}

/-- `r->start <= lr && lr < r->end`. -/
def AddrRange.Covers (range : AddrRange w) (address : BitVec w) : Prop :=
  range.start ≤ address ∧ address < range.stop

instance (range : AddrRange w) (address : BitVec w) :
    Decidable (range.Covers address) :=
  inferInstanceAs (Decidable (_ ∧ _))

/-! ## Reading the maps -/

/-- How much of a text `fgets` takes into a buffer of 512 bytes. -/
def fgetsLength (text : Bytes) : Nat := min (text.idxOf 10 + 1) 511

/-- The texts that `fgets` gives one after the other; the fuel bounds their
number. -/
def fgetsLines : Nat → Bytes → List Bytes
  | 0, _ => []
  | fuel + 1, text =>
      if text = [] then []
      else
        text.take (fgetsLength text) ::
          fgetsLines fuel (text.drop (fgetsLength text))

/-- `%*s`. -/
def skipWord (text : Bytes) : Option Bytes :=
  let word := text.dropWhile isSpace
  if word = [] then none else some (word.dropWhile fun byte => !isSpace byte)

def skipWords : Nat → Bytes → Option Bytes
  | 0, text => some text
  | count + 1, text => (skipWord text).bind (skipWords count)

/-- `"%lx-%lx %*s %*s %*s %*s %255[^\n]"`, if all three are stored. -/
def scanMapsLine (w : Nat) (line : Bytes) : Option (AddrRange w × Bytes) := do
  let (start, rest) ← scanNumber w 16 (cString line)
  let (_, rest) ← consume (.char 45) rest
  let (stop, rest) ← scanNumber w 16 rest
  let rest ← skipWords 4 rest
  let pathname :=
    ((rest.dropWhile isSpace).take 255).takeWhile fun byte => byte != 10
  if pathname = [] then none
  else
    some
      ({ start := BitVec.ofNat w start
         stop := BitVec.ofNat w stop }, pathname)

/-- `strstr(pathname, token)` for one of the tokens. -/
def matchesToken (tokens : List Bytes) (pathname : Bytes) : Bool :=
  tokens.any fun token => decide (token <:+: pathname)

/-- The line loop, from a table on. -/
def scanLines (tokens : List Bytes) :
    List Bytes → List (AddrRange w) → List (AddrRange w)
  | [], ranges => ranges
  | line :: rest, ranges =>
      match scanMapsLine w line with
      | none => scanLines tokens rest ranges
      | some (range, pathname) =>
          if matchesToken tokens pathname then
            if mttBlacklistRangesMax ≤ ranges.length then ranges
            else scanLines tokens rest (ranges ++ [range])
          else scanLines tokens rest ranges

/-! ## The table -/

/-- `g_blacklist_ranges` up to `g_blacklist_range_count`,
`g_blacklist_fast_enabled`, `initialized`, and whether there is a bucket
table. -/
structure BlacklistState (w : Nat) where
  ranges : List (AddrRange w)
  fastEnabled : Bool
  initialized : Bool
  buckets : Bool
  deriving DecidableEq, Repr

/-- A new process. -/
def BlacklistState.fresh (w : Nat) : BlacklistState w :=
  { ranges := []
    fastEnabled := false
    initialized := false
    buckets := false }

/-- What `mtt_ensure_init` finds: whether it gets a bucket table, and the text
of `/proc/self/maps` if that can be opened. -/
structure Generation where
  bucketTable : Bool
  maps : Option Bytes
  deriving DecidableEq, Repr

/-- The tokens of the variable, at most 16. -/
def fastTokens (env : Option Bytes) : List Bytes :=
  match env with
  | none | some [] => []
  | some (byte :: rest) => (libTokens (copyEnv (byte :: rest))).take 16

/-- `mtt_parse_blacklist_fast` on the environment and the text of the maps. -/
def mttParseBlacklistFast (env : Option Bytes) (maps : Option Bytes)
    (state : BlacklistState w) : BlacklistState w :=
  if fastTokens env = [] then state
  else
    match maps with
    | none => state
    | some text =>
        let ranges := scanLines (fastTokens env) (fgetsLines text.length text)
          state.ranges
        { state with
          ranges
          fastEnabled := state.fastEnabled || decide (0 < ranges.length) }

/-- `mtt_ensure_init`, as far as the table goes. -/
def mttEnsureInit (env : Option Bytes) (generation : Generation)
    (state : BlacklistState w) : BlacklistState w :=
  if state.initialized then state
  else if generation.bucketTable then
    { mttParseBlacklistFast env generation.maps state with
      initialized := true
      buckets := true }
  else { state with initialized := true, buckets := false }

/-- `mtt_fork_child`; without a bucket table it writes through NULL. -/
def mttForkChild (state : BlacklistState w) : Option (BlacklistState w) :=
  if state.buckets then some { state with initialized := false } else none

/-- `mtt_is_lr_in_blacklist`. -/
def mttIsLrInBlacklist (state : BlacklistState w) (lr : BitVec w) : Bool :=
  if !state.fastEnabled || lr == 0 then false
  else state.ranges.any fun range => decide (range.Covers lr)

/-- A chain of forks, the latest generation first, and the state of its tool
after the initialisation. -/
inductive Lineage (env : Option Bytes) :
    List Generation → BlacklistState w → Prop where
  | first (generation : Generation) :
      Lineage env [generation] (mttEnsureInit env generation (.fresh w))
  | child {generations : List Generation} {parent child : BlacklistState w}
      (earlier : Lineage env generations parent)
      (forked : mttForkChild parent = some child)
      (generation : Generation) :
      Lineage env (generation :: generations)
        (mttEnsureInit env generation child)

/-! ## What one parse yields -/

/-- The range of a line whose path has a token in it. -/
def matchLine (tokens : List Bytes) (line : Bytes) : Option (AddrRange w) :=
  match scanMapsLine w line with
  | none => none
  | some (range, pathname) =>
      if matchesToken tokens pathname then some range else none

/-- The ranges of all matching mappings of a generation, in the order of its
maps. -/
def matchesOf (w : Nat) (env : Option Bytes) (generation : Generation) :
    List (AddrRange w) :=
  match generation.maps with
  | none => []
  | some text =>
      (fgetsLines text.length text).filterMap (matchLine (fastTokens env))

/-- The table keeps what it has and takes further matches while there is
room. -/
theorem scanLines_eq (tokens : List Bytes) (lines : List Bytes)
    {ranges : List (AddrRange w)}
    (bounded : ranges.length ≤ mttBlacklistRangesMax) :
    scanLines tokens lines ranges =
      (ranges ++ lines.filterMap (matchLine tokens)).take
        mttBlacklistRangesMax := by
  induction lines generalizing ranges with
  | nil => simp [scanLines, List.take_of_length_le bounded]
  | cons line lines induction =>
      rw [scanLines]
      cases scanned : scanMapsLine w line with
      | none =>
          have skipped : matchLine (w := w) tokens line = none := by
            rw [matchLine, scanned]
          rw [List.filterMap_cons_none skipped]
          exact induction bounded
      | some found =>
          obtain ⟨range, pathname⟩ := found
          dsimp only
          cases listed : matchesToken tokens pathname with
          | false =>
              have skipped : matchLine (w := w) tokens line = none := by
                rw [matchLine, scanned]
                simp [listed]
              rw [List.filterMap_cons_none skipped]
              exact induction bounded
          | true =>
              have kept : matchLine tokens line = some range := by
                rw [matchLine, scanned]
                simp [listed]
              rw [List.filterMap_cons_some kept, if_pos rfl]
              split
              case isTrue full =>
                  exact (List.take_left'
                    (Nat.le_antisymm bounded full)).symm
              case isFalse room =>
                  have more : (ranges ++ [range]).length ≤
                      mttBlacklistRangesMax := by
                    rw [List.length_append, List.length_singleton]
                    omega
                  rw [induction more, List.append_assoc,
                    List.singleton_append]

theorem matchLine_nil (line : Bytes) :
    matchLine (w := w) [] line = none := by
  unfold matchLine
  split <;> rfl

theorem matchesOf_of_noTokens {env : Option Bytes}
    (noTokens : fastTokens env = []) (generation : Generation) :
    matchesOf w env generation = [] := by
  rw [matchesOf, noTokens]
  split
  · rfl
  · exact List.filterMap_eq_nil_iff.mpr fun line _ => matchLine_nil line

/-- The table has room for its ranges, and the look-up is on exactly if there
are any. -/
structure Sound (state : BlacklistState w) : Prop where
  bounded : state.ranges.length ≤ mttBlacklistRangesMax
  enabled : state.fastEnabled = decide (0 < state.ranges.length)

theorem sound_fresh : Sound (.fresh w) := ⟨Nat.zero_le _, rfl⟩

theorem parse_ranges (env : Option Bytes) (generation : Generation)
    {state : BlacklistState w} (sound : Sound state) :
    (mttParseBlacklistFast env generation.maps state).ranges =
      (state.ranges ++ matchesOf w env generation).take
        mttBlacklistRangesMax := by
  have unchanged : state.ranges =
      (state.ranges ++ []).take mttBlacklistRangesMax := by
    rw [List.append_nil, List.take_of_length_le sound.bounded]
  unfold mttParseBlacklistFast
  split
  case isTrue noTokens =>
      rw [matchesOf_of_noTokens noTokens]
      exact unchanged
  case isFalse =>
      unfold matchesOf
      cases generation.maps with
      | none => exact unchanged
      | some text => exact scanLines_eq _ _ sound.bounded

theorem parse_enabled (env : Option Bytes) (generation : Generation)
    {state : BlacklistState w} (sound : Sound state) :
    (mttParseBlacklistFast env generation.maps state).fastEnabled =
      (state.fastEnabled || decide (0 <
        (mttParseBlacklistFast env generation.maps state).ranges.length)) := by
  have unchanged : state.fastEnabled =
      (state.fastEnabled || decide (0 < state.ranges.length)) := by
    rw [sound.enabled, Bool.or_self]
  unfold mttParseBlacklistFast
  split
  · exact unchanged
  · cases generation.maps with
    | none => exact unchanged
    | some text => rfl

theorem parse_sound (env : Option Bytes) (generation : Generation)
    {state : BlacklistState w} (sound : Sound state) :
    Sound (mttParseBlacklistFast env generation.maps state) := by
  have ranges := parse_ranges env generation sound
  constructor
  · rw [ranges]
    exact List.length_take_le _ _
  · rw [parse_enabled env generation sound, sound.enabled]
    by_cases before : 0 < state.ranges.length
    · have after : 0 < (mttParseBlacklistFast env generation.maps
          state).ranges.length := by
        rw [ranges, List.length_take, List.length_append,
          mttBlacklistRangesMax]
        omega
      rw [decide_eq_true before, decide_eq_true after, Bool.or_self]
    · rw [decide_eq_false before, Bool.false_or]

/-! ## The lines of the kernel -/

theorem fgetsLength_line {line rest : Bytes} (solid : 10 ∉ line)
    (short : line.length < 511) :
    fgetsLength (line ++ 10 :: rest) = line.length + 1 := by
  rw [fgetsLength, List.idxOf_append_of_notMem solid, List.idxOf_cons_self]
  omega

theorem fgetsLines_mapsText {maps : List (MapsLine w)}
    (short : ∀ line ∈ maps, line.text.length < 511) {fuel : Nat}
    (enough : (mapsText maps).length ≤ fuel) :
    fgetsLines fuel (mapsText maps) =
      maps.map fun line => line.text ++ [10] := by
  induction maps generalizing fuel with
  | nil => cases fuel <;> rfl
  | cons line maps induction =>
      have follows : mapsText (line :: maps) =
          line.text ++ 10 :: mapsText maps := by
        simp [mapsText]
      have solid : (10 : UInt8) ∉ line.text :=
        fun member => (line.text_plain 10 member).1 rfl
      rw [follows, List.length_append, List.length_cons] at enough
      obtain ⟨fuel, rfl⟩ : ∃ more, fuel = more + 1 := ⟨fuel - 1, by omega⟩
      have rest := induction
        (fun line member => short line (List.mem_cons_of_mem _ member))
        (show (mapsText maps).length ≤ fuel by omega)
      have split : line.text ++ 10 :: mapsText maps =
          (line.text ++ [10]) ++ mapsText maps := by simp
      have length : (line.text ++ [10]).length = line.text.length + 1 := by
        rw [List.length_append, List.length_singleton]
      rw [follows, fgetsLines, if_neg (by simp),
        fgetsLength_line solid (short line List.mem_cons_self), split,
        List.take_left' length, List.drop_left' length, rest, List.map_cons]

theorem skipWord_append {blanks word rest : Bytes}
    (spaces : ∀ byte ∈ blanks, isSpace byte = true) (nonempty : word ≠ [])
    (solid : ∀ byte ∈ word, isSpace byte = false)
    (stops : ∀ byte ∈ rest.head?, isSpace byte = true) :
    skipWord (blanks ++ (word ++ rest)) = some rest := by
  have start : ∀ byte ∈ (word ++ rest).head?, isSpace byte = false := by
    obtain ⟨first, more, rfl⟩ := List.exists_cons_of_ne_nil nonempty
    rintro byte ⟨⟩
    exact solid first List.mem_cons_self
  have skipped := (span_append spaces start).2
  have word_ : (word ++ rest).dropWhile (fun byte => !isSpace byte) = rest := by
    apply (span_append _ _).2
    · intro byte member
      simp [solid byte member]
    · intro byte member
      simp [stops byte member]
  rw [skipWord, skipped, if_neg (by simp [nonempty]), word_]

def mapsRange (line : MapsLine w) : AddrRange w :=
  { start := BitVec.ofNat w line.lower
    stop := BitVec.ofNat w line.upper }

theorem isSpace_of_numeral {base : Nat} {digits : Bytes}
    (number : IsNumeral base digits) :
    ∀ byte ∈ digits, isSpace byte = false :=
  fun byte member => not_isSpace_of_isDigit (number.digits byte member)

/-- What is left of a line behind its addresses, after the four words. -/
theorem skipWords_text (line : MapsLine w) (rest : Bytes)
    (stops : ∀ byte ∈ rest.head?, isSpace byte = true) :
    skipWords 4 ([32] ++ (line.perm ++ ([32] ++ (line.offset ++ ([32] ++
      ((line.major ++ 58 :: line.minor) ++ ([32] ++
        (line.inode ++ rest)))))))) = some rest := by
  have blank : ∀ byte ∈ [(32 : UInt8)], isSpace byte = true := by
    intro byte member
    rw [List.mem_singleton.mp member]
    rfl
  have next : ∀ {text : Bytes}, ∀ byte ∈ ([32] ++ text).head?,
      isSpace byte = true := by
    rintro text byte ⟨⟩
    decide
  have device : ∀ byte ∈ line.major ++ 58 :: line.minor,
      isSpace byte = false := by
    intro byte member
    rcases List.mem_append.mp member with inMajor | member
    · exact isSpace_of_numeral line.major_hex byte inMajor
    · rcases List.mem_cons.mp member with rfl | inMinor
      · decide
      · exact isSpace_of_numeral line.minor_hex byte inMinor
  rw [skipWords,
    skipWord_append blank (by simp [MapsLine.perm]) line.perm_solid next,
    Option.bind_some, skipWords,
    skipWord_append blank line.offset_hex.nonempty
      (isSpace_of_numeral line.offset_hex) next, Option.bind_some, skipWords,
    skipWord_append blank (by simp) device next, Option.bind_some, skipWords,
    skipWord_append blank line.inode_decimal.nonempty
      (isSpace_of_numeral line.inode_decimal) stops, Option.bind_some,
    skipWords]

theorem text_eq_words (line : MapsLine w) :
    line.text ++ [10] = line.lo ++ 45 :: (line.hi ++ ([32] ++ (line.perm ++
      ([32] ++ (line.offset ++ ([32] ++ ((line.major ++ 58 :: line.minor) ++
        ([32] ++ (line.inode ++ (List.replicate (line.padding + 1) 32 ++
          (line.path ++ [10])))))))))))  := by
  simp [MapsLine.text, MapsLine.tail]

/-- The path as `%255[^\n]` reads it behind the blanks. -/
theorem pathname_text (line : MapsLine w) :
    (((List.replicate (line.padding + 1) 32 ++
      (line.path ++ [10])).dropWhile isSpace).take 255).takeWhile
        (fun byte => byte != 10) = line.path.take 255 := by
  have blanks : ∀ byte ∈ List.replicate (line.padding + 1) (32 : UInt8),
      isSpace byte = true := by
    intro byte member
    rw [List.eq_of_mem_replicate member]
    decide
  rw [List.dropWhile_append_of_pos blanks]
  cases path : line.path with
  | nil => decide
  | cons first more =>
      have start : ∀ byte ∈ (first :: more ++ [10]).head?,
          isSpace byte = false := by
        rintro byte ⟨⟩
        exact line.path_start first (by rw [path]; rfl)
      have inside : ∀ byte ∈ (first :: more).take 255, (byte != 10) = true := by
        intro byte member
        have inPath : byte ∈ line.path := by
          rw [path]
          exact List.mem_of_mem_take member
        simpa using (line.path_bytes byte inPath).1
      rw [dropWhile_of_head start, List.take_append,
        List.takeWhile_append_of_pos inside]
      have rest : (([10] : Bytes).take (255 - (first :: more).length)).takeWhile
          (fun byte => byte != 10) = [] := by
        cases 255 - (first :: more).length <;> rfl
      rw [rest, List.append_nil]

theorem converted_of_lt {value : Nat} (fits : value < 2 ^ w) :
    converted w false value = value := by
  rw [converted, if_neg (Nat.not_le.mpr fits)]
  rfl

theorem cString_line (line : MapsLine w) :
    cString (line.text ++ [10]) = line.text ++ [10] := by
  apply List.takeWhile_eq_self_iff.mpr
  intro byte member
  rcases List.mem_append.mp member with inText | last
  · simpa using (line.text_plain byte inText).2
  · rw [List.mem_singleton.mp last]
    decide

theorem scanMapsLine_text (line : MapsLine w) :
    scanMapsLine w (line.text ++ [10]) =
      if line.path = [] then none
      else some (mapsRange line, line.path.take 255) := by
  have dash : ∀ {rest : Bytes}, ∀ byte ∈ (45 :: rest).head?,
      EndsNumber 16 byte := by
    rintro rest byte ⟨⟩
    exact ⟨by decide, by decide, by decide⟩
  have blank : ∀ {rest : Bytes}, ∀ byte ∈ ([32] ++ rest).head?,
      EndsNumber 16 byte := by
    rintro rest byte ⟨⟩
    exact ⟨by decide, by decide, by decide⟩
  have stops : ∀ byte ∈ (List.replicate (line.padding + 1) 32 ++
      (line.path ++ [10])).head?, isSpace byte = true := by
    rintro byte ⟨⟩
    decide
  have separator : ∀ rest : Bytes, consume (.char 45) (45 :: rest) =
      some (none, rest) := fun _ => by simp [consume]
  rw [scanMapsLine, cString_line, text_eq_words]
  simp only [scanNumber_append line.lo_hex dash, separator,
    scanNumber_append line.hi_hex blank, skipWords_text line _ stops,
    pathname_text, converted_of_lt line.lower_fits,
    converted_of_lt line.fits, Option.bind_eq_bind, Option.bind_some]
  by_cases path : line.path = []
  · rw [if_pos path, if_pos (by rw [path, List.take_nil])]
  · have taken : line.path.take 255 ≠ [] := by
      simp [path]
    rw [if_neg path, if_neg taken]
    rfl

/-- A line about a listed library: its path, as far as it is read, has a token
in it. -/
def Listed (env : Option Bytes) (line : MapsLine w) : Bool :=
  line.path != [] && matchesToken (fastTokens env) (line.path.take 255)

/-- Of the kernel's lines, the matches are the ranges of those about listed
libraries, each once. -/
theorem matchesOf_mapsText (env : Option Bytes) {generation : Generation}
    {maps : List (MapsLine w)} (short : ∀ line ∈ maps, line.text.length < 511)
    (readable : generation.maps = some (mapsText maps)) :
    matchesOf w env generation = (maps.filter (Listed env)).map mapsRange := by
  have line_ : ∀ line : MapsLine w,
      matchLine (fastTokens env) (line.text ++ [10]) =
        if Listed env line then some (mapsRange line) else none := by
    intro line
    rw [matchLine, scanMapsLine_text, Listed]
    by_cases path : line.path = []
    · simp [path]
    · simp [path]
  rw [matchesOf, readable]
  dsimp only
  rw [fgetsLines_mapsText short le_rfl, List.filterMap_map]
  clear readable short
  induction maps with
  | nil => rfl
  | cons line maps induction =>
      cases listed : Listed env line with
      | true =>
          rw [List.filterMap_cons_some (by
            rw [Function.comp_apply, line_, listed]; rfl), induction,
            List.filter_cons_of_pos listed, List.map_cons]
      | false =>
          rw [List.filterMap_cons_none (by
            rw [Function.comp_apply, line_, listed]; rfl), induction,
            List.filter_cons_of_neg (by rw [listed]; exact Bool.false_ne_true)]

/-! ## The look-up -/

theorem Sound.lookup_iff {state : BlacklistState w} (sound : Sound state)
    (lr : BitVec w) :
    mttIsLrInBlacklist state lr = true ↔
      lr ≠ 0 ∧ ∃ range ∈ state.ranges, range.Covers lr := by
  unfold mttIsLrInBlacklist
  by_cases empty : state.ranges = []
  · have off : state.fastEnabled = false := by
      rw [sound.enabled, empty]
      rfl
    simp [off, empty]
  · have on : state.fastEnabled = true := by
      rw [sound.enabled, decide_eq_true (List.length_pos_iff.mpr empty)]
    simp [on]

/-- The table is what one parse of the generation's maps yields, and the
look-up finds just the addresses in those ranges. -/
structure TableRight (env : Option Bytes) (generation : Generation)
    (state : BlacklistState w) : Prop where
  table : state.ranges =
    (matchesOf w env generation).take mttBlacklistRangesMax
  lookup : ∀ lr, mttIsLrInBlacklist state lr = true ↔
    ∃ range ∈ (matchesOf w env generation).take mttBlacklistRangesMax,
      range.Covers lr

/-- No mapping that matches begins at address 0. -/
def NullFree (w : Nat) (env : Option Bytes) (generation : Generation) : Prop :=
  ∀ range ∈ (matchesOf w env generation).take mttBlacklistRangesMax,
    ¬ range.Covers 0

theorem tableRight_iff {env : Option Bytes} {generation : Generation}
    {state : BlacklistState w} (sound : Sound state) :
    TableRight env generation state ↔
      state.ranges =
          (matchesOf w env generation).take mttBlacklistRangesMax ∧
        NullFree w env generation := by
  constructor
  · rintro ⟨table, lookup⟩
    refine ⟨table, fun range member covers => ?_⟩
    have found := (lookup 0).mpr ⟨range, member, covers⟩
    exact ((sound.lookup_iff 0).mp found).1 rfl
  · rintro ⟨table, nullFree⟩
    refine ⟨table, fun lr => ?_⟩
    rw [sound.lookup_iff, table]
    constructor
    · rintro ⟨_, covered⟩
      exact covered
    · rintro ⟨range, member, covers⟩
      refine ⟨?_, range, member, covers⟩
      rintro rfl
      exact nullFree range member covers

/-! ## Generations -/

/-- What a child's own matches make of a table of its parent's: the parent had
none, or the first 64 are the same with the parent's before them. -/
def Carried (parent own : List (AddrRange w)) : Prop :=
  parent = [] ∨ mttBlacklistRangesMax ≤ own.length ∧
    (parent ++ own).take mttBlacklistRangesMax =
      own.take mttBlacklistRangesMax

theorem take_append_iff {parent own : List (AddrRange w)} :
    (parent.take mttBlacklistRangesMax ++ own).take mttBlacklistRangesMax =
        own.take mttBlacklistRangesMax ↔
      Carried parent own := by
  have same :
      (parent.take mttBlacklistRangesMax ++ own).take mttBlacklistRangesMax =
        (parent ++ own).take mttBlacklistRangesMax := by
    have room : mttBlacklistRangesMax - min mttBlacklistRangesMax
        parent.length = mttBlacklistRangesMax - parent.length := by
      omega
    rw [List.take_append, List.take_append, List.take_take, Nat.min_self,
      List.length_take, room]
  rw [same]
  constructor
  · intro saturated
    by_cases empty : parent = []
    · exact .inl empty
    · refine .inr ⟨?_, saturated⟩
      have lengths := congrArg List.length saturated
      have some_ := List.length_pos_iff.mpr empty
      rw [List.length_take, List.length_take, List.length_append] at lengths
      omega
  · rintro (rfl | ⟨_, saturated⟩)
    · rfl
    · exact saturated

/-- The matches of the generation before, if there is one. -/
def parentMatches (w : Nat) (env : Option Bytes) (older : List Generation) :
    List (AddrRange w) :=
  match older with
  | [] => []
  | parent :: _ => matchesOf w env parent

/-- A generation shows nothing of its parent's table. -/
def StartsOver (parent own : List (AddrRange w)) (generation : Generation) :
    Prop :=
  if generation.bucketTable then Carried parent own
  else parent.take mttBlacklistRangesMax = own.take mttBlacklistRangesMax

/-- Each generation of a chain shows nothing of its parent's table. -/
def AllStartOver (w : Nat) (env : Option Bytes) : List Generation → Prop
  | [] => True
  | generation :: older =>
      StartsOver (parentMatches w env older) (matchesOf w env generation)
          generation ∧
        NullFree w env generation ∧ AllStartOver w env older

/-- The table is right in each generation of a chain. -/
def AllRight (w : Nat) (env : Option Bytes) (generations : List Generation) :
    Prop :=
  ∀ (generation : Generation) (older : List Generation)
    (state : BlacklistState w), generation :: older <:+ generations →
    Lineage env (generation :: older) state → TableRight env generation state

/-- A process before its initialisation, with the table of its parent. -/
structure Uninitialised (state : BlacklistState w) : Prop where
  sound : Sound state
  fresh : state.initialized = false

theorem mttEnsureInit_sound (env : Option Bytes) (generation : Generation)
    {state : BlacklistState w} (start : Uninitialised state) :
    Sound (mttEnsureInit env generation state) := by
  unfold mttEnsureInit
  rw [start.fresh, if_neg Bool.false_ne_true]
  split
  · obtain ⟨bounded, enabled⟩ := parse_sound env generation start.sound
    exact ⟨bounded, enabled⟩
  · exact ⟨start.sound.bounded, start.sound.enabled⟩

theorem mttEnsureInit_ranges (env : Option Bytes) (generation : Generation)
    {state : BlacklistState w} (start : Uninitialised state) :
    (mttEnsureInit env generation state).ranges =
      if generation.bucketTable then
        (state.ranges ++ matchesOf w env generation).take
          mttBlacklistRangesMax
      else state.ranges := by
  unfold mttEnsureInit
  rw [start.fresh, if_neg Bool.false_ne_true]
  split
  · exact parse_ranges env generation start.sound
  · rfl

theorem mttForkChild_keeps {parent child : BlacklistState w}
    (sound : Sound parent) (forked : mttForkChild parent = some child) :
    Uninitialised child ∧ child.ranges = parent.ranges := by
  unfold mttForkChild at forked
  split at forked
  case isTrue =>
      cases forked
      exact ⟨⟨⟨sound.bounded, sound.enabled⟩, rfl⟩, rfl⟩
  case isFalse => cases forked

theorem Lineage.sound {env : Option Bytes} {generations : List Generation}
    {state : BlacklistState w} (lineage : Lineage env generations state) :
    Sound state := by
  induction lineage with
  | first generation =>
      exact mttEnsureInit_sound env generation ⟨sound_fresh, rfl⟩
  | child _ forked generation induction =>
      exact mttEnsureInit_sound env generation
        (mttForkChild_keeps induction forked).1

theorem Lineage.ne_nil {env : Option Bytes} {generations : List Generation}
    {state : BlacklistState w} (lineage : Lineage env generations state) :
    generations ≠ [] := by
  cases lineage <;> exact List.cons_ne_nil _ _

theorem Lineage.unique {env : Option Bytes} {generations : List Generation}
    {state state' : BlacklistState w}
    (lineage : Lineage env generations state)
    (lineage' : Lineage env generations state') : state = state' := by
  induction lineage generalizing state' with
  | first generation =>
      cases lineage' with
      | first => rfl
      | child earlier' => exact absurd rfl earlier'.ne_nil
  | child earlier forked generation induction =>
      cases lineage' with
      | first => exact absurd rfl earlier.ne_nil
      | child earlier' forked' =>
          rw [← induction earlier', forked] at forked'
          cases forked'
          rfl

theorem tableRight_mttEnsureInit {env : Option Bytes}
    {generation : Generation} {state : BlacklistState w}
    {parent : List (AddrRange w)} (start : Uninitialised state)
    (inherited : state.ranges = parent.take mttBlacklistRangesMax) :
    TableRight env generation (mttEnsureInit env generation state) ↔
      StartsOver parent (matchesOf w env generation) generation ∧
        NullFree w env generation := by
  rw [tableRight_iff (mttEnsureInit_sound env generation start),
    mttEnsureInit_ranges env generation start, inherited, StartsOver]
  split
  · rw [take_append_iff]
  · rfl

theorem allRight_cons {env : Option Bytes} {generation : Generation}
    {older : List Generation} {state : BlacklistState w}
    (lineage : Lineage env (generation :: older) state) :
    AllRight w env (generation :: older) ↔
      TableRight env generation state ∧ AllRight w env older := by
  constructor
  · intro all
    refine ⟨all generation older state List.suffix_rfl lineage, ?_⟩
    intro earlier rest state' suffix lineage'
    exact all earlier rest state' (suffix.trans (List.suffix_cons _ _))
      lineage'
  · rintro ⟨right, all⟩ earlier rest state' suffix lineage'
    rcases List.suffix_cons_iff.mp suffix with same | suffix
    · cases same
      rw [lineage'.unique lineage]
      exact right
    · exact all earlier rest state' suffix lineage'

theorem allRight_nil (env : Option Bytes) : AllRight w env [] := by
  intro generation older state suffix _
  cases List.suffix_nil.mp suffix

theorem inherited_of_allRight {env : Option Bytes}
    {generations : List Generation} {parent : BlacklistState w}
    (lineage : Lineage env generations parent)
    (all : AllRight w env generations) :
    parent.ranges =
      (parentMatches w env generations).take mttBlacklistRangesMax := by
  cases generations with
  | nil => exact absurd rfl lineage.ne_nil
  | cons generation older =>
      exact (all generation older parent List.suffix_rfl lineage).table

/-- In which chains of forks the table is right in each generation. -/
theorem allRight_iff {env : Option Bytes} {generations : List Generation}
    {state : BlacklistState w} (lineage : Lineage env generations state) :
    AllRight w env generations ↔ AllStartOver w env generations := by
  induction lineage with
  | first generation =>
      have empty : (BlacklistState.fresh w).ranges =
          (parentMatches w env []).take mttBlacklistRangesMax := rfl
      rw [allRight_cons (.first generation), AllStartOver,
        tableRight_mttEnsureInit ⟨sound_fresh, rfl⟩ empty, and_assoc]
      simp only [allRight_nil, AllStartOver]
  | @child generations parent child earlier forked generation induction =>
      obtain ⟨start, kept⟩ := mttForkChild_keeps earlier.sound forked
      have step : AllRight w env generations →
          (TableRight env generation (mttEnsureInit env generation child) ↔
            StartsOver (parentMatches w env generations)
              (matchesOf w env generation) generation ∧
            NullFree w env generation) := by
        intro all
        apply tableRight_mttEnsureInit start
        rw [kept]
        exact inherited_of_allRight earlier all
      rw [allRight_cons (.child earlier forked generation), AllStartOver,
        ← induction, ← and_assoc]
      constructor
      · rintro ⟨right, all⟩
        exact ⟨(step all).mp right, all⟩
      · rintro ⟨starts, all⟩
        exact ⟨(step all).mpr starts, all⟩

/-- Ranges of real maps are pairwise distinct: then the parent had no match, or
both have 64 and share them. -/
theorem carried_of_nodup {parent own : List (AddrRange w)}
    (distinct : own.Nodup) (carried : Carried parent own) :
    parent = [] ∨ mttBlacklistRangesMax ≤ parent.length ∧
      parent.take mttBlacklistRangesMax = own.take mttBlacklistRangesMax := by
  rcases carried with empty | ⟨enough, saturated⟩
  · exact .inl empty
  by_cases short : parent.length < mttBlacklistRangesMax
  · left
    by_contra some_
    have positive := List.length_pos_iff.mpr some_
    have there := congrArg (fun ranges => ranges[parent.length]?) saturated
    simp only [List.getElem?_take_of_lt short, List.getElem?_append_right
      (Nat.le_refl _), Nat.sub_self] at there
    have zero : 0 < own.length := by omega
    have inside : parent.length < own.length := by omega
    rw [List.getElem?_eq_getElem zero, List.getElem?_eq_getElem inside]
      at there
    have same := (List.Nodup.getElem_inj_iff distinct).mp
      (Option.some.inj there)
    omega
  · right
    have long := Nat.le_of_not_lt short
    rw [List.take_append_of_le_length long] at saturated
    exact ⟨long, saturated⟩

section

open Json (ascii)

def fooMaps : Generation where
  bucketTable := true
  maps := some (ascii "1000-2000 r-xp 0 0:0 7 /lib/libfoo.so\n")

/-- The library has been unloaded before the fork. -/
def appMaps : Generation where
  bucketTable := true
  maps := some (ascii "4000-5000 r-xp 0 0:0 9 /bin/app\n")

/-- The child that inherits the ranges of its parent. -/
def unloadedChild : BlacklistState 64 :=
  mttEnsureInit (some (ascii "libfoo")) appMaps
    { mttEnsureInit (some (ascii "libfoo")) fooMaps (.fresh 64) with
      initialized := false }

theorem lineage_unloadedChild :
    Lineage (some (ascii "libfoo")) [appMaps, fooMaps] unloadedChild :=
  .child (.first fooMaps) (if_pos (by decide)) appMaps

/-- Two forks before the library is loaded, and the last generation with it. -/
def loadedGrandchild : BlacklistState 64 :=
  let env := some (ascii "libfoo")
  let first := mttEnsureInit env appMaps (.fresh 64)
  let child := mttEnsureInit env appMaps { first with initialized := false }
  mttEnsureInit env fooMaps { child with initialized := false }

theorem lineage_loadedGrandchild :
    Lineage (some (ascii "libfoo")) [fooMaps, appMaps, appMaps]
      loadedGrandchild :=
  .child (.child (.first appMaps) (if_pos (by decide)) appMaps)
    (if_pos (by decide)) fooMaps

/-- A chain of three generations that is right, and one that is not. -/
theorem allRight_iff_grandchildren :
    AllRight 64 (some (ascii "libfoo")) [fooMaps, appMaps, appMaps] ∧
      ¬ AllRight 64 (some (ascii "libfoo")) [appMaps, fooMaps] := by
  have nothing : matchesOf 64 (some (ascii "libfoo")) appMaps = [] := by
    decide
  have found : matchesOf 64 (some (ascii "libfoo")) fooMaps =
      [⟨0x1000, 0x2000⟩] := by
    decide
  have fooTable : fooMaps.bucketTable = true := rfl
  have appTable : appMaps.bucketTable = true := rfl
  constructor
  · rw [allRight_iff lineage_loadedGrandchild]
    simp [AllStartOver, StartsOver, parentMatches, NullFree, Carried, nothing,
      found, fooTable, AddrRange.Covers, mttBlacklistRangesMax]
  · rw [allRight_iff lineage_unloadedChild]
    simp [AllStartOver, StartsOver, parentMatches, Carried, nothing, found,
      appTable, mttBlacklistRangesMax]

theorem not_allRight_unloaded :
    ¬ AllRight 64 (some (ascii "libfoo")) [appMaps, fooMaps] ∧
      mttIsLrInBlacklist unloadedChild 0x1000 = true := by
  have finds : mttIsLrInBlacklist unloadedChild 0x1000 = true := by decide
  have nothing : matchesOf 64 (some (ascii "libfoo")) appMaps = [] := by
    decide
  refine ⟨fun all => ?_, finds⟩
  have right := all appMaps [fooMaps] unloadedChild List.suffix_rfl
    lineage_unloadedChild
  obtain ⟨range, member, _⟩ := (right.lookup 0x1000).mp finds
  rw [nothing] at member
  cases member

end

end MemoryTraceTool.BlacklistRanges
