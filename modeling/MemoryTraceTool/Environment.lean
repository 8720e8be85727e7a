import Mathlib.Data.List.TakeWhile
import MemoryTraceTool.EntryCapacity
import MemoryTraceTool.Lib.Json

/-!
# The settings in the environment

`mtt_ensure_init` reads its settings with `getenv` and turns numbers into
integers with `atoi` and `atol`, which take any text for a number.  A number
counts only if it is in the range of its setting.
-/

namespace MemoryTraceTool.Environment

open Json

/-! ## Numbers -/

/-- `isspace` of the C locale. -/
def isSpace (byte : UInt8) : Bool :=
  byte == 32 || (9 ≤ byte.toNat && byte.toNat ≤ 13)

/-- A sign and the text after it. -/
def signed : Bytes → Bool × Bytes
  | 45 :: rest => (true, rest)
  | 43 :: rest => (false, rest)
  | rest => (false, rest)

/-- The number that decimal digits stand for. -/
def decimalValue (digits : Bytes) : Nat :=
  Nat.ofDigits 10 (digits.reverse.map fun byte => byte.toNat - 48)

/-- The nearest `long`. -/
def clampLong (value : Int) : Int := max (min value (2 ^ 63 - 1)) (-2 ^ 63)

/-- `strtol` with base 10, which stops at the limits of a `long`. -/
def strtol (text : Bytes) : Int :=
  let (negative, rest) := signed (text.dropWhile isSpace)
  let value := (decimalValue (rest.takeWhile isDigit) : Int)
  clampLong (if negative then -value else value)

def atol (text : Bytes) : Int := strtol text

/-- The low 32 bits of `strtol`. -/
def atoi (text : Bytes) : Int :=
  (BitVec.ofInt 32 (strtol text)).toInt

/-- A text cut into blanks, at most one sign, digits and something else. -/
structure Cut (text blanks sign digits rest : Bytes) : Prop where
  text_eq : text = blanks ++ (sign ++ (digits ++ rest))
  spaces : ∀ byte ∈ blanks, isSpace byte = true
  oneSign : sign = [] ∨ sign = [43] ∨ sign = [45]
  decimal : ∀ byte ∈ digits, isDigit byte = true
  ends : NumberEnds rest
  bare : sign = [] → digits = [] → ∀ byte ∈ rest.head?,
    isSpace byte = false ∧ byte ≠ 43 ∧ byte ≠ 45

/-- The number at the start of a text; without digits it is 0. -/
def Numeral (text : Bytes) (value : Int) : Prop :=
  ∃ blanks sign digits rest, Cut text blanks sign digits rest ∧
    value = if sign = [45] then -(decimalValue digits : Int)
      else decimalValue digits

theorem isSpace_of_isDigit {byte : UInt8} (digit : isDigit byte = true) :
    isSpace byte = false := by
  simp only [isDigit, Bool.and_eq_true, decide_eq_true_eq] at digit
  have number : byte.toNat ≠ 32 := by omega
  have different : byte ≠ 32 := fun same => number (same ▸ rfl)
  simp only [isSpace, Bool.or_eq_false_iff, beq_eq_false_iff_ne,
    Bool.and_eq_false_iff, decide_eq_false_iff_not]
  exact ⟨different, .inr (by omega)⟩

/-- Without a sign the first byte after the blanks is none of them. -/
theorem Cut.head_bare {text blanks digits rest : Bytes}
    (cut : Cut text blanks [] digits rest) :
    ∀ byte ∈ (digits ++ rest).head?,
      isSpace byte = false ∧ byte ≠ 43 ∧ byte ≠ 45 := by
  intro byte first
  cases digits with
  | nil => exact cut.bare rfl rfl byte first
  | cons digit digits =>
      obtain rfl := Option.some.inj first
      have number := cut.decimal digit List.mem_cons_self
      exact ⟨isSpace_of_isDigit number, isDigit_ne number (by decide),
        isDigit_ne number (by decide)⟩

theorem dropWhile_isSpace {blanks text : Bytes}
    (spaces : ∀ byte ∈ blanks, isSpace byte = true)
    (stops : ∀ byte ∈ text.head?, isSpace byte = false) :
    (blanks ++ text).dropWhile isSpace = text := by
  rw [List.dropWhile_append_of_pos spaces]
  cases text with
  | nil => rfl
  | cons byte text =>
      exact List.dropWhile_cons_of_neg (by simp [stops byte rfl])

theorem Cut.signed_eq {text blanks sign digits rest : Bytes}
    (cut : Cut text blanks sign digits rest) :
    signed (text.dropWhile isSpace) =
      (decide (sign = [45]), digits ++ rest) := by
  rw [cut.text_eq]
  obtain rfl | rfl | rfl := cut.oneSign
  · have head := cut.head_bare
    rw [List.nil_append,
      dropWhile_isSpace cut.spaces fun byte first => (head byte first).1]
    cases tail : digits ++ rest with
    | nil => rfl
    | cons byte tail =>
        rw [tail] at head
        obtain ⟨-, plus, minus⟩ := head byte rfl
        simp [signed, plus, minus]
  all_goals
    rw [dropWhile_isSpace cut.spaces]
    · rfl
    · intro byte first
      obtain rfl := Option.some.inj first
      rfl

theorem takeWhile_isDigit {digits rest : Bytes}
    (all : ∀ byte ∈ digits, isDigit byte = true) (ends : NumberEnds rest) :
    (digits ++ rest).takeWhile isDigit = digits := by
  rw [List.takeWhile_append_of_pos all]
  cases rest with
  | nil => simp
  | cons byte rest =>
      rw [List.takeWhile_cons_of_neg (by simp [ends byte rfl]),
        List.append_nil]

/-- The number of a text is what `strtol` reads, as far as it is a `long`. -/
theorem strtol_numeral {text : Bytes} {value : Int}
    (numeral : Numeral text value) : strtol text = clampLong value := by
  obtain ⟨blanks, sign, digits, rest, cut, rfl⟩ := numeral
  simp only [strtol, cut.signed_eq, takeWhile_isDigit cut.decimal cut.ends,
    decide_eq_true_eq]

theorem signed_cut (text : Bytes) :
    ∃ sign, text = sign ++ (signed text).2 ∧
      (sign = [] ∨ sign = [43] ∨ sign = [45]) ∧
      (sign = [] → ∀ byte ∈ text.head?, byte ≠ 43 ∧ byte ≠ 45) := by
  unfold signed
  split
  · exact ⟨[45], rfl, by simp, by simp⟩
  · exact ⟨[43], rfl, by simp, by simp⟩
  · rename_i minus plus
    refine ⟨[], rfl, by simp, ?_⟩
    intro _ byte first
    cases text with
    | nil => cases first
    | cons head text =>
        obtain rfl := Option.some.inj first
        constructor
        · exact fun same => plus text (same ▸ rfl)
        · exact fun same => minus text (same ▸ rfl)

theorem head_dropWhile {test : UInt8 → Bool} {text : Bytes} :
    ∀ byte ∈ (text.dropWhile test).head?, test byte = false := by
  intro byte first
  have stops := List.head?_dropWhile_not test text
  rw [Option.mem_def.mp first] at stops
  exact Bool.eq_false_iff.mpr (by simpa using stops)

theorem exists_numeral (text : Bytes) : ∃ value, Numeral text value := by
  obtain ⟨sign, whole, shape, free⟩ := signed_cut (text.dropWhile isSpace)
  refine ⟨_, text.takeWhile isSpace, sign,
    (signed (text.dropWhile isSpace)).2.takeWhile isDigit,
    (signed (text.dropWhile isSpace)).2.dropWhile isDigit, ?_, rfl⟩
  constructor
  · rw [List.takeWhile_append_dropWhile, ← whole,
      List.takeWhile_append_dropWhile]
  · exact fun byte member => List.mem_takeWhile_imp member
  · exact shape
  · exact fun byte member => List.mem_takeWhile_imp member
  · exact head_dropWhile
  · rintro rfl none byte first
    have split := List.takeWhile_append_dropWhile (p := isDigit)
      (l := (signed (text.dropWhile isSpace)).2)
    rw [none, List.nil_append] at split
    rw [split, ← List.nil_append (signed _).2, ← whole] at first
    exact ⟨head_dropWhile byte first, free rfl byte first⟩

/-! ## Settings -/

/-- The three unwinders of `g_unwinder_mode`. -/
inductive UnwinderMode where
  | auto
  | libunwind
  | backtrace
  deriving DecidableEq, Repr

/-- What `mtt_ensure_init` takes from the environment. -/
structure Settings where
  disabled : Bool
  debug : Int
  sample : Int
  sampleRate : Int
  poolEntries : Nat
  leakThreshold : Int
  skipStartup : Int
  libBlacklist : Option Bytes
  unwinder : UnwinderMode
  maxStackFrames : Int
  httpPort : Int
  deriving DecidableEq

/-- The largest `int`. -/
def intMax : Int := 2 ^ 31 - 1

/-- `getenv`. -/
abbrev Env : Type := String → Option Bytes

section Reading

variable (env : Env)

/-- The number of a variable, if it is in range. -/
def inRange (name : String) (lowest highest : Int) : Option Int :=
  (env name).bind fun text =>
    let value := atoi text
    if lowest ≤ value ∧ value ≤ highest then some value else none

/-- `MTT_DEBUG` is moved into its range. -/
def wantDebug : Int :=
  match env "MTT_DEBUG" with
  | none => 1
  | some text =>
      let lv := atoi text
      let lv := if lv < 0 then 0 else lv
      if 2 < lv then 2 else lv

/-- `MTT_SAMPLE` turns the sampling of bytes off. -/
def wantSampleRate : Int :=
  let wantSrate :=
    match inRange env "MTT_SAMPLE" 0 1024 with
    | some _ => 0
    | none => 0
  (inRange env "MTT_SAMPLE_RATE" 0 30).getD wantSrate

/-- What fits into `lib_blacklist` with its terminator. -/
def wantLibBlacklist : Option Bytes :=
  match env "MTT_LIB_BLACKLIST" with
  | none => none
  | some text => if text = [] then none else some (text.take 511)

/-- `MTT_UNWINDER`; what is no name of a mode means `auto`. -/
def wantUnwinder : UnwinderMode :=
  match env "MTT_UNWINDER" with
  | none => .auto
  | some text =>
      if text = ascii "libunwind" then .libunwind
      else if text = ascii "backtrace" then .backtrace
      else .auto

/-- All settings that `mtt_ensure_init` reads, from the environment and the size
of an entry. -/
def readSettings (entrySize : Nat) : Settings where
  disabled := env "MTT_DISABLE" == some (ascii "1")
  debug := wantDebug env
  sample := (inRange env "MTT_SAMPLE" 0 1024).getD 0
  sampleRate := wantSampleRate env
  poolEntries := wantPoolEntries entrySize
    ((env "MTT_POOL_ENTRIES").map atol)
  leakThreshold := (inRange env "MTT_LEAK_THRESHOLD_SEC" 0 intMax).getD 300
  skipStartup := (inRange env "MTT_SKIP_STARTUP_SEC" 0 intMax).getD 0
  libBlacklist := wantLibBlacklist env
  unwinder := wantUnwinder env
  maxStackFrames := (inRange env "MTT_MAX_STACK_FRAMES" 1 64).getD 64
  httpPort := (inRange env "MTT_HTTP_PORT" 0 65535).getD 0

end Reading

/-- A variable with a number, whether it is read as a `long`, its range and
its default. -/
structure NumericSetting where
  name : String
  long : Bool
  lowest : Int
  highest : Int
  fallback : Int
  read : Settings → Int

/-- The numeric variables: which function reads each, its bounds and its
default. -/
def numericSettings (entrySize : Nat) : List NumericSetting :=
  [⟨"MTT_SAMPLE", false, 0, 1024, 0, Settings.sample⟩,
    ⟨"MTT_SAMPLE_RATE", false, 0, 30, 0, Settings.sampleRate⟩,
    ⟨"MTT_POOL_ENTRIES", true, mttPoolEntriesMin, mttPoolEntriesMax,
      wantPoolEntries entrySize none, fun settings => settings.poolEntries⟩,
    ⟨"MTT_LEAK_THRESHOLD_SEC", false, 0, intMax, 300,
      Settings.leakThreshold⟩,
    ⟨"MTT_SKIP_STARTUP_SEC", false, 0, intMax, 0, Settings.skipStartup⟩,
    ⟨"MTT_MAX_STACK_FRAMES", false, 1, 64, 64, Settings.maxStackFrames⟩,
    ⟨"MTT_HTTP_PORT", false, 0, 65535, 0, Settings.httpPort⟩]

def NumericSetting.number (setting : NumericSetting) (text : Bytes) : Int :=
  if setting.long then atol text else atoi text

/-- The number of the variable if that is in range, or else the default. -/
def NumericSetting.rule (setting : NumericSetting) (env : Env) : Int :=
  match env setting.name with
  | none => setting.fallback
  | some text =>
      if setting.lowest ≤ setting.number text ∧
          setting.number text ≤ setting.highest then
        setting.number text
      else setting.fallback

theorem getD_inRange (env : Env) (name : String)
    (lowest highest fallback : Int) :
    (inRange env name lowest highest).getD fallback =
      match env name with
      | none => fallback
      | some text =>
          if lowest ≤ atoi text ∧ atoi text ≤ highest then atoi text
          else fallback := by
  unfold inRange
  cases env name with
  | none => rfl
  | some text =>
      simp only [Option.bind_some]
      split <;> rfl

theorem wantSampleRate_eq (env : Env) :
    wantSampleRate env = (inRange env "MTT_SAMPLE_RATE" 0 30).getD 0 := by
  unfold wantSampleRate
  split <;> rfl

/-- Every numeric setting follows the rule. -/
theorem read_eq_rule (env : Env) (entrySize : Nat) {setting : NumericSetting}
    (listed : setting ∈ numericSettings entrySize) :
    setting.read (readSettings env entrySize) = setting.rule env := by
  simp only [numericSettings, List.mem_cons, List.not_mem_nil,
    or_false] at listed
  rcases listed with rfl | rfl | rfl | rfl | rfl | rfl | rfl
  · exact getD_inRange ..
  · exact (wantSampleRate_eq env).trans (getD_inRange ..)
  · simp only [readSettings, NumericSetting.rule, NumericSetting.number,
      wantPoolEntries, if_true]
    cases env "MTT_POOL_ENTRIES" with
    | none => rfl
    | some text =>
        simp only [Option.map_some]
        split
        · rename_i within
          have positive : 0 ≤ atol text :=
            (Int.natCast_nonneg mttPoolEntriesMin).trans within.1
          exact Int.toNat_of_nonneg positive
        · rfl
  · exact getD_inRange ..
  · exact getD_inRange ..
  · exact getD_inRange ..
  · exact getD_inRange ..

theorem wantPoolEntries_none_within (entrySize : Nat) :
    mttPoolEntriesMin ≤ wantPoolEntries entrySize none ∧
      wantPoolEntries entrySize none ≤ mttPoolEntriesMax := by
  unfold wantPoolEntries mttPoolEntriesMin mttPoolEntriesMax
  generalize mttPoolTargetBytes / entrySize = want
  dsimp only
  by_cases small : want < 1024
  · simp [small]
  · by_cases large : 131072 < want
    · simp [small, large]
    · rw [if_neg small, if_neg large]
      omega

theorem fallback_within (entrySize : Nat) {setting : NumericSetting}
    (listed : setting ∈ numericSettings entrySize) :
    setting.lowest ≤ setting.fallback ∧
      setting.fallback ≤ setting.highest := by
  simp only [numericSettings, List.mem_cons, List.not_mem_nil,
    or_false] at listed
  rcases listed with rfl | rfl | rfl | rfl | rfl | rfl | rfl
  case inr.inr.inl =>
    have within := wantPoolEntries_none_within entrySize
    exact ⟨Int.ofNat_le.mpr within.1, Int.ofNat_le.mpr within.2⟩
  all_goals decide

theorem read_within (env : Env) (entrySize : Nat) {setting : NumericSetting}
    (listed : setting ∈ numericSettings entrySize) :
    setting.lowest ≤ setting.read (readSettings env entrySize) ∧
      setting.read (readSettings env entrySize) ≤ setting.highest := by
  rw [read_eq_rule env entrySize listed]
  unfold NumericSetting.rule
  split
  · exact fallback_within entrySize listed
  · split
    · assumption
    · exact fallback_within entrySize listed

/-- The number of a text as an `int` or a `long`. -/
def NumericSetting.convert (setting : NumericSetting) (value : Int) : Int :=
  if setting.long then clampLong value
  else (BitVec.ofInt 32 (clampLong value)).toInt

theorem number_numeral {setting : NumericSetting} {text : Bytes} {value : Int}
    (numeral : Numeral text value) :
    setting.number text = setting.convert value := by
  unfold NumericSetting.number NumericSetting.convert
  split
  · exact strtol_numeral numeral
  · rw [atoi, strtol_numeral numeral]

/-- `MTT_LEAK_THRESHOLD_SEC=abc` and `MTT_POOL_ENTRIES=+007000`. -/
def looseEnv : Env := fun name =>
  if name = "MTT_LEAK_THRESHOLD_SEC" then some (ascii "abc")
  else if name = "MTT_POOL_ENTRIES" then some (ascii "+007000")
  else none

end MemoryTraceTool.Environment
