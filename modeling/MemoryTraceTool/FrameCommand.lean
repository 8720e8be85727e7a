import MemoryTraceTool.SymbolText
import MemoryTraceTool.Lib.Utf8

/-!
# The command shown for a frame

The dashboard offers an `addr2line` command for each frame.  `alCmd` finds its
arguments by matching the frame against `/\((.+)\+(0x[0-9a-fA-F]+)\)$/`: the
first parenthesis from which the match reaches the end of the text opens the
group, whatever stands there.  The texts of the browser are lists of code
points; the frame arrives as UTF-8.
-/

namespace MemoryTraceTool.FrameCommand

open Json SymbolText
open Utf8 (decode)

def codes (text : String) : List Nat := text.toList.map Char.toNat

/-! ## The regular expression -/

/-- What `.` does not match. -/
def isLineTerminator (code : Nat) : Bool :=
  code == 10 || code == 13 || code == 8232 || code == 8233

def isHexDigit (code : Nat) : Bool :=
  (48 ≤ code && code ≤ 57) || (65 ≤ code && code ≤ 70) ||
    (97 ≤ code && code ≤ 102)

/-- `\+(0x[0-9a-fA-F]+)\)$` -/
def matchOffset : List Nat → Option (List Nat)
  | 43 :: 48 :: 120 :: rest =>
      let digits := rest.takeWhile isHexDigit
      if digits ≠ [] ∧ rest.drop digits.length = [41] then
        some (48 :: 120 :: digits)
      else none
  | _ => none

/-- `.*` and what follows it, the longest text first. -/
def matchRest : List Nat → Option (List Nat × List Nat)
  | [] => none
  | code :: rest =>
      let here := (matchOffset (code :: rest)).map fun number => ([], number)
      if isLineTerminator code then here
      else
        match matchRest rest with
        | some (name, number) => some (code :: name, number)
        | none => here

/-- `(.+)` and what follows it. -/
def matchName : List Nat → Option (List Nat × List Nat)
  | [] => none
  | code :: rest =>
      if isLineTerminator code then none
      else (matchRest rest).map fun found => (code :: found.1, found.2)

/-- The groups of the leftmost match. -/
def alMatch : List Nat → Option (List Nat × List Nat)
  | [] => none
  | code :: rest =>
      if code = 40 then
        match matchName rest with
        | some found => some found
        | none => alMatch rest
      else alMatch rest

def command (name number : List Nat) : List Nat :=
  codes "addr2line -e " ++ name ++ codes " -f -C " ++ number

def alCmd (frame : List Nat) : List Nat :=
  match alMatch frame with
  | some (name, number) => command name number
  | none => []

def digitValue (code : Nat) : Nat :=
  if code < 58 then code - 48
  else if code < 71 then code - 55
  else code - 87

/-- The value of a number written with `0x`. -/
def offsetOf (number : List Nat) : Nat :=
  Nat.ofDigits 16 ((number.drop 2).map digitValue).reverse

/-! ## What it matches -/

def NoBreak (text : List Nat) : Prop :=
  ∀ code ∈ text, isLineTerminator code = false

instance (text : List Nat) : Decidable (NoBreak text) :=
  inferInstanceAs (Decidable (∀ code ∈ text, isLineTerminator code = false))

def IsNumber (number : List Nat) : Prop :=
  ∃ digits, number = 48 :: 120 :: digits ∧ digits ≠ [] ∧
    ∀ digit ∈ digits, isHexDigit digit = true

/-- The search passes over every parenthesis: a line ends behind it. -/
def Passed : List Nat → Prop
  | [] => True
  | code :: rest => (code = 40 → ¬ NoBreak rest) ∧ Passed rest

theorem NoBreak.append {first second : List Nat} (one : NoBreak first)
    (other : NoBreak second) : NoBreak (first ++ second) := by
  intro code member
  rcases List.mem_append.mp member with inFirst | inSecond
  · exact one code inFirst
  · exact other code inSecond

theorem IsNumber.plus_not_mem {number : List Nat} (valid : IsNumber number) :
    43 ∉ number := by
  obtain ⟨digits, rfl, _, hexes⟩ := valid
  intro member
  have inDigits : 43 ∈ digits := by simpa using member
  exact absurd (hexes 43 inDigits) (by decide)

theorem takeWhile_hex {digits : List Nat}
    (hexes : ∀ digit ∈ digits, isHexDigit digit = true) :
    (digits ++ [41]).takeWhile isHexDigit = digits := by
  rw [List.takeWhile_append_of_pos hexes]
  simp [isHexDigit]

theorem matchOffset_eq_some {text number : List Nat} :
    matchOffset text = some number ↔
      text = 43 :: (number ++ [41]) ∧ IsNumber number := by
  constructor
  · intro matched
    unfold matchOffset at matched
    split at matched
    case h_1 rest =>
        dsimp only at matched
        split at matched
        case isTrue found =>
            obtain ⟨nonempty, dropped⟩ := found
            obtain rfl := Option.some.inj matched
            refine ⟨?_, ⟨_, rfl, nonempty, ?_⟩⟩
            · have taken := List.takeWhile_prefix (l := rest) isHexDigit
              have split := List.prefix_append_drop taken
              rw [dropped] at split
              simp [← split]
            · intro digit member
              exact List.mem_takeWhile_imp member
        case isFalse => cases matched
    case h_2 => cases matched
  · rintro ⟨rfl, valid⟩
    obtain ⟨digits, rfl, nonempty, hexes⟩ := valid
    simp only [matchOffset, List.cons_append, takeWhile_hex hexes,
      List.drop_left]
    rw [if_pos ⟨nonempty, trivial⟩]

theorem IsNumber.no_plus_behind {number before after : List Nat}
    (valid : IsNumber number) : number ++ [41] ≠ before ++ 43 :: after := by
  intro same
  have member : 43 ∈ number ++ [41] := by simp [same]
  rcases List.mem_append.mp member with inNumber | last
  · exact valid.plus_not_mem inNumber
  · exact absurd (List.mem_singleton.mp last) (by decide)

theorem plus_inj {number number' before : List Nat} (valid : IsNumber number)
    (same : 43 :: (number ++ [41]) = before ++ 43 :: (number' ++ [41])) :
    before = [] ∧ number = number' := by
  cases before with
  | nil => exact ⟨rfl, List.append_cancel_right (List.cons.inj same).2⟩
  | cons code before =>
      exact absurd (List.cons.inj same).2 valid.no_plus_behind

/-- The number begins behind the last plus sign. -/
theorem split_unique {name name' number number' : List Nat}
    (valid : IsNumber number) (valid' : IsNumber number')
    (same : name ++ 43 :: (number ++ [41]) =
      name' ++ 43 :: (number' ++ [41])) :
    name = name' ∧ number = number' := by
  rcases List.append_eq_append_iff.mp same with
    ⟨between, rfl, rest⟩ | ⟨between, rfl, rest⟩
  · obtain ⟨rfl, rfl⟩ := plus_inj valid rest
    simp
  · obtain ⟨rfl, rfl⟩ := plus_inj valid' rest
    simp

theorem matchHere_eq_some {text name number : List Nat} :
    (matchOffset text).map (fun number => (([] : List Nat), number)) =
        some (name, number) ↔
      name = [] ∧ text = 43 :: (number ++ [41]) ∧ IsNumber number := by
  rw [Option.map_eq_some_iff]
  constructor
  · rintro ⟨found, matched, pair⟩
    cases pair
    exact ⟨rfl, matchOffset_eq_some.mp matched⟩
  · rintro ⟨rfl, split⟩
    exact ⟨number, matchOffset_eq_some.mpr split, rfl⟩

theorem matchRest_sound {text name number : List Nat}
    (matched : matchRest text = some (name, number)) :
    text = name ++ 43 :: (number ++ [41]) ∧ IsNumber number ∧
      NoBreak name := by
  have ends : ∀ {text name number : List Nat},
      name = [] ∧ text = 43 :: (number ++ [41]) ∧ IsNumber number →
      text = name ++ 43 :: (number ++ [41]) ∧ IsNumber number ∧
        NoBreak name := by
    rintro text _ number ⟨rfl, rfl, valid⟩
    exact ⟨rfl, valid, fun _ member => absurd member List.not_mem_nil⟩
  induction text generalizing name with
  | nil => cases matched
  | cons code rest induction =>
      rw [matchRest] at matched
      split at matched
      case isTrue => exact ends (matchHere_eq_some.mp matched)
      case isFalse inLine =>
          split at matched
          case h_1 later found =>
              cases matched
              obtain ⟨rfl, valid, noBreak⟩ := induction found
              refine ⟨rfl, valid, ?_⟩
              intro code' member
              rcases List.mem_cons.mp member with rfl | member
              · exact Bool.eq_false_iff.mpr inLine
              · exact noBreak code' member
          case h_2 => exact ends (matchHere_eq_some.mp matched)

theorem matchRest_complete {name number : List Nat} (valid : IsNumber number)
    (noBreak : NoBreak name) :
    matchRest (name ++ 43 :: (number ++ [41])) = some (name, number) := by
  induction name with
  | nil =>
      have nothing : matchRest (number ++ [41]) = none := by
        rw [Option.eq_none_iff_forall_ne_some]
        rintro ⟨name, number'⟩ matched
        exact valid.no_plus_behind (matchRest_sound matched).1
      rw [List.nil_append, matchRest, nothing]
      exact matchHere_eq_some.mpr ⟨rfl, rfl, valid⟩
  | cons code name induction =>
      have inLine := noBreak code List.mem_cons_self
      have later := induction fun code member =>
        noBreak code (List.mem_cons_of_mem _ member)
      rw [List.cons_append, matchRest, later]
      simp [inLine]

theorem matchName_eq_some {text name number : List Nat} :
    matchName text = some (name, number) ↔
      text = name ++ 43 :: (number ++ [41]) ∧ IsNumber number ∧
        NoBreak name ∧ name ≠ [] := by
  constructor
  · intro matched
    unfold matchName at matched
    split at matched
    case h_1 => cases matched
    case h_2 code rest =>
        split at matched
        case isTrue => cases matched
        case isFalse inLine =>
            obtain ⟨found, foundEq, pair⟩ := Option.map_eq_some_iff.mp matched
            cases pair
            obtain ⟨rfl, valid, noBreak⟩ := matchRest_sound foundEq
            refine ⟨rfl, valid, ?_, List.cons_ne_nil _ _⟩
            intro code' member
            rcases List.mem_cons.mp member with rfl | member
            · exact Bool.eq_false_iff.mpr inLine
            · exact noBreak code' member
  · rintro ⟨rfl, valid, noBreak, nonempty⟩
    cases name with
    | nil => exact absurd rfl nonempty
    | cons code name =>
        have inLine := noBreak code List.mem_cons_self
        have rest := matchRest_complete valid fun code member =>
          noBreak code (List.mem_cons_of_mem _ member)
        rw [List.cons_append, matchName, rest]
        simp [inLine]

theorem matchName_before {name number before : List Nat}
    (valid : IsNumber number) (noBreak : NoBreak name) :
    matchName (before ++ 40 :: (name ++ 43 :: (number ++ [41]))) = none ↔
      ¬ NoBreak before := by
  have split : before ++ 40 :: (name ++ 43 :: (number ++ [41])) =
      (before ++ 40 :: name) ++ 43 :: (number ++ [41]) := by simp
  rw [split]
  constructor
  · intro nothing clear
    have whole : NoBreak (before ++ 40 :: name) :=
      clear.append fun code member => by
        rcases List.mem_cons.mp member with rfl | member
        · rfl
        · exact noBreak code member
    rw [matchName_eq_some.mpr ⟨rfl, valid, whole, by simp⟩] at nothing
    cases nothing
  · intro broken
    rw [Option.eq_none_iff_forall_ne_some]
    rintro ⟨name', number'⟩ matched
    obtain ⟨same, valid', clear, _⟩ := matchName_eq_some.mp matched
    obtain ⟨rfl, rfl⟩ := split_unique valid valid' same
    exact broken fun code member => clear code (List.mem_append_left _ member)

/-- The group `(name+number)` at the end of a text, and the search gets that
far. -/
structure EndsIn (name number front text : List Nat) : Prop where
  split : text = front ++ 40 :: (name ++ 43 :: (number ++ [41]))
  valid : IsNumber number
  noBreak : NoBreak name
  nonempty : name ≠ []
  passed : Passed front

theorem EndsIn.matchName {name number text : List Nat} {code : Nat}
    (ends : EndsIn name number [] (code :: text)) :
    code = 40 ∧ matchName text = some (name, number) := by
  obtain ⟨rfl, rfl⟩ := List.cons.inj ends.split
  exact ⟨rfl, matchName_eq_some.mpr
    ⟨rfl, ends.valid, ends.noBreak, ends.nonempty⟩⟩

/-- The first character of a text that goes on to such a group. -/
theorem EndsIn.tail {name number front text : List Nat} {first code : Nat}
    (ends : EndsIn name number (first :: front) (code :: text)) :
    EndsIn name number front text ∧
      (code = 40 → FrameCommand.matchName text = none) := by
  obtain ⟨rfl, rfl⟩ := List.cons.inj ends.split
  refine ⟨⟨rfl, ends.valid, ends.noBreak, ends.nonempty, ends.passed.2⟩, ?_⟩
  intro opens
  exact (matchName_before ends.valid ends.noBreak).mpr (ends.passed.1 opens)

theorem EndsIn.cons {name number front text : List Nat} {code : Nat}
    (ends : EndsIn name number front text)
    (passes : code = 40 → FrameCommand.matchName text = none) :
    EndsIn name number (code :: front) (code :: text) := by
  obtain ⟨rfl, valid, noBreak, nonempty, passed⟩ := ends
  refine ⟨rfl, valid, noBreak, nonempty, ?_, passed⟩
  intro opens
  exact (matchName_before valid noBreak).mp (passes opens)

theorem EndsIn.closes {name number front text : List Nat}
    (ends : EndsIn name number front text) :
    ∃ before, text = before ++ [41] :=
  ⟨front ++ 40 :: (name ++ 43 :: number), by simp [ends.split]⟩

theorem EndsIn.front_eq {name number number' front front' text : List Nat}
    (ends : EndsIn name number front text) (valid : IsNumber number')
    (split : text = front' ++ 40 :: (name ++ 43 :: (number' ++ [41]))) :
    front = front' := by
  have same : (front ++ 40 :: name) ++ 43 :: (number ++ [41]) =
      (front' ++ 40 :: name) ++ 43 :: (number' ++ [41]) := by
    simpa using ends.split.symm.trans split
  exact List.append_cancel_right (split_unique ends.valid valid same).1

theorem alMatch_eq_some {text name number : List Nat} :
    alMatch text = some (name, number) ↔
      ∃ front, EndsIn name number front text := by
  induction text with
  | nil =>
      constructor
      · intro matched
        cases matched
      · rintro ⟨front, ends⟩
        simpa using ends.split
  | cons code text induction =>
      constructor
      · intro matched
        have later : (code = 40 → matchName text = none) →
            alMatch text = some (name, number) →
            ∃ front, EndsIn name number front (code :: text) := by
          intro passes found
          obtain ⟨front, ends⟩ := induction.mp found
          exact ⟨code :: front, ends.cons passes⟩
        rw [alMatch] at matched
        split at matched
        case isTrue opens =>
            split at matched
            case h_1 found here =>
                cases matched
                obtain ⟨rfl, valid, noBreak, nonempty⟩ :=
                  matchName_eq_some.mp here
                exact ⟨[], by rw [opens]; rfl, valid, noBreak, nonempty,
                  trivial⟩
            case h_2 nothing => exact later (fun _ => nothing) matched
        case isFalse other =>
            exact later (fun opens => absurd opens other) matched
      · rintro ⟨front, ends⟩
        cases front with
        | nil =>
            obtain ⟨opens, here⟩ := ends.matchName
            rw [alMatch, if_pos opens, here]
        | cons first front =>
            obtain ⟨ends, passes⟩ := ends.tail
            have found := induction.mpr ⟨front, ends⟩
            rw [alMatch]
            split
            case isTrue opens =>
                rw [passes opens]
                exact found
            case isFalse => exact found

/-! ## Frames -/

theorem hexDigit_codes : ∀ digit < 16,
    isHexDigit (hexDigit digit).toNat = true ∧
      digitValue (hexDigit digit).toNat = digit := by
  decide

theorem isHexDigit_hex {off : Nat} {byte : UInt8} (member : byte ∈ hex off) :
    isHexDigit byte.toNat = true := by
  obtain ⟨digit, inDigits, rfl⟩ := List.mem_map.mp member
  exact (hexDigit_codes digit (digits_lt (by decide) inDigits)).1

theorem formatOffset_codes {off : Nat} (positive : 0 < off) :
    (formatOffset off).map UInt8.toNat =
      48 :: 120 :: (hex off).map UInt8.toNat := by
  rw [formatOffset, if_neg (Nat.ne_of_gt positive)]
  rfl

theorem isNumber_formatOffset {off : Nat} (positive : 0 < off) :
    IsNumber ((formatOffset off).map UInt8.toNat) := by
  refine ⟨(hex off).map UInt8.toNat, formatOffset_codes positive, ?_, ?_⟩
  · simp [hex, digits_ne_nil]
  · intro code member
    obtain ⟨byte, inHex, rfl⟩ := List.mem_map.mp member
    exact isHexDigit_hex inHex

theorem offsetOf_formatOffset {off : Nat} (positive : 0 < off) :
    offsetOf ((formatOffset off).map UInt8.toNat) = off := by
  rw [formatOffset_codes positive, offsetOf]
  have back : ((hex off).map UInt8.toNat).map digitValue = digits 16 off := by
    rw [hex, List.map_map, List.map_map]
    conv => rhs; rw [← List.map_id (digits 16 off)]
    apply List.map_congr_left
    intro digit member
    exact (hexDigit_codes digit (digits_lt (by decide) member)).2
  rw [List.drop_succ_cons, List.drop_succ_cons, List.drop_zero, back,
    ofDigits_digits]

/-- An ASCII byte that is neither a parenthesis nor ends a line. -/
structure Plain (byte : UInt8) : Prop where
  ascii : byte.toNat < 128
  opens : byte.toNat ≠ 40
  closes : byte.toNat ≠ 41
  inLine : isLineTerminator byte.toNat = false

theorem plain_of_isHexDigit {byte : UInt8}
    (isHex : isHexDigit byte.toNat = true) : Plain byte := by
  simp only [isHexDigit, Bool.or_eq_true, Bool.and_eq_true,
    decide_eq_true_eq] at isHex
  constructor
  · omega
  · omega
  · omega
  · simp only [isLineTerminator, Bool.or_eq_false_iff, beq_eq_false_iff_ne]
    omega

theorem plain_formatOffset {off : Nat} :
    ∀ byte ∈ formatOffset off, Plain byte := by
  intro byte member
  by_cases zero : off = 0
  · rw [formatOffset, if_pos zero] at member
    obtain rfl := List.mem_singleton.mp member
    exact plain_of_isHexDigit (by decide)
  · rw [formatOffset, if_neg zero] at member
    rcases List.mem_append.mp member with leads | inHex
    · rcases List.mem_pair.mp leads with rfl | rfl
      · exact plain_of_isHexDigit (by decide)
      · exact ⟨by decide, by decide, by decide, by decide⟩
    · exact plain_of_isHexDigit (isHexDigit_hex inHex)

section

variable {func lib : Bytes} {funcOff fileOff : Nat}

/-- What stands between the function and the library's parenthesis. -/
def between (funcOff : Nat) : Bytes := 43 :: (formatOffset funcOff ++ [32])

theorem plain_between : ∀ byte ∈ between funcOff, Plain byte := by
  intro byte member
  rcases List.mem_cons.mp member with rfl | member
  · exact ⟨by decide, by decide, by decide, by decide⟩
  rcases List.mem_append.mp member with inOffset | last
  · exact plain_formatOffset byte inOffset
  · obtain rfl := List.mem_singleton.mp last
    exact ⟨by decide, by decide, by decide, by decide⟩

theorem formatFrame_eq :
    formatFrame func funcOff lib fileOff =
      func ++ (between funcOff ++
        40 :: (lib ++ 43 :: (formatOffset fileOff ++ [41]))) := by
  have plus : ascii "+" = [43] := rfl
  have opens : ascii " (" = [32, 40] := rfl
  have closes : ascii ")" = [41] := rfl
  simp [formatFrame, between, plus, opens, closes]

theorem decode_formatFrame :
    decode (formatFrame func funcOff lib fileOff) =
      (decode func ++ (between funcOff).map UInt8.toNat) ++
        40 :: (decode lib ++
          43 :: ((formatOffset fileOff).map UInt8.toNat ++ [41])) := by
  have offset : decode (formatOffset fileOff ++ [41]) =
      (formatOffset fileOff).map UInt8.toNat ++ [41] :=
    Utf8.decode_ascii_append
      (fun byte member => (plain_formatOffset byte member).ascii) [41]
  have rest : ∀ byte ∈ formatOffset funcOff ++ [32], byte.toNat < 128 :=
    fun byte member =>
      (plain_between byte (List.mem_cons_of_mem _ member)).ascii
  rw [formatFrame_eq, between, List.cons_append,
    Utf8.decode_append_ascii func (by decide),
    Utf8.decode_ascii_append rest,
    ← List.nil_append (40 :: _), Utf8.decode_append_ascii [] (by decide),
    Utf8.decode_append_ascii lib (by decide), offset]
  simp [Utf8.decode_nil]

theorem noBreak_append_plain {text : List Nat} {plain : Bytes}
    (allPlain : ∀ byte ∈ plain, Plain byte) :
    NoBreak (text ++ plain.map UInt8.toNat) ↔ NoBreak text := by
  constructor
  · intro clear code member
    exact clear code (List.mem_append_left _ member)
  · intro clear
    apply clear.append
    intro code member
    obtain ⟨byte, inPlain, rfl⟩ := List.mem_map.mp member
    exact (allPlain byte inPlain).inLine

theorem passed_append_plain {text : List Nat} {plain : Bytes}
    (allPlain : ∀ byte ∈ plain, Plain byte) :
    Passed (text ++ plain.map UInt8.toNat) ↔ Passed text := by
  induction text with
  | nil =>
      refine ⟨fun _ => trivial, fun _ => ?_⟩
      induction plain with
      | nil => trivial
      | cons byte plain later =>
          refine ⟨fun opens => ?_, later fun byte member =>
            allPlain byte (List.mem_cons_of_mem _ member)⟩
          exact absurd opens (allPlain byte List.mem_cons_self).opens
  | cons code text induction =>
      rw [List.cons_append, Passed, Passed, noBreak_append_plain allPlain,
        induction]

/-- A frame that fits shows its own group if nothing stops the match there and
nothing before it opens a longer one. -/
theorem alMatch_formatFrame (library : lib ≠ []) (positive : 0 < fileOff) :
    (∃ number, alMatch (decode (formatFrame func funcOff lib fileOff)) =
        some (decode lib, number) ∧ offsetOf number = fileOff) ↔
      NoBreak (decode lib) ∧ Passed (decode func) := by
  have valid := isNumber_formatOffset positive
  constructor
  · rintro ⟨number, matched, _⟩
    obtain ⟨front, ends⟩ := alMatch_eq_some.mp matched
    have frontEq := ends.front_eq valid decode_formatFrame
    have passed := ends.passed
    rw [frontEq] at passed
    exact ⟨ends.noBreak, (passed_append_plain plain_between).mp passed⟩
  · rintro ⟨noBreak, passed⟩
    have nonempty : decode lib ≠ [] :=
      fun nothing => library (Utf8.decode_eq_nil_iff.mp nothing)
    refine ⟨_, alMatch_eq_some.mpr ⟨_, decode_formatFrame, valid, noBreak,
      nonempty, (passed_append_plain plain_between).mpr passed⟩, ?_⟩
    exact offsetOf_formatOffset positive

/-- Up to its last byte, what follows on the name closes no parenthesis. -/
theorem rest_closes_nothing (plain : 41 ∉ lib) {before after : Bytes}
    (more : after ≠ []) :
    between funcOff ++ 40 :: (lib ++ 43 :: (formatOffset fileOff ++ [41])) ≠
      before ++ 41 :: after := by
  intro same
  have init := congrArg List.dropLast same
  have last : between funcOff ++
        40 :: (lib ++ 43 :: (formatOffset fileOff ++ [41])) =
      (between funcOff ++ 40 :: (lib ++ 43 :: formatOffset fileOff)) ++
        [41] := by
    simp
  rw [last, List.dropLast_concat, List.dropLast_append_of_ne_nil
    (List.cons_ne_nil _ _), List.dropLast_cons_of_ne_nil more] at init
  have member : (41 : UInt8) ∈
      between funcOff ++ 40 :: (lib ++ 43 :: formatOffset fileOff) := by
    rw [init]
    simp
  rcases List.mem_append.mp member with inBetween | member
  · exact (plain_between 41 inBetween).closes rfl
  have member := List.mem_of_ne_of_mem (by decide) member
  rcases List.mem_append.mp member with inLib | member
  · exact plain inLib
  have member := List.mem_of_ne_of_mem (by decide) member
  exact (plain_formatOffset 41 member).closes rfl

/-- What is cut off leaves a parenthesis at the end only if the name alone
fills the buffer. -/
theorem storedFrame_cut (bounded : func.length ≤ 255) (plain : 41 ∉ lib)
    (long : 255 < (formatFrame func funcOff lib fileOff).length)
    {before : Bytes}
    (ends : storedFrame func funcOff lib fileOff = before ++ [41]) :
    func.length = 255 ∧ storedFrame func funcOff lib fileOff = func := by
  have size := congrArg List.length ends
  rw [storedFrame, List.length_take, mttSymbolMax, List.length_append,
    List.length_singleton] at size
  obtain ⟨after, whole, more⟩ :
      ∃ after, formatFrame func funcOff lib fileOff = before ++ 41 :: after ∧
        after ≠ [] := by
    refine ⟨(formatFrame func funcOff lib fileOff).drop 255, ?_, ?_⟩
    · have whole := List.take_append_drop 255
        (formatFrame func funcOff lib fileOff)
      rw [storedFrame, mttSymbolMax] at ends
      rw [ends] at whole
      simpa using whole.symm
    · intro nothing
      have := List.drop_eq_nil_iff.mp nothing
      omega
  rw [formatFrame_eq] at whole
  rcases List.append_eq_append_iff.mp whole with
    ⟨inRest, _, rest⟩ | ⟨inName, nameEq, rest⟩
  · exact absurd rest (rest_closes_nothing plain more)
  cases inName with
  | nil =>
      have same : between funcOff ++
          40 :: (lib ++ 43 :: (formatOffset fileOff ++ [41])) =
          [] ++ 41 :: after := rest.symm
      exact absurd same (rest_closes_nothing plain more)
  | cons byte inName =>
      obtain ⟨rfl, _⟩ := List.cons.inj rest
      have nameSize := congrArg List.length nameEq
      rw [List.length_append, List.length_cons] at nameSize
      have nothing : inName = [] := List.length_eq_zero_iff.mp (by omega)
      subst nothing
      exact ⟨by simp at nameSize; omega, ends.trans nameEq.symm⟩

/-- The command for a frame names the library and the offset. -/
def CommandRight (frame lib : Bytes) (fileOff : Nat) : Prop :=
  ∃ number, alMatch (decode frame) = some (decode lib, number) ∧
    alCmd (decode frame) = command (decode lib) number ∧
    offsetOf number = fileOff

/-- The whole frame fits into the buffer, no line ends in the library, and
lines end behind all parentheses of the function. -/
structure FitsPlainly (func : Bytes) (funcOff : Nat) (lib : Bytes)
    (fileOff : Nat) : Prop where
  fits : func.length + (formatOffset funcOff).length + lib.length +
    (formatOffset fileOff).length + 5 < mttSymbolMax
  noBreak : NoBreak (decode lib)
  passed : Passed (decode func)

/-- The function's name fills the buffer and happens to end in the group. -/
structure NameIsFrame (func lib : Bytes) (fileOff : Nat) : Prop where
  fills : func.length = mttSymbolMax - 1
  ends : ∃ number front, EndsIn (decode lib) number front (decode func) ∧
    offsetOf number = fileOff

theorem commandRight_iff_alMatch {frame : Bytes} :
    CommandRight frame lib fileOff ↔
      ∃ number, alMatch (decode frame) = some (decode lib, number) ∧
        offsetOf number = fileOff := by
  constructor
  · rintro ⟨number, matched, _, value⟩
    exact ⟨number, matched, value⟩
  · rintro ⟨number, matched, value⟩
    refine ⟨number, matched, ?_, value⟩
    rw [alCmd, matched]

theorem length_formatFrame :
    (formatFrame func funcOff lib fileOff).length =
      func.length + (formatOffset funcOff).length + lib.length +
        (formatOffset fileOff).length + 5 := by
  rw [formatFrame_eq]
  simp [between]
  omega

/-- When the dashboard's command for a frame names its library and its
offset. -/
theorem commandRight_iff (bounded : func.length ≤ 255) (library : lib ≠ [])
    (plain : 41 ∉ lib) (positive : 0 < fileOff) :
    CommandRight (storedFrame func funcOff lib fileOff) lib fileOff ↔
      FitsPlainly func funcOff lib fileOff ∨ NameIsFrame func lib fileOff := by
  rw [commandRight_iff_alMatch]
  by_cases fits : (formatFrame func funcOff lib fileOff).length ≤ 255
  · have stored : storedFrame func funcOff lib fileOff =
        formatFrame func funcOff lib fileOff := List.take_of_length_le fits
    rw [stored, alMatch_formatFrame library positive]
    rw [length_formatFrame] at fits
    constructor
    · rintro ⟨noBreak, passed⟩
      exact .inl ⟨Nat.lt_succ_of_le fits, noBreak, passed⟩
    · rintro (plainly | named)
      · exact ⟨plainly.noBreak, plainly.passed⟩
      · have := named.fills
        rw [mttSymbolMax] at this
        omega
  · constructor
    · rintro ⟨number, matched, value⟩
      obtain ⟨front, found⟩ := alMatch_eq_some.mp matched
      obtain ⟨before, ends⟩ := found.closes
      obtain ⟨before, ends⟩ :=
        Utf8.decode_eq_concat (by decide : (41 : UInt8).toNat < 128) ends
      obtain ⟨fills, stored⟩ :=
        storedFrame_cut bounded plain (Nat.lt_of_not_le fits) ends
      rw [stored] at found
      exact .inr ⟨fills, number, front, found, value⟩
    · rintro (plainly | named)
      · have := plainly.fits
        rw [← length_formatFrame, mttSymbolMax] at this
        omega
      · obtain ⟨number, front, found, value⟩ := named.ends
        have stored : storedFrame func funcOff lib fileOff = func := by
          rw [storedFrame, formatFrame_eq]
          exact List.take_left' named.fills
        rw [stored]
        exact ⟨number, alMatch_eq_some.mpr ⟨front, found⟩, value⟩

theorem commandRight_iff_main :
    CommandRight (storedFrame (ascii "main") 16 (ascii "app") 4660)
        (ascii "app") 4660 ↔
      FitsPlainly (ascii "main") 16 (ascii "app") 4660 ∨
        NameIsFrame (ascii "main") (ascii "app") 4660 :=
  commandRight_iff (by decide) (by decide) (by decide) (by decide)

end

/-- The parenthesis of a demangled name opens the match, and the library's
name begins with the rest of the function. -/
theorem alMatch_demangled :
    alMatch (decode (storedFrame (ascii "Foo::bar(int)") 16
      (ascii "libfoo.so") 4660)) =
      some (codes "int)+0x10 (libfoo.so", codes "0x1234") := by
  decide

theorem not_commandRight_demangled :
    ¬ CommandRight (storedFrame (ascii "Foo::bar(int)") 16
      (ascii "libfoo.so") 4660) (ascii "libfoo.so") 4660 := by
  rintro ⟨number, matched, _⟩
  rw [alMatch_demangled] at matched
  have name := (Prod.mk.inj (Option.some.inj matched)).1
  exact absurd name (by decide)

end MemoryTraceTool.FrameCommand
