import Mathlib.Algebra.Order.Group.Nat
import Mathlib.Data.List.TakeWhile
import MemoryTraceTool.Lib.Utf8

/-!
# Formatted scanning

The directives of a `scanf` format that read numbers, words, single bytes and
white space, and what they read from a byte string.  The main theorem is about
texts that are cut off: a format that reads a row of fields reads all of them
from the cut text, or it stops before its first position.
-/

namespace Scanf

def isSpace (byte : UInt8) : Bool :=
  byte.toNat = 32 || (9 ≤ byte.toNat && byte.toNat ≤ 13)

/-- The value of a digit, if it is one in this base. -/
def digitValue (base : Nat) (byte : UInt8) : Option Nat :=
  let code := byte.toNat
  let value :=
    if 48 ≤ code ∧ code ≤ 57 then code - 48
    else if 97 ≤ code ∧ code ≤ 102 then code - 87
    else if 65 ≤ code ∧ code ≤ 70 then code - 55
    else base
  if value < base then some value else none

def isDigit (base : Nat) (byte : UInt8) : Bool :=
  (digitValue base byte).isSome

def numeral (base : Nat) (digits : Bytes) : Nat :=
  digits.foldl (fun value byte => base * value + (digitValue base byte).getD 0)
    0

inductive Directive where
  /-- White space in the format. -/
  | space
  | char (byte : UInt8)
  /-- `%x` or `%u` for a type of so many bits, with `*` when not stored. -/
  | number (bits base : Nat) (stored : Bool)
  /-- `%Ns`. -/
  | word (width : Nat)
  /-- `%n`. -/
  | position
  deriving DecidableEq, Repr

/-- What one directive stores. -/
inductive Item where
  | number (value : Nat)
  | word (text : Bytes)
  deriving DecidableEq, Repr

/-- What a format stored, and the positions it noted. -/
structure Scanned where
  items : List Item
  positions : List Nat
  deriving DecidableEq, Repr

def skipSign : Bytes → Bool × Bytes
  | 45 :: rest => (true, rest)
  | 43 :: rest => (false, rest)
  | text => (false, text)

def skipHexMark (base : Nat) : Bytes → Bytes
  | 48 :: mark :: rest =>
      if base = 16 ∧ (mark = 120 ∨ mark = 88) then rest
      else 48 :: mark :: rest
  | text => text

/-- The value a type of so many bits gets: the largest one if the numeral is
above it, else the numeral or its negation. -/
def converted (bits : Nat) (negative : Bool) (value : Nat) : Nat :=
  if 2 ^ bits ≤ value then 2 ^ bits - 1
  else if negative then (2 ^ bits - value) % 2 ^ bits
  else value

/-- A number of so many bits behind white space. -/
def scanNumber (bits base : Nat) (text : Bytes) : Option (Nat × Bytes) :=
  let signed := skipSign (text.dropWhile isSpace)
  let body := skipHexMark base signed.2
  let digits := body.takeWhile (isDigit base)
  if digits = [] then none
  else
    some (converted bits signed.1 (numeral base digits),
      body.dropWhile (isDigit base))

/-- `%s` with a width. -/
def scanWord (width : Nat) (text : Bytes) : Option (Bytes × Bytes) :=
  let body := text.dropWhile isSpace
  let word := (body.take width).takeWhile fun byte => !isSpace byte
  if word = [] then none else some (word, body.drop word.length)

/-- One directive: what it stores and the text it leaves. -/
def consume : Directive → Bytes → Option (Option Item × Bytes)
  | .space, text => some (none, text.dropWhile isSpace)
  | .char _, [] => none
  | .char wanted, byte :: rest =>
      if byte = wanted then some (none, rest) else none
  | .number bits base stored, text =>
      (scanNumber bits base text).map fun read =>
        (if stored then some (.number read.1) else none, read.2)
  | .word width, text =>
      (scanWord width text).map fun read => (some (.word read.1), read.2)
  | .position, text => some (none, text)

/-- A format on the rest of a text of the given length; it stops at the first
directive that does not match. -/
def scanFrom (length : Nat) : List Directive → Bytes → Scanned
  | [], _ => { items := [], positions := [] }
  | directive :: rest, text =>
      match consume directive text with
      | none => { items := [], positions := [] }
      | some (item, remaining) =>
          let later := scanFrom length rest remaining
          { items := item.toList ++ later.items
            positions :=
              if directive = .position then
                (length - text.length) :: later.positions
              else later.positions }

/-- What `sscanf` stores, item by item. -/
def sscanf (format : List Directive) (text : Bytes) : Scanned :=
  scanFrom text.length format text

/-! ## One directive -/

theorem span_append {p : UInt8 → Bool} {front rest : Bytes}
    (passes : ∀ byte ∈ front, p byte = true)
    (stops : ∀ byte ∈ rest.head?, p byte = false) :
    (front ++ rest).takeWhile p = front ∧
      (front ++ rest).dropWhile p = rest := by
  rw [List.takeWhile_append_of_pos passes, List.dropWhile_append_of_pos passes]
  cases rest with
  | nil => simp
  | cons byte rest =>
      have stop : p byte = false := stops byte rfl
      simp [stop]

theorem dropWhile_of_head {p : UInt8 → Bool} {text : Bytes}
    (start : ∀ byte ∈ text.head?, p byte = false) : text.dropWhile p = text := by
  cases text with
  | nil => rfl
  | cons byte rest =>
      have stop : p byte = false := start byte rfl
      simp [stop]

/-- Digits, at least one. -/
structure IsNumeral (base : Nat) (digits : Bytes) : Prop where
  nonempty : digits ≠ []
  digits : ∀ byte ∈ digits, isDigit base byte = true

theorem IsNumeral.of_all {base : Nat} {digits : Bytes}
    (nonempty : digits ≠ []) (all : digits.all (isDigit base) = true) :
    IsNumeral base digits :=
  ⟨nonempty, List.all_eq_true.mp all⟩

/-- A byte that ends a number. -/
def EndsNumber (base : Nat) (byte : UInt8) : Prop :=
  isDigit base byte = false ∧ byte ≠ 120 ∧ byte ≠ 88

theorem isDigit_range {base : Nat} {byte : UInt8}
    (digit : isDigit base byte = true) :
    48 ≤ byte.toNat ∧ byte.toNat ≤ 102 ∧ byte.toNat ≠ 88 := by
  unfold isDigit digitValue at digit
  dsimp only at digit
  split_ifs at digit <;> first | omega | simp at digit

theorem not_isSpace_of_isDigit {base : Nat} {byte : UInt8}
    (digit : isDigit base byte = true) : isSpace byte = false := by
  have range := isDigit_range digit
  simp only [isSpace, Bool.or_eq_false_iff, Bool.and_eq_false_iff,
    decide_eq_false_iff_not]
  omega

theorem skipSign_digit {base : Nat} {byte : UInt8} {rest : Bytes}
    (digit : isDigit base byte = true) :
    skipSign (byte :: rest) = (false, byte :: rest) := by
  have range := isDigit_range digit
  unfold skipSign
  split
  · rename_i same
    obtain ⟨rfl, -⟩ := List.cons.inj same
    exact absurd range (by decide)
  · rename_i same
    obtain ⟨rfl, -⟩ := List.cons.inj same
    exact absurd range (by decide)
  · rfl

theorem skipHexMark_of_second {base : Nat} {text : Bytes}
    (unmarked : ∀ byte ∈ text.tail.head?, byte ≠ 120 ∧ byte ≠ 88) :
    skipHexMark base text = text := by
  unfold skipHexMark
  split
  · rename_i mark rest
    have second := unmarked mark rfl
    rw [if_neg]
    rintro ⟨-, marked⟩
    exact marked.elim second.1 second.2
  · rfl

theorem scanNumber_append {bits base : Nat} {digits rest : Bytes}
    (number : IsNumeral base digits)
    (stops : ∀ byte ∈ rest.head?, EndsNumber base byte) :
    scanNumber bits base (digits ++ rest) =
      some (converted bits false (numeral base digits), rest) := by
  have span := span_append number.digits fun byte member =>
    (stops byte member).1
  obtain ⟨first, more, rfl⟩ := List.exists_cons_of_ne_nil number.nonempty
  have firstDigit := number.digits first List.mem_cons_self
  have spaces : (first :: more ++ rest).dropWhile isSpace =
      first :: more ++ rest := by
    apply dropWhile_of_head
    rintro byte ⟨⟩
    exact not_isSpace_of_isDigit firstDigit
  have mark : skipHexMark base (first :: more ++ rest) =
      first :: more ++ rest := by
    apply skipHexMark_of_second
    cases more with
    | nil => exact fun byte member => (stops byte member).2
    | cons second more =>
        rintro byte ⟨⟩
        have range := isDigit_range
          (number.digits second (List.mem_cons_of_mem _ List.mem_cons_self))
        constructor
        · rintro rfl
          exact absurd range (by decide)
        · rintro rfl
          exact absurd range (by decide)
  have sign : skipSign (first :: more ++ rest) =
      (false, first :: more ++ rest) := skipSign_digit firstDigit
  simp only [scanNumber, spaces, sign, mark, span.1, span.2]
  simp

theorem consume_space {blanks rest : Bytes}
    (spaces : ∀ byte ∈ blanks, isSpace byte = true)
    (stops : ∀ byte ∈ rest.head?, isSpace byte = false) :
    consume .space (blanks ++ rest) = some (none, rest) := by
  simp only [consume, (span_append spaces stops).2]

theorem consume_word {width : Nat} {word rest : Bytes} (nonempty : word ≠ [])
    (short : word.length < width)
    (solid : ∀ byte ∈ word, isSpace byte = false)
    (stops : ∀ byte ∈ rest.head?, isSpace byte = true) :
    consume (.word width) (word ++ rest) = some (some (.word word), rest) := by
  obtain ⟨first, more, rfl⟩ := List.exists_cons_of_ne_nil nonempty
  have spaces : (first :: more ++ rest).dropWhile isSpace =
      first :: more ++ rest := by
    apply dropWhile_of_head
    rintro byte ⟨⟩
    exact solid first List.mem_cons_self
  have taken : ((first :: more ++ rest).take width).takeWhile
      (fun byte => !isSpace byte) = first :: more := by
    rw [List.take_append, List.take_of_length_le (Nat.le_of_lt short)]
    apply (span_append _ _).1
    · intro byte member
      simp [solid byte member]
    · intro byte member
      rw [List.head?_take, if_neg (by omega)] at member
      simp [stops byte member]
  simp only [consume, scanWord, spaces, taken]
  simp

/-! ## Rows of fields -/

/-- A directive together with a piece of text that it reads whole, when a byte
that ends it or the end of the text comes next; of a part of the piece it
leaves nothing. -/
structure Field where
  directive : Directive
  segment : Bytes
  item : Option Item
  ends : UInt8 → Prop
  whole : ∀ rest : Bytes, (∀ byte ∈ rest.head?, ends byte) →
    consume directive (segment ++ rest) = some (item, rest)
  part : ∀ cut, cut <+: segment → ∀ read rest,
    consume directive cut = some (read, rest) → rest = []
  notPosition : directive ≠ .position

/-- A numeral whose value the type can hold if it is stored. -/
def Field.number (bits base : Nat) (stored : Bool) (digits : Bytes)
    (number : IsNumeral base digits)
    (fits : stored = true → numeral base digits < 2 ^ bits) : Field where
  directive := .number bits base stored
  segment := digits
  item := if stored then some (.number (numeral base digits)) else none
  ends := EndsNumber base
  whole := by
    intro rest stops
    simp only [consume, scanNumber_append number stops, Option.map_some]
    cases stored with
    | false => rfl
    | true => simp [converted, Nat.not_le.mpr (fits rfl)]
  part := by
    intro cut front read rest consumed
    obtain ⟨scanned, found, same⟩ := Option.map_eq_some_iff.mp consumed
    have left : scanned.2 = rest := congrArg Prod.snd same
    by_cases empty : cut = []
    · rw [empty] at found
      cases found
    · have cutNumber : IsNumeral base cut :=
        ⟨empty, fun byte member => number.digits byte (front.mem member)⟩
      have scanAll : scanNumber bits base (cut ++ []) = _ :=
        scanNumber_append cutNumber (by simp)
      rw [List.append_nil, found] at scanAll
      rw [← left, Option.some.inj scanAll]
  notPosition := by simp

def Field.char (byte : UInt8) : Field where
  directive := .char byte
  segment := [byte]
  item := none
  ends := fun _ => True
  whole := by simp [consume]
  part := by
    intro cut front read rest consumed
    rcases List.prefix_cons_iff.mp front with rfl | ⟨tail, rfl, inner⟩
    · cases consumed
    · rw [List.prefix_nil.mp inner] at consumed
      simp only [consume, if_true, Option.some.injEq, Prod.mk.injEq] at consumed
      exact consumed.2.symm
  notPosition := by simp

theorem isSpace_blank : ∀ byte ∈ [(32 : UInt8)], isSpace byte = true := by
  intro byte member
  rw [List.mem_singleton.mp member]
  decide

def Field.blank : Field where
  directive := .space
  segment := [32]
  item := none
  ends := fun byte => isSpace byte = false
  whole := fun _ => consume_space isSpace_blank
  part := by
    intro cut front read rest consumed
    have blanks : ∀ byte ∈ cut, isSpace byte = true :=
      fun byte member => isSpace_blank byte (front.mem member)
    have left : consume .space (cut ++ []) = _ :=
      consume_space blanks (by simp)
    rw [List.append_nil, consumed] at left
    exact congrArg Prod.snd (Option.some.inj left)
  notPosition := by simp

def Field.word (width : Nat) (text : Bytes) (nonempty : text ≠ [])
    (short : text.length < width)
    (solid : ∀ byte ∈ text, isSpace byte = false) : Field where
  directive := .word width
  segment := text
  item := some (.word text)
  ends := fun byte => isSpace byte = true
  whole := fun _ => consume_word nonempty short solid
  part := by
    intro cut front read rest consumed
    by_cases empty : cut = []
    · rw [empty] at consumed
      simp [consume, scanWord] at consumed
    · have left : consume (.word width) (cut ++ []) = _ :=
        consume_word empty (lt_of_le_of_lt front.length_le short)
          (fun byte member => solid byte (front.mem member)) (by simp)
      rw [List.append_nil, consumed] at left
      exact congrArg Prod.snd (Option.some.inj left)
  notPosition := by simp

def segments (fields : List Field) : Bytes :=
  fields.flatMap Field.segment

/-- Each field is ended by the text that follows it. -/
def Chained : List Field → Bytes → Prop
  | [], _ => True
  | field :: rest, tail =>
      (∀ byte ∈ (segments rest ++ tail).head?, field.ends byte) ∧
        Chained rest tail

/-- A format that cannot come to a position on an empty text. -/
def Blocked : List Directive → Prop
  | [] => True
  | .space :: rest => Blocked rest
  | .position :: _ => False
  | _ :: _ => True

variable {length : Nat}

theorem positions_of_blocked {format : List Directive}
    (blocked : Blocked format) : (scanFrom length format []).positions = [] := by
  induction format with
  | nil => rfl
  | cons directive rest induction =>
      cases directive with
      | space => exact induction blocked
      | position => exact absurd blocked (by simp [Blocked])
      | char byte => rfl
      | number bits base stored => rfl
      | word width => simp [scanFrom, consume, scanWord]

theorem blocked_append {format : List Directive} (fields : List Field)
    (blocked : Blocked format) :
    Blocked (fields.map Field.directive ++ format) := by
  induction fields with
  | nil => exact blocked
  | cons field rest induction =>
      rw [List.map_cons, List.cons_append]
      cases directive : field.directive with
      | space => exact induction
      | position => exact absurd directive field.notPosition
      | char byte => trivial
      | number bits base stored => trivial
      | word width => trivial

theorem scanFrom_field (field : Field) (format : List Directive)
    {rest : Bytes} (stops : ∀ byte ∈ rest.head?, field.ends byte) :
    scanFrom length (field.directive :: format) (field.segment ++ rest) =
      { items := field.item.toList ++ (scanFrom length format rest).items
        positions := (scanFrom length format rest).positions } := by
  simp only [scanFrom, field.whole rest stops, if_neg field.notPosition]

theorem scanFrom_row (length : Nat) {fields : List Field} {tail : Bytes}
    (format : List Directive) (chained : Chained fields tail) :
    scanFrom length (fields.map Field.directive ++ format)
        (segments fields ++ tail) =
      { items := fields.filterMap Field.item ++
          (scanFrom length format tail).items
        positions := (scanFrom length format tail).positions } := by
  induction fields with
  | nil => rfl
  | cons field rest induction =>
      have follows : segments (field :: rest) ++ tail =
          field.segment ++ (segments rest ++ tail) := by
        simp [segments]
      rw [follows, List.map_cons, List.cons_append,
        scanFrom_field field _ chained.1, induction chained.2]
      cases item : field.item <;> simp [item]

/-- From a text that is cut off, a format reads all of a row of fields, or it
stops before its first position. -/
theorem scanFrom_cut (length : Nat) {fields : List Field} {format : List Directive}
    {tail cut : Bytes} (chained : Chained fields tail)
    (blocked : Blocked format) (front : cut <+: segments fields ++ tail) :
    (∃ left, cut = segments fields ++ left ∧ left <+: tail ∧
      scanFrom length (fields.map Field.directive ++ format) cut =
        { items := fields.filterMap Field.item ++
            (scanFrom length format left).items
          positions := (scanFrom length format left).positions }) ∨
    (scanFrom length (fields.map Field.directive ++ format) cut).positions =
      [] := by
  induction fields generalizing cut with
  | nil => exact .inl ⟨cut, rfl, front, rfl⟩
  | cons field rest induction =>
      have follows : segments (field :: rest) ++ tail =
          field.segment ++ (segments rest ++ tail) := by
        simp [segments]
      rw [follows] at front
      rcases List.prefix_or_prefix_of_prefix front
          (List.prefix_append field.segment _) with inside | ⟨left, rfl⟩
      · -- The text ends in this field, and the directives left find nothing.
        right
        rw [List.map_cons, List.cons_append]
        simp only [scanFrom]
        cases consumed : consume field.directive cut with
        | none => rfl
        | some read =>
            have nothing := field.part cut inside read.1 read.2 consumed
            simp only [if_neg field.notPosition, nothing]
            exact positions_of_blocked (blocked_append rest blocked)
      · have leftFront : left <+: segments rest ++ tail :=
          (List.prefix_append_right_inj _).mp front
        have stops : ∀ byte ∈ left.head?, field.ends byte := by
          intro byte member
          apply chained.1
          obtain ⟨later, same⟩ := leftFront
          rw [← same, List.head?_append, Option.mem_def.mp member]
          rfl
        rw [List.map_cons, List.cons_append, scanFrom_field field _ stops]
        rcases induction chained.2 leftFront with
          ⟨end_, same, endFront, scanned⟩ | stopped
        · left
          refine ⟨end_, ?_, endFront, ?_⟩
          · simp [segments, same]
          · rw [scanned]
            cases item : field.item <;> simp [item]
        · exact .inr stopped

end Scanf
