import Mathlib.Data.Nat.Digits.Lemmas
import MemoryTraceTool.Lib.Utf8

/-!
# Compact JSON texts

Values, the text a writer without whitespace gives them, and a parser for the
fragment of JSON that has no whitespace between tokens, whose numbers are
integers and whose `\u` escapes stand for ASCII characters.  Strings are byte
strings: every byte from 0x20 on, quote and backslash apart, stands for itself.
Parsing inverts writing.
-/

namespace Json

/-- The bytes of a text of ASCII characters. -/
def ascii (text : String) : Bytes :=
  text.toList.map fun char => UInt8.ofNat char.toNat

/-- JSON values; strings are bytes. -/
inductive Value where
  | number (value : Int)
  | string (bytes : Bytes)
  | array (items : List Value)
  | object (members : List (Bytes × Value))

/-! ## Writing -/

def hexDigit (digit : Nat) : UInt8 :=
  UInt8.ofNat (if digit < 10 then 48 + digit else 87 + digit)

/-- The digits of a number, the most significant one first. -/
def digits (base value : Nat) : List Nat :=
  if value = 0 then [0] else (Nat.digits base value).reverse

def decimal (value : Nat) : Bytes := (digits 10 value).map hexDigit

def hex (value : Nat) : Bytes := (digits 16 value).map hexDigit

def integer (value : Int) : Bytes :=
  if value < 0 then 45 :: decimal value.natAbs else decimal value.natAbs

/-- A number below `16 ^ 4`, padded with zeros to four digits. -/
def hex4 (value : Nat) : Bytes :=
  [hexDigit (value / 4096 % 16), hexDigit (value / 256 % 16),
    hexDigit (value / 16 % 16), hexDigit (value % 16)]

def escapeByte (byte : UInt8) : Bytes :=
  if byte = 34 ∨ byte = 92 then [92, byte]
  else if byte < 32 then [92, 117] ++ hex4 byte.toNat
  else [byte]

/-- The bytes of a string between its quotes. -/
def escape (bytes : Bytes) : Bytes := bytes.flatMap escapeByte

def quoted (bytes : Bytes) : Bytes := 34 :: (escape bytes ++ [34])

/-- Texts separated by commas. -/
def separated : List Bytes → Bytes
  | [] => []
  | [text] => text
  | text :: next :: rest => text ++ 44 :: separated (next :: rest)

mutual

/-- The text of a value, without white space. -/
def print : Value → Bytes
  | .number value => integer value
  | .string bytes => quoted bytes
  | .array items => 91 :: (separated (printItems items) ++ [93])
  | .object members => 123 :: (separated (printMembers members) ++ [125])

def printItems : List Value → List Bytes
  | [] => []
  | item :: rest => print item :: printItems rest

def printMembers : List (Bytes × Value) → List Bytes
  | [] => []
  | (key, value) :: rest =>
      (quoted key ++ 58 :: print value) :: printMembers rest

end

theorem printItems_eq_map (items : List Value) :
    printItems items = items.map print := by
  induction items with
  | nil => rfl
  | cons item rest induction => rw [printItems, induction, List.map_cons]

/-- A writer that emits the separator before every text but the first. -/
def writeNext (state : Bytes × Bool) (text : Bytes) : Bytes × Bool :=
  (state.1 ++ (if state.2 then [44] else []) ++ text, true)

theorem foldl_writeNext (out : Bytes) (texts : List Bytes) :
    texts.foldl writeNext (out, false) =
      (out ++ separated texts, !texts.isEmpty) := by
  have started : ∀ (texts : List Bytes) (out text : Bytes),
      texts.foldl writeNext (out ++ text, true) =
        (out ++ separated (text :: texts), true) := by
    intro texts
    induction texts with
    | nil =>
        intro out text
        rfl
    | cons next rest induction =>
        intro out text
        have step : writeNext (out ++ text, true) next =
            ((out ++ text ++ [44]) ++ next, true) := rfl
        rw [List.foldl_cons, step, induction]
        simp [separated]
  cases texts with
  | nil => simp [separated]
  | cons text rest =>
      have step : writeNext (out, false) text = (out ++ text, true) := by
        simp [writeNext]
      rw [List.foldl_cons, step, started]
      rfl

/-! ## Parsing -/

def isDigit (byte : UInt8) : Bool := 48 ≤ byte.toNat && byte.toNat ≤ 57

def hexValue (byte : UInt8) : Option Nat :=
  let code := byte.toNat
  if isDigit byte then some (code - 48)
  else if 97 ≤ code ∧ code ≤ 102 then some (code - 87)
  else if 65 ≤ code ∧ code ≤ 70 then some (code - 55)
  else none

/-- The byte of a four-digit escape of an ASCII character. -/
def asciiEscape (first second third fourth : UInt8) : Option UInt8 :=
  match hexValue first, hexValue second, hexValue third, hexValue fourth with
  | some a, some b, some c, some d =>
      let code := a * 4096 + b * 256 + c * 16 + d
      if code < 128 then some (UInt8.ofNat code) else none
  | _, _, _, _ => none

/-- The byte of a two-character escape. -/
def shortEscape (byte : UInt8) : Option UInt8 :=
  if byte = 34 ∨ byte = 92 ∨ byte = 47 then some byte
  else if byte = 98 then some 8
  else if byte = 102 then some 12
  else if byte = 110 then some 10
  else if byte = 114 then some 13
  else if byte = 116 then some 9
  else none

/-- Decode the rest of a string up to its closing quote. -/
def parseString : Bytes → Option (Bytes × Bytes)
  | [] => none
  | byte :: rest =>
      if byte = 34 then some ([], rest)
      else if byte = 92 then
        match rest with
        | [] => none
        | 117 :: a :: b :: c :: d :: rest =>
            (asciiEscape a b c d).bind fun byte =>
              (parseString rest).map fun parsed =>
                (byte :: parsed.1, parsed.2)
        | code :: rest =>
            (shortEscape code).bind fun byte =>
              (parseString rest).map fun parsed =>
                (byte :: parsed.1, parsed.2)
      else if byte < 32 then none
      else (parseString rest).map fun parsed => (byte :: parsed.1, parsed.2)

/-- A nonempty run of digits without a superfluous zero. -/
def parseNat (text : Bytes) : Option (Nat × Bytes) :=
  match text.span isDigit with
  | ([], _) => none
  | (first :: more, rest) =>
      if first = 48 ∧ more ≠ [] then none
      else
        some (Nat.ofDigits 10 ((first :: more).reverse.map fun byte =>
          byte.toNat - 48), rest)

def parseInteger (text : Bytes) : Option (Int × Bytes) :=
  match text with
  | 45 :: rest => (parseNat rest).map fun parsed => (-(parsed.1 : Int), parsed.2)
  | _ => (parseNat text).map fun parsed => ((parsed.1 : Int), parsed.2)

mutual

/-- Parse a value at the head of a text; the fuel bounds the nesting. -/
def parseValue : Nat → Bytes → Option (Value × Bytes)
  | 0, _ => none
  | fuel + 1, text =>
      match text with
      | 34 :: rest =>
          (parseString rest).map fun parsed => (.string parsed.1, parsed.2)
      | 91 :: 93 :: rest => some (.array [], rest)
      | 91 :: rest =>
          (parseItems fuel rest).map fun parsed => (.array parsed.1, parsed.2)
      | 123 :: 125 :: rest => some (.object [], rest)
      | 123 :: rest =>
          (parseMembers fuel rest).map fun parsed =>
            (.object parsed.1, parsed.2)
      | _ => (parseInteger text).map fun parsed => (.number parsed.1, parsed.2)

def parseItems : Nat → Bytes → Option (List Value × Bytes)
  | 0, _ => none
  | fuel + 1, text =>
      match parseValue fuel text with
      | some (item, 44 :: rest) =>
          (parseItems fuel rest).map fun parsed =>
            (item :: parsed.1, parsed.2)
      | some (item, 93 :: rest) => some ([item], rest)
      | _ => none

def parseMembers : Nat → Bytes → Option (List (Bytes × Value) × Bytes)
  | 0, _ => none
  | fuel + 1, 34 :: text =>
      match parseString text with
      | some (key, 58 :: rest) =>
          match parseValue fuel rest with
          | some (value, 44 :: rest) =>
              (parseMembers fuel rest).map fun parsed =>
                ((key, value) :: parsed.1, parsed.2)
          | some (value, 125 :: rest) => some ([(key, value)], rest)
          | _ => none
      | _ => none
  | _, _ => none

end

/-- The value of a text that is one JSON value and nothing else. -/
def parse (text : Bytes) : Option Value :=
  match parseValue (text.length + 1) text with
  | some (value, []) => some value
  | _ => none

/-! ## Strings -/

theorem hexValue_hexDigit :
    ∀ digit < 16, hexValue (hexDigit digit) = some digit := by
  decide

theorem asciiEscape_hex4 {byte : UInt8} (control : byte < 32) :
    asciiEscape (hexDigit (byte.toNat / 4096 % 16))
      (hexDigit (byte.toNat / 256 % 16)) (hexDigit (byte.toNat / 16 % 16))
      (hexDigit (byte.toNat % 16)) = some byte := by
  have small : byte.toNat < 32 := control
  have high : byte.toNat / 4096 % 16 = 0 := by omega
  have middle : byte.toNat / 256 % 16 = 0 := by omega
  have digit := hexValue_hexDigit (byte.toNat / 16 % 16) (by omega)
  have last := hexValue_hexDigit (byte.toNat % 16) (by omega)
  have zero := hexValue_hexDigit 0 (by omega)
  have code : 0 * 4096 + 0 * 256 + byte.toNat / 16 % 16 * 16 +
      byte.toNat % 16 = byte.toNat := by omega
  simp only [asciiEscape, high, middle, digit, last, zero, code]
  rw [if_pos (by omega), UInt8.ofNat_toNat]

theorem parseString_quote (rest : Bytes) :
    parseString (34 :: rest) = some ([], rest) := by
  rw [parseString.eq_def]
  rfl

theorem parseString_plain {byte : UInt8} (rest : Bytes)
    (notQuote : byte ≠ 34) (notBackslash : byte ≠ 92)
    (printable : ¬ byte < 32) :
    parseString (byte :: rest) =
      (parseString rest).map fun parsed => (byte :: parsed.1, parsed.2) := by
  rw [parseString.eq_def]
  simp only [if_neg notQuote, if_neg notBackslash, if_neg printable]

theorem parseString_escapeByte (byte : UInt8) (rest : Bytes) :
    parseString (escapeByte byte ++ rest) =
      (parseString rest).map fun parsed => (byte :: parsed.1, parsed.2) := by
  unfold escapeByte
  split
  · rename_i special
    obtain rfl | rfl := special
    · simp [parseString, shortEscape]
    · simp [parseString, shortEscape]
  · rename_i plain
    obtain ⟨notQuote, notBackslash⟩ := not_or.mp plain
    split
    · rename_i control
      simp [parseString, hex4, asciiEscape_hex4 control]
    · rename_i printable
      exact parseString_plain rest notQuote notBackslash printable

theorem parseString_escape (bytes rest : Bytes) :
    parseString (escape bytes ++ 34 :: rest) = some (bytes, rest) := by
  induction bytes with
  | nil => exact parseString_quote rest
  | cons byte bytes induction =>
      have unfolded : escape (byte :: bytes) =
          escapeByte byte ++ escape bytes := rfl
      rw [unfolded, List.append_assoc, parseString_escapeByte, induction]
      rfl

/-! ## Numbers -/

theorem digits_lt {base value digit : Nat} (large : 1 < base)
    (member : digit ∈ digits base value) : digit < base := by
  unfold digits at member
  split at member
  · rw [List.mem_singleton.mp member]
    omega
  · exact Nat.digits_lt_base large (List.mem_reverse.mp member)

theorem digits_ne_nil (base value : Nat) : digits base value ≠ [] := by
  unfold digits
  split
  · exact List.cons_ne_nil 0 []
  · rename_i positive
    rw [ne_eq, List.reverse_eq_nil_iff]
    exact Nat.digits_ne_nil_iff_ne_zero.mpr positive

theorem ofDigits_digits (base value : Nat) :
    Nat.ofDigits base (digits base value).reverse = value := by
  unfold digits
  split
  · rename_i zero
    simp [zero]
  · rw [List.reverse_reverse]
    exact Nat.ofDigits_digits base value

theorem digits_leading_zero {base value : Nat} {more : List Nat}
    (starts : digits base value = 0 :: more) : more = [] := by
  unfold digits at starts
  split at starts
  · exact (List.cons.inj starts).2.symm
  · rename_i positive
    have nonempty := Nat.digits_ne_nil_iff_ne_zero (b := base).mpr positive
    have last := Nat.getLast_digit_ne_zero base positive
    rw [List.getLast_eq_head_reverse] at last
    simp [starts] at last

theorem hexDigit_toNat_sub :
    ∀ digit < 10, (hexDigit digit).toNat - 48 = digit := by
  decide

theorem isDigit_hexDigit : ∀ digit < 10, isDigit (hexDigit digit) = true := by
  decide

theorem hexDigit_eq_zero : ∀ digit < 10, hexDigit digit = 48 → digit = 0 := by
  decide

theorem isDigit_of_mem_decimal {value : Nat} :
    ∀ byte ∈ decimal value, isDigit byte = true := by
  intro byte member
  obtain ⟨digit, inDigits, rfl⟩ := List.mem_map.mp member
  exact isDigit_hexDigit digit (digits_lt (by decide) inDigits)

/-- The text does not go on with a digit. -/
def NumberEnds (rest : Bytes) : Prop := ∀ byte ∈ rest.head?, isDigit byte = false

theorem span_decimal {value : Nat} {rest : Bytes} (ends : NumberEnds rest) :
    (decimal value ++ rest).span isDigit = (decimal value, rest) := by
  rw [List.span_eq_takeWhile_dropWhile,
    List.takeWhile_append_of_pos isDigit_of_mem_decimal,
    List.dropWhile_append_of_pos isDigit_of_mem_decimal]
  cases rest with
  | nil => simp
  | cons byte rest =>
      have stops := ends byte rfl
      simp [stops]

theorem parseNat_decimal (value : Nat) {rest : Bytes}
    (ends : NumberEnds rest) :
    parseNat (decimal value ++ rest) = some (value, rest) := by
  unfold parseNat
  rw [span_decimal ends]
  have small : ∀ digit ∈ digits 10 value, digit < 10 := fun _ member =>
    digits_lt (by decide) member
  cases shape : digits 10 value with
  | nil => exact absurd shape (digits_ne_nil 10 value)
  | cons first more =>
      have text : decimal value = hexDigit first :: more.map hexDigit := by
        rw [decimal, shape, List.map_cons]
      have leads : ¬ (hexDigit first = 48 ∧ more.map hexDigit ≠ []) := by
        intro superfluous
        have zero := hexDigit_eq_zero first (small first (by simp [shape]))
          superfluous.1
        subst zero
        rw [digits_leading_zero shape] at superfluous
        exact superfluous.2 rfl
      have back : (hexDigit first :: more.map hexDigit).reverse.map
          (fun byte => byte.toNat - 48) = (digits 10 value).reverse := by
        rw [← text, decimal, List.map_reverse, List.map_map]
        have restored : ∀ digit ∈ digits 10 value,
            ((fun byte : UInt8 => byte.toNat - 48) ∘ hexDigit) digit = digit :=
          fun digit member => hexDigit_toNat_sub digit (small digit member)
        rw [List.map_congr_left restored, List.map_id']
      simp only [text, if_neg leads, back, ofDigits_digits]

theorem decimal_head (value : Nat) :
    ∃ byte rest, decimal value = byte :: rest ∧ isDigit byte = true := by
  have allDigits := @isDigit_of_mem_decimal value
  cases shape : decimal value with
  | nil => exact absurd (List.map_eq_nil_iff.mp shape) (digits_ne_nil 10 value)
  | cons byte rest =>
      rw [shape] at allDigits
      exact ⟨byte, rest, rfl, allDigits byte List.mem_cons_self⟩

theorem isDigit_ne {byte other : UInt8} (digit : isDigit byte = true)
    (noDigit : isDigit other = false) : byte ≠ other := by
  intro same
  rw [same, noDigit] at digit
  contradiction

theorem parseInteger_integer (value : Int) {rest : Bytes}
    (ends : NumberEnds rest) :
    parseInteger (integer value ++ rest) = some (value, rest) := by
  have parsed := parseNat_decimal value.natAbs ends
  unfold integer
  split
  · simp only [List.cons_append, parseInteger, parsed, Option.map_some]
    congr 2
    omega
  · obtain ⟨byte, more, text, digit⟩ := decimal_head value.natAbs
    have noSign : byte ≠ 45 := isDigit_ne digit (by decide)
    rw [text] at parsed ⊢
    rw [List.cons_append] at parsed ⊢
    unfold parseInteger
    split
    · rename_i same
      exact absurd (List.cons.inj same).1 noSign
    · rw [parsed, Option.map_some]
      congr 2
      omega

theorem integer_natCast (value : Nat) : integer (value : Int) = decimal value := by
  rw [integer, if_neg (by omega), Int.natAbs_natCast]

/-- The first byte of a number is a sign or a digit. -/
theorem integer_head (value : Int) :
    ∃ byte rest, integer value = byte :: rest ∧
      (byte = 45 ∨ isDigit byte = true) := by
  unfold integer
  split
  · exact ⟨45, decimal value.natAbs, rfl, .inl rfl⟩
  · obtain ⟨byte, rest, text, digit⟩ := decimal_head value.natAbs
    exact ⟨byte, rest, text, .inr digit⟩

/-! ## Lengths -/

theorem ascii_length (text : String) :
    (ascii text).length = text.toList.length := by
  rw [ascii, List.length_map]

theorem digits_length_le {base value count : Nat} (large : 1 < base)
    (positive : 0 < count) (bounded : value < base ^ count) :
    (digits base value).length ≤ count := by
  unfold digits
  split
  · exact positive
  · rw [List.length_reverse]
    exact (Nat.digits_length_le_iff large value).mpr bounded

theorem decimal_length_le {value count : Nat} (positive : 0 < count)
    (bounded : value < 10 ^ count) : (decimal value).length ≤ count := by
  rw [decimal, List.length_map]
  exact digits_length_le (by decide) positive bounded

theorem hex_length_le {value count : Nat} (positive : 0 < count)
    (bounded : value < 16 ^ count) : (hex value).length ≤ count := by
  rw [hex, List.length_map]
  exact digits_length_le (by decide) positive bounded

theorem integer_length_le {value : Int} {count : Nat} (positive : 0 < count)
    (bounded : value.natAbs < 10 ^ count) :
    (integer value).length ≤ count + 1 := by
  have length := decimal_length_le positive bounded
  unfold integer
  split
  · exact Nat.succ_le_succ length
  · exact Nat.le_succ_of_le length

/-! ## Values -/

theorem numberEnds_cons {byte : UInt8} {rest : Bytes}
    (noDigit : isDigit byte = false) : NumberEnds (byte :: rest) := by
  intro head same
  rw [← Option.some.inj same]
  exact noDigit

/-- No value starts like the end of an array. -/
theorem print_head (value : Value) :
    ∃ byte rest, print value = byte :: rest ∧ byte ≠ 93 := by
  cases value with
  | number value =>
      obtain ⟨byte, rest, text, sign | digit⟩ := integer_head value
      · exact ⟨byte, rest, text, by simp [sign]⟩
      · exact ⟨byte, rest, text, isDigit_ne digit (by decide)⟩
  | string bytes => exact ⟨34, escape bytes ++ [34], rfl, by decide⟩
  | array items => exact ⟨91, _, rfl, by decide⟩
  | object members => exact ⟨123, _, rfl, by decide⟩

theorem parseValue_number (fuel : Nat) (value : Int) {rest : Bytes}
    (ends : NumberEnds rest) :
    parseValue (fuel + 1) (integer value ++ rest) =
      some (.number value, rest) := by
  have parsed := parseInteger_integer value ends
  obtain ⟨byte, more, text, starts⟩ := integer_head value
  have others : byte ≠ 34 ∧ byte ≠ 91 ∧ byte ≠ 123 := by
    obtain rfl | digit := starts
    · decide
    · exact ⟨isDigit_ne digit (by decide), isDigit_ne digit (by decide),
        isDigit_ne digit (by decide)⟩
  rw [text, List.cons_append] at parsed ⊢
  unfold parseValue
  split <;> simp_all

theorem parseValue_items {fuel : Nat} {text : Bytes}
    (opens : ∃ byte rest, text = byte :: rest ∧ byte ≠ 93) :
    parseValue (fuel + 1) (91 :: text) =
      (parseItems fuel text).map fun parsed =>
        (.array parsed.1, parsed.2) := by
  obtain ⟨byte, rest, rfl, noClose⟩ := opens
  simp [parseValue, noClose]

theorem parseValue_members {fuel : Nat} {text : Bytes}
    (opens : ∃ rest, text = 34 :: rest) :
    parseValue (fuel + 1) (123 :: text) =
      (parseMembers fuel text).map fun parsed =>
        (.object parsed.1, parsed.2) := by
  obtain ⟨rest, rfl⟩ := opens
  simp [parseValue]

theorem separated_cons (text : Bytes) (texts : List Bytes) :
    ∃ tail, separated (text :: texts) = text ++ tail := by
  cases texts with
  | nil => exact ⟨[], (List.append_nil text).symm⟩
  | cons next rest => exact ⟨_, rfl⟩

mutual

/-- Parsing inverts writing, with any fuel from the length of the text on. -/
theorem parseValue_print (value : Value) {fuel : Nat} {rest : Bytes}
    (enough : (print value).length ≤ fuel) (ends : NumberEnds rest) :
    parseValue fuel (print value ++ rest) = some (value, rest) := by
  obtain ⟨byte, more, text, -⟩ := print_head value
  obtain ⟨fuel, rfl⟩ : ∃ smaller, fuel = smaller + 1 := by
    rw [text, List.length_cons] at enough
    exact ⟨fuel - 1, by omega⟩
  cases value with
  | number value => exact parseValue_number fuel value ends
  | string bytes =>
      simp only [print, quoted, List.cons_append, List.append_assoc,
        List.nil_append]
      simp only [parseValue, parseString_escape, Option.map_some]
  | array items =>
      simp only [print, List.length_cons, List.length_append,
        List.length_nil] at enough
      simp only [print, List.cons_append, List.append_assoc, List.nil_append]
      have parsed := @parseItems_print items fuel rest
      cases items with
      | nil => simp [parseValue, separated, printItems]
      | cons item items =>
          obtain ⟨byte, more, text, noClose⟩ := print_head item
          obtain ⟨tail, starts⟩ := separated_cons (print item)
            (printItems items)
          rw [parseValue_items, parsed (List.cons_ne_nil _ _) (by omega)]
          · rfl
          · refine ⟨byte, more ++ (tail ++ 93 :: rest), ?_, noClose⟩
            rw [printItems, starts, text]
            simp only [List.cons_append, List.append_assoc]
  | object members =>
      simp only [print, List.length_cons, List.length_append,
        List.length_nil] at enough
      simp only [print, List.cons_append, List.append_assoc, List.nil_append]
      have parsed := @parseMembers_print members fuel rest
      cases members with
      | nil => simp [parseValue, separated, printMembers]
      | cons member members =>
          obtain ⟨key, value⟩ := member
          obtain ⟨tail, starts⟩ := separated_cons
            (quoted key ++ 58 :: print value) (printMembers members)
          rw [parseValue_members, parsed (List.cons_ne_nil _ _) (by omega)]
          · rfl
          · rw [printMembers, starts, quoted]
            exact ⟨_, rfl⟩

theorem parseItems_print (items : List Value) {fuel : Nat} {rest : Bytes}
    (nonempty : items ≠ [])
    (enough : (separated (printItems items)).length + 1 ≤ fuel) :
    parseItems fuel (separated (printItems items) ++ 93 :: rest) =
      some (items, rest) := by
  obtain ⟨fuel, rfl⟩ : ∃ smaller, fuel = smaller + 1 :=
    ⟨fuel - 1, by omega⟩
  cases items with
  | nil => contradiction
  | cons item items =>
      have parsed := @parseValue_print item fuel
      have later := @parseItems_print items fuel rest
      cases items with
      | nil =>
          simp only [printItems, separated] at enough ⊢
          have read := @parsed (93 :: rest) (by omega)
            (numberEnds_cons (by decide))
          simp only [parseItems, read]
      | cons next items =>
          simp only [printItems, separated, List.length_append,
            List.length_cons] at enough
          have read := @parsed
            (44 :: (separated (printItems (next :: items)) ++ 93 :: rest))
            (by omega) (numberEnds_cons (by decide))
          have readLater := later (List.cons_ne_nil _ _)
            (by simp only [printItems]; omega)
          simp only [printItems, separated, List.append_assoc,
            List.cons_append] at read readLater ⊢
          simp only [parseItems, read, readLater, Option.map_some]

theorem parseMembers_print (members : List (Bytes × Value)) {fuel : Nat}
    {rest : Bytes} (nonempty : members ≠ [])
    (enough : (separated (printMembers members)).length + 1 ≤ fuel) :
    parseMembers fuel (separated (printMembers members) ++ 125 :: rest) =
      some (members, rest) := by
  obtain ⟨fuel, rfl⟩ : ∃ smaller, fuel = smaller + 1 :=
    ⟨fuel - 1, by omega⟩
  cases members with
  | nil => contradiction
  | cons member members =>
      obtain ⟨key, value⟩ := member
      have parsed := @parseValue_print value fuel
      have later := @parseMembers_print members fuel rest
      cases members with
      | nil =>
          simp only [printMembers, separated, quoted, List.length_append,
            List.length_cons] at enough
          have read := @parsed (125 :: rest) (by omega)
            (numberEnds_cons (by decide))
          simp only [printMembers, separated, quoted, List.append_assoc,
            List.cons_append, List.nil_append]
          simp only [parseMembers, parseString_escape, read]
      | cons next members =>
          obtain ⟨nextKey, nextValue⟩ := next
          simp only [printMembers, separated, quoted, List.length_append,
            List.length_cons] at enough
          have read := @parsed
            (44 :: (separated (printMembers ((nextKey, nextValue) :: members)) ++
              125 :: rest)) (by omega) (numberEnds_cons (by decide))
          have readLater := later (List.cons_ne_nil _ _)
            (by simp only [printMembers, quoted]; omega)
          simp only [printMembers, separated, quoted, List.append_assoc,
            List.cons_append, List.nil_append] at read readLater ⊢
          simp only [parseMembers, parseString_escape, read, readLater,
            Option.map_some]

end

theorem parse_print (value : Value) : parse (print value) = some value := by
  have parsed := @parseValue_print value ((print value).length + 1) []
    (Nat.le_add_right _ 1) (by intro byte none; cases none)
  rw [List.append_nil] at parsed
  rw [parse, parsed]

end Json
