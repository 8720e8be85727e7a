import Mathlib.Algebra.Order.Group.Nat
import Mathlib.Tactic.Ring

/-!
# Decoding UTF-8 with replacement

A decoder that never fails: the longest start of a character that is not
continued becomes U+FFFD, and decoding goes on at the byte that did not fit.
ASCII bytes always stand for themselves, so that a text may be decoded in
pieces that end at them.
-/

abbrev Bytes := List UInt8

namespace Utf8

/-- U+FFFD. -/
def replacement : Nat := 65533

/-- The start of a character: how many bytes are to come, the bits so far, and
the bounds of the next byte.  Whatever comes, it will be no ASCII
character. -/
structure Pending where
  needed : Nat
  codePoint : Nat
  lower : Nat
  upper : Nat
  lower_ge : 128 ≤ lower
  upper_le : upper ≤ 191
  high : 128 ≤ codePoint * 64 ^ (needed + 1) + (lower - 128) * 64 ^ needed

/-- The first byte of a character: what it is by itself, or what it
starts. -/
def start (byte : Nat) : List Nat × Option Pending :=
  if byte < 128 then ([byte], none)
  else if two : 194 ≤ byte ∧ byte ≤ 223 then
    ([], some ⟨0, byte % 32, 128, 191, by omega, by omega, by omega⟩)
  else if three : 224 ≤ byte ∧ byte ≤ 239 then
    ([], some ⟨1, byte % 16, if byte = 224 then 160 else 128,
      if byte = 237 then 159 else 191, by split <;> omega,
      by split <;> omega, by split <;> omega⟩)
  else if four : 240 ≤ byte ∧ byte ≤ 244 then
    ([], some ⟨2, byte % 8, if byte = 240 then 144 else 128,
      if byte = 244 then 143 else 191, by split <;> omega,
      by split <;> omega, by split <;> omega⟩)
  else ([replacement], none)

/-- What a byte that fits adds is no less than its bounds promised. -/
theorem Pending.high_next (pending : Pending) {byte : Nat}
    (fits : pending.lower ≤ byte ∧ byte ≤ pending.upper) :
    128 ≤ (pending.codePoint * 64 + byte % 64) * 64 ^ pending.needed := by
  have lower_ge := pending.lower_ge
  have upper_le := pending.upper_le
  have bits : pending.lower - 128 ≤ byte % 64 := by omega
  calc 128 ≤ pending.codePoint * 64 ^ (pending.needed + 1) +
        (pending.lower - 128) * 64 ^ pending.needed := pending.high
    _ ≤ pending.codePoint * 64 ^ (pending.needed + 1) +
        byte % 64 * 64 ^ pending.needed :=
      Nat.add_le_add_left (Nat.mul_le_mul_right _ bits) _
    _ = (pending.codePoint * 64 + byte % 64) * 64 ^ pending.needed := by
      ring

/-- One more byte of a character that it fits: the character, or what is
pending then. -/
def Pending.next (pending : Pending) (byte : Nat)
    (fits : pending.lower ≤ byte ∧ byte ≤ pending.upper) :
    List Nat × Option Pending :=
  let codePoint := pending.codePoint * 64 + byte % 64
  match same : pending.needed with
  | 0 => ([codePoint], none)
  | needed + 1 =>
      ([], some ⟨needed, codePoint, 128, 191, by omega, by omega, by
        have high := pending.high_next fits
        rw [same] at high
        simpa using high⟩)

/-- What a byte completes, and what is pending after it. -/
def advance : Option Pending → Nat → List Nat × Option Pending
  | none, byte => start byte
  | some pending, byte =>
      if fits : pending.lower ≤ byte ∧ byte ≤ pending.upper then
        pending.next byte fits
      else (replacement :: (start byte).1, (start byte).2)

/-- Decode what follows on a character that may be pending. -/
def decodeFrom : Option Pending → Bytes → List Nat
  | none, [] => []
  | some _, [] => [replacement]
  | pending, byte :: rest =>
      (advance pending byte.toNat).1 ++
        decodeFrom (advance pending byte.toNat).2 rest

def decode (bytes : Bytes) : List Nat := decodeFrom none bytes

theorem decodeFrom_cons (pending : Option Pending) (byte : UInt8)
    (rest : Bytes) :
    decodeFrom pending (byte :: rest) =
      (advance pending byte.toNat).1 ++
        decodeFrom (advance pending byte.toNat).2 rest := by
  cases pending <;> rfl

@[simp] theorem decode_nil : decode [] = [] := rfl

theorem start_ascii {byte : Nat} (ascii : byte < 128) :
    start byte = ([byte], none) := if_pos ascii

/-- An ASCII byte ends what is pending and stands for itself. -/
theorem advance_ascii (pending : Option Pending) {byte : Nat}
    (ascii : byte < 128) :
    advance pending byte = (decodeFrom pending [] ++ [byte], none) := by
  cases pending with
  | none => exact start_ascii ascii
  | some pending =>
      have unfit : ¬ (pending.lower ≤ byte ∧ byte ≤ pending.upper) := by
        have lower_ge := pending.lower_ge
        omega
      rw [advance, dif_neg unfit, start_ascii ascii]
      rfl

theorem start_ge {byte : Nat} (other : 128 ≤ byte) :
    ∀ codePoint ∈ (start byte).1, 128 ≤ codePoint := by
  unfold start
  rw [if_neg (by omega)]
  split
  · simp
  split
  · simp
  split
  · simp
  · simp [replacement]

theorem Pending.next_ge (pending : Pending) {byte : Nat}
    (fits : pending.lower ≤ byte ∧ byte ≤ pending.upper) :
    ∀ codePoint ∈ (pending.next byte fits).1, 128 ≤ codePoint := by
  have high := pending.high_next fits
  unfold next
  split
  case h_1 same =>
      rw [same] at high
      simpa using high
  case h_2 => simp

theorem advance_ge (pending : Option Pending) {byte : Nat}
    (other : 128 ≤ byte) :
    ∀ codePoint ∈ (advance pending byte).1, 128 ≤ codePoint := by
  cases pending with
  | none => exact start_ge other
  | some pending =>
      by_cases fits : pending.lower ≤ byte ∧ byte ≤ pending.upper
      · rw [advance, dif_pos fits]
        exact pending.next_ge fits
      · rw [advance, dif_neg fits]
        intro codePoint member
        rcases List.mem_cons.mp member with rfl | member
        · decide
        · exact start_ge other codePoint member

theorem decodeFrom_append_ascii (front : Bytes) {byte : UInt8}
    (ascii : byte.toNat < 128) (rest : Bytes) (pending : Option Pending) :
    decodeFrom pending (front ++ byte :: rest) =
      decodeFrom pending front ++ byte.toNat :: decode rest := by
  induction front generalizing pending with
  | nil =>
      rw [List.nil_append, decodeFrom_cons, advance_ascii pending ascii,
        List.append_assoc]
      rfl
  | cons first front induction =>
      rw [List.cons_append, decodeFrom_cons, induction, decodeFrom_cons,
        List.append_assoc]

theorem decode_append_ascii (front : Bytes) {byte : UInt8}
    (ascii : byte.toNat < 128) (rest : Bytes) :
    decode (front ++ byte :: rest) =
      decode front ++ byte.toNat :: decode rest :=
  decodeFrom_append_ascii front ascii rest none

theorem decode_ascii_append {front : Bytes}
    (ascii : ∀ byte ∈ front, byte.toNat < 128) (rest : Bytes) :
    decode (front ++ rest) = front.map UInt8.toNat ++ decode rest := by
  induction front with
  | nil => rfl
  | cons byte front induction =>
      rw [List.cons_append, ← List.nil_append (byte :: (front ++ rest)),
        decode_append_ascii [] (ascii byte List.mem_cons_self), induction]
      · rfl
      · intro byte member
        exact ascii byte (List.mem_cons_of_mem _ member)

theorem start_progress (byte : Nat) :
    (start byte).1 ≠ [] ∨ (start byte).2 ≠ none := by
  unfold start
  split
  · simp
  split
  · simp
  split
  · simp
  split <;> simp

theorem advance_progress (pending : Option Pending) (byte : Nat) :
    (advance pending byte).1 ≠ [] ∨ (advance pending byte).2 ≠ none := by
  cases pending with
  | none => exact start_progress byte
  | some pending =>
      by_cases fits : pending.lower ≤ byte ∧ byte ≤ pending.upper
      · rw [advance, dif_pos fits]
        unfold Pending.next
        split <;> simp
      · rw [advance, dif_neg fits]
        simp

theorem decodeFrom_ne_nil {bytes : Bytes} {pending : Option Pending}
    (something : bytes ≠ [] ∨ pending ≠ none) :
    decodeFrom pending bytes ≠ [] := by
  induction bytes generalizing pending with
  | nil =>
      cases pending with
      | none => simp at something
      | some pending => simp [decodeFrom]
  | cons byte bytes induction =>
      rw [decodeFrom_cons]
      rcases advance_progress pending byte.toNat with emitted | left
      · exact List.append_ne_nil_of_left_ne_nil emitted _
      · exact List.append_ne_nil_of_right_ne_nil _ (induction (.inr left))

theorem decode_eq_nil_iff {bytes : Bytes} :
    decode bytes = [] ↔ bytes = [] := by
  constructor
  · intro decoded
    by_contra something
    exact decodeFrom_ne_nil (.inl something) decoded
  · rintro rfl
    rfl

/-- An ASCII character that a byte completes is the byte itself, after all
that it completes. -/
theorem advance_eq_append {pending : Option Pending} {byte : Nat}
    {front rest : List Nat} {codePoint : Nat} (ascii : codePoint < 128)
    (emitted : (advance pending byte).1 = front ++ codePoint :: rest) :
    byte = codePoint ∧ front = decodeFrom pending [] ∧ rest = [] := by
  have member : codePoint ∈ (advance pending byte).1 := by simp [emitted]
  have small : byte < 128 := by
    by_contra other
    have := advance_ge pending (Nat.le_of_not_lt other) codePoint member
    omega
  rw [advance_ascii pending small] at emitted
  cases pending with
  | none =>
      cases front <;> simp_all [decodeFrom]
  | some pending =>
      rcases front with _ | ⟨first, front⟩
      · simp only [decodeFrom, replacement, List.nil_append,
          List.cons_append, List.cons.injEq] at emitted
        omega
      · cases front <;> simp_all [decodeFrom]

theorem decodeFrom_split {bytes : Bytes} {pending : Option Pending}
    {front rest : List Nat} {codePoint : Nat} (ascii : codePoint < 128)
    (decoded : decodeFrom pending bytes = front ++ codePoint :: rest) :
    ∃ before byte after, bytes = before ++ byte :: after ∧
      byte.toNat = codePoint ∧ decodeFrom pending before = front ∧
      decode after = rest := by
  induction bytes generalizing pending front with
  | nil =>
      have member : codePoint ∈ decodeFrom pending [] := by simp [decoded]
      cases pending with
      | none => cases member
      | some pending =>
          have same := List.mem_singleton.mp member
          rw [replacement] at same
          omega
  | cons byte bytes induction =>
      have later : ∀ {before : List Nat},
          front = (advance pending byte.toNat).1 ++ before →
          decodeFrom (advance pending byte.toNat).2 bytes =
            before ++ codePoint :: rest →
          ∃ before byte' after, byte :: bytes = before ++ byte' :: after ∧
            byte'.toNat = codePoint ∧ decodeFrom pending before = front ∧
            decode after = rest := by
        intro before frontEq decoded
        obtain ⟨between, found, after, bytesEq, foundEq, betweenEq, afterEq⟩ :=
          induction decoded
        refine ⟨byte :: between, found, after, ?_, foundEq, ?_, afterEq⟩
        · rw [bytesEq, List.cons_append]
        · rw [decodeFrom_cons, betweenEq, frontEq]
      rw [decodeFrom_cons] at decoded
      rcases List.append_eq_append_iff.mp decoded with
        ⟨before, frontEq, decoded⟩ | ⟨emitted, firstEq, decoded⟩
      · exact later frontEq decoded
      · cases emitted with
        | nil =>
            have same : front = (advance pending byte.toNat).1 ++ [] := by
              rw [firstEq, List.append_nil, List.append_nil]
            exact later same decoded.symm
        | cons first emitted =>
            obtain ⟨rfl, restEq⟩ := List.cons.inj decoded
            obtain ⟨byteEq, rfl, rfl⟩ := advance_eq_append ascii firstEq
            refine ⟨[], byte, bytes, rfl, byteEq, rfl, ?_⟩
            rw [advance_ascii pending (byteEq ▸ ascii)] at restEq
            exact restEq.symm

/-- An ASCII character at the end was the last byte. -/
theorem decode_eq_concat {bytes : Bytes} {front : List Nat} {byte : UInt8}
    (ascii : byte.toNat < 128)
    (decoded : decode bytes = front ++ [byte.toNat]) :
    ∃ before, bytes = before ++ [byte] := by
  obtain ⟨before, last, after, bytesEq, lastEq, _, nothing⟩ :=
    decodeFrom_split ascii decoded
  obtain rfl := UInt8.toNat_inj.mp lastEq
  rw [decode_eq_nil_iff.mp nothing] at bytesEq
  exact ⟨before, bytesEq⟩

end Utf8
