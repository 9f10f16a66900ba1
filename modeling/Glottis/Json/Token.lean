import Glottis.Decimal.Scaled

/-!
# JSON tokens

A JSON text is cut into punctuation, literals, numbers and strings, with blanks
between them.  Every token ends where it can no longer be continued, so two
values may follow each other here without a separator; such a sequence is
refused when values are built from the tokens.
-/

namespace Glottis.Json

open Decimal (Scaled ofDigits spanDigits)

/-- A number as it is written: sign, digits before the point, digits after the
point, and a signed exponent. -/
structure Number where
  negative : Bool
  whole : List Char
  fraction : Option (List Char)
  exponent : Option (Bool × List Char)
  deriving DecidableEq, Repr

namespace Number

def power (number : Number) : Int :=
  match number.exponent with
  | none => 0
  | some (true, digits) => -(ofDigits digits : Int)
  | some (false, digits) => (ofDigits digits : Int)

/-- The number without its sign, kept to one word. -/
def scaled (number : Number) : Scaled :=
  .ofDigits number.whole (number.fraction.getD []) number.power

/-- The number as a count: written without sign, point and exponent. -/
def count? (number : Number) : Option Nat :=
  if number.negative || number.fraction.isSome || number.exponent.isSome then none
  else some (ofDigits number.whole)

end Number

/-- A string token holds its text, or nothing if it pairs surrogates wrongly and
so is no Unicode text. -/
inductive Token where
  | openObject
  | closeObject
  | openArray
  | closeArray
  | comma
  | colon
  | null
  | bool (value : Bool)
  | number (value : Number)
  | string (text : Option String)
  deriving DecidableEq, Repr

/-- A unit of a string: a character as it stands or by its escape, or a code
unit given by four hexadecimal digits. -/
inductive TextUnit where
  | character (value : Char)
  | code (value : Nat)
  deriving DecidableEq, Repr

/-- The characters of some units, where a code unit above the basic plane is a
leading and a trailing surrogate in turn. -/
def decodeUnits : List TextUnit → Option (List Char)
  | [] => some []
  | .character value :: units => (decodeUnits units).map (value :: ·)
  | .code lead :: .code trail :: units =>
      if 0xD800 ≤ lead ∧ lead < 0xDC00 then
        if 0xDC00 ≤ trail ∧ trail < 0xE000 then
          (decodeUnits units).map
            (Char.ofNat (0x10000 + (lead - 0xD800) * 0x400 + (trail - 0xDC00)) :: ·)
        else none
      else if 0xDC00 ≤ lead ∧ lead < 0xE000 then none
      else (decodeUnits (.code trail :: units)).map (Char.ofNat lead :: ·)
  | .code value :: units =>
      if 0xD800 ≤ value ∧ value < 0xE000 then none
      else (decodeUnits units).map (Char.ofNat value :: ·)

def hexDigit? (digit : Char) : Option Nat :=
  if '0' ≤ digit ∧ digit ≤ '9' then some (digit.toNat - '0'.toNat)
  else if 'a' ≤ digit ∧ digit ≤ 'f' then some (digit.toNat - 'a'.toNat + 10)
  else if 'A' ≤ digit ∧ digit ≤ 'F' then some (digit.toNat - 'A'.toNat + 10)
  else none

def codeUnit? (first second third fourth : Char) : Option Nat := do
  return (((← hexDigit? first) * 16 + (← hexDigit? second)) * 16 + (← hexDigit? third)) * 16 +
    (← hexDigit? fourth)

def escaped? : Char → Option Char
  | '"' => some '"'
  | '\\' => some '\\'
  | '/' => some '/'
  | 'b' => some '\x08'
  | 'f' => some '\x0c'
  | 'n' => some '\n'
  | 'r' => some '\r'
  | 't' => some '\t'
  | _ => none

/-- The units of a string up to its closing quote, and the characters after it.
Control characters have to be escaped. -/
def scanString : List Char → Option (List TextUnit × List Char)
  | [] => none
  | '"' :: rest => some ([], rest)
  | '\\' :: 'u' :: first :: second :: third :: fourth :: rest => do
      let value ← codeUnit? first second third fourth
      let (units, rest) ← scanString rest
      return (.code value :: units, rest)
  | '\\' :: letter :: rest => do
      let value ← escaped? letter
      let (units, rest) ← scanString rest
      return (.character value :: units, rest)
  | value :: rest =>
      if value.toNat < 0x20 ∨ value = '\\' then none
      else do
        let (units, rest) ← scanString rest
        return (.character value :: units, rest)

/-- The digits at the front of a text, at least one, and the rest. -/
def scanDigits (text : List Char) : Option (List Char × List Char) :=
  match spanDigits text with
  | ([], _) => none
  | (digits, rest) => some (digits, rest)

/-- The digits before the point: a zero alone or digits that do not start with
zero. -/
def scanWhole : List Char → Option (List Char × List Char)
  | '0' :: rest => some (['0'], rest)
  | text => scanDigits text

def scanFraction : List Char → Option (Option (List Char) × List Char)
  | '.' :: rest => (scanDigits rest).map fun (digits, rest) => (some digits, rest)
  | rest => some (none, rest)

def scanExponentSign : List Char → Bool × List Char
  | '+' :: rest => (false, rest)
  | '-' :: rest => (true, rest)
  | rest => (false, rest)

def scanExponent : List Char → Option (Option (Bool × List Char) × List Char)
  | mark :: rest =>
      if mark = 'e' ∨ mark = 'E' then
        let (negative, rest) := scanExponentSign rest
        (scanDigits rest).map fun (digits, rest) => (some (negative, digits), rest)
      else some (none, mark :: rest)
  | [] => some (none, [])

def scanUnsigned (negative : Bool) (text : List Char) : Option (Token × List Char) := do
  let (whole, rest) ← scanWhole text
  let (fraction, rest) ← scanFraction rest
  let (exponent, rest) ← scanExponent rest
  return (.number ⟨negative, whole, fraction, exponent⟩, rest)

def scanToken : List Char → Option (Token × List Char)
  | '{' :: rest => some (.openObject, rest)
  | '}' :: rest => some (.closeObject, rest)
  | '[' :: rest => some (.openArray, rest)
  | ']' :: rest => some (.closeArray, rest)
  | ',' :: rest => some (.comma, rest)
  | ':' :: rest => some (.colon, rest)
  | 'n' :: 'u' :: 'l' :: 'l' :: rest => some (.null, rest)
  | 't' :: 'r' :: 'u' :: 'e' :: rest => some (.bool true, rest)
  | 'f' :: 'a' :: 'l' :: 's' :: 'e' :: rest => some (.bool false, rest)
  | '"' :: rest => (scanString rest).map fun (units, rest) =>
      (.string ((decodeUnits units).map String.ofList), rest)
  | '-' :: rest => scanUnsigned true rest
  | text => scanUnsigned false text

def isBlank (character : Char) : Bool :=
  character = ' ' || character = '\t' || character = '\n' || character = '\r'

theorem scanString_length_lt {text rest : List Char} {units : List TextUnit}
    (hscan : scanString text = some (units, rest)) : rest.length < text.length := by
  fun_induction scanString text generalizing units rest with
  | case1 => simp at hscan
  | case2 => simp_all
  | case3 first second third fourth tail ih =>
      simp only [Option.bind_eq_bind, Option.bind_eq_some_iff] at hscan
      obtain ⟨value, -, ⟨inner, after⟩, hinner, hpair⟩ := hscan
      simp only [Option.pure_def, Option.some.injEq, Prod.mk.injEq] at hpair
      have := ih hinner
      simp only [List.length_cons, ← hpair.2]
      omega
  | case4 letter tail _ ih =>
      simp only [Option.bind_eq_bind, Option.bind_eq_some_iff] at hscan
      obtain ⟨value, -, ⟨inner, after⟩, hinner, hpair⟩ := hscan
      simp only [Option.pure_def, Option.some.injEq, Prod.mk.injEq] at hpair
      have := ih hinner
      simp only [List.length_cons, ← hpair.2]
      omega
  | case5 => simp at hscan
  | case6 value tail _ _ _ _ ih =>
      simp only [Option.bind_eq_bind, Option.bind_eq_some_iff] at hscan
      obtain ⟨⟨inner, after⟩, hinner, hpair⟩ := hscan
      simp only [Option.pure_def, Option.some.injEq, Prod.mk.injEq] at hpair
      have := ih hinner
      simp only [List.length_cons, ← hpair.2]
      omega

theorem scanDigits_length_lt {text digits rest : List Char}
    (hscan : scanDigits text = some (digits, rest)) : rest.length < text.length := by
  have hlength := Decimal.length_spanDigits text
  unfold scanDigits at hscan
  split at hscan
  · simp at hscan
  · next front after hnonempty hspan =>
      simp only [Option.some.injEq, Prod.mk.injEq] at hscan
      rw [hspan] at hlength
      have hpositive : 0 < front.length :=
        List.length_pos_iff.mpr hnonempty
      rw [← hscan.2]
      dsimp only at hlength
      omega

theorem scanWhole_length_lt {text digits rest : List Char}
    (hscan : scanWhole text = some (digits, rest)) : rest.length < text.length := by
  unfold scanWhole at hscan
  split at hscan
  · simp only [Option.some.injEq, Prod.mk.injEq] at hscan
    simp [← hscan.2]
  · exact scanDigits_length_lt hscan

theorem scanFraction_length_le {text rest : List Char} {fraction : Option (List Char)}
    (hscan : scanFraction text = some (fraction, rest)) : rest.length ≤ text.length := by
  unfold scanFraction at hscan
  split at hscan
  · simp only [Option.map_eq_some_iff, Prod.mk.injEq] at hscan
    obtain ⟨⟨digits, after⟩, hdigits, -, rfl⟩ := hscan
    have := scanDigits_length_lt hdigits
    simp only [List.length_cons]
    omega
  · simp only [Option.some.injEq, Prod.mk.injEq] at hscan
    simp [hscan.2]

theorem scanExponentSign_length_le (text : List Char) :
    (scanExponentSign text).2.length ≤ text.length := by
  unfold scanExponentSign
  split <;> simp

theorem scanExponent_length_le {text rest : List Char} {exponent : Option (Bool × List Char)}
    (hscan : scanExponent text = some (exponent, rest)) : rest.length ≤ text.length := by
  unfold scanExponent at hscan
  split at hscan
  · split at hscan
    · next mark tail _ =>
        simp only [Option.map_eq_some_iff, Prod.mk.injEq] at hscan
        obtain ⟨⟨digits, after⟩, hdigits, -, rfl⟩ := hscan
        have := scanDigits_length_lt hdigits
        have := scanExponentSign_length_le tail
        simp only [List.length_cons]
        omega
    · simp only [Option.some.injEq, Prod.mk.injEq] at hscan
      simp [← hscan.2]
  · simp only [Option.some.injEq, Prod.mk.injEq] at hscan
    simp [← hscan.2]

theorem scanUnsigned_length_lt {negative : Bool} {text rest : List Char} {token : Token}
    (hscan : scanUnsigned negative text = some (token, rest)) :
    rest.length < text.length := by
  simp only [scanUnsigned, Option.bind_eq_bind, Option.bind_eq_some_iff] at hscan
  obtain ⟨⟨whole, first⟩, hwhole, ⟨fraction, second⟩, hfraction, ⟨exponent, third⟩, hexponent,
    hpair⟩ := hscan
  simp only [Option.pure_def, Option.some.injEq, Prod.mk.injEq] at hpair
  dsimp only at hfraction hexponent
  have := scanWhole_length_lt hwhole
  have := scanFraction_length_le hfraction
  have := scanExponent_length_le hexponent
  rw [← hpair.2]
  omega

theorem scanToken_length_lt {text rest : List Char} {token : Token}
    (hscan : scanToken text = some (token, rest)) : rest.length < text.length := by
  unfold scanToken at hscan
  split at hscan
  case h_10 =>
    simp only [Option.map_eq_some_iff, Prod.mk.injEq] at hscan
    obtain ⟨⟨units, after⟩, hstring, -, rfl⟩ := hscan
    have := scanString_length_lt hstring
    simp only [List.length_cons]
    omega
  case h_11 =>
    have := scanUnsigned_length_lt hscan
    simp only [List.length_cons]
    omega
  case h_12 => exact scanUnsigned_length_lt hscan
  all_goals
    simp only [Option.some.injEq, Prod.mk.injEq] at hscan
    simp only [← hscan.2, List.length_cons]
    omega

def scan (text : List Char) : Option (List Token) :=
  match text with
  | [] => some []
  | character :: tail =>
      if isBlank character then scan tail
      else
        match hscan : scanToken (character :: tail) with
        | none => none
        | some (token, rest) =>
            have : rest.length < (character :: tail).length := scanToken_length_lt hscan
            (scan rest).map (token :: ·)
termination_by text.length
decreasing_by
  · exact Nat.lt_succ_self tail.length
  · exact this

end Glottis.Json
