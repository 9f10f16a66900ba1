import Mathlib
import Glottis.Proofs.JsonTokens

/-!
# The texts of a JSON value

A text is a text of a value if it is made of the characters of its tokens, with blanks
between them.  Such a text is read as that value, and no other text is.  Tokens are cut off
where they can no longer be continued, which is where they end, since no value has two
numbers in a row.
-/

namespace Glottis.Json

open Decimal (spanDigits)

variable {text rest : List Char}

/-! ## Strings -/

inductive UnitSpelled : TextUnit → List Char → Prop
  | plain {value} (hprintable : 0x20 ≤ value.toNat) (hquote : value ≠ '"')
      (hslash : value ≠ '\\') : UnitSpelled (.character value) [value]
  | escape {letter value} (hletter : escaped? letter = some value) :
      UnitSpelled (.character value) ['\\', letter]
  | code {first second third fourth value}
      (hdigits : codeUnit? first second third fourth = some value) :
      UnitSpelled (.code value) ['\\', 'u', first, second, third, fourth]

/-- The characters of the units of a string and of the quote that closes it. -/
inductive UnitsSpelled : List TextUnit → List Char → Prop
  | close : UnitsSpelled [] ['"']
  | unit {unit units front text} (hunit : UnitSpelled unit front)
      (hunits : UnitsSpelled units text) : UnitsSpelled (unit :: units) (front ++ text)

theorem scanString_of_spelled {units : List TextUnit} (hspelled : UnitsSpelled units text)
    (rest : List Char) : scanString (text ++ rest) = some (units, rest) := by
  induction hspelled with
  | close => rfl
  | unit hunit _ ih =>
      cases hunit with
      | plain hprintable hquote hslash => simp [scanString, ih, hslash, hprintable]
      | @escape letter _ hletter =>
          have hcode : letter ≠ 'u' := by
            rintro rfl
            cases hletter
          simp [scanString, ih, hletter, hcode]
      | code hdigits => simp [scanString, ih, hdigits]

theorem spelled_of_scanString {units : List TextUnit}
    (hscan : scanString text = some (units, rest)) :
    ∃ front, UnitsSpelled units front ∧ text = front ++ rest := by
  fun_induction scanString text generalizing units rest with
  | case1 => cases hscan
  | case2 tail =>
      obtain ⟨rfl, rfl⟩ : [] = units ∧ tail = rest := by simpa using hscan
      exact ⟨_, .close, rfl⟩
  | case3 first second third fourth tail ih =>
      simp only [Option.bind_eq_bind, Option.bind_eq_some_iff] at hscan
      obtain ⟨value, hdigits, ⟨inner, after⟩, hinner, hpair⟩ := hscan
      obtain ⟨front, hfront, rfl⟩ := ih hinner
      obtain ⟨rfl, rfl⟩ : .code value :: inner = units ∧ after = rest := by simpa using hpair
      exact ⟨_, .unit (.code hdigits) hfront, rfl⟩
  | case4 letter tail _ ih =>
      simp only [Option.bind_eq_bind, Option.bind_eq_some_iff] at hscan
      obtain ⟨value, hletter, ⟨inner, after⟩, hinner, hpair⟩ := hscan
      obtain ⟨front, hfront, rfl⟩ := ih hinner
      obtain ⟨rfl, rfl⟩ : .character value :: inner = units ∧ after = rest := by simpa using hpair
      exact ⟨_, .unit (.escape hletter) hfront, rfl⟩
  | case5 => cases hscan
  | case6 value tail hquote _ _ hplain ih =>
      simp only [Option.bind_eq_bind, Option.bind_eq_some_iff] at hscan
      obtain ⟨⟨inner, after⟩, hinner, hpair⟩ := hscan
      obtain ⟨front, hfront, rfl⟩ := ih hinner
      obtain ⟨rfl, rfl⟩ : .character value :: inner = units ∧ after = rest := by simpa using hpair
      exact ⟨_, .unit (.plain (by omega) (fun h => hquote h) (by tauto)) hfront, rfl⟩

/-! ## Numbers -/

def AreDigits (digits : List Char) : Prop := digits ≠ [] ∧ ∀ digit ∈ digits, digit.isDigit

def fractionText : Option (List Char) → List Char
  | none => []
  | some digits => '.' :: digits

inductive ExponentSpelled : Option (Bool × List Char) → List Char → Prop
  | absent : ExponentSpelled none []
  | unsigned {mark digits} (hmark : mark = 'e' ∨ mark = 'E') (hdigits : AreDigits digits) :
      ExponentSpelled (some (false, digits)) (mark :: digits)
  | positive {mark digits} (hmark : mark = 'e' ∨ mark = 'E') (hdigits : AreDigits digits) :
      ExponentSpelled (some (false, digits)) (mark :: '+' :: digits)
  | negative {mark digits} (hmark : mark = 'e' ∨ mark = 'E') (hdigits : AreDigits digits) :
      ExponentSpelled (some (true, digits)) (mark :: '-' :: digits)

/-- The characters of a number without its sign; only a zero alone begins with zero. -/
inductive UnsignedSpelled (negative : Bool) : Number → List Char → Prop
  | number {whole fraction exponent power} (hwhole : AreDigits whole)
      (hzero : whole.head? = some '0' → whole = ['0'])
      (hfraction : ∀ digits ∈ fraction, AreDigits digits)
      (hexponent : ExponentSpelled exponent power) :
      UnsignedSpelled negative ⟨negative, whole, fraction, exponent⟩
        (whole ++ (fractionText fraction ++ power))

def EndsBefore (kind : Char → Bool) (text : List Char) : Prop :=
  ∀ character ∈ text.head?, kind character = false

def continuesNumber (character : Char) : Bool :=
  character.isDigit || character = '.' || character = 'e' || character = 'E'

theorem EndsBefore.mono {kind wider : Char → Bool} (hends : EndsBefore wider text)
    (hkind : ∀ character, kind character → wider character) : EndsBefore kind text := by
  intro character hcharacter
  have hwider := hends character hcharacter
  cases hcase : kind character with
  | false => rfl
  | true => rw [hkind character hcase] at hwider; cases hwider

theorem endsBefore_cons {kind : Char → Bool} {character : Char} :
    EndsBefore kind (character :: text) ↔ kind character = false := by
  simp [EndsBefore]

theorem scanDigits_append {digits : List Char} (hdigits : AreDigits digits)
    (hrest : EndsBefore Char.isDigit rest) :
    scanDigits (digits ++ rest) = some (digits, rest) := by
  have hspan : spanDigits (digits ++ rest) = (digits, rest) := by
    rw [spanDigits, List.takeWhile_append_of_pos hdigits.2, List.dropWhile_append_of_pos hdigits.2]
    cases rest with
    | nil => simp
    | cons character rest =>
        rw [endsBefore_cons] at hrest
        simp [hrest]
  obtain ⟨first, later, rfl⟩ := List.exists_cons_of_ne_nil hdigits.1
  rw [scanDigits, hspan]

theorem spelled_of_scanDigits {digits : List Char} (hscan : scanDigits text = some (digits, rest)) :
    AreDigits digits ∧ text = digits ++ rest := by
  have happend := Decimal.spanDigits_append text
  have hall : ∀ digit ∈ (spanDigits text).1, digit.isDigit :=
    fun digit hdigit => List.mem_takeWhile_imp hdigit
  unfold scanDigits at hscan
  split at hscan
  case h_1 => cases hscan
  case h_2 front after hfront hspan =>
    obtain ⟨rfl, rfl⟩ : front = digits ∧ after = rest := by simpa using hscan
    rw [hspan] at happend hall
    exact ⟨⟨hfront, hall⟩, happend.symm⟩

theorem AreDigits.exists_cons {digits : List Char} (hdigits : AreDigits digits) :
    ∃ digit later, digits = digit :: later ∧ digit.isDigit := by
  obtain ⟨digit, later, rfl⟩ := List.exists_cons_of_ne_nil hdigits.1
  exact ⟨digit, later, rfl, hdigits.2 digit List.mem_cons_self⟩

theorem scanWhole_append {whole : List Char} (hwhole : AreDigits whole)
    (hzero : whole.head? = some '0' → whole = ['0']) (hrest : EndsBefore Char.isDigit rest) :
    scanWhole (whole ++ rest) = some (whole, rest) := by
  obtain ⟨digit, later, rfl, -⟩ := hwhole.exists_cons
  unfold scanWhole
  split
  case h_1 tail htext =>
    obtain ⟨rfl, rfl⟩ : digit = '0' ∧ later ++ rest = tail := by simpa using htext
    obtain rfl : later = [] := by simpa using hzero rfl
    rfl
  case h_2 => exact scanDigits_append hwhole hrest

theorem spelled_of_scanWhole {whole : List Char} (hscan : scanWhole text = some (whole, rest)) :
    AreDigits whole ∧ (whole.head? = some '0' → whole = ['0']) ∧ text = whole ++ rest := by
  unfold scanWhole at hscan
  split at hscan
  case h_1 tail =>
    obtain ⟨rfl, rfl⟩ : ['0'] = whole ∧ tail = rest := by simpa using hscan
    exact ⟨⟨List.cons_ne_nil _ _, by simp [Char.isDigit]⟩, fun _ => rfl, rfl⟩
  case h_2 hnot =>
    obtain ⟨hwhole, rfl⟩ := spelled_of_scanDigits hscan
    obtain ⟨digit, later, rfl, -⟩ := hwhole.exists_cons
    refine ⟨hwhole, fun hzero => ?_, rfl⟩
    obtain rfl : digit = '0' := by simpa using hzero
    exact absurd rfl (hnot (later ++ rest))

theorem scanFraction_append {fraction : Option (List Char)}
    (hfraction : ∀ digits ∈ fraction, AreDigits digits)
    (hrest : EndsBefore (fun character => character.isDigit || character = '.') rest) :
    scanFraction (fractionText fraction ++ rest) = some (fraction, rest) := by
  cases fraction with
  | none =>
      rw [fractionText, List.nil_append]
      unfold scanFraction
      split
      case h_1 => cases endsBefore_cons.mp hrest
      case h_2 => rfl
  | some digits =>
      have hdigits := scanDigits_append (hfraction digits rfl)
        (hrest.mono fun character hdigit => by simp [hdigit])
      simp [fractionText, scanFraction, hdigits]

theorem spelled_of_scanFraction {fraction : Option (List Char)}
    (hscan : scanFraction text = some (fraction, rest)) :
    (∀ digits ∈ fraction, AreDigits digits) ∧ text = fractionText fraction ++ rest := by
  unfold scanFraction at hscan
  split at hscan
  case h_1 tail =>
    simp only [Option.map_eq_some_iff, Prod.mk.injEq] at hscan
    obtain ⟨⟨digits, after⟩, hdigits, rfl, rfl⟩ := hscan
    obtain ⟨hall, rfl⟩ := spelled_of_scanDigits hdigits
    exact ⟨by simpa using hall, rfl⟩
  case h_2 =>
    obtain ⟨rfl, rfl⟩ : none = fraction ∧ text = rest := by simpa using hscan
    exact ⟨by simp, rfl⟩

theorem scanExponentSign_append {digits : List Char} (hdigits : AreDigits digits) :
    scanExponentSign (digits ++ rest) = (false, digits ++ rest) := by
  obtain ⟨digit, later, rfl, hdigit⟩ := hdigits.exists_cons
  unfold scanExponentSign
  split
  case h_1 htext => 
    obtain ⟨rfl, -⟩ := List.cons.inj htext
    cases hdigit
  case h_2 htext =>
    obtain ⟨rfl, -⟩ := List.cons.inj htext
    cases hdigit
  case h_3 => rfl

theorem scanExponent_append {exponent : Option (Bool × List Char)} {power : List Char}
    (hexponent : ExponentSpelled exponent power) (hrest : EndsBefore continuesNumber rest) :
    scanExponent (power ++ rest) = some (exponent, rest) := by
  have hdigit : EndsBefore Char.isDigit rest :=
    hrest.mono fun character hdigit => by simp [continuesNumber, hdigit]
  cases hexponent with
  | absent =>
      cases rest with
      | nil => rfl
      | cons character rest =>
          have hmark : ¬(character = 'e' ∨ character = 'E') := by
            rintro (rfl | rfl) <;> cases endsBefore_cons.mp hrest
          rw [List.nil_append, scanExponent, if_neg hmark]
  | unsigned hmark hdigits =>
      simp [scanExponent, hmark, scanExponentSign_append hdigits, scanDigits_append hdigits hdigit]
  | positive hmark hdigits =>
      simp [scanExponent, hmark, scanExponentSign, scanDigits_append hdigits hdigit]
  | negative hmark hdigits =>
      simp [scanExponent, hmark, scanExponentSign, scanDigits_append hdigits hdigit]

theorem spelled_of_scanExponent {exponent : Option (Bool × List Char)}
    (hscan : scanExponent text = some (exponent, rest)) :
    ∃ power, ExponentSpelled exponent power ∧ text = power ++ rest := by
  unfold scanExponent at hscan
  split at hscan
  case h_1 mark tail =>
    split at hscan
    case isTrue hmark =>
      simp only [Option.map_eq_some_iff, Prod.mk.injEq] at hscan
      obtain ⟨⟨digits, after⟩, hdigits, rfl, rfl⟩ := hscan
      obtain ⟨hall, htail⟩ := spelled_of_scanDigits hdigits
      revert htail
      unfold scanExponentSign
      split
      case h_1 =>
        intro htail
        exact ⟨_, .positive hmark hall, congrArg (mark :: '+' :: ·) htail⟩
      case h_2 =>
        intro htail
        exact ⟨_, .negative hmark hall, congrArg (mark :: '-' :: ·) htail⟩
      case h_3 =>
        intro htail
        exact ⟨_, .unsigned hmark hall, congrArg (mark :: ·) htail⟩
    case isFalse =>
      obtain ⟨rfl, rfl⟩ : none = exponent ∧ mark :: tail = rest := by simpa using hscan
      exact ⟨[], .absent, rfl⟩
  case h_2 =>
    obtain ⟨rfl, rfl⟩ : none = exponent ∧ [] = rest := by simpa using hscan
    exact ⟨[], .absent, rfl⟩

theorem endsBefore_power {exponent : Option (Bool × List Char)} {power : List Char}
    (hexponent : ExponentSpelled exponent power) (hrest : EndsBefore continuesNumber rest) :
    EndsBefore (fun character => character.isDigit || character = '.') (power ++ rest) := by
  cases hexponent with
  | absent =>
      refine hrest.mono fun character hcharacter => ?_
      rw [continuesNumber, hcharacter]
      rfl
  | unsigned hmark _ | positive hmark _ | negative hmark _ =>
      rw [List.cons_append, endsBefore_cons]
      rcases hmark with rfl | rfl <;> rfl

theorem scanUnsigned_append {negative : Bool} {number : Number}
    (hspelled : UnsignedSpelled negative number text) (hrest : EndsBefore continuesNumber rest) :
    scanUnsigned negative (text ++ rest) = some (.number number, rest) := by
  cases hspelled with
  | @number whole fraction exponent power hwhole hzero hfraction hexponent =>
      have hpower := endsBefore_power hexponent hrest
      have hbehind : EndsBefore Char.isDigit (fractionText fraction ++ (power ++ rest)) := by
        cases fraction with
        | none => exact hpower.mono fun character hdigit => by simp [hdigit]
        | some digits => exact endsBefore_cons.mpr rfl
      simp [scanUnsigned, scanWhole_append hwhole hzero hbehind,
        scanFraction_append hfraction hpower, scanExponent_append hexponent hrest]

theorem spelled_of_scanUnsigned {negative : Bool} {token : Token}
    (hscan : scanUnsigned negative text = some (token, rest)) :
    ∃ number front, token = .number number ∧ UnsignedSpelled negative number front ∧
      text = front ++ rest := by
  simp only [scanUnsigned, Option.bind_eq_bind, Option.bind_eq_some_iff] at hscan
  obtain ⟨⟨whole, first⟩, hwhole, ⟨fraction, second⟩, hfraction, ⟨exponent, third⟩, hexponent,
    hpair⟩ := hscan
  obtain ⟨rfl, rfl⟩ : .number ⟨negative, whole, fraction, exponent⟩ = token ∧ third = rest := by
    simpa using hpair
  obtain ⟨hdigits, hzero, rfl⟩ := spelled_of_scanWhole hwhole
  obtain ⟨hfractionDigits, rfl⟩ := spelled_of_scanFraction hfraction
  obtain ⟨power, hpower, rfl⟩ := spelled_of_scanExponent hexponent
  exact ⟨_, _, rfl, .number hdigits hzero hfractionDigits hpower, by simp⟩

/-! ## Tokens -/

inductive TokenSpelled : Token → List Char → Prop
  | openObject : TokenSpelled .openObject ['{']
  | closeObject : TokenSpelled .closeObject ['}']
  | openArray : TokenSpelled .openArray ['[']
  | closeArray : TokenSpelled .closeArray [']']
  | comma : TokenSpelled .comma [',']
  | colon : TokenSpelled .colon [':']
  | null : TokenSpelled .null ['n', 'u', 'l', 'l']
  | literalTrue : TokenSpelled (.bool true) ['t', 'r', 'u', 'e']
  | literalFalse : TokenSpelled (.bool false) ['f', 'a', 'l', 's', 'e']
  | positive {number text} (hspelled : UnsignedSpelled false number text) :
      TokenSpelled (.number number) text
  | negative {number text} (hspelled : UnsignedSpelled true number text) :
      TokenSpelled (.number number) ('-' :: text)
  | string {units text} (hspelled : UnitsSpelled units text) :
      TokenSpelled (.string ((decodeUnits units).map String.ofList)) ('"' :: text)

theorem UnsignedSpelled.exists_cons {negative : Bool} {number : Number}
    (hspelled : UnsignedSpelled negative number text) :
    ∃ digit later, text = digit :: later ∧ digit.isDigit := by
  cases hspelled with
  | number hwhole =>
      obtain ⟨digit, later, rfl, hdigit⟩ := hwhole.exists_cons
      exact ⟨digit, _, rfl, hdigit⟩

theorem scanToken_of_isDigit {digit : Char} (hdigit : digit.isDigit) (text : List Char) :
    scanToken (digit :: text) = scanUnsigned false (digit :: text) := by
  unfold scanToken
  split
  case h_12 => rfl
  all_goals
    next htext =>
      obtain ⟨rfl, -⟩ := List.cons.inj htext
      cases hdigit

theorem scanToken_append {token : Token} (hspelled : TokenSpelled token text)
    (hrest : ∀ number, token = .number number → EndsBefore continuesNumber rest) :
    scanToken (text ++ rest) = some (token, rest) := by
  cases hspelled with
  | @positive number text hspelled =>
      have hscan := scanUnsigned_append hspelled (hrest number rfl)
      obtain ⟨digit, later, rfl, hdigit⟩ := hspelled.exists_cons
      rwa [List.cons_append, scanToken_of_isDigit hdigit]
  | @negative number text hspelled =>
      exact scanUnsigned_append hspelled (hrest number rfl)
  | string hspelled =>
      simp [scanToken, scanString_of_spelled hspelled]
  | _ => rfl

theorem spelled_of_scanToken {token : Token} (hscan : scanToken text = some (token, rest)) :
    ∃ front, TokenSpelled token front ∧ text = front ++ rest := by
  unfold scanToken at hscan
  split at hscan
  case h_10 =>
    simp only [Option.map_eq_some_iff, Prod.mk.injEq] at hscan
    obtain ⟨⟨units, after⟩, hunits, rfl, rfl⟩ := hscan
    obtain ⟨front, hfront, rfl⟩ := spelled_of_scanString hunits
    exact ⟨_, .string hfront, rfl⟩
  case h_11 =>
    obtain ⟨number, front, rfl, hfront, rfl⟩ := spelled_of_scanUnsigned hscan
    exact ⟨_, .negative hfront, rfl⟩
  case h_12 =>
    obtain ⟨number, front, rfl, hfront, rfl⟩ := spelled_of_scanUnsigned hscan
    exact ⟨_, .positive hfront, rfl⟩
  all_goals
    obtain ⟨rfl, rfl⟩ := Prod.mk.inj (Option.some.inj hscan)
    exact ⟨_, by constructor, rfl⟩

/-! ## Texts -/

/-- The texts of some tokens: their characters in order, with blanks before and behind. -/
inductive TokensSpelled : List Token → List Char → Prop
  | nil : TokensSpelled [] []
  | blank {character tokens text} (hblank : isBlank character)
      (hspelled : TokensSpelled tokens text) : TokensSpelled tokens (character :: text)
  | token {token tokens front text} (hfront : TokenSpelled token front)
      (hspelled : TokensSpelled tokens text) : TokensSpelled (token :: tokens) (front ++ text)

def Value.Spelled (value : Value) (text : String) : Prop :=
  TokensSpelled value.tokens text.toList

/-- Two tokens of which one at most is a number. -/
def Apart (first second : Token) : Prop :=
  ∀ number, first = .number number → ∀ other, second ≠ .number other

theorem TokenSpelled.exists_cons {token : Token} (hspelled : TokenSpelled token text) :
    ∃ character later, text = character :: later ∧ isBlank character = false := by
  cases hspelled with
  | positive hspelled =>
      obtain ⟨digit, later, rfl, hdigit⟩ := hspelled.exists_cons
      refine ⟨digit, later, rfl, Bool.eq_false_iff.mpr fun hblank => ?_⟩
      simp only [isBlank, Bool.or_eq_true, decide_eq_true_eq] at hblank
      rcases hblank with ((rfl | rfl) | rfl) | rfl <;> cases hdigit
  | _ => exact ⟨_, _, rfl, rfl⟩

theorem TokenSpelled.endsBefore {token : Token} (hspelled : TokenSpelled token text)
    (htoken : ∀ number, token ≠ .number number) : EndsBefore continuesNumber (text ++ rest) := by
  cases hspelled with
  | @positive number _ _ | @negative number _ _ => exact absurd rfl (htoken number)
  | _ => exact endsBefore_cons.mpr rfl

theorem TokensSpelled.endsBefore {tokens : List Token} (hspelled : TokensSpelled tokens text)
    (hhead : ∀ token ∈ tokens.head?, ∀ number, token ≠ .number number) :
    EndsBefore continuesNumber text := by
  cases hspelled with
  | nil => simp [EndsBefore]
  | blank hblank =>
      rw [endsBefore_cons]
      simp only [isBlank, Bool.or_eq_true, decide_eq_true_eq] at hblank
      rcases hblank with ((rfl | rfl) | rfl) | rfl <;> rfl
  | token hfront => exact hfront.endsBefore (hhead _ rfl)

theorem scan_of_scanToken {character : Char} {token : Token} (hblank : isBlank character = false)
    (hscan : scanToken (character :: text) = some (token, rest)) :
    scan (character :: text) = (scan rest).map (token :: ·) := by
  rw [scan, if_neg (by simp [hblank])]
  split
  case h_1 hnone => simp [hscan] at hnone
  case h_2 found after hsome =>
    obtain ⟨rfl, rfl⟩ : token = found ∧ rest = after := by simpa [hscan] using hsome
    rfl

theorem scan_of_spelled {tokens : List Token} (hspelled : TokensSpelled tokens text)
    (hapart : tokens.IsChain Apart) : scan text = some tokens := by
  induction hspelled with
  | nil => rw [scan]
  | blank hblank _ ih => rw [scan, if_pos hblank, ih hapart]
  | token hfront hspelled ih =>
      obtain ⟨hhead, hapart⟩ := List.isChain_cons.mp hapart
      have hscan := scanToken_append hfront fun number hnumber =>
        hspelled.endsBefore fun token htoken => hhead token htoken number hnumber
      obtain ⟨character, later, rfl, hblank⟩ := hfront.exists_cons
      rw [List.cons_append] at hscan ⊢
      rw [scan_of_scanToken hblank hscan, ih hapart]
      rfl

theorem spelled_of_scan {tokens : List Token} (hscan : scan text = some tokens) :
    TokensSpelled tokens text := by
  fun_induction scan text generalizing tokens with
  | case1 =>
      obtain rfl : [] = tokens := by simpa using hscan
      exact .nil
  | case2 character tail hblank ih => exact .blank hblank (ih hscan)
  | case3 => cases hscan
  | case4 character tail _ token rest htoken _ ih =>
      obtain ⟨later, hlater, rfl⟩ := Option.map_eq_some_iff.mp hscan
      obtain ⟨front, hfront, htext⟩ := spelled_of_scanToken htoken
      rw [htext]
      exact .token hfront (ih hlater)

/-- After a number, the machine refuses another one. -/
theorem step_supply_number (value : Value) (stack : List Frame) (number : Number) :
    step (supply value stack) (.number number) = none := by
  match stack with
  | [] | .array _ :: _ | .object _ _ :: _ => rfl

theorem apart_of_step {state next last : State} {first second : Token}
    (hfirst : step state first = some next) (hsecond : step next second = some last) :
    Apart first second := by
  rintro number rfl other rfl
  obtain ⟨stack, rfl⟩ : ∃ stack, supply (.number number) stack = next := by
    cases state <;> simp only [step, beginValue, Option.some.injEq, reduceCtorEq] at hfirst
    all_goals exact ⟨_, hfirst⟩
  rw [step_supply_number] at hsecond
  cases hsecond

/-- In a run of the machine, no two numbers follow each other. -/
theorem isChain_apart_of_run {state last : State} {tokens : List Token}
    (hrun : tokens.foldlM step state = some last) : tokens.IsChain Apart := by
  induction tokens generalizing state with
  | nil => exact .nil
  | cons first tokens ih =>
      obtain ⟨next, hfirst, hrest⟩ : ∃ next, step state first = some next ∧
          tokens.foldlM step next = some last := by
        simpa [Option.bind_eq_some_iff] using hrun
      refine List.isChain_cons.mpr ⟨fun second hsecond => ?_, ih hrest⟩
      cases tokens with
      | nil => cases hsecond
      | cons token tokens =>
          obtain rfl : token = second := by simpa using hsecond
          obtain ⟨after, hstep, -⟩ : ∃ after, step next token = some after ∧
              tokens.foldlM step after = some last := by
            simpa [Option.bind_eq_some_iff] using hrest
          exact apart_of_step hfirst hstep

/-- A text is read as a value exactly if it is one of the texts of that value. -/
theorem read?_eq_some_iff {text : String} {value : Value} :
    read? text = some value ↔ value.Spelled text := by
  constructor
  · intro hread
    obtain ⟨tokens, hscan, htokens⟩ := Option.bind_eq_some_iff.mp hread
    rw [Value.Spelled, ← ofTokens?_eq_some_iff.mp htokens]
    exact spelled_of_scan hscan
  · intro hspelled
    have hapart := isChain_apart_of_run (value.foldlM_step_tokens [])
    rw [read?, scan_of_spelled hspelled hapart]
    exact ofTokens?_eq_some_iff.mpr rfl

end Glottis.Json
