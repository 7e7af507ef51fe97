/- Tokens of expressions, and their reading from a text. -/
import Prepass.Decimal.Basic
import Prepass.Text.Integer
import Prepass.Value.Conversion
namespace Prepass

inductive TokenKind where
  | number (x : Binary64)
  /-- A quoted text with its escapes resolved. -/
  | string (t : Text)
  | identifier
  | operator
  | punctuator
deriving DecidableEq

/-- A token without its place. -/
structure Lexeme where
  text : Text
  kind : TokenKind
deriving DecidableEq

structure Token extends Lexeme where
  column : Nat
deriving DecidableEq

/-- Why no token could be read. -/
inductive TokenError where
  | invalidNumber
  | expectedQuote
  | unterminatedString
  | invalidEscape
  | invalidIdentifier
  | noSuchSymbol
  | unexpectedCharacter (c : CodePoint) (column : Nat)
  /-- A number with a base mark that is too large for binary64. -/
  | numberTooLarge
deriving DecidableEq

def TokenError.message : TokenError → Text
  | .invalidNumber => "Invalid number."
  | .expectedQuote => "Expected quote."
  | .unterminatedString => "Unterminated string constant."
  | .invalidEscape => "Invalid escape sequence."
  | .invalidIdentifier => "Invalid identifier."
  | .noSuchSymbol => []
  | .unexpectedCharacter c column =>
    "Unexpected character '" ++ [c] ++ "' at column " ++ Text.ofNat (column + 1) ++ "."
  | .numberTooLarge => Fault.numberTooLarge.message

/-- An error and how far reading had come. -/
structure LexStop where
  error : TokenError
  offset : Nat
deriving DecidableEq

namespace Lexeme

def operators : List Text :=
  ["===", "!==", ">>>", "==", "!=", "<=", ">=", "&&", "||", "<<", ">>", "+", "-", "*", "/", "%", "!",
   "~", "<", ">", "&", "|", "^", "?", ":"].map Text.ofString

def punctuators : List Text := ["(", ")", "[", "]", ".", ","].map Text.ofString

/-- A number of the given length. An identifier character may not follow it directly. -/
def finishNumber (t : Text) (length : Nat) (x : Binary64) : Except LexStop Lexeme :=
  if (t.drop length).head?.any CodePoint.isIdentifierChar then .error ⟨.invalidNumber, 0⟩
  else .ok ⟨t.take length, .number x⟩

/-- A number: digits of an announced base, or a decimal literal. -/
def number (t : Text) : Except LexStop Lexeme :=
  match Text.announcedBase? t with
  | some (base, after) =>
    let digits := after.takeWhile (CodePoint.isAsciiDigit base)
    if digits.isEmpty then .error ⟨.invalidNumber, 0⟩
    else match Binary64.ofInt? (Text.digitsValue base digits) with
      | .error _ => .error ⟨.numberTooLarge, 2 + digits.length⟩
      | .ok x => finishNumber t (2 + digits.length) x
  | none =>
    match Decimal.read? t with
    | none => .error ⟨.invalidNumber, 0⟩
    | some (d, length) => finishNumber t length (d.nearest false)

/-- The character that a letter after a backslash names. -/
def namedEscape? (c : CodePoint) : Option CodePoint :=
  if c = 'n' then some '\n'
  else if c = 't' then some '\t'
  else if c = 'r' then some '\r'
  else if c = 'b' then some ⟨0x8, by decide⟩
  else if c = 'f' then some ⟨0xC, by decide⟩
  else if c = 'v' then some ⟨0xB, by decide⟩
  else if c = '0' then some ⟨0, by decide⟩
  else none

/-- The code point whose number a fixed count of hexadecimal characters spells. -/
def codePoint? (digits : Text) : Option CodePoint :=
  match Text.readInteger? 16 digits with
  | some (.ofNat n) => CodePoint.ofNat? n
  | _ => none

/-- The rest of a quoted text up to its closing quote: its meaning, and the offset after the quote.
The offset of the first character is given. -/
def quotedFrom (quote : CodePoint) : Nat → Text → Except LexStop (Text × Nat)
  | _, [] => .error ⟨.unterminatedString, 0⟩
  | offset, c :: rest =>
    if c = quote then .ok ([], offset + 1)
    else if c ≠ '\\' then
      (quotedFrom quote (offset + 1) rest).map fun (t, stop) => (c :: t, stop)
    else match rest with
      | [] => .error ⟨.unterminatedString, offset + 1⟩
      | e :: rest =>
        if e = 'x' then
          match rest with
          | a :: b :: rest =>
            match codePoint? [a, b] with
            | some d => (quotedFrom quote (offset + 4) rest).map fun (t, stop) => (d :: t, stop)
            | none => .error ⟨.invalidEscape, offset + 1⟩
          | _ => .error ⟨.invalidEscape, offset + 1⟩
        else if e = 'u' then
          match rest with
          | a :: b :: a' :: b' :: rest =>
            match codePoint? [a, b, a', b'] with
            | some d => (quotedFrom quote (offset + 6) rest).map fun (t, stop) => (d :: t, stop)
            | none => .error ⟨.invalidEscape, offset + 1⟩
          | _ => .error ⟨.invalidEscape, offset + 1⟩
        else
          (quotedFrom quote (offset + 2) rest).map fun (t, stop) =>
            ((namedEscape? e).getD e :: t, stop)

def string (t : Text) : Except LexStop Lexeme :=
  match t with
  | quote :: rest =>
    if quote = '\'' ∨ quote = '"' then
      (quotedFrom quote 1 rest).map fun (value, stop) => ⟨t.take stop, .string value⟩
    else .error ⟨.expectedQuote, 0⟩
  | [] => .error ⟨.expectedQuote, 0⟩

def identifier (t : Text) : Except LexStop Lexeme :=
  if t.head?.any CodePoint.isIdentifierStart then
    .ok ⟨t.takeWhile CodePoint.isIdentifierChar, .identifier⟩
  else .error ⟨.invalidIdentifier, 0⟩

def symbol (symbols : List Text) (kind : TokenKind) (t : Text) : Except LexStop Lexeme :=
  match symbols.find? (·.isPrefixOf t) with
  | some s => .ok ⟨s, kind⟩
  | none => .error ⟨.noSuchSymbol, 0⟩

def operator : Text → Except LexStop Lexeme := symbol operators .operator

def punctuator : Text → Except LexStop Lexeme := symbol punctuators .punctuator

/-- Tries one reader after another; a number that is too large ends the search. -/
def firstOf (t : Text) : List (Text → Except LexStop Lexeme) → Except LexStop (Option Lexeme)
  | [] => .ok none
  | read :: more =>
    match read t with
    | .ok lexeme => .ok (some lexeme)
    | .error stop => if stop.error = .numberTooLarge then .error stop else firstOf t more

/-- The token at the beginning of a text. -/
def next? (t : Text) : Except LexStop (Option Lexeme) :=
  firstOf t [number, string, identifier, operator, punctuator]

end Lexeme

namespace Token

/-- The tokens after `skip` more characters of a token that was read already. With them comes the
column after the last one and the blanks that follow it. -/
def scanFrom (column : Nat) : Nat → Text → Except LexStop (List Token × Nat)
  | _, [] => .ok ([], column)
  | skip + 1, _ :: rest => scanFrom (column + 1) skip rest
  | 0, c :: rest =>
    if c.isBlank then scanFrom (column + 1) 0 rest
    else match Lexeme.next? (c :: rest) with
      | .error stop => .error { stop with offset := column + stop.offset }
      | .ok none => .error ⟨.unexpectedCharacter c column, column⟩
      | .ok (some lexeme) =>
        (scanFrom (column + 1) (lexeme.text.length - 1) rest).map fun (tokens, stop) =>
          ({ lexeme with column } :: tokens, stop)

/-- All tokens of a text. -/
def scan (t : Text) : Except LexStop (List Token) := (scanFrom 0 0 t).map Prod.fst

end Token

end Prepass
