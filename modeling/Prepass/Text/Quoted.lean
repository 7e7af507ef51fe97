/- Texts between double quotes, with the escapes of JSON. -/
import Prepass.Text.Basic
namespace Prepass.Text

/-- The lowercase hexadecimal digits of `n`, `width` of them at the least. -/
def hex (width n : Nat) : Text :=
  let digits : Text := (Nat.toDigits 16 n).map CodePoint.ofChar
  List.replicate (width - digits.length) (CodePoint.ofChar '0') ++ digits

/-- The escape of a quote, a backslash or a control character; none for other characters. -/
def shortEscape? (c : CodePoint) : Option Text :=
  if c = '"' then some "\\\""
  else if c = '\\' then some "\\\\"
  else if c = '\n' then some "\\n"
  else if c = '\r' then some "\\r"
  else if c = '\t' then some "\\t"
  else if c.toNat = 0x8 then some "\\b"
  else if c.toNat = 0xC then some "\\f"
  else if c.toNat < 0x20 then some ("\\u" ++ hex 4 c.toNat)
  else none

def escape (c : CodePoint) : Text := (shortEscape? c).getD [c]

/-- A text in quotes; characters that need no escape stand for themselves. -/
def quote (t : Text) : Text := "\"" ++ t.flatMap escape ++ "\""

/-- The escape of a character outside the printable ASCII range, as one unit of sixteen bits or as
a pair of them. -/
def unitEscape (c : CodePoint) : Text :=
  if c.toNat < 0x10000 then "\\u" ++ hex 4 c.toNat
  else
    let n := c.toNat - 0x10000
    "\\u" ++ hex 4 (0xD800 + n / 0x400) ++ "\\u" ++ hex 4 (0xDC00 + n % 0x400)

def asciiEscape (c : CodePoint) : Text :=
  match shortEscape? c with
  | some t => t
  | none => if c.toNat ≤ 0x7E then [c] else unitEscape c

/-- A text in quotes, written in printable ASCII characters alone. -/
def quoteAscii (t : Text) : Text := "\"" ++ t.flatMap asciiEscape ++ "\""

end Prepass.Text
