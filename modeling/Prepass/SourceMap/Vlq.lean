/- Integers as variable-length quantities in the base64 alphabet. -/
import Prepass.Text.Basic
namespace Prepass.Vlq

def alphabet : Text := "ABCDEFGHIJKLMNOPQRSTUVWXYZabcdefghijklmnopqrstuvwxyz0123456789+/"

/-- The character of a value below 64. -/
def digit (n : Nat) : CodePoint := alphabet.getD n 'A'

def value? (c : CodePoint) : Option Nat := alphabet.idxOf? c

/-- The magnitude, shifted left by one place, with the sign as the lowest bit. -/
def fold (n : Int) : Nat := 2 * n.natAbs + (if n < 0 then 1 else 0)

def unfold (n : Nat) : Int := if n % 2 = 1 then -((n / 2 : Nat) : Int) else (n / 2 : Nat)

/-- Groups of five bits, lowest first; all but the last are marked by a sixth bit. -/
def encodeNat (n : Nat) : Text :=
  if n < 32 then [digit n] else digit (n % 32 + 32) :: encodeNat (n / 32)
termination_by n
decreasing_by omega

def encode (n : Int) : Text := encodeNat (fold n)

inductive DecodeError where
  | notADigit
  /-- The text ends within an integer. -/
  | truncated
deriving DecidableEq

def DecodeError.message : DecodeError → Text
  | .notADigit => "substring not found"
  | .truncated => "Truncated VLQ sequence."

/-- Decodes a run of integers, of whose first one the low `shift` bits are already known. -/
def decodeFrom (shift value : Nat) : Text → Except DecodeError (List Int)
  | [] => if shift = 0 then .ok [] else .error .truncated
  | c :: rest =>
    match value? c with
    | none => .error .notADigit
    | some d =>
      let value := value + (d % 32) <<< shift
      if 32 ≤ d then decodeFrom (shift + 5) value rest
      else (decodeFrom 0 0 rest).map (unfold value :: ·)

def decode (t : Text) : Except DecodeError (List Int) := decodeFrom 0 0 t

end Prepass.Vlq
