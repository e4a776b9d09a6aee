/-!
# Characters of a configuration document

The classes of characters that all parts of a document share: blanks, control characters,
the ends of lines, and digits in the bases in which numbers and escapes are written.
-/

namespace Rendition.Toml

def isBlank (c : Char) : Bool :=
  c = ' ' || c = '\t'

/-- Control characters other than tabs, which may stand nowhere. -/
def isControl (c : Char) : Bool :=
  (c.toNat < 0x20 && c ≠ '\t') || c.toNat = 0x7F

/-- What is left behind the end of a line, if it ends here. -/
def lineEnd? : List Char → Option (List Char)
  | '\n' :: rest => some rest
  | '\r' :: '\n' :: rest => some rest
  | _ => none

/-! ## Digits -/

/-- The value of a digit, in any base up to sixteen. -/
def digitValue? (c : Char) : Option Nat :=
  if c.isDigit then some (c.toNat - '0'.toNat)
  else if 'a' ≤ c && c ≤ 'f' then some (c.toNat - 'a'.toNat + 10)
  else if 'A' ≤ c && c ≤ 'F' then some (c.toNat - 'A'.toNat + 10)
  else none

def isHexDigit (c : Char) : Bool :=
  (digitValue? c).isSome

/-- Whether a character is a digit of a base. -/
def isDigitIn (base : Nat) (c : Char) : Bool :=
  (digitValue? c).any (· < base)

/-- The number that digits of a base denote. -/
def digitsValue (base : Nat) (digits : List Char) : Nat :=
  digits.foldl (fun value c => value * base + (digitValue? c).getD 0) 0

end Rendition.Toml
