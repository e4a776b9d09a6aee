import Rendition.Text.Fields
import Rendition.Toml.Character

/-!
# Numbers

How numbers are written, and which of them can be read.  A token that looks like a number
is one (`Numeral.ofToken?`), and what it denotes is only asked where it is needed
(`Numeral.int?`, `Numeral.isReadable`): integers must have digits of their base only and
fit into 128 bits, and floating-point numbers must not be larger than the largest one of
64 bits.
-/

namespace Rendition.Toml

/-- A number as it is written, but without the underscores between its digits. -/
inductive Numeral where
  /-- What should be digits of a base, behind a sign if the base is ten. -/
  | integer (base : Nat) (written : List Char)
  | float (written : List Char)
  deriving DecidableEq, Repr

/-- Takes a sign off a number; whether it is negative comes first. -/
def unsign : List Char → Bool × List Char
  | '-' :: rest => (true, rest)
  | '+' :: rest => (false, rest)
  | written => (false, written)

/-- The number with a sign. -/
def withSign (negative : Bool) (size : Nat) : Int :=
  if negative then -size else size

/-! ## How numbers are written -/

/-- Takes out underscores, each of which has to stand between two characters of a class
that does not have the underscore. -/
def dropUnderscores? (isInner : Char → Bool) : List Char → Option (List Char)
  | [] => some []
  | [c] => if c = '_' then none else some [c]
  | c :: d :: rest =>
    if c = '_' || (d = '_' && !(isInner c && (rest.head?.map isInner).getD false)) then none
    else if d = '_' then (dropUnderscores? isInner rest).map (c :: ·)
    else (dropUnderscores? isInner (d :: rest)).map (c :: ·)

/-- Whether digits are written properly: single underscores between digits only. -/
def isDigitRun (digits : List Char) : Bool :=
  (Text.fields (· = '_') digits).all fun field => !field.isEmpty && field.all Char.isDigit

/-- Whether digits are those of a decimal integer, which has no leading zeros. -/
def isDecimal (digits : List Char) : Bool :=
  isDigitRun digits && (digits.head? ≠ some '0' || digits.length = 1)

def isExponentMark (c : Char) : Bool :=
  c = 'e' || c = 'E'

/-- Whether a text is a floating-point number without its sign: an integer with a
fraction, an exponent or both. -/
def isFloat (unsigned : List Char) : Bool :=
  let mantissa := unsigned.takeWhile (!isExponentMark ·)
  let exponentOk :=
    match unsigned.dropWhile (!isExponentMark ·) with
    | [] => none
    | _ :: exponent => some (isDigitRun (unsign exponent).2)
  let mantissaOk :=
    match Text.cutFirst? '.' mantissa with
    | none => isDecimal mantissa && exponentOk.isSome
    | some (whole, fraction) => isDecimal whole && isDigitRun fraction
  mantissaOk && exponentOk.getD true

namespace Numeral

/-- An integer in a base other than ten, from behind the mark of the base. -/
def ofDigits? (base : Nat) (digits : List Char) : Option Numeral :=
  if digits.all fun c => c = '_' || isDigitIn base c then
    (dropUnderscores? isHexDigit digits).map (.integer base)
  else
    none

/-- The number that a token is.  What stands behind the first underscore of an integer may
be anything but a blank, as long as its underscores are placed well. -/
def ofToken? (token : List Char) : Option Numeral :=
  match token with
  | '0' :: 'x' :: digits => ofDigits? 16 digits
  | '0' :: 'o' :: digits => ofDigits? 8 digits
  | '0' :: 'b' :: digits => ofDigits? 2 digits
  | _ =>
    let unsigned := (unsign token).2
    let behindDigits := unsigned.dropWhile Char.isDigit
    if unsigned = "inf".toList || unsigned = "nan".toList then
      some (.float token)
    else if behindDigits.any fun c => c = '.' || isExponentMark c then
      if isFloat unsigned then some (.float (token.filter (· ≠ '_'))) else none
    else if behindDigits = unsigned || (unsigned.head? = some '0' && unsigned.length ≠ 1) then
      none
    else if behindDigits = [] || (behindDigits.head? = some '_' && !behindDigits.contains ' ') then
      (dropUnderscores? isHexDigit token).map (.integer 10)
    else
      none

/-! ## What numbers denote -/

/-- The integers that fit into 128 bits, with or without a sign. -/
def inRange (value : Int) : Bool :=
  -Int.pow 2 127 ≤ value && value < Int.pow 2 128

/-- The integer that a number is, if it is one. -/
def int? : Numeral → Option Int
  | .float _ => none
  | .integer base written =>
    let (negative, digits) := unsign written
    let value := withSign negative (digitsValue base digits)
    if !digits.isEmpty && digits.all (isDigitIn base) && inRange value then some value else none

/-- Half-way between the largest floating-point number of 64 bits and the next power of
two.  This is the least number that does not round to one of them. -/
def floatBound : Nat := Nat.pow 2 1024 - Nat.pow 2 970

/-- Whether a number of at most `width` digits, multiplied by a power of ten, is below
`floatBound`.  Powers of ten that settle it by their size are not computed. -/
def isBelowFloatBound (digits width : Nat) : Int → Bool
  | .ofNat exponent => digits = 0 || (exponent ≤ 308 && digits * Nat.pow 10 exponent < floatBound)
  | .negSucc exponent => width ≤ exponent || digits < floatBound * Nat.pow 10 (exponent + 1)

/-- Whether a floating-point number without its sign is small enough. -/
def isFiniteFloat (unsigned : List Char) : Bool :=
  let mantissa := unsigned.takeWhile (!isExponentMark ·)
  let (negative, exponent) := unsign ((unsigned.dropWhile (!isExponentMark ·)).drop 1)
  let fraction := (mantissa.dropWhile (· ≠ '.')).drop 1
  let digits := mantissa.filter (· ≠ '.')
  isBelowFloatBound (digitsValue 10 digits) digits.length
    (withSign negative (digitsValue 10 exponent) - fraction.length)

/-- Whether a number can be read at all. -/
def isReadable : Numeral → Bool
  | .integer base written => (int? (.integer base written)).isSome
  | .float written =>
    let unsigned := (unsign written).2
    unsigned = "inf".toList || unsigned = "nan".toList || isFiniteFloat unsigned

end Numeral
end Rendition.Toml
