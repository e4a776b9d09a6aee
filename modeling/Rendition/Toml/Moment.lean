import Rendition.Text.Fields
import Rendition.Toml.Character

/-!
# Dates and times

A moment is a date, a time of day, or a date with a time.  Dates are those of the
Gregorian calendar; a time may lack its seconds, and one behind a date may have an offset
from universal time.
-/

namespace Rendition.Toml

/-- Takes a number of a fixed width off a token. -/
def fixedNumber? (width : Nat) (token : List Char) : Option (Nat × List Char) :=
  let digits := token.take width
  if digits.length = width && digits.all Char.isDigit then
    some (digitsValue 10 digits, token.drop width)
  else
    none

def daysIn (year month : Nat) : Nat :=
  if month = 2 then
    if year % 4 = 0 && (year % 100 ≠ 0 || year % 400 = 0) then 29 else 28
  else if month = 4 || month = 6 || month = 9 || month = 11 then 30
  else 31

/-- What is left of a token behind a date. -/
def date? (token : List Char) : Option (List Char) := do
  let (year, rest) ← fixedNumber? 4 token
  let (month, rest) ← fixedNumber? 2 (← Text.dropLead? ['-'] rest)
  let (day, rest) ← fixedNumber? 2 (← Text.dropLead? ['-'] rest)
  if 1 ≤ month && month ≤ 12 && 1 ≤ day && day ≤ daysIn year month then some rest else none

/-- What is left of a token behind a time of day.  Seconds may be left out. -/
def time? (token : List Char) : Option (List Char) := do
  let (hour, rest) ← fixedNumber? 2 token
  let (minute, rest) ← fixedNumber? 2 (← Text.dropLead? [':'] rest)
  if 24 ≤ hour || 60 ≤ minute then
    none
  match rest with
  | ':' :: rest =>
    let (second, rest) ← fixedNumber? 2 rest
    if 60 < second then
      none
    match rest with
    | '.' :: fraction =>
      if (fraction.head?.map Char.isDigit).getD false then
        some (fraction.dropWhile Char.isDigit)
      else
        none
    | _ => some rest
  | _ => some rest

/-- Whether what is left of a token is an offset from universal time, or nothing. -/
def isOffset (token : List Char) : Bool :=
  match token with
  | [] => true
  | ['Z'] | ['z'] => true
  | c :: rest =>
    (c = '+' || c = '-') &&
      match fixedNumber? 2 rest with
      | some (hour, ':' :: rest) =>
        match fixedNumber? 2 rest with
        | some (minute, []) => hour < 24 && minute < 60
        | _ => false
      | _ => false

/-- Whether a token is a date, a time of day, or a date with a time. -/
def isMoment (token : List Char) : Bool :=
  match date? token with
  | some [] => true
  | some (c :: rest) =>
    (c = 'T' || c = 't' || c = ' ') && ((time? rest).map isOffset).getD false
  | none => time? token = some []

end Rendition.Toml
