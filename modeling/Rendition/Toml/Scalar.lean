import Rendition.Toml.Moment
import Rendition.Toml.Value

/-!
# Tokens

Every value that is neither a string nor made of other values is one token, whose form
decides what it is.
-/

namespace Rendition.Toml

/-- Whether a character can be part of a word.  Quotes can, though no word starts with
one. -/
def isWordChar (c : Char) : Bool :=
  !"=,[]\x7b\x7d \t#\r\n".toList.contains c

/-- Whether a word starts here. -/
def startsWord (text : List Char) : Bool :=
  (text.head?.map fun c => isWordChar c && c ≠ '"' && c ≠ '\'').getD false

/-- Cuts off a token, which is a word or several with blanks between them. -/
def cutToken : List Char → List Char × List Char
  | [] => ([], [])
  | c :: rest =>
    if isWordChar c || (isBlank c && startsWord (rest.dropWhile isBlank)) then
      let (token, rest) := cutToken rest
      (c :: token, rest)
    else
      ([], c :: rest)

/-- The value of a token. -/
def scalarOf? (token : List Char) : Option Value :=
  if token = "true".toList then some (.boolean true)
  else if token = "false".toList then some (.boolean false)
  else if isMoment token then some (.moment (String.ofList token))
  else (Numeral.ofToken? token).map .number

end Rendition.Toml
