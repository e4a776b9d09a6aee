import Rendition.Toml.Character

/-!
# Strings

How strings are written: in one of four styles, between single or double quotes, on one
line or on several.  They are scanned character by character from behind their opening
quotes, and a line end inside a string is kept as it is.
-/

namespace Rendition.Toml

/-- A way to write strings. -/
structure StringStyle where
  quote : Char
  /-- Whether a backslash starts an escape. -/
  escapes : Bool
  /-- Whether the string ends with three quotes and may have several lines. -/
  multiline : Bool

/-- Where one is in a string. -/
inductive StringState where
  /-- Among its characters; `folding` drops white space after an escaped line end. -/
  | plain (folding : Bool)
  /-- Behind a backslash. -/
  | escape
  /-- Inside the number of a character, with how many digits are missing. -/
  | code (missing value : Nat)

/-- The character of a short escape. -/
def shortEscape? : Char → Option Char
  | 'b' => some (Char.ofNat 0x08)
  | 't' => some '\t'
  | 'n' => some '\n'
  | 'f' => some (Char.ofNat 0x0C)
  | 'r' => some '\r'
  | 'e' => some (Char.ofNat 0x1B)
  | '"' => some '"'
  | '\\' => some '\\'
  | _ => none

/-- How many digits a numeric escape has. -/
def codeLength? : Char → Option Nat
  | 'x' => some 2
  | 'u' => some 4
  | 'U' => some 8
  | _ => none

/-- Puts a character in front of what is scanned after it. -/
def keep (c : Char) (scanned : Option (List Char × List Char)) : Option (List Char × List Char) :=
  scanned.map fun (content, rest) => (c :: content, rest)

/-- Whether a character is all of the end of a line, or its first half. -/
def isPartOfLineEnd (c : Char) (rest : List Char) : Bool :=
  c = '\n' || (c = '\r' && rest.head? = some '\n')

/-- Scans a string from behind its opening quotes to behind its closing ones. -/
def stringBody (style : StringStyle) : StringState → List Char → Option (List Char × List Char)
  | _, [] => none
  | .plain folding, c :: rest =>
    if folding && (isBlank c || isPartOfLineEnd c rest) then
      stringBody style (.plain true) rest
    else if c = style.quote then
      if style.multiline then
        let run := ((c :: rest).takeWhile (· = c)).length
        if run < 3 then
          keep c (stringBody style (.plain false) rest)
        else
          let taken := min run 5
          some (List.replicate (taken - 3) c, (c :: rest).drop taken)
      else
        some ([], rest)
    else if style.escapes && c = '\\' then
      stringBody style .escape rest
    else if (style.multiline && isPartOfLineEnd c rest) || !isControl c then
      keep c (stringBody style (.plain false) rest)
    else
      none
  | .escape, c :: rest =>
    match shortEscape? c, codeLength? c with
    | some meant, _ => keep meant (stringBody style (.plain false) rest)
    | none, some digits => stringBody style (.code digits 0) rest
    | none, none =>
      if style.multiline && (lineEnd? ((c :: rest).dropWhile isBlank)).isSome then
        stringBody style (.plain true) rest
      else
        none
  | .code missing value, c :: rest =>
    match digitValue? c with
    | none => none
    | some digit =>
      let value := value * 16 + digit
      if 1 < missing then
        stringBody style (.code (missing - 1) value) rest
      else if value.isValidChar then
        keep (Char.ofNat value) (stringBody style (.plain false) rest)
      else
        none

/-- Scans a string with one quote at either end. -/
def lineString? : List Char → Option (String × List Char)
  | c :: rest =>
    if c = '"' || c = '\'' then
      (stringBody ⟨c, c = '"', false⟩ (.plain false) rest).map fun (content, rest) =>
        (String.ofList content, rest)
    else
      none
  | [] => none

/-- Scans a string of any style.  A line end right behind three opening quotes does
not count. -/
def anyString? (text : List Char) : Option (String × List Char) :=
  match text with
  | a :: b :: c :: rest =>
    if a = b && b = c && (a = '"' || a = '\'') then
      (stringBody ⟨a, a = '"', true⟩ (.plain false) ((lineEnd? rest).getD rest)).map
        fun (content, rest) => (String.ofList content, rest)
    else
      lineString? text
  | _ => lineString? text

end Rendition.Toml
