import Rendition.Toml.Scalar
import Rendition.Toml.StringLiteral

/-!
# Configuration documents

A document is a sequence of lines, each empty, a header, or an entry `key = value`;
arrays and inline tables may run over several lines.  `readDocument?` reads the whole
text or nothing: whatever is wrong with it anywhere, there is no document.  Only whether
numbers can be read is left open (`Value.isReadable`).
-/

namespace Rendition.Toml

/-- What is left of a line behind blanks. -/
def skipBlanks (text : List Char) : List Char :=
  text.dropWhile isBlank

/-- What is left behind a comment, if one starts here: the end of its line. -/
def skipComment? (text : List Char) : Option (List Char) :=
  match text with
  | '#' :: rest =>
    match rest.dropWhile fun c => !isControl c with
    | [] => some []
    | line => if (lineEnd? line).isSome then some line else none
  | _ => some text

/-- What is left behind blanks, comments and line ends.  With `comment`, the text
starts inside a comment. -/
def skipLines? (comment : Bool) : List Char → Option (List Char)
  | [] => some []
  | '\n' :: rest => skipLines? false rest
  | '\r' :: rest => if rest.head? = some '\n' then skipLines? false rest else none
  | c :: rest =>
    if comment then
      if isControl c then none else skipLines? true rest
    else if isBlank c then skipLines? false rest
    else if c = '#' then skipLines? true rest
    else some (c :: rest)

/-! ## Keys -/

def isBareChar (c : Char) : Bool :=
  c.isAlphanum || c = '_' || c = '-'

/-- The most parts a key may have, and the most arrays and inline tables around a value. -/
def nestingLimit : Nat := 80

/-- Scans a key without dots. -/
def simpleKey? (text : List Char) : Option (String × List Char) :=
  match text.takeWhile isBareChar with
  | [] => lineString? text
  | name => some (String.ofList name, text.dropWhile isBareChar)

/-- Scans a key of at most `limit` parts, which are separated by dots. -/
def dottedKey? : (limit : Nat) → List Char → Option (List String × List Char)
  | 0, _ => none
  | limit + 1, text => do
    let (name, rest) ← simpleKey? text
    match skipBlanks rest with
    | '.' :: more =>
      let (names, rest) ← dottedKey? limit (skipBlanks more)
      some (name :: names, rest)
    | _ => some ([name], rest)

/-- Scans a key. -/
def key? (text : List Char) : Option (List String × List Char) :=
  dottedKey? nestingLimit text

/-- Scans a key and the equals sign behind it, with what `skip` takes off on either side
of the sign. -/
def assigned? (skip : List Char → Option (List Char)) (text : List Char) :
    Option (List String × List Char) := do
  let (path, rest) ← key? text
  match ← skip rest with
  | '=' :: rest => some (path, ← skip rest)
  | _ => none

/-! ## Values -/

mutual

/-- Scans a value with at most `depth` arrays and inline tables inside one another.  Every
value and every item uses up a unit of `fuel`. -/
def valueWith? : (fuel depth : Nat) → List Char → Option (Value × List Char)
  | 0, _, _ => none
  | fuel + 1, depth, text =>
    match text with
    | '[' :: rest =>
      match depth with
      | 0 => none
      | depth + 1 => do
        let (items, rest) ← itemsWith? fuel depth (← skipLines? false rest)
        some (.array items, rest)
    | '\x7b' :: rest =>
      match depth with
      | 0 => none
      | depth + 1 => do
        let (entries, rest) ← entriesWith? fuel depth [] (← skipLines? false rest)
        some (.table .inline entries, rest)
    | '"' :: _ | '\'' :: _ => (anyString? text).map fun (content, rest) => (.string content, rest)
    | _ =>
      let (token, rest) := cutToken text
      (scalarOf? token).map fun value => (value, rest)

/-- Scans the items of an array to behind its closing bracket. -/
def itemsWith? : (fuel depth : Nat) → List Char → Option (List Value × List Char)
  | 0, _, _ => none
  | fuel + 1, depth, text =>
    match text with
    | ']' :: rest => some ([], rest)
    | _ => do
      let (item, rest) ← valueWith? fuel depth text
      match ← skipLines? false rest with
      | ',' :: rest =>
        let (items, rest) ← itemsWith? fuel depth (← skipLines? false rest)
        some (item :: items, rest)
      | ']' :: rest => some ([item], rest)
      | _ => none

/-- Scans the entries of an inline table to behind its closing brace. -/
def entriesWith? : (fuel depth : Nat) → Entries → List Char → Option (Entries × List Char)
  | 0, _, _, _ => none
  | fuel + 1, depth, entries, text =>
    match text with
    | '\x7d' :: rest => some (entries, rest)
    | _ => do
      let (path, rest) ← assigned? (skipLines? false) text
      let (value, rest) ← valueWith? fuel depth rest
      let entries ← entries.insertDotted value path
      match ← skipLines? false rest with
      | ',' :: rest => entriesWith? fuel depth entries (← skipLines? false rest)
      | '\x7d' :: rest => some (entries, rest)
      | _ => none

end

/-- Scans a value. -/
def value? (text : List Char) : Option (Value × List Char) :=
  valueWith? (2 * text.length + 2) nestingLimit text

/-! ## Lines -/

/-- A line that says something. -/
inductive Line where
  /-- The header of a table. -/
  | header (path : List String)
  /-- The header of one more table of an array. -/
  | arrayHeader (path : List String)
  | entry (path : List String) (value : Value)

/-- Scans a header to behind its closing brackets. -/
def header? (closing : List Char) (text : List Char) : Option (List String × List Char) := do
  let (path, rest) ← key? (skipBlanks text)
  let rest ← Text.dropLead? closing (skipBlanks rest)
  some (path, rest)

/-- Scans what a line says. -/
def line? (text : List Char) : Option (Line × List Char) :=
  match text with
  | '[' :: '[' :: rest =>
    (header? [']', ']'] rest).map fun (path, rest) => (.arrayHeader path, rest)
  | '[' :: rest => (header? [']'] rest).map fun (path, rest) => (.header path, rest)
  | _ => do
    let (path, rest) ← assigned? (some ∘ skipBlanks) text
    let (value, rest) ← value? rest
    some (.entry path value, rest)

/-- Scans the lines of a text, each of which uses up a unit of `fuel`. -/
def linesWith? : Nat → List Char → Option (List Line)
  | 0, _ => none
  | fuel + 1, text => do
    match ← skipLines? false text with
    | [] => some []
    | text =>
      let (line, rest) ← line? text
      match ← skipComment? (skipBlanks rest) with
      | [] => some [line]
      | rest =>
        let lines ← linesWith? fuel (← lineEnd? rest)
        some (line :: lines)

/-! ## Documents -/

/-- The lines under one header. -/
structure Section where
  /-- The header, and whether it is that of an array; the first section has none. -/
  header : Option (List String × Bool)
  entries : List (List String × Value)

/-- Parts lines at the headers.  `current` is the header of the lines that come first. -/
def sections (current : Option (List String × Bool)) : List Line → List Section
  | [] => [⟨current, []⟩]
  | .header path :: rest => ⟨current, []⟩ :: sections (some (path, false)) rest
  | .arrayHeader path :: rest => ⟨current, []⟩ :: sections (some (path, true)) rest
  | .entry path value :: rest =>
    match sections current rest with
    | [] => [⟨current, [(path, value)]⟩]
    | first :: others => { first with entries := (path, value) :: first.entries } :: others

/-- Enters the lines of a section into a table. -/
def fill (entries : List (List String × Value)) (table : Entries) : Option Entries :=
  entries.foldlM (fun table (path, value) => table.insertDotted value path) table

/-- Adds a section to a document.  A table may have one header, also after it was
passed on the way to others. -/
def addSection (document : Entries) (part : Section) : Option Entries :=
  match part.header with
  | none => fill part.entries document
  | some (path, false) =>
    document.alter (fun
      | none => (fill part.entries []).map (.table .headed)
      | some (.table .passed passed) => (fill part.entries passed).map (.table .headed)
      | some _ => none) path
  | some (path, true) =>
    document.alter (fun
      | none => (fill part.entries []).map fun table => .tableArray [table]
      | some (.tableArray items) =>
        (fill part.entries []).map fun table => .tableArray (items ++ [table])
      | some _ => none) path

/-- The document without a byte order mark at its start. -/
def dropMark : List Char → List Char
  | c :: rest => if c.toNat = 0xFEFF then rest else c :: rest
  | [] => []

/-- Reads a document. -/
def readDocument? (text : String) : Option Entries := do
  let chars := dropMark text.toList
  let lines ← linesWith? (chars.length + 1) chars
  (sections none lines).foldlM addSection []

end Rendition.Toml
