import Rendition.Markdown.Code
import Rendition.Markdown.Heading
import Rendition.Markdown.Table

/-!
# List items of Markdown

An item starts with a marker, and the lines below that are indented as far as what is
written behind the marker belong to it.  Items with markers of one kind, right below each
other or with blank lines between them, are a list.  A line of a paragraph need not be
indented, or quoted again, to go on with it.
-/

namespace Rendition.Markdown

/-- The marker of an item. -/
structure Marker where
  /-- What items of one list have in common: the bullet, or the mark behind the number. -/
  kind : Char
  number : Option Nat
  /-- How far lines are indented that belong to the item. -/
  offset : Nat
  /-- What is written behind the marker. -/
  content : Line

/-- The number that digits are. -/
def decimal (digits : List Char) : Nat :=
  digits.foldl (fun value c => value * 10 + (c.toNat - '0'.toNat)) 0

/-- The marker that a line starts with.  A number has at most nine digits, and there is a
blank behind a marker, or nothing.  A single blank is part of the marker where more than
four stand, or nothing behind them. -/
def marker? (line : Line) : Option Marker :=
  (opening? line).bind fun opening =>
    let digits := opening.takeWhile Char.isDigit
    match opening.drop digits.length with
    | [] => none
    | kind :: rest =>
      let gap := indent rest
      let isMarker :=
        if digits = [] then ['-', '+', '*'].contains kind
        else digits.length ≤ 9 && ['.', ')'].contains kind
      if isMarker && (1 ≤ gap || rest.head?.all (· = '\n')) then
        let padding := if isBlankLine rest || 4 < gap then 1 else gap
        some
          { kind
            number := if digits = [] then none else some (decimal digits)
            offset := indent line + digits.length + 1 + padding
            content := dropIndent padding rest }
      else
        none

/-- Whether a line is a break between sections: three or more equal marks. -/
def isRule (line : Line) : Bool :=
  match (opening? line).map (·.filter fun c => !isIndent c && c ≠ '\n') with
  | some (mark :: rest) =>
    ['-', '_', '*'].contains mark && 2 ≤ rest.length && rest.all (· = mark)
  | _ => false

/-! ## Where paragraphs end -/

/-- Whether a line is the first of a block that is neither a list nor a paragraph. -/
def startsOtherBlock (line : Line) : Bool :=
  (fence? line).isSome || (heading? line).isSome || isRule line ||
    (opening? line).bind List.head? = some '>'

/-- Whether a line starts a block of its own where a paragraph could go on, given the lines
below it.  An ordered list does so only if it starts with 1, and a list does not whose first
item is empty and has a blank line below.  A table does so if it starts with a bar. -/
def interrupts (extensions : Extensions) (line : Line) (below : List Line) : Bool :=
  startsOtherBlock line ||
    (marker? line).any (fun marker =>
      marker.number.getD 1 = 1 &&
        !(isBlankLine marker.content && below.head?.all isBlankLine)) ||
    (extensions.tables && (opening? line).bind List.head? = some '|' &&
      (below.head?.bind (alignments? line)).isSome)

/-- Whether a paragraph may go on below a line. -/
def mayGoOn (line : Line) : Bool :=
  !isBlankLine line && (fence? line).isNone && (heading? line).isNone && !isRule line

/-- Whether a line can go on with a paragraph though it is not set as the block around the
paragraph asks for. -/
def isLazy (line : Line) : Bool :=
  !isBlankLine line && !startsOtherBlock line && (marker? line).isNone

/-! ## What is inside of a block -/

/-- Cuts off the lines that are inside of a block, as they are there.  `inside?` says so for a
line that is set as the block asks for, and other lines are inside only if they are lazy and
`isOpen` says that there may be a paragraph to go on with. -/
def cutInside (inside? : Line → Option Line) :
    (isOpen : Bool) → List Line → List Line × List Line
  | _, [] => ([], [])
  | isOpen, line :: rest =>
    match inside? line with
    | some inner =>
      let (inside, after) := cutInside inside? (mayGoOn inner) rest
      (inner :: inside, after)
    | none =>
      if isOpen && isLazy line then
        let (inside, after) := cutInside inside? true rest
        (unindent line :: inside, after)
      else
        ([], line :: rest)

/-- What a line is inside of a quote. -/
def insideQuote? (line : Line) : Option Line :=
  match opening? line with
  | some ('>' :: rest) => some (dropIndent 1 rest)
  | _ => none

/-- What a line is inside of an item whose lines are indented by `offset`.  Blank lines are
inside whatever their indentation. -/
def insideItem? (offset : Nat) (line : Line) : Option Line :=
  if isBlankLine line || offset ≤ indent line then some (dropIndent offset line) else none

/-- An item of a list: its lines, and whether there are blank lines behind it. -/
structure Item where
  lines : List Line
  isSpaced : Bool

/-- Cuts off the lines inside of an item behind its marker.  An item that starts with a blank
line is empty if another one follows. -/
def Marker.cut (marker : Marker) (lines : List Line) : List Line × List Line :=
  if isBlankLine marker.content && lines.head?.any isBlankLine then
    (lines.takeWhile isBlankLine, lines.dropWhile isBlankLine)
  else
    cutInside (insideItem? marker.offset) (mayGoOn marker.content) lines

/-- Cuts off the items at the start of lines whose markers are of one kind.  A blank line behind
the last one is left to what follows.  Every item uses up a unit of `fuel`. -/
def cutItems (kind : Char) : (fuel : Nat) → List Line → List Item × List Line
  | fuel + 1, line :: rest =>
    match if isRule line then none else marker? line with
    | some marker =>
      if marker.kind = kind then
        let (inside, after) := marker.cut rest
        let written := (inside.reverse.dropWhile isBlankLine).reverse
        let item : Item := ⟨marker.content :: written, written.length < inside.length⟩
        match cutItems kind fuel after with
        | ([], after) => ([item], if item.isSpaced then ['\n'] :: after else after)
        | (items, after) => (item :: items, after)
      else
        ([], line :: rest)
    | none => ([], line :: rest)
  | _, lines => ([], lines)

end Rendition.Markdown
