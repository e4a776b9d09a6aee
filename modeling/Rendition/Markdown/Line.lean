import Rendition.Text.Fields

/-!
# Lines of Markdown

Blocks are made of whole lines.  What a line is depends on how it starts, behind an
indentation of at most three columns.  Only blanks of the basic set count; other white
space is written like a letter.
-/

namespace Rendition.Markdown

/-- A line of a text, with its end if it has one. -/
abbrev Line := List Char

/-- The text with line feeds as the only ends of lines. -/
def withLineFeeds : List Char → List Char
  | [] => []
  | '\r' :: '\n' :: rest => '\n' :: withLineFeeds rest
  | c :: rest => (if c = '\r' then '\n' else c) :: withLineFeeds rest

/-- The lines of a text.  Only the last one may have no end. -/
def linesOf : List Char → List Line
  | [] => []
  | c :: rest =>
    if c = '\n' then ['\n'] :: linesOf rest
    else
      match linesOf rest with
      | [] => [[c]]
      | line :: others => (c :: line) :: others

/-! ## Blanks -/

/-- The blanks that indent a line. -/
def isIndent (c : Char) : Bool :=
  c = ' ' || c = '\t'

/-- The blanks within a line. -/
def isBlank (c : Char) : Bool :=
  isIndent c || c = '\x0b' || c = '\x0c'

/-- What separates within a block: blanks and the ends of lines. -/
def isGap (c : Char) : Bool :=
  isBlank c || c = '\n'

/-- Whether nothing is written on a line. -/
def isBlankLine (line : Line) : Bool :=
  line.all isGap

/-- How many columns a line is indented.  A tab takes four. -/
def indent : Line → Nat
  | [] => 0
  | c :: rest => if c = ' ' then indent rest + 1 else if c = '\t' then indent rest + 4 else 0

/-- A line without its indentation. -/
def unindent (line : Line) : Line :=
  line.dropWhile isIndent

/-- A line without `width` columns of its indentation, if it has as many.  Of a tab that is
cut, blanks are left. -/
def dropIndent : (width : Nat) → Line → Line
  | width + 1, c :: rest =>
    if c = ' ' then dropIndent width rest
    else if c = '\t' then
      if width < 3 then List.replicate (3 - width) ' ' ++ rest else dropIndent (width - 3) rest
    else c :: rest
  | _, line => line

/-- A line without the blanks behind what is written on it. -/
def trimEnd (line : Line) : Line :=
  Text.dropRightWhile isGap line

/-- What starts a block on a line: what is written on it, unless that is indented too far. -/
def opening? (line : Line) : Option Line :=
  if indent line ≤ 3 && !isBlankLine line then some (unindent line) else none

end Rendition.Markdown
