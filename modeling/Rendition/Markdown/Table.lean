import Rendition.Markdown.Line
import Rendition.Node.Kind

/-!
# Tables of Markdown

A table has a line for its head, a line of dashes and colons below that gives the alignment
of every column, and lines for its rows.  Bars separate the cells of a line, and may stand
at its ends.
-/

namespace Rendition.Markdown

/-- The fields of a line between bars.  A bar behind a backslash is part of a field. -/
def barFields : List Char → List (List Char)
  | [] => [[]]
  | '\\' :: '|' :: rest =>
    match barFields rest with
    | [] => [['|']]
    | field :: others => ('|' :: field) :: others
  | c :: rest =>
    if c = '|' then [] :: barFields rest
    else
      match barFields rest with
      | [] => [[c]]
      | field :: others => (c :: field) :: others

/-- The cells of a line, without the blanks around them. -/
def cellsOf (line : Line) : List (List Char) :=
  let fields := barFields (Text.strip isGap line)
  let fields := if fields.head? = some [] then fields.tail else fields
  let fields := if fields.getLast? = some [] then fields.dropLast else fields
  fields.map (Text.strip isBlank)

/-- The alignment that a cell of the line below the head gives: left if a colon is the first
mark in it, right if there is one further on, and center if both are there. -/
def alignmentOf (cell : List Char) : Alignment :=
  match cell.filter (· ≠ ' ') with
  | [] => .none
  | first :: rest =>
    match decide (first = ':'), rest.contains ':' with
    | false, false => .none
    | true, false => .left
    | false, true => .right
    | true, true => .center

/-- The alignments that the line below the head of a table gives.  There is a bar behind every
column but the last, and a dash in front of the bar. -/
def alignmentsOf? (line : Line) : Option (List Alignment) :=
  (opening? line).bind fun opening =>
    let marks := opening.filter (· ≠ '\n')
    let fields := Text.fields (· = '|') (if marks.head? = some '|' then marks.tail else marks)
    let closed := fields.dropLast
    let last := (fields.getLast?.getD []).filter (· ≠ ' ')
    if closed ≠ [] && marks.all (fun c => [' ', '-', ':', '|'].contains c) &&
        closed.all (·.contains '-') then
      some ((if last = [] then closed else closed ++ [last]).map alignmentOf)
    else
      none

/-- The alignments of the columns, if two lines are the head of a table and the line below. -/
def alignments? (head line : Line) : Option (List Alignment) :=
  (alignmentsOf? line).filter fun alignments =>
    head.contains '|' && alignments.length = (cellsOf head).length

/-- The cells of a row, as many as there are columns. -/
def rowOf (columns : Nat) (line : Line) : List (List Char) :=
  let cells := cellsOf line
  cells.take columns ++ List.replicate (columns - cells.length) []

end Rendition.Markdown
