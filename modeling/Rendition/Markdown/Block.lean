import Rendition.Markdown.Extensions
import Rendition.Markdown.Item

/-!
# Blocks of Markdown

A text is a sequence of blocks, and the first line of a block says what it is.  Quotes and
the items of lists hold blocks themselves.  `Block.ofLines` reads the part of the language
that plain notes are written in: headings, breaks, code, lists, quotes, tables and
paragraphs.
-/

namespace Rendition.Markdown

/-- A block of a text. -/
inductive Block where
  | heading (level : HeadingLevel) (anchor : Option String) (content : List Char)
  | rule
  /-- Code, with the info string if it is fenced. -/
  | code (info : Option Line) (lines : List Line)
  | quote (alert : Option AlertKind) (blocks : List Block)
  /-- A list.  It is tight if no blank lines separate its items or what is in them. -/
  | list (start : Option Nat) (tight : Bool) (items : List (List Block))
  | table (alignments : List Alignment) (head : List (List Char))
      (rows : List (List (List Char)))
  /-- A paragraph, with the box of a task in front if there is one. -/
  | paragraph (task : Option Bool) (content : List Char)
  /-- The box of a task with nothing behind it. -/
  | box (checked : Bool)

namespace Block

/-- A block in its place: whether blank lines separate it from what is before it. -/
structure Placed where
  isSpaced : Bool
  block : Block

/-- A reader of lines, given the box of a task that stands in front of them. -/
abbrev Reader := Option Bool → List Line → List Placed

/-! ## Text -/

/-- Cuts off the lines that go on with a paragraph. -/
def cutText (extensions : Extensions) : List Line → List Line × List Line
  | [] => ([], [])
  | line :: rest =>
    if isBlankLine line || (underline? line).isSome || interrupts extensions line rest then
      ([], line :: rest)
    else
      let (inside, after) := cutText extensions rest
      (line :: inside, after)

/-- The block whose first lines are not those of any other kind: a table, a heading with a
line of signs below, or a paragraph; and the lines behind it. -/
def ofText (extensions : Extensions) (task : Option Bool) (first : Line) (rest : List Line) :
    Block × List Line :=
  match if extensions.tables then rest.head?.bind (alignments? first) else none with
  | some alignments =>
    let row := rowOf alignments.length
    let below := rest.drop 1
    (.table alignments (row first) ((below.takeWhile isLazy).map row), below.dropWhile isLazy)
  | none =>
    let (inside, after) := cutText extensions rest
    let text := unindent first ++ inside.flatten
    match after.head?.bind underline? with
    | some level =>
      let (written, anchor) := cutAnchor extensions text
      (.heading level anchor written, after.drop 1)
    | none => (.paragraph task text, after)

/-! ## Quotes and lists -/

/-- The alert that the first line of a quote announces. -/
def alert? (line : Line) : Option AlertKind :=
  AlertKind.all.find? fun alert =>
    (trimEnd line).map Char.toUpper = "[!".toList ++ alert.ident.toUpper.toList ++ [']']

/-- A quote or an alert, given its lines and how they are read.  The line that announces an
alert is like one of a paragraph: what does not interrupt a paragraph is text below it. -/
def quoteOf (extensions : Extensions) (task : Option Bool) (read : Reader)
    (lines : List Line) : Block :=
  match if extensions.alerts then lines.head?.bind alert? else none, lines with
  | some alert, _ :: first :: rest =>
    if isBlankLine first || interrupts extensions first rest then
      .quote (some alert) ((read task (first :: rest)).map (·.block))
    else
      let (block, after) := ofText extensions task first rest
      .quote (some alert) (block :: (read none after).map (·.block))
  | some alert, _ => .quote (some alert) []
  | none, _ => .quote none ((read task lines).map (·.block))

/-- The box of a task at the start of an item, and what is behind it.  Only a blank separates
the two; other white space makes text of the box. -/
def task? (content : Line) : Option (Bool × Line) :=
  match content with
  | '[' :: mark :: ']' :: gap :: rest =>
    if isBlank gap && (isBlank mark || mark = 'x' || mark = 'X') then
      some (!isBlank mark, (if isIndent gap then ' ' else gap) :: rest)
    else
      none
  | _ => none

/-- The blocks in an item, given its lines and how they are read. -/
def ofItem (extensions : Extensions) (task : Option Bool) (read : Reader) (lines : List Line) :
    List Placed :=
  match lines with
  | [] => []
  | first :: rest =>
    match if extensions.taskLists then task? first else none with
    | some (checked, after) =>
      if isBlankLine after then ⟨false, .box checked⟩ :: read none rest
      else read (some checked) (after :: rest)
    | none => read task lines

/-- A list, given its items and how their lines are read. -/
def listOf (extensions : Extensions) (task : Option Bool) (read : Reader) (start : Option Nat)
    (items : List Item) : Block :=
  let contents :=
    (items.take 1).map (fun item => ofItem extensions task read item.lines) ++
      (items.drop 1).map fun item => ofItem extensions none read item.lines
  let tight := !items.dropLast.any (·.isSpaced) &&
    !contents.any fun blocks => blocks.tail.any (·.isSpaced)
  .list start tight (contents.map fun blocks => blocks.map (·.block))

/-! ## Lines -/

/-- The blocks of lines.  Every blank line, every block and everything that holds blocks uses
up a unit of `fuel`; `isSpaced` says that there is a blank line above, and `task` is the box
of a task that waits for a paragraph. -/
def ofLinesWith (extensions : Extensions) :
    (fuel : Nat) → (isSpaced : Bool) → (task : Option Bool) → List Line → List Placed
  | 0, _, _, _ => []
  | _, _, _, [] => []
  | fuel + 1, isSpaced, task, line :: rest =>
    let next (task : Option Bool) (block : Block) (rest : List Line) :=
      ⟨isSpaced, block⟩ :: ofLinesWith extensions fuel false task rest
    let read := ofLinesWith extensions fuel false
    if isBlankLine line then ofLinesWith extensions fuel true task rest
    else if (opening? line).isNone then
      let (inside, after) := cutIndented (line :: rest)
      next task (.code none inside) after
    else
      match fence? line, heading? line, insideQuote? line with
      | some fence, _, _ =>
        let (inside, after) := fence.cut rest
        next task (.code (some fence.info) inside) after
      | none, some (level, content), _ =>
        let (written, anchor) := cutAnchor extensions content
        next task (.heading level anchor (cutClosing written)) rest
      | none, none, some _ =>
        let (inside, after) := cutInside insideQuote? false (line :: rest)
        next none (quoteOf extensions task read inside) after
      | none, none, none =>
        if isRule line then next task .rule rest
        else
          match marker? line with
          | some marker =>
            let (items, after) := cutItems marker.kind (rest.length + 1) (line :: rest)
            next none (listOf extensions task read marker.number items) after
          | none =>
            let (block, after) := ofText extensions task line rest
            next none block after

/-- The blocks of lines.  Each of them takes at least one character. -/
def ofLines (extensions : Extensions) (lines : List Line) : List Block :=
  let size := lines.foldl (fun size line => size + line.length + 1) 1
  (ofLinesWith extensions size false none lines).map (·.block)

end Block
end Rendition.Markdown
