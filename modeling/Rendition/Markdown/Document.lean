import Rendition.Markdown.Block
import Rendition.Markdown.Inline

/-!
# Documents of Markdown

`events` reports a text as a parser does: the blocks of the text from the first to the last,
with the events of what is in them.
-/

namespace Rendition.Markdown

/-- The content of a paragraph, behind the box of a task if there is one. -/
def paragraphEvents (extensions : Extensions) (task : Option Bool) (content : List Char) :
    List Event :=
  task.toList.map .task ++ inlines extensions (unindent content)

/-- The info string of a fence. -/
def infoText (info : Line) : String :=
  String.ofList (unescape (Text.strip isGap info))

def rowEvents (extensions : Extensions) (cells : List (List Char)) : List Event :=
  cells.flatMap fun cell => Tag.tableCell.enclose (inlines extensions cell)

mutual

/-- The events of a block. -/
def Block.events (extensions : Extensions) : Block → List Event
  | .heading level anchor content =>
    (Tag.heading level anchor).enclose (inlines extensions content)
  | .rule => [.rule]
  | .code info lines =>
    (Tag.codeBlock (info.map infoText)).enclose
      (lines.map fun line => .text (String.ofList line))
  | .quote alert blocks => (Tag.blockQuote alert).enclose (blocksEvents extensions blocks)
  | .list start tight items => (Tag.list start).enclose (itemsEvents extensions tight items)
  | .table alignments head rows =>
    (Tag.table alignments).enclose
      (Tag.tableHead.enclose (rowEvents extensions head) ++
        rows.flatMap fun row => Tag.tableRow.enclose (rowEvents extensions row))
  | .paragraph task content => Tag.paragraph.enclose (paragraphEvents extensions task content)
  | .box checked => [.task checked]

/-- The events of blocks. -/
def blocksEvents (extensions : Extensions) : List Block → List Event
  | [] => []
  | block :: rest => block.events extensions ++ blocksEvents extensions rest

/-- The events of what is in an item.  The paragraphs of a tight list are not marked as
such. -/
def itemEvents (extensions : Extensions) (tight : Bool) : List Block → List Event
  | [] => []
  | block :: rest =>
    (match tight, block with
      | true, .paragraph task content => paragraphEvents extensions task content
      | _, block => block.events extensions) ++
    itemEvents extensions tight rest

/-- The events of the items of a list. -/
def itemsEvents (extensions : Extensions) (tight : Bool) : List (List Block) → List Event
  | [] => []
  | blocks :: rest =>
    Tag.item.enclose (itemEvents extensions tight blocks) ++
      itemsEvents extensions tight rest

end

/-- The events of a text. -/
def events (extensions : Extensions) (text : String) : List Event :=
  blocksEvents extensions (Block.ofLines extensions (linesOf (withLineFeeds text.toList)))

end Rendition.Markdown
