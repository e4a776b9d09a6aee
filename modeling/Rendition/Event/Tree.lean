import Rendition.Event.Basic
import Rendition.Event.FenceInfo
import Rendition.Node.Text

/-!
# From events to a document tree

A `TreeBuilder` takes the events of a document one by one.  It keeps a stack of
frames, one for each tag that has started and not stopped: most tags build a node,
some hand what is inside them to the node around them, and metadata is skipped
together with everything in it.  Any tag that stops closes the innermost frame,
whatever its name, and frames that are open at the end are closed then, so that every
sequence of events makes a document.
-/

namespace Rendition

/-- A node that is being built, with its children from last to first. -/
structure OpenNode where
  kind : NodeKind
  attrs : Attributes := {}
  newest : List Node := []

namespace OpenNode

/-- Puts away the text for which a node has a place of its own. -/
def appendText (attrs : Attributes) (text : String) : Attributes :=
  { attrs with text := some (attrs.text.getD "" ++ text) }

/-- Adds a child at the end. -/
def append (child : Node) (node : OpenNode) : OpenNode :=
  { node with newest := child :: node.newest }

/-- Adds text.  Code keeps it as its own, and elsewhere it goes on a run of text that
stands last. -/
def addText (text : String) (node : OpenNode) : OpenNode :=
  if node.kind = .codeBlock then
    { node with attrs := appendText node.attrs text }
  else
    match node.newest with
    | .mk .text attrs children :: older =>
      { node with newest := .mk .text (appendText attrs text) children :: older }
    | _ => node.append (.text text)

/-- Adds a soft break, which in code is the end of a line. -/
def addSoftBreak (node : OpenNode) : OpenNode :=
  if node.kind = .codeBlock then
    { node with attrs := appendText node.attrs "\n" }
  else
    node.append (.ofKind .softBreak)

/-- The node as it stands. -/
def toNode (node : OpenNode) : Node :=
  .mk node.kind node.attrs node.newest.reverse

/-- The finished node.  Images keep the text of their content in place of the content
itself. -/
def close (node : OpenNode) : Node :=
  if node.kind = .image then
    .mk .image { node.attrs with text := some node.toNode.plainText } []
  else
    node.toNode

end OpenNode

/-- What a tag that has started does with what follows. -/
inductive Frame where
  /-- Builds a node. -/
  | building (node : OpenNode)
  /-- Leaves it to the frame around. -/
  | passing
  /-- Drops it. -/
  | skipping

/-- The columns of the table that was started last, and where in a row of it one is. -/
structure TableCursor where
  alignments : List Alignment := []
  cell : Nat := 0

/-- The alignment of the cell that comes next. -/
def TableCursor.alignment (cursor : TableCursor) : Alignment :=
  cursor.alignments[cursor.cell]?.getD .none

/-- A document that is being built. -/
structure TreeBuilder where
  root : OpenNode := { kind := .document }
  /-- The open frames, innermost first. -/
  frames : List Frame := []
  table : TableCursor := {}
  /-- How many frames are skipped ones. -/
  skipped : Nat := 0

namespace TreeBuilder

/-- Changes the innermost node that is being built, if there is one. -/
def modifyInnermost? (f : OpenNode → OpenNode) : List Frame → Option (List Frame)
  | [] => none
  | .building node :: outer => some (.building (f node) :: outer)
  | frame :: outer => (modifyInnermost? f outer).map (frame :: ·)

/-- Changes the innermost node that is being built, which is the root if no other is. -/
def modifyCurrent (f : OpenNode → OpenNode) (builder : TreeBuilder) : TreeBuilder :=
  match modifyInnermost? f builder.frames with
  | some frames => { builder with frames }
  | none => { builder with root := f builder.root }

def append (child : Node) (builder : TreeBuilder) : TreeBuilder :=
  builder.modifyCurrent (·.append child)

def openNode (kind : NodeKind) (attrs : Attributes) (builder : TreeBuilder) : TreeBuilder :=
  { builder with frames := .building { kind, attrs } :: builder.frames }

def openPassing (builder : TreeBuilder) : TreeBuilder :=
  { builder with frames := .passing :: builder.frames }

def openSkipping (builder : TreeBuilder) : TreeBuilder :=
  { builder with frames := .skipping :: builder.frames, skipped := builder.skipped + 1 }

/-- Closes the innermost frame, if any is open. -/
def close (builder : TreeBuilder) : TreeBuilder :=
  match builder.frames with
  | [] => builder
  | .building node :: outer => { builder with frames := outer }.append node.close
  | .passing :: outer => { builder with frames := outer }
  | .skipping :: outer => { builder with frames := outer, skipped := builder.skipped - 1 }

/-- The attributes of a code block.  An empty language is none. -/
def codeAttrs (fence : Option String) : Attributes :=
  match fence with
  | none => { text := some "" }
  | some info =>
    let parsed := FenceInfo.parse info
    { text := some ""
      language := if parsed.language = "" then none else some parsed.language
      extra := parsed.attributes }

/-- The attributes of a link or image.  An empty title is none. -/
def targetAttrs (destination title : String) : Attributes :=
  { destination := some destination, title := if title = "" then none else some title }

/-- Puts the cursor at the start of a row. -/
def startRow (builder : TreeBuilder) : TreeBuilder :=
  { builder with table := { builder.table with cell := 0 } }

/-- Moves the cursor on to the next cell. -/
def nextCell (builder : TreeBuilder) : TreeBuilder :=
  { builder with table := { builder.table with cell := builder.table.cell + 1 } }

/-- Takes the start of a tag. -/
def start (builder : TreeBuilder) : Tag → TreeBuilder
  | .paragraph => builder.openNode .paragraph {}
  | .heading level id =>
    builder.openNode .heading
      { level := some level.number, extra := (id.map fun id => (∅ : ExtraAttrs).insert "id" id).getD ∅ }
  | .blockQuote alert => builder.openNode .blockQuote { alert }
  | .codeBlock fence => builder.openNode .codeBlock (codeAttrs fence)
  | .htmlBlock | .footnote _ => builder.openPassing
  | .list start => builder.openNode .list { start }
  | .item => builder.openNode .listItem {}
  | .definitionList => builder.openNode .definitionList {}
  | .definitionTitle => builder.openNode .definitionTitle {}
  | .definitionDetails => builder.openNode .definitionDetails {}
  | .table alignments => { builder with table := { alignments } }.openNode .table {}
  | .tableHead => builder.startRow.openNode .tableHead {}
  | .tableRow => builder.startRow.openNode .tableRow {}
  | .tableCell => builder.openNode .tableCell { align := some builder.table.alignment }
  | .emphasis => builder.openNode .emphasis {}
  | .strong => builder.openNode .strong {}
  | .strikethrough => builder.openNode .strikethrough {}
  | .superscript => builder.openNode .superscript {}
  | .subscript => builder.openNode .subscript {}
  | .link destination title => builder.openNode .link (targetAttrs destination title)
  | .image destination title => builder.openNode .image (targetAttrs destination title)
  | .metadata => builder.openSkipping

/-- Takes the stop of a tag. -/
def stop (builder : TreeBuilder) (tag : TagKind) : TreeBuilder :=
  (if tag = .tableCell then builder.nextCell else builder).close

/-- Takes an event outside of metadata. -/
def take (builder : TreeBuilder) : Event → TreeBuilder
  | .start tag => builder.start tag
  | .stop tag => builder.stop tag
  | .text content => builder.modifyCurrent (·.addText content)
  | .code content => builder.append ((Node.ofKind .code).withText content)
  | .html content | .inlineHtml content => builder.append ((Node.ofKind .html).withText content)
  | .footnoteRef _ | .inlineMath _ | .displayMath _ => builder
  | .softBreak => builder.modifyCurrent (·.addSoftBreak)
  | .hardBreak => builder.append (.ofKind .hardBreak)
  | .rule => builder.append (.ofKind .thematicBreak)
  | .task checked => builder.append ((Node.ofKind .taskListMarker).withChecked checked)

/-- Takes an event inside of metadata, of which only the nesting matters. -/
def pass (builder : TreeBuilder) : Event → TreeBuilder
  | .start _ => builder.openSkipping
  | .stop _ => builder.close
  | _ => builder

/-- Takes an event. -/
def step (builder : TreeBuilder) (event : Event) : TreeBuilder :=
  if builder.skipped = 0 then builder.take event else builder.pass event

/-- Closes all frames that are still open. -/
def closeAll (builder : TreeBuilder) : TreeBuilder :=
  builder.frames.foldl (fun current _ => current.close) builder

/-- The document built so far. -/
def finish (builder : TreeBuilder) : Node :=
  builder.closeAll.root.toNode

end TreeBuilder

/-- The document that a sequence of events describes. -/
def Node.ofEvents (events : List Event) : Node :=
  (events.foldl TreeBuilder.step {}).finish

end Rendition
