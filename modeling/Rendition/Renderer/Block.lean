import Rendition.Renderer.Basic

/-!
# Renderers of blocks

Of these only headings have input that they refuse: a heading needs a level from 1
to 6.  A code block is rendered from its text alone, and its children are ignored.
-/

namespace Rendition.Renderer

/-- Renders nodes of a kind as containers without attributes of their own. -/
def container (kind : NodeKind) (container : ContainerKind) : Renderer :=
  forKind "ContainerRenderer" kind (.encloseChildren container)

/-- Headings; the attribute `id` is the anchor the author chose. -/
def heading : Renderer :=
  forKind "HeadingRenderer" .heading fun node =>
    match node.attrs.level with
    | none => .reject node .missingLevel
    | some level =>
      if 1 ≤ level ∧ level ≤ 6 then
        .encloseChildren (.heading level (node.attrs.extra["id"]?)) node
      else
        .reject node (.levelOutOfRange level)

/-- Block quotes, alerts among them. -/
def blockQuote : Renderer :=
  forKind "BlockQuoteRenderer" .blockQuote fun node =>
    .encloseChildren (.quote node.attrs.alert) node

/-- Bullet lists and ordered lists. -/
def list : Renderer :=
  forKind "ListRenderer" .list fun node => .encloseChildren (.list node.attrs.start) node

/-- Code blocks, as a container with the code in one text leaf; without code it
stays empty. -/
def codeBlock : Renderer :=
  forKind "CodeBlockRenderer" .codeBlock fun node =>
    .enclose (.codeBlock node.attrs.language) <|
      match node.attrs.text with
      | none | some "" => .skip
      | some code => .leaf (.text code)

/-- Thematic breaks. -/
def thematicBreak : Renderer :=
  forKind "ThematicBreakRenderer" .thematicBreak fun _ => .leaf .rule

/-- Table cells.  A cell directly in the head of a table is a header cell. -/
def tableCell : Renderer :=
  forKind "TableCellRenderer" .tableCell fun node =>
    .look fun view =>
      .encloseChildren
        (.tableCell (view.current = some .tableHead) (node.attrs.align.getD .none)) node

end Rendition.Renderer
