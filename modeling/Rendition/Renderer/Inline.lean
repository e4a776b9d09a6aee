import Rendition.Renderer.Basic

/-!
# Renderers of inline content

Runs of text, code and raw markup need their text.  Links and images without a
destination, and task markers without a state, are rendered as what is left of them,
with a warning; in strict mode they are refused.
-/

namespace Rendition.Renderer

/-- Runs of text. -/
def text : Renderer :=
  forKind "TextRenderer" .text fun node => .withText node fun text => .leaf (.text text)

/-- Inline code. -/
def code : Renderer :=
  forKind "InlineCodeRenderer" .code fun node => .withText node fun text => .leaf (.code text)

/-- Raw markup, passed through. -/
def html : Renderer :=
  forKind "HtmlRenderer" .html fun node => .withText node fun text => .leaf (.rawHtml text)

/-- Nodes of a kind as runs of one style. -/
def styled (kind : NodeKind) (style : InlineStyle) : Renderer :=
  forKind "StyledRunRenderer" kind (.encloseChildren (.span style))

/-- A title, unless it is empty. -/
def shownTitle (node : Node) : Option String :=
  node.attrs.title.filter (· ≠ "")

/-- Links.  Without a destination, only what the link holds is left. -/
def link : Renderer :=
  forKind "LinkRenderer" .link fun node =>
    match node.attrs.destination with
    | some destination => .encloseChildren (.hyperlink destination (shownTitle node)) node
    | none => .seq (.degrade node .linkWithoutDestination) (.children node)

/-- Images, with the node's text as alternative text.  Without a destination, only
that text is left. -/
def image : Renderer :=
  forKind "ImageRenderer" .image fun node =>
    let alt := node.attrs.text.getD ""
    match node.attrs.destination with
    | some source => .leaf (.image source alt (shownTitle node))
    | none =>
      .seq (.degrade node .imageWithoutDestination)
        (if alt = "" then .skip else .leaf (.text alt))

/-- Soft line breaks. -/
def softBreak : Renderer :=
  forKind "BreakRenderer" .softBreak fun _ => .leaf .softBreak

/-- Hard line breaks. -/
def hardBreak : Renderer :=
  forKind "BreakRenderer" .hardBreak fun _ => .leaf .lineBreak

/-- Task list markers.  Without a state, a marker counts as unchecked. -/
def taskListMarker : Renderer :=
  forKind "TaskListMarkerRenderer" .taskListMarker fun node =>
    match node.attrs.checked with
    | some checked => .leaf (.checkbox checked)
    | none => .seq (.degrade node .markerWithoutState) (.leaf (.checkbox false))

end Rendition.Renderer
