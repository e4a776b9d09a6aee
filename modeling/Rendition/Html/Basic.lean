import Rendition.Html.Link
import Rendition.Html.Markup
import Rendition.Outline.Basic

/-!
# Rich text as HTML

Each container is written as an opening and a closing part around what it holds, and
each leaf as pieces of its own (`Element.markup`).  Headings take their ids in the
order in which they open.  In a table, everything from the first row on is the body.
-/

namespace Rendition

namespace Html

/-- A tag without attributes. -/
def bare (name : String) : Piece :=
  .openTag name []

/-- A tag with attributes that all have values. -/
def tag (name : String) (attributes : List (String × String)) : Piece :=
  .openTag name (attributes.map fun (key, value) => ⟨key, some value⟩)

/-- The attribute of a title, if there is one. -/
def titleAttr (title : Option String) : List (String × String) :=
  (title.map fun text => ("title", text)).toList

/-- The element that shows an inline style. -/
def styleTag : InlineStyle → String
  | .emphasis => "em"
  | .strong => "strong"
  | .strikethrough => "del"
  | .superscript => "sup"
  | .subscript => "sub"

/-- The attribute that aligns a table cell. -/
def alignAttr : Alignment → List (String × String)
  | .none => []
  | align => [("style", s!"text-align:{align.ident}")]

/-- The element of a table cell. -/
def cellTag (header : Bool) : String :=
  if header then "th" else "td"

/-- The first number of an ordered list, unless that is 1. -/
def startAttr (start : Nat) : List (String × String) :=
  if start = 1 then [] else [("start", toString start)]

/-- What stands before the content of a container.  `anchor` is the id of a heading,
and links are resolved if there is a base. -/
def opening (base : Option String) (anchor : String) : ContainerKind → List Piece
  | .document => []
  | .paragraph => [bare "p"]
  | .heading level _ => [tag s!"h{level}" [("id", anchor)]]
  | .quote none => [bare "blockquote"]
  | .quote (some alert) =>
    [tag "div" [("class", s!"alert alert-{alert.ident}")],
      tag "div" [("class", "alert-title")], .text alert.title, .closeTag "div",
      tag "div" [("class", "alert-content")]]
  | .list none => [bare "ul"]
  | .list (some start) => [tag "ol" (startAttr start)]
  | .listItem => [bare "li"]
  | .codeBlock none => [bare "pre", bare "code"]
  | .codeBlock (some language) => [bare "pre", tag "code" [("class", s!"language-{language}")]]
  | .table => [bare "table"]
  | .tableHead => [bare "thead", bare "tr"]
  | .tableRow => [bare "tr"]
  | .tableCell header align => [tag (cellTag header) (alignAttr align)]
  | .definitionList => [bare "dl"]
  | .definitionTitle => [bare "dt"]
  | .definitionDetails => [bare "dd"]
  | .span style => [bare (styleTag style)]
  | .hyperlink destination title =>
    let href := (base.map (resolveLink destination)).getD destination
    [tag "a" (("href", href) :: titleAttr title)]
  | .custom name => [tag "div" [("data-kind", name)]]

/-- What stands after the content of a container. -/
def closing : ContainerKind → List Piece
  | .document => []
  | .paragraph => [.closeTag "p"]
  | .heading level _ => [.closeTag s!"h{level}"]
  | .quote none => [.closeTag "blockquote"]
  | .quote (some _) => [.closeTag "div", .closeTag "div"]
  | .list none => [.closeTag "ul"]
  | .list (some _) => [.closeTag "ol"]
  | .listItem => [.closeTag "li"]
  | .codeBlock _ => [.closeTag "code", .closeTag "pre"]
  | .table => [.closeTag "table"]
  | .tableHead => [.closeTag "tr", .closeTag "thead"]
  | .tableRow => [.closeTag "tr"]
  | .tableCell header _ => [.closeTag (cellTag header)]
  | .definitionList => [.closeTag "dl"]
  | .definitionTitle => [.closeTag "dt"]
  | .definitionDetails => [.closeTag "dd"]
  | .span style => [.closeTag (styleTag style)]
  | .hyperlink .. => [.closeTag "a"]
  | .custom _ => [.closeTag "div"]

end Html

open Html

/-- The markup of a leaf. -/
def Leaf.markup : Leaf → List Piece
  | .text content => [.text content]
  | .code content => [bare "code", .text content, .closeTag "code"]
  | .lineBreak => [bare "br"]
  | .softBreak => [.text "\n"]
  | .rule => [bare "hr"]
  | .image source alt title => [tag "img" (("src", source) :: titleAttr title ++ [("alt", alt)])]
  | .checkbox checked =>
    [.openTag "input" (⟨"type", some "checkbox"⟩ ::
        (if checked then [⟨"checked", none⟩] else []) ++ [⟨"disabled", none⟩]),
      .text " "]
  | .rawHtml html => [.raw html]

/-- The id of a container that opens, if it is a heading, and the ids used after it. -/
def Container.anchor (container : Container) (ids : Anchors) : String × Anchors :=
  match container.kind with
  | .heading _ explicit => ids.assign explicit container.headingText
  | _ => ("", ids)

namespace Element

/-- Whether the element is a row of a table's body. -/
def isTableRow : Element → Bool
  | .container .tableRow _ => true
  | _ => false

mutual

/-- The markup of an element, and the ids used after it. -/
def markup (base : Option String) : Element → Anchors → List Piece × Anchors
  | .leaf content, ids => (content.markup, ids)
  | .container kind children, ids =>
    let (anchor, opened) := (Container.mk kind children).anchor ids
    let (inner, after) := markupAll base (kind = .table) children opened
    (opening base anchor kind ++ inner ++ closing kind, after)

/-- The markup of elements in order.  With `bodyAhead`, the first row among them opens
the body of a table, which ends with the last element. -/
def markupAll (base : Option String) (bodyAhead : Bool) :
    List Element → Anchors → List Piece × Anchors
  | [], ids => ([], ids)
  | element :: rest, ids =>
    let opensBody := bodyAhead && element.isTableRow
    let (first, between) := element.markup base ids
    let (others, after) := markupAll base (bodyAhead && !opensBody) rest between
    if opensBody then
      (bare "tbody" :: first ++ others ++ [.closeTag "tbody"], after)
    else
      (first ++ others, after)

end

end Element

/-- Rich text as HTML.  With a base, links to other source files are resolved. -/
def Container.toHtml (root : Container) (base : Option String) : String :=
  Html.print (root.toElement.markup base {}).1

end Rendition
