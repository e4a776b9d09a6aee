import Rendition.Node.Kind

/-!
# What rich text is made of

Rich text is a tree of containers with leaves in it.  This module holds the
vocabulary: what a container can stand for (`ContainerKind`) and what a leaf can
carry (`Leaf`).
-/

namespace Rendition

/-- The style of a run of inline content. -/
inductive InlineStyle where
  | emphasis
  | strong
  | strikethrough
  | superscript
  | subscript
  deriving DecidableEq, Repr

namespace InlineStyle

def ident : InlineStyle → String
  | emphasis => "emphasis"
  | strong => "strong"
  | strikethrough => "strikethrough"
  | superscript => "superscript"
  | subscript => "subscript"

def all : List InlineStyle := [emphasis, strong, strikethrough, superscript, subscript]

end InlineStyle

/-- What a container stands for. -/
inductive ContainerKind where
  | document
  | paragraph
  /-- A heading, with the anchor its author gave it, if any. -/
  | heading (level : Nat) (id : Option String)
  | quote (alert : Option AlertKind)
  | list (start : Option Nat)
  | listItem
  | codeBlock (language : Option String)
  | table
  | tableHead
  | tableRow
  | tableCell (header : Bool) (align : Alignment)
  | definitionList
  | definitionTitle
  | definitionDetails
  | span (style : InlineStyle)
  | hyperlink (destination : String) (title : Option String)
  /-- A container that only a host's own renderers produce. -/
  | custom (name : String)
  deriving DecidableEq, Repr

/-- The name that reports on open containers show. -/
def ContainerKind.name : ContainerKind → String
  | document => "document"
  | paragraph => "paragraph"
  | heading .. => "heading"
  | quote _ => "quote"
  | list _ => "list"
  | listItem => "list_item"
  | codeBlock _ => "code_block"
  | table => "table"
  | tableHead => "table_head"
  | tableRow => "table_row"
  | tableCell .. => "table_cell"
  | definitionList => "definition_list"
  | definitionTitle => "definition_title"
  | definitionDetails => "definition_details"
  | span _ => "span"
  | hyperlink .. => "hyperlink"
  | custom name => name

/-- Content that holds nothing further. -/
inductive Leaf where
  | text (text : String)
  | code (code : String)
  | lineBreak
  | softBreak
  | rule
  | image (source alt : String) (title : Option String)
  | checkbox (checked : Bool)
  | rawHtml (html : String)
  deriving DecidableEq, Repr

/-- What a leaf adds to the plain text: a space for a break, the alternative text
for an image, and nothing for rules, checkboxes and raw markup. -/
def Leaf.plainText : Leaf → String
  | .text content | .code content => content
  | .image _ alt _ => alt
  | .lineBreak | .softBreak => " "
  | .rule | .checkbox _ | .rawHtml _ => ""

end Rendition
