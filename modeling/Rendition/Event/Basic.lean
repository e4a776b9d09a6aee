import Rendition.Node.Kind

/-!
# Parser events

A parser reports a document as a flat sequence of events: tags that start and stop,
and single events in between.  `TagKind` names the tags, and `Tag` adds what is known
when one starts.
-/

namespace Rendition

/-- The names of tags. -/
inductive TagKind where
  | paragraph
  | heading
  | blockQuote
  | codeBlock
  | htmlBlock
  | list
  | item
  | footnote
  | definitionList
  | definitionTitle
  | definitionDetails
  | table
  | tableHead
  | tableRow
  | tableCell
  | emphasis
  | strong
  | strikethrough
  | superscript
  | subscript
  | link
  | image
  | metadata
  deriving DecidableEq, Repr

/-- The level of a heading in a source text, from 1 to 6. -/
structure HeadingLevel where
  number : Nat
  one_le : 1 ≤ number
  le_six : number ≤ 6
  deriving DecidableEq, Repr

namespace HeadingLevel

/-- The level of titles. -/
def first : HeadingLevel :=
  ⟨1, Nat.le_of_ble_eq_true rfl, Nat.le_of_ble_eq_true rfl⟩

/-- The level below that of titles. -/
def second : HeadingLevel :=
  ⟨2, Nat.le_of_ble_eq_true rfl, Nat.le_of_ble_eq_true rfl⟩

instance : Inhabited HeadingLevel := ⟨first⟩

/-- The level of a number, if there is one. -/
def ofNat? (number : Nat) : Option HeadingLevel :=
  if h : 1 ≤ number ∧ number ≤ 6 then some ⟨number, h.1, h.2⟩ else none

end HeadingLevel

/-- A tag that starts. -/
inductive Tag where
  | paragraph
  | heading (level : HeadingLevel) (id : Option String)
  | blockQuote (alert : Option AlertKind)
  /-- Code, with the info string if it is fenced. -/
  | codeBlock (fence : Option String)
  | htmlBlock
  | list (start : Option Nat)
  | item
  /-- The definition of a footnote. -/
  | footnote (label : String)
  | definitionList
  | definitionTitle
  | definitionDetails
  | table (alignments : List Alignment)
  | tableHead
  | tableRow
  | tableCell
  | emphasis
  | strong
  | strikethrough
  | superscript
  | subscript
  | link (destination title : String)
  | image (destination title : String)
  /-- Data about the document, not part of its text. -/
  | metadata
  deriving DecidableEq, Repr

def Tag.kind : Tag → TagKind
  | paragraph => .paragraph
  | heading .. => .heading
  | blockQuote _ => .blockQuote
  | codeBlock _ => .codeBlock
  | htmlBlock => .htmlBlock
  | list _ => .list
  | item => .item
  | footnote _ => .footnote
  | definitionList => .definitionList
  | definitionTitle => .definitionTitle
  | definitionDetails => .definitionDetails
  | table _ => .table
  | tableHead => .tableHead
  | tableRow => .tableRow
  | tableCell => .tableCell
  | emphasis => .emphasis
  | strong => .strong
  | strikethrough => .strikethrough
  | superscript => .superscript
  | subscript => .subscript
  | link .. => .link
  | image .. => .image
  | metadata => .metadata

/-- What a parser reports. -/
inductive Event where
  | start (tag : Tag)
  | stop (tag : TagKind)
  | text (content : String)
  | code (content : String)
  | html (content : String)
  | inlineHtml (content : String)
  | footnoteRef (label : String)
  | inlineMath (content : String)
  | displayMath (content : String)
  | softBreak
  | hardBreak
  | rule
  /-- The box of a task. -/
  | task (checked : Bool)
  deriving DecidableEq, Repr

/-- The events of what a tag encloses, between its start and its stop. -/
def Tag.enclose (tag : Tag) (inner : List Event) : List Event :=
  .start tag :: inner ++ [.stop tag.kind]

end Rendition
