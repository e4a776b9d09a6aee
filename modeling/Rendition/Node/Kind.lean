import Std.Data.ExtTreeMap

/-!
# Kinds of document nodes

A document is a tree of nodes, and every node has a **kind**.  There is a closed
list of built-in kinds and an open family of custom ones, told apart by name.
The kind is the key under which renderers are registered, so kinds are totally
ordered: the built-in ones as declared, then the custom ones by name.
-/

namespace Rendition

/-- What a document node is. -/
inductive NodeKind where
  | document
  | paragraph
  | heading
  | blockQuote
  | list
  | listItem
  | codeBlock
  | thematicBreak
  | table
  | tableHead
  | tableRow
  | tableCell
  | definitionList
  | definitionTitle
  | definitionDetails
  | text
  | code
  | emphasis
  | strong
  | strikethrough
  | superscript
  | subscript
  | link
  | image
  | softBreak
  | hardBreak
  | taskListMarker
  | html
  /-- A kind that the host application brings along. -/
  | custom (name : String)
  deriving DecidableEq, Repr, Inhabited

namespace NodeKind

/-- The built-in kinds in declaration order. -/
def builtins : List NodeKind :=
  [document, paragraph, heading, blockQuote, list, listItem, codeBlock, thematicBreak,
    table, tableHead, tableRow, tableCell, definitionList, definitionTitle,
    definitionDetails, text, code, emphasis, strong, strikethrough, superscript,
    subscript, link, image, softBreak, hardBreak, taskListMarker, html]

/-- The short name that paths and messages show.  A custom kind shows its own
name, which may be that of a built-in kind. -/
def name : NodeKind → String
  | document => "document"
  | paragraph => "paragraph"
  | heading => "heading"
  | blockQuote => "blockquote"
  | list => "list"
  | listItem => "item"
  | codeBlock => "code_block"
  | thematicBreak => "thematic_break"
  | table => "table"
  | tableHead => "table_head"
  | tableRow => "table_row"
  | tableCell => "table_cell"
  | definitionList => "definition_list"
  | definitionTitle => "definition_title"
  | definitionDetails => "definition_details"
  | text => "text"
  | code => "code"
  | emphasis => "emphasis"
  | strong => "strong"
  | strikethrough => "strikethrough"
  | superscript => "superscript"
  | subscript => "subscript"
  | link => "link"
  | image => "image"
  | softBreak => "soft_break"
  | hardBreak => "hard_break"
  | taskListMarker => "task_list_marker"
  | html => "html"
  | custom name => name

instance : ToString NodeKind := ⟨name⟩

/-- The identifier a kind has in data: its name, except for the two kinds whose
name is shortened. -/
def ident : NodeKind → String
  | blockQuote => "block_quote"
  | listItem => "list_item"
  | kind => kind.name

def isCustom : NodeKind → Bool
  | custom _ => true
  | _ => false

/-- The built-in kind of an identifier. -/
def ofIdent? (ident : String) : Option NodeKind :=
  builtins.find? (·.ident = ident)

/-- Position among the built-in kinds; every custom kind comes after them. -/
def rank (kind : NodeKind) : Nat :=
  builtins.idxOf kind

/-- The name of a custom kind, and nothing for a built-in one. -/
def customName : NodeKind → String
  | custom name => name
  | _ => ""

/-- Where a kind stands among the built-in ones, if it is one. -/
def builtinPosition? (kind : NodeKind) : Option Nat :=
  if kind.isCustom then none else some kind.rank

/-- Kinds are ordered by declaration, custom ones last and by their names. -/
instance : Ord NodeKind :=
  ⟨compareLex (compareOn rank) (compareOn customName)⟩

theorem compare_def :
    (compare : NodeKind → NodeKind → Ordering) =
      compareLex (compareOn rank) (compareOn customName) := rfl

/-- The kind with a given rank and custom name. -/
def ofRank (rank : Nat) (name : String) : NodeKind :=
  builtins.getD rank (custom name)

/-- Rank and custom name determine the kind. -/
theorem ofRank_rank (kind : NodeKind) : ofRank kind.rank kind.customName = kind := by
  cases kind <;> rfl

instance : Std.TransOrd NodeKind :=
  inferInstanceAs (Std.TransCmp (compareLex (compareOn rank) (compareOn customName)))

instance : Std.LawfulEqOrd NodeKind where
  eq_of_compare {a b} h := by
    rw [compare_def, compareLex_eq_eq] at h
    have hrank : a.rank = b.rank := Std.LawfulEqOrd.eq_of_compare h.1
    have hname : a.customName = b.customName := Std.LawfulEqOrd.eq_of_compare h.2
    rw [← ofRank_rank a, ← ofRank_rank b, hrank, hname]

end NodeKind

/-- Flavour of a block quote that is set off as an alert. -/
inductive AlertKind where
  | note
  | tip
  | important
  | warning
  | caution
  deriving DecidableEq, Repr

namespace AlertKind

/-- Lower-case identifier, as style classes use it. -/
def ident : AlertKind → String
  | note => "note"
  | tip => "tip"
  | important => "important"
  | warning => "warning"
  | caution => "caution"

/-- The title a reader sees. -/
def title : AlertKind → String
  | note => "Note"
  | tip => "Tip"
  | important => "Important"
  | warning => "Warning"
  | caution => "Caution"

def all : List AlertKind := [note, tip, important, warning, caution]

end AlertKind

/-- Horizontal alignment of a table column. -/
inductive Alignment where
  | none
  | left
  | center
  | right
  deriving DecidableEq, Repr, Inhabited

namespace Alignment

def ident : Alignment → String
  | none => "none"
  | left => "left"
  | center => "center"
  | right => "right"

def all : List Alignment := [none, left, center, right]

end Alignment

end Rendition
