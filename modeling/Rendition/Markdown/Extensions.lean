/-!
# Dialects of Markdown

What a reader of Markdown accepts beyond the core of the language, and the dialects that
are made of it.
-/

namespace Rendition.Markdown

/-- What a reader of Markdown accepts beyond the core of the language. -/
structure Extensions where
  tables : Bool := false
  strikethrough : Bool := false
  taskLists : Bool := false
  /-- Block quotes that are alerts. -/
  alerts : Bool := false
  /-- Anchors behind headings. -/
  headingAttributes : Bool := false
  deriving DecidableEq, Repr

namespace Extensions

/-- The dialect of source forges, without or with anchors. -/
def forge (headingAttributes : Bool) : Extensions :=
  ⟨true, true, true, true, headingAttributes⟩

/-- The core language, without or with anchors. -/
def core (headingAttributes : Bool) : Extensions :=
  { headingAttributes }

/-- The names of the extensions in use. -/
def names (extensions : Extensions) : List String :=
  [("tables", extensions.tables), ("strikethrough", extensions.strikethrough),
      ("tasklists", extensions.taskLists), ("gfm", extensions.alerts),
      ("heading_attributes", extensions.headingAttributes)].filterMap
    fun (name, used) => if used then some name else none

end Extensions
end Rendition.Markdown
