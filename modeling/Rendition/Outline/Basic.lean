import Rendition.Element.Basic
import Rendition.Outline.Anchors

/-!
# Outline of a document

The title and the table of contents are read off the headings of the rich text, in
the order in which they open.  Every heading takes its id in turn, also one that
becomes the title, so that the ids are those that the headings have in markup.
-/

namespace Rendition

/-- An entry of the table of contents. -/
structure Outline.Entry where
  level : Nat
  title : String
  id : String
  deriving DecidableEq, Repr

/-- Title and table of contents. -/
structure Outline where
  title : Option String := none
  toc : List Outline.Entry := []
  deriving DecidableEq, Repr

/-- The text of a heading, without white space at its ends. -/
def Container.headingText (heading : Container) : String :=
  String.ofList (Text.trimWhite heading.plainText.toList)

namespace Outline

/-- Adds a heading: as the title if one is to be extracted and it is the first of
level 1, and to the table of contents otherwise. -/
def add (extractTitle : Bool) (outline : Outline) (entry : Outline.Entry) : Outline :=
  if extractTitle && entry.level = 1 && outline.title.isNone then
    { outline with title := some entry.title }
  else
    { outline with toc := outline.toc ++ [entry] }

/-- The headings among containers, each with its id. -/
def entries (ids : Anchors) : List Container → List Outline.Entry
  | [] => []
  | container :: rest =>
    match container.kind with
    | .heading level explicit =>
      let text := container.headingText
      let (id, after) := ids.assign explicit text
      ⟨level, text, id⟩ :: entries after rest
    | _ => entries ids rest

/-- The outline of rich text. -/
def ofRoot (root : Container) (extractTitle : Bool) : Outline :=
  (entries {} root.walk.toList).foldl (add extractTitle) {}

end Outline
end Rendition
