import Rendition.Outline.Slug
import Std.Data.ExtTreeMap

/-!
# Anchors of headings

Every heading of a document gets an id that links can point to: the one its author
chose, or else the slug of its text.  `Anchors` counts for every base how many
headings have used it, and all but the first that make do with the slug get the
count appended.
-/

namespace Rendition

/-- How often each base has been used in a document. -/
structure Anchors where
  counts : Std.ExtTreeMap String Nat := ∅

namespace Anchors

/-- How many headings have used a base. -/
def count (ids : Anchors) (base : String) : Nat :=
  ids.counts[base]?.getD 0

/-- Counts one more use of a base. -/
def use (ids : Anchors) (base : String) : Anchors :=
  ⟨ids.counts.insert base (ids.count base + 1)⟩

/-- The id of the next heading with a text. -/
def next (ids : Anchors) (text : String) : String × Anchors :=
  let base := slug text
  (match ids.count base with
    | 0 => base
    | n => s!"{base}-{n}", ids.use base)

/-- The id of the next heading: the explicit one as it is, if there is one, and
otherwise one made from the text. -/
def assign (ids : Anchors) (explicit : Option String) (text : String) : String × Anchors :=
  match explicit with
  | some id => (id, ids.use id)
  | none => ids.next text

/-- A heading that asks for an id. -/
structure Request where
  explicit : Option String
  text : String

/-- The ids of headings in order. -/
def assignAll (ids : Anchors) : List Request → List String
  | [] => []
  | request :: rest =>
    let (id, after) := ids.assign request.explicit request.text
    id :: after.assignAll rest

end Anchors
end Rendition
