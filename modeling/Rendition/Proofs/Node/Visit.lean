import Rendition.Node.Basic
import Rendition.Render.Error

/-!
# The nodes of a document and where they are

`Node.visits` lists the nodes of a document with their paths, in document order: a node
before its children.  Nothing below a code block is listed, because nothing of it is
rendered.  A path in the list leads to the node that it stands with (`Node.at?_of_visit`).
-/

namespace Rendition

/-- A node of a document and where it is. -/
structure Visit where
  path : NodePath
  node : Node

/-- How deep the node is nested; the root is at depth 1. -/
def Visit.depth (visit : Visit) : Nat :=
  visit.path.length

namespace Node

mutual

/-- A node with a given path and the nodes below it. -/
def visitsFrom (path : NodePath) : Node → List Visit
  | mk kind attrs children =>
    ⟨path, mk kind attrs children⟩ ::
      if kind = .codeBlock then [] else visitsAll path 0 children

/-- The nodes of trees that are children of the node at a path, from an index on. -/
def visitsAll (path : NodePath) (index : Nat) : List Node → List Visit
  | [] => []
  | child :: rest =>
    child.visitsFrom (path ++ [⟨child.kind, index⟩]) ++ visitsAll path (index + 1) rest

end

/-- The nodes of a document. -/
def visits (document : Node) : List Visit :=
  document.visitsFrom [⟨document.kind, 0⟩]

/-- The node that is reached by steps down from a node. -/
def follow : List PathStep → Node → Option Node
  | [], node => some node
  | step :: rest, node =>
    match node.children[step.index]? with
    | none => none
    | some child => if child.kind = step.kind then child.follow rest else none

/-- The node at a path of a document. -/
def at? (document : Node) : NodePath → Option Node
  | [] => none
  | root :: rest => if root = ⟨document.kind, 0⟩ then document.follow rest else none

mutual

theorem follow_of_visit (node : Node) {base : NodePath} {visit : Visit}
    (h : visit ∈ node.visitsFrom base) :
    ∃ rest, visit.path = base ++ rest ∧ node.follow rest = some visit.node := by
  obtain ⟨kind, attrs, children⟩ := node
  rw [visitsFrom] at h
  rcases List.mem_cons.mp h with rfl | hbelow
  · exact ⟨[], (List.append_nil base).symm, rfl⟩
  · split at hbelow
    · cases hbelow
    · obtain ⟨offset, child, rest, hchild, hpath, hfollow⟩ := follow_of_visitAll children hbelow
      refine ⟨⟨child.kind, 0 + offset⟩ :: rest, hpath, ?_⟩
      rw [follow, children_mk, Nat.zero_add, hchild]
      simp only [↓reduceIte]
      exact hfollow

theorem follow_of_visitAll (children : List Node) {base : NodePath} {index : Nat} {visit : Visit}
    (h : visit ∈ visitsAll base index children) :
    ∃ offset child rest, children[offset]? = some child ∧
      visit.path = base ++ ⟨child.kind, index + offset⟩ :: rest ∧
      child.follow rest = some visit.node := by
  cases children with
  | nil => cases h
  | cons child later =>
    rw [visitsAll] at h
    rcases List.mem_append.mp h with hfirst | hlater
    · obtain ⟨rest, hpath, hfollow⟩ := follow_of_visit child hfirst
      exact ⟨0, child, rest, rfl, by rw [hpath, List.append_assoc]; rfl, hfollow⟩
    · obtain ⟨offset, found, rest, hfound, hpath, hfollow⟩ := follow_of_visitAll later hlater
      refine ⟨offset + 1, found, rest, hfound, ?_, hfollow⟩
      rw [hpath, Nat.add_right_comm, Nat.add_assoc]

end

/-- **The path of a visit leads to its node.** -/
theorem at?_of_visit {document : Node} {visit : Visit} (h : visit ∈ document.visits) :
    document.at? visit.path = some visit.node := by
  obtain ⟨rest, hpath, hfollow⟩ := follow_of_visit document h
  rw [hpath]
  exact (if_pos rfl).trans hfollow

end Node
end Rendition
