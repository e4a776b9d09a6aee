import Rendition.Node.Basic

/-!
# Reading a node tree in document order

`Node.foldPending` visits every node of a list of pending trees in document order
(a node before its children, children from first to last).  It keeps the trees
that are still to be visited in a list instead of on a call stack, so that no
document is too deep for it.  The plain text and the number of nodes of a document
are folds of this kind.
-/

namespace Rendition.Node

mutual

/-- Number of nodes of a tree. -/
def size : Node → Nat
  | mk _ _ children => sizeAll children + 1

/-- Number of nodes of a list of trees. -/
def sizeAll : List Node → Nat
  | [] => 0
  | node :: rest => node.size + sizeAll rest

end

theorem sizeAll_append (xs ys : List Node) : sizeAll (xs ++ ys) = sizeAll xs + sizeAll ys := by
  induction xs with
  | nil => simp [sizeAll]
  | cons x xs ih => simp [sizeAll, ih, Nat.add_assoc]

theorem size_eq (node : Node) : node.size = sizeAll node.children + 1 := by
  cases node; rfl

/-- Folds over the nodes of the pending trees, in document order. -/
def foldPending {β : Type} (f : β → Node → β) (acc : β) : List Node → β
  | [] => acc
  | node :: pending => foldPending f (f acc node) (node.children ++ pending)
termination_by pending => sizeAll pending
decreasing_by simp [sizeAll, sizeAll_append, size_eq]

/-- What a node itself adds to the plain text: a space for a line break, whatever
text it carries, and its literal content otherwise. -/
def ownText (node : Node) : String :=
  match node.kind with
  | .softBreak | .hardBreak => " "
  | _ => node.attrs.text.getD ""

/-- The text of a node and of everything below it. -/
def plainText (node : Node) : String :=
  foldPending (fun text node => text ++ node.ownText) "" [node]

/-- How many nodes there are, the node itself included. -/
def nodeCount (node : Node) : Nat :=
  foldPending (fun count _ => count + 1) 0 [node]

end Rendition.Node
