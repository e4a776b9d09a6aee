import Rendition.Element.Kind

/-!
# Rich text

An element is a leaf or a container of further elements, and a document's rich
text is one container.  Besides the tree this module has its measures: nesting
depth, plain text, and the walk over all containers in the order in which they
open.
-/

namespace Rendition

/-- An element of rich text. -/
inductive Element where
  | leaf (content : Leaf)
  | container (kind : ContainerKind) (children : List Element)

/-- A container with its elements. -/
structure Container where
  kind : ContainerKind
  children : List Element

/-- A container as an element of another one. -/
def Container.toElement (container : Container) : Element :=
  .container container.kind container.children

namespace Element

/-- The element as a container, if it is one. -/
def asContainer? : Element → Option Container
  | .leaf _ => none
  | .container kind children => some ⟨kind, children⟩

mutual

/-- Levels of nested containers; a leaf adds none. -/
def containerDepth : Element → Nat
  | .leaf _ => 0
  | .container _ children => depthAll children + 1

/-- The greatest depth among the elements of a list. -/
def depthAll : List Element → Nat
  | [] => 0
  | element :: rest => max element.containerDepth (depthAll rest)

end

mutual

/-- The text of an element and of all that it holds. -/
def plainText : Element → String
  | .leaf content => content.plainText
  | .container _ children => plainTextAll children

def plainTextAll : List Element → String
  | [] => ""
  | element :: rest => element.plainText ++ plainTextAll rest

end

mutual

/-- Number of containers in an element. -/
def containerCount : Element → Nat
  | .leaf _ => 0
  | .container _ children => containerCountAll children + 1

def containerCountAll : List Element → Nat
  | [] => 0
  | element :: rest => element.containerCount + containerCountAll rest

end

end Element

namespace Container

/-- A container that nothing has been written to. -/
def empty (kind : ContainerKind) : Container :=
  ⟨kind, []⟩

/-- The container with one more element at its end. -/
def append (container : Container) (element : Element) : Container :=
  { container with children := container.children ++ [element] }

/-- The elements that are containers themselves, in order. -/
def childContainers (container : Container) : List Container :=
  container.children.filterMap Element.asContainer?

/-- Levels of nested containers, the container itself included. -/
def containerDepth (container : Container) : Nat :=
  container.toElement.containerDepth

/-- The text of all leaves, in order. -/
def plainText (container : Container) : String :=
  container.toElement.plainText

/-- Number of containers in a list of trees. -/
def countAll : List Container → Nat
  | [] => 0
  | container :: rest => container.toElement.containerCount + countAll rest

theorem countAll_append (xs ys : List Container) :
    countAll (xs ++ ys) = countAll xs + countAll ys := by
  induction xs with
  | nil => simp [countAll]
  | cons x xs ih => simp [countAll, ih, Nat.add_assoc]

theorem countAll_childContainers (children : List Element) :
    countAll (children.filterMap Element.asContainer?) = Element.containerCountAll children := by
  induction children with
  | nil => rfl
  | cons element rest ih =>
    cases element with
    | leaf leaf => simpa [Element.asContainer?, Element.containerCountAll, Element.containerCount]
    | container kind children =>
      simp [countAll, Element.asContainer?, Element.containerCountAll, ih, toElement]

/-- Folds over all containers of the pending trees in the order in which they open:
a container before those inside it.  What is still to be visited is kept in a list. -/
def foldPending {β : Type} (f : β → Container → β) (acc : β) : List Container → β
  | [] => acc
  | container :: pending =>
    foldPending f (f acc container) (container.childContainers ++ pending)
termination_by pending => countAll pending
decreasing_by
  have := countAll_childContainers container.children
  simp_all [countAll, countAll_append, childContainers, toElement, Element.containerCount]

/-- The container and all containers in it, in the order in which they open. -/
def walk (container : Container) : Array Container :=
  foldPending Array.push #[] [container]

end Container
end Rendition
