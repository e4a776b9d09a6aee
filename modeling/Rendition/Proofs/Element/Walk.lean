import Rendition.Element.Basic

/-!
# The walk over containers

`Container.foldPending` keeps the trees that are still to be visited in a list.  What it
visits, and in which order, is what the tree itself says: each container before those
inside it (`Element.containers`).
-/

namespace Rendition

namespace Element

mutual

/-- The containers in an element, each before those inside it. -/
def containers : Element → List Container
  | .leaf _ => []
  | .container kind children => ⟨kind, children⟩ :: containersAll children

/-- The containers in elements, one element after another. -/
def containersAll : List Element → List Container
  | [] => []
  | element :: rest => element.containers ++ containersAll rest

end

/-- Only the elements that are containers themselves have any. -/
theorem containersAll_eq_flatMap (elements : List Element) :
    containersAll elements =
      (elements.filterMap asContainer?).flatMap (·.toElement.containers) := by
  induction elements with
  | nil => rfl
  | cons element rest ih =>
    cases element with
    | leaf content => exact ih
    | container kind children =>
      rw [containersAll, ih]
      rfl

mutual

/-- There are as many containers in the list as in the element. -/
theorem length_containers (element : Element) :
    element.containers.length = element.containerCount := by
  cases element with
  | leaf content => rfl
  | container kind children =>
    rw [containers, List.length_cons, length_containersAll children, containerCount]

theorem length_containersAll (elements : List Element) :
    (containersAll elements).length = containerCountAll elements := by
  cases elements with
  | nil => rfl
  | cons element rest =>
    rw [containersAll, List.length_append, length_containers element, length_containersAll rest,
      containerCountAll]

end

end Element

namespace Container

/-- The containers of a tree: the tree itself, and then those in it. -/
theorem containers_toElement (container : Container) :
    container.toElement.containers =
      container :: container.childContainers.flatMap (·.toElement.containers) :=
  congrArg (container :: ·) (Element.containersAll_eq_flatMap container.children)

/-- **The worklist visits the containers of the pending trees in order.** -/
theorem foldPending_eq_foldl {β : Type} (f : β → Container → β) (acc : β)
    (pending : List Container) :
    foldPending f acc pending = (pending.flatMap (·.toElement.containers)).foldl f acc := by
  induction acc, pending using foldPending.induct f with
  | case1 acc => rw [foldPending]; rfl
  | case2 acc container pending ih =>
    rw [foldPending, ih, List.flatMap_append, List.flatMap_cons, containers_toElement,
      List.cons_append, List.foldl_cons]

/-- From one tree on it visits the containers of the tree. -/
theorem foldPending_singleton {β : Type} (f : β → Container → β) (acc : β)
    (container : Container) :
    foldPending f acc [container] = container.toElement.containers.foldl f acc := by
  rw [foldPending_eq_foldl, List.flatMap_singleton]

/-- The walk lists the containers of the tree. -/
theorem toList_walk (root : Container) : root.walk.toList = root.toElement.containers := by
  rw [walk, foldPending_singleton, List.foldl_push_eq_append', Array.toList_append,
    List.nil_append]

end Container
end Rendition
