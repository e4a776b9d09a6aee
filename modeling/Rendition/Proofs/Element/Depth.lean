import Rendition.Element.Basic
import Mathlib.Data.List.Chain

/-!
# The depth of containers

A container is deeper than each container in it (`Container.containerDepth_lt`).  So whoever goes
down from one container to one inside it, and from that to the next, as the plain text of a tree
and its markup are made, is never inside more containers at a time than the first one is deep
(`Container.length_le_containerDepth`).
-/

namespace Rendition

namespace Element

theorem depthAll_append (first second : List Element) :
    depthAll (first ++ second) = max (depthAll first) (depthAll second) := by
  induction first with
  | nil => exact (Nat.zero_max _).symm
  | cons element rest ih => rw [List.cons_append, depthAll, ih, depthAll, Nat.max_assoc]

/-- No element of a list is deeper than the list. -/
theorem containerDepth_le_depthAll {element : Element} {elements : List Element}
    (h : element ∈ elements) : element.containerDepth ≤ depthAll elements := by
  induction h with
  | head rest => exact Nat.le_max_left _ _
  | tail other _ ih => exact Nat.le_trans ih (Nat.le_max_right _ _)

end Element

namespace Container

/-- What is appended to a container counts one level more there. -/
theorem containerDepth_append (container : Container) (element : Element) :
    (container.append element).containerDepth =
      max container.containerDepth (element.containerDepth + 1) := by
  show Element.depthAll (container.children ++ [element]) + 1 =
    max (Element.depthAll container.children + 1) (element.containerDepth + 1)
  rw [Element.depthAll_append, Element.depthAll, Element.depthAll]
  omega

/-- A container is deeper than those in it. -/
theorem containerDepth_lt {inner outer : Container} (h : inner ∈ outer.childContainers) :
    inner.containerDepth < outer.containerDepth := by
  obtain ⟨element, hmem, hinner⟩ := List.mem_filterMap.mp h
  have hdepth : element.containerDepth = inner.containerDepth := by
    cases element with
    | leaf content => cases hinner
    | container kind children =>
      obtain rfl := Option.some.inj hinner
      rfl
  have hle := Element.containerDepth_le_depthAll hmem
  show inner.containerDepth < Element.depthAll outer.children + 1
  omega

theorem containerDepth_pos (container : Container) : 0 < container.containerDepth :=
  Nat.succ_pos _

/-- **Containers that lie one in another** are no more than the outermost one is deep. -/
theorem length_le_containerDepth {outermost : Container} {inside : List Container}
    (h : List.IsChain (fun outer inner => inner ∈ outer.childContainers) (outermost :: inside)) :
    (outermost :: inside).length ≤ outermost.containerDepth := by
  induction inside generalizing outermost with
  | nil => exact outermost.containerDepth_pos
  | cons next inside ih =>
    obtain ⟨hnext, hrest⟩ := List.isChain_cons_cons.mp h
    have hlength := ih hrest
    have hlt := containerDepth_lt hnext
    rw [List.length_cons]
    omega

end Container
end Rendition
