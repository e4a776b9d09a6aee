import Mathlib.Data.List.Forall2
import Rendition.Html.Basic
import Rendition.Proofs.Element.Walk

/-!
# Headings and their entries

The outline has an entry for each heading of a tree, in the order in which they open
(`Outline.describes_entries`).  Every entry has an id, and in the same order the markup uses up
ids while it descends (`Element.markup_snd`).  With the title extracted, the first entry of
level 1 is missing, and all others are as they were (`Outline.foldl_add_untitled`).
-/

namespace Rendition

/-- Whether the container is a heading. -/
def ContainerKind.isHeading : ContainerKind → Bool
  | heading .. => true
  | _ => false

namespace Element

/-- The headings in an element, in the order in which they open. -/
def headings (element : Element) : List Container :=
  element.containers.filter (·.kind.isHeading)

end Element

/-! ## Entries of containers -/

/-- The ids used after containers. -/
def Anchors.past (ids : Anchors) (containers : List Container) : Anchors :=
  containers.foldl (fun ids container => (container.anchor ids).2) ids

/-- The entry of a container that is a heading. -/
def Container.entry? (container : Container) (ids : Anchors) : Option Outline.Entry :=
  match container.kind with
  | .heading level _ => some ⟨level, container.headingText, (container.anchor ids).1⟩
  | _ => none

/-- The entry is that of a heading. -/
structure Outline.Entry.Describes (entry : Outline.Entry) (heading : Container) : Prop where
  level : ∃ id, heading.kind = .heading entry.level id
  title : entry.title = heading.headingText

namespace Outline

theorem entries_cons (ids : Anchors) (container : Container) (rest : List Container) :
    entries ids (container :: rest) =
      (container.entry? ids).toList ++ entries (container.anchor ids).2 rest := by
  obtain ⟨kind, children⟩ := container
  cases kind <;> rfl

theorem entries_append (ids : Anchors) (first second : List Container) :
    entries ids (first ++ second) = entries ids first ++ entries (ids.past first) second := by
  induction first generalizing ids with
  | nil => rfl
  | cons container rest ih =>
    rw [List.cons_append, entries_cons, entries_cons, ih, List.append_assoc]
    rfl

/-- **The entries are those of the headings.** -/
theorem describes_entries (ids : Anchors) (containers : List Container) :
    List.Forall₂ Entry.Describes (entries ids containers)
      (containers.filter (·.kind.isHeading)) := by
  induction containers generalizing ids with
  | nil => exact .nil
  | cons container rest ih =>
    rw [entries_cons]
    obtain ⟨kind, children⟩ := container
    cases kind with
    | heading level id => exact .cons ⟨⟨id, rfl⟩, rfl⟩ (ih _)
    | _ => exact ih _

theorem length_entries (ids : Anchors) (element : Element) :
    (entries ids element.containers).length = element.headings.length :=
  (describes_entries ids element.containers).length_eq

end Outline

open Outline

namespace Element

variable {base : Option String}

mutual

/-- The ids that writing an element uses are those of its containers. -/
theorem markup_snd (element : Element) (ids : Anchors) :
    (element.markup base ids).2 = ids.past element.containers := by
  cases element with
  | leaf content => rfl
  | container kind children =>
    rw [markup, containers]
    exact markupAll_snd children (kind = .table) _

theorem markupAll_snd (elements : List Element) (bodyAhead : Bool) (ids : Anchors) :
    (markupAll base bodyAhead elements ids).2 = ids.past (containersAll elements) := by
  cases elements with
  | nil => rfl
  | cons element rest =>
    have hpast : ids.past (containersAll (element :: rest)) =
        (ids.past element.containers).past (containersAll rest) := List.foldl_append
    rw [hpast, ← markup_snd element ids,
      ← markupAll_snd rest (bodyAhead && !(bodyAhead && element.isTableRow))]
    simp only [markupAll]
    split <;> rfl

end

end Element

/-! ## Titles -/

namespace Outline

/-- Without a title to find, all entries go to the table of contents. -/
theorem foldl_add_of_titled (extractTitle : Bool) (outline : Outline) (found : List Entry)
    (h : extractTitle = false ∨ outline.title.isSome) :
    found.foldl (add extractTitle) outline = { outline with toc := outline.toc ++ found } := by
  induction found generalizing outline with
  | nil => simp
  | cons entry rest ih =>
    have hadd : add extractTitle outline entry =
        { outline with toc := outline.toc ++ [entry] } := by
      unfold add
      rcases h with rfl | htitle
      · rfl
      · simp [Option.isNone_eq_false_iff.mpr htitle]
    rw [List.foldl_cons, hadd, ih { outline with toc := outline.toc ++ [entry] } h]
    simp

/-- The first entry of level 1 gives the title, and all others go to the table of contents. -/
theorem foldl_add_untitled (toc found : List Entry) :
    found.foldl (add true) { toc } =
      { title := (found.find? (·.level = 1)).map (·.title)
        toc := toc ++ found.eraseP (·.level = 1) } := by
  induction found generalizing toc with
  | nil => simp
  | cons entry rest ih =>
    by_cases hlevel : entry.level = 1
    · have hadd : add true { toc } entry = { title := some entry.title, toc } := by
        simp [add, hlevel]
      rw [List.foldl_cons, hadd, foldl_add_of_titled true _ rest (Or.inr rfl)]
      simp [hlevel]
    · have hadd : add true { toc } entry = { toc := toc ++ [entry] } := by
        simp [add, hlevel]
      rw [List.foldl_cons, hadd, ih]
      simp [hlevel]

theorem toc_ofRoot (root : Container) :
    (ofRoot root false).toc = entries {} root.toElement.containers := by
  rw [ofRoot, Container.toList_walk, foldl_add_of_titled false {} _ (Or.inl rfl)]
  rfl

end Outline

end Rendition
