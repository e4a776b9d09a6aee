import Rendition.Render.Program
import Rendition.Text.Quoted

/-!
# Registries of renderers

A registry says which renderer is responsible for which kind of node.  There is at
most one per kind; registering another one replaces it and hands the old one back.
-/

namespace Rendition

/-- What turns nodes of a kind into rich text. -/
structure Renderer where
  /-- The name that diagnostics show. -/
  name : String
  /-- What is done with a node. -/
  write : Node → Program

/-! ## Entries -/

/-- Kinds and their renderers.  The order of the entries is of no account. -/
abbrev Registry.Entries := List (NodeKind × Renderer)

namespace Registry.Entries

/-- The kinds that have an entry. -/
def kinds (entries : Entries) : List NodeKind :=
  entries.map (·.1)

/-- The renderer in the entry of a kind. -/
def find? (kind : NodeKind) : Entries → Option Renderer
  | [] => none
  | (own, renderer) :: rest => if own = kind then some renderer else find? kind rest

/-- Puts a renderer into the entry of a kind, which is a new one at the end if there is none.  The
result also has the renderer that was in it. -/
def insert (kind : NodeKind) (renderer : Renderer) : Entries → Option Renderer × Entries
  | [] => (none, [(kind, renderer)])
  | (own, present) :: rest =>
    if own = kind then
      (some present, (own, renderer) :: rest)
    else
      let (previous, changed) := insert kind renderer rest
      (previous, (own, present) :: changed)

/-- Takes the entry of a kind out.  The result also has the renderer that was in it. -/
def remove (kind : NodeKind) : Entries → Option Renderer × Entries
  | [] => (none, [])
  | (own, present) :: rest =>
    if own = kind then
      (some present, rest)
    else
      let (previous, changed) := remove kind rest
      (previous, (own, present) :: changed)

theorem kinds_insert (kind : NodeKind) (renderer : Renderer) (entries : Entries) :
    (insert kind renderer entries).2.kinds =
      if kind ∈ entries.kinds then entries.kinds else entries.kinds ++ [kind] := by
  induction entries with
  | nil => rfl
  | cons entry rest ih =>
    obtain ⟨own, present⟩ := entry
    by_cases hown : own = kind
    · simp [insert, kinds, hown]
    · have hrest : (insert kind renderer ((own, present) :: rest)).2.kinds =
          own :: (insert kind renderer rest).2.kinds := by
        rw [insert, if_neg hown]
        rfl
      rw [hrest, ih]
      have hmem : kind ∈ kinds ((own, present) :: rest) ↔ kind ∈ kinds rest := by
        simp [kinds, Ne.symm hown]
      simp only [hmem]
      split <;> rfl

theorem kinds_remove (kind : NodeKind) (entries : Entries) :
    (remove kind entries).2.kinds = entries.kinds.erase kind := by
  induction entries with
  | nil => rfl
  | cons entry rest ih =>
    obtain ⟨own, present⟩ := entry
    by_cases hown : own = kind
    · simp [remove, kinds, hown]
    · have hrest : (remove kind ((own, present) :: rest)).2.kinds =
          own :: (remove kind rest).2.kinds := by
        rw [remove, if_neg hown]
        rfl
      rw [hrest, ih]
      simp [kinds, hown]

/-- No kind gets a second entry. -/
theorem nodup_insert {entries : Entries} (h : entries.kinds.Nodup) (kind : NodeKind)
    (renderer : Renderer) : (insert kind renderer entries).2.kinds.Nodup := by
  rw [kinds_insert]
  split
  · exact h
  · rename_i hnew
    refine List.nodup_append.mpr ⟨h, List.pairwise_singleton _ kind, fun own hown other hother => ?_⟩
    rw [List.mem_singleton.mp hother]
    exact fun heq => hnew (heq ▸ hown)

theorem nodup_remove {entries : Entries} (h : entries.kinds.Nodup) (kind : NodeKind) :
    (remove kind entries).2.kinds.Nodup := by
  rw [kinds_remove]
  exact h.erase kind

end Registry.Entries

/-! ## Registries -/

/-- The renderer of each kind. -/
structure Registry where
  entries : Registry.Entries
  /-- No kind has two entries. -/
  distinct : entries.kinds.Nodup

namespace Registry

/-- The registry in which no kind has a renderer. -/
def empty : Registry :=
  ⟨[], List.nodup_nil⟩

/-- The renderer of a kind. -/
def resolve (registry : Registry) (kind : NodeKind) : Option Renderer :=
  Entries.find? kind registry.entries

def contains (registry : Registry) (kind : NodeKind) : Bool :=
  registry.entries.any (·.1 = kind)

/-- Gives a kind a renderer, in place of the one it had, which the result also has. -/
def insert (registry : Registry) (kind : NodeKind) (renderer : Renderer) :
    Option Renderer × Registry :=
  let inserted := Entries.insert kind renderer registry.entries
  (inserted.1, ⟨inserted.2, Entries.nodup_insert registry.distinct kind renderer⟩)

/-- Takes a kind's renderer away, which the result also has. -/
def remove (registry : Registry) (kind : NodeKind) : Option Renderer × Registry :=
  let removed := Entries.remove kind registry.entries
  (removed.1, ⟨removed.2, Entries.nodup_remove registry.distinct kind⟩)

/-- The registry with a renderer for a kind, in place of the one it had. -/
def register (registry : Registry) (kind : NodeKind) (renderer : Renderer) : Registry :=
  (registry.insert kind renderer).2

/-- The kinds that have a renderer, collected and put in order. -/
def kinds (registry : Registry) : List NodeKind :=
  registry.entries.kinds.mergeSort fun first second => (compare first second).isLE

/-- How many kinds have a renderer. -/
def size (registry : Registry) : Nat :=
  registry.entries.length

def isEmpty (registry : Registry) : Bool :=
  registry.entries.isEmpty

/-- A registry with a renderer for each of some kinds. -/
def ofList (entries : List (NodeKind × Renderer)) : Registry :=
  entries.foldl (fun registry (kind, renderer) => registry.register kind renderer) empty

/-- The names of kinds and renderers side by side, in the order of the kinds. -/
def describe (registry : Registry) : String :=
  let entries := registry.kinds.filterMap fun kind =>
    (registry.resolve kind).map fun renderer =>
      s!"{Text.quoted kind.name}: {Text.quoted renderer.name}"
  "\x7b" ++ ", ".intercalate entries ++ "\x7d"

end Registry

/-! ## Changes to a registry -/

/-- A change to a registry. -/
inductive RegistryChange where
  | register (kind : NodeKind) (renderer : Renderer)
  | unregister (kind : NodeKind)

namespace RegistryChange

/-- The kind that a change is about. -/
def kind : RegistryChange → NodeKind
  | register kind _ | unregister kind => kind

/-- The renderer that the kind has after the change. -/
def renderer? : RegistryChange → Option Renderer
  | register _ renderer => some renderer
  | unregister _ => none

/-- Makes a change; the result also has the renderer that the kind had before. -/
def apply (change : RegistryChange) (registry : Registry) : Option Renderer × Registry :=
  match change with
  | register kind renderer => registry.insert kind renderer
  | unregister kind => registry.remove kind

end RegistryChange
end Rendition
