import Rendition.Proofs.Node.Order
import Rendition.Proofs.Registry

/-!
# A registry is its history

Renderers are registered for a kind and taken away from it in one change after another.  To
register one renderer for several kinds is to make a change for each of them, and to build a
registry up is to make changes without looking at what they give back.

All that can be asked of the registry in the end is said by the changes: for each kind the last one
that is about it counts, and no other (`RegistryChange.resolve_eq_filter`).  What a change gives
back is what could be looked up just before it (`RegistryChange.replaced_eq_mapIdx`).  The kinds
that have a renderer are listed each once and in order (`Registry.kinds_spec`).
-/

namespace Rendition

/-! ## The kinds of a registry -/

namespace Registry

/-- A kind has a renderer when one can be looked up for it. -/
theorem contains_eq (registry : Registry) (kind : NodeKind) :
    registry.contains kind = (registry.resolve kind).isSome := by
  rw [Bool.eq_iff_iff, resolve, ← Entries.mem_kinds_iff, contains, List.any_eq_true, Entries.kinds,
    List.mem_map]
  simp only [decide_eq_true_eq]

/-- **The kinds are listed in order**, and they are those that have a renderer.  No two of them are
the same, and so each comes before the next one. -/
theorem kinds_spec (registry : Registry) :
    registry.kinds.Pairwise NodeKind.Precedes ∧
    (∀ kind, kind ∈ registry.kinds ↔ (registry.resolve kind).isSome) ∧
    registry.size = registry.kinds.length := by
  have hperm : registry.kinds.Perm registry.entries.kinds := List.mergeSort_perm _ _
  refine ⟨?_, fun kind => ?_, ?_⟩
  · have hsorted : registry.kinds.Pairwise fun first second => (compare first second).isLE :=
      List.pairwise_mergeSort (fun _ _ _ => Std.TransCmp.isLE_trans) NodeKind.isLE_or_isLE _
    have hdistinct : registry.kinds.Nodup := hperm.nodup_iff.mpr registry.distinct
    exact hsorted.imp₂ (fun _ _ => NodeKind.Precedes.of_isLE) hdistinct
  · exact hperm.mem_iff.trans (Entries.mem_kinds_iff kind registry.entries)
  · rw [hperm.length_eq, Entries.kinds, List.length_map, size]

end Registry

namespace RegistryChange

/-! ## What changes do -/

/-- What changes give back, one after another: the renderers that they take the place of. -/
def replaced (registry : Registry) : List RegistryChange → List (Option Renderer)
  | [] => []
  | change :: later =>
    let (previous, changed) := change.apply registry
    previous :: replaced changed later

/-- The changes that are about other kinds might as well not have been made. -/
theorem last?_filter (kind : NodeKind) (changes : List RegistryChange) :
    last? kind (changes.filter (·.kind = kind)) = last? kind changes := by
  unfold last?
  rw [← List.filter_reverse, List.find?_filter]
  simp

theorem resolve_eq_filter (changes : List RegistryChange) (registry : Registry) (kind : NodeKind) :
    (applyAll changes registry).resolve kind =
      (applyAll (changes.filter (·.kind = kind)) registry).resolve kind := by
  rw [resolve_applyAll, resolve_applyAll, last?_filter]

/-- **A change gives back what could be looked up just before it.** -/
theorem replaced_eq_mapIdx (changes : List RegistryChange) (registry : Registry) :
    replaced registry changes = changes.mapIdx fun index change =>
      (applyAll (changes.take index) registry).resolve change.kind := by
  induction changes generalizing registry with
  | nil => rfl
  | cons change later ih =>
    rw [List.mapIdx_cons]
    change (change.apply registry).1 :: replaced (change.apply registry).2 later = _
    rw [change.apply_fst, ih (change.apply registry).2]
    rfl

/-- **A registry is what its history says.**  In the end a kind has the renderer that the last
change about it has given it, and without such a change the one that it had at first.  Nothing else
matters, not even a change about the custom kind that has the name of a built-in one.  Each change
gives back the renderer that its kind had just before, and the kinds that have a renderer are
listed in order. -/
theorem refines_history (changes : List RegistryChange) (registry : Registry) :
    let after := applyAll changes registry
    (∀ kind, after.resolve kind =
      match last? kind changes with
      | some change => change.renderer?
      | none => registry.resolve kind) ∧
    (∀ kind, after.contains kind = (after.resolve kind).isSome) ∧
    (∀ kind, after.resolve kind =
      (applyAll (changes.filter (·.kind = kind)) registry).resolve kind) ∧
    (∀ kind, NodeKind.custom kind.name = kind ↔ kind.isCustom) ∧
    (replaced registry changes = changes.mapIdx fun index change =>
      (applyAll (changes.take index) registry).resolve change.kind) ∧
    after.kinds.Pairwise NodeKind.Precedes ∧
    (∀ kind, kind ∈ after.kinds ↔ (after.resolve kind).isSome) ∧
    after.size = after.kinds.length := by
  intro after
  obtain ⟨hordered, hmem, hsize⟩ := after.kinds_spec
  exact ⟨resolve_applyAll changes registry, after.contains_eq,
    resolve_eq_filter changes registry, NodeKind.custom_name_eq_iff,
    replaced_eq_mapIdx changes registry, hordered, hmem, hsize⟩

end RegistryChange
end Rendition
