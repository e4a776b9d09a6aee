import Rendition.Registry

/-!
# What a registry looks up

A registry remembers nothing of how it came about but the renderer that each kind has.  After any
changes that is the renderer of the last change that was about the kind, and where there was none,
the one from before (`RegistryChange.resolve_applyAll`).  There is no other way in which changes
could matter, such as their order where they are about different kinds.

What a change hands back it finds on its way to the place where it is made: that this is what could
have been looked up is shown by induction on the entries (`RegistryChange.apply_fst`).
-/

namespace Rendition

namespace Registry.Entries

variable (kind other : NodeKind) (renderer : Renderer) (entries : Entries)

/-- A kind has an entry when there is a renderer in it. -/
theorem mem_kinds_iff : kind ∈ entries.kinds ↔ (find? kind entries).isSome := by
  induction entries with
  | nil => exact ⟨nofun, nofun⟩
  | cons entry rest ih =>
    obtain ⟨own, present⟩ := entry
    rw [find?, kinds, List.map_cons, List.mem_cons, eq_comm]
    split
    · rename_i hown
      exact ⟨fun _ => rfl, fun _ => .inl hown⟩
    · rename_i hown
      exact ⟨fun hmem => ih.mp (hmem.resolve_left hown), fun hsome => .inr (ih.mpr hsome)⟩

/-- **What an insertion hands back** is the renderer that it has found in the entry. -/
theorem insert_fst : (insert kind renderer entries).1 = find? kind entries := by
  induction entries with
  | nil => rfl
  | cons entry rest ih =>
    obtain ⟨own, present⟩ := entry
    rw [insert, find?]
    split
    · rfl
    · exact ih

/-- **What a removal hands back**, likewise. -/
theorem remove_fst : (remove kind entries).1 = find? kind entries := by
  induction entries with
  | nil => rfl
  | cons entry rest ih =>
    obtain ⟨own, present⟩ := entry
    rw [remove, find?]
    split
    · rfl
    · exact ih

/-- An insertion leaves the entries of other kinds. -/
theorem find?_insert :
    find? other (insert kind renderer entries).2 =
      if kind = other then some renderer else find? other entries := by
  induction entries with
  | nil => rfl
  | cons entry rest ih =>
    obtain ⟨own, present⟩ := entry
    by_cases hown : own = kind
    · subst hown
      rw [insert, if_pos rfl, find?, find?]
      split <;> rfl
    · have hrest : (insert kind renderer ((own, present) :: rest)).2 =
          (own, present) :: (insert kind renderer rest).2 := by
        rw [insert, if_neg hown]
      rw [hrest, find?, find?, ih]
      by_cases hother : own = other
      · rw [if_pos hother, if_pos hother, if_neg fun heq => hown (hother.trans heq.symm)]
      · rw [if_neg hother, if_neg hother]

variable {entries} in
/-- So does a removal, and there is no second entry that would come to light. -/
theorem find?_remove (h : entries.kinds.Nodup) :
    find? other (remove kind entries).2 = if kind = other then none else find? other entries := by
  induction entries with
  | nil => exact (ite_self none).symm
  | cons entry rest ih =>
    obtain ⟨own, present⟩ := entry
    obtain ⟨hnew, hrest⟩ := List.nodup_cons.mp h
    by_cases hown : own = kind
    · subst hown
      have hnone : find? own rest = none := by
        rw [← Option.not_isSome_iff_eq_none, ← mem_kinds_iff]
        exact hnew
      rw [remove, if_pos rfl, find?]
      split
      · rename_i hother
        exact hother ▸ hnone
      · rfl
    · have hremoved : (remove kind ((own, present) :: rest)).2 =
          (own, present) :: (remove kind rest).2 := by
        rw [remove, if_neg hown]
      rw [hremoved, find?, find?, ih hrest]
      by_cases hother : own = other
      · rw [if_pos hother, if_pos hother, if_neg fun heq => hown (hother.trans heq.symm)]
      · rw [if_neg hother, if_neg hother]

end Registry.Entries

namespace Registry

/-- Registering a renderer for one kind leaves those of all others. -/
theorem resolve_register (registry : Registry) (kind other : NodeKind) (renderer : Renderer) :
    (registry.register kind renderer).resolve other =
      if kind = other then some renderer else registry.resolve other :=
  Entries.find?_insert kind other renderer registry.entries

/-- Taking the renderer of one kind away leaves those of all others. -/
theorem resolve_remove (registry : Registry) (kind other : NodeKind) :
    (registry.remove kind).2.resolve other =
      if kind = other then none else registry.resolve other :=
  Entries.find?_remove kind other registry.distinct

/-- The renderer of a kind is the one that was listed for it last. -/
theorem resolve_ofList (entries : List (NodeKind × Renderer)) (kind : NodeKind) :
    (ofList entries).resolve kind = (entries.reverse.find? (·.1 = kind)).map (·.2) := by
  unfold ofList
  rw [← List.foldr_reverse]
  induction entries.reverse with
  | nil => rfl
  | cons entry rest ih =>
    rw [List.foldr_cons, resolve_register, ih]
    by_cases h : entry.1 = kind <;> simp [h]

end Registry

namespace RegistryChange

/-- Makes changes one after another. -/
def applyAll (changes : List RegistryChange) (registry : Registry) : Registry :=
  changes.foldl (fun changed change => (change.apply changed).2) registry

/-- The last of some changes that is about a kind. -/
def last? (kind : NodeKind) (changes : List RegistryChange) : Option RegistryChange :=
  changes.reverse.find? (·.kind = kind)

/-- A change gives its kind the renderer that it names, or none, and leaves all other kinds. -/
theorem resolve_apply (change : RegistryChange) (registry : Registry) (kind : NodeKind) :
    (change.apply registry).2.resolve kind =
      if change.kind = kind then change.renderer? else registry.resolve kind := by
  cases change with
  | register registered renderer => exact registry.resolve_register registered kind renderer
  | unregister unregistered => exact registry.resolve_remove unregistered kind

/-- **A change hands back what its kind had before.** -/
theorem apply_fst (change : RegistryChange) (registry : Registry) :
    (change.apply registry).1 = registry.resolve change.kind := by
  cases change with
  | register kind renderer => exact Registry.Entries.insert_fst kind renderer registry.entries
  | unregister kind => exact Registry.Entries.remove_fst kind registry.entries

theorem last?_cons (kind : NodeKind) (change : RegistryChange) (later : List RegistryChange) :
    last? kind (change :: later) =
      (last? kind later).or (if change.kind = kind then some change else none) := by
  unfold last?
  rw [List.reverse_cons, List.find?_append]
  by_cases h : change.kind = kind <;> simp [h]

/-- **After any changes**, a kind has the renderer of the last change that was about it. -/
theorem resolve_applyAll (changes : List RegistryChange) (registry : Registry) (kind : NodeKind) :
    (applyAll changes registry).resolve kind =
      match last? kind changes with
      | some change => change.renderer?
      | none => registry.resolve kind := by
  induction changes generalizing registry with
  | nil => rfl
  | cons change later ih =>
    have hlater : applyAll (change :: later) registry = applyAll later (change.apply registry).2 :=
      rfl
    rw [hlater, ih, last?_cons]
    cases last? kind later with
    | some last => rfl
    | none =>
      simp only [Option.none_or]
      rw [resolve_apply]
      by_cases h : change.kind = kind
      · simp only [h, ↓reduceIte]
      · simp only [h, ↓reduceIte]

end RegistryChange
end Rendition
