import Rendition.Node.Kind
import Rendition.Proofs.Text.Bytes

/-!
# The order of kinds

Kinds are compared by rank and then by custom name.  What this comes to is that built-in kinds
precede custom ones, in the order in which they are declared, and that custom kinds are ordered by
the bytes of their names (`NodeKind.compare_eq_lt_iff`).  A custom kind stays a custom one when it
has the name of a built-in kind (`NodeKind.custom_name_eq_iff`).
-/

namespace Rendition.NodeKind

/-- The first kind is declared before the second one, or both are custom and the name of the first
has smaller bytes.  Custom kinds are declared last. -/
def Precedes (first second : NodeKind) : Prop :=
  first.ctorIdx < second.ctorIdx ∨
    (first.isCustom ∧ second.isCustom ∧
      Text.bytes first.customName < Text.bytes second.customName)

/-- The rank is the place in the declaration. -/
theorem rank_eq_ctorIdx (kind : NodeKind) : kind.rank = kind.ctorIdx := by
  cases kind <;> rfl

/-- Custom kinds rank behind all others. -/
theorem isCustom_eq (kind : NodeKind) : kind.isCustom = (kind.rank == builtins.length) := by
  cases kind <;> rfl

theorem customName_of_not_isCustom {kind : NodeKind} (h : ¬ kind.isCustom) :
    kind.customName = "" := by
  cases kind with
  | custom name => exact absurd rfl h
  | _ => rfl

/-- **The order of kinds.** -/
theorem compare_eq_lt_iff {first second : NodeKind} :
    compare first second = .lt ↔ first.Precedes second := by
  have hcustom : first.rank = second.rank → (first.isCustom ↔ second.isCustom) := by
    intro hrank
    rw [isCustom_eq, isCustom_eq, hrank]
  rw [compare_def, compareLex, Ordering.then_eq_lt, compareOn, compareOn, Nat.compare_eq_lt,
    Nat.compare_eq_eq, Text.compare_eq_lt_iff, Precedes, ← rank_eq_ctorIdx, ← rank_eq_ctorIdx]
  refine or_congr_right ⟨fun ⟨hrank, hnames⟩ => ?_, fun ⟨hfirst, hsecond, hnames⟩ => ?_⟩
  · -- two built-in kinds of one rank have no names that differ
    by_cases hfirst : first.isCustom
    · exact ⟨hfirst, (hcustom hrank).mp hfirst, hnames⟩
    · have hsecond : ¬ second.isCustom := fun h => hfirst ((hcustom hrank).mpr h)
      rw [customName_of_not_isCustom hfirst, customName_of_not_isCustom hsecond] at hnames
      exact absurd hnames (List.lt_irrefl _)
  · rw [isCustom_eq, beq_iff_eq] at hfirst hsecond
    exact ⟨hfirst.trans hsecond.symm, hnames⟩

/-- A kind that does not come after another one, and is another one, comes before it. -/
theorem Precedes.of_isLE {first second : NodeKind} (h : (compare first second).isLE = true)
    (hne : first ≠ second) : first.Precedes second := by
  refine compare_eq_lt_iff.mp ?_
  cases hcompare : compare first second with
  | lt => rfl
  | eq => exact absurd (Std.LawfulEqOrd.eq_of_compare hcompare) hne
  | gt =>
    rw [hcompare] at h
    cases h

/-- Of two kinds, one does not come after the other. -/
theorem isLE_or_isLE (first second : NodeKind) :
    ((compare first second).isLE || (compare second first).isLE) = true := by
  rw [Std.OrientedOrd.eq_swap (a := second)]
  cases compare first second <;> rfl

/-- No built-in kind is the custom kind of its name. -/
theorem custom_name_eq_iff (kind : NodeKind) : custom kind.name = kind ↔ kind.isCustom := by
  cases kind with
  | custom name => exact ⟨fun _ => rfl, fun _ => rfl⟩
  | _ => exact ⟨nofun, nofun⟩

end Rendition.NodeKind
