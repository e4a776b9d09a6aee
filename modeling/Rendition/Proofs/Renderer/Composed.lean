import Rendition.Proofs.Renderer.Builtin
import Rendition.Proofs.Renderer.Treatment

/-!
# How the built-in renderers are put together

The built-in renderers are all put together from a few building blocks
(`Program.Composed`), so a property of programs is one of the built-in renderers if the
building blocks have it and their combinations keep it (`Renderer.composed_builtin`).
-/

namespace Rendition

/-- The program is put together from the building blocks of renderers. -/
inductive Program.Composed : Program → Prop where
  | skip : Composed .skip
  | reject (node : Node) (defect : Defect) : Composed (.reject node defect)
  | degrade (node : Node) (defect : Defect) : Composed (.degrade node defect)
  | leaf (content : Leaf) : Composed (.leaf content)
  | look {next : View → Program} (h : ∀ view, Composed (next view)) : Composed (.look next)
  | enclose (kind : ContainerKind) {body : Program} (h : Composed body) :
    Composed (.enclose kind body)
  | children (node : Node) : Composed (.children node)
  | seq {first second : Program} (h : Composed first) (h' : Composed second) :
    Composed (.seq first second)

/-- All renderers of the registry write programs with the property. -/
def Registry.Writes (P : Program → Prop) (registry : Registry) : Prop :=
  ∀ kind renderer, registry.resolve kind = some renderer → ∀ node, P (renderer.write node)

namespace Registry

variable {P : Program → Prop}

theorem writes_ofList {entries : List (NodeKind × Renderer)}
    (h : ∀ entry ∈ entries, ∀ node, P (entry.2.write node)) : (ofList entries).Writes P := by
  intro kind renderer hresolve
  rw [resolve_ofList] at hresolve
  obtain ⟨entry, hfound, rfl⟩ := Option.map_eq_some_iff.mp hresolve
  exact h entry (List.mem_reverse.mp (List.mem_of_find?_eq_some hfound))

/-- The program that a node calls for has the property as well, if the errors have it that a node
is refused with. -/
theorem Writes.dispatch {registry : Registry} (h : registry.Writes P) (node : Node)
    {context : Context}
    (hdeep : context.options.maxDepth < context.trail.length →
      P (.done (.error (.depthLimitExceeded context.options.maxDepth context.path))))
    (hkind : P (.done (.error (.unregisteredKind node.kind context.path)))) :
    P (registry.dispatch node context) := by
  unfold Registry.dispatch
  split
  · exact hdeep ‹_›
  · split
    · exact hkind
    · rename_i renderer hresolve
      exact h node.kind renderer hresolve node

end Registry

/-- What built-in renderers do is put together from the building blocks. -/
theorem Program.Plain.composed {node : Node} {program : Program} (h : program.Plain node) :
    program.Composed := by
  cases h with
  | skip => exact .skip
  | leaf content => exact .leaf content
  | children => exact .children node

theorem Program.Built.composed {node : Node} {program : Program} (h : program.Built node) :
    program.Composed := by
  induction h with
  | reject defect => exact .reject node defect
  | plain h => exact h.composed
  | enclose kind h => exact .enclose kind h.composed
  | degrade defect h => exact .seq (.degrade node defect) h.composed
  | around _ ih => exact .look fun view => ih view.current

/-- **The built-in renderers are composed.** -/
theorem Renderer.composed_builtin : ∀ entry ∈ builtin, ∀ node, (entry.2.write node).Composed :=
  fun entry hentry node => ((isBuiltin_of_mem entry hentry).built node).composed

end Rendition
