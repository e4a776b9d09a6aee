import Rendition.Proofs.Node.Preorder
import Rendition.Proofs.Render.Descent
import Rendition.Proofs.Renderer.Builtin

/-!
# What of a registry matters to a render

A render looks up the kinds of the nodes that it visits, and nothing else.  If renderers visit
only children of the node that they are given (`Program.RendersOnly`), these are nodes of the
document, so two registries that agree on the kinds of the document render it alike
(`Registry.render_congr`).  In particular it does not matter what has been registered for other
kinds, nor in which order different kinds have been registered (`render_eq_of_last_eq`).
-/

namespace Rendition

/-! ## Renderers that visit children only -/

namespace Program

/-- The program visits none but the given nodes. -/
def RendersOnly (nodes : List Node) : Program → Prop
  | done _ => True
  | look next => ∀ view, (next view).RendersOnly nodes
  | notify _ next => next.RendersOnly nodes
  | edit _ next => ∀ result, (next result).RendersOnly nodes
  | within _ body next => body.RendersOnly nodes ∧ ∀ result, (next result).RendersOnly nodes
  | child _ node next => node ∈ nodes ∧ ∀ result, (next result).RendersOnly nodes
  | render _ next => ∀ result, (next result).RendersOnly nodes

variable {nodes more : List Node}

theorem RendersOnly.mono {program : Program} (h : program.RendersOnly nodes)
    (hsub : ∀ node ∈ nodes, node ∈ more) : program.RendersOnly more := by
  induction program with
  | done => trivial
  | look _ ih => exact fun view => ih view (h view)
  | notify _ _ ih => exact ih h
  | edit _ _ ih | render _ _ ih => exact fun result => ih result (h result)
  | within _ _ _ ihBody ih => exact ⟨ihBody h.1, fun result => ih result (h.2 result)⟩
  | child _ node _ ih => exact ⟨hsub node h.1, fun result => ih result (h.2 result)⟩

theorem Plain.rendersOnly {node : Node} {program : Program} (h : program.Plain node) :
    program.RendersOnly node.children := by
  cases h with
  | skip => trivial
  | leaf content => exact fun _ => trivial
  | children =>
    exact children_induction trivial (fun _ => trivial) fun _ _ _ hchild hnext => ⟨hchild, hnext⟩

/-- Built-in renderers visit only children of their node. -/
theorem Built.rendersOnly {node : Node} {program : Program} (h : program.Built node) :
    program.RendersOnly node.children := by
  induction h with
  | reject defect => exact fun _ => trivial
  | plain h => exact h.rendersOnly
  | enclose kind h => exact ⟨h.rendersOnly, fun _ => trivial⟩
  | degrade defect h =>
    intro view
    by_cases hstrict : view.options.strict
    · simp only [hstrict, ↓reduceIte]
      trivial
    · simp only [hstrict]
      exact h.rendersOnly
  | around _ ih => exact fun view => ih view.current

end Program

namespace Registry

open Context

/-- Two registries that agree on the kinds of a document give the same renderers to its nodes, and
with the first of them these visit only children. -/
structure AgreeOn (document : Node) (first second : Registry) : Prop where
  resolve : ∀ node ∈ document.preorder, first.resolve node.kind = second.resolve node.kind
  children : ∀ node ∈ document.preorder, ∀ renderer, first.resolve node.kind = some renderer →
    (renderer.write node).RendersOnly node.children

namespace AgreeOn

variable {document : Node} {first second : Registry}

/-- A node of the document calls for the same with both, and what it calls for stays in the
document. -/
theorem dispatch (h : AgreeOn document first second) {node : Node}
    (hnode : node ∈ document.preorder) (context : Context) :
    first.dispatch node context = second.dispatch node context ∧
      (first.dispatch node context).RendersOnly document.preorder := by
  unfold Registry.dispatch
  rw [← h.resolve node hnode]
  refine ⟨rfl, ?_⟩
  by_cases hdeep : context.options.maxDepth < context.trail.length
  · rw [if_pos hdeep]
    trivial
  · rw [if_neg hdeep]
    cases hresolve : first.resolve node.kind with
    | none => trivial
    | some renderer =>
      exact (h.children node hnode renderer hresolve).mono
        fun child hchild => document.child_mem_preorder hnode hchild

/-- A node of the document is visited alike, if what it calls for is run alike. -/
theorem visit_of (h : AgreeOn document first second) {node : Node}
    (hnode : node ∈ document.preorder) {context : Context}
    (hrun : (first.dispatch node context).RendersOnly document.preorder →
      first.run (first.dispatch node context) context =
        second.run (first.dispatch node context) context) :
    first.dispatcher.visit node context = second.dispatcher.visit node context := by
  obtain ⟨hsame, hstays⟩ := h.dispatch hnode context
  rw [dispatcher_visit, dispatcher_visit, ← hsame]
  exact hrun hstays

/-- **Both run alike what stays in the document**, in the course of a render. -/
theorem run (h : AgreeOn document first second) {program : Program} {context : Context}
    (hprogram : program.RendersOnly document.preorder) (hused : context.phase ≠ .idle) :
    first.run program context = second.run program context := by
  induction program, context using Program.call_induction first with
  | done result context => rfl
  | look next context ih => exact ih (hprogram context.view) hused
  | notify notice next context ih =>
    exact ih hprogram ((Steady.notify notice context).phase hused ▸ hused)
  | edit change next context ih =>
    exact ih (hprogram _) ((Steady.attempt change context).phase hused ▸ hused)
  | within container body next context ihBody ih =>
    have hwithin : context.within container (first.run body) =
        context.within container (second.run body) :=
      within_congr fun opened hopen =>
        ihBody opened hopen hprogram.1 ((Steady.edit hopen).phase hused ▸ hused)
    have hphase := (Steady.within (first.run_steady body) container context).phase hused
    have hnext := ih (hprogram.2 _) (hphase ▸ hused)
    rw [run_within, run_within, hnext, hwithin]
  | child index node next context ihNode ih =>
    have hvisit := h.visit_of hprogram.1 fun hstays => ihNode hstays hused
    have hchild : context.visitChild first.dispatcher.visit index node =
        context.visitChild second.dispatcher.visit index node := visitChild_congr hvisit
    have hphase := (Steady.visitChild first.visit_steady index node context).phase hused
    have hnext := ih (hprogram.2 _) (hphase ▸ hused)
    rw [run_child, run_child, hnext, hchild]
  | render nested next context ihNode ih =>
    -- the context is in use, so both refuse
    have hrefused : first.render nested context = context.refuse :=
      first.render_of_used nested hused
    have hnext := ih (hprogram _) (by rw [hrefused]; exact hused)
    rw [run_render, run_render, hnext, hrefused, second.render_of_used nested hused]

theorem visit (h : AgreeOn document first second) {node : Node} (hnode : node ∈ document.preorder)
    {context : Context} (hused : context.phase ≠ .idle) :
    first.dispatcher.visit node context = second.dispatcher.visit node context :=
  h.visit_of hnode fun hstays => h.run hstays hused

end AgreeOn
end Registry

/-- **Only the kinds of a document matter to its render.**  Let two series of changes be made to a
registry, such that for each kind that occurs in a document the last change that is about the kind
is the same in both, or there is none in either.  If the renderers of these kinds visit only
children of their node, a render of the document on a fresh context comes out the same. -/
theorem render_eq_of_last_eq (registry : Registry) (changes changes' : List RegistryChange)
    (document : Node) (options : RenderOptions) (signal : Option Bool)
    (hlast : ∀ node ∈ document.preorder,
      RegistryChange.last? node.kind changes = RegistryChange.last? node.kind changes')
    (hchildren : ∀ node ∈ document.preorder, ∀ renderer,
      (RegistryChange.applyAll changes registry).resolve node.kind = some renderer →
        (renderer.write node).RendersOnly node.children) :
    let fresh : Context := { options, signal }
    (RegistryChange.applyAll changes registry).render document fresh =
      (RegistryChange.applyAll changes' registry).render document fresh := by
  intro fresh
  have hagree : Registry.AgreeOn document (RegistryChange.applyAll changes registry)
      (RegistryChange.applyAll changes' registry) := by
    refine ⟨fun node hnode => ?_, hchildren⟩
    rw [RegistryChange.resolve_applyAll, RegistryChange.resolve_applyAll, hlast node hnode]
  have hroot : document ∈ document.preorder := by
    rw [Node.preorder_eq]
    exact List.mem_cons_self
  have hused : (fresh.begin document).phase ≠ .idle := by
    show Phase.descending ≠ .idle
    decide
  rw [Registry.render_of_idle _ document rfl, Registry.render_of_idle _ document rfl,
    hagree.visit hroot hused]

/-- A custom kind that bears the name of a built-in one is not that kind, and so the document has
none of it; what was registered for the kinds that it has comes last in both series. -/
theorem render_eq_of_last_eq_custom :
    let embed : Renderer := .container (.custom "embed") .paragraph
    let document : Node := .document [.paragraph [.text "a"], .ofKind (.custom "embed")]
    let changes : List RegistryChange :=
      [.register (.custom "embed") embed, .register (.custom "paragraph") .text]
    let changes' : List RegistryChange :=
      [.unregister (.custom "embed"), .unregister .heading, .register (.custom "embed") embed]
    let rendered := (RegistryChange.applyAll changes Registry.defaults).render document {}
    (∀ node ∈ document.preorder,
      RegistryChange.last? node.kind changes = RegistryChange.last? node.kind changes') ∧
    (∀ node ∈ document.preorder, ∀ renderer,
      (RegistryChange.applyAll changes Registry.defaults).resolve node.kind = some renderer →
        (renderer.write node).RendersOnly node.children) ∧
    rendered = (RegistryChange.applyAll changes' Registry.defaults).render document {} := by
  intro embed document changes changes' rendered
  have hlast : ∀ node ∈ document.preorder,
      RegistryChange.last? node.kind changes = RegistryChange.last? node.kind changes' := by
    show ∀ node ∈ [document, .paragraph [.text "a"], .text "a", .ofKind (.custom "embed")], _
    simp only [List.forall_mem_cons]
    exact ⟨rfl, rfl, rfl, rfl, List.forall_mem_nil _⟩
  have hbuiltin : (RegistryChange.applyAll changes Registry.defaults).IsBuiltin := by
    refine (Registry.isBuiltin_defaults.apply ?_).apply ?_
    · rintro renderer ⟨⟩
      exact .container _ _
    · rintro renderer ⟨⟩
      exact .text
  have hchildren : ∀ node ∈ document.preorder, ∀ renderer,
      (RegistryChange.applyAll changes Registry.defaults).resolve node.kind = some renderer →
        (renderer.write node).RendersOnly node.children :=
    fun node _ renderer hresolve => ((hbuiltin _ renderer hresolve).built node).rendersOnly
  exact ⟨hlast, hchildren,
    render_eq_of_last_eq Registry.defaults changes changes' document {} none hlast hchildren⟩

end Rendition
