import Rendition.Proofs.Renderer.Composed

/-!
# Programs that keep to scopes

A program is **scoped** (`Program.Scoped`) if it opens and closes containers with
`Program.within` only, and never by a push or a pop of its own.  It may write leaves, visit
nodes, start renders, and do what it likes with the errors that come back.  The built-in
renderers are scoped (`Registry.scoped_defaults`).

What has been built in a context are its open containers and its root (`Context.built`).
A scoped program of a render in progress only **extends** it (`Context.Extends`): it appends
elements to the innermost container, and everything around that container stays as it was.
For a scope this is sharper still.  It has either appended its one container or changed
nothing at all (`Context.within_cases`), although the end of a scope looks at the number of
open containers only: that the number tells enough is what the frame says.
-/

namespace Rendition

/-! ## Scoped programs -/

namespace Program

/-- The program opens and closes containers by scopes only. -/
def Scoped : Program → Prop
  | done _ => True
  | look next => ∀ view, (next view).Scoped
  | notify _ next => next.Scoped
  | edit (.leaf _) next => ∀ result, (next result).Scoped
  | edit (.push _) _ | edit .pop _ => False
  | within _ body next => body.Scoped ∧ ∀ result, (next result).Scoped
  | child _ _ next => ∀ result, (next result).Scoped
  | render _ next => ∀ result, (next result).Scoped

/-- The only edit of a scoped program is to write a leaf. -/
theorem Scoped.leaf_of_edit {change : Edit} {next : Except RenderError Unit → Program}
    (h : (edit change next).Scoped) : ∃ content, change = .leaf content := by
  cases change with
  | push | pop => cases h
  | leaf content => exact ⟨content, rfl⟩

theorem Scoped.andThen {program : Program} {next : Except RenderError Unit → Program}
    (h : program.Scoped) (hnext : ∀ result, (next result).Scoped) :
    (program.andThen next).Scoped := by
  induction program with
  | done result => exact hnext result
  | look _ ih => exact fun view => ih view (h view)
  | notify _ _ ih => exact ih h
  | edit change _ ih =>
    obtain ⟨content, rfl⟩ := h.leaf_of_edit
    exact fun result => ih result (h result)
  | within _ _ _ _ ih => exact ⟨h.1, fun result => ih result (h.2 result)⟩
  | child _ _ _ ih => exact fun result => ih result (h result)
  | render _ _ ih => exact fun result => ih result (h result)

theorem Scoped.seq {first second : Program} (h : first.Scoped) (h' : second.Scoped) :
    (first.seq second).Scoped :=
  h.andThen (onSuccess_cases h' fun _ => trivial)

/-! ### Building blocks -/

theorem scoped_reject (node : Node) (defect : Defect) : (reject node defect).Scoped :=
  fun _ => trivial

theorem scoped_degrade (node : Node) (defect : Defect) : (degrade node defect).Scoped := by
  intro view
  dsimp only
  split <;> trivial

theorem scoped_leaf (content : Leaf) : (leaf content).Scoped :=
  fun _ => trivial

theorem Scoped.enclose {body : Program} (h : body.Scoped) (kind : ContainerKind) :
    (enclose kind body).Scoped :=
  ⟨h, fun _ => trivial⟩

/-- The building blocks of renderers are scoped. -/
theorem Composed.scoped {program : Program} (h : program.Composed) : program.Scoped := by
  induction h with
  | skip => trivial
  | reject node defect => exact scoped_reject node defect
  | degrade node defect => exact scoped_degrade node defect
  | leaf content => exact scoped_leaf content
  | look _ ih => exact ih
  | enclose kind _ ih => exact ih.enclose kind
  | children node => exact children_induction trivial (fun _ => trivial) fun _ _ _ _ hnext => hnext
  | seq _ _ ih ih' => exact ih.seq ih'

end Program

open Program

/-- A renderer that is scoped for every node. -/
def Renderer.Scoped (renderer : Renderer) : Prop :=
  ∀ node, (renderer.write node).Scoped

/-- All renderers of the registry are scoped. -/
def Registry.Scoped (registry : Registry) : Prop :=
  ∀ kind renderer, registry.resolve kind = some renderer → renderer.Scoped

namespace Registry

theorem scoped_ofList {entries : List (NodeKind × Renderer)}
    (h : ∀ entry ∈ entries, entry.2.Scoped) : (ofList entries).Scoped :=
  writes_ofList h

/-- **The built-in renderers are scoped.** -/
theorem scoped_defaults : defaults.Scoped :=
  scoped_ofList fun entry hentry node => (Renderer.composed_builtin entry hentry node).scoped

/-- The program that a node calls for is scoped, if all renderers are. -/
theorem Scoped.dispatch {registry : Registry} (h : registry.Scoped) (node : Node)
    (context : Context) : (registry.dispatch node context).Scoped :=
  Writes.dispatch h node (fun _ => trivial) trivial

end Registry

/-! ## What scoped programs do to a context -/

namespace Context

variable {context before after opened : Context} {container : Container}

/-- What has been built: the open containers and the root. -/
def built (context : Context) : List Container × Option Container :=
  (context.stack, context.root)

/-- Between the two, elements have been appended to the innermost container, and nothing else
has been built.  With nothing open, at most the root has been set. -/
def Extends (before after : Context) : Prop :=
  match before.stack with
  | [] => after.stack = [] ∧ ∀ root, before.root = some root → after.root = some root
  | innermost :: outer =>
    ∃ more, after.built =
      ({ innermost with children := innermost.children ++ more } :: outer, before.root)

namespace Extends

theorem of_built_eq (h : after.built = before.built) : Extends before after := by
  obtain ⟨hstack, hroot⟩ := Prod.mk.inj h
  unfold Extends
  split
  · rename_i hnil
    exact ⟨hstack.trans hnil, fun root hbefore => hroot.trans hbefore⟩
  · rename_i innermost outer hcons
    exact ⟨[], by rw [List.append_nil, h, built, hcons]⟩

theorem refl (context : Context) : Extends context context :=
  of_built_eq rfl

theorem trans {middle : Context} (h : Extends before middle) (h' : Extends middle after) :
    Extends before after := by
  cases hstack : before.stack with
  | nil =>
    simp only [Extends, hstack] at h ⊢
    obtain ⟨hmiddle, hroot⟩ := h
    simp only [Extends, hmiddle] at h'
    exact ⟨h'.1, fun root hbefore => h'.2 root (hroot root hbefore)⟩
  | cons innermost outer =>
    simp only [Extends, hstack] at h ⊢
    obtain ⟨first, hmiddle⟩ := h
    obtain ⟨hopen, hroot⟩ := Prod.mk.inj hmiddle
    simp only [Extends, hopen, hroot] at h'
    obtain ⟨second, hafter⟩ := h'
    exact ⟨first ++ second, by rw [hafter, List.append_assoc]⟩

/-- Writing a leaf extends a context, also if it is refused. -/
theorem leaf (content : Leaf) (context : Context) :
    Extends context (context.attempt (.leaf content)).2 := by
  unfold attempt
  split
  · rename_i changed hedit
    rcases edit_cases hedit with
      ⟨_, hpush, -⟩ | ⟨_, _, hpop, -⟩ | ⟨_, innermost, outer, -, hstack, rfl⟩
    · cases hpush
    · cases hpop
    · simp only [Extends, hstack]
      exact ⟨[.leaf _], rfl⟩
  · exact refl context

/-- Attaching a finished container extends the context of its parents, unless it would
replace a root. -/
theorem attach (finished : Container) (h : context.stack = [] → context.root = none) :
    Extends context (context.attach finished context.stack) := by
  cases hstack : context.stack with
  | nil =>
    simp only [Extends, hstack, Context.attach, h hstack]
    refine ⟨trivial, fun root hroot => ?_⟩
    cases hroot
  | cons innermost outer =>
    simp only [Extends, hstack]
    exact ⟨[finished.toElement], rfl⟩

end Extends

/-- **How a scope is settled** if its container is still the innermost one, on top of the
containers that were open before: in failure with these as they were, or in success with the
container attached to them. -/
theorem settle_cases {outcome : Outcome} {innermost : Container}
    (h : outcome.2.built = (innermost :: context.stack, context.root)) :
    (∃ error, outcome.1 = .error error ∧ (settle context.depth outcome).1 = .error error ∧
      (settle context.depth outcome).2.built = context.built) ∨
    (outcome.1 = .ok () ∧ (settle context.depth outcome).1 = .ok () ∧
      (settle context.depth outcome).2.built = (context.attach innermost context.stack).built) := by
  obtain ⟨result, after⟩ := outcome
  obtain ⟨hstack, hroot⟩ := Prod.mk.inj h
  simp only at hstack hroot
  cases result with
  | error error =>
    refine Or.inl ⟨error, rfl, rfl, ?_⟩
    have hcount : after.stack.length - context.depth = 1 := by
      rw [hstack, List.length_cons, depth]
      omega
    have hdrop : after.stack.drop (after.stack.length - context.depth) = context.stack := by
      rw [hcount, hstack, List.drop_one, List.tail_cons]
    exact Prod.ext hdrop hroot
  | ok =>
    have hdepth : after.depth = context.depth + 1 := by
      rw [depth, hstack, List.length_cons, depth]
    have hpop : after.attempt .pop = (.ok (), after.attach innermost context.stack) := by
      simp [attempt, edit, hstack]
    have hsettle : settle context.depth (.ok (), after) =
        (.ok (), after.attach innermost context.stack) := by
      simp only [settle, hdepth, ↓reduceIte, hpop]
    have hattach : (after.attach innermost context.stack).built =
        (context.attach innermost context.stack).built := by
      cases hparents : context.stack with
      | nil => rfl
      | cons parent outer => simp only [attach, built, hroot]
    rw [hsettle]
    exact Or.inr ⟨rfl, rfl, hattach⟩

/-- **How a scope ends** if its body only extends the context: in failure with all that was
built as it was, or in success with one container attached to the parents. -/
theorem within_cases {body : Context → Outcome}
    (hbody : ∀ opened, context.edit (.push container) = .ok opened →
      Extends opened (body opened).2) :
    (∃ error, (context.within container body).1 = .error error ∧
      (context.within container body).2.built = context.built) ∨
    (∃ more, (context.within container body).1 = .ok () ∧
      (context.stack = [] → context.root = none) ∧
      (context.within container body).2.built =
        (context.attach { container with children := container.children ++ more }
          context.stack).built) := by
  unfold within
  split
  · rename_i error _
    exact Or.inl ⟨error, rfl, rfl⟩
  · rename_i opened hopen
    have hextends := hbody opened hopen
    rcases edit_cases hopen with ⟨_, hpush, hroot, rfl⟩ | ⟨_, _, hpop, -⟩ | ⟨_, _, _, hleaf, -⟩
    · cases hpush
      obtain ⟨more, hbuilt⟩ := hextends
      rcases settle_cases hbuilt with ⟨error, -, hresult, hafter⟩ | ⟨-, hresult, hafter⟩
      · exact Or.inl ⟨error, hresult, hafter⟩
      · exact Or.inr ⟨more, hresult, hroot, hafter⟩
    · cases hpop
    · cases hleaf

theorem Extends.within {body : Context → Outcome}
    (hbody : ∀ opened, context.edit (.push container) = .ok opened →
      Extends opened (body opened).2) :
    Extends context (context.within container body).2 := by
  rcases within_cases hbody with ⟨_, -, hbuilt⟩ | ⟨_, -, hroot, hbuilt⟩
  · exact .of_built_eq hbuilt
  · exact (Extends.attach _ hroot).trans (.of_built_eq hbuilt)

theorem Extends.visitChild {visit : Node → Context → Outcome} {index : Nat} {child : Node}
    (h : Extends (context.enter ⟨child.kind, index⟩)
      (visit child (context.enter ⟨child.kind, index⟩)).2) :
    Extends context (context.visitChild visit index child).2 := by
  cases hc : context.isCancelled with
  | true =>
    rw [visitChild_of_cancelled hc]
    exact refl context
  | false =>
    rw [visitChild_of_not_cancelled hc]
    exact h

end Context

open Context

/-- **A scoped program of a render in progress only extends what has been built**, however
deep the nodes are that it visits and whatever becomes of the errors on the way. -/
theorem Registry.Scoped.run_extends {registry : Registry} (h : registry.Scoped)
    {program : Program} (hprogram : program.Scoped) {context : Context}
    (hused : context.phase ≠ .idle) :
    Extends context (registry.run program context).2 := by
  induction program, context using Program.call_induction registry with
  | done result context => exact .refl context
  | look next context ih => exact ih (hprogram context.view) hused
  | notify notice next context ih =>
    have hnotify : (context.notify notice).built = context.built := by cases notice <;> rfl
    have hphase : (context.notify notice).phase = context.phase :=
      (Steady.notify notice context).phase hused
    exact (Extends.of_built_eq hnotify).trans (ih hprogram (hphase ▸ hused))
  | edit change next context ih =>
    obtain ⟨content, rfl⟩ := hprogram.leaf_of_edit
    have hphase := (Steady.attempt (.leaf content) context).phase hused
    exact (Extends.leaf content context).trans (ih (hprogram _) (hphase ▸ hused))
  | within container body next context ihBody ih =>
    have hwithin : Extends context (context.within container (registry.run body)).2 :=
      .within fun opened hopen =>
        ihBody opened hopen hprogram.1 ((Steady.edit hopen).phase hused ▸ hused)
    have hphase := (Steady.within (registry.run_steady body) container context).phase hused
    exact hwithin.trans (ih (hprogram.2 _) (hphase ▸ hused))
  | child index node next context ihNode ih =>
    have hchild : Extends context (context.visitChild registry.dispatcher.visit index node).2 :=
      .visitChild (by rw [dispatcher_visit]; exact ihNode (h.dispatch node _) hused)
    have hphase := (Steady.visitChild registry.visit_steady index node context).phase hused
    exact hchild.trans (ih (hprogram _) (hphase ▸ hused))
  | render document next context ihNode ih =>
    -- the context is in use, so the render is refused
    rw [run_render]
    rw [registry.render_of_used document hused] at ih ⊢
    exact ih (hprogram _) hused

end Rendition
