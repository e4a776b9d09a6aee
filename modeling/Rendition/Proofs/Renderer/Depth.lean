import Rendition.Proofs.Event.Renderable
import Rendition.Proofs.Node.Visit
import Rendition.Proofs.Renderer.Recursion

/-!
# Rendering documents from events

What events make is renderable (`Node.renderable_ofEvents`), and for a renderable document
nothing but the depth limit is left that a render can fail by: it fails at the first node
in document order that is nested too deeply, and without such a node it succeeds.  Either
way there are no warnings.

The result is read off the recursion `Node.yield`.  That a render which fails has no
warnings either is not visible there, so it is shown of the programs themselves
(`Context.warnings_visit`).
-/

namespace Rendition

/-- What is done with a node that has the attributes it needs. -/
theorem NodeKind.Accepts.treatment {kind : NodeKind} {attrs : Attributes}
    (h : kind.Accepts attrs) (around : Option ContainerKind) :
    kind.shortcoming attrs = none ∧
    ((kind.isLeaf = true ∧ ∃ content, kind.treatment attrs around = some (.leaf content)) ∨
      (kind = .codeBlock ∧ ∃ shape content,
        kind.treatment attrs around = some (.block shape content)) ∨
      (kind ≠ .codeBlock ∧ ∃ shape, kind.treatment attrs around = some (.container shape))) := by
  cases kind with
  | custom name => exact h.elim
  | heading =>
    obtain ⟨level, hlevel, hrange⟩ := h
    refine ⟨rfl, Or.inr (Or.inr ⟨by simp, .heading level attrs.extra["id"]?, ?_⟩)⟩
    simp only [NodeKind.treatment, hlevel, hrange, and_self, ↓reduceIte]
  | text | code | html =>
    obtain ⟨text, htext⟩ := Option.isSome_iff_exists.mp h
    refine ⟨rfl, Or.inl ⟨rfl, ?_⟩⟩
    simp only [NodeKind.treatment, Attributes.written, htext]
    exact ⟨_, rfl⟩
  | link =>
    obtain ⟨destination, hdestination⟩ := Option.isSome_iff_exists.mp h
    refine ⟨by simp [NodeKind.shortcoming, hdestination], Or.inr (Or.inr ⟨by simp, ?_⟩)⟩
    simp only [NodeKind.treatment, hdestination]
    exact ⟨_, rfl⟩
  | image =>
    obtain ⟨destination, hdestination⟩ := Option.isSome_iff_exists.mp h
    refine ⟨by simp [NodeKind.shortcoming, hdestination], Or.inl ⟨rfl, ?_⟩⟩
    simp only [NodeKind.treatment, hdestination]
    exact ⟨_, rfl⟩
  | taskListMarker =>
    obtain ⟨checked, hchecked⟩ := Option.isSome_iff_exists.mp h
    exact ⟨by simp [NodeKind.shortcoming, hchecked], Or.inl ⟨rfl, _, rfl⟩⟩
  | codeBlock => exact ⟨rfl, Or.inr (Or.inl ⟨rfl, _, _, rfl⟩)⟩
  | thematicBreak | softBreak | hardBreak => exact ⟨rfl, Or.inl ⟨rfl, _, rfl⟩⟩
  | _ => exact ⟨rfl, Or.inr (Or.inr ⟨by simp, _, rfl⟩)⟩

/-! ## The result -/

/-- A node that is nested too deeply. -/
def Visit.tooDeep (options : RenderOptions) (visit : Visit) : Bool :=
  options.maxDepth < visit.depth

/-- The yield is an error at the first of the visits that is too deep; without one it has no
warnings. -/
def Yield.Meets (options : RenderOptions) (visits : List Visit)
    (result : Except RenderError Yield) : Prop :=
  match visits.find? (Visit.tooDeep options) with
  | some visit => result = .error (.depthLimitExceeded options.maxDepth visit.path)
  | none => ∃ elements, result = .ok { elements }

namespace Yield

variable {options : RenderOptions} {visits more : List Visit} {result : Except RenderError Yield}

theorem meets_nil (elements : List Element) : Meets options [] (.ok { elements }) :=
  ⟨elements, rfl⟩

/-- Yields one after another meet their visits one after another. -/
theorem Meets.andThen {second : Yield → Except RenderError Yield}
    (h : Meets options visits result)
    (hmore : ∀ elements, Meets options more (second { elements })) :
    Meets options (visits ++ more) (Yield.andThen result second) := by
  unfold Meets at h ⊢
  rw [List.find?_append]
  cases hfound : visits.find? (Visit.tooDeep options) with
  | some visit =>
    rw [hfound] at h
    obtain rfl := h
    rfl
  | none =>
    rw [hfound] at h
    obtain ⟨elements, rfl⟩ := h
    have hrest := hmore elements
    unfold Meets at hrest
    simp only [Option.none_or]
    split at hrest
    · rw [Yield.andThen, hrest]
      rfl
    · obtain ⟨others, hothers⟩ := hrest
      rw [Yield.andThen, hothers]
      exact ⟨elements ++ others, rfl⟩

/-- A container around a yield meets the same visits. -/
theorem Meets.enclose (h : Meets options visits result) (shape kind : ContainerKind) :
    Meets options visits ((Site.inside kind).enclose shape result) := by
  unfold Meets at h ⊢
  split at h
  · rw [h]
    rfl
  · obtain ⟨elements, rfl⟩ := h
    exact ⟨[.container shape elements], rfl⟩

/-- A node that is too deep itself is the first one. -/
theorem meets_tooDeep {visit : Visit} (h : options.maxDepth < visit.depth) :
    Meets options (visit :: visits)
      (.error (.depthLimitExceeded options.maxDepth visit.path)) := by
  unfold Meets
  rw [List.find?_cons_of_pos (by simpa [Visit.tooDeep] using h)]

/-- A node that is not too deep itself leaves it to the nodes below. -/
theorem Meets.below {visit : Visit} (h : ¬ options.maxDepth < visit.depth)
    (hbelow : Meets options visits result) : Meets options (visit :: visits) result := by
  unfold Meets at hbelow ⊢
  rwa [List.find?_cons_of_neg (by simpa [Visit.tooDeep] using h)]

theorem meets_place (kind : ContainerKind) (content : Option Leaf) :
    Meets options [] ((Site.inside kind).place content) := by
  cases content with
  | none => exact meets_nil []
  | some content => exact meets_nil [.leaf content]

end Yield

open Yield

namespace Node

variable {options : RenderOptions}

mutual

/-- **A renderable node in a container yields an error at the first node that is too deep**,
or else no warnings. -/
theorem meets_yield (node : Node) (h : node.Renderable) (path : NodePath) (kind : ContainerKind) :
    Meets options (node.visitsFrom path) (node.yield options path (.inside kind)) := by
  obtain ⟨nodeKind, attrs, children⟩ := node
  obtain ⟨haccepts, hleaf, hchildren⟩ := h
  rw [visitsFrom, yield]
  by_cases hdeep : options.maxDepth < path.length
  · rw [if_pos hdeep]
    exact meets_tooDeep hdeep
  · rw [if_neg hdeep]
    refine Meets.below hdeep ?_
    have hbelow := meets_yieldAll children hchildren path
    obtain ⟨hshortcoming, hcases⟩ := haccepts.treatment (some kind)
    have hcomplain : nodeKind.complain attrs options path = .ok {} := by
      simp only [NodeKind.complain, hshortcoming]
    simp only [Site.around, hcomplain, andThen_empty]
    rcases hcases with ⟨hkind, content, htreatment⟩ | ⟨rfl, shape, content, htreatment⟩ |
      ⟨hcode, shape, htreatment⟩
    · -- the children of a leaf would not be rendered, but there are none
      obtain rfl := hleaf hkind
      rw [htreatment, visitsAll, ite_self]
      exact meets_place kind content
    · -- nothing below a code block is rendered, and nothing of it is listed
      rw [htreatment, if_pos rfl]
      exact (meets_place shape content).enclose shape kind
    · rw [htreatment, if_neg hcode]
      exact (hbelow shape 0).enclose shape kind

theorem meets_yieldAll (children : List Node) (h : ∀ child ∈ children, child.Renderable)
    (path : NodePath) (kind : ContainerKind) (index : Nat) :
    Meets options (visitsAll path index children)
      (yieldAll options path (.inside kind) index children) := by
  cases children with
  | nil => exact meets_nil []
  | cons child rest =>
    obtain ⟨hchild, hrest⟩ := List.forall_mem_cons.mp h
    rw [visitsAll, yieldAll]
    exact (meets_yield child hchild _ kind).andThen fun _ =>
      meets_yieldAll rest hrest path kind (index + 1)

end

/-- A document yields one container around what its children yield. -/
theorem yield_document (attrs : Attributes) (children : List Node) (path : NodePath) :
    (mk .document attrs children).yield options path (.outside false) =
      if options.maxDepth < path.length then
        .error (.depthLimitExceeded options.maxDepth path)
      else
        (yieldAll options path (.inside .document) 0 children).map fun inner =>
          ⟨[.container .document inner.elements], inner.warnings⟩ := by
  rw [yield]
  split
  · rfl
  · exact andThen_empty _

/-- The result of rendering a renderable document. -/
theorem rendered_of_renderable (options : RenderOptions) {document : Node} (h : document.Renderable)
    (hkind : document.kind = .document) :
    match document.visits.find? (Visit.tooDeep options) with
    | some visit =>
      document.rendered options = .error (.depthLimitExceeded options.maxDepth visit.path)
    | none => ∃ root, document.rendered options = .ok ⟨root, []⟩ := by
  obtain ⟨kind, attrs, children⟩ := document
  obtain rfl : kind = .document := hkind
  obtain ⟨-, -, hchildren⟩ := h
  have hbelow : Meets options _ _ := meets_yieldAll children hchildren [⟨.document, 0⟩] .document 0
  rw [rendered, kind_mk, yield_document, visits, visitsFrom, kind_mk,
    if_neg (by simp)]
  by_cases hdeep : options.maxDepth < [(⟨.document, 0⟩ : PathStep)].length
  · rw [List.find?_cons_of_pos (by simpa [Visit.tooDeep, Visit.depth] using hdeep), if_pos hdeep]
  · rw [List.find?_cons_of_neg (by simpa [Visit.tooDeep, Visit.depth] using hdeep), if_neg hdeep]
    unfold Meets at hbelow
    split at hbelow
    · rw [hbelow]
      rfl
    · obtain ⟨elements, hyield⟩ := hbelow
      rw [hyield]
      exact ⟨⟨.document, elements⟩, rfl⟩

end Node

/-! ## The warnings -/

namespace Context

variable {context : Context} {registry : Registry}

theorem warnings_attempt (change : Edit) (context : Context) :
    (context.attempt change).2.warnings = context.warnings := by
  rw [attempt_frame]

theorem warnings_settle (depth : Nat) (outcome : Outcome) :
    (settle depth outcome).2.warnings = outcome.2.warnings := by
  obtain ⟨_ | _, after⟩ := outcome
  · rfl
  · simp only [settle]
    split
    · exact warnings_attempt .pop after
    · rfl

/-- A scope keeps the warnings if its body does. -/
theorem warnings_within {container : Container} {body : Context → Outcome}
    (h : ∀ opened, context.edit (.push container) = .ok opened →
      (body opened).2.warnings = opened.warnings) :
    (context.within container body).2.warnings = context.warnings := by
  unfold within
  split
  · rfl
  · rename_i opened hopen
    rw [warnings_settle, h opened hopen, edit_frame hopen]

theorem warnings_leaf? (content : Option Leaf) (context : Context) :
    (registry.run (.leaf? content) context).2.warnings = context.warnings := by
  cases content with
  | none => rfl
  | some content => exact warnings_attempt (.leaf content) context

mutual

/-- **No visit of a renderable node warns**, even if it fails. -/
theorem warnings_visit (node : Node) (h : node.Renderable) (context : Context) :
    (Registry.defaults.dispatcher.visit node context).2.warnings = context.warnings := by
  obtain ⟨kind, attrs, children⟩ := node
  obtain ⟨haccepts, -, hchildren⟩ := h
  rw [Registry.dispatcher_visit]
  by_cases hdeep : context.options.maxDepth < context.trail.length
  · rw [Registry.dispatch_of_tooDeep _ hdeep]
    rfl
  · rw [Registry.run_dispatch_defaults _ _ hdeep]
    obtain ⟨hshortcoming, hcases⟩ := haccepts.treatment context.view.current
    have htreat : ∀ treatment, Program.treat (.mk kind attrs children) treatment =
        treatment.program (.mk kind attrs children) := by
      intro treatment
      simp only [Program.treat, Node.kind_mk, Node.attrs_mk, hshortcoming]
    simp only [Node.kind_mk, Node.attrs_mk]
    rcases hcases with ⟨-, content, htreatment⟩ | ⟨-, shape, content, htreatment⟩ |
      ⟨-, shape, htreatment⟩
    all_goals simp only [htreatment, htreat]
    · exact warnings_leaf? content context
    · exact warnings_within fun opened _ => warnings_leaf? content opened
    · exact warnings_within fun opened _ => warnings_children children hchildren 0 opened

theorem warnings_children (children : List Node) (h : ∀ child ∈ children, child.Renderable)
    (index : Nat) (context : Context) :
    (Registry.defaults.run (.childrenFrom index children) context).2.warnings =
      context.warnings := by
  cases children with
  | nil => rfl
  | cons child rest =>
    obtain ⟨hchild, hrest⟩ := List.forall_mem_cons.mp h
    have hvisit : (context.visitChild Registry.defaults.dispatcher.visit index child).2.warnings =
        context.warnings := by
      cases hcancelled : context.isCancelled with
      | true => rw [visitChild_of_cancelled hcancelled]
      | false =>
        rw [visitChild_of_not_cancelled hcancelled]
        exact warnings_visit child hchild (context.enter ⟨child.kind, index⟩)
    change (Registry.defaults.run (.onSuccess (.childrenFrom (index + 1) rest)
      (context.visitChild Registry.defaults.dispatcher.visit index child).1) _).2.warnings = _
    cases (context.visitChild Registry.defaults.dispatcher.visit index child).1 with
    | error error => exact hvisit
    | ok _ => exact (warnings_children rest hrest (index + 1) _).trans hvisit

end

end Context

/-- A render leaves no warnings behind if visiting the document adds none. -/
theorem Registry.warnings_render {document : Node} (h : document.Renderable) {context : Context}
    (hidle : context.phase = .idle) (hwarnings : context.warnings = []) :
    (defaults.render document context).2.warnings = [] := by
  rw [render_of_idle defaults document hidle]
  have hvisit := (Context.warnings_visit document h (context.begin document)).trans hwarnings
  rcases Context.conclude_cases (defaults.dispatcher.visit document (context.begin document)) with
    ⟨error, hend⟩ | ⟨root, -, -, -, hend⟩
  · rw [hend]
    exact hvisit
  · rw [hend]

/-- **Rendering what events describe** fails by nothing but the depth limit, and never warns.
It succeeds if no node is nested too deeply; otherwise the error is at the first node in
document order that is. -/
theorem render_ofEvents (options : RenderOptions) (events : List Event) :
    let document := Node.ofEvents events
    let outcome := Registry.defaults.render document { options }
    outcome.2.warnings = [] ∧
    (((∀ visit ∈ document.visits, visit.depth ≤ options.maxDepth) ∧
        ∃ root, outcome.1 = .ok ⟨root, []⟩) ∨
      ∃ earlier visit later, document.visits = earlier ++ visit :: later ∧
        (∀ other ∈ earlier, other.depth ≤ options.maxDepth) ∧
        options.maxDepth < visit.depth ∧
        document.at? visit.path = some visit.node ∧
        outcome.1 = .error (.depthLimitExceeded options.maxDepth visit.path)) := by
  intro document outcome
  have hrenderable : document.Renderable := Node.renderable_ofEvents events
  have hresult : outcome.1 = document.rendered options :=
    Registry.render_defaults document rfl rfl rfl rfl rfl rfl
  have hrendered := Node.rendered_of_renderable options hrenderable
    (Node.kind_ofEvents events)
  refine ⟨Registry.warnings_render hrenderable rfl rfl, ?_⟩
  rw [hresult]
  split at hrendered
  · rename_i visit hfound
    obtain ⟨hdeep, earlier, later, hvisits, hearlier⟩ := List.find?_eq_some_iff_append.mp hfound
    refine Or.inr ⟨earlier, visit, later, hvisits, ?_, ?_, ?_, hrendered⟩
    · intro other hother
      simpa [Visit.tooDeep] using hearlier other hother
    · simpa [Visit.tooDeep] using hdeep
    · exact Node.at?_of_visit (hvisits ▸ by simp)
  · rename_i hnone
    refine Or.inl ⟨fun visit hvisit => ?_, hrendered⟩
    simpa [Visit.tooDeep] using List.find?_eq_none.mp hnone visit hvisit

end Rendition
