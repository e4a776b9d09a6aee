import Rendition.Proofs.Event.Text
import Rendition.Proofs.Renderer.Depth

/-!
# The text of a rendered document

The built-in renderers neither lose nor move text: if a document can be rendered, and nothing
in it keeps a text that it does not show (`Node.Legible`), the rich text reads like the
document (`Registry.plainText_render`).  Together with `Node.text_ofEvents` this follows the
text all the way from the events to the rich text.
-/

namespace Rendition

/-! ## The text of one node -/

/-- The text of at most one leaf. -/
def Leaf.textOf (content : Option Leaf) : String :=
  (content.map Leaf.plainText).getD ""

/-- The text that a treatment writes itself. -/
def Treatment.ownText : Treatment → String
  | block _ content | leaf content => Leaf.textOf content
  | refused _ | container _ | unwrapped => ""

theorem Leaf.textOf_text? (text : String) : Leaf.textOf (Leaf.text? text) = text := by
  unfold Leaf.text?
  split
  · exact Eq.symm ‹_›
  · rfl

/-- What is written for a node is the node's own text. -/
theorem NodeKind.Accepts.ownText_treatment {kind : NodeKind} {attrs : Attributes}
    (haccepts : kind.Accepts attrs) (hhtml : kind ≠ .html)
    (hnone : kind.hasText = false → attrs.text = none) (children : List Node)
    {around : Option ContainerKind} {treatment : Treatment}
    (h : kind.treatment attrs around = some treatment) :
    treatment.ownText = (Node.mk kind attrs children).ownText := by
  have hblank : kind.hasText = false → "" = attrs.text.getD "" := by
    intro hkind
    rw [hnone hkind]
    rfl
  cases kind with
  | custom name => exact haccepts.elim
  | html => exact absurd rfl hhtml
  | heading =>
    obtain ⟨level, hlevel, hrange⟩ := haccepts
    simp only [NodeKind.treatment, hlevel, hrange, and_self, ↓reduceIte, Option.some.injEq] at h
    subst h
    exact hblank rfl
  | text | code =>
    obtain ⟨text, htext⟩ := Option.isSome_iff_exists.mp haccepts
    simp only [NodeKind.treatment, Attributes.written, htext, Option.some.injEq] at h
    subst h
    exact (congrArg (Option.getD · "") htext).symm
  | image =>
    obtain ⟨destination, hdestination⟩ := Option.isSome_iff_exists.mp haccepts
    simp only [NodeKind.treatment, hdestination, Option.some.injEq] at h
    subst h
    rfl
  | link =>
    obtain ⟨destination, hdestination⟩ := Option.isSome_iff_exists.mp haccepts
    simp only [NodeKind.treatment, hdestination, Option.some.injEq] at h
    subst h
    exact hblank rfl
  | codeBlock =>
    cases h
    change Leaf.textOf (attrs.text.bind Leaf.text?) = attrs.text.getD ""
    cases attrs.text with
    | none => rfl
    | some text => exact Leaf.textOf_text? text
  | softBreak | hardBreak =>
    cases h
    rfl
  | _ =>
    cases h
    exact hblank rfl

/-! ## The text of what is yielded -/

theorem Element.plainTextAll_append (first second : List Element) :
    plainTextAll (first ++ second) = plainTextAll first ++ plainTextAll second := by
  induction first with
  | nil => exact String.empty_append.symm
  | cons element rest ih =>
    rw [List.cons_append, plainTextAll, ih, plainTextAll, String.append_assoc]

/-- What is yielded, if anything is, reads like this. -/
def Yield.Shows (text : String) (result : Except RenderError Yield) : Prop :=
  ∀ yield, result = .ok yield → Element.plainTextAll yield.elements = text

namespace Yield

variable {text more : String} {result : Except RenderError Yield}

theorem shows_error (error : RenderError) : Shows text (.error error) := nofun

theorem shows_empty : Shows "" (.ok {}) := by
  rintro yield ⟨⟩
  rfl

theorem Shows.andThen {second : Yield → Except RenderError Yield} (h : Shows text result)
    (hmore : ∀ yield, Shows more (second yield)) :
    Shows (text ++ more) (Yield.andThen result second) := by
  intro yield hyield
  cases result with
  | error error => cases hyield
  | ok first =>
    rw [andThen] at hyield
    cases hsecond : second first with
    | error error =>
      rw [hsecond] at hyield
      cases hyield
    | ok rest =>
      rw [hsecond] at hyield
      cases hyield
      rw [← h first rfl, ← hmore first rest hsecond]
      exact Element.plainTextAll_append first.elements rest.elements

theorem Shows.enclose (h : Shows text result) (shape kind : ContainerKind) :
    Shows text ((Site.inside kind).enclose shape result) := by
  intro yield hyield
  cases result with
  | error error => cases hyield
  | ok inner =>
    cases hyield
    exact (String.append_empty).trans (h inner rfl)

theorem shows_place (kind : ContainerKind) (content : Option Leaf) :
    Shows (Leaf.textOf content) ((Site.inside kind).place content) := by
  cases content with
  | none => exact shows_empty
  | some content =>
    rintro yield ⟨⟩
    exact String.append_empty

end Yield

open Yield

namespace Node

variable {options : RenderOptions}

mutual

/-- **A node in a container yields its text.** -/
theorem shows_yield (node : Node) (hr : node.Renderable) (hl : node.Legible) (path : NodePath)
    (kind : ContainerKind) : Shows node.plainText (node.yield options path (.inside kind)) := by
  obtain ⟨nodeKind, attrs, children⟩ := node
  obtain ⟨haccepts, hleaf, hchildren⟩ := hr
  obtain ⟨hnone, hcode, hhtml, hlegible⟩ := hl
  rw [plainText_mk, yield]
  by_cases hdeep : options.maxDepth < path.length
  · rw [if_pos hdeep]
    exact shows_error _
  · rw [if_neg hdeep]
    obtain ⟨hshortcoming, hcases⟩ := haccepts.treatment (some kind)
    have hcomplain : nodeKind.complain attrs options path = .ok {} := by
      simp only [NodeKind.complain, hshortcoming]
    simp only [Site.around, hcomplain, andThen_empty]
    have hown : ∀ treatment, nodeKind.treatment attrs (some kind) = some treatment →
        treatment.ownText = (mk nodeKind attrs children).ownText := fun _ =>
      haccepts.ownText_treatment hhtml hnone children
    rcases hcases with ⟨hkind, content, htreatment⟩ | ⟨hkind, shape, content, htreatment⟩ |
      ⟨-, shape, htreatment⟩
    all_goals rw [htreatment, ← hown _ htreatment]
    · obtain rfl := hleaf hkind
      rw [textAll, String.append_empty]
      exact shows_place kind content
    · -- the children of a code block would not be rendered, but there are none
      obtain rfl := hcode hkind
      rw [textAll, String.append_empty]
      exact (shows_place shape content).enclose shape kind
    · rw [Treatment.ownText, String.empty_append]
      exact (shows_yieldAll children hchildren hlegible path shape 0).enclose shape kind

theorem shows_yieldAll (children : List Node) (hr : ∀ child ∈ children, child.Renderable)
    (hl : ∀ child ∈ children, child.Legible) (path : NodePath) (kind : ContainerKind)
    (index : Nat) :
    Shows (textAll children) (yieldAll options path (.inside kind) index children) := by
  cases children with
  | nil => exact shows_empty
  | cons child rest =>
    obtain ⟨hchild, hrest⟩ := List.forall_mem_cons.mp hr
    obtain ⟨hlegible, hothers⟩ := List.forall_mem_cons.mp hl
    rw [textAll, yieldAll]
    exact (shows_yield child hchild hlegible _ kind).andThen fun _ =>
      shows_yieldAll rest hrest hothers path kind (index + 1)

end

end Node

/-! ## The text of the result -/

/-- A document reads like what it holds. -/
theorem Yield.Shows.rendered {text : String} {body : Except RenderError Yield}
    (h : Shows text body) {output : Rendered}
    (houtput : Yield.rendered ((Site.outside false).enclose .document body) = .ok output) :
    output.root.plainText = text := by
  cases body with
  | error error => cases houtput
  | ok inner =>
    cases houtput
    exact h inner rfl

/-- What the children of the node at a path yield once the render is called off. -/
def Node.halted (path : NodePath) : List Node → Except RenderError Yield
  | [] => .ok {}
  | child :: _ => .error (.cancelled (path ++ [⟨child.kind, 0⟩]))

theorem Node.shows_halted (path : NodePath) (children : List Node) :
    Yield.Shows (textAll children) (halted path children) := by
  cases children with
  | nil => exact Yield.shows_empty
  | cons child rest => exact Yield.shows_error _

namespace Context

/-- Once the render is called off, no child is visited any more. -/
theorem delivers_halted {registry : Registry} (children : List Node) {context : Context}
    (h : context.isCancelled = true) :
    Delivers context (Node.halted context.path children)
      (registry.run (.childrenFrom 0 children) context) := by
  cases children with
  | nil => exact congrArg (Prod.mk _) (gain_empty context).symm
  | cons child rest =>
    have hpath : (context.enter ⟨child.kind, 0⟩).path = context.path ++ [⟨child.kind, 0⟩] :=
      List.reverse_cons
    change (registry.run (.onSuccess (.childrenFrom 1 rest)
      (context.visitChild registry.dispatcher.visit 0 child).1) _).1 = _
    rw [visitChild_of_cancelled h, hpath]
    rfl

/-- A document that is not too deep delivers a container around what its children do. -/
theorem delivers_document (attrs : Attributes) (children : List Node) {context : Context}
    (hsite : context.site = .outside false)
    (hdeep : ¬ context.options.maxDepth < context.trail.length)
    (body : Site → Except RenderError Yield)
    (hbody : ∀ reached : Context, reached.options = context.options →
      reached.path = context.path → reached.isCancelled = context.isCancelled →
      Delivers reached (body reached.site)
        (Registry.defaults.run (.children (.mk .document attrs children)) reached)) :
    Delivers context ((Site.outside false).enclose .document (body (.inside .document)))
      (Registry.defaults.dispatcher.visit (.mk .document attrs children) context) := by
  rw [Registry.dispatcher_visit, Registry.run_dispatch_defaults _ _ hdeep, ← hsite]
  have htreat : Delivers context
      (Yield.andThen (.ok {}) fun _ => context.site.enclose .document (body (.inside .document)))
      (Registry.defaults.run (.treat (.mk .document attrs children) (.container .document))
        context) :=
    @delivers_treat _ _ _ (.container .document) _ hbody
  rw [Yield.andThen_empty] at htreat
  exact htreat

end Context

open Context in
/-- **A document that can be rendered reads the same then**, whether the render could have been
called off or not. -/
theorem Registry.plainText_render {document : Node} (hr : document.Renderable)
    (hl : document.Legible) (hkind : document.kind = .document) (options : RenderOptions)
    (signal : Option Bool) {output : Rendered}
    (h : (defaults.render document { options, signal }).1 = .ok output) :
    output.root.plainText = document.plainText := by
  obtain ⟨kind, attrs, children⟩ := document
  obtain rfl : kind = .document := hkind
  obtain ⟨-, -, hrenderable⟩ := hr
  obtain ⟨hnone, -, -, hlegible⟩ := hl
  let begun := Context.begin (.mk .document attrs children) { options, signal }
  have hown : (Node.mk .document attrs children).ownText = "" := congrArg (·.getD "") (hnone rfl)
  rw [Node.plainText_mk, hown, String.empty_append]
  have hdeep : ¬ begun.options.maxDepth < begun.trail.length := by
    intro hdeep
    have hvisit : Delivers begun (.error (.depthLimitExceeded options.maxDepth begun.path))
        (defaults.dispatcher.visit (.mk .document attrs children) begun) := by
      rw [dispatcher_visit, dispatch_of_tooDeep _ hdeep]
      rfl
    cases h.symm.trans (render_of_delivers _ rfl rfl rfl rfl hvisit)
  -- whatever becomes of the children, they are all that the text comes from
  cases hlive : begun.isCancelled with
  | false =>
    have hvisit := delivers_document attrs children rfl hdeep
      (fun site => Node.yieldAll options begun.path site 0 children)
      fun reached hoptions hpath hcancelled => by
        have hchildren := delivers_children children 0 reached (hcancelled.trans hlive)
        rwa [hoptions, hpath] at hchildren
    exact (Node.shows_yieldAll children hrenderable hlegible begun.path .document 0).rendered
      ((render_of_delivers _ rfl rfl rfl rfl hvisit).symm.trans h)
  | true =>
    have hvisit := delivers_document attrs children rfl hdeep
      (fun _ => Node.halted begun.path children)
      fun reached _ hpath hcancelled => hpath ▸ delivers_halted children (hcancelled.trans hlive)
    exact (Node.shows_halted begun.path children).rendered
      ((render_of_delivers _ rfl rfl rfl rfl hvisit).symm.trans h)

/-- **No text is lost, doubled or moved on the way** from the events to the rich text, for any
events without raw markup in which code blocks get nothing but text. -/
theorem plainText_ofEvents (events : List Event) (hhtml : ∀ event ∈ events, event.isHtml = false)
    (hplain : Event.Plain [] events) :
    (Node.ofEvents events).plainText = Event.textOf [] events ∧
    ∀ options signal output,
      (Registry.defaults.render (Node.ofEvents events) { options, signal }).1 = .ok output →
      output.root.plainText = Event.textOf [] events := by
  obtain ⟨htext, hlegible⟩ := Node.text_ofEvents hhtml hplain
  refine ⟨htext, fun options signal output houtput => ?_⟩
  rw [← htext]
  exact Registry.plainText_render (Node.renderable_ofEvents events) hlegible
    (Node.kind_ofEvents events) options signal houtput

/-- Events that do not balance: the paragraph and the code block are still open at the end, and
what comes first stops nothing. -/
theorem plainText_ofEvents_unclosed :
    let events : List Event :=
      [.stop .paragraph, .start .metadata, .text "title: x", .stop .metadata,
        .start .paragraph, .text "a", .softBreak, .start (.image "i.png" ""), .text "b",
        .code "c", .stop .image, .start (.codeBlock (some "rust")), .text "d", .softBreak,
        .text "e"]
    (∀ event ∈ events, event.isHtml = false) ∧ Event.Plain [] events ∧
      (Node.ofEvents events).plainText = "a bcd\ne" ∧
      ∃ output, (Registry.defaults.render (Node.ofEvents events) {}).1 = .ok output ∧
        output.root.plainText = "a bcd\ne" := by
  intro events
  have hhtml : ∀ event ∈ events, event.isHtml = false := by decide
  have hplain : Event.Plain [] events := by decide
  obtain ⟨htext, hrender⟩ := plainText_ofEvents events hhtml hplain
  obtain ⟨output, houtput⟩ : ∃ output, (Node.ofEvents events).rendered {} = .ok output :=
    ⟨_, rfl⟩
  have hresult : (Registry.defaults.render (Node.ofEvents events) {}).1 = .ok output :=
    (Registry.render_defaults _ rfl rfl rfl rfl rfl rfl).trans houtput
  exact ⟨hhtml, hplain, htext, output, hresult, hrender {} none output hresult⟩

end Rendition
