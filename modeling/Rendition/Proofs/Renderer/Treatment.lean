import Rendition.Proofs.Registry
import Rendition.Proofs.Render.Descent
import Rendition.Renderer.Builtin

/-!
# What the built-in renderers do

The built-in renderers are 28 programs, but there are only five things that they do with a
node (`Treatment`).  Which one it is depends on the kind and the attributes of the node
and, for table cells, on the container around it; the children play no part in it
(`NodeKind.treatment`).  Three kinds have a shortcoming that a render gets over, at the
price of a warning (`NodeKind.shortcoming`).

Running the renderer of a kind is running the program of its treatment
(`Registry.run_defaults`), so what is proved about the five programs is proved about all
built-in renderers.
-/

namespace Rendition

/-- What is done with a node that can be rendered, or cannot. -/
inductive Treatment where
  /-- The node is an error. -/
  | refused (defect : Defect)
  /-- The children are rendered inside a container. -/
  | container (kind : ContainerKind)
  /-- A container with at most one leaf in it; the children are ignored. -/
  | block (kind : ContainerKind) (content : Option Leaf)
  /-- At most one leaf; the children are ignored. -/
  | leaf (content : Option Leaf)
  /-- The children are rendered in place of the node. -/
  | unwrapped

/-- A leaf with the text of a node, which has to have one. -/
def Attributes.written (attrs : Attributes) (leaf : String → Leaf) : Treatment :=
  match attrs.text with
  | some text => .leaf (some (leaf text))
  | none => .refused .missingText

/-- The title of a link or an image, unless it is empty. -/
def Attributes.shownTitle (attrs : Attributes) : Option String :=
  attrs.title.filter (· ≠ "")

/-- A text leaf, unless the text is empty. -/
def Leaf.text? (text : String) : Option Leaf :=
  if text = "" then none else some (.text text)

namespace NodeKind

/-- The treatment of a node with given attributes, where `around` is the innermost open
container; custom kinds have none. -/
def treatment (attrs : Attributes) (around : Option ContainerKind) : NodeKind → Option Treatment
  | document => some (.container .document)
  | paragraph => some (.container .paragraph)
  | heading => some <|
    match attrs.level with
    | none => .refused .missingLevel
    | some level =>
      if 1 ≤ level ∧ level ≤ 6 then
        .container (.heading level (attrs.extra["id"]?))
      else
        .refused (.levelOutOfRange level)
  | blockQuote => some (.container (.quote attrs.alert))
  | list => some (.container (.list attrs.start))
  | listItem => some (.container .listItem)
  | codeBlock => some (.block (.codeBlock attrs.language) (attrs.text.bind Leaf.text?))
  | thematicBreak => some (.leaf (some .rule))
  | table => some (.container .table)
  | tableHead => some (.container .tableHead)
  | tableRow => some (.container .tableRow)
  | tableCell => some <|
    .container (.tableCell (around = some .tableHead) (attrs.align.getD .none))
  | definitionList => some (.container .definitionList)
  | definitionTitle => some (.container .definitionTitle)
  | definitionDetails => some (.container .definitionDetails)
  | text => some (attrs.written .text)
  | code => some (attrs.written .code)
  | html => some (attrs.written .rawHtml)
  | emphasis => some (.container (.span .emphasis))
  | strong => some (.container (.span .strong))
  | strikethrough => some (.container (.span .strikethrough))
  | superscript => some (.container (.span .superscript))
  | subscript => some (.container (.span .subscript))
  | link => some <|
    match attrs.destination with
    | some destination => .container (.hyperlink destination attrs.shownTitle)
    | none => .unwrapped
  | image => some <|
    match attrs.destination with
    | some source => .leaf (some (.image source (attrs.text.getD "") attrs.shownTitle))
    | none => .leaf (Leaf.text? (attrs.text.getD ""))
  | softBreak => some (.leaf (some .softBreak))
  | hardBreak => some (.leaf (some .lineBreak))
  | taskListMarker => some (.leaf (some (.checkbox (attrs.checked.getD false))))
  | custom _ => none

/-- What is wrong with a node that is rendered all the same, unless in strict mode. -/
def shortcoming (attrs : Attributes) : NodeKind → Option Defect
  | link => if attrs.destination.isNone then some .linkWithoutDestination else none
  | image => if attrs.destination.isNone then some .imageWithoutDestination else none
  | taskListMarker => if attrs.checked.isNone then some .markerWithoutState else none
  | _ => none

end NodeKind

/-! ## Treatments as programs -/

/-- Writes a leaf, if there is one. -/
def Program.leaf? : Option Leaf → Program
  | none => skip
  | some content => leaf content

/-- Carries out a treatment. -/
def Treatment.program (node : Node) : Treatment → Program
  | refused defect => .reject node defect
  | container kind => .encloseChildren kind node
  | block kind content => .enclose kind (.leaf? content)
  | leaf content => .leaf? content
  | unwrapped => .children node

/-- Carries out a treatment, after the complaint about a shortcoming if there is one. -/
def Program.treat (node : Node) (treatment : Treatment) : Program :=
  match node.kind.shortcoming node.attrs with
  | none => treatment.program node
  | some defect => .seq (.degrade node defect) (treatment.program node)

namespace Registry

/-- **What a node calls for is its treatment**, if the node is not too deep. -/
theorem run_dispatch_defaults (node : Node) (context : Context)
    (h : ¬ context.options.maxDepth < context.trail.length) :
    defaults.run (defaults.dispatch node context) context =
      match node.kind.treatment node.attrs context.view.current with
      | none => (.error (.unregisteredKind node.kind context.path), context)
      | some treatment => defaults.run (.treat node treatment) context := by
  obtain ⟨kind, attrs, children⟩ := node
  rw [dispatch, if_neg h, defaults, resolve_ofList]
  cases kind with
  | heading =>
    change defaults.run (Renderer.heading.write _) context = _
    obtain ⟨text, level, _⟩ := attrs
    cases level with
    | none => rfl
    | some level =>
      simp only [Renderer.heading, Renderer.forKind, Node.kind_mk, Node.attrs_mk,
        NodeKind.treatment, ↓reduceIte]
      split <;> rfl
  | codeBlock =>
    change defaults.run (Renderer.codeBlock.write _) context = _
    obtain ⟨text, _⟩ := attrs
    cases text with
    | none => rfl
    | some text =>
      by_cases htext : text = ""
      · rw [htext]
        rfl
      · simp only [Renderer.codeBlock, Renderer.forKind, Node.kind_mk, Node.attrs_mk,
          NodeKind.treatment, Leaf.text?, Option.bind_some, htext, ↓reduceIte]
        rfl
  | text | code | html =>
    obtain ⟨text, _⟩ := attrs
    cases text <;> rfl
  | link =>
    obtain ⟨_, _, destination, _⟩ := attrs
    cases destination <;> rfl
  | image =>
    change defaults.run (Renderer.image.write _) context = _
    obtain ⟨text, _, destination, _⟩ := attrs
    cases destination with
    | some destination => rfl
    | none =>
      simp only [Renderer.image, Renderer.forKind, Node.kind_mk, Node.attrs_mk,
        NodeKind.treatment, Leaf.text?, ↓reduceIte]
      by_cases halt : text.getD "" = "" <;> simp only [halt, ↓reduceIte] <;> rfl
  | taskListMarker =>
    obtain ⟨_, _, _, _, _, _, checked, _⟩ := attrs
    cases checked <;> rfl
  | _ => rfl

end Registry
end Rendition
