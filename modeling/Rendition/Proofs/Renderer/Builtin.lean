import Rendition.Proofs.Registry
import Rendition.Renderer.Builtin

/-!
# The shape of the built-in renderers

The built-in renderers come in sixteen sorts, two of which may be made for any kind of node and
any container or style (`Renderer.IsBuiltin`).  Whichever it is, and for whatever node it is
called, there is little that it can do (`Program.Built`): refuse the node, write nothing, one
leaf or the children of the node, at most inside one container of its own, and complain of the
node before.  The one thing that any of them looks at is the container around the node.

So what holds of programs of this shape holds of all built-in renderers
(`Renderer.IsBuiltin.built`).
-/

namespace Rendition

/-- The renderer is one of those of the library, made for whatever kind and with whatever
parameters. -/
inductive Renderer.IsBuiltin : Renderer → Prop where
  | container (kind : NodeKind) (shape : ContainerKind) : IsBuiltin (.container kind shape)
  | styled (kind : NodeKind) (style : InlineStyle) : IsBuiltin (.styled kind style)
  | heading : IsBuiltin .heading
  | blockQuote : IsBuiltin .blockQuote
  | list : IsBuiltin .list
  | codeBlock : IsBuiltin .codeBlock
  | thematicBreak : IsBuiltin .thematicBreak
  | tableCell : IsBuiltin .tableCell
  | text : IsBuiltin .text
  | code : IsBuiltin .code
  | html : IsBuiltin .html
  | link : IsBuiltin .link
  | image : IsBuiltin .image
  | softBreak : IsBuiltin .softBreak
  | hardBreak : IsBuiltin .hardBreak
  | taskListMarker : IsBuiltin .taskListMarker

namespace Program

/-- What holds of a program and of those that fail holds of the program after success. -/
theorem onSuccess_cases {P : Program → Prop} {next : Program} (h : P next)
    (herror : ∀ error, P (done (.error error))) (result : Except RenderError Unit) :
    P (onSuccess next result) := by
  cases result with
  | ok => exact h
  | error error => exact herror error

/-- **Rendering the children of a node in order** has a property that doing nothing and failing
have, if to render one child before what has it keeps it. -/
theorem children_induction {P : Program → Prop} {node : Node} (hskip : P skip)
    (herror : ∀ error, P (done (.error error)))
    (hchild : ∀ index node' next, node' ∈ node.children → (∀ result, P (next result)) →
      P (child index node' next)) : P (children node) := by
  suffices hfrom : ∀ (nodes : List Node) (index : Nat), (∀ node' ∈ nodes, node' ∈ node.children) →
      P (childrenFrom index nodes) from hfrom node.children 0 fun _ hmem => hmem
  intro nodes
  induction nodes with
  | nil => exact fun _ _ => hskip
  | cons first rest ih =>
    intro index hnodes
    obtain ⟨hfirst, hrest⟩ := List.forall_mem_cons.mp hnodes
    exact hchild index first _ hfirst (onSuccess_cases (ih (index + 1) hrest) herror)

/-- Writes of a node what can be written without a container: nothing, a leaf, or its children. -/
inductive Plain (node : Node) : Program → Prop where
  | skip : Plain node .skip
  | leaf (content : Leaf) : Plain node (.leaf content)
  | children : Plain node (.children node)

/-- Does with a node what built-in renderers do. -/
inductive Built (node : Node) : Program → Prop where
  | reject (defect : Defect) : Built node (.reject node defect)
  | plain {program : Program} (h : Plain node program) : Built node program
  | enclose (kind : ContainerKind) {body : Program} (h : Plain node body) :
    Built node (.enclose kind body)
  | degrade (defect : Defect) {program : Program} (h : Plain node program) :
    Built node (.seq (.degrade node defect) program)
  | around {next : Option ContainerKind → Program} (h : ∀ kind, Built node (next kind)) :
    Built node (.look fun view => next view.current)

theorem built_encloseChildren (kind : ContainerKind) (node : Node) :
    Built node (encloseChildren kind node) :=
  .enclose kind .children

theorem built_withText (write : String → Leaf) (node : Node) :
    Built node (withText node fun text => leaf (write text)) := by
  unfold withText
  split
  · exact .plain (.leaf _)
  · exact .reject .missingText

end Program

open Program

namespace Renderer

theorem built_forKind {name : String} {kind : NodeKind} {write : Node → Program}
    (h : ∀ node, (write node).Built node) (node : Node) :
    ((forKind name kind write).write node).Built node := by
  unfold forKind
  dsimp only
  split
  · exact h node
  · exact .reject (.wrongKind kind)

theorem built_heading : ∀ node, (heading.write node).Built node := by
  refine built_forKind fun node => ?_
  split
  · exact .reject .missingLevel
  · split
    · exact built_encloseChildren _ node
    · exact .reject _

theorem built_codeBlock : ∀ node, (codeBlock.write node).Built node := by
  refine built_forKind fun node => .enclose _ ?_
  split
  · exact .skip
  · exact .skip
  · exact .leaf _

theorem built_tableCell : ∀ node, (tableCell.write node).Built node := by
  refine built_forKind fun node => ?_
  have hcell : ∀ around : Option ContainerKind, Built node (encloseChildren
      (.tableCell (around = some .tableHead) (node.attrs.align.getD .none)) node) :=
    fun _ => built_encloseChildren _ node
  exact .around hcell

theorem built_link : ∀ node, (link.write node).Built node := by
  refine built_forKind fun node => ?_
  split
  · exact built_encloseChildren _ node
  · exact .degrade _ .children

theorem built_image : ∀ node, (image.write node).Built node := by
  refine built_forKind fun node => ?_
  dsimp only
  split
  · exact .plain (.leaf _)
  · refine .degrade _ ?_
    split
    · exact .skip
    · exact .leaf _

theorem built_taskListMarker : ∀ node, (taskListMarker.write node).Built node := by
  refine built_forKind fun node => ?_
  split
  · exact .plain (.leaf _)
  · exact .degrade _ (.leaf _)

/-- **What built-in renderers do**, each for every node. -/
theorem IsBuiltin.built {renderer : Renderer} (h : renderer.IsBuiltin) (node : Node) :
    (renderer.write node).Built node := by
  have henclose : ∀ {name kind} (shape : Node → ContainerKind),
      ((forKind name kind fun node => encloseChildren (shape node) node).write node).Built node :=
    fun shape => built_forKind (fun node => built_encloseChildren (shape node) node) node
  have htext : ∀ {name kind} (write : String → Leaf),
      ((forKind name kind fun node => withText node fun text => leaf (write text)).write
        node).Built node :=
    fun write => built_forKind (built_withText write) node
  have hleaf : ∀ {name kind} (content : Leaf),
      ((forKind name kind fun _ => leaf content).write node).Built node :=
    fun content => built_forKind (fun _ => .plain (.leaf content)) node
  cases h with
  | container kind shape => exact henclose fun _ => shape
  | styled kind style => exact henclose fun _ => .span style
  | heading => exact built_heading node
  | blockQuote => exact henclose _
  | list => exact henclose _
  | codeBlock => exact built_codeBlock node
  | thematicBreak => exact hleaf .rule
  | tableCell => exact built_tableCell node
  | text => exact htext .text
  | code => exact htext .code
  | html => exact htext .rawHtml
  | link => exact built_link node
  | image => exact built_image node
  | softBreak => exact hleaf .softBreak
  | hardBreak => exact hleaf .lineBreak
  | taskListMarker => exact built_taskListMarker node

/-- The renderers that are registered by default are built-in ones. -/
theorem isBuiltin_of_mem : ∀ entry ∈ builtin, entry.2.IsBuiltin := by
  simp only [builtin, List.forall_mem_cons]
  exact ⟨.container _ _, .container _ _, .heading, .blockQuote, .list, .container _ _, .codeBlock,
    .thematicBreak, .container _ _, .container _ _, .container _ _, .tableCell, .container _ _,
    .container _ _, .container _ _, .text, .code, .styled _ _, .styled _ _, .styled _ _,
    .styled _ _, .styled _ _, .link, .image, .softBreak, .hardBreak, .taskListMarker, .html, nofun⟩

end Renderer

/-- All renderers of the registry are built-in ones, for whatever kinds they are registered. -/
def Registry.IsBuiltin (registry : Registry) : Prop :=
  ∀ kind renderer, registry.resolve kind = some renderer → renderer.IsBuiltin

theorem Registry.isBuiltin_ofList {entries : List (NodeKind × Renderer)}
    (h : ∀ entry ∈ entries, entry.2.IsBuiltin) : (ofList entries).IsBuiltin := by
  intro kind renderer hresolve
  rw [resolve_ofList] at hresolve
  obtain ⟨entry, hfound, rfl⟩ := Option.map_eq_some_iff.mp hresolve
  exact h entry (List.mem_reverse.mp (List.mem_of_find?_eq_some hfound))

theorem Registry.isBuiltin_defaults : defaults.IsBuiltin :=
  isBuiltin_ofList Renderer.isBuiltin_of_mem

/-- Registering built-in renderers and taking renderers away leaves only built-in ones. -/
theorem Registry.IsBuiltin.apply {registry : Registry} (h : registry.IsBuiltin)
    {change : RegistryChange}
    (hchange : ∀ renderer, change.renderer? = some renderer → renderer.IsBuiltin) :
    (change.apply registry).2.IsBuiltin := by
  intro kind renderer hresolve
  rw [RegistryChange.resolve_apply] at hresolve
  by_cases hkind : change.kind = kind
  · rw [if_pos hkind] at hresolve
    exact hchange renderer hresolve
  · rw [if_neg hkind] at hresolve
    exact h kind renderer hresolve

end Rendition
