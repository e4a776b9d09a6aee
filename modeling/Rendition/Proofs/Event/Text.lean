import Rendition.Proofs.Event.Renderable
import Rendition.Proofs.Node.Preorder

/-!
# The text of a document is that of its events

Which text a sequence of events carries can be said without building anything
(`Event.textOf`): all that matters are the tags that are open when an event comes, and
whether the innermost one that opens a node is a code block.

Read against it, a `TreeBuilder` always holds the text of the events so far.  It is the text
of its open nodes, from the root in (`TreeBuilder.text`): every event adds to the end of it,
and closing a frame only moves text from a node to the one around it.  For this the
innermost node has to be the place where text ends, so an open code block, which puts text
away as its own, must not have got children.  That is what `Event.Plain` asks of the events.
-/

namespace Rendition

/-! ## The text of events -/

/-- Whether the tag opens a node of the document. -/
def TagKind.opensNode : TagKind → Bool
  | htmlBlock | footnote | metadata => false
  | _ => true

/-- Whether the innermost open node is a code block. -/
def TagKind.inCode (openTags : List TagKind) : Bool :=
  openTags.find? opensNode = some codeBlock

namespace Event

/-- The tags that are open after an event, innermost first.  A stop closes the innermost one,
whatever its name. -/
def openAfter (openTags : List TagKind) : Event → List TagKind
  | start tag => tag.kind :: openTags
  | stop _ => openTags.tail
  | _ => openTags

/-- What an event outside of metadata adds to the text. -/
def ownText (openTags : List TagKind) : Event → String
  | text content | code content => content
  | hardBreak => " "
  | softBreak => if TagKind.inCode openTags then "\n" else " "
  | _ => ""

/-- What an event adds to the text.  Nothing inside metadata is text. -/
def addedText (openTags : List TagKind) (event : Event) : String :=
  if .metadata ∈ openTags then "" else event.ownText openTags

/-- The text that events carry. -/
def textOf (openTags : List TagKind) : List Event → String
  | [] => ""
  | event :: rest => event.addedText openTags ++ textOf (event.openAfter openTags) rest

/-- Whether the event makes a node, other than a run of text or a soft break. -/
def makesNode : Event → Bool
  | start tag => tag.kind.opensNode
  | code _ | html _ | inlineHtml _ | hardBreak | rule | task _ => true
  | _ => false

/-- Whether the event is raw markup. -/
def isHtml : Event → Bool
  | html _ | inlineHtml _ => true
  | _ => false

/-- Code blocks get nothing but text: while one is the innermost open node, no event outside of
metadata makes a node, other than a run of text or a soft break. -/
def Plain (openTags : List TagKind) : List Event → Prop
  | [] => True
  | event :: rest =>
    (TagKind.inCode openTags = true → .metadata ∉ openTags → event.makesNode = false) ∧
    Plain (event.openAfter openTags) rest

instance decidablePlain (openTags : List TagKind) : (events : List Event) →
    Decidable (Plain openTags events)
  | [] => inferInstanceAs (Decidable True)
  | event :: rest =>
    have := decidablePlain (event.openAfter openTags) rest
    inferInstanceAs (Decidable (_ ∧ _))

end Event

/-! ## Nodes that show their text -/

/-- Whether nodes of the kind may have a text of their own. -/
def NodeKind.hasText : NodeKind → Bool
  | text | code | image | codeBlock => true
  | _ => false

/-- The node and all nodes below it show their text and no other: there is none that is kept
and not shown, no code block has children, and there is no raw markup. -/
inductive Node.Legible : Node → Prop where
  | mk {kind : NodeKind} {attrs : Attributes} {children : List Node}
    (text : kind.hasText = false → attrs.text = none)
    (code : kind = .codeBlock → children = [])
    (html : kind ≠ .html)
    (below : ∀ child ∈ children, child.Legible) : Legible (.mk kind attrs children)

namespace OpenNode

variable {node : OpenNode}

theorem plainText_append (node : OpenNode) (child : Node) :
    (node.append child).toNode.plainText = node.toNode.plainText ++ child.plainText := by
  simp only [toNode, append, List.reverse_cons, Node.plainText_mk, Node.textAll_append,
    Node.textAll_singleton, String.append_assoc]
  rfl

theorem legible_append (h : node.toNode.Legible) (hcode : node.kind ≠ .codeBlock)
    {child : Node} (hchild : child.Legible) : (node.append child).toNode.Legible := by
  obtain ⟨htext, -, hhtml, hbelow⟩ := h
  refine .mk htext (fun hkind => absurd hkind hcode) hhtml ?_
  intro other hother
  simp only [append, List.reverse_cons] at hother
  rcases List.mem_append.mp hother with hold | hnew
  · exact hbelow other hold
  · rw [List.mem_singleton.mp hnew]
    exact hchild

/-- A code block puts text behind the text it has. -/
theorem appendText_code (h : node.toNode.Legible) (hcode : node.kind = .codeBlock)
    (text : String) :
    let changed : OpenNode := { node with attrs := appendText node.attrs text }
    changed.toNode.plainText = node.toNode.plainText ++ text ∧ changed.toNode.Legible := by
  obtain ⟨-, hchildren, hhtml, hbelow⟩ := h
  obtain ⟨kind, attrs, newest⟩ := node
  obtain rfl : kind = .codeBlock := hcode
  have hnil : newest = [] := List.reverse_eq_nil_iff.mp (hchildren rfl)
  subst hnil
  refine ⟨?_, .mk nofun (fun _ => rfl) hhtml hbelow⟩
  simp only [toNode, List.reverse_nil, Node.plainText_mk, Node.textAll, String.append_empty]
  rfl

/-- A run of text that stands last grows at its end. -/
theorem appendText_run (attrs : Attributes) (text : String) :
    (Node.mk .text (appendText attrs text) []).plainText =
      (Node.mk .text attrs []).plainText ++ text := by
  rw [Node.plainText_childless, Node.plainText_childless]
  rfl

/-- **Text goes to the end of an open node.** -/
theorem addText_spec (hsound : node.Sound) (h : node.toNode.Legible) (text : String) :
    (node.addText text).toNode.plainText = node.toNode.plainText ++ text ∧
    (node.addText text).toNode.Legible := by
  unfold addText
  split
  · exact appendText_code h ‹_› text
  · rename_i hcode
    split
    · rename_i attrs children older hnewest
      obtain ⟨kind, nodeAttrs, newest⟩ := node
      obtain rfl : newest = .mk .text attrs children :: older := hnewest
      -- runs of text are leaves
      have hrun := hsound.children _ List.mem_cons_self
      obtain ⟨-, hleaf, -⟩ := hrun
      obtain rfl := hleaf rfl
      have holder : (OpenNode.mk kind nodeAttrs older).toNode.Legible := by
        obtain ⟨htext, -, hhtml, hbelow⟩ := h
        refine .mk htext (fun hkind => absurd hkind hcode) hhtml fun child hchild => ?_
        have hmem : child ∈ .mk .text attrs [] :: older :=
          List.mem_cons_of_mem _ (List.mem_reverse.mp hchild)
        exact hbelow child (List.mem_reverse.mpr hmem)
      have hgrown : (Node.mk .text (appendText attrs text) []).Legible :=
        .mk nofun nofun nofun nofun
      refine ⟨?_, legible_append holder hcode hgrown⟩
      -- take the run off, and put it back longer
      let rest : OpenNode := ⟨kind, nodeAttrs, older⟩
      have hbefore := plainText_append rest (.mk .text attrs [])
      have hafter := plainText_append rest (.mk .text (appendText attrs text) [])
      rw [appendText_run, ← String.append_assoc, ← hbefore] at hafter
      exact hafter
    · have hrun : (Node.text text).Legible := .mk nofun nofun nofun nofun
      refine ⟨?_, legible_append h hcode hrun⟩
      have htext : (Node.text text).plainText = text := by
        exact Node.plainText_childless .text { text := some text }
      rw [plainText_append, htext]

theorem kind_addText (text : String) (node : OpenNode) : (node.addText text).kind = node.kind := by
  unfold addText
  split
  · rfl
  · split <;> rfl

theorem kind_addSoftBreak (node : OpenNode) : node.addSoftBreak.kind = node.kind := by
  unfold addSoftBreak
  split <;> rfl

/-- A soft break ends a line of code, and is a space elsewhere. -/
theorem addSoftBreak_spec (h : node.toNode.Legible) :
    node.addSoftBreak.toNode.plainText =
      node.toNode.plainText ++ (if node.kind = .codeBlock then "\n" else " ") ∧
    node.addSoftBreak.toNode.Legible := by
  unfold addSoftBreak
  split
  · exact appendText_code h ‹_› "\n"
  · rename_i hcode
    have hbreak : (Node.ofKind .softBreak).Legible := .mk (fun _ => rfl) nofun nofun nofun
    have hspace : (Node.ofKind .softBreak).plainText = " " := Node.plainText_childless _ _
    refine ⟨?_, legible_append h hcode hbreak⟩
    rw [plainText_append, hspace]

/-- A node that is closed has the text it had, an image as its own. -/
theorem close_spec (h : node.toNode.Legible) :
    node.close.plainText = node.toNode.plainText ∧ node.close.Legible := by
  unfold close
  split
  · exact ⟨Node.plainText_childless _ _, .mk nofun nofun nofun nofun⟩
  · exact ⟨rfl, h⟩

/-- The text of open nodes, of which each holds the one before it. -/
def textThrough : List OpenNode → String
  | [] => ""
  | node :: outer => textThrough outer ++ node.toNode.plainText

end OpenNode

/-! ## The open frames -/

namespace Frame

/-- The node that the frame builds. -/
def node? : Frame → Option OpenNode
  | building node => some node
  | passing | skipping => none

/-- The frame is one that a tag of the kind opens, outside of metadata. -/
def Opens (tag : TagKind) : Frame → Prop
  | building node =>
    tag.opensNode = true ∧ (node.kind = .codeBlock ↔ tag = .codeBlock) ∧
      node.toNode.Legible ∧ node.toNode.plainText = ""
  | passing => tag.opensNode = false ∧ tag ≠ .metadata
  | skipping => tag = .metadata

theorem opens_building {tag : TagKind} {kind : NodeKind} {attrs : Attributes}
    (hopens : tag.opensNode = true) (hcode : kind = .codeBlock ↔ tag = .codeBlock)
    (hleaf : kind.isLeaf = true → kind = .image) (htext : attrs.text.getD "" = "")
    (hnone : kind.hasText = false → attrs.text = none) :
    (building ⟨kind, attrs, []⟩).Opens tag := by
  refine ⟨hopens, hcode, .mk hnone (fun _ => rfl) ?_ nofun, ?_⟩
  · rintro rfl
    cases hleaf rfl
  · refine (Node.plainText_childless kind attrs).trans ?_
    cases kind with
    | softBreak | hardBreak => cases hleaf rfl
    | _ => exact htext

/-- The frames are those that the open tags have left. -/
inductive Mirrors : List TagKind → List Frame → Prop where
  | nil : Mirrors [] []
  /-- Inside metadata all frames are skipped. -/
  | skipping {tag : TagKind} {openTags : List TagKind} {frames : List Frame}
    (outer : Mirrors openTags frames) (inside : .metadata ∈ tag :: openTags) :
    Mirrors (tag :: openTags) (skipping :: frames)
  | passing {tag : TagKind} {openTags : List TagKind} {frames : List Frame}
    (outer : Mirrors openTags frames) (outside : .metadata ∉ tag :: openTags)
    (opens : tag.opensNode = false) : Mirrors (tag :: openTags) (passing :: frames)
  | building {tag : TagKind} {openTags : List TagKind} {frames : List Frame} {node : OpenNode}
    (outer : Mirrors openTags frames) (outside : .metadata ∉ tag :: openTags)
    (opens : tag.opensNode = true) (code : node.kind = .codeBlock ↔ tag = .codeBlock) :
    Mirrors (tag :: openTags) (building node :: frames)

/-- How many frames are skipped ones. -/
def skippedIn : List Frame → Nat
  | [] => 0
  | .skipping :: outer => skippedIn outer + 1
  | _ :: outer => skippedIn outer

namespace Mirrors

variable {openTags : List TagKind} {frames : List Frame}

/-- There is a frame for each open tag. -/
theorem length_eq (h : Mirrors openTags frames) : openTags.length = frames.length := by
  induction h with
  | nil => rfl
  | skipping _ _ ih | passing _ _ _ ih | building _ _ _ _ ih => exact congrArg (· + 1) ih

/-- Some frame is skipped just inside metadata. -/
theorem skippedIn_eq_zero (h : Mirrors openTags frames) :
    skippedIn frames = 0 ↔ .metadata ∉ openTags := by
  induction h with
  | nil => exact ⟨fun _ => List.not_mem_nil, fun _ => rfl⟩
  | skipping _ inside _ => exact ⟨nofun, fun houtside => absurd inside houtside⟩
  | passing _ outside _ ih | building _ outside _ _ ih =>
    exact ⟨fun _ => outside, fun _ => ih.mpr fun hmem => outside (List.mem_cons_of_mem _ hmem)⟩

/-- Outside of metadata it is the innermost open node that says whether events come in a
code block. -/
theorem inCode_iff (h : Mirrors openTags frames) (hmetadata : .metadata ∉ openTags)
    {root : OpenNode} (hroot : root.kind ≠ .codeBlock) :
    ∃ current outer, frames.filterMap node? ++ [root] = current :: outer ∧
      (current.kind = .codeBlock ↔ TagKind.inCode openTags = true) := by
  induction h with
  | nil => exact ⟨root, [], rfl, fun hkind => absurd hkind hroot, nofun⟩
  | skipping _ inside _ => exact absurd inside hmetadata
  | passing _ outside opens ih =>
    -- the frame has no node, and its tag opens none
    obtain ⟨current, outer, hnodes, hcode⟩ :=
      ih fun hmem => hmetadata (List.mem_cons_of_mem _ hmem)
    refine ⟨current, outer, hnodes, ?_⟩
    rw [hcode, TagKind.inCode, TagKind.inCode, List.find?_cons_of_neg (by simp [opens])]
  | building _ _ opens code =>
    refine ⟨_, _, rfl, ?_⟩
    rw [code, TagKind.inCode, List.find?_cons_of_pos opens]
    simp

/-- A change of the innermost node that keeps its kind leaves the frames as they are
otherwise. -/
theorem modifyInnermost (h : Mirrors openTags frames) {f : OpenNode → OpenNode}
    (hf : ∀ node, (f node).kind = node.kind) {changed : List Frame}
    (hchanged : TreeBuilder.modifyInnermost? f frames = some changed) :
    Mirrors openTags changed ∧ skippedIn changed = skippedIn frames := by
  induction h generalizing changed with
  | nil => cases hchanged
  | skipping _ inside ih =>
    obtain ⟨rest, hrest, rfl⟩ := Option.map_eq_some_iff.mp hchanged
    obtain ⟨houter, hskipped⟩ := ih hrest
    exact ⟨.skipping houter inside, congrArg (· + 1) hskipped⟩
  | passing _ outside opens ih =>
    obtain ⟨rest, hrest, rfl⟩ := Option.map_eq_some_iff.mp hchanged
    obtain ⟨houter, hskipped⟩ := ih hrest
    exact ⟨.passing houter outside opens, hskipped⟩
  | building outer outside opens code _ =>
    cases hchanged
    exact ⟨.building outer outside opens ((hf _).symm ▸ code), rfl⟩

end Mirrors
end Frame

/-! ## What a builder holds -/

namespace TreeBuilder

variable {builder : TreeBuilder} {openTags : List TagKind}

/-- The open nodes, innermost first. -/
def nodes (builder : TreeBuilder) : List OpenNode :=
  builder.frames.filterMap Frame.node? ++ [builder.root]

/-- The text of the document as far as it is built. -/
def text (builder : TreeBuilder) : String :=
  OpenNode.textThrough builder.nodes

/-- There is always an open node, if only the root. -/
theorem nodes_eq_cons (builder : TreeBuilder) :
    ∃ current outer, builder.nodes = current :: outer :=
  List.exists_cons_of_ne_nil (by simp [nodes])

/-- If no frame builds a node, none can be changed. -/
theorem nodes_of_modifyInnermost_none {f : OpenNode → OpenNode} {frames : List Frame}
    (h : modifyInnermost? f frames = none) : frames.filterMap Frame.node? = [] := by
  induction frames with
  | nil => rfl
  | cons frame outer ih =>
    cases frame with
    | building node => cases h
    | passing | skipping => exact ih (Option.map_eq_none_iff.mp h)

/-- Otherwise it is the first one that is changed. -/
theorem nodes_of_modifyInnermost {f : OpenNode → OpenNode} {frames changed : List Frame}
    (h : modifyInnermost? f frames = some changed) :
    ∃ current outer, frames.filterMap Frame.node? = current :: outer ∧
      changed.filterMap Frame.node? = f current :: outer := by
  induction frames generalizing changed with
  | nil => cases h
  | cons frame rest ih =>
    cases frame with
    | building node =>
      cases h
      exact ⟨node, rest.filterMap Frame.node?, rfl, rfl⟩
    | passing | skipping =>
      obtain ⟨inner, hinner, rfl⟩ := Option.map_eq_some_iff.mp h
      obtain ⟨current, outer, hbefore, hafter⟩ := ih hinner
      exact ⟨current, outer, hbefore, hafter⟩

/-- A change of the current node is one of the first open node. -/
theorem nodes_modifyCurrent (f : OpenNode → OpenNode) (builder : TreeBuilder) :
    (builder.modifyCurrent f).nodes = builder.nodes.modifyHead f := by
  unfold modifyCurrent
  split
  · obtain ⟨current, outer, hbefore, hafter⟩ := nodes_of_modifyInnermost ‹_›
    rw [nodes, nodes, hbefore, hafter]
    rfl
  · rw [nodes, nodes, nodes_of_modifyInnermost_none ‹_›]
    rfl

theorem Sound.nodes (h : builder.Sound) : ∀ node ∈ builder.nodes, node.Sound := by
  intro node hnode
  rcases List.mem_append.mp hnode with hframe | hroot
  · obtain ⟨frame, hmem, hbuilt⟩ := List.mem_filterMap.mp hframe
    have hsound := h.frames frame hmem
    cases frame with
    | building =>
      cases hbuilt
      exact hsound
    | passing | skipping => cases hbuilt
  · rw [List.mem_singleton.mp hroot]
    exact h.root

/-- What the builder holds while some tags are open: the frames that they have left, and
nodes that show their text, of which only the innermost may be a code block. -/
structure Reads (openTags : List TagKind) (builder : TreeBuilder) : Prop where
  sound : builder.Sound
  mirrors : Frame.Mirrors openTags builder.frames
  skipped : builder.skipped = Frame.skippedIn builder.frames
  legible : ∀ node ∈ builder.nodes, node.toNode.Legible
  outer : ∀ node ∈ builder.nodes.tail, node.kind ≠ .codeBlock

theorem reads_empty : Reads [] {} := by
  have hroot : (Node.mk .document {} []).Legible := .mk (fun _ => rfl) nofun nofun nofun
  refine ⟨sound_empty, .nil, rfl, ?_, fun node hnode => ?_⟩
  · intro node hnode
    obtain rfl := List.mem_singleton.mp hnode
    exact hroot
  · cases hnode

/-- **What the start of a tag does**: it opens one frame. -/
theorem start_cases (builder : TreeBuilder) (tag : Tag) :
    ∃ frame table, frame.Opens tag.kind ∧ builder.start tag =
      { builder with
        frames := frame :: builder.frames, table
        skipped := builder.skipped + Frame.skippedIn [frame] } := by
  cases tag with
  | htmlBlock | footnote => exact ⟨.passing, builder.table, ⟨rfl, nofun⟩, rfl⟩
  | metadata => exact ⟨.skipping, builder.table, rfl, rfl⟩
  | codeBlock fence =>
    refine ⟨.building ⟨.codeBlock, codeAttrs fence, []⟩, builder.table, ?_, rfl⟩
    refine Frame.opens_building rfl (by simp [Tag.kind]) nofun ?_ nofun
    cases fence <;> rfl
  | image destination title =>
    refine ⟨.building ⟨.image, targetAttrs destination title, []⟩, builder.table, ?_, rfl⟩
    exact Frame.opens_building rfl (by simp [Tag.kind]) (fun _ => rfl) rfl (fun _ => rfl)
  | _ =>
    refine ⟨.building ⟨_, _, []⟩, _, ?_, rfl⟩
    exact Frame.opens_building rfl (by simp [Tag.kind]) nofun rfl (fun _ => rfl)

namespace Reads

/-- The current node is a code block where events come in one. -/
theorem innermost (h : Reads openTags builder) (hmetadata : .metadata ∉ openTags)
    {current : OpenNode} {outer : List OpenNode} (hnodes : builder.nodes = current :: outer) :
    current.kind = .codeBlock ↔ TagKind.inCode openTags = true := by
  have hroot : builder.root.kind ≠ .codeBlock := by simp [h.sound.document]
  obtain ⟨first, rest, hfirst, hcode⟩ := h.mirrors.inCode_iff hmetadata hroot
  cases hnodes.symm.trans hfirst
  exact hcode

/-- Nodes can come anywhere else. -/
theorem noCode (h : Reads openTags builder) (hmetadata : .metadata ∉ openTags)
    (hcode : TagKind.inCode openTags = false) : ∀ node ∈ builder.nodes, node.kind ≠ .codeBlock := by
  obtain ⟨current, outer, hnodes⟩ := builder.nodes_eq_cons
  have hcurrent := h.innermost hmetadata hnodes
  have houter := h.outer
  rw [hnodes] at houter ⊢
  refine List.forall_mem_cons.mpr ⟨fun hkind => ?_, houter⟩
  exact Bool.false_ne_true (hcode.symm.trans (hcurrent.mp hkind))

/-- **A change of the current node** adds to the text what it adds to that of the node. -/
theorem modifyCurrent (h : Reads openTags builder) {f : OpenNode → OpenNode} {added : String}
    (hkeeps : OpenNode.Keeps f) (hkind : ∀ node, (f node).kind = node.kind)
    (hf : ∀ current outer, builder.nodes = current :: outer → current.Sound →
      current.toNode.Legible →
      (f current).toNode.plainText = current.toNode.plainText ++ added ∧
        (f current).toNode.Legible) :
    Reads openTags (builder.modifyCurrent f) ∧
      (builder.modifyCurrent f).text = builder.text ++ added := by
  obtain ⟨current, outer, hnodes⟩ := builder.nodes_eq_cons
  have hafter : (builder.modifyCurrent f).nodes = f current :: outer := by
    rw [nodes_modifyCurrent, hnodes]
    rfl
  have hlegible := h.legible
  have houter := h.outer
  rw [hnodes] at hlegible houter
  obtain ⟨hcurrent, hrest⟩ := List.forall_mem_cons.mp hlegible
  have hsound : current.Sound := h.sound.nodes current (hnodes ▸ List.mem_cons_self)
  obtain ⟨htext, hchanged⟩ := hf current outer hnodes hsound hcurrent
  have hframes : Frame.Mirrors openTags (builder.modifyCurrent f).frames ∧
      (builder.modifyCurrent f).skipped = Frame.skippedIn (builder.modifyCurrent f).frames := by
    unfold TreeBuilder.modifyCurrent
    split
    · obtain ⟨hmirrors, hskipped⟩ := h.mirrors.modifyInnermost hkind ‹_›
      exact ⟨hmirrors, h.skipped.trans hskipped.symm⟩
    · exact ⟨h.mirrors, h.skipped⟩
  refine ⟨⟨h.sound.modifyCurrent hkeeps, hframes.1, hframes.2, ?_, ?_⟩, ?_⟩
  · rw [hafter]
    exact List.forall_mem_cons.mpr ⟨hchanged, hrest⟩
  · rw [hafter]
    exact houter
  · rw [text, text, hafter, hnodes, OpenNode.textThrough, OpenNode.textThrough, htext,
      String.append_assoc]

theorem append (h : Reads openTags builder) (hcode : ∀ node ∈ builder.nodes, node.kind ≠ .codeBlock)
    {child : Node} (hrenderable : child.Renderable) (hlegible : child.Legible) :
    Reads openTags (builder.append child) ∧
      (builder.append child).text = builder.text ++ child.plainText := by
  refine h.modifyCurrent (OpenNode.keeps_append hrenderable) (fun _ => rfl) ?_
  intro current outer hnodes _ hcurrent
  have hkind : current.kind ≠ .codeBlock := hcode current (hnodes ▸ List.mem_cons_self)
  exact ⟨OpenNode.plainText_append current child, OpenNode.legible_append hcurrent hkind hlegible⟩

/-- A leaf adds its own text. -/
theorem appendLeaf (h : Reads openTags builder) (kind : NodeKind) (attrs : Attributes)
    (hcode : ∀ node ∈ builder.nodes, node.kind ≠ .codeBlock) (haccepts : kind.Accepts attrs)
    (hhtml : kind ≠ .html) (hnone : kind.hasText = false → attrs.text = none) :
    Reads openTags (builder.append (.mk kind attrs [])) ∧
      (builder.append (.mk kind attrs [])).text =
        builder.text ++ (Node.mk kind attrs []).ownText := by
  rw [← Node.plainText_childless]
  exact h.append hcode (Node.renderable_childless haccepts) (.mk hnone (fun _ => rfl) hhtml nofun)

/-- A frame that opens with no text in it leaves the text as it is. -/
theorem push (h : Reads openTags builder) {tag : TagKind} {frame : Frame} {table : TableCursor}
    (hsound : frame.Sound) (hmirrors : Frame.Mirrors (tag :: openTags) (frame :: builder.frames))
    (hnew : ∀ node, frame.node? = some node → node.toNode.Legible ∧ node.toNode.plainText = "" ∧
      ∀ outer ∈ builder.nodes, outer.kind ≠ .codeBlock) :
    let pushed : TreeBuilder :=
      { builder with
        frames := frame :: builder.frames, table
        skipped := builder.skipped + Frame.skippedIn [frame] }
    Reads (tag :: openTags) pushed ∧ pushed.text = builder.text := by
  intro pushed
  have hpushed : pushed.Sound :=
    ⟨h.sound.root, h.sound.document, List.forall_mem_cons.mpr ⟨hsound, h.sound.frames⟩⟩
  have hskipped := h.skipped
  cases frame with
  | building node =>
    obtain ⟨hlegible, htext, houter⟩ := hnew node rfl
    refine ⟨⟨hpushed, hmirrors, hskipped, ?_, houter⟩, ?_⟩
    · exact List.forall_mem_cons.mpr ⟨hlegible, h.legible⟩
    · change builder.text ++ node.toNode.plainText = builder.text
      rw [htext, String.append_empty]
  | passing => exact ⟨⟨hpushed, hmirrors, hskipped, h.legible, h.outer⟩, rfl⟩
  | skipping => exact ⟨⟨hpushed, hmirrors, congrArg (· + 1) hskipped, h.legible, h.outer⟩, rfl⟩

/-- What is left when a frame and its node are taken away. -/
theorem drop {tag : TagKind} {root : OpenNode} {frame : Frame} {frames : List Frame}
    {table : TableCursor} {skipped : Nat}
    (h : Reads (tag :: openTags) ⟨root, frame :: frames, table, skipped⟩) :
    Reads openTags ⟨root, frames, table, Frame.skippedIn frames⟩ := by
  have hsound : Sound ⟨root, frames, table, Frame.skippedIn frames⟩ :=
    ⟨h.sound.root, h.sound.document, (List.forall_mem_cons.mp h.sound.frames).2⟩
  cases h.mirrors with
  | skipping outer _ | passing outer _ _ => exact ⟨hsound, outer, rfl, h.legible, h.outer⟩
  | building outer _ _ _ =>
    refine ⟨hsound, outer, rfl, (List.forall_mem_cons.mp h.legible).2, ?_⟩
    exact fun node hnode => h.outer node (List.mem_of_mem_tail hnode)

/-- **Closing a frame** keeps the text. -/
theorem close (h : Reads openTags builder) :
    Reads openTags.tail builder.close ∧ builder.close.text = builder.text := by
  obtain ⟨root, frames, table, skipped⟩ := builder
  obtain rfl : skipped = Frame.skippedIn frames := h.skipped
  cases frames with
  | nil =>
    cases h.mirrors
    exact ⟨h, rfl⟩
  | cons frame outer =>
    cases openTags with
    | nil => cases h.mirrors
    | cons tag openTags =>
      have hdrop := h.drop
      cases frame with
      | building node =>
        -- the text of the node moves to the end of the one around it
        obtain ⟨htext, hlegible⟩ := OpenNode.close_spec (h.legible node List.mem_cons_self)
        obtain ⟨hreads, hadded⟩ := hdrop.append h.outer
          (h.sound.nodes node List.mem_cons_self).close hlegible
        exact ⟨hreads, hadded.trans (congrArg _ htext)⟩
      | passing | skipping => exact ⟨hdrop, rfl⟩

/-- The start of a tag, which in code may not be one of a node. -/
theorem start (h : Reads openTags builder) (hmetadata : .metadata ∉ openTags) (tag : Tag)
    (hplain : TagKind.inCode openTags = true → tag.kind.opensNode = false) :
    Reads (tag.kind :: openTags) (builder.start tag) ∧ (builder.start tag).text = builder.text := by
  have hsound := (h.sound.start tag).frames
  obtain ⟨frame, table, hopens, hstart⟩ := start_cases builder tag
  rw [hstart] at hsound ⊢
  have hframe : frame.Sound := hsound frame List.mem_cons_self
  have houtside : tag.kind ≠ .metadata → .metadata ∉ tag.kind :: openTags := fun hkind hmem =>
    (List.mem_cons.mp hmem).elim (fun heq => hkind heq.symm) hmetadata
  cases frame with
  | building node =>
    obtain ⟨hkind, hcode, hlegible, htext⟩ := hopens
    have hmirrors := Frame.Mirrors.building h.mirrors
      (houtside fun heq => by simp [heq, TagKind.opensNode] at hkind) hkind hcode
    refine h.push hframe hmirrors ?_
    intro opened hopened
    cases hopened
    refine ⟨hlegible, htext, h.noCode hmetadata ?_⟩
    exact Bool.eq_false_iff.mpr fun hin => Bool.false_ne_true ((hplain hin).symm.trans hkind)
  | passing =>
    obtain ⟨hkind, hne⟩ := hopens
    exact h.push hframe (.passing h.mirrors (houtside hne) hkind) fun _ hnode => by cases hnode
  | skipping =>
    have hinside : .metadata ∈ tag.kind :: openTags := List.mem_cons.mpr (.inl hopens.symm)
    exact h.push hframe (.skipping h.mirrors hinside) fun _ hnode => by cases hnode

/-- An event outside of metadata. -/
theorem take (h : Reads openTags builder) (hmetadata : .metadata ∉ openTags) (event : Event)
    (hhtml : event.isHtml = false)
    (hplain : TagKind.inCode openTags = true → event.makesNode = false) :
    Reads (event.openAfter openTags) (builder.take event) ∧
      (builder.take event).text = builder.text ++ event.ownText openTags := by
  have hcode : event.makesNode = true → ∀ node ∈ builder.nodes, node.kind ≠ .codeBlock := by
    intro hmakes
    refine h.noCode hmetadata (Bool.eq_false_iff.mpr fun hin => ?_)
    exact Bool.false_ne_true ((hplain hin).symm.trans hmakes)
  have hnothing : ∀ {after : TreeBuilder}, after.text = builder.text →
      after.text = builder.text ++ "" := fun heq => heq.trans String.append_empty.symm
  cases event with
  | start tag =>
    obtain ⟨hreads, htext⟩ := h.start hmetadata tag hplain
    exact ⟨hreads, hnothing htext⟩
  | stop tag =>
    have hnext : Reads openTags builder.nextCell :=
      ⟨⟨h.sound.root, h.sound.document, h.sound.frames⟩, h.mirrors, h.skipped, h.legible, h.outer⟩
    change Reads openTags.tail (builder.stop tag) ∧ (builder.stop tag).text = builder.text ++ ""
    unfold TreeBuilder.stop
    split
    · exact ⟨hnext.close.1, hnothing hnext.close.2⟩
    · exact ⟨h.close.1, hnothing h.close.2⟩
  | text content =>
    exact h.modifyCurrent (OpenNode.keeps_addText content) (OpenNode.kind_addText content)
      fun current _ _ hsound hlegible => OpenNode.addText_spec hsound hlegible content
  | softBreak =>
    refine h.modifyCurrent OpenNode.keeps_addSoftBreak OpenNode.kind_addSoftBreak ?_
    intro current outer hnodes _ hlegible
    have hspec := OpenNode.addSoftBreak_spec hlegible
    simp only [h.innermost hmetadata hnodes] at hspec
    exact hspec
  | code content => exact h.appendLeaf .code { text := some content } (hcode rfl) rfl nofun nofun
  | hardBreak => exact h.appendLeaf .hardBreak {} (hcode rfl) trivial nofun fun _ => rfl
  | rule => exact h.appendLeaf .thematicBreak {} (hcode rfl) trivial nofun fun _ => rfl
  | task checked =>
    exact h.appendLeaf .taskListMarker { checked := some checked } (hcode rfl) rfl nofun
      fun _ => rfl
  | html | inlineHtml => cases hhtml
  | footnoteRef | inlineMath | displayMath => exact ⟨h, hnothing rfl⟩

/-- An event inside of metadata. -/
theorem pass (h : Reads openTags builder) (hmetadata : .metadata ∈ openTags) (event : Event) :
    Reads (event.openAfter openTags) (builder.pass event) ∧
      (builder.pass event).text = builder.text := by
  cases event with
  | start tag =>
    have hmirrors := Frame.Mirrors.skipping h.mirrors (List.mem_cons_of_mem tag.kind hmetadata)
    exact h.push trivial hmirrors fun _ hnode => by cases hnode
  | stop tag => exact h.close
  | _ => exact ⟨h, rfl⟩

/-- **Every event adds its text at the end.** -/
theorem step (h : Reads openTags builder) (event : Event) (hhtml : event.isHtml = false)
    (hplain : TagKind.inCode openTags = true → .metadata ∉ openTags → event.makesNode = false) :
    Reads (event.openAfter openTags) (builder.step event) ∧
      (builder.step event).text = builder.text ++ event.addedText openTags := by
  have hskipped : builder.skipped = 0 ↔ .metadata ∉ openTags :=
    h.skipped ▸ h.mirrors.skippedIn_eq_zero
  unfold TreeBuilder.step Event.addedText
  by_cases hmetadata : .metadata ∈ openTags
  · rw [if_neg fun hzero => hskipped.mp hzero hmetadata, if_pos hmetadata, String.append_empty]
    exact h.pass hmetadata event
  · rw [if_pos (hskipped.mpr hmetadata), if_neg hmetadata]
    exact h.take hmetadata event hhtml fun hin => hplain hin hmetadata

/-- A run of events adds their texts one after another. -/
theorem foldl (h : Reads openTags builder) (events : List Event)
    (hhtml : ∀ event ∈ events, event.isHtml = false) (hplain : Event.Plain openTags events) :
    ∃ stillOpen, Reads stillOpen (events.foldl TreeBuilder.step builder) ∧
      (events.foldl TreeBuilder.step builder).text =
        builder.text ++ Event.textOf openTags events := by
  induction events generalizing openTags builder with
  | nil => exact ⟨openTags, h, String.append_empty.symm⟩
  | cons event rest ih =>
    obtain ⟨hevent, hevents⟩ := List.forall_mem_cons.mp hhtml
    obtain ⟨hfirst, hrest⟩ := hplain
    obtain ⟨hreads, htext⟩ := h.step event hevent hfirst
    obtain ⟨stillOpen, hafter, hall⟩ := ih hreads hevents hrest
    refine ⟨stillOpen, hafter, hall.trans ?_⟩
    rw [htext, Event.textOf, String.append_assoc]

/-- Closing all frames that the open tags have left keeps the text. -/
theorem closeAll (h : Reads openTags builder) :
    Reads [] builder.closeAll ∧ builder.closeAll.text = builder.text := by
  have hlength : openTags.length ≤ builder.frames.length := Nat.le_of_eq h.mirrors.length_eq
  unfold TreeBuilder.closeAll
  generalize builder.frames = frames at hlength ⊢
  -- with each frame one tag is closed, so that none is left
  induction frames generalizing openTags builder with
  | nil =>
    obtain rfl := List.length_eq_zero_iff.mp (Nat.le_zero.mp hlength)
    exact ⟨h, rfl⟩
  | cons _ outer ih =>
    obtain ⟨hclosed, htext⟩ := h.close
    have hshorter : openTags.tail.length ≤ outer.length := by
      rw [List.length_tail]
      exact Nat.sub_le_of_le_add hlength
    obtain ⟨hempty, hsame⟩ := ih hclosed hshorter
    exact ⟨hempty, hsame.trans htext⟩

end Reads
end TreeBuilder

/-- When no frame is open, the text is that of the root. -/
theorem TreeBuilder.text_of_nil {builder : TreeBuilder} (h : builder.frames = []) :
    builder.text = builder.root.toNode.plainText := by
  rw [text, nodes, h]
  exact String.empty_append

/-- **The document of events has their text**, and nothing in it keeps a text that it does not
show. -/
theorem Node.text_ofEvents {events : List Event}
    (hhtml : ∀ event ∈ events, event.isHtml = false) (hplain : Event.Plain [] events) :
    (Node.ofEvents events).plainText = Event.textOf [] events ∧ (Node.ofEvents events).Legible := by
  obtain ⟨stillOpen, hreads, htext⟩ := TreeBuilder.reads_empty.foldl events hhtml hplain
  obtain ⟨hclosed, hsame⟩ := hreads.closeAll
  have hframes : (events.foldl TreeBuilder.step {}).closeAll.frames = [] :=
    List.length_eq_zero_iff.mp hclosed.mirrors.length_eq.symm
  have hstart : TreeBuilder.text {} = "" :=
    (TreeBuilder.text_of_nil rfl).trans (Node.plainText_childless .document {})
  refine ⟨?_, hclosed.legible _ (List.mem_append_right _ (List.mem_singleton.mpr rfl))⟩
  calc (Node.ofEvents events).plainText
      = (events.foldl TreeBuilder.step {}).closeAll.text :=
        (TreeBuilder.text_of_nil hframes).symm
    _ = TreeBuilder.text {} ++ Event.textOf [] events := hsame.trans htext
    _ = Event.textOf [] events := by rw [hstart, String.empty_append]

end Rendition
