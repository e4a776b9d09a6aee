import Rendition.Event.Tree

/-!
# Documents from events are renderable

A node is **renderable** (`Node.Renderable`) if it and all nodes below it have the
attributes without which the built-in renderers refuse a node or complain about it, and if
it has children only where these are rendered.

Whatever events a `TreeBuilder` takes, the frames and the root that it keeps are **sound**
(`TreeBuilder.Sound`): their children are renderable, and they are going to be renderable
themselves once they are closed.  Each event keeps this, and so does closing the frames
that are open at the end, so every sequence of events makes a renderable document
(`Node.renderable_ofEvents`).
-/

namespace Rendition

/-- Whether a node of the kind is a leaf. -/
def NodeKind.isLeaf : NodeKind → Bool
  | thematicBreak | text | code | image | softBreak | hardBreak | taskListMarker | html => true
  | _ => false

/-- The attributes are those that a node of the kind needs. -/
def NodeKind.Accepts (attrs : Attributes) : NodeKind → Prop
  | heading => ∃ level, attrs.level = some level ∧ 1 ≤ level ∧ level ≤ 6
  | text | code | html => attrs.text.isSome
  | link | image => attrs.destination.isSome
  | taskListMarker => attrs.checked.isSome
  | custom _ => False
  | _ => True

/-- The node and all nodes below it can be rendered as they are. -/
inductive Node.Renderable : Node → Prop where
  | mk {kind : NodeKind} {attrs : Attributes} {children : List Node}
    (accepts : kind.Accepts attrs)
    (leaf : kind.isLeaf = true → children = [])
    (below : ∀ child ∈ children, child.Renderable) : Renderable (.mk kind attrs children)

/-- Without children nothing but the attributes matters. -/
theorem Node.renderable_childless {kind : NodeKind} {attrs : Attributes}
    (h : kind.Accepts attrs) : (Node.mk kind attrs []).Renderable :=
  .mk h (fun _ => rfl) (fun _ hchild => by cases hchild)

namespace OpenNode

variable {node : OpenNode} {f : OpenNode → OpenNode}

/-- The node is going to be renderable.  An open image has its content as children, but it
gives them up when it is closed. -/
structure Sound (node : OpenNode) : Prop where
  accepts : node.kind.Accepts node.attrs
  leaf : node.kind.isLeaf = true → node.kind = .image
  children : ∀ child ∈ node.newest, child.Renderable

/-- What a change of an open node has to keep. -/
def Keeps (f : OpenNode → OpenNode) : Prop :=
  ∀ node : OpenNode, node.Sound → (f node).Sound ∧ (f node).kind = node.kind

theorem Sound.toNode (h : node.Sound) (himage : node.kind ≠ .image) : node.toNode.Renderable :=
  .mk h.accepts (fun hleaf => absurd (h.leaf hleaf) himage)
    (fun child hchild => h.children child (List.mem_reverse.mp hchild))

theorem Sound.close (h : node.Sound) : node.close.Renderable := by
  unfold OpenNode.close
  split
  · rename_i himage
    have haccepts := h.accepts
    rw [himage] at haccepts
    exact Node.renderable_childless haccepts
  · exact h.toNode ‹_›

theorem keeps_append {child : Node} (h : child.Renderable) : Keeps (·.append child) := by
  intro node hnode
  refine ⟨⟨hnode.accepts, hnode.leaf, ?_⟩, rfl⟩
  rintro other (_ | ⟨_, hother⟩)
  · exact h
  · exact hnode.children other hother

/-- Text that a code block puts away changes nothing that it needs. -/
theorem Sound.appendText (h : node.Sound) (hcode : node.kind = .codeBlock) (text : String) :
    Sound { node with attrs := OpenNode.appendText node.attrs text } := by
  refine ⟨?_, h.leaf, h.children⟩
  simp only [hcode]
  trivial

theorem keeps_addText (text : String) : Keeps (·.addText text) := by
  intro node hnode
  have hrun : (Node.text text).Renderable := @Node.renderable_childless .text _ rfl
  simp only [addText]
  split
  · exact ⟨hnode.appendText ‹_› text, rfl⟩
  · split
    · rename_i attrs children older hnewest
      refine ⟨⟨hnode.accepts, hnode.leaf, ?_⟩, rfl⟩
      rintro other (_ | ⟨_, hother⟩)
      · -- the run of text that grows stays a leaf
        have hlast := hnode.children _ (hnewest ▸ List.mem_cons_self)
        cases hlast with
        | mk _ hleaf hchildren => exact .mk (by rfl) hleaf hchildren
      · exact hnode.children other (hnewest ▸ List.mem_cons_of_mem _ hother)
    · exact keeps_append hrun node hnode

theorem keeps_addSoftBreak : Keeps addSoftBreak := by
  intro node hnode
  have hbreak : (Node.ofKind .softBreak).Renderable :=
    @Node.renderable_childless .softBreak _ trivial
  unfold addSoftBreak
  split
  · exact ⟨hnode.appendText ‹_› "\n", rfl⟩
  · exact keeps_append hbreak node hnode

end OpenNode

open OpenNode

/-- The node of a frame that builds one is sound. -/
def Frame.Sound : Frame → Prop
  | building node => node.Sound
  | passing | skipping => True

namespace TreeBuilder

variable {builder : TreeBuilder} {f : OpenNode → OpenNode}

/-- The invariant of the builder. -/
structure Sound (builder : TreeBuilder) : Prop where
  root : builder.root.Sound
  document : builder.root.kind = .document
  frames : ∀ frame ∈ builder.frames, frame.Sound

theorem sound_empty : Sound {} := by
  refine ⟨⟨trivial, fun hleaf => ?_, fun _ hchild => ?_⟩, rfl, fun _ hframe => ?_⟩
  · cases hleaf
  · cases hchild
  · cases hframe

theorem sound_modifyInnermost (hf : Keeps f) {frames changed : List Frame}
    (h : ∀ frame ∈ frames, frame.Sound) (hchanged : modifyInnermost? f frames = some changed) :
    ∀ frame ∈ changed, frame.Sound := by
  induction frames generalizing changed with
  | nil => cases hchanged
  | cons frame outer ih =>
    have houter : ∀ other ∈ outer, other.Sound := fun other hother =>
      h other (List.mem_cons_of_mem _ hother)
    have hpassed : ∀ rest, (modifyInnermost? f outer).map (frame :: ·) = some rest →
        ∀ other ∈ rest, other.Sound := by
      intro rest hrest
      obtain ⟨inner, hinner, rfl⟩ := Option.map_eq_some_iff.mp hrest
      exact List.forall_mem_cons.mpr ⟨h frame List.mem_cons_self, ih houter hinner⟩
    cases frame with
    | building node =>
      cases hchanged
      exact List.forall_mem_cons.mpr ⟨(hf node (h _ List.mem_cons_self)).1, houter⟩
    | passing => exact hpassed changed hchanged
    | skipping => exact hpassed changed hchanged

theorem Sound.modifyCurrent (h : builder.Sound) (hf : Keeps f) :
    (builder.modifyCurrent f).Sound := by
  unfold TreeBuilder.modifyCurrent
  split
  · exact ⟨h.root, h.document, sound_modifyInnermost hf h.frames ‹_›⟩
  · obtain ⟨hroot, hkind⟩ := hf builder.root h.root
    exact ⟨hroot, hkind.trans h.document, h.frames⟩

theorem Sound.append (h : builder.Sound) {child : Node} (hchild : child.Renderable) :
    (builder.append child).Sound :=
  h.modifyCurrent (keeps_append hchild)

theorem Sound.openNode (h : builder.Sound) {kind : NodeKind} {attrs : Attributes}
    (haccepts : kind.Accepts attrs) (hleaf : kind.isLeaf = true → kind = .image := by nofun) :
    (builder.openNode kind attrs).Sound :=
  ⟨h.root, h.document, List.forall_mem_cons.mpr ⟨⟨haccepts, hleaf, nofun⟩, h.frames⟩⟩

theorem Sound.close (h : builder.Sound) : builder.close.Sound := by
  have houter : ∀ {frame outer}, builder.frames = frame :: outer →
      ({ builder with frames := outer }).Sound ∧ frame.Sound := by
    intro frame outer hframes
    have hall := h.frames
    rw [hframes] at hall
    exact ⟨⟨h.root, h.document, (List.forall_mem_cons.mp hall).2⟩,
      (List.forall_mem_cons.mp hall).1⟩
  unfold TreeBuilder.close
  split
  · exact h
  · obtain ⟨hrest, hnode⟩ := houter ‹_›
    exact hrest.append (OpenNode.Sound.close hnode)
  · exact (houter ‹_›).1
  · obtain ⟨hrest, -⟩ := houter ‹_›
    exact ⟨hrest.root, hrest.document, hrest.frames⟩

theorem Sound.start (h : builder.Sound) (tag : Tag) : (builder.start tag).Sound := by
  have hframe : ∀ frame : Frame, frame.Sound → ∀ skipped,
      Sound { builder with frames := frame :: builder.frames, skipped } :=
    fun frame hsound _ => ⟨h.root, h.document, List.forall_mem_cons.mpr ⟨hsound, h.frames⟩⟩
  cases tag with
  | heading level id => exact h.openNode ⟨level.number, rfl, level.one_le, level.le_six⟩
  | link | image => exact h.openNode rfl (by simp [NodeKind.isLeaf])
  | htmlBlock | footnote => exact hframe .passing trivial _
  | metadata => exact hframe .skipping trivial _
  | table alignments =>
    have htable : Sound { builder with table := { alignments } } := ⟨h.root, h.document, h.frames⟩
    exact htable.openNode trivial
  | tableHead | tableRow =>
    have hrow : builder.startRow.Sound := ⟨h.root, h.document, h.frames⟩
    exact hrow.openNode trivial
  | _ => exact h.openNode trivial

theorem Sound.stop (h : builder.Sound) (tag : TagKind) : (builder.stop tag).Sound := by
  have hnext : builder.nextCell.Sound := ⟨h.root, h.document, h.frames⟩
  unfold TreeBuilder.stop
  split
  · exact hnext.close
  · exact h.close

theorem Sound.take (h : builder.Sound) (event : Event) : (builder.take event).Sound := by
  cases event with
  | start tag => exact h.start tag
  | stop tag => exact h.stop tag
  | text content => exact h.modifyCurrent (keeps_addText content)
  | softBreak => exact h.modifyCurrent keeps_addSoftBreak
  | code | html | inlineHtml => exact h.append (Node.renderable_childless rfl)
  | hardBreak | rule => exact h.append (Node.renderable_childless trivial)
  | task => exact h.append (Node.renderable_childless rfl)
  | footnoteRef | inlineMath | displayMath => exact h

theorem Sound.pass (h : builder.Sound) (event : Event) : (builder.pass event).Sound := by
  cases event with
  | start => exact h.start .metadata
  | stop => exact h.close
  | _ => exact h

/-- **Every event keeps the builder sound.** -/
theorem Sound.step (h : builder.Sound) (event : Event) : (builder.step event).Sound := by
  unfold TreeBuilder.step
  split
  · exact h.take event
  · exact h.pass event

theorem Sound.foldl (h : builder.Sound) (events : List Event) :
    (events.foldl TreeBuilder.step builder).Sound := by
  induction events generalizing builder with
  | nil => exact h
  | cons event rest ih => exact ih (h.step event)

theorem Sound.closeAll (h : builder.Sound) : builder.closeAll.Sound := by
  unfold TreeBuilder.closeAll
  generalize builder.frames = frames
  induction frames generalizing builder with
  | nil => exact h
  | cons _ _ ih => exact ih h.close

end TreeBuilder

open TreeBuilder

/-- What events describe is a document. -/
theorem Node.kind_ofEvents (events : List Event) : (Node.ofEvents events).kind = .document :=
  (sound_empty.foldl events).closeAll.document

/-- **Every sequence of events makes a renderable document.** -/
theorem Node.renderable_ofEvents (events : List Event) : (Node.ofEvents events).Renderable := by
  have hsound := (sound_empty.foldl events).closeAll
  exact hsound.root.toNode (by simp [hsound.document])

end Rendition
