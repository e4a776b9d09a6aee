import Rendition.Proofs.Event.Closing
import Mathlib.Data.List.Chain

/-!
# The normal form of documents

A node is **normal** (`Node.Normal`) if in it and everywhere below it no two texts are neighbours,
leaves have no children and images have a text.  The nodes that a builder holds open are on the
way there (`OpenNode.Tidy`), whatever events it has taken: it makes one text of two before they can
become neighbours, and it appends a node only when that is closed and normal.

Which text an image has is a matter of what was open in it when it was closed.  The image then
loses its content, and with it the images in there.  So only those that are closed outside of all
others get into the document (`TreeBuilder.imageClosed`), and the images that a builder holds, up
to the outermost that is still open, are these in the order in which they were closed
(`TreeBuilder.tidy_foldl`).
-/

namespace Rendition

open Event

/-! ## Finished nodes -/

namespace Node

/-- No two texts are neighbours. -/
def Apart (nodes : List Node) : Prop :=
  nodes.IsChain fun node next => ¬ (node.kind = .text ∧ next.kind = .text)

theorem apart_reverse {nodes : List Node} : Apart nodes.reverse ↔ Apart nodes := by
  simp only [Apart, List.isChain_reverse, and_comm]

/-- In the node and everywhere below it texts are apart, leaves have no children and images have
a text. -/
inductive Normal : Node → Prop where
  | mk {kind : NodeKind} {attrs : Attributes} {children : List Node}
    (apart : Apart children)
    (leaf : kind.isLeaf = true → children = [])
    (image : kind = .image → attrs.text.isSome)
    (below : ∀ child ∈ children, child.Normal) : Normal (.mk kind attrs children)

theorem normal_childless {kind : NodeKind} {attrs : Attributes}
    (image : kind = .image → attrs.text.isSome) : (mk kind attrs []).Normal :=
  .mk .nil (fun _ => rfl) image nofun

/-- The attributes of the node, if it is an image. -/
def ownImage (node : Node) : List Attributes :=
  if node.kind = .image then [node.attrs] else []

/-- The attributes of the images among the nodes of trees, in document order. -/
def images (trees : List Node) : List Attributes :=
  (preorderAll trees).flatMap ownImage

theorem images_append (first second : List Node) :
    images (first ++ second) = images first ++ images second := by
  rw [images, preorderAll_append, List.flatMap_append]
  rfl

theorem images_singleton (node : Node) :
    images [node] = node.ownImage ++ images node.children := by
  have hpreorder : preorderAll [node] = node.preorder := List.append_nil _
  rw [images, hpreorder, preorder_eq, List.flatMap_cons]
  rfl

end Node

/-- The share is no finished node, or else a leaf that is neither a text nor an image. -/
def Share.Plain : Share → Prop
  | child node => node.children = [] ∧ node.kind ≠ .text ∧ node.kind ≠ .image
  | text _ | softBreak => True

/-- What a single event makes is a leaf. -/
theorem Event.plain_shares (event : Event) : ∀ share ∈ event.shares, share.Plain := by
  cases event with
  | text | softBreak => exact List.forall_mem_singleton.mpr trivial
  | start | stop | footnoteRef | inlineMath | displayMath => nofun
  | _ => exact List.forall_mem_singleton.mpr ⟨rfl, nofun, nofun⟩

/-! ## Open nodes -/

namespace OpenNode

variable {node : OpenNode} {shares : List Share}

/-- The node is going to be normal when it is closed. -/
structure Tidy (node : OpenNode) : Prop where
  apart : Node.Apart node.newest
  leaf : node.kind.isLeaf = true → node.kind = .image
  image : node.kind = .image → node.attrs.text = none
  document : node.kind = .document → node.attrs = {}
  children : ∀ child ∈ node.newest, child.Normal

/-- The images below the node. -/
def images (node : OpenNode) : List Attributes :=
  Node.images node.newest.reverse

theorem images_append (node : OpenNode) (child : Node) :
    (node.append child).images = node.images ++ Node.images [child] := by
  rw [images, append, List.reverse_cons, Node.images_append]
  rfl

theorem Tidy.append (h : node.Tidy) {child : Node} (hchild : child.Normal)
    (hapart : ∀ last ∈ node.newest.head?, ¬ (child.kind = .text ∧ last.kind = .text)) :
    (node.append child).Tidy where
  apart := List.isChain_cons.mpr ⟨hapart, h.apart⟩
  leaf := h.leaf
  image := h.image
  document := h.document
  children := List.forall_mem_cons.mpr ⟨hchild, h.children⟩

/-- Text that a code block puts away changes nothing that matters. -/
theorem Tidy.appendText (h : node.Tidy) (hcode : node.kind = .codeBlock) (text : String) :
    Tidy { node with attrs := OpenNode.appendText node.attrs text } where
  apart := h.apart
  leaf := h.leaf
  image hkind := by cases hcode.symm.trans hkind
  document hkind := by cases hcode.symm.trans hkind
  children := h.children

/-- Text stays text of its own, or becomes part of the text that stands last. -/
theorem Tidy.addText (h : node.Tidy) (text : String) :
    (node.addText text).Tidy ∧ (node.addText text).images = node.images := by
  unfold OpenNode.addText
  split
  · exact ⟨h.appendText ‹_› text, rfl⟩
  · split
    · rename_i attrs children older hnewest
      obtain ⟨kind, nodeAttrs, newest⟩ := node
      obtain rfl : newest = .mk .text attrs children :: older := hnewest
      obtain ⟨hlast, holder⟩ := List.forall_mem_cons.mp h.children
      have hgrown : (Node.mk .text (OpenNode.appendText attrs text) children).Normal := by
        obtain ⟨hapart, hleaf, -, hbelow⟩ := hlast
        exact .mk hapart hleaf nofun hbelow
      refine ⟨⟨?_, h.leaf, h.image, h.document, List.forall_mem_cons.mpr ⟨hgrown, holder⟩⟩, ?_⟩
      · exact List.isChain_cons.mpr (List.isChain_cons.mp h.apart)
      · simp only [images, List.reverse_cons, Node.images_append, Node.images_singleton]
        rfl
    · rename_i hlast
      refine ⟨h.append (Node.normal_childless nofun) ?_, ?_⟩
      · rintro ⟨kind, attrs, children⟩ hhead ⟨-, rfl⟩
        obtain ⟨older, hnewest⟩ := List.head?_eq_some_iff.mp hhead
        exact hlast attrs children older hnewest
      · rw [images_append, Node.images_singleton]
        exact List.append_nil _

/-- A finished node other than a text stands apart from all texts. -/
theorem Tidy.appendLeaf (h : node.Tidy) {child : Node} (hshare : (Share.child child).Plain) :
    (node.append child).Tidy ∧ (node.append child).images = node.images := by
  obtain ⟨hleaf, htext, himage⟩ := hshare
  obtain ⟨kind, attrs, children⟩ := child
  obtain rfl : children = [] := hleaf
  refine ⟨h.append (Node.normal_childless fun hkind => absurd hkind himage) ?_, ?_⟩
  · exact fun _ _ htexts => htext htexts.1
  · rw [images_append, Node.images_singleton, Node.ownImage, if_neg himage]
    exact List.append_nil _

theorem Tidy.addSoftBreak (h : node.Tidy) :
    node.addSoftBreak.Tidy ∧ node.addSoftBreak.images = node.images := by
  unfold OpenNode.addSoftBreak
  split
  · exact ⟨h.appendText ‹_› "\n", rfl⟩
  · exact h.appendLeaf ⟨rfl, nofun, nofun⟩

/-- **A tidy node takes shares** and stays tidy, with the images that it has. -/
theorem Tidy.takeAll (h : node.Tidy) (hshares : ∀ share ∈ shares, share.Plain) :
    (takeAll shares node).Tidy ∧ (takeAll shares node).images = node.images := by
  induction shares generalizing node with
  | nil => exact ⟨h, rfl⟩
  | cons share rest ih =>
    obtain ⟨hshare, hrest⟩ := List.forall_mem_cons.mp hshares
    have htake : (node.take share).Tidy ∧ (node.take share).images = node.images := by
      cases share with
      | text content => exact h.addText content
      | softBreak => exact h.addSoftBreak
      | child finished => exact h.appendLeaf hshare
    obtain ⟨htidy, himages⟩ := ih htake.1 hrest
    exact ⟨htidy, himages.trans htake.2⟩

theorem kind_takeAll (shares : List Share) (node : OpenNode) :
    (takeAll shares node).kind = node.kind := by
  induction shares generalizing node with
  | nil => rfl
  | cons share rest ih =>
    refine (ih (node.take share)).trans ?_
    cases share with
    | text content => exact kind_addText content node
    | softBreak => exact kind_addSoftBreak node
    | child finished => rfl

/-- The image that the node becomes, with the text of its content. -/
def closedImage (node : OpenNode) : Attributes :=
  { node.attrs with text := some (Node.textAll node.newest.reverse) }

theorem kind_close (node : OpenNode) : node.close.kind = node.kind := by
  unfold OpenNode.close
  split
  · exact Eq.symm ‹_›
  · rfl

/-- **A tidy node is closed to a normal one.** -/
theorem Tidy.close (h : node.Tidy) : node.close.Normal := by
  unfold OpenNode.close
  split
  · exact Node.normal_childless fun _ => rfl
  · rename_i himage
    refine .mk (Node.apart_reverse.mpr h.apart) (fun hleaf => absurd (h.leaf hleaf) himage)
      (fun hkind => absurd hkind himage) ?_
    exact fun child hchild => h.children child (List.mem_reverse.mp hchild)

theorem Tidy.images_close (h : node.Tidy) :
    Node.images [node.close] = if node.kind = .image then [node.closedImage] else node.images := by
  rw [Node.images_singleton, OpenNode.close]
  split
  · rename_i himage
    have htext : node.toNode.plainText = Node.textAll node.newest.reverse := by
      have hown : (Node.mk .image node.attrs node.newest.reverse).ownText = "" := by
        simp [Node.ownText, h.image himage]
      rw [toNode, Node.plainText_mk, himage, hown, String.empty_append]
    rw [htext]
    exact List.append_nil _
  · have hown : node.toNode.ownImage = [] := if_neg ‹_›
    rw [hown]
    rfl

/-! ### Nodes in one another -/

/-- Whether one of the open nodes is an image. -/
def InImage (nodes : List OpenNode) : Prop :=
  ∃ node ∈ nodes, node.kind = .image

instance (nodes : List OpenNode) : Decidable (InImage nodes) :=
  inferInstanceAs (Decidable (∃ node ∈ nodes, node.kind = .image))

theorem inImage_cons {node : OpenNode} {outer : List OpenNode} :
    InImage (node :: outer) ↔ node.kind = .image ∨ InImage outer := by
  simp only [InImage, List.exists_mem_cons_iff]

/-- The images below open nodes, of which each is going to be in the one behind it.  What is in an
open image does not count, for the image will not keep it. -/
def imagesThrough : List OpenNode → List Attributes
  | [] => []
  | node :: outer => imagesThrough outer ++ if InImage (node :: outer) then [] else node.images

/-- A child of the innermost node adds its images at the end. -/
theorem imagesThrough_append (node : OpenNode) (outer : List OpenNode) (child : Node) :
    imagesThrough (node.append child :: outer) =
      imagesThrough (node :: outer) ++
        if InImage (node :: outer) then [] else Node.images [child] := by
  have hin : InImage (node.append child :: outer) ↔ InImage (node :: outer) := by
    rw [inImage_cons, inImage_cons, append]
  rw [imagesThrough, imagesThrough, images_append]
  by_cases himage : InImage (node :: outer)
  · rw [if_pos (hin.mpr himage), if_pos himage, if_pos himage, List.append_nil, List.append_nil]
  · rw [if_neg (mt hin.mp himage), if_neg himage, if_neg himage, List.append_assoc]

end OpenNode

open OpenNode

theorem Frame.Fresh.tidy {node : OpenNode} (h : (Frame.building node).Fresh) :
    node.Tidy ∧ node.images = [] := by
  obtain ⟨kind, attrs, newest⟩ := node
  obtain ⟨rfl, tag, align, hrole⟩ := h
  obtain ⟨-, himage, -⟩ := Tag.role_node hrole
  have hkind : (kind.isLeaf = true → kind = .image) ∧ kind ≠ .document := by
    cases tag with
    | image =>
      cases hrole
      exact ⟨fun _ => rfl, nofun⟩
    | _ =>
      cases hrole
      all_goals exact ⟨nofun, nofun⟩
  exact ⟨⟨.nil, hkind.1, himage, fun hdocument => absurd hdocument hkind.2, nofun⟩, rfl⟩

/-! ## What a builder holds -/

namespace TreeBuilder

variable {builder : TreeBuilder}

/-- The images of the document as far as it is built. -/
def images (builder : TreeBuilder) : List Attributes :=
  imagesThrough builder.nodes

/-- The image that an event closes, if no other image is open around it. -/
def imageClosed (builder : TreeBuilder) : Event → List Attributes
  | .stop _ =>
    match builder.frames with
    | .building node :: frames =>
      if node.kind = .image ∧ ¬ InImage { builder with frames }.nodes then
        [node.closedImage]
      else
        []
    | _ => []
  | _ => []

/-- The images that events close in this way, one after another. -/
def imagesClosed (builder : TreeBuilder) : List Event → List Attributes
  | [] => []
  | event :: rest => builder.imageClosed event ++ (builder.step event).imagesClosed rest

/-! ### Changes of the current node -/

/-- A change of the current node that keeps its images keeps all of them. -/
theorem images_modifyCurrent {f : OpenNode → OpenNode} (hkind : ∀ node, (f node).kind = node.kind)
    (himages : ∀ node ∈ builder.nodes, (f node).images = node.images) :
    (builder.modifyCurrent f).images = builder.images := by
  obtain ⟨current, outer, hnodes⟩ := builder.nodes_eq_cons
  have hcurrent : (f current).images = current.images :=
    himages current (hnodes ▸ List.mem_cons_self)
  rw [images, images, nodes_modifyCurrent, hnodes, List.modifyHead_cons]
  simp only [imagesThrough, inImage_cons, hkind, hcurrent]

/-- A child adds its images, unless there is an open image that is going to lose them. -/
theorem images_append (child : Node) (builder : TreeBuilder) :
    (builder.append child).images =
      builder.images ++ if InImage builder.nodes then [] else Node.images [child] := by
  obtain ⟨current, outer, hnodes⟩ := builder.nodes_eq_cons
  rw [images, append, nodes_modifyCurrent, images, hnodes, List.modifyHead_cons]
  exact imagesThrough_append current outer child

theorem tidy_modifyCurrent (h : ∀ node ∈ builder.nodes, node.Tidy) {f : OpenNode → OpenNode}
    (hf : ∀ node : OpenNode, node.Tidy → (f node).Tidy) :
    ∀ node ∈ (builder.modifyCurrent f).nodes, node.Tidy := by
  obtain ⟨current, outer, hnodes⟩ := builder.nodes_eq_cons
  rw [hnodes] at h
  obtain ⟨hcurrent, houter⟩ := List.forall_mem_cons.mp h
  rw [nodes_modifyCurrent, hnodes, List.modifyHead_cons]
  exact List.forall_mem_cons.mpr ⟨hf current hcurrent, houter⟩

/-! ### Steps -/

/-- **Closing a frame** appends a normal node.  An image has lost those that were in it. -/
theorem tidy_close (h : ∀ node ∈ builder.nodes, node.Tidy) (tag : TagKind) :
    (∀ node ∈ builder.close.nodes, node.Tidy) ∧
      builder.close.images = builder.images ++ builder.imageClosed (.stop tag) := by
  obtain ⟨root, frames, table, skipped⟩ := builder
  cases frames with
  | nil => exact ⟨h, (List.append_nil _).symm⟩
  | cons frame outer =>
    cases frame with
    | passing | skipping => exact ⟨h, (List.append_nil _).symm⟩
    | building node =>
      let rest : TreeBuilder := ⟨root, outer, table, skipped⟩
      obtain ⟨hnode, hothers⟩ : node.Tidy ∧ ∀ other ∈ rest.nodes, other.Tidy :=
        List.forall_mem_cons.mp h
      have hkind : node.close.kind ≠ .text := by
        intro htext
        rw [kind_close] at htext
        cases htext.symm.trans (hnode.leaf (by rw [htext]; rfl))
      have hafter : ∀ other ∈ (rest.append node.close).nodes, other.Tidy :=
        tidy_modifyCurrent hothers fun _ hother =>
          hother.append hnode.close fun _ _ htexts => hkind htexts.1
      refine ⟨hafter, ?_⟩
      have hopen : TreeBuilder.images ⟨root, .building node :: outer, table, skipped⟩ =
          rest.images ++ if InImage (node :: rest.nodes) then [] else node.images := rfl
      refine (images_append node.close rest).trans ?_
      simp only [hopen, hnode.images_close, imageClosed, inImage_cons]
      by_cases hin : InImage rest.nodes <;> by_cases himage : node.kind = .image <;>
        simp [rest, hin, himage]

/-- **Every event keeps the open nodes tidy**, and the images in them are those that have been
closed. -/
theorem tidy_step (h : ∀ node ∈ builder.nodes, node.Tidy) (event : Event) :
    (∀ node ∈ (builder.step event).nodes, node.Tidy) ∧
      (builder.step event).images = builder.images ++ builder.imageClosed event := by
  cases event with
  | start tag =>
    obtain ⟨frame, table, hfresh, hstep⟩ := step_start builder tag
    rw [hstep]
    cases frame with
    | building node =>
      obtain ⟨htidy, himages⟩ := hfresh.tidy
      refine ⟨List.forall_mem_cons.mpr ⟨htidy, h⟩, ?_⟩
      change imagesThrough (node :: builder.nodes) = builder.images ++ []
      rw [imagesThrough, himages, ite_self]
      rfl
    | passing | skipping => exact ⟨h, (List.append_nil _).symm⟩
  | stop tag =>
    obtain ⟨table, hstep⟩ := step_stop_eq builder tag
    rw [hstep]
    exact tidy_close h tag
  | _ =>
    rw [step_single builder rfl]
    generalize hshares : (if builder.skipped = 0 then _ else _) = shares
    have hplain : ∀ share ∈ shares, share.Plain := by
      rw [← hshares]
      split
      · exact plain_shares _
      · nofun
    refine ⟨tidy_modifyCurrent h fun node hnode => (hnode.takeAll hplain).1, ?_⟩
    refine (images_modifyCurrent (kind_takeAll shares) fun node hnode => ?_).trans
      (List.append_nil _).symm
    exact ((h node hnode).takeAll hplain).2

/-- **So does a run of events.** -/
theorem tidy_foldl (h : ∀ node ∈ builder.nodes, node.Tidy) (events : List Event) :
    (∀ node ∈ (events.foldl step builder).nodes, node.Tidy) ∧
      (events.foldl step builder).images = builder.images ++ builder.imagesClosed events := by
  induction events generalizing builder with
  | nil => exact ⟨h, (List.append_nil _).symm⟩
  | cons event rest ih =>
    obtain ⟨hfirst, himage⟩ := tidy_step h event
    obtain ⟨hrest, himages⟩ := ih hfirst
    refine ⟨hrest, himages.trans ?_⟩
    rw [himage, imagesClosed, List.append_assoc]

end TreeBuilder

open TreeBuilder

/-- **Every sequence of events makes a document in normal form**, and one that does not depend on
whether the tags that are left open are stopped.  Its images are those that are closed outside of
all others when these stops are taken as well, each with the text of what it then has in it. -/
theorem Node.ofEvents_normal (events : List Event) :
    (Node.ofEvents events).kind = .document ∧ (Node.ofEvents events).attrs = {} ∧
      (Node.ofEvents events).Normal ∧
      Node.images [Node.ofEvents events] = TreeBuilder.imagesClosed {} (completed events) ∧
      Node.ofEvents (completed events) = Node.ofEvents events := by
  have hopen : ∀ node ∈ nodes {}, node.Tidy :=
    List.forall_mem_singleton.mpr ⟨.nil, nofun, nofun, fun _ => rfl, nofun⟩
  obtain ⟨htidy, himages⟩ := tidy_foldl hopen (completed events)
  -- all frames are closed, and only the root is open
  let root := ((completed events).foldl step {}).root
  have hnodes : ((completed events).foldl step {}).nodes = [root] := by
    rw [nodes, frames_completed]
    rfl
  have hroot : root.Tidy := htidy root (hnodes ▸ List.mem_singleton_self root)
  have hkind : root.kind = .document := by
    rw [← kind_ofEvents events, ofEvents_eq_root]
    rfl
  have hother : root.kind ≠ .image := by simp [hkind]
  have hclose : root.close = root.toNode := if_neg hother
  refine ⟨kind_ofEvents events, ?_, ?_, ?_, ofEvents_completed events⟩
  all_goals rw [ofEvents_eq_root events]
  · exact hroot.document hkind
  · exact hclose ▸ hroot.close
  · have hshown : imagesThrough [root] = root.images := by
      rw [imagesThrough, if_neg (by simp [InImage, hother])]
      rfl
    rw [TreeBuilder.images, hnodes, hshown] at himages
    rw [← hclose, hroot.images_close, if_neg hother]
    exact himages

/-- The stop of another tag closes the emphasis, and the end of the events the image around it. -/
example :
    let image : Attributes := { destination := some "i.png", text := some "cd " }
    Node.ofEvents [.text "a", .start .htmlBlock, .text "b", .start (.image "i.png" ""), .text "c",
        .start .emphasis, .text "d", .stop .strong, .softBreak] =
      .document [.text "ab", .mk .image image []] := by
  cbv

end Rendition
