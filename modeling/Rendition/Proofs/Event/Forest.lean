import Rendition.Event.Tree
import Rendition.Proofs.Node.Preorder

/-!
# Event forests and their documents

Well-nested events are those of a forest of `EventTree`s.  What document they describe is said
here by recursion on the forest: every tree puts some **shares** into the node around it
(`EventTree.shares`), and a node is assembled from the shares that its tag encloses
(`NodeKind.assemble`).  There are neither frames in this nor a cursor.  What a tree needs to
know of its place are the columns of the table around and the number of cells before it.

An open node that takes shares one by one, merging texts as they come, ends up as the node that
is assembled from them (`OpenNode.close_takeAll`).
-/

namespace Rendition

/-- Whether the event stands alone, and neither starts nor stops a tag. -/
def Event.isSingle : Event → Bool
  | start _ | stop _ => false
  | _ => true

/-- A tag with the trees that it encloses, or a single event. -/
inductive EventTree where
  | element (tag : Tag) (inner : List EventTree)
  | single (event : Event) (alone : event.isSingle = true)

namespace EventTree

mutual

/-- The events of a tree. -/
def events : EventTree → List Event
  | element tag inner => tag.enclose (eventsAll inner)
  | single event _ => [event]

/-- The events of trees, one tree after another. -/
def eventsAll : List EventTree → List Event
  | [] => []
  | tree :: rest => tree.events ++ eventsAll rest

end

/-- How many cells of a table the tree is. -/
def cells : EventTree → Nat
  | element .tableCell _ => 1
  | _ => 0

/-- How many of the trees are cells. -/
def cellsAll : List EventTree → Nat
  | [] => 0
  | tree :: rest => tree.cells + cellsAll rest

end EventTree

/-! ## Where the parts of tables may stand -/

namespace TagKind

/-- The innermost open tag is a row of a table, or its head. -/
def InRow (openTags : List TagKind) : Prop :=
  openTags.head? = some .tableHead ∨ openTags.head? = some .tableRow

instance (openTags : List TagKind) : Decidable (InRow openTags) :=
  inferInstanceAs (Decidable (_ ∨ _))

/-- A table may not start inside another one, its head and rows come directly in it, and
cells directly in these. -/
def Fits (openTags : List TagKind) : TagKind → Prop
  | table => .table ∉ openTags
  | tableHead | tableRow => openTags.head? = some .table
  | tableCell => InRow openTags
  | _ => True

instance decidableFits (openTags : List TagKind) : (kind : TagKind) → Decidable (Fits openTags kind)
  | table => inferInstanceAs (Decidable (_ ∉ _))
  | tableHead | tableRow => inferInstanceAs (Decidable (_ = _))
  | tableCell => inferInstanceAs (Decidable (InRow openTags))
  | paragraph | heading | blockQuote | codeBlock | htmlBlock | list | item | footnote
  | definitionList | definitionTitle | definitionDetails | emphasis | strong | strikethrough
  | superscript | subscript | link | image | metadata => .isTrue trivial

end TagKind

namespace EventTree

mutual

/-- Tables and their parts are where they may stand. -/
def WellPlaced (openTags : List TagKind) : EventTree → Prop
  | element tag inner => tag.kind.Fits openTags ∧ WellPlacedAll (tag.kind :: openTags) inner
  | single _ _ => True

def WellPlacedAll (openTags : List TagKind) : List EventTree → Prop
  | [] => True
  | tree :: rest => tree.WellPlaced openTags ∧ WellPlacedAll openTags rest

end

mutual

instance decidableWellPlaced (openTags : List TagKind) : (tree : EventTree) →
    Decidable (tree.WellPlaced openTags)
  | element tag inner =>
    have := decidableWellPlacedAll (tag.kind :: openTags) inner
    inferInstanceAs (Decidable (_ ∧ _))
  | single _ _ => .isTrue trivial

instance decidableWellPlacedAll (openTags : List TagKind) : (forest : List EventTree) →
    Decidable (WellPlacedAll openTags forest)
  | [] => .isTrue trivial
  | tree :: rest =>
    have := decidableWellPlaced openTags tree
    have := decidableWellPlacedAll openTags rest
    inferInstanceAs (Decidable (_ ∧ _))

end

/-- There are cells in rows only. -/
theorem cellsAll_eq_zero {openTags : List TagKind} (hrow : ¬ TagKind.InRow openTags)
    {forest : List EventTree} (h : WellPlacedAll openTags forest) : cellsAll forest = 0 := by
  induction forest with
  | nil => rfl
  | cons tree rest ih =>
    obtain ⟨htree, hrest⟩ := h
    have hcells : tree.cells = 0 := by
      unfold cells
      split
      · exact absurd htree.1 hrow
      · rfl
    rw [cellsAll, hcells, ih hrest]

end EventTree

/-! ## The document of a forest -/

/-- What comes to stand in a node: text, which may become one with the text before it, or
a child of its own. -/
inductive Share where
  | text (content : String)
  | softBreak
  /-- A finished node, which is not a text. -/
  | child (node : Node)

namespace Share

/-- The share as a child of a node. -/
def toNode : Share → Node
  | text content => .text content
  | softBreak => .ofKind .softBreak
  | child node => node

/-- Puts a share in front of others; of two texts it makes one. -/
def before : Share → List Share → List Share
  | text first, text second :: rest => text (first ++ second) :: rest
  | share, rest => share :: rest

/-- Makes one text of each run of adjacent ones. -/
def merge (shares : List Share) : List Share :=
  shares.foldr before []

/-- What the share adds to the code of a code block that it stands in. -/
def code : Share → String
  | text content => content
  | softBreak => "\n"
  | child _ => ""

/-- The share as a child of a code block, if it adds nothing to the code. -/
def node? : Share → Option Node
  | child node => some node
  | text _ | softBreak => none

end Share

/-- The node of a kind that is made of shares.  A code block has its code as text, an image
has the text of its content and no children, and elsewhere adjacent texts are one. -/
def NodeKind.assemble (attrs : Attributes) (shares : List Share) : NodeKind → Node
  | codeBlock =>
    .mk .codeBlock { attrs with text := some (String.join (shares.map Share.code)) }
      (shares.filterMap Share.node?)
  | image =>
    .mk .image { attrs with text := some (Node.textAll ((Share.merge shares).map Share.toNode)) } []
  | kind => .mk kind attrs ((Share.merge shares).map Share.toNode)

/-- What becomes of a tag. -/
inductive Role where
  /-- It makes a node. -/
  | node (kind : NodeKind) (attrs : Attributes)
  /-- What it encloses takes its place. -/
  | spliced
  /-- It is left out, with all that it encloses. -/
  | dropped

namespace Tag

/-- What becomes of the tag, which may be a cell in a column of that alignment. -/
def role (align : Alignment) : Tag → Role
  | paragraph => .node .paragraph {}
  | heading level id => .node .heading
      { level := some level.number
        extra := match id with
          | some id => (∅ : ExtraAttrs).insert "id" id
          | none => ∅ }
  | blockQuote alert => .node .blockQuote { alert }
  | codeBlock fence => .node .codeBlock (TreeBuilder.codeAttrs fence)
  | htmlBlock | footnote _ => .spliced
  | list start => .node .list { start }
  | item => .node .listItem {}
  | definitionList => .node .definitionList {}
  | definitionTitle => .node .definitionTitle {}
  | definitionDetails => .node .definitionDetails {}
  | table _ => .node .table {}
  | tableHead => .node .tableHead {}
  | tableRow => .node .tableRow {}
  | tableCell => .node .tableCell { align := some align }
  | emphasis => .node .emphasis {}
  | strong => .node .strong {}
  | strikethrough => .node .strikethrough {}
  | superscript => .node .superscript {}
  | subscript => .node .subscript {}
  | link destination title => .node .link (TreeBuilder.targetAttrs destination title)
  | image destination title => .node .image (TreeBuilder.targetAttrs destination title)
  | metadata => .dropped

/-- The columns of the innermost table inside the tag, given those around it. -/
def columns (around : List Alignment) : Tag → List Alignment
  | table alignments => alignments
  | _ => around

end Tag

/-- The shares of a single event.  Footnotes and formulas have none. -/
def Event.shares : Event → List Share
  | text content => [.text content]
  | code content => [.child ((Node.ofKind .code).withText content)]
  | html content | inlineHtml content => [.child ((Node.ofKind .html).withText content)]
  | softBreak => [.softBreak]
  | hardBreak => [.child (.ofKind .hardBreak)]
  | rule => [.child (.ofKind .thematicBreak)]
  | task checked => [.child ((Node.ofKind .taskListMarker).withChecked checked)]
  | footnoteRef _ | inlineMath _ | displayMath _ | start _ | stop _ => []

namespace EventTree

mutual

/-- The shares that a tree puts into the node around it, in a table of these columns and
behind `column` cells of the same row. -/
def shares (columns : List Alignment) (column : Nat) : EventTree → List Share
  | element tag inner =>
    let content := sharesAll (tag.columns columns) 0 inner
    match tag.role (columns[column]?.getD .none) with
    | .node kind attrs => [.child (kind.assemble attrs content)]
    | .spliced => content
    | .dropped => []
  | single event _ => event.shares

/-- The shares of trees that come one after another. -/
def sharesAll (columns : List Alignment) (column : Nat) : List EventTree → List Share
  | [] => []
  | tree :: rest => tree.shares columns column ++ sharesAll columns (column + tree.cells) rest

end

/-- The document of a forest. -/
def document (forest : List EventTree) : Node :=
  NodeKind.document.assemble {} (sharesAll [] 0 forest)

end EventTree

/-! ## Taking shares one by one -/

namespace Share

/-- The share is a finished node only if it is not a text. -/
def Proper : Share → Prop
  | child node => node.kind ≠ .text
  | text _ | softBreak => True

theorem before_text_before_text (first second : String) (rest : List Share) :
    before (.text first) (before (.text second) rest) = before (.text (first ++ second)) rest := by
  rcases rest with _ | ⟨_ | _ | _, rest⟩
  · rfl
  · simp only [before, String.append_assoc]
  · rfl
  · rfl

end Share

namespace OpenNode

/-- Adds a share at the end of an open node. -/
def take (node : OpenNode) : Share → OpenNode
  | .text content => node.addText content
  | .softBreak => node.addSoftBreak
  | .child finished => node.append finished

/-- Adds shares one by one. -/
def takeAll (shares : List Share) (node : OpenNode) : OpenNode :=
  shares.foldl take node

theorem takeAll_append (first second : List Share) (node : OpenNode) :
    takeAll (first ++ second) node = takeAll second (takeAll first node) :=
  List.foldl_append

/-- A code block puts the code together. -/
theorem takeAll_codeBlock (shares : List Share) (attrs : Attributes) (code : String)
    (newest : List Node) :
    takeAll shares ⟨.codeBlock, { attrs with text := some code }, newest⟩ =
      ⟨.codeBlock, { attrs with text := some (code ++ String.join (shares.map Share.code)) },
        (shares.filterMap Share.node?).reverse ++ newest⟩ := by
  induction shares generalizing code newest with
  | nil => simp [takeAll]
  | cons share rest ih =>
    cases share with
    | text content =>
      refine (ih (code ++ content) newest).trans ?_
      simp [Share.code, List.filterMap_cons, Share.node?, String.append_assoc]
    | softBreak =>
      refine (ih (code ++ "\n") newest).trans ?_
      simp [Share.code, List.filterMap_cons, Share.node?, String.append_assoc]
    | child finished =>
      refine (ih code (finished :: newest)).trans ?_
      simp [Share.code, Share.node?]

/-- Behind anything but a text, text is a child of its own. -/
theorem addText_behind_other {kind : NodeKind} (hcode : kind ≠ .codeBlock) (attrs : Attributes)
    {newest : List Node} (hlast : ∀ last ∈ newest.head?, last.kind ≠ .text) (content : String) :
    addText content ⟨kind, attrs, newest⟩ = ⟨kind, attrs, .text content :: newest⟩ := by
  unfold addText
  rw [if_neg hcode]
  split
  · rename_i hnewest
    simp only at hnewest
    rw [hnewest] at hlast
    exact absurd rfl (hlast _ rfl)
  · rfl

/-- Behind a text it becomes part of that text. -/
theorem addText_behind_text {kind : NodeKind} (hcode : kind ≠ .codeBlock) (attrs : Attributes)
    (last content : String) (older : List Node) :
    addText content ⟨kind, attrs, .text last :: older⟩ =
      ⟨kind, attrs, .text (last ++ content) :: older⟩ := by
  unfold addText
  rw [if_neg hcode]
  rfl

/-- Elsewhere adjacent texts become one, also with a text that was there before. -/
theorem takeAll_merge {kind : NodeKind} (hcode : kind ≠ .codeBlock) (attrs : Attributes)
    {shares : List Share} (hproper : ∀ share ∈ shares, share.Proper) :
    (∀ newest : List Node, (∀ last ∈ newest.head?, last.kind ≠ .text) →
      takeAll shares ⟨kind, attrs, newest⟩ =
        ⟨kind, attrs, ((Share.merge shares).map Share.toNode).reverse ++ newest⟩) ∧
    ∀ (last : String) (older : List Node),
      takeAll shares ⟨kind, attrs, .text last :: older⟩ =
        ⟨kind, attrs,
          ((Share.before (.text last) (Share.merge shares)).map Share.toNode).reverse ++ older⟩ := by
  induction shares with
  | nil => exact ⟨fun newest _ => rfl, fun last older => rfl⟩
  | cons share rest ih =>
    obtain ⟨hshare, hrest⟩ := List.forall_mem_cons.mp hproper
    obtain ⟨ihOther, ihText⟩ := ih hrest
    have hmerge : Share.merge (share :: rest) = Share.before share (Share.merge rest) := rfl
    -- a share that is no text is appended, whatever comes before it
    have hother : ∀ finished : Node, finished.kind ≠ .text → ∀ newest : List Node,
        takeAll rest ⟨kind, attrs, finished :: newest⟩ =
          ⟨kind, attrs, ((Share.merge rest).map Share.toNode).reverse ++ finished :: newest⟩ := by
      intro finished hfinished newest
      refine ihOther (finished :: newest) fun last hlast => ?_
      cases hlast
      exact hfinished
    cases share with
    | text content =>
      refine ⟨fun newest hlast => ?_, fun last older => ?_⟩
      · have hstep : takeAll (.text content :: rest) ⟨kind, attrs, newest⟩ =
            takeAll rest (addText content ⟨kind, attrs, newest⟩) := rfl
        rw [hstep, addText_behind_other hcode attrs hlast, ihText, hmerge]
      · have hstep : takeAll (.text content :: rest) ⟨kind, attrs, .text last :: older⟩ =
            takeAll rest (addText content ⟨kind, attrs, .text last :: older⟩) := rfl
        rw [hstep, addText_behind_text hcode, ihText, hmerge, Share.before_text_before_text]
    | softBreak =>
      have hstep : ∀ newest, takeAll (.softBreak :: rest) ⟨kind, attrs, newest⟩ =
          takeAll rest ⟨kind, attrs, .ofKind .softBreak :: newest⟩ := fun newest => by
        change takeAll rest (addSoftBreak ⟨kind, attrs, newest⟩) = _
        rw [addSoftBreak, if_neg hcode]
        rfl
      refine ⟨fun newest _ => ?_, fun last older => ?_⟩
      all_goals
        rw [hstep, hother _ (by simp [Node.ofKind]), hmerge]
        simp [Share.before, Share.toNode]
    | child finished =>
      refine ⟨fun newest _ => ?_, fun last older => ?_⟩
      · refine (hother finished hshare newest).trans ?_
        simp [hmerge, Share.before, Share.toNode]
      · refine (hother finished hshare (.text last :: older)).trans ?_
        simp [hmerge, Share.before, Share.toNode]

/-- Shares taken by a fresh node other than a code block. -/
theorem takeAll_fresh {kind : NodeKind} (hcode : kind ≠ .codeBlock) (attrs : Attributes)
    {shares : List Share} (hproper : ∀ share ∈ shares, share.Proper) :
    takeAll shares { kind, attrs } =
      ⟨kind, attrs, ((Share.merge shares).map Share.toNode).reverse⟩ := by
  refine ((takeAll_merge hcode attrs hproper).1 [] fun _ hlast => by cases hlast).trans ?_
  rw [List.append_nil]

/-- **A node that has taken its shares is assembled from them** when it is closed. -/
theorem close_takeAll (kind : NodeKind) (attrs : Attributes) {shares : List Share}
    (hcode : kind = .codeBlock → attrs.text = some "")
    (himage : kind = .image → attrs.text = none)
    (hproper : ∀ share ∈ shares, share.Proper) :
    (takeAll shares { kind, attrs }).close = kind.assemble attrs shares := by
  by_cases hkind : kind = .codeBlock
  · subst hkind
    have htext : attrs = { attrs with text := some "" } := by rw [← hcode rfl]
    rw [htext, takeAll_codeBlock]
    simp [close, toNode, NodeKind.assemble]
  · rw [takeAll_fresh hkind attrs hproper]
    cases kind with
    | codeBlock => exact absurd rfl hkind
    | image =>
      have hown : (Node.mk .image attrs ((Share.merge shares).map Share.toNode)).ownText = "" := by
        simp [Node.ownText, himage rfl]
      simp only [close, toNode, List.reverse_reverse, ↓reduceIte, NodeKind.assemble,
        Node.plainText_mk, hown, String.empty_append]
    | _ => simp [close, toNode, NodeKind.assemble]

end OpenNode

/-! ## What a tag and a tree are like -/

theorem NodeKind.kind_assemble (attrs : Attributes) (shares : List Share) (kind : NodeKind) :
    (kind.assemble attrs shares).kind = kind := by
  cases kind <;> rfl

namespace Tag

/-- The node that a tag makes: a code block begins with no code, an image with no text, and no
tag makes a text. -/
theorem role_node {tag : Tag} {align : Alignment} {kind : NodeKind} {attrs : Attributes}
    (h : tag.role align = .node kind attrs) :
    (kind = .codeBlock → attrs.text = some "") ∧ (kind = .image → attrs.text = none) ∧
      kind ≠ .text := by
  cases tag with
  | codeBlock fence =>
    cases h
    refine ⟨fun _ => ?_, nofun, nofun⟩
    cases fence <;> rfl
  | image destination title =>
    cases h
    exact ⟨nofun, fun _ => rfl, nofun⟩
  | _ =>
    cases h
    all_goals exact ⟨nofun, nofun, nofun⟩

theorem eq_metadata_of_dropped {tag : Tag} {align : Alignment} (h : tag.role align = .dropped) :
    tag = .metadata := by
  cases tag with
  | metadata => rfl
  | _ => cases h

/-- Only for cells the alignment matters. -/
theorem role_eq {tag : Tag} (h : tag.kind ≠ .tableCell) (first second : Alignment) :
    tag.role first = tag.role second := by
  cases tag with
  | tableCell => exact absurd rfl h
  | _ => rfl

end Tag

namespace EventTree

theorem proper_single (event : Event) : ∀ share ∈ event.shares, share.Proper := by
  intro share hshare
  cases event with
  | text | softBreak =>
    obtain rfl := List.mem_singleton.mp hshare
    trivial
  | code | html | inlineHtml | hardBreak | rule | task =>
    obtain rfl := List.mem_singleton.mp hshare
    exact NodeKind.noConfusion
  | _ => cases hshare

mutual

/-- All shares of trees are proper ones. -/
theorem proper_shares (tree : EventTree) (columns : List Alignment) (column : Nat) :
    ∀ share ∈ tree.shares columns column, share.Proper := by
  cases tree with
  | single event alone => exact proper_single event
  | element tag inner =>
    intro share hshare
    rw [shares] at hshare
    split at hshare
    · rename_i kind attrs hrole
      obtain rfl := List.mem_singleton.mp hshare
      have hkind := (Tag.role_node hrole).2.2
      simpa only [Share.Proper, NodeKind.kind_assemble] using hkind
    · exact proper_sharesAll inner _ 0 share hshare
    · cases hshare

theorem proper_sharesAll (forest : List EventTree) (columns : List Alignment) (column : Nat) :
    ∀ share ∈ sharesAll columns column forest, share.Proper := by
  cases forest with
  | nil => exact fun _ hshare => by cases hshare
  | cons tree rest =>
    intro share hshare
    rw [sharesAll] at hshare
    rcases List.mem_append.mp hshare with hfirst | hrest
    · exact proper_shares tree columns column share hfirst
    · exact proper_sharesAll rest columns _ share hrest

end

end EventTree

end Rendition
