import Rendition.Proofs.Event.Balance

/-!
# Building the documents of forests

A `TreeBuilder` that takes the events of a forest makes the document of the forest
(`Node.ofEvents_eventsAll`).  The induction is on the forest, for any builder that it may meet:
the events of a tree change the innermost open node as if it took the shares of the tree, and
leave all other frames as they are (`TreeBuilder.foldl_events`).

What has to be carried along is the cursor, of which there is only one for the whole builder.
It stands where a forest expects it (`TableCursor.Follows`), and a forest moves it only as far
as the trees behind it expect (`TableCursor.Moves`).  This is where tables inside tables, and
rows and cells out of their place, have to be excluded.
-/

namespace Rendition
namespace TreeBuilder

variable {builder : TreeBuilder}

/-! ### Changes of the current node -/

theorem modifyInnermost?_comp (f g : OpenNode → OpenNode) (frames : List Frame) :
    (modifyInnermost? f frames).bind (modifyInnermost? g) = modifyInnermost? (g ∘ f) frames := by
  induction frames with
  | nil => rfl
  | cons frame outer ih =>
    cases frame with
    | building node => rfl
    | passing | skipping =>
      simp only [modifyInnermost?, ← ih, Option.bind_map, Option.map_bind]
      rfl

/-- Whether there is a node to be changed does not depend on the change. -/
theorem modifyInnermost?_eq_none {f : OpenNode → OpenNode} {frames : List Frame}
    (h : modifyInnermost? f frames = none) (g : OpenNode → OpenNode) :
    modifyInnermost? g frames = none := by
  induction frames with
  | nil => rfl
  | cons frame outer ih =>
    cases frame with
    | building node => cases h
    | passing | skipping =>
      simp only [modifyInnermost?, Option.map_eq_none_iff] at h ⊢
      exact ih h

/-- Two changes of the current node are one. -/
theorem modifyCurrent_modifyCurrent (f g : OpenNode → OpenNode) (builder : TreeBuilder) :
    (builder.modifyCurrent f).modifyCurrent g = builder.modifyCurrent (g ∘ f) := by
  have hcomp := modifyInnermost?_comp f g builder.frames
  cases hf : modifyInnermost? f builder.frames with
  | some frames =>
    rw [hf, Option.bind_some] at hcomp
    simp only [modifyCurrent, hf, hcomp]
    cases hg : modifyInnermost? (g ∘ f) builder.frames with
    | some changed => rfl
    | none =>
      rw [modifyInnermost?_eq_none hg f] at hf
      cases hf
  | none =>
    simp only [modifyCurrent, hf, modifyInnermost?_eq_none hf]
    rfl

/-- The builder with the cursor somewhere else. -/
def withTable (table : TableCursor) (builder : TreeBuilder) : TreeBuilder :=
  { builder with table }

/-- A change of the current node does not look at the cursor. -/
theorem withTable_modifyCurrent (f : OpenNode → OpenNode) (table : TableCursor)
    (builder : TreeBuilder) :
    (builder.modifyCurrent f).withTable table = (builder.withTable table).modifyCurrent f := by
  unfold modifyCurrent withTable
  cases modifyInnermost? f builder.frames <;> rfl

/-- No change of the current node is none of the builder. -/
theorem modifyCurrent_id (builder : TreeBuilder) :
    builder.modifyCurrent (fun node => node) = builder := by
  have hframes : ∀ frames changed : List Frame,
      modifyInnermost? (fun node => node) frames = some changed → changed = frames := by
    intro frames
    induction frames with
    | nil => exact fun _ hnone => by cases hnone
    | cons frame outer ih =>
      intro changed hchanged
      cases frame with
      | building node =>
        cases hchanged
        rfl
      | passing | skipping =>
        obtain ⟨inner, hinner, rfl⟩ := Option.map_eq_some_iff.mp hchanged
        rw [ih inner hinner]
  unfold modifyCurrent
  split
  · rename_i frames hchanged
    rw [hframes _ frames hchanged]
  · rfl

@[simp] theorem skipped_modifyCurrent (f : OpenNode → OpenNode) (builder : TreeBuilder) :
    (builder.modifyCurrent f).skipped = builder.skipped := by
  unfold modifyCurrent
  split <;> rfl

@[simp] theorem table_modifyCurrent (f : OpenNode → OpenNode) (builder : TreeBuilder) :
    (builder.modifyCurrent f).table = builder.table := by
  unfold modifyCurrent
  split <;> rfl

/-- A change of the current node does not make the builder skip what comes next. -/
theorem take_of_modifyCurrent (builder : TreeBuilder) (h : builder.skipped = 0)
    (f : OpenNode → OpenNode) (event : Event) :
    (builder.modifyCurrent f).step event = (builder.modifyCurrent f).take event :=
  step_eq_take ((skipped_modifyCurrent f builder).trans h) event

end TreeBuilder

/-! ### The cursor -/

namespace TableCursor

variable {openTags : List TagKind} {columns : List Alignment} {column cells : Nat}
  {before after later cursor : TableCursor} {tag : Tag}

/-- The cursor when a tag has started. -/
def enter (cursor : TableCursor) : Tag → TableCursor
  | .table alignments => { alignments }
  | .tableHead | .tableRow => { cursor with cell := 0 }
  | _ => cursor

/-- A tag that makes no node does not look at the cursor. -/
theorem enter_of_spliced {align : Alignment} (h : tag.role align = .spliced)
    (cursor : TableCursor) : cursor.enter tag = cursor := by
  cases tag with
  | htmlBlock | footnote => rfl
  | _ => cases h

/-- The cursor when a tag stops. -/
def exit (kind : TagKind) (cursor : TableCursor) : TableCursor :=
  if kind = .tableCell then { cursor with cell := cursor.cell + 1 } else cursor

/-- The cursor stands where it should while these tags are open: in the innermost table, and
directly in a row at its column. -/
structure Follows (openTags : List TagKind) (columns : List Alignment) (column : Nat)
    (cursor : TableCursor) : Prop where
  columns : .table ∈ openTags → cursor.alignments = columns
  row : TagKind.InRow openTags → .table ∈ openTags ∧ cursor.cell = column

/-- What trees do to the cursor, among which there are so many cells.  Inside a table it does
not leave the table, and what cannot hold a row moves it by the cells alone. -/
structure Moves (openTags : List TagKind) (cells : Nat) (before after : TableCursor) : Prop where
  columns : .table ∈ openTags → after.alignments = before.alignments
  cell : .table ∈ openTags → openTags.head? ≠ some .table → after.cell = before.cell + cells

theorem Moves.refl (openTags : List TagKind) (cursor : TableCursor) :
    Moves openTags 0 cursor cursor :=
  ⟨fun _ => rfl, fun _ _ => rfl⟩

theorem Moves.trans {more : Nat} (h : Moves openTags cells before after)
    (h' : Moves openTags more after later) : Moves openTags (cells + more) before later where
  columns htable := (h'.columns htable).trans (h.columns htable)
  cell htable hhead := by
    rw [h'.cell htable hhead, h.cell htable hhead, Nat.add_assoc]

/-- Directly in a row the cursor follows the cells. -/
theorem Follows.moves (h : Follows openTags columns column before)
    (hmoves : Moves openTags cells before after) :
    Follows openTags columns (column + cells) after where
  columns htable := (hmoves.columns htable).trans (h.columns htable)
  row hrow := by
    obtain ⟨htable, hcell⟩ := h.row hrow
    have hhead : openTags.head? ≠ some .table := by
      rcases hrow with hhead | hhead <;> simp [hhead]
    exact ⟨htable, by rw [hmoves.cell htable hhead, hcell]⟩

/-- Where a tag may start, the cursor stands as it should inside the tag. -/
theorem Follows.enter (h : Follows openTags columns column cursor)
    (hfits : tag.kind.Fits openTags) :
    Follows (tag.kind :: openTags) (tag.columns columns) 0 (cursor.enter tag) := by
  cases tag with
  | table alignments => exact ⟨fun _ => rfl, fun hrow => by simp [TagKind.InRow, Tag.kind] at hrow⟩
  | tableHead | tableRow =>
    have htable : .table ∈ openTags := List.mem_of_head? hfits
    exact ⟨fun _ => h.columns htable, fun _ => ⟨List.mem_cons_of_mem _ htable, rfl⟩⟩
  | _ =>
    refine ⟨fun htable => h.columns ?_, fun hrow => by simp [TagKind.InRow, Tag.kind] at hrow⟩
    simpa [Tag.kind] using htable

/-- From the start of a tag to its stop, given what the trees in it do. -/
theorem Moves.through {inner : List EventTree} (hfits : tag.kind.Fits openTags)
    (hinner : EventTree.WellPlacedAll (tag.kind :: openTags) inner)
    (h : Moves (tag.kind :: openTags) (EventTree.cellsAll inner) (before.enter tag) after) :
    Moves openTags (EventTree.element tag inner).cells before (after.exit tag.kind) := by
  -- neither a table nor a row of one can be inside anything else in the table
  have hother : tag.kind ≠ .table → tag.kind ≠ .tableHead → tag.kind ≠ .tableRow →
      before.enter tag = before → .table ∈ openTags →
      after.alignments = before.alignments ∧ after.cell = before.cell := by
    intro hne hhead hrow henter htable
    have hcells : EventTree.cellsAll inner = 0 := by
      refine EventTree.cellsAll_eq_zero (fun hin => ?_) hinner
      rcases hin with hin | hin
      · exact hhead (Option.some.inj hin)
      · exact hrow (Option.some.inj hin)
    have hmem : .table ∈ tag.kind :: openTags := List.mem_cons_of_mem _ htable
    have hcell := h.cell hmem fun hfirst => hne (Option.some.inj hfirst)
    rw [hcells, henter] at hcell
    exact ⟨(h.columns hmem).trans (congrArg _ henter), hcell⟩
  cases tag with
  | table alignments => exact ⟨fun htable => absurd htable hfits, fun htable => absurd htable hfits⟩
  | tableHead | tableRow =>
    refine ⟨fun htable => ?_, fun _ hhead => absurd hfits hhead⟩
    exact h.columns (List.mem_cons_of_mem _ htable)
  | tableCell =>
    have hmoves := hother nofun nofun nofun rfl
    exact ⟨fun htable => (hmoves htable).1, fun htable _ => congrArg (· + 1) (hmoves htable).2⟩
  | _ =>
    have hmoves := hother nofun nofun nofun rfl
    exact ⟨fun htable => (hmoves htable).1, fun htable _ => (hmoves htable).2⟩

end TableCursor

/-! ### Events outside of metadata -/

namespace TreeBuilder

variable {builder : TreeBuilder} {openTags : List TagKind} {columns : List Alignment}
  {column : Nat}

/-- **What the start of a tag does.** -/
theorem start_eq (builder : TreeBuilder) (tag : Tag) :
    builder.start tag =
      match tag.role builder.table.alignment with
      | .node kind attrs => (builder.withTable (builder.table.enter tag)).openNode kind attrs
      | .spliced => builder.openPassing
      | .dropped => builder.openSkipping := by
  cases tag with
  | heading level id => cases id <;> rfl
  | _ => rfl

/-- **Any other event gives shares to the current node.** -/
theorem take_single (builder : TreeBuilder) {event : Event} (alone : event.isSingle) :
    builder.take event = builder.modifyCurrent (OpenNode.takeAll event.shares) := by
  cases event with
  | start | stop => cases alone
  | footnoteRef | inlineMath | displayMath => exact (modifyCurrent_id builder).symm
  | _ => rfl

/-- The stop of a tag closes the node that has taken shares in it. -/
theorem stop_openNode (builder : TreeBuilder) (table : TableCursor) (kind : NodeKind)
    (attrs : Attributes) (shares : List Share) (tag : TagKind) :
    (((builder.openNode kind attrs).withTable table).modifyCurrent (OpenNode.takeAll shares)).stop
        tag =
      (builder.withTable (table.exit tag)).append (OpenNode.takeAll shares { kind, attrs }).close := by
  unfold stop TableCursor.exit
  split <;> rfl

/-- The stop of a tag with no node of its own leaves what the node around has taken. -/
theorem stop_openPassing (builder : TreeBuilder) (table : TableCursor) (f : OpenNode → OpenNode)
    (tag : TagKind) :
    ((builder.openPassing.withTable table).modifyCurrent f).stop tag =
      (builder.withTable (table.exit tag)).modifyCurrent f := by
  unfold stop TableCursor.exit
  simp only [modifyCurrent, openPassing, withTable, modifyInnermost?]
  split <;> cases modifyInnermost? f builder.frames <;> rfl

/-- The alignment of a tag, if it is a cell, is that of its column. -/
theorem role_alignment {tag : Tag} (hfits : tag.kind.Fits openTags)
    (h : builder.table.Follows openTags columns column) :
    tag.role builder.table.alignment = tag.role (columns[column]?.getD .none) := by
  by_cases hcell : tag.kind = .tableCell
  · rw [hcell] at hfits
    obtain ⟨htable, hcolumn⟩ := h.row hfits
    rw [TableCursor.alignment, h.columns htable, hcolumn]
  · exact Tag.role_eq hcell _ _

mutual

/-- **A builder takes the shares of a tree**, whatever has been built before. -/
theorem foldl_events (tree : EventTree) (builder : TreeBuilder) {openTags : List TagKind}
    {columns : List Alignment} {column : Nat} (hskipped : builder.skipped = 0)
    (hplaced : tree.WellPlaced openTags) (h : builder.table.Follows openTags columns column) :
    ∃ table, builder.table.Moves openTags tree.cells table ∧
      tree.events.foldl step builder =
        (builder.withTable table).modifyCurrent
          (OpenNode.takeAll (tree.shares columns column)) := by
  cases tree with
  | single event alone =>
    exact ⟨builder.table, .refl openTags _,
      (step_eq_take hskipped event).trans (take_single builder alone)⟩
  | element tag inner =>
    obtain ⟨hfits, hinner⟩ := hplaced
    have hfollows := h.enter hfits
    have hstart := start_eq builder tag
    rw [role_alignment hfits h] at hstart
    rw [EventTree.events, foldl_enclose, step_eq_take hskipped, take, hstart, EventTree.shares]
    cases hrole : tag.role (columns[column]?.getD .none) with
    | node kind attrs =>
      obtain ⟨hcode, himage, -⟩ := Tag.role_node hrole
      let opened : TreeBuilder := (builder.withTable (builder.table.enter tag)).openNode kind attrs
      obtain ⟨table, hmoves, hrun⟩ := foldl_eventsAll inner opened hskipped hinner hfollows
      refine ⟨table.exit tag.kind, hmoves.through hfits hinner, ?_⟩
      simp only
      rw [hrun]
      refine (take_of_modifyCurrent (opened.withTable table) hskipped _ _).trans ?_
      refine (stop_openNode _ table kind attrs _ tag.kind).trans ?_
      rw [OpenNode.close_takeAll kind attrs hcode himage (EventTree.proper_sharesAll inner _ 0)]
      rfl
    | spliced =>
      have hcursor := TableCursor.enter_of_spliced hrole builder.table
      rw [hcursor] at hfollows
      obtain ⟨table, hmoves, hrun⟩ :=
        foldl_eventsAll inner builder.openPassing hskipped hinner hfollows
      have hentered : (builder.table.enter tag).Moves (tag.kind :: openTags)
          (EventTree.cellsAll inner) table := hcursor.symm ▸ hmoves
      refine ⟨table.exit tag.kind, hentered.through hfits hinner, ?_⟩
      simp only
      rw [hrun]
      refine (take_of_modifyCurrent (builder.openPassing.withTable table) hskipped _ _).trans ?_
      exact stop_openPassing builder table _ tag.kind
    | dropped =>
      obtain rfl := Tag.eq_metadata_of_dropped hrole
      refine ⟨builder.table, .refl openTags _, ?_⟩
      have hopened : builder.openSkipping.skipped ≠ 0 := Nat.succ_ne_zero _
      simp only
      rw [foldl_skipping hopened (EventTree.balanced_eventsAll inner), step_eq_pass hopened]
      exact (modifyCurrent_id builder).symm

theorem foldl_eventsAll (forest : List EventTree) (builder : TreeBuilder)
    {openTags : List TagKind} {columns : List Alignment} {column : Nat}
    (hskipped : builder.skipped = 0) (hplaced : EventTree.WellPlacedAll openTags forest)
    (h : builder.table.Follows openTags columns column) :
    ∃ table, builder.table.Moves openTags (EventTree.cellsAll forest) table ∧
      (EventTree.eventsAll forest).foldl step builder =
        (builder.withTable table).modifyCurrent
          (OpenNode.takeAll (EventTree.sharesAll columns column forest)) := by
  cases forest with
  | nil => exact ⟨builder.table, .refl openTags _, (modifyCurrent_id builder).symm⟩
  | cons tree rest =>
    obtain ⟨htree, hrest⟩ := hplaced
    obtain ⟨middle, hfirst, hrunFirst⟩ := foldl_events tree builder hskipped htree h
    -- what the rest finds is the builder with the shares of the first tree in it
    let reached : TreeBuilder := (builder.withTable middle).modifyCurrent
      (OpenNode.takeAll (tree.shares columns column))
    have hreached : reached.table = middle := table_modifyCurrent _ _
    obtain ⟨table, hlater, hrunLater⟩ := foldl_eventsAll rest reached
      ((skipped_modifyCurrent _ _).trans hskipped) hrest (hreached ▸ h.moves hfirst)
    refine ⟨table, hfirst.trans (hreached ▸ hlater), ?_⟩
    rw [EventTree.eventsAll, List.foldl_append, hrunFirst, EventTree.sharesAll]
    refine hrunLater.trans ?_
    rw [withTable_modifyCurrent, modifyCurrent_modifyCurrent]
    refine congrArg (TreeBuilder.modifyCurrent · _) (funext fun node => ?_)
    exact (OpenNode.takeAll_append _ _ node).symm

end

end TreeBuilder

open TreeBuilder

/-- **What well-nested events describe is the document of their forest**, if tables and their
parts stand where they may: no table inside another one, heads and rows directly in a table,
and cells directly in a head or a row. -/
theorem Node.ofEvents_eventsAll (forest : List EventTree)
    (h : EventTree.WellPlacedAll [] forest) :
    Node.ofEvents (EventTree.eventsAll forest) = EventTree.document forest := by
  have hfollows : TableCursor.Follows [] [] 0 {} := by
    refine ⟨fun htable => ?_, fun hrow => ?_⟩
    · cases htable
    · rcases hrow with hrow | hrow <;> cases hrow
  obtain ⟨table, -, hrun⟩ := foldl_eventsAll forest {} rfl h hfollows
  have hclose := OpenNode.close_takeAll .document {} nofun nofun
    (EventTree.proper_sharesAll forest [] 0)
  have hkind : (OpenNode.takeAll (EventTree.sharesAll [] 0 forest) { kind := .document }).kind =
      .document := by
    rw [OpenNode.takeAll_fresh (by simp) {} (EventTree.proper_sharesAll forest [] 0)]
  rw [Node.ofEvents, hrun, EventTree.document, ← hclose, OpenNode.close, if_neg (by simp [hkind])]
  rfl

/-- A table in raw markup between texts, with more cells than columns in its row, and an image
and code with what is spliced and dropped in them. -/
theorem Node.ofEvents_eventsAll_table :
    let text : String → EventTree := fun content => .single (.text content) rfl
    let footnote : EventTree := .single (.footnoteRef "1") rfl
    let cell : String → EventTree := fun content => .element .tableCell [text content]
    let forest : List EventTree :=
      [text "a", .element .metadata [text "x"], footnote,
        .element .htmlBlock [text "b",
          .element (.table [.left, .right])
            [.element .tableHead [cell "h"], .element .tableRow [cell "i", cell "j", cell "k"]]],
        .element (.image "i.png" "") [text "c", .single .softBreak rfl, .single (.code "d") rfl],
        .element (.codeBlock none) [text "e", .element .htmlBlock [.single .softBreak rfl], text "f"]]
    let cellOf : Alignment → String → Node := fun align content =>
      .mk .tableCell { align := some align } [.text content]
    EventTree.WellPlacedAll [] forest ∧
    Node.ofEvents (EventTree.eventsAll forest) =
      .document [.text "ab",
        .mk .table {}
          [.mk .tableHead {} [cellOf .left "h"],
            .mk .tableRow {} [cellOf .left "i", cellOf .right "j", cellOf .none "k"]],
        .mk .image { destination := some "i.png", text := some "c d" } [],
        .mk .codeBlock { text := some "e\nf" } []] := by
  intro text footnote cell forest cellOf
  have hplaced : EventTree.WellPlacedAll [] forest := by decide
  have hcontent : Node.textAll
      [.text "c", .ofKind .softBreak, (Node.ofKind .code).withText "d"] = "c d" := by
    cbv
  refine ⟨hplaced, (ofEvents_eventsAll forest hplaced).trans ?_⟩
  rw [← hcontent]
  rfl

end Rendition
