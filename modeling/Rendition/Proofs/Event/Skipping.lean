import Rendition.Proofs.Event.Closing
import Mathlib.Data.List.Induction

/-!
# What is skipped

While events come in metadata a builder opens frames only to skip them.  How many it has opened is
counted apart from the stack that they are on, so that the count could come to differ from what is
there, or a frame of a node could be on top while something is skipped.

Neither happens, because a builder that skips is always one outside of metadata
(`TreeBuilder.Outside`) on which as many skipped frames have been put as are counted
(`TreeBuilder.SkipsOnTop`).  In metadata an event adds one of these frames or takes one off, or
changes nothing, and when the last one is taken off the builder is what it was before the metadata
started (`TreeBuilder.step_iterate_openSkipping`).  So the frames can be told from the events:
there are as many as tags have started in metadata and not stopped, with that of the metadata itself
(`TreeBuilder.foldl_inMetadata`).
-/

namespace Rendition

open Event

namespace Frame

theorem skippedIn_of_notMem {frames : List Frame} (h : .skipping ∉ frames) :
    skippedIn frames = 0 := by
  induction frames with
  | nil => rfl
  | cons frame outer ih =>
    obtain ⟨hframe, houter⟩ := not_or.mp (mt List.mem_cons.mpr h)
    cases frame with
    | skipping => exact absurd rfl hframe
    | building | passing => exact ih houter

theorem skippedIn_replicate_append (count : Nat) (below : List Frame) :
    skippedIn (List.replicate count .skipping ++ below) = count + skippedIn below := by
  induction count with
  | zero => exact (Nat.zero_add _).symm
  | succ count ih =>
    rw [List.replicate_succ, List.cons_append, skippedIn, ih]
    omega

end Frame

namespace TreeBuilder

variable {builder : TreeBuilder}

/-! ## Outside of metadata -/

/-- Nothing is skipped. -/
structure Outside (builder : TreeBuilder) : Prop where
  skipped : builder.skipped = 0
  frames : .skipping ∉ builder.frames

theorem outside_empty : Outside {} :=
  ⟨rfl, List.not_mem_nil⟩

theorem skipping_mem_modifyInnermost {f : OpenNode → OpenNode} {frames changed : List Frame}
    (h : modifyInnermost? f frames = some changed) :
    .skipping ∈ changed ↔ .skipping ∈ frames := by
  induction frames generalizing changed with
  | nil => cases h
  | cons frame outer ih =>
    cases frame with
    | building node =>
      cases h
      simp only [List.mem_cons, reduceCtorEq, false_or]
    | passing | skipping =>
      obtain ⟨inner, hinner, rfl⟩ := Option.map_eq_some_iff.mp h
      simp only [List.mem_cons, ih hinner]

theorem Outside.modifyCurrent (h : builder.Outside) (f : OpenNode → OpenNode) :
    (builder.modifyCurrent f).Outside := by
  refine ⟨(skipped_modifyCurrent f builder).trans h.skipped, fun hmem => h.frames ?_⟩
  unfold TreeBuilder.modifyCurrent at hmem
  split at hmem
  · exact (skipping_mem_modifyInnermost ‹_›).mp hmem
  · exact hmem

theorem Outside.withTable (h : builder.Outside) (table : TableCursor) :
    (builder.withTable table).Outside :=
  ⟨h.skipped, h.frames⟩

theorem Outside.close (h : builder.Outside) : builder.close.Outside := by
  obtain ⟨root, frames, table, skipped⟩ := builder
  cases frames with
  | nil => exact h
  | cons frame outer =>
    have houter : Outside ⟨root, outer, table, skipped⟩ :=
      ⟨h.skipped, fun hmem => h.frames (List.mem_cons_of_mem frame hmem)⟩
    cases frame with
    | building node => exact houter.modifyCurrent (·.append node.close)
    | passing => exact houter
    | skipping => exact absurd List.mem_cons_self h.frames

theorem Outside.push (h : builder.Outside) {frame : Frame} (hframe : .skipping ≠ frame) :
    Outside { builder with frames := frame :: builder.frames } := by
  refine ⟨h.skipped, fun hmem => ?_⟩
  rcases List.mem_cons.mp hmem with heq | hmem
  · exact hframe heq
  · exact h.frames hmem

/-- Tags other than metadata open frames that are not skipped. -/
theorem Outside.start (h : builder.Outside) {tag : Tag} (htag : tag ≠ .metadata) :
    (builder.start tag).Outside := by
  rw [start_eq]
  split
  · exact (h.withTable _).push fun heq => by cases heq
  · exact h.push fun heq => by cases heq
  · exact absurd (Tag.eq_metadata_of_dropped ‹_›) htag

/-- **Only a metadata tag leads from outside of metadata into it.** -/
theorem Outside.step (h : builder.Outside) {event : Event} (hevent : event ≠ .start .metadata) :
    (builder.step event).Outside := by
  cases event with
  | start tag =>
    rw [step_eq_take h.skipped]
    exact h.start fun htag => hevent (congrArg Event.start htag)
  | stop tag =>
    obtain ⟨table, hstop⟩ := step_stop_eq builder tag
    rw [hstop]
    exact h.close.withTable table
  | _ =>
    rw [step_single builder rfl]
    exact h.modifyCurrent _

/-! ## Skipped frames -/

theorem nodes_iterate_openSkipping (count : Nat) (builder : TreeBuilder) :
    (openSkipping^[count] builder).nodes = builder.nodes := by
  induction count with
  | zero => rfl
  | succ count ih =>
    rw [Function.iterate_succ_apply']
    exact ih

/-- The builder is one outside of metadata on which skipped frames have been put. -/
def SkipsOnTop (builder : TreeBuilder) : Prop :=
  ∃ count outside, Outside outside ∧ builder = openSkipping^[count] outside

namespace SkipsOnTop

theorem cases (h : builder.SkipsOnTop) :
    builder.Outside ∨ ∃ inner : TreeBuilder, inner.SkipsOnTop ∧ builder = inner.openSkipping := by
  obtain ⟨_ | count, outside, houtside, rfl⟩ := h
  · exact .inl houtside
  · refine .inr ⟨openSkipping^[count] outside, ⟨count, outside, houtside, rfl⟩, ?_⟩
    exact Function.iterate_succ_apply' openSkipping count outside

theorem openSkipping (h : builder.SkipsOnTop) : builder.openSkipping.SkipsOnTop := by
  obtain ⟨count, outside, houtside, rfl⟩ := h
  exact ⟨count + 1, outside, houtside, (Function.iterate_succ_apply' _ count outside).symm⟩

/-- **The count is right.** -/
theorem skipped_eq (h : builder.SkipsOnTop) : builder.skipped = Frame.skippedIn builder.frames := by
  obtain ⟨count, outside, houtside, rfl⟩ := h
  rw [iterate_openSkipping, Frame.skippedIn_replicate_append,
    Frame.skippedIn_of_notMem houtside.frames, houtside.skipped]
  exact Nat.add_comm 0 count

/-- **Skipped frames are on top of all others.** -/
theorem frames_eq (h : builder.SkipsOnTop) :
    ∃ below, builder.frames = List.replicate builder.skipped .skipping ++ below ∧
      .skipping ∉ below := by
  obtain ⟨count, outside, houtside, rfl⟩ := h
  refine ⟨outside.frames, ?_, houtside.frames⟩
  rw [iterate_openSkipping, houtside.skipped, Nat.zero_add]

theorem close (h : builder.SkipsOnTop) : builder.close.SkipsOnTop := by
  rcases h.cases with houtside | ⟨inner, hinner, rfl⟩
  · exact ⟨0, builder.close, houtside.close, rfl⟩
  · exact hinner

/-- **What is taken off the count is there.** -/
theorem skipped_close (h : builder.SkipsOnTop) {outer : List Frame}
    (hframes : builder.frames = .skipping :: outer) :
    builder.close.skipped + 1 = builder.skipped := by
  rcases h.cases with houtside | ⟨inner, -, rfl⟩
  · exact absurd (hframes ▸ List.mem_cons_self) houtside.frames
  · rfl

/-- **An event** keeps the skipped frames on top, whether it puts one there or takes one off. -/
theorem step (h : builder.SkipsOnTop) (event : Event) : (builder.step event).SkipsOnTop := by
  rcases h.cases with houtside | ⟨inner, hinner, rfl⟩
  · by_cases hevent : event = .start .metadata
    · rw [hevent, step_metadata]
      exact h.openSkipping
    · exact ⟨0, builder.step event, houtside.step hevent, rfl⟩
  · rw [step_eq_pass (Nat.succ_ne_zero _)]
    cases event with
    | start tag => exact h.openSkipping
    | stop tag => exact hinner
    | _ => exact h

/-- **Nothing but frames is changed** while something is skipped. -/
theorem frozen (h : builder.SkipsOnTop) (hskipped : builder.skipped ≠ 0) :
    (builder.close.nodes = builder.nodes ∧ builder.close.table = builder.table) ∧
      ∀ event, (builder.step event).nodes = builder.nodes ∧
        (builder.step event).table = builder.table := by
  rcases h.cases with houtside | ⟨inner, -, rfl⟩
  · exact absurd houtside.skipped hskipped
  · refine ⟨⟨rfl, rfl⟩, fun event => ?_⟩
    rw [step_eq_pass hskipped]
    cases event <;> exact ⟨rfl, rfl⟩

end SkipsOnTop

/-- So it is after all events. -/
theorem skipsOnTop_foldl (events : List Event) : (events.foldl step {}).SkipsOnTop := by
  suffices hrun : ∀ builder : TreeBuilder, builder.SkipsOnTop →
      (events.foldl step builder).SkipsOnTop from hrun {} ⟨0, {}, outside_empty, rfl⟩
  induction events with
  | nil => exact fun _ h => h
  | cons event rest ih => exact fun builder h => ih _ (h.step event)

/-- And so it is while the frames that are left are closed. -/
theorem SkipsOnTop.iterate_close (h : builder.SkipsOnTop) (closed : Nat) :
    (TreeBuilder.close^[closed] builder).SkipsOnTop := by
  induction closed with
  | zero => exact h
  | succ closed ih =>
    rw [Function.iterate_succ_apply']
    exact ih.close

end TreeBuilder

/-! ## Where metadata is -/

namespace Event

variable {before inner : List Event} {depth : Nat}

/-- The metadata tag between the events has started outside of all other metadata and has not
stopped, and neither have so many of the tags that have started in it. -/
structure InMetadata (before inner : List Event) (depth : Nat) : Prop where
  outside : .metadata ∉ openTags before
  nested : inner.foldlM nest? 0 = some depth

theorem openTags_concat (events : List Event) (event : Event) :
    openTags (events ++ [event]) = event.openAfter (openTags events) :=
  List.foldl_append

/-- Events that stop no other tags than have started in them leave the others open. -/
theorem foldl_openAfter_of_nested (tags : List TagKind)
    (h : inner.foldlM nest? 0 = some depth) :
    ∃ more, inner.foldl openAfter tags = more ++ tags ∧ more.length = depth := by
  refine nested_induction (P := fun depth taken =>
    ∃ more, taken.foldl openAfter tags = more ++ tags ∧ more.length = depth) ⟨[], rfl, rfl⟩ ?_ h
  rintro depth level taken event ⟨more, htaken, rfl⟩ hnest
  rw [List.foldl_append, htaken]
  cases event with
  | start tag =>
    obtain rfl := Option.some.inj hnest
    exact ⟨tag.kind :: more, rfl, rfl⟩
  | stop tag =>
    cases more with
    | nil => cases hnest
    | cons innermost more =>
      obtain rfl := Option.some.inj hnest
      exact ⟨more, rfl, rfl⟩
  | _ =>
    obtain rfl := Option.some.inj hnest
    exact ⟨more, rfl, rfl⟩

theorem InMetadata.openTags_eq (h : InMetadata before inner depth) :
    ∃ more, openTags (before ++ .start .metadata :: inner) = more ++ .metadata :: openTags before ∧
      more.length = depth := by
  obtain ⟨more, hmore, hlength⟩ := foldl_openAfter_of_nested (.metadata :: openTags before) h.nested
  exact ⟨more, List.foldl_append.trans hmore, hlength⟩

/-- Only a metadata tag opens metadata. -/
theorem notMem_openAfter {tags : List TagKind} (h : .metadata ∉ tags) {event : Event}
    (hevent : event ≠ .start .metadata) : .metadata ∉ event.openAfter tags := by
  cases event with
  | start tag =>
    intro hmem
    rcases List.mem_cons.mp hmem with hkind | hmem
    · cases tag with
      | metadata => exact hevent rfl
      | _ => cases hkind
    · exact h hmem
  | stop tag => exact fun hmem => h (List.mem_of_mem_tail hmem)
  | _ => exact h

/-- Only a stop may find no tag that it can stop, and does so when none is open. -/
theorem nest_eq_none_iff {event : Event} :
    event.nest? depth = none ↔ depth = 0 ∧ ∃ tag, event = .stop tag := by
  constructor
  · intro h
    cases event with
    | stop tag =>
      cases depth with
      | zero => exact ⟨rfl, tag, rfl⟩
      | succ outer => cases h
    | _ => cases h
  · rintro ⟨rfl, tag, rfl⟩
    rfl

/-- One more event is still in the metadata, if it does not stop the tag of that. -/
theorem InMetadata.concat (h : InMetadata before inner depth) {event : Event} {level : Nat}
    (hnest : event.nest? depth = some level) : InMetadata before (inner ++ [event]) level := by
  refine ⟨h.outside, ?_⟩
  rw [List.foldlM_append, h.nested]
  change [event].foldlM nest? depth = some level
  rw [List.foldlM_cons, hnest]
  rfl

end Event

namespace TreeBuilder

variable {before inner : List Event} {outside : TreeBuilder} {depth : Nat}

/-- **In metadata** a builder is what it was before, but for one skipped frame for the metadata and
one for each tag in it. -/
theorem foldl_inMetadata (before : List Event) (h : inner.foldlM nest? 0 = some depth) :
    (before ++ .start .metadata :: inner).foldl step {} =
      openSkipping^[depth + 1] (before.foldl step {}) := by
  have hopened : (before.foldl step {}).openSkipping.skipped ≠ 0 := Nat.succ_ne_zero _
  rw [List.foldl_append, List.foldl_cons, step_metadata, foldl_nested hopened h]
  exact (Function.iterate_succ_apply openSkipping depth _).symm

/-- One more event adds a skipped frame or takes one off, down to the builder from before. -/
theorem step_iterate_openSkipping (depth : Nat) (outside : TreeBuilder) (event : Event) :
    (openSkipping^[depth + 1] outside).step event =
      match event.nest? depth with
      | some level => openSkipping^[level + 1] outside
      | none => outside := by
  have hopened : outside.openSkipping.skipped ≠ 0 := Nat.succ_ne_zero _
  rw [Function.iterate_succ_apply]
  split
  · rename_i level hnest
    rw [step_skipping hopened hnest, Function.iterate_succ_apply]
  · rename_i hnest
    obtain ⟨rfl, tag, rfl⟩ := nest_eq_none_iff.mp hnest
    exact step_eq_pass hopened _

/-- So the builder goes on to skip unless it is told to stop the metadata. -/
theorem skipped_step_eq_zero_iff (h : outside.skipped = 0) (depth : Nat) (event : Event) :
    ((openSkipping^[depth + 1] outside).step event).skipped = 0 ↔
      depth = 0 ∧ ∃ tag, event = .stop tag := by
  rw [step_iterate_openSkipping, ← nest_eq_none_iff]
  split
  · rename_i level hnest
    rw [skipped_iterate, hnest]
    exact ⟨nofun, nofun⟩
  · rename_i hnest
    exact ⟨fun _ => hnest, fun _ => h⟩

/-- **A builder is outside of metadata, or it is in a block of it** that has started outside. -/
theorem outside_or_inMetadata (events : List Event) :
    (.metadata ∉ openTags events ∧ (events.foldl step {}).Outside) ∨
      ∃ before inner depth, events = before ++ .start .metadata :: inner ∧
        InMetadata before inner depth ∧ (before.foldl step {}).Outside := by
  induction events using List.reverseRecOn with
  | nil => exact .inl ⟨List.not_mem_nil, outside_empty⟩
  | append_singleton events event ih =>
    rcases ih with ⟨hnone, houtside⟩ | ⟨before, inner, depth, rfl, hin, houtside⟩
    · by_cases hevent : event = .start .metadata
      · subst hevent
        exact .inr ⟨events, [], 0, rfl, ⟨hnone, rfl⟩, houtside⟩
      · refine .inl ⟨?_, ?_⟩
        · rw [openTags_concat]
          exact notMem_openAfter hnone hevent
        · rw [List.foldl_append]
          exact houtside.step hevent
    · rw [List.append_assoc, List.cons_append]
      cases hnest : event.nest? depth with
      | some level => exact .inr ⟨before, inner ++ [event], level, rfl, hin.concat hnest, houtside⟩
      | none =>
        -- the event stops the metadata
        obtain ⟨rfl, tag, rfl⟩ := nest_eq_none_iff.mp hnest
        obtain ⟨more, hopen, hlength⟩ := hin.openTags_eq
        obtain rfl := List.length_eq_zero_iff.mp hlength
        rw [← List.cons_append, ← List.append_assoc]
        refine .inl ⟨?_, ?_⟩
        · rw [openTags_concat, hopen]
          exact hin.outside
        · rw [List.foldl_append, foldl_inMetadata before hin.nested]
          exact houtside

/-- Where no metadata is open, a builder is outside. -/
theorem outside_of_notMem {events : List Event} (h : .metadata ∉ openTags events) :
    (events.foldl step {}).Outside := by
  rcases outside_or_inMetadata events with ⟨-, houtside⟩ | ⟨before, inner, depth, rfl, hin, -⟩
  · exact houtside
  · obtain ⟨more, hopen, -⟩ := hin.openTags_eq
    refine absurd (hopen ▸ ?_) h
    exact List.mem_append_right more List.mem_cons_self

end TreeBuilder

open TreeBuilder

/-- **What is skipped is what is in metadata.**  After any events, and while the end closes the frames
that are left, the count is that of the skipped frames, these are on top of all others, one that is
closed has been counted, and while there are any no node that is being built is changed, and neither
is the cursor.  There are some exactly if the events have started metadata, outside of other
metadata, and have not stopped it: one for the metadata and one for each tag that is open in it.
The next event ends this exactly if it stops when no tag in the metadata is open, and then the
builder is what it was before the metadata started. -/
theorem skipping_of_events (events : List Event) :
    (∀ closed,
      let builder := close^[closed] (events.foldl step {})
      builder.skipped = Frame.skippedIn builder.frames ∧
      (∃ below, builder.frames = List.replicate builder.skipped .skipping ++ below ∧
        .skipping ∉ below) ∧
      (∀ outer, builder.frames = .skipping :: outer →
        builder.close.skipped + 1 = builder.skipped) ∧
      (builder.skipped ≠ 0 →
        (builder.close.nodes = builder.nodes ∧ builder.close.table = builder.table) ∧
        ∀ event, (builder.step event).nodes = builder.nodes ∧
          (builder.step event).table = builder.table)) ∧
    let builder := events.foldl step {}
    (builder.skipped ≠ 0 ↔ ∃ before inner depth,
      events = before ++ .start .metadata :: inner ∧ InMetadata before inner depth) ∧
    ∀ before inner depth,
      events = before ++ .start .metadata :: inner → InMetadata before inner depth →
        let outside := before.foldl step {}
        outside.skipped = 0 ∧ builder.skipped = depth + 1 ∧
        builder.frames = List.replicate (depth + 1) .skipping ++ outside.frames ∧
        builder.nodes = outside.nodes ∧ builder.table = outside.table ∧
        ∀ event,
          ((builder.step event).skipped = 0 ↔ depth = 0 ∧ ∃ tag, event = .stop tag) ∧
          ((builder.step event).skipped = 0 → builder.step event = outside) := by
  refine ⟨fun closed => ?_, ?_⟩
  · intro builder
    have htop : builder.SkipsOnTop := (skipsOnTop_foldl events).iterate_close closed
    exact ⟨htop.skipped_eq, htop.frames_eq, fun _ => htop.skipped_close, htop.frozen⟩
  intro builder
  have hblock : ∀ before inner depth,
      events = before ++ .start .metadata :: inner → InMetadata before inner depth →
        (before.foldl step {}).skipped = 0 ∧
          builder = openSkipping^[depth + 1] (before.foldl step {}) := by
    rintro before inner depth rfl hin
    exact ⟨(outside_of_notMem hin.outside).skipped, foldl_inMetadata before hin.nested⟩
  refine ⟨⟨fun hskipped => ?_, ?_⟩, fun before inner depth hevents hin => ?_⟩
  · rcases outside_or_inMetadata events with ⟨-, houtside⟩ | ⟨before, inner, depth, h, hin, -⟩
    · exact absurd houtside.skipped hskipped
    · exact ⟨before, inner, depth, h, hin⟩
  · rintro ⟨before, inner, depth, hevents, hin⟩
    rw [(hblock before inner depth hevents hin).2, skipped_iterate]
    omega
  · intro outside
    obtain ⟨hzero, hbuilder⟩ := hblock before inner depth hevents hin
    have hends := skipped_step_eq_zero_iff hzero depth
    rw [hbuilder]
    refine ⟨hzero, ?_, ?_, nodes_iterate_openSkipping .., ?_, fun event => ⟨hends event, ?_⟩⟩
    · rw [skipped_iterate, hzero, Nat.zero_add]
    · rw [iterate_openSkipping]
    · rw [iterate_openSkipping]
    · intro hstopped
      rw [step_iterate_openSkipping, nest_eq_none_iff.mpr ((hends event).mp hstopped)]

/-- Metadata in a row, with a cell and other metadata in it that stop under other names.  That a cell
stops there does not move the cursor, not even where it stops the metadata. -/
theorem skipping_of_events_row :
    let before : List Event := [.stop .list, .start (.table [.left, .right]), .start .tableRow]
    let inner : List Event :=
      [.start .tableCell, .text "a", .start .metadata, .stop .tableCell, .stop .emphasis]
    let builder := (before ++ .start .metadata :: inner).foldl step {}
    InMetadata before inner 0 ∧ builder.skipped ≠ 0 ∧
      (∃ outer, builder.frames = .skipping :: outer) ∧ builder.close.skipped + 1 = builder.skipped ∧
      (builder.step (.stop .tableCell)).table = builder.table ∧
      builder.step (.stop .tableCell) = before.foldl step {} := by
  intro before inner builder
  obtain ⟨hclosing, hskips, hblock⟩ := skipping_of_events (before ++ .start .metadata :: inner)
  have hin : InMetadata before inner 0 := ⟨by decide, rfl⟩
  have hskipped : builder.skipped ≠ 0 := hskips.mpr ⟨before, inner, 0, rfl, hin⟩
  obtain ⟨-, -, hcounted, hfrozen⟩ := hclosing 0
  obtain ⟨-, -, -, -, -, hnext⟩ := hblock before inner 0 rfl hin
  obtain ⟨hends, hbefore⟩ := hnext (.stop .tableCell)
  exact ⟨hin, hskipped, ⟨_, rfl⟩, hcounted _ rfl, ((hfrozen hskipped).2 _).2,
    hbefore (hends.mpr ⟨rfl, .tableCell, rfl⟩)⟩

end Rendition
