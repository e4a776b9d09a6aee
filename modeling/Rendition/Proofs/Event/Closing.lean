import Rendition.Proofs.Event.Composition
import Rendition.Proofs.Event.Text

/-!
# Frames that are open at the end

An event does one of three things to a builder: it opens a frame (`TreeBuilder.step_start`), it
closes one (`TreeBuilder.step_stop_eq`), or it lets the innermost node take shares
(`TreeBuilder.step_single`).  So there is a frame for each tag that has started and not stopped
(`TreeBuilder.length_frames`).

To close the frames that are left at the end is therefore to take the stops of these tags, from the
innermost to the outermost.  The cursor may then stand somewhere else, but nothing looks at it any
more (`TreeBuilder.foldl_completed`).
-/

namespace Rendition

namespace Event

/-- The tags that are open after events, innermost first. -/
def openTags (events : List Event) : List TagKind :=
  events.foldl openAfter []

/-- The events, and behind them the stops of the tags that they leave open. -/
def completed (events : List Event) : List Event :=
  events ++ (openTags events).map .stop

end Event

open Event

/-- The frame is as a tag opens it. -/
def Frame.Fresh : Frame → Prop
  | building node =>
    node.newest = [] ∧ ∃ tag align, Tag.role align tag = .node node.kind node.attrs
  | passing | skipping => True

namespace TreeBuilder

variable {builder : TreeBuilder}

/-! ## What an event does -/

/-- **A start opens a frame.** -/
theorem step_start (builder : TreeBuilder) (tag : Tag) :
    ∃ frame table, frame.Fresh ∧ builder.step (.start tag) =
      { builder with
        frames := frame :: builder.frames, table
        skipped := builder.skipped + Frame.skippedIn [frame] } := by
  by_cases hskipped : builder.skipped = 0
  · rw [step_eq_take hskipped, take, start_eq]
    cases hrole : tag.role builder.table.alignment with
    | node kind attrs =>
      exact ⟨.building { kind, attrs }, builder.table.enter tag, ⟨rfl, tag, _, hrole⟩, rfl⟩
    | spliced => exact ⟨.passing, builder.table, trivial, rfl⟩
    | dropped => exact ⟨.skipping, builder.table, trivial, rfl⟩
  · rw [step_eq_pass hskipped]
    exact ⟨.skipping, builder.table, trivial, rfl⟩

theorem close_withTable (table : TableCursor) (builder : TreeBuilder) :
    (builder.withTable table).close = builder.close.withTable table := by
  obtain ⟨root, frames, cursor, skipped⟩ := builder
  cases frames with
  | nil => rfl
  | cons frame outer =>
    cases frame with
    | building node =>
      exact (withTable_modifyCurrent (·.append node.close) table
        ⟨root, outer, cursor, skipped⟩).symm
    | passing | skipping => rfl

/-- **A stop closes a frame**, whatever it does to the cursor. -/
theorem step_stop_eq (builder : TreeBuilder) (tag : TagKind) :
    ∃ table, builder.step (.stop tag) = builder.close.withTable table := by
  by_cases hskipped : builder.skipped = 0
  · rw [step_eq_take hskipped, take, stop]
    split
    · exact ⟨_, close_withTable _ builder⟩
    · exact ⟨builder.close.table, rfl⟩
  · rw [step_eq_pass hskipped]
    exact ⟨builder.close.table, rfl⟩

/-- **Any other event gives shares to the innermost node**, unless it is skipped. -/
theorem step_single (builder : TreeBuilder) {event : Event} (alone : event.isSingle) :
    builder.step event = builder.modifyCurrent
      (OpenNode.takeAll (if builder.skipped = 0 then event.shares else [])) := by
  by_cases hskipped : builder.skipped = 0
  · rw [step_eq_take hskipped, if_pos hskipped, take_single builder alone]
  · rw [step_eq_pass hskipped, if_neg hskipped]
    cases event with
    | start | stop => cases alone
    | _ => exact (modifyCurrent_id builder).symm

/-! ## How many frames are open -/

theorem length_modifyInnermost {f : OpenNode → OpenNode} {frames changed : List Frame}
    (h : modifyInnermost? f frames = some changed) : changed.length = frames.length := by
  induction frames generalizing changed with
  | nil => cases h
  | cons frame outer ih =>
    cases frame with
    | building node =>
      cases h
      rfl
    | passing | skipping =>
      obtain ⟨inner, hinner, rfl⟩ := Option.map_eq_some_iff.mp h
      exact congrArg (· + 1) (ih hinner)

theorem length_modifyCurrent (f : OpenNode → OpenNode) (builder : TreeBuilder) :
    (builder.modifyCurrent f).frames.length = builder.frames.length := by
  unfold modifyCurrent
  split
  · exact length_modifyInnermost ‹_›
  · rfl

theorem length_close (builder : TreeBuilder) :
    builder.close.frames.length = builder.frames.length - 1 := by
  obtain ⟨root, frames, table, skipped⟩ := builder
  cases frames with
  | nil => rfl
  | cons frame outer =>
    cases frame with
    | building node => exact length_modifyCurrent _ _
    | passing | skipping => rfl

theorem length_step {openTags : List TagKind} (h : builder.frames.length = openTags.length)
    (event : Event) : (builder.step event).frames.length = (event.openAfter openTags).length := by
  cases event with
  | start tag =>
    obtain ⟨frame, table, -, hstep⟩ := step_start builder tag
    rw [hstep]
    exact congrArg (· + 1) h
  | stop tag =>
    obtain ⟨table, hstep⟩ := step_stop_eq builder tag
    rw [hstep, openAfter, List.length_tail, ← h]
    exact length_close builder
  | _ =>
    rw [step_single builder rfl]
    exact (length_modifyCurrent _ builder).trans h

/-- **There is a frame for each open tag.** -/
theorem length_frames (events : List Event) :
    (events.foldl step {}).frames.length = (openTags events).length := by
  suffices hrun : ∀ builder : TreeBuilder, ∀ tags : List TagKind,
      builder.frames.length = tags.length →
        (events.foldl step builder).frames.length = (events.foldl openAfter tags).length from
    hrun {} [] rfl
  induction events with
  | nil => exact fun _ _ h => h
  | cons event rest ih => exact fun builder tags h => ih _ _ (length_step h event)

/-! ## Closing the frames that are left -/

theorem closeAll_eq (builder : TreeBuilder) :
    builder.closeAll = close^[builder.frames.length] builder :=
  List.foldl_const close builder builder.frames

theorem length_iterate_close (count : Nat) (builder : TreeBuilder) :
    (close^[count] builder).frames.length = builder.frames.length - count := by
  induction count with
  | zero => rfl
  | succ count ih =>
    rw [Function.iterate_succ_apply', length_close, ih]
    omega

theorem closeAll_frames (builder : TreeBuilder) : builder.closeAll.frames = [] := by
  rw [← List.length_eq_zero_iff, closeAll_eq, length_iterate_close, Nat.sub_self]

theorem iterate_close_withTable (count : Nat) (table : TableCursor) (builder : TreeBuilder) :
    close^[count] (builder.withTable table) = (close^[count] builder).withTable table := by
  induction count generalizing builder with
  | zero => rfl
  | succ count ih =>
    rw [Function.iterate_succ_apply, Function.iterate_succ_apply, close_withTable, ih]

/-- As many stops as there are tags close as many frames. -/
theorem foldl_stops (tags : List TagKind) (builder : TreeBuilder) :
    ∃ table, (tags.map Event.stop).foldl step builder =
      (close^[tags.length] builder).withTable table := by
  induction tags generalizing builder with
  | nil => exact ⟨builder.table, rfl⟩
  | cons tag rest ih =>
    obtain ⟨moved, hstop⟩ := step_stop_eq builder tag
    obtain ⟨table, hrest⟩ := ih (builder.close.withTable moved)
    refine ⟨table, ?_⟩
    rw [List.map_cons, List.foldl_cons, hstop, hrest, iterate_close_withTable]
    rfl

/-- **The stops of the open tags close what the end would close.** -/
theorem foldl_completed (events : List Event) :
    ∃ table, (completed events).foldl step {} =
      (events.foldl step {}).closeAll.withTable table := by
  obtain ⟨table, hstops⟩ := foldl_stops (openTags events) (events.foldl step {})
  refine ⟨table, ?_⟩
  rw [completed, List.foldl_append, hstops, closeAll_eq, length_frames]

theorem frames_completed (events : List Event) :
    ((completed events).foldl step {}).frames = [] := by
  obtain ⟨table, hrun⟩ := foldl_completed events
  rw [hrun]
  exact closeAll_frames _

end TreeBuilder

open TreeBuilder

/-- The document is the root when the tags that are open at the end have been stopped. -/
theorem Node.ofEvents_eq_root (events : List Event) :
    Node.ofEvents events = ((completed events).foldl step {}).root.toNode := by
  obtain ⟨table, hrun⟩ := foldl_completed events
  rw [hrun]
  rfl

/-- **Events with the stops that they lack make the same document.** -/
theorem Node.ofEvents_completed (events : List Event) :
    Node.ofEvents (completed events) = Node.ofEvents events := by
  rw [ofEvents_eq_root events, ofEvents, finish, closeAll_eq, frames_completed]
  rfl

end Rendition
