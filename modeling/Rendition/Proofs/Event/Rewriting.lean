import Rendition.Proofs.Event.Composition

/-!
# Events that may be rewritten

Some parts of a sequence of events can be taken out or replaced without any effect on the
document, whatever comes before and after them, and however many tags are open there: metadata,
the tags of raw markup and of footnotes, events that are not supported, and the cuts between
texts (`Node.ofEvents_rewrite`).

What the tags stand around has only to be balanced.  A passing frame then stays below the frames
of tags that start inside it, where it makes no difference (`TreeBuilder.Passing`).
-/

namespace Rendition

open Event

namespace OpenNode

/-- Two texts are added as one. -/
theorem addText_addText (first second : String) (node : OpenNode) :
    (node.addText first).addText second = node.addText (first ++ second) := by
  obtain ⟨kind, attrs, newest⟩ := node
  by_cases hcode : kind = .codeBlock
  · simp only [addText, hcode, ↓reduceIte, appendText, Option.getD_some, String.append_assoc]
  · by_cases hlast : ∀ last ∈ newest.head?, last.kind ≠ .text
    · rw [addText_behind_other hcode attrs hlast, addText_behind_other hcode attrs hlast,
        addText_behind_text hcode]
    · -- a run of text stands last, and both go on it
      rcases newest with _ | ⟨⟨last, lastAttrs, children⟩, older⟩
      · exact absurd (fun _ hnone => by cases hnone) hlast
      · obtain rfl : last = .text := by simpa [Node.kind] using hlast
        simp only [addText, hcode, ↓reduceIte, appendText, Option.getD_some, String.append_assoc]

end OpenNode

namespace TreeBuilder

variable {builder first second : TreeBuilder} {depth level : Nat}

/-! ## Passing frames -/

/-- The builders are the same but for a passing frame, which the first has below so many
others. -/
def Passing (depth : Nat) (first second : TreeBuilder) : Prop :=
  ∃ inner outer, inner.length = depth ∧ second.frames = inner ++ outer ∧
    first = { second with frames := inner ++ .passing :: outer }

/-- The innermost node is found across a passing frame. -/
theorem modifyInnermost?_passing (f : OpenNode → OpenNode) (inner outer : List Frame) :
    (modifyInnermost? f (inner ++ outer) = none ∧
      modifyInnermost? f (inner ++ .passing :: outer) = none) ∨
    ∃ inner' outer', inner'.length = inner.length ∧
      modifyInnermost? f (inner ++ outer) = some (inner' ++ outer') ∧
      modifyInnermost? f (inner ++ .passing :: outer) = some (inner' ++ .passing :: outer') := by
  induction inner with
  | nil =>
    cases houter : modifyInnermost? f outer with
    | none =>
      refine Or.inl ⟨houter, ?_⟩
      simp only [List.nil_append, modifyInnermost?, houter, Option.map_none]
    | some changed =>
      refine Or.inr ⟨[], changed, rfl, houter, ?_⟩
      simp only [List.nil_append, modifyInnermost?, houter, Option.map_some]
  | cons frame inner ih =>
    cases hframe : frame with
    | building node => exact Or.inr ⟨.building (f node) :: inner, outer, rfl, rfl, rfl⟩
    | passing | skipping =>
      simp only [List.cons_append, modifyInnermost?]
      rcases ih with ⟨hnone, hnone'⟩ | ⟨inner', outer', hlength, hsome, hsome'⟩
      · rw [hnone, hnone']
        exact Or.inl ⟨rfl, rfl⟩
      · rw [hsome, hsome']
        exact Or.inr ⟨frame :: inner', outer', congrArg (· + 1) hlength, hframe ▸ rfl, hframe ▸ rfl⟩

namespace Passing

theorem skipped (h : Passing depth first second) : first.skipped = second.skipped := by
  obtain ⟨_, _, -, -, rfl⟩ := h
  rfl

theorem table (h : Passing depth first second) : first.table = second.table := by
  obtain ⟨_, _, -, -, rfl⟩ := h
  rfl

theorem modifyCurrent (h : Passing depth first second) (f : OpenNode → OpenNode) :
    Passing depth (first.modifyCurrent f) (second.modifyCurrent f) := by
  obtain ⟨inner, outer, hdepth, hframes, rfl⟩ := h
  unfold TreeBuilder.modifyCurrent
  rcases modifyInnermost?_passing f inner outer with
    ⟨hnone, hnone'⟩ | ⟨inner', outer', hlength, hsome, hsome'⟩
  · simp only [hframes, hnone, hnone']
    exact ⟨inner, outer, hdepth, rfl, rfl⟩
  · simp only [hframes, hsome, hsome']
    exact ⟨inner', outer', hlength.trans hdepth, rfl, rfl⟩

/-- With the cursors moved alike. -/
theorem withTable (h : Passing depth first second) (table : TableCursor) :
    Passing depth (first.withTable table) (second.withTable table) := by
  obtain ⟨inner, outer, hdepth, hframes, rfl⟩ := h
  exact ⟨inner, outer, hdepth, hframes, rfl⟩

theorem openNode (h : Passing depth first second) (kind : NodeKind) (attrs : Attributes) :
    Passing (depth + 1) (first.openNode kind attrs) (second.openNode kind attrs) := by
  obtain ⟨inner, outer, hdepth, hframes, rfl⟩ := h
  exact ⟨.building { kind, attrs } :: inner, outer, congrArg (· + 1) hdepth,
    congrArg (List.cons _) hframes, rfl⟩

theorem openPassing (h : Passing depth first second) :
    Passing (depth + 1) first.openPassing second.openPassing := by
  obtain ⟨inner, outer, hdepth, hframes, rfl⟩ := h
  exact ⟨.passing :: inner, outer, congrArg (· + 1) hdepth, congrArg (List.cons _) hframes, rfl⟩

theorem openSkipping (h : Passing depth first second) :
    Passing (depth + 1) first.openSkipping second.openSkipping := by
  obtain ⟨inner, outer, hdepth, hframes, rfl⟩ := h
  exact ⟨.skipping :: inner, outer, congrArg (· + 1) hdepth, congrArg (List.cons _) hframes, rfl⟩

theorem start (h : Passing depth first second) (tag : Tag) :
    Passing (depth + 1) (first.start tag) (second.start tag) := by
  rw [start_eq, start_eq, h.table]
  split
  · exact (h.withTable _).openNode _ _
  · exact h.openPassing
  · exact h.openSkipping

/-- Frames inside the passing one are closed alike. -/
theorem close (h : Passing (depth + 1) first second) : Passing depth first.close second.close := by
  obtain ⟨_ | ⟨frame, inner⟩, outer, hdepth, hframes, rfl⟩ := h
  · cases hdepth
  · have hinner : inner.length = depth := Nat.succ.inj hdepth
    have hclosed : Passing depth
        { second with frames := inner ++ .passing :: outer }
        { second with frames := inner ++ outer } := ⟨inner, outer, hinner, rfl, rfl⟩
    unfold TreeBuilder.close
    rw [hframes]
    cases frame with
    | building node => exact hclosed.modifyCurrent _
    | passing => exact hclosed
    | skipping => exact ⟨inner, outer, hinner, rfl, rfl⟩

theorem stop (h : Passing (depth + 1) first second) (tag : TagKind) :
    Passing depth (first.stop tag) (second.stop tag) := by
  unfold TreeBuilder.stop
  split
  · have hmoved := h.withTable { first.table with cell := first.table.cell + 1 }
    rw [show second.nextCell = second.withTable { first.table with cell := first.table.cell + 1 }
      by rw [h.table]; rfl]
    exact hmoved.close
  · exact h.close

/-- An event keeps the passing frame below as many others as there are tags open. -/
theorem step (h : Passing depth first second) {event : Event}
    (hnest : event.nest? depth = some level) :
    Passing level (first.step event) (second.step event) := by
  unfold TreeBuilder.step
  rw [h.skipped]
  cases event with
  | start tag =>
    obtain rfl := Option.some.inj hnest
    split
    · exact h.start tag
    · exact h.openSkipping
  | stop tag =>
    cases depth with
    | zero => cases hnest
    | succ outer =>
      obtain rfl := Option.some.inj hnest
      split
      · exact h.stop tag
      · exact h.close
  | footnoteRef | inlineMath | displayMath =>
    obtain rfl := Option.some.inj hnest
    split <;> exact h
  | _ =>
    obtain rfl := Option.some.inj hnest
    split
    · exact h.modifyCurrent _
    · exact h

end Passing

/-- **Around balanced events a passing frame makes no difference.** -/
theorem foldl_passing (builder : TreeBuilder) {events : List Event}
    (hbalanced : Balanced events) :
    (events.foldl step builder.openPassing).close = events.foldl step builder := by
  have hpassing :
      Passing 0 (events.foldl step builder.openPassing) (events.foldl step builder) := by
    refine hbalanced.induction (P := fun depth taken =>
      Passing depth (taken.foldl step builder.openPassing) (taken.foldl step builder)) ?_ ?_
    · exact ⟨[], builder.frames, rfl, rfl, rfl⟩
    · intro depth level taken event htaken hnest
      simp only [List.foldl_append, List.foldl_cons, List.foldl_nil]
      exact htaken.step hnest
  obtain ⟨inner, outer, hdepth, hframes, hfirst⟩ := hpassing
  obtain rfl := List.length_eq_zero_iff.mp hdepth
  have houter : (events.foldl step builder).frames = outer := hframes
  rw [hfirst, ← houter]
  rfl

/-- To stop a tag other than a cell is to close a frame, inside metadata or not. -/
theorem step_stop {tag : TagKind} (htag : tag ≠ .tableCell) (builder : TreeBuilder) :
    builder.step (.stop tag) = builder.close := by
  unfold step
  split
  · simp only [take, stop, htag, ↓reduceIte]
  · rfl

/-- So the tags of raw markup and of footnotes leave no trace. -/
theorem foldl_spliced (builder : TreeBuilder) {events : List Event}
    (hbalanced : Balanced events) {tag : Tag} (hstart : builder.start tag = builder.openPassing)
    (hcell : tag.kind ≠ .tableCell) :
    (tag.enclose events).foldl step builder = events.foldl step builder := by
  rw [foldl_enclose, step_stop hcell]
  by_cases hskipped : builder.skipped = 0
  · rw [step_eq_take hskipped, take, hstart, foldl_passing builder hbalanced]
  · have hopened : builder.openSkipping.skipped ≠ 0 := Nat.succ_ne_zero _
    rw [step_eq_pass hskipped, pass, foldl_skipping hskipped hbalanced,
      foldl_skipping hopened hbalanced]
    rfl

/-! ## Single events -/

/-- Two texts are taken as one. -/
theorem step_text_text (builder : TreeBuilder) (first second : String) :
    (builder.step (.text first)).step (.text second) = builder.step (.text (first ++ second)) := by
  by_cases hskipped : builder.skipped = 0
  · rw [step_eq_take hskipped, step_eq_take hskipped]
    refine (take_of_modifyCurrent builder hskipped _ _).trans ?_
    refine (modifyCurrent_modifyCurrent _ _ builder).trans ?_
    refine congrArg (modifyCurrent · builder) (funext fun node => ?_)
    exact node.addText_addText first second
  · simp only [step_eq_pass hskipped, pass]

end TreeBuilder

open TreeBuilder

/-- Events that a builder takes alike wherever it is may stand for each other in a document. -/
theorem Node.ofEvents_congr (first second : List Event)
    (h : ∀ builder : TreeBuilder, first.foldl step builder = second.foldl step builder)
    (before after : List Event) :
    Node.ofEvents (before ++ first ++ after) = Node.ofEvents (before ++ second ++ after) := by
  unfold Node.ofEvents
  simp only [List.foldl_append, h]

/-- **What may be rewritten** between any events, which need not be balanced: metadata may be
left out, with all the balanced events in it; so may the tags of raw markup and of a footnote
around balanced events, which stay; so may an event that is not supported; and two texts may be
one. -/
theorem Node.ofEvents_rewrite (before after : List Event) :
    (∀ inner, Balanced inner →
      Node.ofEvents (before ++ Tag.metadata.enclose inner ++ after) =
        Node.ofEvents (before ++ after)) ∧
    (∀ inner label, Balanced inner → ∀ tag ∈ [Tag.htmlBlock, .footnote label],
      Node.ofEvents (before ++ tag.enclose inner ++ after) =
        Node.ofEvents (before ++ inner ++ after)) ∧
    (∀ content, ∀ event ∈ [Event.footnoteRef content, .inlineMath content, .displayMath content],
      Node.ofEvents (before ++ event :: after) = Node.ofEvents (before ++ after)) ∧
    ∀ first second,
      Node.ofEvents (before ++ .text first :: .text second :: after) =
        Node.ofEvents (before ++ .text (first ++ second) :: after) := by
  refine ⟨fun inner hbalanced => ?_, fun inner label hbalanced tag htag => ?_,
    fun content event hevent => ?_, fun first second => ?_⟩
  · have hmetadata := ofEvents_congr (Tag.metadata.enclose inner) []
      (fun builder => foldl_metadata builder hbalanced) before after
    rwa [List.append_nil] at hmetadata
  · refine ofEvents_congr (tag.enclose inner) inner (fun builder => ?_) before after
    simp only [List.mem_cons, List.not_mem_nil, or_false] at htag
    rcases htag with rfl | rfl
    · exact foldl_spliced builder hbalanced rfl nofun
    · exact foldl_spliced builder hbalanced rfl nofun
  · have hstep : ∀ builder : TreeBuilder, builder.step event = builder := by
      intro builder
      unfold step
      simp only [List.mem_cons, List.not_mem_nil, or_false] at hevent
      rcases hevent with rfl | rfl | rfl <;> exact ite_self builder
    have hdropped := ofEvents_congr [event] [] hstep before after
    rwa [List.append_nil, List.append_assoc] at hdropped
  · have hjoined := ofEvents_congr [.text first, .text second] [.text (first ++ second)]
      (fun builder => step_text_text builder first second) before after
    rwa [List.append_assoc, List.append_assoc] at hjoined

/-- In a row that has been started but not stopped, and in an image: tags that stop under other
names, a cell and metadata in metadata, and a cell in raw markup. -/
theorem Node.ofEvents_rewrite_row :
    let before : List Event :=
      [.start (.table [.left, .right]), .start .tableRow, .start (.image "i.png" "")]
    let inner : List Event :=
      [.text "a", .start .tableCell, .start .metadata, .text "b", .stop .emphasis, .stop .tableCell]
    let after : List Event := [.text "c", .stop .image, .stop .table, .text "d"]
    Balanced inner ∧
    Node.ofEvents (before ++ Tag.metadata.enclose inner ++ after) =
      Node.ofEvents (before ++ after) ∧
    Node.ofEvents (before ++ Tag.htmlBlock.enclose inner ++ after) =
      Node.ofEvents (before ++ inner ++ after) ∧
    Node.ofEvents (before ++ .footnoteRef "1" :: after) = Node.ofEvents (before ++ after) := by
  intro before inner after
  have hbalanced : Balanced inner := by decide
  obtain ⟨hmetadata, hspliced, hdropped, -⟩ := ofEvents_rewrite before after
  exact ⟨hbalanced, hmetadata inner hbalanced,
    hspliced inner "" hbalanced .htmlBlock List.mem_cons_self,
    hdropped "1" (.footnoteRef "1") List.mem_cons_self⟩

end Rendition
