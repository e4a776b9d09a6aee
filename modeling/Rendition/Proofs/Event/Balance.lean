import Rendition.Proofs.Event.Forest
import Mathlib.Logic.Function.Iterate

/-!
# Balanced events

Between the start and the stop of a tag there may be all sorts of events, if only their own
starts and stops are balanced (`Event.Balanced`); the names of the tags do not matter.  So are
the events of a forest (`EventTree.balanced_eventsAll`).

While balanced events are taken, the frames of tags that have started since are on top of the
others, and nothing is closed but these.  So in metadata a builder gets as many skipped frames as
there are tags open, and in the end it is as it was (`TreeBuilder.foldl_skipping`).
-/

namespace Rendition

namespace Event

/-- How many tags are open after an event, if so many were before it.  A tag that is not open
cannot stop. -/
def nest? (depth : Nat) : Event → Option Nat
  | start _ => some (depth + 1)
  | stop _ =>
    match depth with
    | 0 => none
    | outer + 1 => some outer
  | _ => some depth

/-- Every tag that starts in the events stops in them, and no other one does. -/
def Balanced (events : List Event) : Prop :=
  events.foldlM nest? 0 = some 0

instance (events : List Event) : Decidable (Balanced events) :=
  inferInstanceAs (Decidable (_ = _))

/-- **Induction over events** of which none stops a tag that is not open, from the first to the
last, with the number of tags that are open. -/
theorem nested_induction {P : Nat → List Event → Prop} (nil : P 0 [])
    (snoc : ∀ {depth level taken event}, P depth taken → nest? depth event = some level →
      P level (taken ++ [event]))
    {events : List Event} {depth : Nat} (h : events.foldlM nest? 0 = some depth) :
    P depth events := by
  suffices key : ∀ rest depth level taken, P depth taken →
      rest.foldlM nest? depth = some level → P level (taken ++ rest) from key events 0 depth [] nil h
  intro rest
  induction rest with
  | nil =>
    intro depth level taken htaken hlevel
    obtain rfl := Option.some.inj hlevel
    rwa [List.append_nil]
  | cons event rest ih =>
    intro depth level taken htaken hlevel
    rw [List.foldlM_cons] at hlevel
    obtain ⟨next, hnext, hrest⟩ := Option.bind_eq_some_iff.mp hlevel
    have hlater := ih next level (taken ++ [event]) (snoc htaken hnext) hrest
    rwa [List.append_assoc, List.singleton_append] at hlater

/-- The same for balanced events, after which no tag is open. -/
theorem Balanced.induction {P : Nat → List Event → Prop} (nil : P 0 [])
    (snoc : ∀ {depth level taken event}, P depth taken → nest? depth event = some level →
      P level (taken ++ [event]))
    {events : List Event} (h : Balanced events) : P 0 events :=
  nested_induction nil snoc h

end Event

open Event

namespace EventTree

mutual

/-- After a tree as many tags are open as before it. -/
theorem foldlM_events (tree : EventTree) (depth : Nat) :
    tree.events.foldlM nest? depth = some depth := by
  cases tree with
  | single event alone =>
    cases event with
    | start | stop => cases alone
    | _ => rfl
  | element tag inner =>
    change (eventsAll inner ++ [Event.stop tag.kind]).foldlM nest? (depth + 1) = some depth
    rw [List.foldlM_append, foldlM_eventsAll inner (depth + 1)]
    rfl

theorem foldlM_eventsAll (forest : List EventTree) (depth : Nat) :
    (eventsAll forest).foldlM nest? depth = some depth := by
  cases forest with
  | nil => rfl
  | cons tree rest =>
    rw [eventsAll, List.foldlM_append, foldlM_events tree depth]
    exact foldlM_eventsAll rest depth

end

theorem balanced_eventsAll (forest : List EventTree) : Balanced (eventsAll forest) :=
  foldlM_eventsAll forest 0

end EventTree

namespace TreeBuilder

variable {builder : TreeBuilder} {depth level : Nat}

theorem step_eq_take (h : builder.skipped = 0) (event : Event) :
    builder.step event = builder.take event :=
  if_pos h

theorem step_eq_pass (h : builder.skipped ≠ 0) (event : Event) :
    builder.step event = builder.pass event :=
  if_neg h

/-- Events enclosed in a tag come between its start and its stop. -/
theorem foldl_enclose (tag : Tag) (inner : List Event) (builder : TreeBuilder) :
    (tag.enclose inner).foldl step builder =
      (inner.foldl step (builder.step (.start tag))).step (.stop tag.kind) := by
  simp only [Tag.enclose, List.cons_append, List.foldl_cons, List.foldl_append, List.foldl_nil]

/-! ## Inside metadata -/

theorem iterate_openSkipping (depth : Nat) (builder : TreeBuilder) :
    openSkipping^[depth] builder =
      { builder with
        frames := List.replicate depth .skipping ++ builder.frames
        skipped := builder.skipped + depth } := by
  induction depth with
  | zero => rfl
  | succ depth ih =>
    rw [Function.iterate_succ_apply', ih]
    rfl

theorem skipped_iterate (depth : Nat) (builder : TreeBuilder) :
    (openSkipping^[depth] builder).skipped = builder.skipped + depth := by
  rw [iterate_openSkipping]

/-- A builder that skips gets a skipped frame for each tag that is open. -/
theorem step_skipping (h : builder.skipped ≠ 0) {event : Event}
    (hnest : event.nest? depth = some level) :
    (openSkipping^[depth] builder).step event = openSkipping^[level] builder := by
  have hskipped : (openSkipping^[depth] builder).skipped ≠ 0 := by
    rw [skipped_iterate]
    omega
  rw [step_eq_pass hskipped]
  cases event with
  | start tag =>
    obtain rfl := Option.some.inj hnest
    exact (Function.iterate_succ_apply' openSkipping depth builder).symm
  | stop tag =>
    cases depth with
    | zero => cases hnest
    | succ outer =>
      obtain rfl := Option.some.inj hnest
      rw [Function.iterate_succ_apply']
      rfl
  | _ =>
    obtain rfl := Option.some.inj hnest
    rfl

/-- **Events in metadata** leave as many skipped frames as they leave tags open. -/
theorem foldl_nested (h : builder.skipped ≠ 0) {events : List Event}
    (hnested : events.foldlM nest? 0 = some depth) :
    events.foldl step builder = openSkipping^[depth] builder := by
  refine nested_induction
    (P := fun depth taken => taken.foldl step builder = openSkipping^[depth] builder) rfl ?_ hnested
  intro depth level taken event htaken hnest
  rw [List.foldl_append, List.foldl_cons, List.foldl_nil, htaken, step_skipping h hnest]

/-- **Balanced events leave a builder that skips as it is.** -/
theorem foldl_skipping (h : builder.skipped ≠ 0) {events : List Event}
    (hbalanced : Balanced events) : events.foldl step builder = builder :=
  foldl_nested h hbalanced

/-- Metadata is skipped wherever it starts. -/
theorem step_metadata (builder : TreeBuilder) :
    builder.step (.start .metadata) = builder.openSkipping := by
  unfold step
  split <;> rfl

/-- So metadata leaves no trace. -/
theorem foldl_metadata (builder : TreeBuilder) {events : List Event}
    (hbalanced : Balanced events) :
    (Tag.metadata.enclose events).foldl step builder = builder := by
  have hskipped : builder.openSkipping.skipped ≠ 0 := Nat.succ_ne_zero _
  rw [foldl_enclose, step_metadata, foldl_skipping hskipped hbalanced, step_eq_pass hskipped]
  rfl

end TreeBuilder
end Rendition
