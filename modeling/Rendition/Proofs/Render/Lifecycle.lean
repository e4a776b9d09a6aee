import Rendition.Proofs.Render.Machine
import Rendition.Renderer.Builtin

/-!
# The life of a context

A context is used for one render.  Whatever operations are carried out on it, from outside
or by renderers, and however they are nested:

* a finished root stands alone: while there is one nothing is open, and every edit of the
  stack is refused, so the root cannot be replaced;
* the phase goes from idle to descending and from there to completed or aborted, where it
  stays;
* a render on a context that is not idle changes nothing;
* a render on an idle context leaves no open container, no root and no trail behind;
* at most one render hands out a root.

These are facts about all moments of the machine (`Registry.step`).  Behind them is one
invariant, `Moment.Orderly`: besides the root standing alone, exactly one render is to be
ended while the context is descending, and none otherwise.
-/

namespace Rendition

/-- How a phase may give way to another. -/
inductive Phase.Follows : Phase → Phase → Prop where
  | same (phase : Phase) : Follows phase phase
  | begin : Follows .idle .descending
  | complete : Follows .descending .completed
  | abort : Follows .descending .aborted

/-- Nothing leads back to the idle phase. -/
theorem Phase.Follows.used {before after : Phase} (h : before.Follows after)
    (hbefore : before ≠ .idle) : after ≠ .idle := by
  cases h with
  | same => exact hbefore
  | begin | complete | abort => nofun

namespace Context

variable {context changed : Context}

/-- While there is a root, every edit is refused. -/
theorem edit_of_root (hroot : context.root.isSome) (hstack : context.stack = []) (change : Edit) :
    ∃ error, context.edit change = .error error := by
  cases change with
  | push container => exact ⟨_, by simp only [edit, hstack, hroot, ↓reduceIte]; rfl⟩
  | pop => exact ⟨_, by simp only [edit, hstack]; rfl⟩
  | leaf content => exact ⟨_, by simp only [edit, hstack]; rfl⟩

/-- While a container is open there is no root, if a root of the context stands alone. -/
theorem root_of_open (h : context.root.isSome → context.stack = []) (hopen : context.stack ≠ []) :
    context.root = none := by
  cases hroot : context.root with
  | none => rfl
  | some root => exact absurd (h (by rw [hroot]; rfl)) hopen

end Context

namespace Registry.Ordinary

variable {before after : Context}

theorem phase (h : Ordinary before after) : after.phase = before.phase := by
  cases h with
  | notify notice => cases notice <;> rfl
  | edit h => rw [Context.edit_frame h]
  | _ => rfl

/-- A root that stands alone goes on to do so. -/
theorem root_alone (h : Ordinary before after) (hbefore : before.root.isSome → before.stack = []) :
    after.root.isSome → after.stack = [] := by
  cases h with
  | stay => exact hbefore
  | notify notice => cases notice <;> exact hbefore
  | edit h =>
    -- an edit that is not refused finds no root, and only closing the last container makes one
    rcases Context.edit_cases h with
      ⟨container, -, hpush, rfl⟩ | ⟨innermost, outer, -, hstack, rfl⟩ |
      ⟨_, innermost, outer, -, hstack, rfl⟩
    · intro hroot
      have hnone := hpush (hbefore hroot)
      rw [hnone] at hroot
      cases hroot
    · cases outer with
      | nil => exact fun _ => rfl
      | cons parent outer =>
        intro hroot
        rw [hbefore hroot] at hstack
        cases hstack
    · intro hroot
      rw [hbefore hroot] at hstack
      cases hstack
  | truncate depth =>
    intro hroot
    have hnil := hbefore hroot
    simp only [Context.truncate, hnil, List.drop_nil]
  | enter step => exact hbefore
  | leave => exact hbefore

/-- A root that stands alone is not overwritten. -/
theorem root_kept (h : Ordinary before after) {root : Container} (hroot : before.root = some root)
    (hstack : before.stack = []) : after.root = some root := by
  cases h with
  | notify notice => cases notice <;> exact hroot
  | @edit change _ _ h =>
    obtain ⟨error, hrefused⟩ := Context.edit_of_root (by rw [hroot]; rfl) hstack change
    rw [hrefused] at h
    cases h
  | _ => exact hroot

end Registry.Ordinary

namespace Moment

variable {registry : Registry} {first second : Moment}

/-- How many renders are to be ended. -/
def renders (moment : Moment) : Nat :=
  (moment.pending.filter Pending.isRender).length

/-- The invariant of the machine. -/
structure Orderly (moment : Moment) : Prop where
  root_alone : moment.context.root.isSome → moment.context.stack = []
  renders : moment.renders = if moment.context.phase = .descending then 1 else 0

theorem orderly_fresh (program : Program) (options : RenderOptions) (signal : Option Bool) :
    Orderly ⟨program, [], { options, signal }⟩ :=
  ⟨nofun, rfl⟩

/-- A render that is to be ended is in progress. -/
theorem Orderly.descending {next : Except RenderError Rendered → Program}
    {pending : List Pending} (h : Orderly first)
    (hpending : first.pending = .render next :: pending) :
    first.context.phase = .descending ∧ (pending.filter Pending.isRender).length = 0 := by
  have hcount := h.renders
  rw [Moment.renders, hpending, List.filter_cons_of_pos rfl, List.length_cons] at hcount
  split at hcount
  · exact ⟨‹_›, by omega⟩
  · omega

theorem Orderly.step (hs : registry.step first = some second) (h : Orderly first) :
    Orderly second := by
  rcases Registry.step_cases hs with ⟨hordinary, hpending⟩ |
    ⟨document, next, -, hidle, hpending, hcontext⟩ | ⟨result, next, -, hpending, hcontext⟩
  · refine ⟨hordinary.root_alone h.root_alone, ?_⟩
    rw [Moment.renders, hpending, hordinary.phase]
    exact h.renders
  · have hcount := h.renders
    simp only [hidle, reduceCtorEq, ↓reduceIte] at hcount
    refine ⟨?_, ?_⟩
    · rw [hcontext]
      exact h.root_alone
    · rw [Moment.renders, hpending, hcontext, List.filter_cons_of_pos rfl, List.length_cons]
      exact congrArg (· + 1) hcount
  · -- either way the render that ends was the only one, and leaves the descending phase
    obtain ⟨-, hcount⟩ := h.descending hpending
    rcases Context.conclude_cases (result, first.context) with ⟨error, hend⟩ | ⟨root, -, -, -, hend⟩
    all_goals
      rw [hend] at hcontext
      refine ⟨fun hroot => ?_, ?_⟩
      · rw [hcontext] at hroot
        cases hroot
      · rw [Moment.renders, hcount, hcontext]
        rfl

theorem Orderly.reaches (hr : registry.Reaches first second) (h : Orderly first) :
    Orderly second :=
  hr.keeps (fun hs => Orderly.step hs) h

/-- What one step does to the phase. -/
theorem Orderly.phase_follows (h : Orderly first) (hs : registry.step first = some second) :
    first.context.phase.Follows second.context.phase := by
  rcases Registry.step_cases hs with ⟨hordinary, -⟩ |
    ⟨document, next, -, hidle, -, hcontext⟩ | ⟨result, next, -, hpending, hcontext⟩
  · rw [hordinary.phase]
    exact .same _
  · rw [hidle, hcontext]
    exact .begin
  · rw [(h.descending hpending).1, hcontext]
    rcases Context.conclude_cases (result, first.context) with ⟨error, hend⟩ | ⟨root, -, -, -, hend⟩
    · rw [hend]
      exact .abort
    · rw [hend]
      exact .complete

/-- What one step does to a finished root. -/
theorem Orderly.root_kept (h : Orderly first) {root : Container}
    (hroot : first.context.root = some root) (hs : registry.step first = some second) :
    second.context.root = some root ∨
      (second.context.root = none ∧ second.context.phase ∈ [.completed, .aborted]) := by
  rcases Registry.step_cases hs with ⟨hordinary, -⟩ |
    ⟨document, next, -, -, -, hcontext⟩ | ⟨result, next, -, -, hcontext⟩
  · exact Or.inl (hordinary.root_kept hroot (h.root_alone (by rw [hroot]; rfl)))
  · rw [hcontext]
    exact Or.inl hroot
  · rw [hcontext]
    rcases Context.conclude_cases (result, first.context) with ⟨error, hend⟩ | ⟨_, -, -, -, hend⟩
    · rw [hend]
      exact Or.inr ⟨rfl, by simp [Context.abort]⟩
    · rw [hend]
      exact Or.inr ⟨rfl, by simp⟩

/-- A context that is in use never becomes idle again. -/
theorem Orderly.used_of_reaches (h : Orderly first) (hr : registry.Reaches first second)
    (hused : first.context.phase ≠ .idle) : second.context.phase ≠ .idle := by
  have hsecond : Orderly second ∧ second.context.phase ≠ .idle :=
    hr.keeps (P := fun moment => Orderly moment ∧ moment.context.phase ≠ .idle)
      (fun hs hfirst => ⟨hfirst.1.step hs, (hfirst.1.phase_follows hs).used hfirst.2⟩) ⟨h, hused⟩
  exact hsecond.2

/-- A render is called for at this moment, and that is what it returns. -/
def Returns (registry : Registry) (moment : Moment) (result : Except RenderError Rendered) : Prop :=
  ∃ document next, moment.program = .render document next ∧
    (registry.render document moment.context).1 = result

/-- On a context in use no render hands out a root. -/
theorem Returns.idle {output : Rendered} (h : first.Returns registry (.ok output)) :
    first.context.phase = .idle := by
  obtain ⟨document, next, -, hok⟩ := h
  apply Classical.byContradiction
  intro hused
  have hrefused : registry.render document first.context = first.context.refuse := if_neg hused
  rw [hrefused] at hok
  cases hok

/-- A render that hands out a root has begun with the next step. -/
theorem Returns.begins {output : Rendered} (h : first.Returns registry (.ok output))
    (hs : registry.step first = some second) : second.context.phase = .descending := by
  have hidle := h.idle
  obtain ⟨document, next, hprogram, -⟩ := h
  obtain ⟨program, pending, context⟩ := first
  obtain rfl : program = .render document next := hprogram
  simp only [Registry.step] at hs
  rw [if_pos (show context.phase = .idle from hidle)] at hs
  obtain rfl := Option.some.inj hs
  rfl

/-- What the life of a context is like at a moment. -/
structure Lifecycle (registry : Registry) (moment : Moment) : Prop where
  /-- A finished root stands alone, and every edit is refused. -/
  root : moment.context.root.isSome → moment.context.stack = [] ∧
    ∀ change, ∃ error, moment.context.edit change = .error error
  /-- A finished root is not overwritten: it stays until the end of a render takes it away. -/
  kept : ∀ root next, moment.context.root = some root → registry.step moment = some next →
    next.context.root = some root ∨
      (next.context.root = none ∧ next.context.phase ∈ [.completed, .aborted])
  /-- The phase only moves on. -/
  phase : ∀ next, registry.step moment = some next →
    moment.context.phase.Follows next.context.phase
  /-- A render comes out as `Registry.render` says: on a context that is not idle in a
  violation that changes nothing, and otherwise with nothing left of it. -/
  render : ∀ document next, moment.program = .render document next →
    let outcome := registry.render document moment.context
    registry.Reaches moment ⟨next outcome.1, moment.pending, outcome.2⟩ ∧
    if moment.context.phase = .idle then
      outcome.2.stack = [] ∧ outcome.2.root = none ∧ outcome.2.trail = [] ∧
      match outcome.1 with
      | .ok _ => outcome.2.phase = .completed
      | .error _ => outcome.2.phase = .aborted
    else
      outcome = (.error (.invariantViolation (.reused moment.context.phase)
        moment.context.openNames), moment.context)
  /-- After a render that hands out a root there is no other one. -/
  once : ∀ output, moment.Returns registry (.ok output) →
    ∀ next later, registry.step moment = some next → registry.Reaches next later →
    ∀ another, ¬ later.Returns registry (.ok another)

end Moment

open Moment

/-- A render on an idle context leaves nothing behind. -/
theorem Context.renderWith_idle {context : Context} (h : context.phase = .idle)
    (visit : Node → Context → Outcome) (document : Node) :
    let outcome := context.renderWith visit document
    outcome.2.stack = [] ∧ outcome.2.root = none ∧ outcome.2.trail = [] ∧
    match outcome.1 with
    | .ok _ => outcome.2.phase = .completed
    | .error _ => outcome.2.phase = .aborted := by
  have houtcome : context.renderWith visit document =
      conclude (visit document (context.begin document)) := if_pos h
  simp only [houtcome]
  rcases conclude_cases (visit document (context.begin document)) with
    ⟨error, hend⟩ | ⟨root, -, hstack, -, hend⟩
  · rw [hend]
    exact ⟨rfl, rfl, rfl, rfl⟩
  · rw [hend]
    exact ⟨hstack, rfl, rfl, rfl⟩

/-- **The life of a context**, for any renderers and any operations on a fresh context: the
machine ends where the operations end, and all that it goes through is as it should be. -/
theorem lifecycle_of_fresh (registry : Registry) (options : RenderOptions)
    (signal : Option Bool) (program : Program) :
    let fresh : Context := { options, signal }
    registry.Reaches ⟨program, [], fresh⟩
      ⟨.done (registry.run program fresh).1, [], (registry.run program fresh).2⟩ ∧
    ∀ moment, registry.Reaches ⟨program, [], fresh⟩ moment → moment.Lifecycle registry := by
  refine ⟨Registry.reaches_run program _ [], fun moment hreaches => ?_⟩
  have horderly : moment.Orderly := (orderly_fresh program options signal).reaches hreaches
  constructor
  · intro hroot
    have hstack := horderly.root_alone hroot
    exact ⟨hstack, Context.edit_of_root hroot hstack⟩
  · exact fun root next hroot => horderly.root_kept hroot
  · exact fun next => horderly.phase_follows
  · rintro document next hprogram
    obtain ⟨program, pending, context⟩ := moment
    obtain rfl : program = .render document next := hprogram
    refine ⟨Registry.reaches_render document next pending context, ?_⟩
    split
    · exact Context.renderWith_idle ‹_› _ document
    · exact if_neg ‹_›
  · -- a render that succeeds needs an idle context, and after the first there is none
    intro output hreturns next later hstep hlater another hagain
    have hbegun : next.context.phase ≠ .idle := by
      rw [hreturns.begins hstep]
      nofun
    exact (horderly.step hstep).used_of_reaches hlater hbegun hagain.idle

/-- A paragraph is opened and closed from outside: now it is the root, and the render that
comes next is about to be called. -/
theorem lifecycle_of_fresh_paragraph :
    let render : Program := .render (.ofKind .document) fun result => .done (result.map fun _ => ())
    let program : Program := .edit (.push (.empty .paragraph)) fun _ => .edit .pop fun _ => render
    let moment : Moment := ⟨render, [], { root := some (.empty .paragraph) }⟩
    Registry.defaults.Reaches ⟨program, [], {}⟩ moment ∧ moment.Lifecycle Registry.defaults := by
  intro render program moment
  have hreaches : Registry.defaults.Reaches ⟨program, [], {}⟩ moment :=
    .before rfl (.before rfl (.refl moment))
  exact ⟨hreaches, (lifecycle_of_fresh Registry.defaults {} none program).2 moment hreaches⟩

end Rendition
