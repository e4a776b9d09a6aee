import Rendition.Proofs.Render.Descent
import Mathlib.Logic.Relation

/-!
# Renders step by step

`Program.run` says where a program ends.  What a context looks like on the way is read off
a machine that runs the same programs one operation at a time: a `Moment` is the program
at hand, what is pending once it has ended, and the context.  A scope, a visit and a
render each leave something pending and go on with a program of their own, so every state
of the context between two operations, however deep inside nested renderers, is the
context of some moment.

The machine ends where `Registry.run` says (`Registry.reaches_run`).
-/

namespace Rendition

/-- What is to be done once the program at hand has ended. -/
inductive Pending where
  /-- To end the scope that was opened with `depth` containers open. -/
  | scope (depth : Nat) (next : Except RenderError Unit → Program)
  /-- To step back up from a child node. -/
  | visit (next : Except RenderError Unit → Program)
  /-- To end a render. -/
  | render (next : Except RenderError Rendered → Program)

/-- Whether a render is to be ended. -/
def Pending.isRender : Pending → Bool
  | render _ => true
  | _ => false

/-- The state of the machine. -/
structure Moment where
  program : Program
  /-- What is pending, innermost first. -/
  pending : List Pending := []
  context : Context

namespace Registry

variable (registry : Registry)

/-- One operation.  There is none once the program has ended and nothing is pending. -/
def step : Moment → Option Moment
  | ⟨.done _, [], _⟩ => none
  | ⟨.done result, .scope depth next :: pending, context⟩ =>
    let outcome := Context.settle depth (result, context)
    some ⟨next outcome.1, pending, outcome.2⟩
  | ⟨.done result, .visit next :: pending, context⟩ => some ⟨next result, pending, context.leave⟩
  | ⟨.done result, .render next :: pending, context⟩ =>
    let outcome := Context.conclude (result, context)
    some ⟨next outcome.1, pending, outcome.2⟩
  | ⟨.look next, pending, context⟩ => some ⟨next context.view, pending, context⟩
  | ⟨.notify notice next, pending, context⟩ => some ⟨next, pending, context.notify notice⟩
  | ⟨.edit change next, pending, context⟩ =>
    let outcome := context.attempt change
    some ⟨next outcome.1, pending, outcome.2⟩
  | ⟨.within container body next, pending, context⟩ =>
    match context.edit (.push container) with
    | .error error => some ⟨next (.error error), pending, context⟩
    | .ok opened => some ⟨body, .scope context.depth next :: pending, opened⟩
  | ⟨.child index node next, pending, context⟩ =>
    let entered := context.enter ⟨node.kind, index⟩
    if entered.isCancelled then
      some ⟨.done (.error (.cancelled entered.path)), .visit next :: pending, entered⟩
    else
      some ⟨registry.dispatch node entered, .visit next :: pending, entered⟩
  | ⟨.render document next, pending, context⟩ =>
    if context.phase = .idle then
      let begun := context.begin document
      some ⟨registry.dispatch document begun, .render next :: pending, begun⟩
    else
      some ⟨next context.refuse.1, pending, context⟩

/-- The second moment comes after the first, or is the same. -/
def Reaches : Moment → Moment → Prop :=
  Relation.ReflTransGen fun first second => registry.step first = some second

variable {registry} {first second third : Moment}

theorem Reaches.refl (moment : Moment) : registry.Reaches moment moment :=
  Relation.ReflTransGen.refl

theorem Reaches.trans (h : registry.Reaches first second) (h' : registry.Reaches second third) :
    registry.Reaches first third :=
  Relation.ReflTransGen.trans h h'

theorem Reaches.after (h : registry.Reaches first second) (h' : registry.step second = some third) :
    registry.Reaches first third :=
  Relation.ReflTransGen.tail h h'

theorem Reaches.before (h : registry.step first = some second)
    (h' : registry.Reaches second third) : registry.Reaches first third :=
  Relation.ReflTransGen.head h h'

/-- What every step keeps holds of all that is reached. -/
theorem Reaches.keeps {P : Moment → Prop}
    (hstep : ∀ {first second : Moment}, registry.step first = some second → P first → P second)
    (h : registry.Reaches first second) (hfirst : P first) : P second := by
  induction h with
  | refl => exact hfirst
  | tail _ h ih => exact hstep h ih

/-- All that is reached from a moment is the moment itself and what is reached from the next. -/
theorem Reaches.forall_of_step {P : Moment → Prop} (hfirst : P first)
    (hs : registry.step first = some second)
    (hlater : ∀ moment, registry.Reaches second moment → P moment) :
    ∀ moment, registry.Reaches first moment → P moment := by
  intro moment hr
  rcases Relation.ReflTransGen.cases_head hr with rfl | ⟨next, hnext, hr⟩
  · exact hfirst
  · obtain rfl := Option.some.inj (hs.symm.trans hnext)
    exact hlater moment hr

/-- Nothing is reached from the end of the machine but the end. -/
theorem Reaches.forall_of_final {P : Moment → Prop} (hfirst : P first)
    (hs : registry.step first = none) : ∀ moment, registry.Reaches first moment → P moment := by
  intro moment hr
  rcases Relation.ReflTransGen.cases_head hr with rfl | ⟨next, hnext, -⟩
  · exact hfirst
  · cases hs.symm.trans hnext

/-! ## What a step does to the context -/

/-- How a context changes from one operation to the next, apart from the beginning and the
end of a render. -/
inductive Ordinary : Context → Context → Prop where
  | stay (context : Context) : Ordinary context context
  | notify (notice : Notice) (context : Context) : Ordinary context (context.notify notice)
  | edit {change : Edit} {context changed : Context} (h : context.edit change = .ok changed) :
      Ordinary context changed
  | truncate (depth : Nat) (context : Context) : Ordinary context (context.truncate depth)
  | enter (step : PathStep) (context : Context) : Ordinary context (context.enter step)
  | leave (context : Context) : Ordinary context context.leave

theorem Ordinary.attempt (change : Edit) (context : Context) :
    Ordinary context (context.attempt change).2 := by
  unfold Context.attempt
  split
  · exact .edit ‹_›
  · exact .stay context

theorem Ordinary.settle (depth : Nat) (outcome : Outcome) :
    Ordinary outcome.2 (Context.settle depth outcome).2 := by
  obtain ⟨_ | _, after⟩ := outcome
  · exact .truncate depth after
  · by_cases h : after.depth = depth + 1
    · simpa [Context.settle, h] using Ordinary.attempt .pop after
    · simpa [Context.settle, h] using Ordinary.truncate depth after

/-- **What a step can do.**  It changes the context in an ordinary way and leaves the
renders that are to be ended as they are, or it begins a render, or it ends one. -/
theorem step_cases (h : registry.step first = some second) :
    (Ordinary first.context second.context ∧
      second.pending.filter Pending.isRender = first.pending.filter Pending.isRender) ∨
    (∃ document next, first.program = .render document next ∧ first.context.phase = .idle ∧
      second.pending = .render next :: first.pending ∧
      second.context = first.context.begin document) ∨
    (∃ result next, first.program = .done result ∧ first.pending = .render next :: second.pending ∧
      second.context = (Context.conclude (result, first.context)).2) := by
  obtain ⟨program, pending, context⟩ := first
  cases program with
  | done result =>
    rcases pending with _ | ⟨_ | _ | _, pending⟩
    · cases h
    · obtain rfl := Option.some.inj h
      exact Or.inl ⟨.settle _ (result, context), by simp [Pending.isRender]⟩
    · obtain rfl := Option.some.inj h
      exact Or.inl ⟨.leave context, by simp [Pending.isRender]⟩
    · obtain rfl := Option.some.inj h
      exact Or.inr (Or.inr ⟨result, _, rfl, rfl, rfl⟩)
  | look next =>
    obtain rfl := Option.some.inj h
    exact Or.inl ⟨.stay context, rfl⟩
  | notify notice next =>
    obtain rfl := Option.some.inj h
    exact Or.inl ⟨.notify notice context, rfl⟩
  | edit change next =>
    obtain rfl := Option.some.inj h
    exact Or.inl ⟨.attempt change context, rfl⟩
  | within container body next =>
    simp only [step] at h
    split at h
    · obtain rfl := Option.some.inj h
      exact Or.inl ⟨.stay context, rfl⟩
    · obtain rfl := Option.some.inj h
      exact Or.inl ⟨.edit ‹_›, by simp [Pending.isRender]⟩
  | child index node next =>
    simp only [step] at h
    split at h
    · obtain rfl := Option.some.inj h
      exact Or.inl ⟨.enter _ context, by simp [Pending.isRender]⟩
    · obtain rfl := Option.some.inj h
      exact Or.inl ⟨.enter _ context, by simp [Pending.isRender]⟩
  | render document next =>
    simp only [step] at h
    split at h
    · obtain rfl := Option.some.inj h
      exact Or.inr (Or.inl ⟨document, next, rfl, ‹_›, rfl, rfl⟩)
    · obtain rfl := Option.some.inj h
      exact Or.inl ⟨.stay context, rfl⟩

/-! ## Where the machine ends -/

/-- A render comes out as `Registry.render` says if the program of its document does. -/
theorem reaches_render_of {document : Node} {context : Context}
    (hnode : context.phase = .idle → ∀ pending,
      let begun := context.begin document
      let outcome := registry.run (registry.dispatch document begun) begun
      registry.Reaches ⟨registry.dispatch document begun, pending, begun⟩
        ⟨.done outcome.1, pending, outcome.2⟩)
    (next : Except RenderError Rendered → Program) (pending : List Pending) :
    registry.Reaches ⟨.render document next, pending, context⟩
      ⟨next (registry.render document context).1, pending,
        (registry.render document context).2⟩ := by
  by_cases hidle : context.phase = .idle
  · have hrender : registry.render document context = Context.conclude
        (registry.run (registry.dispatch document (context.begin document))
          (context.begin document)) := by
      rw [← dispatcher_visit, render_of_idle registry document hidle]
    rw [hrender]
    refine .before (by simp only [step, hidle, ↓reduceIte]; rfl) ?_
    exact (hnode hidle (.render next :: pending)).after rfl
  · have hrender : registry.render document context = context.refuse := if_neg hidle
    rw [hrender]
    exact .before (by simp only [step, hidle, ↓reduceIte]; rfl) (.refl _)

/-- A scope comes out as `Context.within` says if its body does. -/
theorem reaches_within_of {container : Container} {body : Program} {context : Context}
    (hbody : ∀ opened, context.edit (.push container) = .ok opened → ∀ pending,
      registry.Reaches ⟨body, pending, opened⟩
        ⟨.done (registry.run body opened).1, pending, (registry.run body opened).2⟩)
    (next : Except RenderError Unit → Program) (pending : List Pending) :
    let outcome := context.within container (registry.run body)
    registry.Reaches ⟨.within container body next, pending, context⟩
      ⟨next outcome.1, pending, outcome.2⟩ := by
  unfold Context.within
  split
  · rename_i error hopen
    exact .before (by simp only [step, hopen]) (.refl _)
  · -- the scope is pending while the body runs, and ends once it is done
    rename_i opened hopen
    refine .before (by simp only [step, hopen]; rfl) ?_
    exact (hbody opened hopen (.scope context.depth next :: pending)).after rfl

/-- A visit of a child comes out as `Context.visitChild` says if the program of its node
does. -/
theorem reaches_child_of {index : Nat} {node : Node} {context : Context}
    (hnode : ∀ pending,
      let entered := context.enter ⟨node.kind, index⟩
      let outcome := registry.run (registry.dispatch node entered) entered
      registry.Reaches ⟨registry.dispatch node entered, pending, entered⟩
        ⟨.done outcome.1, pending, outcome.2⟩)
    (next : Except RenderError Unit → Program) (pending : List Pending) :
    let outcome := context.visitChild registry.dispatcher.visit index node
    registry.Reaches ⟨.child index node next, pending, context⟩
      ⟨next outcome.1, pending, outcome.2⟩ := by
  cases hc : context.isCancelled with
  | true =>
    rw [Context.visitChild_of_cancelled hc]
    refine .before (by simp only [step, Context.isCancelled_enter, hc, ↓reduceIte]; rfl) ?_
    exact .before rfl (.refl _)
  | false =>
    rw [Context.visitChild_of_not_cancelled hc, dispatcher_visit]
    refine .before (by simp only [step, Context.isCancelled_enter, hc]; rfl) ?_
    exact (hnode (.visit next :: pending)).after rfl

/-- **The machine ends a program as `Registry.run` says**, whatever is pending then. -/
theorem reaches_run (program : Program) (context : Context) (pending : List Pending) :
    registry.Reaches ⟨program, pending, context⟩
      ⟨.done (registry.run program context).1, pending, (registry.run program context).2⟩ := by
  induction program, context using Program.call_induction registry generalizing pending with
  | done result context => exact .refl _
  | look next context ih => exact .before rfl (ih pending)
  | notify notice next context ih => exact .before rfl (ih pending)
  | edit change next context ih => exact .before rfl (ih pending)
  | within container body next context ihBody ih =>
    exact .trans (reaches_within_of ihBody next pending) (ih pending)
  | child index node next context ihNode ih =>
    exact .trans (reaches_child_of ihNode next pending) (ih pending)
  | render document next context ihNode ih =>
    exact .trans (reaches_render_of ihNode next pending) (ih pending)

theorem reaches_within (container : Container) (body : Program)
    (next : Except RenderError Unit → Program) (pending : List Pending) (context : Context) :
    let outcome := context.within container (registry.run body)
    registry.Reaches ⟨.within container body next, pending, context⟩
      ⟨next outcome.1, pending, outcome.2⟩ :=
  reaches_within_of (fun opened _ pending => reaches_run body opened pending) next pending

theorem reaches_child (index : Nat) (node : Node) (next : Except RenderError Unit → Program)
    (pending : List Pending) (context : Context) :
    let outcome := context.visitChild registry.dispatcher.visit index node
    registry.Reaches ⟨.child index node next, pending, context⟩
      ⟨next outcome.1, pending, outcome.2⟩ :=
  reaches_child_of (fun pending => reaches_run _ _ pending) next pending

/-- The machine comes out of a render with the outcome that `Registry.render` has. -/
theorem reaches_render (document : Node) (next : Except RenderError Rendered → Program)
    (pending : List Pending) (context : Context) :
    registry.Reaches ⟨.render document next, pending, context⟩
      ⟨next (registry.render document context).1, pending,
        (registry.render document context).2⟩ :=
  reaches_render_of (fun _ pending => reaches_run _ _ pending) next pending

end Registry
end Rendition
