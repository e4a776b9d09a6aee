import Rendition.Proofs.Render.Lifecycle

/-!
# The course of the machine

A moment has at most one next moment, so all that is reached from it lies on one line
(`Registry.Reaches.total`).  The line has an end, whatever the renderers are
(`Registry.terminates`): the program at hand runs to its end because `Registry.run` says
where that is, and then there is one thing less pending.

Along the line the phase moves on only.  In particular a render that is over stays over, so
there is one moment at most at which it is about to be ended (`Registry.ending_unique`).
-/

namespace Rendition

/-- Whether the render has come to its end. -/
def Phase.isOver : Phase → Bool
  | idle | descending => false
  | completed | aborted => true

theorem Context.isOver_conclude (outcome : Outcome) :
    (Context.conclude outcome).2.phase.isOver = true := by
  rcases Context.conclude_cases outcome with ⟨error, hend⟩ | ⟨root, -, -, -, hend⟩
  · rw [hend]
    rfl
  · rw [hend]
    rfl

namespace Moment

/-- The next step does not invoke a renderer: it is the same whatever renderers there are. -/
def InvokesNone (moment : Moment) : Prop :=
  ∀ first second : Registry, first.step moment = second.step moment

/-- There is no endless run of the machine from the moment on. -/
def Terminates (registry : Registry) (moment : Moment) : Prop :=
  Acc (fun later earlier => registry.step earlier = some later) moment

end Moment

open Context

namespace Registry

variable {registry : Registry} {first second third : Moment}

/-- Of two moments that are reached from one, the later is reached from the earlier. -/
theorem Reaches.total (h : registry.Reaches first second) (h' : registry.Reaches first third) :
    registry.Reaches second third ∨ registry.Reaches third second :=
  Relation.ReflTransGen.total_of_right_unique
    (fun _ _ _ hs hs' => Option.some.inj (hs.symm.trans hs')) h h'

/-! ## Termination -/

theorem terminates_final (h : registry.step first = none) : first.Terminates registry := by
  refine Acc.intro first fun later hlater => ?_
  cases h.symm.trans hlater

/-- If the machine ends later on, it ends. -/
theorem terminates_of_reaches (hr : registry.Reaches first second)
    (h : second.Terminates registry) : first.Terminates registry := by
  induction hr using Relation.ReflTransGen.head_induction_on with
  | refl => exact h
  | head hs _ ih =>
    refine Acc.intro _ fun later hlater => ?_
    obtain rfl := Option.some.inj (hs.symm.trans hlater)
    exact ih

/-- **The machine terminates**, from whatever moment on and with whatever renderers. -/
theorem terminates (registry : Registry) (moment : Moment) : moment.Terminates registry := by
  obtain ⟨program, pending, context⟩ := moment
  induction pending generalizing program context with
  | nil => exact terminates_of_reaches (reaches_run program context []) (terminates_final rfl)
  | cons entry pending ih =>
    have hend : registry.Reaches ⟨program, entry :: pending, context⟩ _ :=
      reaches_run program context (entry :: pending)
    cases entry with
    | scope | visit | render => exact terminates_of_reaches (hend.after rfl) (ih _ _)

/-! ## Where parts of programs end -/

/-- A program that goes on with what comes after it comes to that with its outcome. -/
theorem reaches_andThen (program : Program) (next : Except RenderError Unit → Program)
    (pending : List Pending) (context : Context) :
    let outcome := registry.run program context
    registry.Reaches ⟨program.andThen next, pending, context⟩
      ⟨next outcome.1, pending, outcome.2⟩ := by
  induction program generalizing context with
  | done result => exact .refl _
  | look _ ih => exact .before rfl (ih _ _)
  | notify _ _ ih => exact .before rfl (ih _)
  | edit _ _ ih => exact .before rfl (ih _ _)
  | within container body _ _ ih =>
    exact .trans (reaches_within container body _ pending context) (ih _ _)
  | child index node _ ih => exact .trans (reaches_child index node _ pending context) (ih _ _)
  | render document _ ih => exact .trans (reaches_render document _ pending context) (ih _ _)

/-- All that is pending above some point is ended, in the phase of the render that is in
progress, if no render is to be ended in the course of it. -/
theorem reaches_below {inner : List Pending} (hinner : ∀ entry ∈ inner, entry.isRender = false)
    (outer : List Pending) (program : Program) {context : Context}
    (hused : context.phase ≠ .idle) :
    ∃ result after, registry.Reaches ⟨program, inner ++ outer, context⟩
      ⟨.done result, outer, after⟩ ∧ after.phase = context.phase := by
  induction inner generalizing program context with
  | nil =>
    have hphase := (registry.run_steady program context).phase hused
    exact ⟨_, _, reaches_run program context outer, hphase⟩
  | cons entry inner ih =>
    obtain ⟨hentry, hrest⟩ := List.forall_mem_cons.mp hinner
    have hend : registry.Reaches ⟨program, entry :: inner ++ outer, context⟩ _ :=
      reaches_run program context (entry :: inner ++ outer)
    have hphase := (registry.run_steady program context).phase hused
    cases entry with
    | scope depth next =>
      have hsettled := (Steady.settle depth (registry.run program context)).phase (hphase ▸ hused)
      obtain ⟨result, after, hreaches, hafter⟩ := ih hrest _ (hsettled.trans hphase ▸ hused)
      exact ⟨result, after, (hend.after rfl).trans hreaches, hafter.trans (hsettled.trans hphase)⟩
    | visit next =>
      have hleft : (registry.run program context).2.leave.phase = context.phase := hphase
      obtain ⟨result, after, hreaches, hafter⟩ := ih hrest _ (hleft ▸ hused)
      exact ⟨result, after, (hend.after rfl).trans hreaches, hafter.trans hleft⟩
    | render => cases hentry

/-! ## Renders that are over -/

/-- A render that is over is not resumed. -/
theorem isOver_of_reaches (hr : registry.Reaches first second)
    (h : first.context.phase.isOver = true) : second.context.phase.isOver = true := by
  refine hr.keeps (P := fun moment => moment.context.phase.isOver = true) (fun hs h => ?_) h
  rcases step_cases hs with ⟨hordinary, -⟩ | ⟨_, _, -, hidle, -⟩ | ⟨result, _, -, -, hcontext⟩
  · rwa [hordinary.phase]
  · rw [hidle] at h
    cases h
  · rw [hcontext]
    exact isOver_conclude _

/-- A context that is in use never becomes idle again. -/
theorem used_of_reaches (hr : registry.Reaches first second)
    (h : first.context.phase ≠ .idle) : second.context.phase ≠ .idle := by
  refine hr.keeps (P := fun moment => moment.context.phase ≠ .idle)
    (fun {before after} hs h => ?_) h
  rcases step_cases hs with ⟨hordinary, -⟩ | ⟨_, _, -, hidle, -⟩ | ⟨result, _, -, -, hcontext⟩
  · rwa [hordinary.phase]
  · exact absurd hidle h
  · have hover := isOver_conclude (result, before.context)
    intro hidle
    rw [← hcontext, hidle] at hover
    cases hover

/-- Between two moments of one render there are moments of that render only. -/
theorem descending_between (hr : registry.Reaches first second)
    (hr' : registry.Reaches second third) (hused : first.context.phase ≠ .idle)
    (hthird : third.context.phase = .descending) : second.context.phase = .descending := by
  have hsecond := used_of_reaches hr hused
  have hover : second.context.phase.isOver = true → third.context.phase.isOver = true :=
    isOver_of_reaches hr'
  rw [hthird] at hover
  cases hphase : second.context.phase with
  | idle => exact absurd hphase hsecond
  | descending => rfl
  | completed | aborted => cases hover (hphase ▸ rfl)

/-- In the course of a render no other one is begun or ended. -/
theorem renders_of_reaches (hr : registry.Reaches first second)
    (hused : first.context.phase ≠ .idle) (hphase : second.context.phase = .descending) :
    second.pending.filter Pending.isRender = first.pending.filter Pending.isRender := by
  induction hr with
  | refl => rfl
  | @tail middle second hr hs ih =>
    have hmiddle := descending_between hr (.before hs (.refl _)) hused hphase
    rcases step_cases hs with ⟨-, hpending⟩ | ⟨_, _, -, hidle, -⟩ | ⟨result, _, -, -, hcontext⟩
    · exact hpending.trans (ih hmiddle)
    · rw [hmiddle] at hidle
      cases hidle
    · have hover := isOver_conclude (result, middle.context)
      rw [← hcontext, hphase] at hover
      cases hover

/-- In the course of the machine there is at most one moment at which the render in progress is
about to be ended. -/
theorem ending_unique {outer outer' : List Pending}
    {next next' : Except RenderError Rendered → Program} {result result' : Except RenderError Unit}
    {after after' : Context}
    (hr : registry.Reaches first ⟨.done result, .render next :: outer, after⟩)
    (hr' : registry.Reaches first ⟨.done result', .render next' :: outer', after'⟩)
    (hphase : after.phase = .descending) (hphase' : after'.phase = .descending) :
    (⟨.done result, .render next :: outer, after⟩ : Moment) =
      ⟨.done result', .render next' :: outer', after'⟩ := by
  -- whichever of the two came first, with the next step the render would be over
  have hlast : ∀ {result next outer after second},
      registry.Reaches ⟨.done result, .render next :: outer, after⟩ second →
      second.context.phase = .descending →
      ⟨.done result, .render next :: outer, after⟩ = second := by
    intro result next outer after second hlater hdescending
    rcases Relation.ReflTransGen.cases_head hlater with rfl | ⟨ended, hs, hafter⟩
    · rfl
    · obtain rfl := Option.some.inj hs
      have hover := isOver_of_reaches hafter (isOver_conclude (result, after))
      rw [hdescending] at hover
      cases hover
  rcases hr.total hr' with hlater | hlater
  · exact hlast hlater hphase'
  · exact (hlast hlater hphase).symm

end Registry
end Rendition
