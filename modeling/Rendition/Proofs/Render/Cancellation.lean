import Rendition.Proofs.Render.Course
import Rendition.Proofs.Render.Retune
import Rendition.Proofs.Renderer.Propagation

/-!
# Renders that are called off

A signal that is attached to a context may be raised at any moment of a render: by somebody
else, or by a renderer (`Moment.raise`).  It is looked at only before a child is visited.  So

* once it is raised, no renderer is invoked any more, and every child that is to be rendered
  is an error at its path, whatever renderers do with it (`Moment.CalledOff`);
* if renderers pass errors on, such an error is what the render ends with;
* if no child is to be rendered any more, the render ends as if there were no signal, and so
  does a render in which the signal is never raised.

The first is an invariant: a raised signal stays raised (`Registry.isCancelled_of_reaches`).
For the others the run is compared with that of a context to which no signal is attached
(`Context.detach`).  The two proceed in step up to the first child that is called off
(`Moment.step_detach`), and both come to the end of their render once
(`Registry.ending_unique`).
-/

namespace Rendition

namespace Context

/-- The same context without a signal. -/
def detach (context : Context) : Context :=
  context.retune id fun _ => none

theorem notify_detach (notice : Notice) (context : Context) :
    context.detach.notify notice = (context.notify notice).detach := by
  cases notice <;> rfl

theorem aside_detach : Aside detach :=
  aside_retune id _

theorem conclude_detach (outcome : Outcome) :
    conclude (outcome.1, outcome.2.detach) =
      ((conclude outcome).1, (conclude outcome).2.detach) :=
  conclude_retune id _ outcome

theorem signal_conclude (outcome : Outcome) : (conclude outcome).2.signal = outcome.2.signal := by
  rcases conclude_cases outcome with ⟨error, hend⟩ | ⟨root, -, -, -, hend⟩
  · rw [hend]
    rfl
  · rw [hend]

theorem isCancelled_iff {context : Context} :
    context.isCancelled = true ↔ context.signal = some true := by
  unfold isCancelled
  rcases context.signal with _ | _ | _ <;> simp

theorem signal_of_not_isCancelled {context : Context} (hattached : context.signal.isSome)
    (h : context.isCancelled = false) : context.signal = some false := by
  obtain ⟨signal, hsome⟩ := Option.isSome_iff_exists.mp hattached
  rw [isCancelled, hsome] at h
  rw [hsome, show signal = false from h]

end Context

open Context

namespace Moment

/-- The same moment, but that the signal is raised if one is attached. -/
def raise (moment : Moment) : Moment :=
  { moment with context := moment.context.notify .cancel }

/-- The same moment without a signal. -/
def detach (moment : Moment) : Moment :=
  { moment with context := moment.context.detach }

theorem detach_raise (moment : Moment) : moment.raise.detach = moment.detach := rfl

theorem isCancelled_raise {moment : Moment} (h : moment.context.signal.isSome) :
    moment.raise.context.isCancelled = true := by
  obtain ⟨signal, hsome⟩ := Option.isSome_iff_exists.mp h
  rw [isCancelled_iff]
  show moment.context.signal.map _ = some true
  rw [hsome]
  rfl

theorem used_of_descending {moment : Moment} (h : moment.context.phase = .descending) :
    moment.context.phase ≠ .idle := by
  rw [h]
  nofun

/-- The next step is to render a child. -/
def Attempts (moment : Moment) : Prop :=
  ∃ index node next, moment.program = .child index node next

variable {registry : Registry} {first second : Moment}

/-- **Without the signal the machine proceeds in step**, until a child is called off. -/
theorem step_detach (hs : registry.step first = some second)
    (h : first.context.isCancelled = true → ¬ first.Attempts) :
    registry.step first.detach = some second.detach := by
  obtain ⟨program, pending, context⟩ := first
  cases program with
  | done result =>
    rcases pending with _ | ⟨_ | _ | _, pending⟩
    · cases hs
    · obtain rfl := Option.some.inj hs
      simp only [detach, Registry.step]
      rw [aside_detach.settle _ (result, context)]
    · obtain rfl := Option.some.inj hs
      rfl
    · obtain rfl := Option.some.inj hs
      simp only [detach, Registry.step]
      rw [conclude_detach (result, context)]
  | look next =>
    obtain rfl := Option.some.inj hs
    rfl
  | notify notice next =>
    obtain rfl := Option.some.inj hs
    simp only [detach, Registry.step, notify_detach]
  | edit change next =>
    obtain rfl := Option.some.inj hs
    simp only [detach, Registry.step, aside_detach.attempt]
  | within container body next =>
    simp only [detach, Registry.step, aside_detach.edit] at hs ⊢
    split at hs
    · rename_i error hrefused
      obtain rfl := Option.some.inj hs
      simp only [hrefused]
      rfl
    · rename_i opened hopen
      obtain rfl := Option.some.inj hs
      simp only [hopen]
      rfl
  | child index node next =>
    have hlive : context.isCancelled = false := by
      cases hc : context.isCancelled with
      | false => rfl
      | true => exact absurd ⟨index, node, next, rfl⟩ (h hc)
    simp only [Registry.step, isCancelled_enter, hlive, Bool.false_eq_true, ↓reduceIte] at hs
    obtain rfl := Option.some.inj hs
    rfl
  | render document next =>
    simp only [Registry.step] at hs
    split at hs
    · rename_i hidle
      obtain rfl := Option.some.inj hs
      exact if_pos hidle
    · rename_i hused
      obtain rfl := Option.some.inj hs
      exact if_neg hused

theorem reaches_detach (hr : registry.Reaches first second)
    (h : ∀ moment, registry.Reaches first moment → registry.Reaches moment second →
      moment.context.isCancelled = true → ¬ moment.Attempts) :
    registry.Reaches first.detach second.detach := by
  induction hr using Relation.ReflTransGen.head_induction_on with
  | refl => exact .refl _
  | head hs hlater ih =>
    refine .before (step_detach hs (h _ (.refl _) (.before hs hlater))) (ih fun moment hr hr' => ?_)
    exact h moment (.before hs hr) hr'

/-! ## The signal in the course of the machine -/

end Moment

namespace Registry

theorem Ordinary.signal {before after : Context} (h : Ordinary before after) :
    after.signal = before.signal ∨ after.signal = before.signal.map fun _ => true := by
  cases h with
  | notify notice =>
    cases notice with
    | warn | journal => exact Or.inl rfl
    | cancel => exact Or.inr rfl
  | edit h =>
    rw [edit_frame h]
    exact Or.inl rfl
  | _ => exact Or.inl rfl

variable {registry : Registry} {first second : Moment}

/-- A step leaves the signal as it is, or raises it. -/
theorem step_signal (hs : registry.step first = some second) :
    second.context.signal = first.context.signal ∨
      second.context.signal = first.context.signal.map fun _ => true := by
  rcases step_cases hs with ⟨hordinary, -⟩ | ⟨document, _, -, -, -, hcontext⟩ |
    ⟨result, _, -, -, hcontext⟩
  · exact hordinary.signal
  · rw [hcontext]
    exact Or.inl rfl
  · rw [hcontext]
    exact Or.inl (signal_conclude _)

/-- A signal that is attached stays attached. -/
theorem isSome_signal_of_reaches (hr : registry.Reaches first second)
    (h : first.context.signal.isSome) : second.context.signal.isSome := by
  refine hr.keeps (P := fun moment => moment.context.signal.isSome = true) (fun hs h => ?_) h
  rcases step_signal hs with hsignal | hsignal <;> rw [hsignal]
  · exact h
  · rwa [Option.isSome_map]

/-- **A signal that is raised stays raised.** -/
theorem isCancelled_of_reaches (hr : registry.Reaches first second)
    (h : first.context.isCancelled = true) : second.context.isCancelled = true := by
  refine hr.keeps (P := fun moment => moment.context.isCancelled = true) (fun hs h => ?_) h
  rw [isCancelled_iff] at h ⊢
  rcases step_signal hs with hsignal | hsignal <;> rw [hsignal, h]
  rfl

end Registry

namespace Moment

/-- What a render that has been called off is like at a moment. -/
structure CalledOff (registry : Registry) (moment : Moment) : Prop where
  /-- No renderer is invoked. -/
  invokes : moment.InvokesNone
  /-- A child that is to be rendered is an error at its path, and nothing has changed by it. -/
  child : ∀ index node next, moment.program = .child index node next →
    registry.Reaches moment
      ⟨next (.error (.cancelled (moment.context.path ++ [⟨node.kind, index⟩]))), moment.pending,
        moment.context⟩

variable {registry : Registry} {first second : Moment}

theorem calledOff (hused : first.context.phase ≠ .idle)
    (hcancelled : first.context.isCancelled = true) : first.CalledOff registry := by
  obtain ⟨program, pending, context⟩ := first
  constructor
  · intro registry' registry''
    cases program with
    | done result => rcases pending with _ | ⟨_ | _ | _, pending⟩ <;> rfl
    | look | notify | edit | within => rfl
    | child index node next =>
      have hentered : (context.enter ⟨node.kind, index⟩).isCancelled = true := hcancelled
      simp only [Registry.step, hentered, ↓reduceIte]
    | render document next =>
      simp only [Registry.step]
      rw [if_neg hused, if_neg hused]
  · rintro index node next rfl
    have hreaches := registry.reaches_child index node next pending context
    rw [visitChild_of_cancelled hcancelled] at hreaches
    have hpath : (context.enter ⟨node.kind, index⟩).path = context.path ++ [⟨node.kind, index⟩] :=
      List.reverse_cons
    rwa [hpath] at hreaches

/-! ## One render -/

/-- A render has just begun, of a document on a context. -/
def begun (registry : Registry) (document : Node) (context : Context)
    (next : Except RenderError Rendered → Program) (pending : List Pending) : Moment :=
  ⟨registry.dispatch document (context.begin document), .render next :: pending,
    context.begin document⟩

variable {document : Node} {context : Context} {next : Except RenderError Rendered → Program}
  {pending : List Pending}

theorem used_begun : (begun registry document context next pending).context.phase ≠ .idle := by
  nofun

/-- What is reached in the course of a render is reached from where it has just begun. -/
theorem reaches_begun (hidle : context.phase = .idle)
    (hr : registry.Reaches ⟨.render document next, pending, context⟩ first)
    (hphase : first.context.phase = .descending) :
    registry.Reaches (begun registry document context next pending) first := by
  rcases Relation.ReflTransGen.cases_head hr with rfl | ⟨second, hs, hlater⟩
  · rw [hidle] at hphase
    cases hphase
  · have hbegin : registry.step ⟨.render document next, pending, context⟩ =
        some (begun registry document context next pending) := if_pos hidle
    obtain rfl := Option.some.inj (hbegin.symm.trans hs)
    exact hlater

/-- In the course of a render its end is pending, below scopes and visits only. -/
theorem pending_of_begun
    (hr : registry.Reaches (begun registry document context next pending) first)
    (hphase : first.context.phase = .descending) :
    ∃ inner, first.pending = inner ++ .render next :: pending ∧
      ∀ entry ∈ inner, entry.isRender = false := by
  have hrenders := Registry.renders_of_reaches hr used_begun hphase
  obtain ⟨-, inner, hpending, -⟩ := Discipline.any.reaches (fun _ _ => trivial)
    ⟨trivial, [], rfl, nofun⟩ used_begun hr hphase
  refine ⟨inner, hpending, fun entry hentry => ?_⟩
  rw [hpending, List.filter_append] at hrenders
  have hinner : inner.filter Pending.isRender = [] := List.append_left_eq_self.mp hrenders
  simpa using List.filter_eq_nil_iff.mp hinner entry hentry

/-- **The end of a render, but for the signal**, is that of the render without one, if a run
without one comes to it in step. -/
theorem conclude_eq_detached (hidle : context.phase = .idle) {result : Except RenderError Unit}
    {after : Context} (hphase : after.phase = .descending)
    (hr : registry.Reaches (begun registry document context next pending).detach
      ⟨.done result, .render next :: pending, after.detach⟩) :
    let detached := registry.render document context.detach
    conclude (result, after) = (detached.1, { detached.2 with signal := after.signal }) := by
  let start := context.detach.begin document
  let outcome := registry.run (registry.dispatch document start) start
  have hrun : registry.Reaches (begun registry document context next pending).detach
      ⟨.done outcome.1, .render next :: pending, outcome.2⟩ :=
    Registry.reaches_run (registry.dispatch document start) start (.render next :: pending)
  have hend : outcome.2.phase = .descending := (registry.run_steady _ start).phase nofun
  have hsame : (result, after.detach) = outcome := by
    have hmoment := Registry.ending_unique hr hrun hphase hend
    simp only [Moment.mk.injEq, Program.done.injEq] at hmoment
    exact Prod.ext hmoment.1 hmoment.2.2
  have hdetached : registry.render document context.detach =
      ((conclude (result, after)).1, (conclude (result, after)).2.detach) := by
    have hstart : context.detach.phase = .idle := hidle
    rw [Registry.render_of_idle registry document hstart, Registry.dispatcher_visit,
      ← conclude_detach]
    exact congrArg conclude hsame.symm
  have hsignal : after.signal = (conclude (result, after)).2.signal :=
    (signal_conclude (result, after)).symm
  simp only [hdetached]
  rw [hsignal]
  rfl

/-- **How a render ends that passes errors on**, once a child has been called off in it. -/
theorem reaches_of_calledOff (hpasses : registry.PassesOn)
    (hr : registry.Reaches (begun registry document context next pending) first)
    (hphase : first.context.phase = .descending) (hattached : first.context.signal.isSome)
    {late : Moment} (hlater : registry.Reaches first.raise late)
    (hlate : late.context.phase = .descending) {index : Nat} {node : Node}
    {after : Except RenderError Unit → Program}
    (hattempt : late.program = .child index node after) :
    ∃ final, registry.Reaches first.raise
      ⟨next (.error (.cancelled (late.context.path ++ [⟨node.kind, index⟩]))), pending, final⟩ ∧
      final.stack = [] ∧ final.phase = .aborted := by
  have hdispatch : ∀ node context, (registry.dispatch node context).Passing := fun node context =>
    Or.inl (hpasses.dispatch node (fun _ => trivial) trivial)
  have hbegun : (begun registry document context next pending).Inside Program.Passing
      Pending.PassesOn (.render next :: pending) := ⟨hdispatch _ _, [], rfl, nofun⟩
  obtain ⟨hprogram, hpending⟩ := Discipline.passing.reaches hdispatch hbegun used_begun hr hphase
  have hraised : first.raise.Inside Program.Passing Pending.PassesOn (.render next :: pending) :=
    ⟨hprogram, hpending⟩
  have hcancelled := Registry.isCancelled_of_reaches hlater (isCancelled_raise hattached)
  obtain ⟨hattempts, inner, hinner, hkept⟩ :=
    Discipline.passing.reaches hdispatch hraised (used_of_descending hphase) hlater hlate
  -- the child is called off, and whoever is handed its error ends with it
  have hcalled : late.CalledOff registry := calledOff (used_of_descending hlate) hcancelled
  have hchild := hcalled.child index node after hattempt
  rw [hinner] at hchild
  rw [hattempt] at hattempts
  have hends := (Discipline.passing.child hattempts).1
    (.cancelled (late.context.path ++ [⟨node.kind, index⟩]))
  obtain ⟨ended, hended⟩ : ∃ ended, registry.Reaches _ ⟨.done _, .render next :: pending, ended⟩ :=
    Registry.reaches_through hkept hends (.render next :: pending) late.context
  exact ⟨_, (hlater.trans (hchild.trans hended)).after rfl, rfl, rfl⟩

/-- **How a render ends in which no child is called off**: as if there were no signal. -/
theorem reaches_of_unattempted (hidle : context.phase = .idle)
    (hr : registry.Reaches (begun registry document context next pending) first)
    (hphase : first.context.phase = .descending) (hattached : first.context.signal.isSome)
    (hlive : first.context.isCancelled = false)
    (hnone : ∀ later, registry.Reaches first.raise later → later.context.phase = .descending →
      ¬ later.Attempts) :
    let detached := registry.render document context.detach
    registry.Reaches first.raise
      ⟨next detached.1, pending, { detached.2 with signal := some true }⟩ := by
  -- the run that goes on with the raised signal comes to the end of the render
  obtain ⟨inner, hinner, hscopes⟩ := pending_of_begun hr hphase
  obtain ⟨result, after, hend, hafter⟩ : ∃ result after, registry.Reaches
      ⟨first.program, inner ++ .render next :: pending, first.raise.context⟩
      ⟨.done result, .render next :: pending, after⟩ ∧ after.phase = first.raise.context.phase :=
    Registry.reaches_below hscopes (.render next :: pending) first.program
      (used_of_descending hphase)
  rw [← hinner] at hend
  have hdescending : after.phase = .descending := hafter.trans hphase
  -- without the signal the run comes there too, as no child is called off on the way
  have hbefore : registry.Reaches (begun registry document context next pending).detach
      first.detach := by
    refine reaches_detach hr fun moment _ hlater hcancelled => ?_
    rw [Registry.isCancelled_of_reaches hlater hcancelled] at hlive
    cases hlive
  have hlater : registry.Reaches first.raise.detach
      (⟨.done result, .render next :: pending, after⟩ : Moment).detach := by
    refine reaches_detach hend fun moment hr hr' _ => hnone moment hr ?_
    exact Registry.descending_between hr hr' (used_of_descending hphase) hdescending
  have hsignal : after.signal = some true :=
    isCancelled_iff.mp (Registry.isCancelled_of_reaches hend (isCancelled_raise hattached))
  have hconclude := conclude_eq_detached hidle hdescending (hbefore.trans hlater)
  rw [hsignal] at hconclude
  intro detached
  have hfinal : registry.Reaches first.raise ⟨next (conclude (result, after)).1, pending,
      (conclude (result, after)).2⟩ := hend.after rfl
  rwa [hconclude] at hfinal

/-- **How a render ends in which the signal is never raised**: as if there were none. -/
theorem render_of_unraised (hidle : context.phase = .idle) (hattached : context.signal.isSome)
    (hlive : ∀ moment, registry.Reaches (begun registry document context next pending) moment →
      moment.context.phase = .descending → moment.context.isCancelled = false) :
    let detached := registry.render document context.detach
    registry.render document context = (detached.1, { detached.2 with signal := some false }) := by
  let start := context.begin document
  let outcome := registry.run (registry.dispatch document start) start
  have hend : registry.Reaches (begun registry document context next pending)
      ⟨.done outcome.1, .render next :: pending, outcome.2⟩ :=
    Registry.reaches_run (registry.dispatch document start) start (.render next :: pending)
  have hdescending : outcome.2.phase = .descending := (registry.run_steady _ start).phase nofun
  have hsignal : outcome.2.signal = some false :=
    signal_of_not_isCancelled (Registry.isSome_signal_of_reaches hend hattached)
      (hlive _ hend hdescending)
  have hstep : registry.Reaches (begun registry document context next pending).detach
      (⟨.done outcome.1, .render next :: pending, outcome.2⟩ : Moment).detach := by
    refine reaches_detach hend fun moment hr hr' hcancelled => ?_
    have hphase := Registry.descending_between hr hr' used_begun hdescending
    rw [hlive moment hr hphase] at hcancelled
    cases hcancelled
  rw [Registry.render_of_idle registry document hidle, Registry.dispatcher_visit, ← hsignal]
  exact conclude_eq_detached hidle hdescending hstep

end Moment

open Moment

/-- **What it means to call off a render**, for any renderers, whoever raises the signal that is
attached to the context, and at whatever moment of the render.  From then on no renderer is
invoked and every child is called off.  If all renderers pass errors on, the render ends with the
first child that is called off and leaves nothing open; if there is none, it ends as if no signal
were attached, and so does a render in which the signal is never raised. -/
theorem render_calledOff (registry : Registry) (document : Node) {context : Context}
    (hidle : context.phase = .idle) (hattached : context.signal.isSome)
    (next : Except RenderError Rendered → Program) (pending : List Pending) :
    let start : Moment := ⟨.render document next, pending, context⟩
    let detached := registry.render document { context with signal := none }
    (∀ point, registry.Reaches start point → point.context.phase = .descending →
      (∀ later, registry.Reaches point.raise later → later.CalledOff registry) ∧
      (registry.PassesOn → ∀ late index node after, registry.Reaches point.raise late →
        late.context.phase = .descending → late.program = .child index node after →
        ∃ final, registry.Reaches point.raise
          ⟨next (.error (.cancelled (late.context.path ++ [⟨node.kind, index⟩]))), pending, final⟩ ∧
          final.stack = [] ∧ final.phase = .aborted) ∧
      (point.context.isCancelled = false →
        (∀ later, registry.Reaches point.raise later → later.context.phase = .descending →
          ¬ later.Attempts) →
        registry.Reaches point.raise
          ⟨next detached.1, pending, { detached.2 with signal := some true }⟩)) ∧
    ((∀ moment, registry.Reaches start moment → moment.context.phase = .descending →
        moment.context.isCancelled = false) →
      registry.render document context =
        (detached.1, { detached.2 with signal := some false })) := by
  intro start detached
  refine ⟨fun point hr hphase => ?_, fun hlive => ?_⟩
  · have hattached : point.context.signal.isSome := Registry.isSome_signal_of_reaches hr hattached
    have hbegun := reaches_begun hidle hr hphase
    refine ⟨fun later hlater => ?_, fun hpasses late index node after hlater hlate hattempt => ?_,
      fun hlive hnone => ?_⟩
    · exact calledOff (Registry.used_of_reaches hlater (used_of_descending hphase))
        (Registry.isCancelled_of_reaches hlater (isCancelled_raise hattached))
    · exact reaches_of_calledOff hpasses hbegun hphase hattached hlater hlate hattempt
    · exact reaches_of_unattempted hidle hbegun hphase hattached hlive hnone
  · have hbegin : registry.step start = some (begun registry document context next pending) :=
      if_pos hidle
    exact render_of_unraised hidle hattached fun moment hr => hlive moment (.before hbegin hr)

/-- The signal is raised while the first of two paragraphs is rendered, so the second is called
off. -/
theorem render_calledOff_siblings :
    let second : Node := .paragraph [.text "b"]
    let document : Node := .document [.paragraph [.text "a"], second]
    let finish : Except RenderError Rendered → Program :=
      fun result => .done (result.map fun _ => ())
    let attached : Context := { signal := some false }
    let point : Moment :=
      ⟨.leaf (.text "a"),
        [.visit (.onSuccess .skip), .scope 1 .done,
          .visit (.onSuccess (.child 1 second (.onSuccess .skip))), .scope 0 .done, .render finish],
        { attached with
          phase := .descending
          stack := [.empty .paragraph, .empty .document]
          trail := [⟨.text, 0⟩, ⟨.paragraph, 0⟩, ⟨.document, 0⟩] }⟩
    let path : NodePath := [⟨.document, 0⟩, ⟨.paragraph, 1⟩]
    attached.phase = .idle ∧ attached.signal.isSome ∧ Registry.defaults.PassesOn ∧
      Registry.defaults.Reaches ⟨.render document finish, [], attached⟩ point ∧
      ∃ final, Registry.defaults.Reaches point.raise
          ⟨.done (.error (.cancelled path)), [], final⟩ ∧
        final.stack = [] ∧ final.phase = .aborted := by
  intro second document finish attached point path
  have hpoint : Registry.defaults.Reaches ⟨.render document finish, [], attached⟩ point :=
    .before rfl (.before rfl (.before rfl (.before rfl (.before rfl (.refl point)))))
  have hlate : Registry.defaults.Reaches point.raise _ :=
    .before rfl (.before rfl (.before rfl (.before rfl (.refl _))))
  refine ⟨rfl, rfl, Registry.passesOn_defaults, hpoint, ?_⟩
  exact ((render_calledOff Registry.defaults document rfl rfl finish []).1 point hpoint rfl).2.1
    Registry.passesOn_defaults _ 1 second (.onSuccess .skip) hlate rfl rfl

end Rendition
