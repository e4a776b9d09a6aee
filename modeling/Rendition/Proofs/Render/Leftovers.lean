import Rendition.Proofs.Render.Retune
import Rendition.Proofs.Render.Unwinding

/-!
# Renders on contexts that have been touched

Before its render a context may be worked on from outside, and all that a render asks for is that
none has begun yet.  What was recorded before, warnings and the journal, is only put in front of
what the render records, and so does not matter (`Registry.run_withRecord`).

What was built before does matter.  A container that is still open, or a root that was finished,
stays the outermost container that the context holds, whatever the renderers do
(`Context.Outermost`): nothing is opened beside it, and no scope that ends discards it, since
scopes can only have been opened inside it.  So if the render succeeds in spite of it, it hands out
that container and not one of its own (`render_of_touched`), although on a fresh context it may
have none to hand out at all (`render_of_leftover_root`).
-/

namespace Rendition

namespace Context

variable {base : Container} {context changed before after : Context}

/-! ## What was recorded before -/

variable (warnings : List Warning) (journal : List JournalEntry)

/-- The context with what was recorded before it. -/
def withRecord (context : Context) : Context :=
  { context with
    warnings := warnings ++ context.warnings
    journal := journal ++ context.journal }

theorem notify_withRecord (notice : Notice) (context : Context) :
    (context.withRecord warnings journal).notify notice =
      (context.notify notice).withRecord warnings journal := by
  cases notice with
  | warn message => simp only [notify, withRecord, List.append_assoc]; rfl
  | cancel => rfl
  | journal entry => simp only [notify, withRecord, List.append_assoc]

theorem aside_withRecord : Aside (withRecord warnings journal) :=
  fun _ _ _ => rfl

theorem within_withRecord {container : Container} {body : Context → Outcome}
    (hbody : ∀ opened, context.edit (.push container) = .ok opened →
      body (opened.withRecord warnings journal) =
        ((body opened).1, (body opened).2.withRecord warnings journal)) :
    (context.withRecord warnings journal).within container body =
      ((context.within container body).1,
        (context.within container body).2.withRecord warnings journal) := by
  have haside := aside_withRecord warnings journal
  unfold within
  rw [haside.edit]
  cases hopen : context.edit (.push container) with
  | error error => rfl
  | ok opened =>
    simp only [Except.map, hbody opened hopen]
    exact haside.settle context.depth (body opened)

theorem visitChild_withRecord {visit : Node → Context → Outcome} {index : Nat} {child : Node}
    (hvisit : visit child ((context.enter ⟨child.kind, index⟩).withRecord warnings journal) =
      ((visit child (context.enter ⟨child.kind, index⟩)).1,
        (visit child (context.enter ⟨child.kind, index⟩)).2.withRecord warnings journal)) :
    (context.withRecord warnings journal).visitChild visit index child =
      ((context.visitChild visit index child).1,
        (context.visitChild visit index child).2.withRecord warnings journal) := by
  cases hc : context.isCancelled with
  | true =>
    rw [visitChild_of_cancelled hc]
    exact visitChild_of_cancelled hc
  | false =>
    have hc' : (context.withRecord warnings journal).isCancelled = false := hc
    rw [visitChild_of_not_cancelled hc, visitChild_of_not_cancelled hc']
    exact congrArg (fun outcome : Outcome => (outcome.1, outcome.2.leave)) hvisit

/-- A context on which nothing is built, on no node, is a fresh one but for what was recorded. -/
theorem eq_withRecord_fresh (hidle : context.phase = .idle) (hstack : context.stack = [])
    (hroot : context.root = none) (htrail : context.trail = []) :
    context = withRecord context.warnings context.journal
      { options := context.options, signal := context.signal } := by
  obtain ⟨options, signal, stack, root, trail, warnings, phase, journal⟩ := context
  obtain rfl : stack = [] := hstack
  obtain rfl : root = none := hroot
  obtain rfl : trail = [] := htrail
  obtain rfl : phase = .idle := hidle
  simp only [withRecord, List.append_nil]

/-- The root that is handed out does not depend on it. -/
theorem conclude_withRecord (outcome : Outcome) :
    (conclude (outcome.1, outcome.2.withRecord warnings journal)).1.map (·.root) =
      (conclude outcome).1.map (·.root) := by
  obtain ⟨_ | _, after⟩ := outcome
  · rfl
  · obtain ⟨_, _, stack, root, _⟩ := after
    rcases stack with _ | ⟨innermost, outer⟩ <;> rcases root with _ | root <;> rfl

end Context

open Context

namespace Registry

variable (registry : Registry) (warnings : List Warning) (journal : List JournalEntry)

theorem dispatch_withRecord (node : Node) (context : Context) :
    registry.dispatch node (context.withRecord warnings journal) =
      registry.dispatch node context := rfl

/-- **In the course of a render a program does not depend on what was recorded before.** -/
theorem run_withRecord (program : Program) {context : Context} (hused : context.phase ≠ .idle) :
    registry.run program (context.withRecord warnings journal) =
      ((registry.run program context).1,
        (registry.run program context).2.withRecord warnings journal) := by
  induction program, context using Program.call_induction registry with
  | done result context => rfl
  | look next context ih => exact ih hused
  | notify notice next context ih =>
    have hnext := ih ((Steady.notify notice context).phase hused ▸ hused)
    rw [← notify_withRecord] at hnext
    exact hnext
  | edit change next context ih =>
    have hnext := ih ((Steady.attempt change context).phase hused ▸ hused)
    show registry.run (next ((context.withRecord warnings journal).attempt change).1)
      ((context.withRecord warnings journal).attempt change).2 = _
    rw [(aside_withRecord warnings journal).attempt]
    exact hnext
  | within container body next context ihBody ih =>
    have hwithin := within_withRecord warnings journal fun opened hopen =>
      ihBody opened hopen ((Steady.edit hopen).phase hused ▸ hused)
    have hphase := (Steady.within (registry.run_steady body) container context).phase hused
    rw [run_within, run_within, hwithin]
    exact ih (hphase ▸ hused)
  | child index node next context ihNode ih =>
    have hvisit :
        (context.withRecord warnings journal).visitChild registry.dispatcher.visit index node =
          ((context.visitChild registry.dispatcher.visit index node).1,
            (context.visitChild registry.dispatcher.visit index node).2.withRecord
              warnings journal) := by
      refine visitChild_withRecord warnings journal ?_
      rw [dispatcher_visit, dispatcher_visit, dispatch_withRecord]
      exact ihNode hused
    have hphase := (Steady.visitChild registry.visit_steady index node context).phase hused
    rw [run_child, run_child, hvisit]
    exact ih (hphase ▸ hused)
  | render document next context ihNode ih =>
    -- the context is in use, so the render is refused either way
    have hrefused := registry.render_of_used document hused
    have hrefused' : registry.render document (context.withRecord warnings journal) =
        (context.withRecord warnings journal).refuse := registry.render_of_used document hused
    rw [run_render, run_render, hrefused, hrefused']
    rw [hrefused] at ih
    exact ih hused

/-- So a render hands out the same root, whatever was recorded before it. -/
theorem root_render_withRecord (document : Node) {context : Context}
    (hidle : context.phase = .idle) :
    (registry.render document (context.withRecord warnings journal)).1.map (·.root) =
      (registry.render document context).1.map (·.root) := by
  have hidle' : (context.withRecord warnings journal).phase = .idle := hidle
  have hused : (context.begin document).phase ≠ .idle := by
    show Phase.descending ≠ .idle
    decide
  have hvisit : registry.dispatcher.visit document
        ((context.withRecord warnings journal).begin document) =
      ((registry.dispatcher.visit document (context.begin document)).1,
        (registry.dispatcher.visit document (context.begin document)).2.withRecord
          warnings journal) := by
    rw [dispatcher_visit, dispatcher_visit]
    exact registry.run_withRecord warnings journal _ hused
  rw [render_of_idle registry document hidle, render_of_idle registry document hidle', hvisit]
  exact conclude_withRecord warnings journal _

end Registry

/-! ## What was built before -/

namespace Context

variable {base : Container} {context changed before after : Context}

/-- The outermost container that the context holds: the first one that was opened and is still
open, or the finished root. -/
def outermost? (context : Context) : Option Container :=
  context.stack.getLast?.or context.root

/-- A container is the outermost one that the context holds, with elements appended to it: it is
still open, or it is the root, and nothing is open. -/
def Outermost (base : Container) (context : Context) : Prop :=
  StillOpen {} base context ∨
    ∃ more, context.built = ([], some { base with children := base.children ++ more })

namespace Outermost

/-- What a context holds is outermost in it, if a root of it stands alone. -/
theorem of_outermost? (h : context.root.isSome → context.stack = [])
    (hbase : context.outermost? = some base) : Outermost base context := by
  have hsame : { base with children := base.children ++ [] } = base := by
    rw [List.append_nil]
  rcases List.eq_nil_or_concat context.stack with hnil | ⟨inner, outermost, hstack⟩
  · refine Or.inr ⟨[], ?_⟩
    rw [outermost?, hnil] at hbase
    rw [hsame, built, hnil]
    exact congrArg (Prod.mk []) hbase
  · rw [List.concat_eq_append] at hstack
    refine Or.inl ⟨inner, [], ?_⟩
    rw [outermost?, hstack, List.getLast?_concat] at hbase
    obtain rfl := Option.some.inj hbase
    have hnone := root_of_open h (by rw [hstack]; exact List.concat_ne_nil _ _)
    rw [hsame, built, hstack, hnone]

theorem of_built_eq (h : Outermost base before) (hbuilt : after.built = before.built) :
    Outermost base after := by
  rcases h with hopen | ⟨more, hroot⟩
  · exact Or.inl (hopen.of_built_eq hbuilt)
  · exact Or.inr ⟨more, hbuilt.trans hroot⟩

/-- Where a container can be opened, the outermost one is still open. -/
theorem stillOpen (h : Outermost base context) {container : Container}
    (hopen : context.edit (.push container) = .ok changed) : StillOpen {} base context := by
  rcases h with hopen | ⟨more, hroot⟩
  · exact hopen
  · obtain ⟨hstack, hroot⟩ := Prod.mk.inj hroot
    obtain ⟨error, hrefused⟩ := edit_of_root (by rw [hroot]; rfl) hstack (.push container)
    rw [hrefused] at hopen
    cases hopen

/-- An edit appends to it, or finishes it. -/
theorem edit (h : Outermost base before) {change : Edit}
    (hedit : before.edit change = .ok after) : Outermost base after := by
  rcases h with hopen | ⟨more, hroot⟩
  · by_cases hdepth : 0 < after.depth
    · exact Or.inl (hopen.edit hedit hdepth)
    · -- the last open container has been closed, and that was the outermost one
      have hnil : after.stack = [] := List.length_eq_zero_iff.mp (Nat.eq_zero_of_not_pos hdepth)
      obtain ⟨inner, more, hbuilt⟩ := hopen
      obtain ⟨hstack, hroot⟩ := Prod.mk.inj hbuilt
      rcases edit_cases hedit with
        ⟨_, -, -, rfl⟩ | ⟨innermost, _ | ⟨parent, outer⟩, -, hpop, rfl⟩ |
        ⟨_, innermost, outer, -, -, rfl⟩
      · cases hnil
      · rw [hstack] at hpop
        obtain ⟨rfl, hlast⟩ := List.append_eq_singleton_iff.mp hpop |>.resolve_right
          (fun hother => by cases hother.2)
        obtain ⟨rfl, -⟩ := List.cons.inj hlast
        exact Or.inr ⟨more, rfl⟩
      · cases hnil
      · cases hnil
  · obtain ⟨hstack, hroot⟩ := Prod.mk.inj hroot
    obtain ⟨error, hrefused⟩ := edit_of_root (by rw [hroot]; rfl) hstack change
    rw [hrefused] at hedit
    cases hedit

theorem attempt (h : Outermost base context) (change : Edit) :
    Outermost base (context.attempt change).2 := by
  unfold Context.attempt
  split
  · exact h.edit ‹_›
  · exact h

/-- It is not discarded with what is inside it. -/
theorem truncate {depth : Nat} (h : Outermost base context) (hdepth : 0 < depth) :
    Outermost base (context.truncate depth) := by
  rcases h with hopen | ⟨more, hroot⟩
  · refine Or.inl (hopen.truncate ?_)
    have hpos : 0 < context.stack.length := by
      obtain ⟨inner, more, hbuilt⟩ := hopen
      rw [(Prod.mk.inj hbuilt).1, List.length_append, List.length_cons]
      omega
    simp only [Context.depth, Context.truncate, List.length_drop, List.length_nil]
    omega
  · refine Or.inr ⟨more, ?_⟩
    obtain ⟨hstack, hroot⟩ := Prod.mk.inj hroot
    simp only [built, Context.truncate, hstack, List.drop_nil, hroot]

theorem settle {depth : Nat} {outcome : Outcome} (h : Outermost base outcome.2)
    (hdepth : 0 < depth) : Outermost base (Context.settle depth outcome).2 := by
  obtain ⟨_ | _, after⟩ := outcome
  · exact h.truncate hdepth
  · by_cases hbalanced : after.depth = depth + 1
    · simp only [Context.settle, hbalanced, ↓reduceIte]
      exact h.attempt .pop
    · simp only [Context.settle, hbalanced, ↓reduceIte]
      exact h.truncate hdepth

/-- A scope is inside it, and so leaves it outermost if its body does. -/
theorem within {container : Container} {body : Context → Outcome} (h : Outermost base context)
    (hbody : ∀ opened, context.edit (.push container) = .ok opened → Outermost base opened →
      Outermost base (body opened).2) :
    Outermost base (context.within container body).2 := by
  unfold Context.within
  split
  · exact h
  · rename_i opened hopen
    obtain ⟨inner, more, hbuilt⟩ := h.stillOpen hopen
    have hdepth : 0 < context.depth := by
      rw [depth, (Prod.mk.inj hbuilt).1, List.length_append, List.length_cons]
      omega
    exact (hbody opened hopen (h.edit hopen)).settle hdepth

end Outermost
end Context

open Context

/-- **In the course of a render a program keeps the outermost container outermost**, and only
appends elements to it. -/
theorem Registry.outermost_run (registry : Registry) {base : Container} (program : Program)
    {context : Context} (h : Outermost base context) (hused : context.phase ≠ .idle) :
    Outermost base (registry.run program context).2 := by
  induction program, context using Program.call_induction registry with
  | done result context => exact h
  | look next context ih => exact ih h hused
  | notify notice next context ih =>
    have hnotify : (context.notify notice).built = context.built := by cases notice <;> rfl
    exact ih (h.of_built_eq hnotify) ((Steady.notify notice context).phase hused ▸ hused)
  | edit change next context ih =>
    exact ih (h.attempt change) ((Steady.attempt change context).phase hused ▸ hused)
  | within container body next context ihBody ih =>
    have hwithin : Outermost base (context.within container (registry.run body)).2 :=
      h.within fun opened hopen hopened =>
        ihBody opened hopen hopened ((Steady.edit hopen).phase hused ▸ hused)
    have hphase := (Steady.within (registry.run_steady body) container context).phase hused
    exact ih hwithin (hphase ▸ hused)
  | child index node next context ihNode ih =>
    have hphase := (Steady.visitChild registry.visit_steady index node context).phase hused
    refine ih ?_ (hphase ▸ hused)
    cases hc : context.isCancelled with
    | true =>
      rw [visitChild_of_cancelled hc]
      exact h
    | false =>
      rw [visitChild_of_not_cancelled hc, dispatcher_visit]
      exact (ihNode (h.of_built_eq rfl) hused).of_built_eq rfl
  | render document next context ihNode ih =>
    -- the context is in use, so the render is refused
    rw [run_render]
    rw [registry.render_of_used document hused] at ih ⊢
    exact ih h hused

/-- **What a render hands out is the outermost container** that the context has held before, if the
render succeeds, with elements appended to it. -/
theorem Registry.root_of_outermost (registry : Registry) {base : Container} (document : Node)
    {context : Context} (hidle : context.phase = .idle) (h : Outermost base context)
    {output : Rendered} (houtput : (registry.render document context).1 = .ok output) :
    ∃ more, output.root = { base with children := base.children ++ more } := by
  have hbegun : Outermost base (context.begin document) := h.of_built_eq rfl
  have hused : (context.begin document).phase ≠ .idle := by
    show Phase.descending ≠ .idle
    decide
  have hvisited : Outermost base
      (registry.dispatcher.visit document (context.begin document)).2 := by
    rw [dispatcher_visit]
    exact registry.outermost_run _ hbegun hused
  rw [registry.render_of_idle document hidle] at houtput
  rcases conclude_cases (registry.dispatcher.visit document (context.begin document)) with
    ⟨error, hend⟩ | ⟨root, -, hstack, hroot, hend⟩
  · rw [hend] at houtput
    cases houtput
  · rw [hend] at houtput
    obtain rfl := Except.ok.inj houtput
    rcases hvisited with ⟨inner, more, hopen⟩ | ⟨more, hfinished⟩
    · -- the container would be left open
      rw [built, hstack] at hopen
      simp at hopen
    · refine ⟨more, ?_⟩
      rw [built, hroot] at hfinished
      exact Option.some.inj (Prod.mk.inj hfinished).2

/-- **What a render on a touched context hands out**, after any operations from outside that have
left the context idle, and with any renderers.  If neither an open container nor a root is left
from before, it is what a render on a fresh context with the same signal hands out, and it fails
with the same error.  Otherwise all that it can hand out is the outermost container from before,
with elements appended to it. -/
theorem render_of_touched (registry : Registry) (options : RenderOptions) (signal : Option Bool)
    (program : Program) (document : Node) :
    let touched := (registry.run program { options, signal }).2
    touched.phase = .idle →
    match touched.outermost? with
    | none =>
      (registry.render document touched).1.map (·.root) =
        (registry.render document { options, signal := touched.signal }).1.map (·.root)
    | some base => ∀ output, (registry.render document touched).1 = .ok output →
      ∃ more, output.root = { base with children := base.children ++ more } := by
  intro touched hidle
  have horderly : (⟨.done _, [], touched⟩ : Moment).Orderly :=
    (Moment.orderly_fresh program options signal).reaches (Registry.reaches_run program _ [])
  cases hbase : touched.outermost? with
  | none =>
    -- the record is all that is left
    obtain ⟨hlast, hroot⟩ := Option.or_eq_none_iff.mp hbase
    have hsteady : Steady { options, signal } touched := registry.run_steady program _
    have hfresh := eq_withRecord_fresh hidle (List.getLast?_eq_none_iff.mp hlast) hroot
      (hsteady.trail hidle)
    rw [hsteady.options] at hfresh
    rw [hfresh]
    exact registry.root_render_withRecord touched.warnings touched.journal document rfl
  | some base =>
    intro output houtput
    have houtermost : Outermost base touched := Outermost.of_outermost? horderly.root_alone hbase
    exact registry.root_of_outermost document hidle houtermost houtput

/-- A warning, and a scope that has failed: nothing is left of them. -/
theorem render_of_touched_warned :
    let document : Node := .document [.paragraph [.text "a"]]
    let failing : Program := .enclose .paragraph (.reject document (.other "stop"))
    let program : Program := .notify (.warn "early") failing
    let touched := (Registry.defaults.run program {}).2
    touched.phase = .idle ∧ touched.outermost? = none ∧ touched.warnings.length = 1 ∧
    (Registry.defaults.render document touched).1.map (·.root) =
      (Registry.defaults.render document {}).1.map (·.root) := by
  intro document failing program touched
  have hrender := render_of_touched Registry.defaults {} none program document rfl
  exact ⟨rfl, rfl, rfl, hrender⟩

/-- **A render can hand out what it has not made.**  A document is opened and closed from outside,
and then an image without destination and text is rendered, for which nothing is written: out comes
that document.  On a fresh context the same render fails, since there is no root. -/
theorem render_of_leftover_root :
    let program : Program := .seq (.push (.empty .document)) .pop
    let image : Node := .ofKind .image
    let touched := (Registry.defaults.run program {}).2
    touched.phase = .idle ∧
    (Registry.defaults.render image touched).1.map (·.root) = .ok (.empty .document) ∧
    (Registry.defaults.render image { signal := touched.signal }).1.map (·.root) =
      .error (.invariantViolation .noRoot []) :=
  ⟨rfl, rfl, rfl⟩

end Rendition
