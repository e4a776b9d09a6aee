import Rendition.Render.Traversal

/-!
# Descents

`Registry.descend` and `Registry.explore` pass a budget of levels down, because a node
may be visited from inside its own renderer any number of times.  This module shows that
the budget is never seen: visiting a node is running the program that the node calls for
(`Registry.dispatch`), and every visit below it is again one of the same dispatcher
(`Registry.dispatcher_visit`).

What makes the budgets agree is that a descent is **steady** (`Context.Steady`): it ends
on the level where it began, unless it contained the one render of the context.  The same
fact bounds the tree of calls, which gives an induction over everything that a program
causes to be run (`Program.call_induction`).
-/

namespace Rendition

namespace Context

variable {context changed after : Context}

/-- **What an edit can do.** -/
theorem edit_cases {change : Edit} (h : context.edit change = .ok changed) :
    (∃ container, change = .push container ∧ (context.stack = [] → context.root = none) ∧
      changed = { context with stack := container :: context.stack }) ∨
    (∃ innermost outer, change = .pop ∧ context.stack = innermost :: outer ∧
      changed = context.attach innermost outer) ∨
    (∃ content innermost outer, change = .leaf content ∧ context.stack = innermost :: outer ∧
      changed = { context with stack := innermost.append (.leaf content) :: outer }) := by
  unfold edit at h
  split at h
  · rename_i container hstack
    split at h
    · cases h
    · rename_i hroot
      refine Or.inl ⟨container, rfl, fun _ => by simpa using hroot, ?_⟩
      rw [hstack]
      exact (Except.ok.inj h).symm
  · rename_i container innermost outer hstack
    refine Or.inl ⟨container, rfl, fun hnil => by simp [hstack] at hnil, ?_⟩
    rw [hstack]
    exact (Except.ok.inj h).symm
  · cases h
  · rename_i innermost outer hstack
    exact Or.inr (Or.inl ⟨innermost, outer, rfl, hstack, (Except.ok.inj h).symm⟩)
  · cases h
  · rename_i content innermost outer hstack
    exact Or.inr (Or.inr ⟨content, innermost, outer, rfl, hstack, (Except.ok.inj h).symm⟩)

/-- **What an edit can be refused for**: nothing is open, and either there is a root already
beside which a container was to be opened, or there is nothing to close or to write to. -/
theorem edit_refused {change : Edit} {error : RenderError}
    (h : context.edit change = .error error) :
    context.stack = [] ∧
    ((∃ container, change = .push container ∧ context.root.isSome ∧
      error = context.violation (.secondRoot container.kind.name)) ∨
    (change = .pop ∧ error = context.violation .nothingToClose) ∨
    (∃ content, change = .leaf content ∧ error = context.violation .orphanLeaf)) := by
  unfold edit at h
  split at h
  · rename_i container hstack
    split at h
    · exact ⟨hstack, Or.inl ⟨container, rfl, ‹_›, (Except.error.inj h).symm⟩⟩
    · cases h
  · cases h
  · exact ⟨‹_›, Or.inr (Or.inl ⟨rfl, (Except.error.inj h).symm⟩)⟩
  · cases h
  · exact ⟨‹_›, Or.inr (Or.inr ⟨_, rfl, (Except.error.inj h).symm⟩)⟩
  · cases h

/-- An edit changes the open containers and the root only. -/
theorem edit_frame {change : Edit} (h : context.edit change = .ok changed) :
    changed = { context with stack := changed.stack, root := changed.root } := by
  rcases edit_cases h with ⟨_, _, _, rfl⟩ | ⟨innermost, outer, _, _, rfl⟩ | ⟨_, _, _, _, _, rfl⟩
  · rfl
  · cases outer <;> rfl
  · rfl

theorem attempt_frame (change : Edit) (context : Context) :
    (context.attempt change).2 =
      { context with
        stack := (context.attempt change).2.stack, root := (context.attempt change).2.root } := by
  unfold attempt
  split
  · exact edit_frame ‹_›
  · rfl

@[simp] theorem leave_enter (step : PathStep) (context : Context) :
    (context.enter step).leave = context := rfl

@[simp] theorem isCancelled_enter (step : PathStep) (context : Context) :
    (context.enter step).isCancelled = context.isCancelled := rfl

theorem visitChild_of_cancelled {visit : Node → Context → Outcome} {index : Nat} {child : Node}
    (h : context.isCancelled = true) :
    context.visitChild visit index child =
      (.error (.cancelled (context.enter ⟨child.kind, index⟩).path), context) := by
  simp [visitChild, h]

theorem visitChild_of_not_cancelled {visit : Node → Context → Outcome} {index : Nat}
    {child : Node} (h : context.isCancelled = false) :
    context.visitChild visit index child =
      ((visit child (context.enter ⟨child.kind, index⟩)).1,
        (visit child (context.enter ⟨child.kind, index⟩)).2.leave) := by
  simp [visitChild, h]

/-- A scope depends on its body only where the body is run. -/
theorem within_congr {container : Container} {first second : Context → Outcome}
    (h : ∀ opened, context.edit (.push container) = .ok opened → first opened = second opened) :
    context.within container first = context.within container second := by
  unfold within
  split
  · rfl
  · rename_i opened hopen
    rw [h opened hopen]

theorem visitChild_congr {first second : Node → Context → Outcome} {index : Nat} {child : Node}
    (h : first child (context.enter ⟨child.kind, index⟩) =
      second child (context.enter ⟨child.kind, index⟩)) :
    context.visitChild first index child = context.visitChild second index child := by
  unfold visitChild
  simp only [h]

/-- **How a render can end**: in failure, or with the finished root. -/
theorem conclude_cases (outcome : Outcome) :
    (∃ error, conclude outcome = (.error error, outcome.2.abort)) ∨
    (∃ root, outcome.1 = .ok () ∧ outcome.2.stack = [] ∧ outcome.2.root = some root ∧
      conclude outcome = (.ok ⟨root, outcome.2.warnings⟩,
        { outcome.2 with root := none, trail := [], warnings := [], phase := .completed })) := by
  obtain ⟨error | _, after⟩ := outcome
  · exact Or.inl ⟨error, rfl⟩
  · simp only
    cases hstack : after.stack with
    | cons innermost outer =>
      exact Or.inl ⟨after.violation (.leftOpen after.depth), by simp [conclude, finish, hstack]⟩
    | nil =>
      cases hroot : after.root with
      | none => exact Or.inl ⟨after.violation .noRoot, by simp [conclude, finish, hstack, hroot]⟩
      | some root =>
        exact Or.inr ⟨root, trivial, rfl, rfl, by simp [conclude, finish, hstack, hroot]⟩

/-- A scope whose body has failed fails with its error, and so does a render. -/
theorem settle_of_error {depth : Nat} {outcome : Outcome} {error : RenderError}
    (h : outcome.1 = .error error) : (settle depth outcome).1 = .error error := by
  obtain ⟨result, after⟩ := outcome
  obtain rfl : result = .error error := h
  rfl

theorem conclude_of_error {outcome : Outcome} {error : RenderError}
    (h : outcome.1 = .error error) : (conclude outcome).1 = .error error := by
  obtain ⟨result, after⟩ := outcome
  obtain rfl : result = .error error := h
  rfl

/-! ## Steadiness -/

/-- How the context after a descent is related to the one before: the options are the same,
and so is the trail, unless a render has come to its end in between.  A render can only
begin on an idle context. -/
structure Steady (before after : Context) : Prop where
  options : after.options = before.options
  trail : after.phase = before.phase → after.trail = before.trail
  phase : before.phase ≠ .idle → after.phase = before.phase

namespace Steady

theorem refl (context : Context) : Steady context context :=
  ⟨rfl, fun _ => rfl, fun _ => rfl⟩

theorem trans {first second third : Context} (h : Steady first second)
    (h' : Steady second third) : Steady first third where
  options := h'.options.trans h.options
  trail hphase := by
    by_cases hidle : first.phase = .idle
    · have hsecond : second.phase = .idle := by
        apply Classical.byContradiction
        intro hne
        exact hne ((h'.phase hne).symm.trans (hphase.trans hidle))
      rw [h'.trail (hphase.trans (hidle.trans hsecond.symm)), h.trail (hsecond.trans hidle.symm)]
    · have hsecond := h.phase hidle
      rw [h'.trail (hphase.trans hsecond.symm), h.trail hsecond]
  phase hne := by
    have hsecond := h.phase hne
    rw [h'.phase (hsecond ▸ hne), hsecond]

/-- What changes neither options, nor trail, nor phase is steady. -/
theorem of_frame {before after : Context} (ho : after.options = before.options)
    (ht : after.trail = before.trail) (hp : after.phase = before.phase) : Steady before after :=
  ⟨ho, fun _ => ht, fun _ => hp⟩

theorem notify (notice : Notice) (context : Context) :
    Steady context (context.notify notice) := by
  cases notice <;> exact of_frame rfl rfl rfl

theorem edit {change : Edit} (h : context.edit change = .ok changed) : Steady context changed := by
  rw [edit_frame h]
  exact of_frame rfl rfl rfl

theorem attempt (change : Edit) (context : Context) :
    Steady context (context.attempt change).2 := by
  rw [attempt_frame]
  exact of_frame rfl rfl rfl

theorem settle (depth : Nat) (outcome : Outcome) :
    Steady outcome.2 (Context.settle depth outcome).2 := by
  obtain ⟨_ | _, after⟩ := outcome
  · exact of_frame rfl rfl rfl
  · by_cases h : after.depth = depth + 1
    · simpa [Context.settle, h] using attempt .pop after
    · simp only [Context.settle, h, ↓reduceIte]
      exact of_frame rfl rfl rfl

theorem within {body : Context → Outcome} (hbody : ∀ opened, Steady opened (body opened).2)
    (container : Container) (context : Context) :
    Steady context (context.within container body).2 := by
  unfold Context.within
  split
  · exact refl context
  · rename_i opened hopen
    exact (edit hopen).trans ((hbody opened).trans (settle context.depth (body opened)))

/-- Steps down and up again enclose a steady stretch. -/
theorem leave {step : PathStep} (h : Steady (context.enter step) after) :
    Steady context after.leave :=
  ⟨h.options, fun hp => congrArg List.tail (h.trail hp), h.phase⟩

theorem visitChild {visit : Node → Context → Outcome}
    (hvisit : ∀ node context, Steady context (visit node context).2)
    (index : Nat) (child : Node) (context : Context) :
    Steady context (context.visitChild visit index child).2 := by
  cases h : context.isCancelled with
  | true => rw [visitChild_of_cancelled h]; exact refl context
  | false => rw [visitChild_of_not_cancelled h]; exact leave (hvisit child _)

theorem conclude {outcome : Outcome} (h : context.phase = .idle)
    (ho : outcome.2.options = context.options) : Steady context (Context.conclude outcome).2 := by
  rcases conclude_cases outcome with ⟨error, hend⟩ | ⟨root, _, _, _, hend⟩ <;> rw [hend]
  · exact ⟨ho, fun hp => by simp [abort, h] at hp, fun hne => absurd h hne⟩
  · exact ⟨ho, fun hp => by simp [h] at hp, fun hne => absurd h hne⟩

theorem renderWith {visit : Node → Context → Outcome}
    (hvisit : ∀ node context, Steady context (visit node context).2)
    (document : Node) (context : Context) :
    Steady context (context.renderWith visit document).2 := by
  unfold Context.renderWith
  split
  · exact conclude ‹_› (hvisit document (context.begin document)).options
  · exact refl context

end Steady
end Context

open Context

/-- A program is steady if visits and renders are. -/
theorem Program.run_steady {dispatcher : Dispatcher}
    (hvisit : ∀ node context, Steady context (dispatcher.visit node context).2)
    (hrender : ∀ document context, Steady context (dispatcher.render document context).2)
    (program : Program) (context : Context) :
    Steady context (program.run dispatcher context).2 := by
  induction program generalizing context with
  | done result => exact .refl context
  | look next ih => exact ih context.view context
  | notify notice next ih => exact (Steady.notify notice context).trans (ih _)
  | edit change next ih => exact (Steady.attempt change context).trans (ih _ _)
  | within container body next ihBody ih =>
    exact (Steady.within ihBody container context).trans (ih _ _)
  | child index node next ih =>
    exact (Steady.visitChild hvisit index node context).trans (ih _ _)
  | render document next ih => exact (hrender document context).trans (ih _ _)

/-- **Two dispatchers run a program alike** if they agree wherever it may ask them: `P` is
something about the context that steady changes keep. -/
theorem Program.run_congr {first second : Dispatcher} {P : Context → Prop}
    (hsecond : ∀ node context, Steady context (second.visit node context).2)
    (hsecond' : ∀ document context, Steady context (second.render document context).2)
    (hkeep : ∀ {before after : Context}, Steady before after → P before → P after)
    (hvisit : ∀ step child context, P context →
      first.visit child (context.enter step) = second.visit child (context.enter step))
    (hrender : ∀ document context, P context →
      first.render document context = second.render document context)
    (program : Program) {context : Context} (h : P context) :
    program.run first context = program.run second context := by
  induction program generalizing context with
  | done result => rfl
  | look next ih => exact ih context.view h
  | notify notice next ih => exact ih (hkeep (.notify notice context) h)
  | edit change next ih => exact ih _ (hkeep (.attempt change context) h)
  | within container body next ihBody ih =>
    have hwithin : context.within container (body.run first) =
        context.within container (body.run second) :=
      within_congr fun opened hopen => ihBody (hkeep (.edit hopen) h)
    simp only [run, hwithin]
    exact ih _ (hkeep (.within (run_steady hsecond hsecond' body) container context) h)
  | child index node next ih =>
    have hchild : context.visitChild first.visit index node =
        context.visitChild second.visit index node := visitChild_congr (hvisit _ _ _ h)
    simp only [run, hchild]
    exact ih _ (hkeep (.visitChild hsecond index node context) h)
  | render document next ih =>
    simp only [run, hrender document context h]
    exact ih _ (hkeep (hsecond' document context) h)

namespace Registry

variable (registry : Registry)

theorem invoke_steady {dispatcher : Dispatcher}
    (hvisit : ∀ node context, Steady context (dispatcher.visit node context).2)
    (hrender : ∀ document context, Steady context (dispatcher.render document context).2)
    (node : Node) (context : Context) :
    Steady context (registry.invoke dispatcher node context).2 := by
  unfold invoke
  split
  · exact .refl context
  · exact Program.run_steady hvisit hrender _ context

theorem descend_steady (budget : Nat) (node : Node) (context : Context) :
    Steady context (registry.descend budget node context).2 := by
  induction budget generalizing node context with
  | zero => exact .refl context
  | succ budget ih => exact registry.invoke_steady ih (fun _ context => .refl context) node context

theorem render_steady (document : Node) (context : Context) :
    Steady context (registry.render document context).2 :=
  Steady.renderWith (fun node entered => registry.descend_steady entered.budget node entered)
    document context

theorem explore_steady (budget : Nat) (node : Node) (context : Context) :
    Steady context (registry.explore budget node context).2 := by
  induction budget generalizing node context with
  | zero => exact .refl context
  | succ budget ih =>
    refine registry.invoke_steady (fun child entered => ?_) registry.render_steady node context
    show Steady entered (if entered.phase = .idle then _ else _ : Outcome).2
    split
    · exact ih child entered
    · exact registry.descend_steady _ child entered

theorem visit_steady (node : Node) (context : Context) :
    Steady context (registry.dispatcher.visit node context).2 := by
  show Steady context (if context.phase = .idle then _ else _ : Outcome).2
  split
  · exact registry.explore_steady _ node context
  · exact registry.descend_steady _ node context

/-- **Whatever a program does, it ends on the level where it began**, unless it contained
the render of the context. -/
theorem run_steady (program : Program) (context : Context) :
    Steady context (registry.run program context).2 :=
  Program.run_steady registry.visit_steady registry.render_steady program context

/-! ## One dispatcher for all levels -/

/-- The program that a node calls for where the context stands. -/
def dispatch (node : Node) (context : Context) : Program :=
  if context.options.maxDepth < context.trail.length then
    .done (.error (.depthLimitExceeded context.options.maxDepth context.path))
  else
    match registry.resolve node.kind with
    | none => .done (.error (.unregisteredKind node.kind context.path))
    | some renderer => renderer.write node

theorem budget_enter {context : Context} {budget : Nat} (h : context.budget = budget + 1)
    (step : PathStep) : (context.enter step).budget = budget := by
  have hlength : (context.enter step).trail.length = context.trail.length + 1 := rfl
  have hoptions : (context.enter step).options = context.options := rfl
  rw [Context.budget] at h ⊢
  rw [hlength, hoptions]
  omega

/-- A steady change keeps the budget, unless a render has come to its end in between. -/
theorem budget_eq_of_steady {before after : Context} (h : Steady before after)
    (hphase : after.phase = before.phase) : after.budget = before.budget := by
  simp only [Context.budget, h.options, h.trail hphase]

/-- On a context in use, the budget that is passed down is the one that the context has. -/
theorem run_descend {context : Context} {budget : Nat} (hused : context.phase ≠ .idle)
    (hb : context.budget = budget + 1) (program : Program) :
    program.run ⟨registry.descend budget, fun _ => Context.refuse⟩ context =
      registry.run program context := by
  refine Program.run_congr (P := fun context => context.phase ≠ .idle ∧ context.budget = budget + 1)
    registry.visit_steady registry.render_steady ?_ ?_ ?_ program ⟨hused, hb⟩
  · rintro before after h ⟨hp, hbefore⟩
    have hphase := h.phase hp
    exact ⟨hphase ▸ hp, (budget_eq_of_steady h hphase).trans hbefore⟩
  · rintro step child context ⟨hp, hbudget⟩
    have hentered : (context.enter step).phase ≠ .idle := hp
    simp only [dispatcher, hentered, ↓reduceIte, budget_enter hbudget]
  · rintro document context ⟨hp, -⟩
    exact (if_neg hp).symm

/-- The same while the context may be idle. -/
theorem run_explore {context : Context} {budget : Nat}
    (hb : context.phase = .idle → context.budget = budget + 1) (program : Program) :
    program.run
        { visit := fun child entered =>
            if entered.phase = .idle then
              registry.explore budget child entered
            else
              registry.descend entered.budget child entered
          render := registry.render } context =
      registry.run program context := by
  refine Program.run_congr (P := fun context => context.phase = .idle → context.budget = budget + 1)
    registry.visit_steady registry.render_steady ?_ ?_ ?_ program hb
  · intro before after h hbefore hidle
    have hphase : before.phase = .idle := by
      apply Classical.byContradiction
      intro hne
      exact hne ((h.phase hne).symm.trans hidle)
    exact (budget_eq_of_steady h (hidle.trans hphase.symm)).trans (hbefore hphase)
  · intro step child context hbudget
    by_cases hidle : (context.enter step).phase = .idle
    · simp only [dispatcher, hidle, ↓reduceIte, budget_enter (hbudget hidle)]
    · simp only [dispatcher, hidle, ↓reduceIte]
  · exact fun _ _ _ => rfl

/-- **To visit a node is to run the program that it calls for**, with all that is below
visited in the same way. -/
theorem dispatcher_visit (node : Node) (context : Context) :
    registry.dispatcher.visit node context =
      registry.run (registry.dispatch node context) context := by
  have hdispatch : context.options.maxDepth < context.trail.length ↔ context.budget = 0 := by
    rw [Context.budget]
    omega
  show (if context.phase = .idle then _ else _ : Outcome) = _
  cases hb : context.budget with
  | zero =>
    simp only [explore, descend, ite_self, dispatch, hdispatch.mpr hb, ↓reduceIte]
    rfl
  | succ budget =>
    have hlt : ¬ context.options.maxDepth < context.trail.length := fun h => by
      rw [hdispatch.mp h] at hb
      cases hb
    simp only [explore, descend, invoke, dispatch, hlt, ↓reduceIte]
    cases registry.resolve node.kind with
    | none => exact ite_self _
    | some renderer =>
      split
      · exact registry.run_explore (fun _ => hb) _
      · exact registry.run_descend ‹_› hb _

/-- A render on an idle context visits the document. -/
theorem render_of_idle (document : Node) {context : Context} (h : context.phase = .idle) :
    registry.render document context =
      conclude (registry.dispatcher.visit document (context.begin document)) :=
  if_pos h

/-- On a context in use it is refused. -/
theorem render_of_used (document : Node) {context : Context} (h : context.phase ≠ .idle) :
    registry.render document context = context.refuse :=
  if_neg h

theorem dispatch_of_tooDeep {node : Node} {context : Context}
    (h : context.options.maxDepth < context.trail.length) :
    registry.dispatch node context =
      .done (.error (.depthLimitExceeded context.options.maxDepth context.path)) :=
  if_pos h

/-! A program goes on with the outcome of its first operation. -/

theorem run_within (container : Container) (body : Program)
    (next : Except RenderError Unit → Program) (context : Context) :
    registry.run (.within container body next) context =
      registry.run (next (context.within container (registry.run body)).1)
        (context.within container (registry.run body)).2 := rfl

theorem run_child (index : Nat) (node : Node) (next : Except RenderError Unit → Program)
    (context : Context) :
    registry.run (.child index node next) context =
      registry.run (next (context.visitChild registry.dispatcher.visit index node).1)
        (context.visitChild registry.dispatcher.visit index node).2 := rfl

theorem run_render (document : Node) (next : Except RenderError Rendered → Program)
    (context : Context) :
    registry.run (.render document next) context =
      registry.run (next (registry.render document context).1)
        (registry.render document context).2 := rfl

end Registry

/-! ## Induction over calls -/

namespace Context

variable {context after : Context}

/-- How deeply programs on the context can still cause others to be run: an idle context
has a whole render before it, besides the levels that are left now. -/
def reserve (context : Context) : Nat :=
  context.budget + if context.phase = .idle then context.options.maxDepth + 2 else 0

theorem budget_le (context : Context) : context.budget ≤ context.options.maxDepth + 1 :=
  Nat.sub_le _ _

theorem reserve_le_of_steady (h : Steady context after) : after.reserve ≤ context.reserve := by
  have hbound := budget_le after
  rw [h.options] at hbound
  by_cases hphase : after.phase = context.phase
  · simp only [reserve, h.options, hphase, Registry.budget_eq_of_steady h hphase, Nat.le_refl]
  · have hidle : context.phase = .idle :=
      Classical.byContradiction fun hne => hphase (h.phase hne)
    rw [hidle] at hphase
    simp only [reserve, hidle, hphase, ↓reduceIte]
    omega

theorem reserve_enter_lt {step : PathStep}
    (h : ¬ context.options.maxDepth < (context.enter step).trail.length) :
    (context.enter step).reserve < context.reserve := by
  have hlength : (context.enter step).trail.length = context.trail.length + 1 := rfl
  have hbudget : (context.enter step).budget < context.budget := by
    simp only [budget, show (context.enter step).options = context.options from rfl]
    omega
  exact Nat.add_lt_add_right hbudget _

theorem reserve_begin_lt (h : context.phase = .idle) (document : Node) :
    (context.begin document).reserve < context.reserve := by
  have hbound : (context.begin document).budget ≤ context.options.maxDepth + 1 :=
    budget_le (context.begin document)
  have hphase : (context.begin document).phase ≠ .idle := by simp [begin, enter]
  simp only [reserve, h, hphase, ↓reduceIte]
  omega

end Context

/-- **Induction over calls.**  What holds of a program on a context if it holds of every
program that is run in the course of it holds of every program: the bodies of scopes, the
programs of the nodes that are visited, and what comes after each of them. -/
theorem Program.call_induction (registry : Registry) {motive : Program → Context → Prop}
    (done : ∀ result context, motive (.done result) context)
    (look : ∀ next context, motive (next context.view) context → motive (.look next) context)
    (notify : ∀ notice next context, motive next (context.notify notice) →
      motive (.notify notice next) context)
    (edit : ∀ change next context,
      motive (next (context.attempt change).1) (context.attempt change).2 →
      motive (.edit change next) context)
    (within : ∀ container body next context,
      (∀ opened, context.edit (.push container) = .ok opened → motive body opened) →
      motive (next (context.within container (registry.run body)).1)
        (context.within container (registry.run body)).2 →
      motive (.within container body next) context)
    (child : ∀ index node next context,
      motive (registry.dispatch node (context.enter ⟨node.kind, index⟩))
        (context.enter ⟨node.kind, index⟩) →
      motive (next (context.visitChild registry.dispatcher.visit index node).1)
        (context.visitChild registry.dispatcher.visit index node).2 →
      motive (.child index node next) context)
    (render : ∀ document next context,
      (context.phase = .idle →
        motive (registry.dispatch document (context.begin document)) (context.begin document)) →
      motive (next (registry.render document context).1) (registry.render document context).2 →
      motive (.render document next) context)
    (program : Program) (context : Context) : motive program context := by
  suffices key : ∀ bound program context, context.reserve ≤ bound → motive program context from
    key _ program context (Nat.le_refl _)
  intro bound
  induction bound using Nat.strongRecOn with
  | ind bound ihBound =>
    have called : ∀ node (entered : Context),
        (¬ entered.options.maxDepth < entered.trail.length → entered.reserve < bound) →
        motive (registry.dispatch node entered) entered := by
      intro node entered h
      by_cases hdeep : entered.options.maxDepth < entered.trail.length
      · rw [registry.dispatch_of_tooDeep hdeep]
        exact done _ _
      · exact ihBound _ (h hdeep) _ _ (Nat.le_refl _)
    intro program
    induction program with
    | done result => exact fun context _ => done result context
    | look next ih => exact fun context h => look next context (ih _ context h)
    | notify notice next ih =>
      exact fun context h => notify notice next context
        (ih _ (Nat.le_trans (reserve_le_of_steady (.notify notice context)) h))
    | edit change next ih =>
      exact fun context h => edit change next context
        (ih _ _ (Nat.le_trans (reserve_le_of_steady (.attempt change context)) h))
    | within container body next ihBody ih =>
      intro context h
      refine within container body next context ?_ (ih _ _ ?_)
      · intro opened hopen
        exact ihBody opened (Nat.le_trans (reserve_le_of_steady (.edit hopen)) h)
      · exact Nat.le_trans
          (reserve_le_of_steady (.within (registry.run_steady body) container context)) h
    | child index node next ih =>
      intro context h
      refine child index node next context (called node _ fun hdeep => ?_) (ih _ _ ?_)
      · exact Nat.lt_of_lt_of_le (reserve_enter_lt hdeep) h
      · exact Nat.le_trans
          (reserve_le_of_steady (.visitChild registry.visit_steady index node context)) h
    | render document next ih =>
      intro context h
      refine render document next context (fun hidle => called document _ fun _ => ?_) (ih _ _ ?_)
      · exact Nat.lt_of_lt_of_le (reserve_begin_lt hidle document) h
      · exact Nat.le_trans (reserve_le_of_steady (registry.render_steady document context)) h

end Rendition
