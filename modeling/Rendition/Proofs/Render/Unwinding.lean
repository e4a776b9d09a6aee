import Rendition.Proofs.Render.Atomicity

/-!
# What scopes restore

A scope promises to put the stack back on every way out.  When it ends it looks at the number
of open containers only, and that number tells what it should for any body that leaves the
container of the scope open (`Context.StillOpen`).  Such a body may open and close containers of
its own in any order, fail at any moment, and leave behind what it likes: the containers that
were open before are found below the container of the scope, as they were, and all else is
discarded or attached as one container (`within_restores`).

A body may however close the container of the scope, and those around it, by pops of its own.
They are attached to their parents then, and nothing brings them back.  If the body fails after
that, containers are missing from the stack; if it opens as many others instead, the scope
succeeds all the same (`within_not_restoring`).  All that is left is a bound on the number of
open containers (`Context.depth_within`).
-/

namespace Rendition

/-- One more element at the end of what has been appended to a container. -/
theorem Container.append_append (container : Container) (more : List Element) (element : Element) :
    { container with children := container.children ++ more }.append element =
      { container with children := container.children ++ (more ++ [element]) } := by
  rw [append, List.append_assoc]

namespace Context

variable {base before after opened : Context} {container : Container}

/-- A container that was opened on a context is still open.  Elements may have been appended to
it, and others may be open inside it; what was open before, and the root, are as they were. -/
def StillOpen (base : Context) (container : Container) (context : Context) : Prop :=
  ∃ inner more, context.built =
    (inner ++ { container with children := container.children ++ more } :: base.stack, base.root)

namespace StillOpen

theorem of_edit (h : base.edit (.push container) = .ok opened) :
    StillOpen base container opened := by
  rcases edit_cases h with ⟨_, hpush, -, rfl⟩ | ⟨_, _, hpop, -⟩ | ⟨_, _, _, hleaf, -⟩
  · cases hpush
    exact ⟨[], [], by rw [List.append_nil]; rfl⟩
  · cases hpop
  · cases hleaf

theorem of_built_eq (h : StillOpen base container before) (hbuilt : after.built = before.built) :
    StillOpen base container after := by
  obtain ⟨inner, more, hbefore⟩ := h
  exact ⟨inner, more, hbuilt.trans hbefore⟩

/-- As long as more containers are open than before, an edit of the stack does not reach below
the container. -/
theorem edit {change : Edit} (h : StillOpen base container before)
    (hedit : before.edit change = .ok after) (hdepth : base.depth < after.depth) :
    StillOpen base container after := by
  obtain ⟨inner, more, hbuilt⟩ := h
  obtain ⟨hstack, hroot⟩ := Prod.mk.inj hbuilt
  rcases edit_cases hedit with
    ⟨pushed, -, -, rfl⟩ | ⟨innermost, outer, -, hpop, rfl⟩ |
    ⟨content, innermost, outer, -, hleaf, rfl⟩
  · refine ⟨pushed :: inner, more, Prod.ext ?_ hroot⟩
    simp only [built, hstack, List.cons_append]
  · rw [hstack] at hpop
    rcases inner with _ | ⟨first, _ | ⟨second, inner⟩⟩ <;>
      simp only [List.nil_append, List.cons_append] at hpop
    · -- the container itself would have been closed
      exfalso
      obtain ⟨rfl, rfl⟩ := List.cons.inj hpop
      have hclosed : (before.attach { container with children := container.children ++ more }
          base.stack).depth = base.depth := by
        unfold attach Context.depth
        split
        · rename_i hnil
          simp only [hnil]
        · rename_i hcons
          simp only [hcons, List.length_cons]
      omega
    · obtain ⟨rfl, rfl⟩ := List.cons.inj hpop
      refine ⟨[], more ++ [first.toElement], Prod.ext ?_ hroot⟩
      exact congrArg (· :: base.stack) (container.append_append more first.toElement)
    · obtain ⟨rfl, rfl⟩ := List.cons.inj hpop
      exact ⟨second.append first.toElement :: inner, more, Prod.ext rfl hroot⟩
  · rw [hstack] at hleaf
    rcases inner with _ | ⟨first, inner⟩
    · obtain ⟨rfl, rfl⟩ := List.cons.inj hleaf
      refine ⟨[], more ++ [.leaf content], Prod.ext ?_ hroot⟩
      exact congrArg (· :: base.stack) (container.append_append more (.leaf content))
    · obtain ⟨rfl, rfl⟩ := List.cons.inj hleaf
      exact ⟨first.append (.leaf content) :: inner, more, Prod.ext rfl hroot⟩

/-- The same for the end of an inner scope that discards what was opened in it. -/
theorem truncate {depth : Nat} (h : StillOpen base container before)
    (hdepth : base.depth < (before.truncate depth).depth) :
    StillOpen base container (before.truncate depth) := by
  obtain ⟨inner, more, hbuilt⟩ := h
  obtain ⟨hstack, hroot⟩ := Prod.mk.inj hbuilt
  have hdropped : before.stack.length - depth ≤ inner.length := by
    simp only [Context.depth, Context.truncate, List.length_drop, hstack, List.length_append,
      List.length_cons] at hdepth ⊢
    omega
  refine ⟨inner.drop (before.stack.length - depth), more, Prod.ext ?_ hroot⟩
  simp only [built, Context.truncate]
  rw [hstack] at hdropped ⊢
  rw [List.drop_append_of_le_length hdropped]

/-- What is done between two operations does not reach below the container either. -/
theorem ordinary (h : StillOpen base container before) (hordinary : Registry.Ordinary before after)
    (hdepth : base.depth < after.depth) : StillOpen base container after := by
  cases hordinary with
  | stay => exact h
  | notify notice => exact h.of_built_eq (by cases notice <;> rfl)
  | edit hedit => exact h.edit hedit hdepth
  | truncate depth => exact h.truncate hdepth
  | enter | leave => exact h.of_built_eq rfl

/-- To keep only what was open before is to put all back. -/
theorem built_truncate (h : StillOpen base container after) :
    (after.truncate base.depth).built = base.built := by
  obtain ⟨inner, more, hbuilt⟩ := h
  obtain ⟨hstack, hroot⟩ := Prod.mk.inj hbuilt
  have hcount : after.stack.length - base.depth = inner.length + 1 := by
    rw [hstack, List.length_append, List.length_cons, Context.depth]
    omega
  have hdrop : after.stack.drop (after.stack.length - base.depth) = base.stack := by
    rw [hcount, hstack, List.drop_length_add_append, List.drop_one, List.tail_cons]
  exact Prod.ext hdrop hroot

/-- **How a scope is settled** whose container is still open: with all that was built before as
it was, or with the container attached to it, which nothing else is open in then. -/
theorem settle {outcome : Outcome} (h : StillOpen base container outcome.2) :
    (∃ error, (Context.settle base.depth outcome).1 = .error error ∧
      (Context.settle base.depth outcome).2.built = base.built) ∨
    (∃ more,
      outcome.2.built =
        ({ container with children := container.children ++ more } :: base.stack, base.root) ∧
      (Context.settle base.depth outcome).1 = .ok () ∧
      (Context.settle base.depth outcome).2.built =
        (base.attach { container with children := container.children ++ more }
          base.stack).built) := by
  obtain ⟨result, after⟩ := outcome
  cases result with
  | error error => exact Or.inl ⟨error, rfl, h.built_truncate⟩
  | ok =>
    by_cases hdepth : after.depth = base.depth + 1
    · obtain ⟨inner, more, hbuilt⟩ := h
      have hnil : inner = [] := by
        have hlength := congrArg (fun built => built.1.length) hbuilt
        simp only [built, List.length_append, List.length_cons] at hlength
        simp only [Context.depth] at hdepth
        exact List.length_eq_zero_iff.mp (by omega)
      subst hnil
      have hinnermost : ((.ok (), after) : Outcome).2.built =
          ({ container with children := container.children ++ more } :: base.stack, base.root) :=
        hbuilt
      rcases settle_cases hinnermost with ⟨_, hfailed, -⟩ | ⟨-, hresult, hafter⟩
      · cases hfailed
      · exact Or.inr ⟨more, hbuilt, hresult, hafter⟩
    · refine Or.inl ⟨after.violation (.unbalanced (base.depth + 1) after.depth), ?_, ?_⟩
      · simp only [Context.settle, hdepth, ↓reduceIte]
      · simp only [Context.settle, hdepth, ↓reduceIte]
        exact h.built_truncate

end StillOpen

/-! ## What holds of every body -/

/-- A scope that succeeds has found its body to have succeeded, with its container innermost by
their number. -/
theorem ok_of_settle {depth : Nat} {outcome : Outcome} (h : (settle depth outcome).1 = .ok ()) :
    outcome.1 = .ok () ∧ outcome.2.depth = depth + 1 := by
  obtain ⟨result, after⟩ := outcome
  cases result with
  | error error => cases h
  | ok =>
    by_cases hdepth : after.depth = depth + 1
    · exact ⟨rfl, hdepth⟩
    · simp only [settle, hdepth, ↓reduceIte] at h
      cases h

/-- However a scope is settled, it leaves no more containers open than there were, and no fewer
if it succeeds. -/
theorem depth_settle_le (depth : Nat) (outcome : Outcome) :
    (settle depth outcome).2.depth ≤ depth ∧
      ((settle depth outcome).1 = .ok () → (settle depth outcome).2.depth = depth) := by
  have htruncate : ∀ context : Context, (context.truncate depth).depth ≤ depth := by
    intro context
    simp only [Context.depth, truncate, List.length_drop]
    omega
  obtain ⟨result, after⟩ := outcome
  cases result with
  | error error =>
    refine ⟨htruncate after, fun hok => ?_⟩
    cases hok
  | ok =>
    by_cases hdepth : after.depth = depth + 1
    · have hsettled := depth_settle hdepth (.ok ())
      exact ⟨Nat.le_of_eq hsettled, fun _ => hsettled⟩
    · simp only [settle, hdepth, ↓reduceIte]
      refine ⟨htruncate after, fun hok => ?_⟩
      cases hok

/-- **After a scope no more containers are open than before**, whatever its body does.  If it
succeeds, there are just as many, since then the body has succeeded as well, and has left as many
containers open as it found. -/
theorem depth_within (container : Container) (body : Context → Outcome) (context : Context) :
    (context.within container body).2.depth ≤ context.depth ∧
    ((context.within container body).1 = .ok () →
      (context.within container body).2.depth = context.depth ∧
      ∃ opened, context.edit (.push container) = .ok opened ∧ (body opened).1 = .ok () ∧
        (body opened).2.depth = context.depth + 1) := by
  unfold within
  split
  · exact ⟨Nat.le_refl _, nofun⟩
  · rename_i opened hopen
    obtain ⟨hle, heq⟩ := depth_settle_le context.depth (body opened)
    refine ⟨hle, fun hok => ⟨heq hok, opened, hopen, ?_⟩⟩
    exact ok_of_settle hok

end Context

open Context

namespace Moment

variable {registry : Registry} {first second : Moment} {base : Context} {container : Container}

/-- A step leaves the container open if afterwards more containers are open than before. -/
theorem stillOpen_step (hs : registry.step first = some second)
    (h : StillOpen base container first.context) (hdepth : base.depth < second.context.depth) :
    StillOpen base container second.context := by
  rcases Registry.step_cases hs with
    ⟨hordinary, -⟩ | ⟨document, _, -, -, -, hcontext⟩ | ⟨result, _, -, -, hcontext⟩
  · exact h.ordinary hordinary hdepth
  · rw [hcontext]
    exact h.of_built_eq rfl
  · -- a render that ends leaves nothing open
    rw [hcontext, depth_conclude] at hdepth
    omega

/-- So does a run in the course of which more containers are open than before at all times. -/
theorem stillOpen_of_reaches (hr : registry.Reaches first second)
    (h : StillOpen base container first.context)
    (hdepth : ∀ moment, registry.Reaches first moment → base.depth < moment.context.depth) :
    StillOpen base container second.context := by
  induction hr with
  | refl => exact h
  | tail hr hs ih => exact stillOpen_step hs ih (hdepth _ (Registry.Reaches.after hr hs))

end Moment

open Moment

/-- **What a scope restores**, for any container, body and context, and whatever nodes the body
visits.  It leaves no more containers open than there were; it succeeds only if its body has
succeeded and has left as many containers open as it found, and then as many are open as before.
If at every moment of the body more containers are open than before, so that it closes none that
it has not opened, a scope that succeeds has attached its one container, completed by what the
body wrote to it, and a scope that fails has left the stack and the root exactly as they were. -/
theorem within_restores (registry : Registry) (container : Container) (body : Program)
    (context : Context) :
    let outcome := context.within container (registry.run body)
    outcome.2.depth ≤ context.depth ∧
    (outcome.1 = .ok () →
      outcome.2.depth = context.depth ∧
      ∃ opened, context.edit (.push container) = .ok opened ∧
        (registry.run body opened).1 = .ok () ∧
        (registry.run body opened).2.depth = context.depth + 1) ∧
    ((∀ opened, context.edit (.push container) = .ok opened → ∀ moment,
        registry.Reaches ⟨body, [], opened⟩ moment → context.depth < moment.context.depth) →
      match outcome.1 with
      | .ok () => ∃ opened more, context.edit (.push container) = .ok opened ∧
        (registry.run body opened).2.built =
          ({ container with children := container.children ++ more } :: context.stack,
            context.root) ∧
        outcome.2.built =
          (context.attach { container with children := container.children ++ more }
            context.stack).built
      | .error _ => outcome.2.built = context.built) := by
  intro outcome
  obtain ⟨hle, hok⟩ := depth_within container (registry.run body) context
  refine ⟨hle, hok, fun hdepth => ?_⟩
  have houtcome : outcome = context.within container (registry.run body) := rfl
  unfold Context.within at houtcome
  cases hopen : context.edit (.push container) with
  | error error =>
    simp only [hopen] at houtcome
    rw [houtcome]
  | ok opened =>
    simp only [hopen] at houtcome
    -- the body alone runs to its end, with the container open at all times
    have hend : registry.Reaches ⟨body, [], opened⟩
        ⟨.done (registry.run body opened).1, [], (registry.run body opened).2⟩ :=
      Registry.reaches_run body opened []
    have hstill : StillOpen context container (registry.run body opened).2 :=
      stillOpen_of_reaches hend (.of_edit hopen) (hdepth opened hopen)
    rcases hstill.settle with ⟨error, hresult, hbuilt⟩ | ⟨more, hbody, hresult, hbuilt⟩
    · rw [houtcome]
      simp only [hresult]
      exact hbuilt
    · rw [houtcome]
      simp only [hresult]
      exact ⟨opened, more, rfl, hbody, hbuilt⟩

/-- The body opens a container, writes to it and closes it. -/
theorem within_restores_inner :
    let context : Context := { stack := [.empty .listItem, .empty .document] }
    let body : Program := .seq (.push (.empty (.span .strong))) (.seq (.leaf (.text "a")) .pop)
    let run := Registry.empty.run body
    (∀ opened, context.edit (.push (.empty .paragraph)) = .ok opened → ∀ moment,
      Registry.empty.Reaches ⟨body, [], opened⟩ moment → context.depth < moment.context.depth) ∧
    (context.within (.empty .paragraph) run).1 = .ok () ∧
    ∃ more, (context.within (.empty .paragraph) run).2.built =
      (context.attach ⟨.paragraph, more⟩ context.stack).built := by
  intro context body run
  have hdepth : ∀ opened, context.edit (.push (.empty .paragraph)) = .ok opened → ∀ moment,
      Registry.empty.Reaches ⟨body, [], opened⟩ moment →
        context.depth < moment.context.depth := by
    rintro opened hopen
    obtain rfl := Except.ok.inj hopen
    refine Registry.Reaches.forall_of_step (by decide) rfl ?_
    refine Registry.Reaches.forall_of_step (by decide) rfl ?_
    refine Registry.Reaches.forall_of_step (by decide) rfl ?_
    exact Registry.Reaches.forall_of_final (by decide) rfl
  obtain ⟨-, -, hrestores⟩ :=
    within_restores Registry.empty (.empty .paragraph) body context
  obtain ⟨_, more, -, -, hbuilt⟩ := hrestores hdepth
  exact ⟨hdepth, rfl, more, hbuilt⟩

/-- **A body that closes what it has not opened is not always found out.**  If it fails after
that, a container is missing that was open before; if it opens as many containers as it closed,
the scope succeeds, but it has not attached its one container. -/
theorem within_not_restoring :
    let context : Context := { stack := [.empty .listItem, .empty .document] }
    let closing (rest : Program) : Program := .seq .pop (.seq .pop rest)
    let failing := closing (.reject (.ofKind .document) (.other "stop"))
    let replacing := closing (.seq (.push (.empty .listItem)) (.push (.empty .paragraph)))
    let failed := context.within (.empty .paragraph) (Registry.empty.run failing)
    let replaced := context.within (.empty .paragraph) (Registry.empty.run replacing)
    (failed.1 = .error (.invalidInput .document [] (.other "stop")) ∧
      failed.2.openNames = ["document"] ∧ context.openNames = ["document", "list_item"]) ∧
    (replaced.1 = .ok () ∧ ∀ more,
      replaced.2.built ≠ (context.attach ⟨.paragraph, more⟩ context.stack).built) := by
  intro context closing failing replacing failed replaced
  refine ⟨⟨rfl, rfl, rfl⟩, rfl, fun more hbuilt => ?_⟩
  -- the document has got the list item, which was to stay open
  have hcounts : [1, 1] = [1, 0] :=
    congrArg (fun built => built.1.map fun container => container.children.length) hbuilt
  cases hcounts

end Rendition
