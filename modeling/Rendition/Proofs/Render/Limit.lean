import Rendition.Proofs.Render.Retune
import Rendition.Proofs.Renderer.Honesty
import Rendition.Proofs.Renderer.Propagation

/-!
# Greater depth limits

A depth limit that is not exceeded might as well have been greater: the render comes out the
same (`render_eq_of_limit_le`).  This holds of renderers that **surrender** to the first error
that they are handed (`Program.Surrenders`) and do not look at the limit
(`Program.IgnoresLimit`), as the built-in ones do.

The two runs are in the same state, but for the limit (`Context.deepen`), up to the first error.
If that is an error of the smaller limit, it is what the render ends with.  If it is any other
error, the other run has come upon it as well, and both end with it.  What they do on the way out
may differ, since renderers may have more rendered there, and so the states they end in may; but
nothing of that is handed out.  `Context.Accords` says this of what two runs have come to.
-/

namespace Rendition

/-! ## Renderers that surrender to errors -/

namespace Program

/-- Whatever it comes upon, the program ends with the error.  It may have more rendered before. -/
def FailsWith (error : RenderError) : Program → Prop
  | done result => result = .error error
  | look next => ∀ view, (next view).FailsWith error
  | notify _ next => next.FailsWith error
  | edit _ next | within _ _ next | child _ _ next => ∀ result, (next result).FailsWith error
  | render _ next => ∀ result, (next result).FailsWith error

/-- The program ends with the first error that an operation of it comes back with. -/
def Surrenders : Program → Prop
  | done _ => True
  | look next => ∀ view, (next view).Surrenders
  | notify _ next => next.Surrenders
  | edit _ next | child _ _ next =>
    (∀ error, (next (.error error)).FailsWith error) ∧ (next (.ok ())).Surrenders
  | within _ body next =>
    body.Surrenders ∧ (∀ error, (next (.error error)).FailsWith error) ∧
      (next (.ok ())).Surrenders
  | render _ next =>
    (∀ error, (next (.error error)).FailsWith error) ∧ ∀ output, (next (.ok output)).Surrenders

theorem EndsWith.failsWith {program : Program} {error : RenderError} (h : program.EndsWith error) :
    program.FailsWith error := by
  induction program with
  | done result => exact h
  | look _ ih => exact fun view => ih view (h view)
  | notify _ _ ih => exact ih h
  | edit _ _ ih => exact fun result => ih result (h result)
  | within | child | render => cases h

/-- Who passes an error on at once surrenders to it. -/
theorem PassesOn.surrenders {program : Program} (h : program.PassesOn) : program.Surrenders := by
  induction program with
  | done result => trivial
  | look _ ih => exact fun view => ih view (h view)
  | notify _ _ ih => exact ih h
  | edit _ _ ih | child _ _ _ ih => exact ⟨fun error => (h.1 error).failsWith, ih _ h.2⟩
  | within _ _ _ ihBody ih =>
    exact ⟨ihBody h.1, fun error => (h.2.1 error).failsWith, ih _ h.2.2⟩
  | render _ _ ih => exact ⟨fun error => (h.1 error).failsWith, fun output => ih _ (h.2 output)⟩

theorem FailsWith.run {program : Program} {error : RenderError} (h : program.FailsWith error)
    (dispatcher : Dispatcher) (context : Context) :
    (program.run dispatcher context).1 = .error error := by
  induction program generalizing context with
  | done result => exact h
  | look _ ih => exact ih _ (h _) context
  | notify _ _ ih => exact ih h _
  | edit _ _ ih | child _ _ _ ih | render _ _ ih => exact ih _ (h _) _
  | within _ _ _ _ ih => exact ih _ (h _) _

end Program

/-! ## Renderers that do not look at the limit -/

/-- What a context with another depth limit looks like. -/
def View.withLimit (limit : Nat) (view : View) : View :=
  { view with options := { view.options with maxDepth := limit } }

namespace Program

/-- The program does the same whatever the depth limit is that it could see. -/
def IgnoresLimit : Program → Prop
  | done _ => True
  | look next =>
    (∀ view limit, next (view.withLimit limit) = next view) ∧ ∀ view, (next view).IgnoresLimit
  | notify _ next => next.IgnoresLimit
  | edit _ next | child _ _ next => ∀ result, (next result).IgnoresLimit
  | within _ body next => body.IgnoresLimit ∧ ∀ result, (next result).IgnoresLimit
  | render _ next => ∀ result, (next result).IgnoresLimit

theorem Plain.ignoresLimit {node : Node} {program : Program} (h : program.Plain node) :
    program.IgnoresLimit := by
  cases h with
  | skip => trivial
  | leaf content => exact fun _ => trivial
  | children => exact children_induction trivial (fun _ => trivial) fun _ _ _ _ hnext => hnext

theorem Built.ignoresLimit {node : Node} {program : Program} (h : program.Built node) :
    program.IgnoresLimit := by
  induction h with
  | reject defect => exact ⟨fun _ _ => rfl, fun _ => trivial⟩
  | plain h => exact h.ignoresLimit
  | enclose kind h => exact ⟨h.ignoresLimit, fun _ => trivial⟩
  | degrade defect h =>
    refine ⟨fun _ _ => rfl, fun view => ?_⟩
    by_cases hstrict : view.options.strict
    · simp only [hstrict, ↓reduceIte]
      trivial
    · simp only [hstrict]
      exact h.ignoresLimit
  | around _ ih => exact ⟨fun _ _ => rfl, fun view => ih view.current⟩

end Program

/-- The built-in renderers do not look at the depth limit. -/
theorem Registry.ignoresLimit_defaults : Registry.defaults.Writes Program.IgnoresLimit :=
  writes_ofList fun entry hentry node =>
    ((Renderer.isBuiltin_of_mem entry hentry).built node).ignoresLimit

/-- They surrender to errors. -/
theorem Registry.surrenders_defaults : Registry.defaults.Writes Program.Surrenders :=
  fun kind renderer hresolve node => (passesOn_defaults kind renderer hresolve node).surrenders

/-! ## Two runs -/

namespace Context

variable {context : Context} {limit : Nat} {shallow deep : Outcome}

/-- The same context with another depth limit. -/
def deepen (limit : Nat) (context : Context) : Context :=
  context.retune (fun options => { options with maxDepth := limit }) id

theorem notify_deepen (limit : Nat) (notice : Notice) (context : Context) :
    (context.deepen limit).notify notice = (context.notify notice).deepen limit := by
  cases notice <;> rfl

/-- What two runs have come to, the one under some limit and the other under a greater one.
Either all is the same but for the limit; or both have failed with the same error; or the first
has failed because of its limit. -/
def Accords (limit : Nat) (shallow deep : Outcome) : Prop :=
  match shallow.1 with
  | .ok () => deep = (.ok (), shallow.2.deepen limit)
  | .error error => error.isDepthLimit = true ∨ deep.1 = .error error

namespace Accords

theorem same (h : deep = (shallow.1, shallow.2.deepen limit)) : Accords limit shallow deep := by
  obtain ⟨result, after⟩ := shallow
  cases result with
  | ok => exact h
  | error error => exact Or.inr (congrArg Prod.fst h)

theorem failed {error : RenderError} (hshallow : shallow.1 = .error error)
    (hdeep : deep.1 = .error error) : Accords limit shallow deep := by
  unfold Accords
  rw [hshallow]
  exact Or.inr hdeep

theorem exceeded {error : RenderError} (hshallow : shallow.1 = .error error)
    (h : error.isDepthLimit = true) : Accords limit shallow deep := by
  unfold Accords
  rw [hshallow]
  exact Or.inl h

/-- The end of a scope. -/
theorem settle (depth : Nat) (h : Accords limit shallow deep) :
    Accords limit (Context.settle depth shallow) (Context.settle depth deep) := by
  obtain ⟨result, after⟩ := shallow
  cases result with
  | ok =>
    obtain rfl : deep = (.ok (), after.deepen limit) := h
    exact same ((aside_retune _ id).settle depth (.ok (), after))
  | error error =>
    have hshallow : (Context.settle depth (.error error, after)).1 = .error error :=
      settle_of_error rfl
    rcases h with hlimit | hdeep
    · exact exceeded hshallow hlimit
    · exact failed hshallow (settle_of_error hdeep)

/-- The way back up from a child. -/
theorem leave (h : Accords limit shallow deep) :
    Accords limit (shallow.1, shallow.2.leave) (deep.1, deep.2.leave) := by
  obtain ⟨result, after⟩ := shallow
  cases result with
  | ok =>
    obtain rfl : deep = (.ok (), after.deepen limit) := h
    exact same rfl
  | error error => exact h

/-- The end of a render hands out the same, unless the smaller limit was exceeded. -/
theorem conclude (h : Accords limit shallow deep) :
    (∃ error, (Context.conclude shallow).1 = .error error ∧ error.isDepthLimit = true) ∨
      (Context.conclude deep).1 = (Context.conclude shallow).1 := by
  obtain ⟨result, after⟩ := shallow
  cases result with
  | ok =>
    obtain rfl : deep = (.ok (), after.deepen limit) := h
    have hconclude : Context.conclude (.ok (), after.deepen limit) =
        ((Context.conclude (.ok (), after)).1, (Context.conclude (.ok (), after)).2.deepen limit) :=
      conclude_retune _ id (.ok (), after)
    rw [hconclude]
    exact Or.inr rfl
  | error error =>
    rcases h with hlimit | hdeep
    · exact Or.inl ⟨error, rfl, hlimit⟩
    · exact Or.inr (conclude_of_error hdeep)

/-- What goes on from there, and surrenders to errors. -/
theorem next {registry : Registry} {next : Except RenderError Unit → Program}
    (h : Accords limit shallow deep) (hfails : ∀ error, (next (.error error)).FailsWith error)
    (hnext : shallow.1 = .ok () →
      Accords limit (registry.run (next (.ok ())) shallow.2)
        (registry.run (next (.ok ())) (shallow.2.deepen limit))) :
    Accords limit (registry.run (next shallow.1) shallow.2)
      (registry.run (next deep.1) deep.2) := by
  obtain ⟨result, after⟩ := shallow
  cases result with
  | ok =>
    obtain rfl : deep = (.ok (), after.deepen limit) := h
    exact hnext rfl
  | error error =>
    have hshallow : (registry.run (next (.error error)) after).1 = .error error :=
      (hfails error).run _ after
    rcases h with hlimit | hdeep
    · exact exceeded hshallow hlimit
    · refine failed hshallow ?_
      rw [hdeep]
      exact (hfails error).run _ deep.2

end Accords
end Context

open Context

namespace Registry

variable {registry : Registry} {limit : Nat}

/-- Where a node is not nested too deeply, it calls for the same under a greater limit. -/
theorem dispatch_deepen {context : Context} (node : Node)
    (hdeep : ¬ context.options.maxDepth < context.trail.length)
    (hle : context.options.maxDepth ≤ limit) :
    registry.dispatch node (context.deepen limit) = registry.dispatch node context := by
  have hdeep' : ¬ limit < context.trail.length := by omega
  unfold dispatch
  rw [if_neg hdeep]
  exact if_neg hdeep'

/-- Two visits of a node under different limits accord, if two runs of the program do that it
calls for. -/
theorem accords_visit_of {context : Context} {node : Node}
    (hle : context.options.maxDepth ≤ limit)
    (hrun : ¬ context.options.maxDepth < context.trail.length →
      Accords limit (registry.run (registry.dispatch node context) context)
        (registry.run (registry.dispatch node context) (context.deepen limit))) :
    Accords limit (registry.dispatcher.visit node context)
      (registry.dispatcher.visit node (context.deepen limit)) := by
  rw [dispatcher_visit, dispatcher_visit]
  by_cases hdeep : context.options.maxDepth < context.trail.length
  · rw [registry.dispatch_of_tooDeep hdeep]
    exact .exceeded rfl rfl
  · rw [dispatch_deepen node hdeep hle]
    exact hrun hdeep

/-- **Two runs under different limits accord**, if all that is run surrenders to errors and does
not look at the limit. -/
theorem accords_run (hsurrenders : registry.Writes Program.Surrenders)
    (hignores : registry.Writes Program.IgnoresLimit) {program : Program} {context : Context}
    (hprogram : program.Surrenders) (hlook : program.IgnoresLimit)
    (hused : context.phase ≠ .idle) (hle : context.options.maxDepth ≤ limit) :
    Accords limit (registry.run program context) (registry.run program (context.deepen limit)) := by
  induction program, context using Program.call_induction registry with
  | done result context => exact .same rfl
  | look next context ih =>
    have hview : next (context.deepen limit).view = next context.view := hlook.1 context.view limit
    have hrun : registry.run (.look next) (context.deepen limit) =
        registry.run (next context.view) (context.deepen limit) := by
      show registry.run (next (context.deepen limit).view) _ = _
      rw [hview]
    rw [hrun]
    exact ih (hprogram context.view) (hlook.2 context.view) hused hle
  | notify notice next context ih =>
    have hsteady := Steady.notify notice context
    have hnext := ih hprogram hlook (hsteady.phase hused ▸ hused) (hsteady.options ▸ hle)
    rw [← notify_deepen] at hnext
    exact hnext
  | edit change next context ih =>
    have hsteady := Steady.attempt change context
    have hattempt :
        Accords limit (context.attempt change) ((context.deepen limit).attempt change) :=
      .same ((aside_retune _ id).attempt change context)
    refine hattempt.next hprogram.1 fun hok => ?_
    have hnext := ih (by rw [hok]; exact hprogram.2) (hlook _)
      (hsteady.phase hused ▸ hused) (hsteady.options ▸ hle)
    rwa [hok] at hnext
  | within container body next context ihBody ih =>
    have hsteady := Steady.within (registry.run_steady body) container context
    have hwithin : Accords limit (context.within container (registry.run body))
        ((context.deepen limit).within container (registry.run body)) := by
      have hedit := (aside_retune (fun options => { options with maxDepth := limit }) id).edit
        (.push container) context
      unfold Context.within
      rw [deepen, hedit]
      cases hopen : context.edit (.push container) with
      | error error => exact .failed rfl rfl
      | ok opened =>
        have hopened := Steady.edit hopen
        exact (ihBody opened hopen hprogram.1 hlook.1 (hopened.phase hused ▸ hused)
          (hopened.options ▸ hle)).settle context.depth
    refine hwithin.next hprogram.2.1 fun hok => ?_
    have hnext := ih (by rw [hok]; exact hprogram.2.2) (hlook.2 _)
      (hsteady.phase hused ▸ hused) (hsteady.options ▸ hle)
    rwa [hok] at hnext
  | child index node next context ihNode ih =>
    have hsteady := Steady.visitChild registry.visit_steady index node context
    have hvisit : Accords limit
        (registry.dispatcher.visit node (context.enter ⟨node.kind, index⟩))
        (registry.dispatcher.visit node ((context.enter ⟨node.kind, index⟩).deepen limit)) := by
      refine accords_visit_of hle fun _ => ?_
      exact ihNode (hsurrenders.dispatch node (fun _ => trivial) trivial)
        (hignores.dispatch node (fun _ => trivial) trivial) hused hle
    have hchild : Accords limit (context.visitChild registry.dispatcher.visit index node)
        ((context.deepen limit).visitChild registry.dispatcher.visit index node) := by
      have hsame : (context.deepen limit).isCancelled = context.isCancelled := rfl
      cases hc : context.isCancelled with
      | true =>
        rw [visitChild_of_cancelled hc, visitChild_of_cancelled (hsame.trans hc)]
        exact .same rfl
      | false =>
        rw [visitChild_of_not_cancelled hc, visitChild_of_not_cancelled (hsame.trans hc)]
        exact hvisit.leave
    refine hchild.next hprogram.1 fun hok => ?_
    have hnext := ih (by rw [hok]; exact hprogram.2) (hlook _)
      (hsteady.phase hused ▸ hused) (hsteady.options ▸ hle)
    rwa [hok] at hnext
  | render document next context ihNode ih =>
    -- the context is in use, so both runs are refused the render
    have hused' : (context.deepen limit).phase ≠ .idle := hused
    have hfails := hprogram.1 (context.violation (.reused context.phase))
    have hend : (registry.run (.render document next) context).1 =
        .error (context.violation (.reused context.phase)) := by
      rw [run_render, registry.render_of_used document hused]
      exact hfails.run _ _
    have hend' : (registry.run (.render document next) (context.deepen limit)).1 =
        .error (context.violation (.reused context.phase)) := by
      rw [run_render, registry.render_of_used document hused']
      exact hfails.run _ _
    exact .failed hend hend'

theorem accords_visit (hsurrenders : registry.Writes Program.Surrenders)
    (hignores : registry.Writes Program.IgnoresLimit) (node : Node) {context : Context}
    (hused : context.phase ≠ .idle) (hle : context.options.maxDepth ≤ limit) :
    Accords limit (registry.dispatcher.visit node context)
      (registry.dispatcher.visit node (context.deepen limit)) := by
  refine accords_visit_of hle fun _ => ?_
  exact accords_run hsurrenders hignores (hsurrenders.dispatch node (fun _ => trivial) trivial)
    (hignores.dispatch node (fun _ => trivial) trivial) hused hle

end Registry

/-- **A depth limit that is not exceeded has no part in a render.**  If renderers surrender to
errors and do not look at the limit, a render that does not fail because of its limit comes out
the same under every greater limit: with the same root and warnings, or with the same error. -/
theorem render_eq_of_limit_le (registry : Registry)
    (hsurrenders : registry.Writes Program.Surrenders)
    (hignores : registry.Writes Program.IgnoresLimit) (document : Node) (strict : Bool)
    (signal : Option Bool) {limit limit' : Nat} (hle : limit ≤ limit') :
    let shallow := registry.render document { options := { strict, maxDepth := limit }, signal }
    let deep := registry.render document { options := { strict, maxDepth := limit' }, signal }
    (∀ found path, shallow.1 ≠ .error (.depthLimitExceeded found path)) →
      deep.1 = shallow.1 := by
  intro shallow deep hwithin
  let context : Context := { options := { strict, maxDepth := limit }, signal }
  have hshallow : shallow =
      conclude (registry.dispatcher.visit document (context.begin document)) :=
    Registry.render_of_idle registry document rfl
  have hdeep : deep =
      conclude (registry.dispatcher.visit document ((context.begin document).deepen limit')) :=
    Registry.render_of_idle registry document rfl
  have haccords : Accords limit' (registry.dispatcher.visit document (context.begin document))
      (registry.dispatcher.visit document ((context.begin document).deepen limit')) :=
    Registry.accords_visit hsurrenders hignores document nofun hle
  rcases haccords.conclude with ⟨error, hexceeded, hlimit⟩ | hsame
  · cases error with
    | depthLimitExceeded found path => exact absurd (hshallow ▸ hexceeded) (hwithin found path)
    | _ => cases hlimit
  · rw [hdeep, hshallow]
    exact hsame

/-- A link without a destination four levels down, under a limit of four and under a greater one. -/
theorem render_eq_of_limit_le_link :
    let link : Node := (Node.ofKind .link).withChild (.text "a")
    let document : Node := .document [.paragraph [link]]
    let shallow := Registry.defaults.render document { options := { maxDepth := 4 } }
    let deep := Registry.defaults.render document { options := { maxDepth := 128 } }
    Registry.defaults.Writes Program.Surrenders ∧ Registry.defaults.Writes Program.IgnoresLimit ∧
    4 ≤ 128 ∧ (∀ found path, shallow.1 ≠ .error (.depthLimitExceeded found path)) ∧
    deep.1 = shallow.1 := by
  intro link document shallow deep
  have hwithin : ∀ found path, shallow.1 ≠ .error (.depthLimitExceeded found path) := by
    intro found path hexceeded
    have hrendered : (shallow.1.map fun output => output.warnings.length) = .ok 1 := rfl
    rw [hexceeded] at hrendered
    cases hrendered
  exact ⟨Registry.surrenders_defaults, Registry.ignoresLimit_defaults, by decide, hwithin,
    render_eq_of_limit_le Registry.defaults Registry.surrenders_defaults
      Registry.ignoresLimit_defaults document false none (by decide) hwithin⟩

end Rendition
