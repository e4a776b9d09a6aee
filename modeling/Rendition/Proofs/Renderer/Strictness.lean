import Rendition.Proofs.Render.Retune
import Rendition.Proofs.Renderer.Depth

/-!
# Strict renders

With the built-in renderers strict mode changes one thing: where a lenient render records its
first warning, the strict one ends, with the error that the warning would have been
(`strict_render`).

This compares two runs.  As long as the lenient one has not warned, both are in the same state,
but for the option itself (`Context.stern`).  With the first warning they part for good, since
the strict one is left with an error that every renderer passes on, and whatever the lenient
one does then cannot take back the warning.  `Context.Parts` says this of what two runs have
come to, and it is kept by all that the treatments of nodes are put together from.
-/

namespace Rendition

/-- The warning says of a node what the error says of it. -/
def Warning.Announces (warning : Warning) (error : RenderError) : Prop :=
  ∃ kind defect, error = .invalidInput kind warning.path defect ∧
    warning.message = kind.name ++ ": " ++ defect.message

namespace Context

variable {context : Context} {registry : Registry}

/-- The same context in strict mode. -/
def stern (context : Context) : Context :=
  context.retune (fun options => { options with strict := true }) id

/-- What a lenient and a strict run have come to, which began on a context and on the same
context in strict mode.  Either the lenient one has not warned, and all is the same; or the
strict one has failed because of what the first of the new warnings is about. -/
def Parts (context : Context) (lenient strict : Outcome) : Prop :=
  ∃ more, lenient.2.warnings = context.warnings ++ more ∧
    match more with
    | [] => strict = (lenient.1, lenient.2.stern)
    | first :: _ => ∃ error, strict.1 = .error error ∧ first.Announces error

/-! ## The steps that do not look at the option -/

theorem aside_stern : Aside stern :=
  aside_retune _ id

theorem conclude_stern (outcome : Outcome) :
    conclude (outcome.1, outcome.2.stern) =
      ((conclude outcome).1, (conclude outcome).2.stern) :=
  conclude_retune _ id outcome

/-! ## How runs part -/

namespace Parts

variable {lenient strict : Outcome}

/-- Where nothing was warned of, the strict run is in the state of the lenient one. -/
theorem same (hwarnings : lenient.2.warnings = context.warnings)
    (hstrict : strict = (lenient.1, lenient.2.stern)) : Parts context lenient strict :=
  ⟨[], by rw [hwarnings, List.append_nil], hstrict⟩

/-- It does not matter since when, as long as there were no warnings. -/
theorem since {reached : Context} (h : Parts reached lenient strict)
    (hwarnings : reached.warnings = context.warnings) : Parts context lenient strict := by
  unfold Parts at h ⊢
  rwa [hwarnings] at h

/-- The end of a scope. -/
theorem settle (depth : Nat) (h : Parts context lenient strict) :
    Parts context (Context.settle depth lenient) (Context.settle depth strict) := by
  obtain ⟨more, hwarnings, hcase⟩ := h
  refine ⟨more, (warnings_settle depth lenient).trans hwarnings, ?_⟩
  cases more with
  | nil => exact (congrArg _ hcase).trans (aside_stern.settle depth lenient)
  | cons first later =>
    obtain ⟨error, hstrict, hannounces⟩ := hcase
    exact ⟨error, settle_of_error hstrict, hannounces⟩

/-- The way back up from a child. -/
theorem leave (h : Parts context lenient strict) :
    Parts context (lenient.1, lenient.2.leave) (strict.1, strict.2.leave) := by
  obtain ⟨more, hwarnings, hcase⟩ := h
  refine ⟨more, hwarnings, ?_⟩
  cases more with
  | nil =>
    obtain rfl := hcase
    rfl
  | cons first later => exact hcase

end Parts
end Context

open Context

namespace Program

variable {registry : Registry} {context : Context}

/-- A lenient and a strict run of the program part in no other way than with the first
warning. -/
def Degrades (registry : Registry) (program : Program) : Prop :=
  ∀ context, context.options.strict = false →
    Parts context (registry.run program context) (registry.run program context.stern)

/-- What goes on after success goes on from where the runs have come to. -/
theorem Degrades.onSuccess {next : Program} (hnext : next.Degrades registry)
    {lenient strict : Outcome} (h : Parts context lenient strict)
    (hlenient : lenient.2.options.strict = false) :
    Parts context (registry.run (.onSuccess next lenient.1) lenient.2)
      (registry.run (.onSuccess next strict.1) strict.2) := by
  obtain ⟨more, hwarnings, hcase⟩ := h
  cases more with
  | nil =>
    -- no warning yet: the strict run goes on as well, from the same state
    obtain rfl := hcase
    rw [List.append_nil] at hwarnings
    cases hresult : lenient.1 with
    | error error => exact .same hwarnings rfl
    | ok => exact (hnext lenient.2 hlenient).since hwarnings
  | cons first later =>
    -- the strict run is over, and the lenient one may add to the warnings only
    obtain ⟨error, hstrict, hannounces⟩ := hcase
    have hgrown : ∃ added, (registry.run (.onSuccess next lenient.1) lenient.2).2.warnings =
        lenient.2.warnings ++ added := by
      cases lenient.1 with
      | error error => exact ⟨[], (List.append_nil _).symm⟩
      | ok =>
        obtain ⟨added, hadded, -⟩ := hnext lenient.2 hlenient
        exact ⟨added, hadded⟩
    obtain ⟨added, hadded⟩ := hgrown
    refine ⟨first :: later ++ added, ?_, error, ?_, hannounces⟩
    · rw [hadded, hwarnings, List.append_assoc]
    · rw [hstrict]
      rfl

theorem Degrades.seq {first second : Program} (h : first.Degrades registry)
    (h' : second.Degrades registry) : (first.seq second).Degrades registry := by
  intro context hlenient
  simp only [Registry.run, run_seq]
  refine h'.onSuccess (h context hlenient) ?_
  exact (congrArg RenderOptions.strict (registry.run_steady first context).options).trans hlenient

theorem degrades_skip : skip.Degrades registry :=
  fun _ _ => .same rfl rfl

theorem degrades_reject (node : Node) (defect : Defect) : (reject node defect).Degrades registry :=
  fun _ _ => .same rfl rfl

theorem degrades_leaf? (content : Option Leaf) : (leaf? content).Degrades registry := by
  cases content with
  | none => exact degrades_skip
  | some content =>
    intro context _
    exact .same (warnings_attempt _ context) (aside_stern.attempt (.leaf content) context)

/-- **The complaint about a node is a warning, or else the error that it announces.** -/
theorem degrades_degrade (node : Node) (defect : Defect) :
    (degrade node defect).Degrades registry := by
  intro context hlenient
  have hwarned : registry.run (degrade node defect) context =
      (.ok (), context.notify (.warn s!"{node.kind}: {defect.message}")) := by
    change registry.run (if context.options.strict then _ else _) context = _
    rw [hlenient]
    rfl
  rw [hwarned]
  refine ⟨[⟨context.path, s!"{node.kind}: {defect.message}"⟩], rfl,
    .invalidInput node.kind context.path defect, rfl, node.kind, defect, rfl, rfl⟩

theorem Degrades.enclose {body : Program} (h : body.Degrades registry) (kind : ContainerKind) :
    (enclose kind body).Degrades registry := by
  intro context hlenient
  change Parts context (context.within (.empty kind) (registry.run body))
    (context.stern.within (.empty kind) (registry.run body))
  unfold Context.within
  rw [aside_stern.edit]
  cases hopen : context.edit (.push (.empty kind)) with
  | error error => exact .same rfl rfl
  | ok opened =>
    have hopened : opened.options.strict = false := by rwa [edit_frame hopen]
    have hwarnings : opened.warnings = context.warnings := by rw [edit_frame hopen]
    exact ((h opened hopened).since hwarnings).settle context.depth

/-- Whatever is done with a node degrades, if that of its children does. -/
theorem degrades_treat {node : Node} (h : (children node).Degrades registry)
    (treatment : Treatment) : (treat node treatment).Degrades registry := by
  have hprogram : (treatment.program node).Degrades registry := by
    cases treatment with
    | refused defect => exact degrades_reject node defect
    | container kind => exact h.enclose kind
    | block kind content => exact (degrades_leaf? content).enclose kind
    | leaf content => exact degrades_leaf? content
    | unwrapped => exact h
  unfold treat
  split
  · exact hprogram
  · exact (degrades_degrade node _).seq hprogram

end Program

namespace Context

mutual

/-- **A lenient and a strict visit of a node part with the first warning.** -/
theorem parts_visit (node : Node) (context : Context) (hlenient : context.options.strict = false) :
    Parts context (Registry.defaults.dispatcher.visit node context)
      (Registry.defaults.dispatcher.visit node context.stern) := by
  obtain ⟨kind, attrs, children⟩ := node
  rw [Registry.dispatcher_visit, Registry.dispatcher_visit]
  by_cases hdeep : context.options.maxDepth < context.trail.length
  · have hstern : context.stern.options.maxDepth < context.stern.trail.length := hdeep
    rw [Registry.dispatch_of_tooDeep _ hdeep, Registry.dispatch_of_tooDeep _ hstern]
    exact .same rfl rfl
  · rw [Registry.run_dispatch_defaults _ _ hdeep,
      Registry.run_dispatch_defaults _ context.stern hdeep]
    have hview : context.stern.view.current = context.view.current := rfl
    rw [hview]
    simp only [Node.kind_mk, Node.attrs_mk]
    cases kind.treatment attrs context.view.current with
    | none => exact .same rfl rfl
    | some treatment =>
      have hchildren : (Program.children (.mk kind attrs children)).Degrades Registry.defaults :=
        degrades_children children 0
      exact Program.degrades_treat hchildren treatment context hlenient

/-- The same for children, one after another. -/
theorem degrades_children (children : List Node) (index : Nat) :
    (Program.childrenFrom index children).Degrades Registry.defaults := by
  cases children with
  | nil => exact Program.degrades_skip
  | cons child rest =>
    intro context hlenient
    have hvisit : Parts context
        (context.visitChild Registry.defaults.dispatcher.visit index child)
        (context.stern.visitChild Registry.defaults.dispatcher.visit index child) := by
      have hstern : context.stern.isCancelled = context.isCancelled := rfl
      cases hc : context.isCancelled with
      | true =>
        rw [visitChild_of_cancelled hc, visitChild_of_cancelled (hstern.trans hc)]
        exact .same rfl rfl
      | false =>
        rw [visitChild_of_not_cancelled hc, visitChild_of_not_cancelled (hstern.trans hc)]
        have hchild := parts_visit child (context.enter ⟨child.kind, index⟩) hlenient
        exact (hchild.since rfl).leave
    refine (degrades_children rest (index + 1)).onSuccess hvisit ?_
    have hsteady := Steady.visitChild Registry.defaults.visit_steady index child context
    exact (congrArg RenderOptions.strict hsteady.options).trans hlenient

end

/-- The warnings that a render has recorded.  They are handed out with the root, or after a
failure left in the context. -/
def recorded : Except RenderError Rendered × Context → List Warning
  | (.ok output, _) => output.warnings
  | (.error _, after) => after.warnings

theorem recorded_conclude (outcome : Outcome) :
    recorded (conclude outcome) = outcome.2.warnings := by
  rcases conclude_cases outcome with ⟨error, hend⟩ | ⟨root, -, -, -, hend⟩ <;> rw [hend] <;> rfl

end Context

/-- Where no warning has been recorded yet, a strict render comes out as the lenient one does, or
with the error that the first warning of the lenient one announces. -/
theorem Registry.render_stern (document : Node) {context : Context} (hidle : context.phase = .idle)
    (hlenient : context.options.strict = false) (hwarnings : context.warnings = []) :
    match recorded (defaults.render document context) with
    | [] => (defaults.render document context.stern).1 = (defaults.render document context).1
    | first :: _ => ∃ error, (defaults.render document context.stern).1 = .error error ∧
        first.Announces error := by
  have hbegun : (context.begin document).warnings = [] := hwarnings
  obtain ⟨more, hmore, hcase⟩ := parts_visit document (context.begin document) hlenient
  rw [hbegun, List.nil_append] at hmore
  have hstern : context.stern.phase = .idle := hidle
  rw [render_of_idle defaults document hidle, render_of_idle defaults document hstern,
    recorded_conclude, hmore]
  have hbegin : context.stern.begin document = (context.begin document).stern := rfl
  rw [hbegin]
  cases more with
  | nil =>
    simp only at hcase ⊢
    rw [hcase, conclude_stern]
  | cons first later =>
    obtain ⟨error, hstrict, hannounces⟩ := hcase
    exact ⟨error, conclude_of_error hstrict, hannounces⟩

/-- **What strict mode does** to a render with the built-in renderers.  If the lenient render
records no warning, the strict one has the same result; if it does, however it ends, the strict
one fails with the error that the first warning announces. -/
theorem strict_render (document : Node) (maxDepth : Nat) (signal : Option Bool) :
    let lenient := Registry.defaults.render document { options := { maxDepth }, signal }
    let strict :=
      Registry.defaults.render document { options := { strict := true, maxDepth }, signal }
    (∀ output, lenient.1 = .ok output → output.warnings = [] → strict.1 = .ok output) ∧
    (∀ first later, recorded lenient = first :: later → ∃ kind defect,
      strict.1 = .error (.invalidInput kind first.path defect) ∧
      first.message = kind.name ++ ": " ++ defect.message) ∧
    (∀ error, lenient.1 = .error error → recorded lenient = [] → strict.1 = .error error) ∧
    ((∃ output, strict.1 = .ok output) ↔
      ∃ output, lenient.1 = .ok output ∧ output.warnings = []) := by
  intro lenient strict
  have hrender : match recorded lenient with
      | [] => strict.1 = lenient.1
      | first :: _ => ∃ error, strict.1 = .error error ∧ first.Announces error :=
    Registry.render_stern document rfl rfl rfl
  have hhanded : ∀ output, lenient.1 = .ok output → recorded lenient = output.warnings := by
    intro output hok
    obtain ⟨result, after⟩ := lenient
    obtain rfl : result = .ok output := hok
    rfl
  refine ⟨?_, ?_, ?_, ?_, ?_⟩
  · intro output hok hnone
    rw [hhanded output hok, hnone] at hrender
    exact hrender.trans hok
  · intro first later hfirst
    rw [hfirst] at hrender
    obtain ⟨error, hstrict, kind, defect, rfl, hmessage⟩ := hrender
    exact ⟨kind, defect, hstrict, hmessage⟩
  · intro error herror hnone
    rw [hnone] at hrender
    exact hrender.trans herror
  · rintro ⟨output, hok⟩
    cases hwarned : recorded lenient with
    | nil =>
      rw [hwarned] at hrender
      have hlenient : lenient.1 = .ok output := hrender.symm.trans hok
      exact ⟨output, hlenient, (hhanded output hlenient).symm.trans hwarned⟩
    | cons first later =>
      rw [hwarned] at hrender
      obtain ⟨error, hstrict, -⟩ := hrender
      cases hstrict.symm.trans hok
  · rintro ⟨output, hok, hnone⟩
    rw [hhanded output hok, hnone] at hrender
    exact ⟨output, hrender.trans hok⟩

/-- The lenient render warns of a link and fails because of what comes after it; the strict one
fails because of the link. -/
theorem strict_render_link :
    let link : Node := (Node.ofKind .link).withChild (.text "a")
    let document : Node := .document [.paragraph [link, .ofKind (.custom "embed")]]
    let path : NodePath := [⟨.document, 0⟩, ⟨.paragraph, 0⟩, ⟨.link, 0⟩]
    let lenient := Registry.defaults.render document {}
    lenient.1 = .error (.unregisteredKind (.custom "embed")
      [⟨.document, 0⟩, ⟨.paragraph, 0⟩, ⟨.custom "embed", 1⟩]) ∧
    recorded lenient = [⟨path, "link: missing destination, rendering link text only"⟩] ∧
    ∃ kind defect,
      (Registry.defaults.render document { options := { strict := true } }).1 =
        .error (.invalidInput kind path defect) ∧
      "link: missing destination, rendering link text only" =
        kind.name ++ ": " ++ defect.message := by
  intro link document path lenient
  have hrecorded :
      recorded lenient = [⟨path, "link: missing destination, rendering link text only"⟩] := by
    rfl
  refine ⟨?_, hrecorded, (strict_render document 128 none).2.1 _ _ hrecorded⟩
  exact Registry.render_defaults _ rfl rfl rfl rfl rfl rfl

end Rendition
