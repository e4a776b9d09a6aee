import Rendition.Proofs.Render.Lifecycle
import Rendition.Proofs.Render.Scope

/-!
# Scopes and visits are atomic

With scoped renderers, a render builds its tree from the inside out: at every moment of it
(`Moment.Atomic`), however deep inside nested renderers and after whatever errors,

* the program at hand, such as that of a renderer that was just called, and every visit only
  extend what has been built (`Context.Extends`);
* a scope has in the end either appended its one container, or changed nothing;
* the context does not complain about containers that were opened or closed out of turn
  (`Violation.isImbalance`).

The frame of each of these is a fact about whole programs (`Registry.Scoped.run_extends`).
That the context never complains is a fact about single moments.  It holds because at each
of them as many containers are open as there are scopes to be ended
(`Pending.Balanced`), which every step keeps.
-/

namespace Rendition

/-- Whether the violation is about containers that were opened or closed out of turn. -/
def Violation.isImbalance : Violation → Bool
  | leftOpen _ | nothingToClose | unbalanced .. => true
  | reused _ | noRoot | secondRoot _ | orphanLeaf => false

namespace Pending

/-- Whatever is handed to it, what goes on then is scoped. -/
def Scoped : Pending → Prop
  | scope _ next | visit next => ∀ result, (next result).Scoped
  | render next => ∀ result, (next result).Scoped

/-- With `depth` containers open, each scope that is to be ended has its own: it was opened
with as many open as there are scopes around it.  A render begins with none. -/
def Balanced : List Pending → Nat → Prop
  | [], depth => depth = 0
  | scope outer _ :: rest, depth => depth = outer + 1 ∧ Balanced rest outer
  | visit _ :: rest, depth => Balanced rest depth
  | render _ :: rest, depth => depth = 0 ∧ Balanced rest 0

end Pending

namespace Context

variable {context changed : Context}

theorem depth_notify (notice : Notice) (context : Context) :
    (context.notify notice).depth = context.depth := by
  cases notice <;> rfl

theorem depth_leaf (content : Leaf) (context : Context) :
    (context.attempt (.leaf content)).2.depth = context.depth := by
  unfold attempt
  split
  · rename_i hedit
    rcases edit_cases hedit with
      ⟨_, hpush, -⟩ | ⟨_, _, hpop, -⟩ | ⟨_, innermost, outer, -, hstack, rfl⟩
    · cases hpush
    · cases hpop
    · simp only [depth, hstack, List.length_cons]
  · rfl

theorem depth_push {container : Container} (h : context.edit (.push container) = .ok changed) :
    changed.depth = context.depth + 1 := by
  rcases edit_cases h with ⟨_, -, -, rfl⟩ | ⟨_, _, hpop, -⟩ | ⟨_, _, _, hleaf, -⟩
  · rfl
  · cases hpop
  · cases hleaf

/-- A scope that has its own container leaves none behind. -/
theorem depth_settle {depth : Nat} (h : context.depth = depth + 1)
    (result : Except RenderError Unit) : (settle depth (result, context)).2.depth = depth := by
  have hlength : context.stack.length = depth + 1 := h
  cases result with
  | error error =>
    show (context.stack.drop (context.stack.length - depth)).length = depth
    rw [List.length_drop]
    omega
  | ok =>
    obtain ⟨innermost, outer, hstack⟩ := List.exists_cons_of_length_eq_add_one hlength
    have houter : outer.length = depth := by
      rw [hstack, List.length_cons] at hlength
      omega
    simp only [settle, h, ↓reduceIte, attempt, edit, hstack]
    cases outer with
    | nil => exact houter
    | cons parent outer => exact houter

theorem depth_conclude (outcome : Outcome) : (conclude outcome).2.depth = 0 := by
  rcases conclude_cases outcome with ⟨error, hend⟩ | ⟨root, -, hstack, -, hend⟩
  · rw [hend]
    rfl
  · rw [hend, depth]
    simp only [hstack, List.length_nil]

theorem phase_conclude (outcome : Outcome) : (conclude outcome).2.phase ≠ .idle := by
  rcases conclude_cases outcome with ⟨error, hend⟩ | ⟨root, -, -, -, hend⟩ <;> rw [hend] <;> nofun

end Context

open Context

namespace Moment

variable {registry : Registry} {first second : Moment}

/-- The invariant of a render with scoped renderers, from its first operation on. -/
structure Tidy (moment : Moment) : Prop where
  program : moment.program.Scoped
  pending : ∀ entry ∈ moment.pending, entry.Scoped
  balanced : Pending.Balanced moment.pending moment.context.depth
  used : moment.context.phase ≠ .idle

theorem Tidy.step (hreg : registry.Scoped) (hs : registry.step first = some second)
    (h : Tidy first) : Tidy second := by
  obtain ⟨program, pending, context⟩ := first
  obtain ⟨hprogram, hpending, hbalanced, hused⟩ := h
  cases program with
  | done result =>
    rcases pending with _ | ⟨entry, pending⟩
    · cases hs
    · obtain ⟨hentry, hrest⟩ := List.forall_mem_cons.mp hpending
      cases entry with
      | scope depth next =>
        obtain rfl := Option.some.inj hs
        obtain ⟨hdepth, hpending⟩ := hbalanced
        have hphase := (Steady.settle depth (result, context)).phase hused
        exact ⟨hentry _, hrest, (depth_settle hdepth result).symm ▸ hpending, hphase ▸ hused⟩
      | visit next =>
        obtain rfl := Option.some.inj hs
        exact ⟨hentry _, hrest, hbalanced, hused⟩
      | render next =>
        obtain rfl := Option.some.inj hs
        exact ⟨hentry _, hrest, (depth_conclude (result, context)).symm ▸ hbalanced.2,
          phase_conclude (result, context)⟩
  | look next =>
    obtain rfl := Option.some.inj hs
    exact ⟨hprogram _, hpending, hbalanced, hused⟩
  | notify notice next =>
    obtain rfl := Option.some.inj hs
    have hphase := (Steady.notify notice context).phase hused
    exact ⟨hprogram, hpending, (depth_notify notice context).symm ▸ hbalanced, hphase ▸ hused⟩
  | edit change next =>
    obtain rfl := Option.some.inj hs
    obtain ⟨content, rfl⟩ := hprogram.leaf_of_edit
    have hphase := (Steady.attempt (.leaf content) context).phase hused
    exact ⟨hprogram _, hpending, (depth_leaf content context).symm ▸ hbalanced, hphase ▸ hused⟩
  | within container body next =>
    simp only [Registry.step] at hs
    split at hs
    · obtain rfl := Option.some.inj hs
      exact ⟨hprogram.2 _, hpending, hbalanced, hused⟩
    · -- the scope that is pending now has the container that was just opened
      rename_i opened hopen
      obtain rfl := Option.some.inj hs
      have hphase := (Steady.edit hopen).phase hused
      exact ⟨hprogram.1, List.forall_mem_cons.mpr ⟨hprogram.2, hpending⟩,
        ⟨depth_push hopen, hbalanced⟩, hphase ▸ hused⟩
  | child index node next =>
    have hvisit : ∀ entry ∈ Pending.visit next :: pending, entry.Scoped :=
      List.forall_mem_cons.mpr ⟨hprogram, hpending⟩
    simp only [Registry.step] at hs
    split at hs
    · obtain rfl := Option.some.inj hs
      exact ⟨trivial, hvisit, hbalanced, hused⟩
    · obtain rfl := Option.some.inj hs
      exact ⟨hreg.dispatch node _, hvisit, hbalanced, hused⟩
  | render document next =>
    simp only [Registry.step, if_neg hused] at hs
    obtain rfl := Option.some.inj hs
    exact ⟨hprogram _, hpending, hbalanced, hused⟩

theorem Tidy.reaches (hreg : registry.Scoped) (hr : registry.Reaches first second)
    (h : Tidy first) : Tidy second :=
  hr.keeps (fun hs => Tidy.step hreg hs) h

/-- The context itself raises a violation with the next operation, instead of passing on an
error that it was handed. -/
inductive Raises : Moment → Violation → Prop where
  | edit {change next pending context cause}
    (h : context.edit change = .error (context.violation cause)) :
    Raises ⟨.edit change next, pending, context⟩ cause
  | within {container body next pending context cause}
    (h : context.edit (.push container) = .error (context.violation cause)) :
    Raises ⟨.within container body next, pending, context⟩ cause
  | settle {depth next pending context cause}
    (h : (Context.settle depth (.ok (), context)).1 = .error (context.violation cause)) :
    Raises ⟨.done (.ok ()), .scope depth next :: pending, context⟩ cause
  | conclude {next pending context cause}
    (h : (Context.conclude (.ok (), context)).1 = .error (context.violation cause)) :
    Raises ⟨.done (.ok ()), .render next :: pending, context⟩ cause
  | refuse {document next pending context} (h : context.phase ≠ .idle) :
    Raises ⟨.render document next, pending, context⟩ (.reused context.phase)

/-- **The context never complains about containers opened or closed out of turn.** -/
theorem Tidy.not_isImbalance {moment : Moment} (h : Tidy moment) {cause : Violation}
    (hraises : moment.Raises cause) : cause.isImbalance = false := by
  obtain ⟨hprogram, -, hbalanced, -⟩ := h
  cases hraises with
  | edit hedit =>
    obtain ⟨content, rfl⟩ := hprogram.leaf_of_edit
    rcases (edit_refused hedit).2 with ⟨_, hpush, -⟩ | ⟨hpop, -⟩ | ⟨_, -, hcause⟩
    · cases hpush
    · cases hpop
    · cases hcause
      rfl
  | within hopen =>
    rcases (edit_refused hopen).2 with ⟨_, -, -, hcause⟩ | ⟨hpop, -⟩ | ⟨_, hleaf, -⟩
    · cases hcause
      rfl
    · cases hpop
    · cases hleaf
  | @settle depth next pending context _ hsettle =>
    -- the container of the scope is there to be closed
    obtain ⟨hdepth, -⟩ := hbalanced
    simp only at hdepth
    simp only [Context.settle, hdepth, ↓reduceIte] at hsettle
    unfold attempt at hsettle
    split at hsettle
    · cases hsettle
    · obtain ⟨hnil, -⟩ := edit_refused ‹_›
      rw [Context.depth, hnil] at hdepth
      cases hdepth
  | @conclude next pending context _ hconclude =>
    obtain ⟨hdepth, -⟩ := hbalanced
    have hnil : context.stack = [] := List.length_eq_zero_iff.mp hdepth
    cases hroot : context.root with
    | none =>
      simp only [Context.conclude, finish, hnil, hroot, List.isEmpty_nil, ↓reduceIte] at hconclude
      cases hconclude
      rfl
    | some root =>
      simp only [Context.conclude, finish, hnil, hroot, List.isEmpty_nil, ↓reduceIte] at hconclude
      cases hconclude
  | refuse hused => rfl

/-- What scopes and visits do at a moment. -/
structure Atomic (registry : Registry) (moment : Moment) : Prop where
  /-- The program at hand runs to its end, and only extends what has been built. -/
  program : let outcome := registry.run moment.program moment.context
    registry.Reaches moment ⟨.done outcome.1, moment.pending, outcome.2⟩ ∧
    Extends moment.context outcome.2
  /-- So does a visit of a child. -/
  child : ∀ index node next, moment.program = .child index node next →
    let outcome := moment.context.visitChild registry.dispatcher.visit index node
    registry.Reaches moment ⟨next outcome.1, moment.pending, outcome.2⟩ ∧
    Extends moment.context outcome.2
  /-- A scope that succeeds has attached its container, with more elements in it, to the
  containers that were open, or made it the root where there was none.  A scope that fails
  has left all that was built as it was. -/
  scope : ∀ container body next, moment.program = .within container body next →
    let outcome := moment.context.within container (registry.run body)
    registry.Reaches moment ⟨next outcome.1, moment.pending, outcome.2⟩ ∧
    match outcome.1 with
    | .ok () => (moment.context.stack = [] → moment.context.root = none) ∧
      ∃ more, outcome.2.built =
        (moment.context.attach { container with children := container.children ++ more }
          moment.context.stack).built
    | .error _ => outcome.2.built = moment.context.built
  /-- The context does not complain about containers opened or closed out of turn. -/
  balance : ∀ cause, moment.Raises cause → cause.isImbalance = false

theorem Tidy.atomic (hscoped : registry.Scoped) {moment : Moment} (h : Tidy moment) :
    moment.Atomic registry := by
  have hbody : ∀ {container body next}, moment.program = .within container body next →
      ∀ opened, moment.context.edit (.push container) = .ok opened →
        Extends opened (registry.run body opened).2 := by
    intro container body next hprogram opened hopen
    have hscope := h.program
    rw [hprogram] at hscope
    exact hscoped.run_extends hscope.1 ((Steady.edit hopen).phase h.used ▸ h.used)
  constructor
  · exact ⟨Registry.reaches_run _ _ _, hscoped.run_extends h.program h.used⟩
  · intro index node next hprogram
    obtain ⟨_, pending, context⟩ := moment
    obtain rfl := hprogram
    refine ⟨Registry.reaches_child index node next pending context, Extends.visitChild ?_⟩
    rw [Registry.dispatcher_visit]
    exact hscoped.run_extends (hscoped.dispatch node _) h.used
  · intro container body next hprogram
    have hopened := hbody hprogram
    obtain ⟨_, pending, context⟩ := moment
    obtain rfl := hprogram
    refine ⟨Registry.reaches_within container body next pending context, ?_⟩
    rcases within_cases hopened with ⟨error, hresult, hbuilt⟩ | ⟨more, hresult, hroot, hbuilt⟩
    · simp only [hresult]
      exact hbuilt
    · simp only [hresult]
      exact ⟨hroot, more, hbuilt⟩
  · exact fun cause => h.not_isImbalance

/-- The moment at which a render is about to be called, with nothing to be done after it. -/
def rendering (document : Node) (context : Context) : Moment :=
  ⟨.render document fun result => .done (result.map fun _ => ()), [], context⟩

theorem tidy_of_begun (hscoped : registry.Scoped) {document : Node} {context : Context}
    (hidle : context.phase = .idle) (hstack : context.stack = [])
    (hs : registry.step (rendering document context) = some second) : Tidy second := by
  simp only [rendering, Registry.step, hidle, ↓reduceIte] at hs
  obtain rfl := Option.some.inj hs
  refine ⟨hscoped.dispatch document _, ?_, ⟨?_, rfl⟩, fun hphase => ?_⟩
  · refine List.forall_mem_cons.mpr ⟨fun _ => trivial, fun pending hpending => ?_⟩
    cases hpending
  · exact congrArg List.length hstack
  · cases hphase

/-- Before the render has begun, all that lies ahead is the render. -/
theorem atomic_rendering (registry : Registry) (document : Node) {context : Context}
    (hidle : context.phase = .idle) (hstack : context.stack = []) (hroot : context.root = none) :
    (rendering document context).Atomic registry := by
  constructor
  · refine ⟨Registry.reaches_run _ _ _, ?_⟩
    have hend : (registry.run (rendering document context).program context).2.stack = [] :=
      (Context.renderWith_idle hidle _ document).1
    simp only [Extends, rendering, hstack, hroot]
    refine ⟨hend, fun root hsome => ?_⟩
    cases hsome
  · exact fun _ _ _ hprogram => by cases hprogram
  · exact fun _ _ _ hprogram => by cases hprogram
  · rintro cause hraises
    cases hraises
    rfl

end Moment

open Moment

/-- **Scopes and visits are atomic** in a render on a fresh context, if the renderers open and
close containers by scopes only. -/
theorem atomic_of_fresh (registry : Registry) (hscoped : registry.Scoped)
    (options : RenderOptions) (signal : Option Bool) (document : Node) :
    let fresh : Context := { options, signal }
    let outcome := registry.render document fresh
    registry.Reaches (rendering document fresh)
      ⟨.done (outcome.1.map fun _ => ()), [], outcome.2⟩ ∧
    ∀ moment, registry.Reaches (rendering document fresh) moment → moment.Atomic registry := by
  intro fresh outcome
  refine ⟨Registry.reaches_render document _ [] fresh, fun moment hreaches => ?_⟩
  rcases Relation.ReflTransGen.cases_head hreaches with rfl | ⟨second, hstep, hlater⟩
  · exact atomic_rendering registry document rfl rfl rfl
  · exact ((tidy_of_begun hscoped rfl rfl hstep).reaches hscoped hlater).atomic hscoped

/-- A renderer visits a paragraph whose renderer fails after it has written something, and goes
on as if nothing had happened. -/
theorem atomic_of_fresh_swallowed :
    let failing : Renderer := ⟨"failing", fun node =>
      .enclose .paragraph (.seq (.leaf (.text "lost")) (.reject node .missingText))⟩
    let visiting : Program := .child 0 (.ofKind .paragraph) fun _ => .leaf (.text "kept")
    let lenient : Renderer := ⟨"lenient", fun _ => .enclose .document visiting⟩
    let registry := Registry.ofList [(.document, lenient), (.paragraph, failing)]
    let start := rendering (.ofKind .document) {}
    let moment : Moment :=
      ⟨visiting, [.scope 0 .done, .render fun result => .done (result.map fun _ => ())],
        { phase := .descending, trail := [⟨.document, 0⟩], stack := [.empty .document] }⟩
    registry.Scoped ∧ registry.Reaches start moment ∧ moment.Atomic registry := by
  intro failing visiting lenient registry start moment
  have hvisiting : visiting.Scoped := fun _ => Program.scoped_leaf _
  have hfailing : failing.Scoped := fun node =>
    ((Program.scoped_leaf _).seq (Program.scoped_reject node _)).enclose .paragraph
  have hlenient : lenient.Scoped := fun _ => hvisiting.enclose .document
  have hscoped : registry.Scoped := Registry.scoped_ofList
    (List.forall_mem_cons.mpr ⟨hlenient, List.forall_mem_cons.mpr ⟨hfailing, nofun⟩⟩)
  have hreaches : registry.Reaches start moment := .before rfl (.before rfl (.refl moment))
  exact ⟨hscoped, hreaches,
    (atomic_of_fresh registry hscoped {} none (.ofKind .document)).2 moment hreaches⟩

end Rendition
