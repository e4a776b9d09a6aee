import Rendition.Proofs.Render.Course
import Rendition.Proofs.Renderer.Honesty

/-!
# The bounds of a context

A renderer may have any node rendered any number of times, the very node that it renders
included, and go on as if nothing had happened when that fails.  All that bounds it is the
depth limit (`Moment.Bounded`):

* every operation ends;
* no renderer is invoked for a node whose path is longer than the limit;
* whoever is told that the limit is exceeded is told the limit, and a path that is one longer
  than it;
* a child that is rendered in the course of a render leaves the path as it found it.

The path cannot grow by more than one beyond the limit, because the step that takes it there
leaves nothing to be done but to fail and step back (`Moment.Level`).  Steps back up and the
ends of renders only shorten it, at whatever time of the life of the context they come.
-/

namespace Rendition

/-- Whether the program has ended. -/
def Program.isDone : Program → Bool
  | done _ => true
  | look _ | notify .. | edit .. | within .. | child .. | render .. => false

/-- Whether a scope is to be ended. -/
def Pending.isScope : Pending → Bool
  | scope .. => true
  | visit _ | render _ => false

open Context Registry

namespace Moment

variable {registry : Registry} {first second : Moment} {limit : Nat}

/-- A node has been refused: the visit or the render of it fails with the next step. -/
def Refused (moment : Moment) : Prop :=
  (∃ error, moment.program = .done (.error error)) ∧
    ∃ entry rest, moment.pending = entry :: rest ∧ entry.isScope = false

/-- The invariant behind the bounds: only the path of a node that has been refused is longer
than the limit. -/
structure Level (limit : Nat) (moment : Moment) : Prop where
  options : moment.context.options.maxDepth = limit
  trail : moment.context.trail.length ≤ limit ∨
    (moment.context.trail.length = limit + 1 ∧ moment.Refused)

theorem level_fresh (program : Program) (options : RenderOptions) (signal : Option Bool) :
    Level options.maxDepth ⟨program, [], { options, signal }⟩ :=
  ⟨rfl, Or.inl (Nat.zero_le _)⟩

theorem Level.length_le (h : Level limit first) : first.context.trail.length ≤ limit + 1 := by
  rcases h.trail with hle | ⟨hlength, -⟩ <;> omega

/-- While there is something to be done, no node has been refused. -/
theorem not_refused_of_not_isDone (hprogram : first.program.isDone = false) : ¬ first.Refused := by
  rintro ⟨⟨error, hdone⟩, -⟩
  rw [hdone] at hprogram
  cases hprogram

theorem Level.length_le_of_not_isDone (h : Level limit first)
    (hprogram : first.program.isDone = false) : first.context.trail.length ≤ limit := by
  rcases h.trail with hle | ⟨-, hrefused⟩
  · exact hle
  · exact absurd hrefused (not_refused_of_not_isDone hprogram)

/-- From a moment at which no node has been refused, a steady step stays within the limit. -/
theorem Level.steady (h : Level limit first) (hrefused : ¬ first.Refused)
    (hsteady : Steady first.context second.context)
    (hphase : second.context.phase = first.context.phase) : Level limit second := by
  refine ⟨hsteady.options ▸ h.options, Or.inl ?_⟩
  rcases h.trail with hle | ⟨-, hrefuses⟩
  · rwa [hsteady.trail hphase]
  · exact absurd hrefuses hrefused

/-- A node that is entered from within the limit is refused if it is beyond it. -/
theorem level_dispatch {node : Node} {entered : Context} {entry : Pending} {pending : List Pending}
    (hentry : entry.isScope = false) (hoptions : entered.options.maxDepth = limit)
    (hlength : entered.trail.length ≤ limit + 1) :
    Level limit ⟨registry.dispatch node entered, entry :: pending, entered⟩ := by
  refine ⟨hoptions, ?_⟩
  by_cases hdeep : limit < entered.trail.length
  · have hprogram : registry.dispatch node entered = _ :=
      registry.dispatch_of_tooDeep (hoptions ▸ hdeep)
    exact Or.inr ⟨Nat.le_antisymm hlength hdeep, ⟨_, hprogram⟩, entry, pending, rfl, hentry⟩
  · exact Or.inl (Nat.le_of_not_lt hdeep)

theorem Level.step (hs : registry.step first = some second) (h : Level limit first) :
    Level limit second := by
  obtain ⟨program, pending, context⟩ := first
  have hlength : context.trail.length ≤ limit + 1 := h.length_le
  have hrefused : program.isDone = false → ¬ Refused ⟨program, pending, context⟩ :=
    fun hprogram => not_refused_of_not_isDone hprogram
  -- only what is not done can enter a node, and then it does so from within the limit
  have hentered : program.isDone = false → context.trail.length + 1 ≤ limit + 1 :=
    fun hprogram => Nat.succ_le_succ (h.length_le_of_not_isDone hprogram)
  cases program with
  | done result =>
    rcases pending with _ | ⟨_ | _ | _, pending⟩
    · cases hs
    · obtain rfl := Option.some.inj hs
      refine h.steady ?_ (.settle _ (result, context)) (Ordinary.settle _ (result, context)).phase
      rintro ⟨-, entry, rest, hpending, hscope⟩
      cases hpending
      cases hscope
    · obtain rfl := Option.some.inj hs
      refine ⟨h.options, Or.inl ?_⟩
      show context.trail.tail.length ≤ limit
      rw [List.length_tail]
      omega
    · obtain rfl := Option.some.inj hs
      rcases conclude_cases (result, context) with ⟨error, hend⟩ | ⟨root, -, -, -, hend⟩
      all_goals
        refine ⟨?_, Or.inl ?_⟩ <;> simp only [hend]
        · exact h.options
        · exact Nat.zero_le limit
  | look next =>
    obtain rfl := Option.some.inj hs
    exact h.steady (hrefused rfl) (.refl context) rfl
  | notify notice next =>
    obtain rfl := Option.some.inj hs
    exact h.steady (hrefused rfl) (.notify notice context) (Ordinary.notify notice context).phase
  | edit change next =>
    obtain rfl := Option.some.inj hs
    exact h.steady (hrefused rfl) (.attempt change context) (Ordinary.attempt change context).phase
  | within container body next =>
    simp only [Registry.step] at hs
    split at hs
    · obtain rfl := Option.some.inj hs
      exact h.steady (hrefused rfl) (.refl context) rfl
    · rename_i opened hopen
      obtain rfl := Option.some.inj hs
      exact h.steady (hrefused rfl) (.edit hopen) (Ordinary.edit hopen).phase
  | child index node next =>
    simp only [Registry.step] at hs
    split at hs
    · obtain rfl := Option.some.inj hs
      refine ⟨h.options, ?_⟩
      rcases Nat.lt_or_ge limit (context.trail.length + 1) with hdeep | hle
      · exact Or.inr ⟨Nat.le_antisymm (hentered rfl) hdeep, ⟨_, rfl⟩, _, _, rfl, rfl⟩
      · exact Or.inl hle
    · obtain rfl := Option.some.inj hs
      exact level_dispatch rfl h.options (hentered rfl)
  | render document next =>
    simp only [Registry.step] at hs
    split at hs
    · obtain rfl := Option.some.inj hs
      exact level_dispatch rfl h.options (hentered rfl)
    · obtain rfl := Option.some.inj hs
      exact h.steady (hrefused rfl) (.refl context) rfl

theorem Level.reaches (hr : registry.Reaches first second) (h : Level limit first) :
    Level limit second :=
  hr.keeps (fun hs => Level.step hs) h

/-! ## Which renderers are invoked -/

/-- **A step that leads below the limit invokes no renderer.** -/
theorem invokesNone_of_tooDeep (hs : registry.step first = some second)
    (hdeep : second.context.options.maxDepth < second.context.path.length) :
    first.InvokesNone := by
  intro registry' registry''
  obtain ⟨program, pending, context⟩ := first
  cases program with
  | done result => rcases pending with _ | ⟨_ | _ | _, pending⟩ <;> rfl
  | look | notify | edit | within => rfl
  | child index node next =>
    simp only [Registry.step] at hs ⊢
    split at hs
    · rename_i hcancelled
      rw [if_pos hcancelled, if_pos hcancelled]
    · obtain rfl := Option.some.inj hs
      rw [Context.path, List.length_reverse] at hdeep
      rw [registry'.dispatch_of_tooDeep hdeep, registry''.dispatch_of_tooDeep hdeep]
  | render document next =>
    simp only [Registry.step] at hs ⊢
    split at hs
    · obtain rfl := Option.some.inj hs
      rw [Context.path, List.length_reverse] at hdeep
      rw [registry'.dispatch_of_tooDeep hdeep, registry''.dispatch_of_tooDeep hdeep]
    · rename_i hused
      rw [if_neg hused, if_neg hused]

/-! ## Which errors there are -/

end Moment

/-- If the error says that a node is nested too deeply, it says so of a node whose path is one
longer than the limit. -/
def RenderError.Genuine (limit : Nat) : RenderError → Prop
  | depthLimitExceeded found path => found = limit ∧ path.length = limit + 1
  | unregisteredKind .. | invariantViolation .. | invalidInput .. | cancelled _ => True

namespace RenderError

theorem genuine_of_not_isDepthLimit {limit : Nat} {error : RenderError}
    (h : error.isDepthLimit = false) : error.Genuine limit := by
  cases error with
  | depthLimitExceeded => cases h
  | _ => trivial

end RenderError

namespace Registry

variable {registry : Registry} {first second : Moment} {limit : Nat}

/-- What a node calls for relays genuine errors, if all renderers are honest. -/
theorem Honest.relays_dispatch (h : registry.Honest) (node : Node) {context : Context}
    (hoptions : context.options.maxDepth = limit) (hlength : context.trail.length ≤ limit + 1) :
    (registry.dispatch node context).Relays (RenderError.Genuine limit) := by
  have hgenuine : registry.Writes (Program.Relays (RenderError.Genuine limit)) :=
    fun kind renderer hresolve node =>
      h kind renderer hresolve node _ fun _ => RenderError.genuine_of_not_isDepthLimit
  refine hgenuine.dispatch node (fun hdeep => ⟨hoptions, ?_⟩) trivial
  rw [Context.path, List.length_reverse]
  omega

end Registry

namespace Moment

variable {registry : Registry} {first second : Moment} {limit : Nat}

/-- The invariant behind the errors: all programs, at hand and pending, relay genuine ones. -/
def Relays (limit : Nat) (moment : Moment) : Prop :=
  moment.Inside (Program.Relays (RenderError.Genuine limit))
    (Pending.Relays (RenderError.Genuine limit)) []

theorem relays_fresh {program : Program} (h : program.Honest) (context : Context) :
    Relays limit ⟨program, [], context⟩ :=
  ⟨h _ fun _ => RenderError.genuine_of_not_isDepthLimit, [], rfl, nofun⟩

theorem Relays.step (hregistry : registry.Honest) (hs : registry.step first = some second)
    (hlevel : Level limit second) (h : Relays limit first) : Relays limit second := by
  refine (Discipline.relays fun _ => RenderError.genuine_of_not_isDepthLimit).step hs
    (fun node => hregistry.relays_dispatch node hlevel.options hlevel.length_le) h ?_
  -- with nothing pending the machine would have been at its end
  intro result hdone hnil
  obtain ⟨program, pending, context⟩ := first
  obtain rfl : program = .done result := hdone
  obtain rfl : pending = [] := hnil
  cases hs

theorem Relays.reaches (hregistry : registry.Honest) (hr : registry.Reaches first second)
    (hlevel : Level limit first) (h : Relays limit first) : Relays limit second := by
  have hsecond : Level limit second ∧ Relays limit second :=
    hr.keeps (P := fun moment => Level limit moment ∧ Relays limit moment)
      (fun hs hfirst => ⟨hfirst.1.step hs, hfirst.2.step hregistry hs (hfirst.1.step hs)⟩)
      ⟨hlevel, h⟩
  exact hsecond.2

/-! ## The bounds -/

/-- What bounds a moment of the machine. -/
structure Bounded (registry : Registry) (limit : Nat) (moment : Moment) : Prop where
  /-- There is no endless run of the machine from here on. -/
  terminates : moment.Terminates registry
  /-- The program at hand runs to its end. -/
  returns : let outcome := registry.run moment.program moment.context
    registry.Reaches moment ⟨.done outcome.1, moment.pending, outcome.2⟩
  /-- No renderer is invoked for a node whose path is longer than the limit. -/
  invokes : ∀ next, registry.step moment = some next → limit < next.context.path.length →
    moment.InvokesNone
  /-- Only the path of a node that has been refused is longer than the limit, and by no more
  than one. -/
  path : moment.context.path.length ≤ limit ∨
    (moment.context.path.length = limit + 1 ∧ moment.Refused)
  /-- To render a child in the course of a render leaves the path as it was, however it ends. -/
  child : moment.context.phase = .descending → ∀ index node next,
    moment.program = .child index node next →
    let outcome := moment.context.visitChild registry.dispatcher.visit index node
    registry.Reaches moment ⟨next outcome.1, moment.pending, outcome.2⟩ ∧
    outcome.2.path = moment.context.path
  /-- So does rendering all children of a node. -/
  children : moment.context.phase = .descending → ∀ node next,
    moment.program = (Program.children node).andThen next →
    let outcome := registry.run (Program.children node) moment.context
    registry.Reaches moment ⟨next outcome.1, moment.pending, outcome.2⟩ ∧
    outcome.2.path = moment.context.path

/-- A steady change in the course of a render leaves the path as it was. -/
theorem path_of_steady {before after : Context} (h : Steady before after)
    (hphase : before.phase = .descending) : after.path = before.path := by
  have hused : before.phase ≠ .idle := by
    rw [hphase]
    nofun
  rw [Context.path, h.trail (h.phase hused), Context.path]

theorem Level.bounded (h : Level limit first) : first.Bounded registry limit := by
  obtain ⟨program, pending, context⟩ := first
  constructor
  · exact registry.terminates _
  · exact reaches_run program context pending
  · intro next hs hdeep
    exact invokesNone_of_tooDeep hs ((h.step hs).options.symm ▸ hdeep)
  · rw [Context.path, List.length_reverse]
    exact h.trail
  · rintro hphase index node next rfl
    refine ⟨reaches_child index node next pending context, path_of_steady ?_ hphase⟩
    exact .visitChild registry.visit_steady index node context
  · rintro hphase node next rfl
    refine ⟨reaches_andThen (.children node) next pending context, path_of_steady ?_ hphase⟩
    exact registry.run_steady (.children node) context

end Moment

open Moment

/-- **The bounds of a context**, for any renderers and any operations on a fresh context.  For
the errors to be what they say the renderers must not make them up themselves, as scripts do
not. -/
theorem bounded_of_fresh (registry : Registry) (options : RenderOptions) (signal : Option Bool)
    (program : Program) :
    let fresh : Context := { options, signal }
    ∀ moment, registry.Reaches ⟨program, [], fresh⟩ moment →
      moment.Bounded registry options.maxDepth ∧
      (registry.Honest → program.Honest → ∀ limit path,
        moment.program = .done (.error (.depthLimitExceeded limit path)) →
        limit = options.maxDepth ∧ path.length = options.maxDepth + 1) := by
  intro fresh moment hreaches
  have hlevel := (level_fresh program options signal).reaches hreaches
  refine ⟨hlevel.bounded, fun hregistry hprogram limit path hdone => ?_⟩
  have hrelays : moment.Relays options.maxDepth :=
    (relays_fresh hprogram fresh).reaches hregistry hreaches
      (level_fresh program options signal)
  have hgenuine := hrelays.program
  rw [hdone] at hgenuine
  exact hgenuine

/-- A renderer renders its own node as a child of itself, until the limit is exceeded. -/
theorem bounded_of_fresh_nested :
    let registry := Registry.ofList [(.document, .scripted "nested" [.renderAs 0])]
    let program : Program :=
      .render (.ofKind .document) fun result => .done (result.map fun _ => ())
    let path : NodePath := [⟨.document, 0⟩, ⟨.document, 0⟩]
    ∃ moment : Moment, registry.Honest ∧ program.Honest ∧
      registry.Reaches ⟨program, [], { options := { maxDepth := 1 } }⟩ moment ∧
      moment.program = .done (.error (.depthLimitExceeded 1 path)) ∧
      moment.Bounded registry 1 ∧ path.length = 1 + 1 := by
  intro registry program path
  have hregistry : registry.Honest := writes_ofList
    (List.forall_mem_cons.mpr ⟨Renderer.honest_scripted "nested" [.renderAs 0], nofun⟩)
  have hprogram : program.Honest := fun _ _ => Program.relays_render _
  have hreaches : registry.Reaches ⟨program, [], { options := { maxDepth := 1 } }⟩ _ :=
    .before rfl (.before rfl (.refl _))
  have hbounded := bounded_of_fresh registry { maxDepth := 1 } none program _ hreaches
  exact ⟨_, hregistry, hprogram, hreaches, rfl, hbounded.1,
    (hbounded.2 hregistry hprogram 1 path rfl).2⟩

end Rendition
