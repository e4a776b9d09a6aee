import Rendition.Proofs.Render.Discipline
import Rendition.Proofs.Renderer.Composed
import Rendition.Renderer.Script

/-!
# Honest renderers

Only a context knows when its depth limit is exceeded.  A renderer is **honest**
(`Program.Honest`) if it says so only where it was told so: whatever the errors are that it is
handed, the depth limit errors that it ends in are among them.  It may swallow errors, put
others in their place, and do anything else that programs can do.

All scripts are honest (`Renderer.honest_scripted`), since none of their steps names an error
of this kind.
-/

namespace Rendition

/-- Whether the error says that a node is nested too deeply. -/
def RenderError.isDepthLimit : RenderError → Bool
  | depthLimitExceeded .. => true
  | unregisteredKind .. | invariantViolation .. | invalidInput .. | cancelled _ => false

namespace Program

/-- As long as all errors that the program is handed have the property, so has the error that
it ends in. -/
def Relays (P : RenderError → Prop) : Program → Prop
  | done result => FailsOnly P result
  | look next => ∀ view, (next view).Relays P
  | notify _ next => next.Relays P
  | edit _ next => ∀ result, FailsOnly P result → (next result).Relays P
  | within _ body next =>
    body.Relays P ∧ ∀ result, FailsOnly P result → (next result).Relays P
  | child _ _ next => ∀ result, FailsOnly P result → (next result).Relays P
  | render _ next => ∀ result, FailsOnly P result → (next result).Relays P

/-- The program makes no depth limit errors of its own. -/
def Honest (program : Program) : Prop :=
  ∀ P : RenderError → Prop, (∀ error, error.isDepthLimit = false → P error) → program.Relays P

variable {P : RenderError → Prop}

theorem Relays.andThen {program : Program} {next : Except RenderError Unit → Program}
    (h : program.Relays P) (hnext : ∀ result, FailsOnly P result → (next result).Relays P) :
    (program.andThen next).Relays P := by
  induction program with
  | done result => exact hnext result h
  | look _ ih => exact fun view => ih view (h view)
  | notify _ _ ih => exact ih h
  | edit _ _ ih => exact fun result hresult => ih result (h result hresult)
  | within _ _ _ _ ih => exact ⟨h.1, fun result hresult => ih result (h.2 result hresult)⟩
  | child _ _ _ ih => exact fun result hresult => ih result (h result hresult)
  | render _ _ ih => exact fun result hresult => ih result (h result hresult)

theorem Relays.onSuccess {next : Program} (h : next.Relays P) (result : Except RenderError Unit)
    (hresult : FailsOnly P result) : (onSuccess next result).Relays P := by
  cases result with
  | ok => exact h
  | error error => exact hresult

theorem Relays.seq {first second : Program} (h : first.Relays P) (h' : second.Relays P) :
    (first.seq second).Relays P :=
  h.andThen h'.onSuccess

/-! ### Building blocks -/

theorem relays_skip : skip.Relays P := trivial

theorem relays_push (container : Container) : (push container).Relays P :=
  fun _ hresult => hresult

theorem relays_pop : pop.Relays P :=
  fun _ hresult => hresult

theorem relays_leaf (content : Leaf) : (leaf content).Relays P :=
  fun _ hresult => hresult

theorem Relays.enclose {body : Program} (h : body.Relays P) (kind : ContainerKind) :
    (enclose kind body).Relays P :=
  ⟨h, fun _ hresult => hresult⟩

theorem relays_childrenFrom (index : Nat) (nodes : List Node) :
    (childrenFrom index nodes).Relays P := by
  induction nodes generalizing index with
  | nil => trivial
  | cons node rest ih => exact (ih (index + 1)).onSuccess

theorem relays_reject (hinput : ∀ error, error.isDepthLimit = false → P error) (node : Node)
    (defect : Defect) : (reject node defect).Relays P :=
  fun _ => hinput _ rfl

theorem relays_degrade (hinput : ∀ error, error.isDepthLimit = false → P error) (node : Node)
    (defect : Defect) : (degrade node defect).Relays P := by
  intro view
  dsimp only
  split
  · exact hinput _ rfl
  · trivial

/-- Renders a document for its errors only. -/
theorem relays_render (document : Node) :
    (render document fun result => done (result.map fun _ => ())).Relays P :=
  fun _ hresult => hresult.map _

end Program

open Program

/-- Building blocks relay errors. -/
theorem Program.Composed.relays {program : Program} (h : program.Composed)
    {P : RenderError → Prop} (hinput : ∀ error, error.isDepthLimit = false → P error) :
    program.Relays P := by
  induction h with
  | skip => exact relays_skip
  | reject node defect => exact relays_reject hinput node defect
  | degrade node defect => exact relays_degrade hinput node defect
  | leaf content => exact relays_leaf content
  | look _ ih => exact ih
  | enclose kind _ ih => exact ih.enclose kind
  | children node => exact relays_childrenFrom 0 node.children
  | seq _ _ ih ih' => exact ih.seq ih'

/-! ## Scripts -/

namespace Step

variable {P : RenderError → Prop}

mutual

theorem relays_program (hinput : ∀ error, error.isDepthLimit = false → P error) (step : Step)
    (node : Node) : (step.program node).Relays P := by
  cases step with
  | push kind => exact relays_push _
  | pop => exact relays_pop
  | leaf content => exact relays_leaf content
  | within kind body => exact (relays_programAll hinput body node).enclose kind
  | attempt body =>
    refine (relays_programAll hinput body node).andThen fun result _ => ?_
    cases result <;> trivial
  | children => exact relays_childrenFrom 0 node.children
  | child position index =>
    unfold program
    split
    · trivial
    · exact fun _ hresult => hresult
  | renderAs index => exact fun _ hresult => hresult
  | plainText => exact relays_leaf _
  | extra key => exact relays_leaf _
  | warn message => trivial
  | degrade message => exact relays_degrade hinput node (.other message)
  | fail message => exact relays_reject hinput node (.other message)
  | cancel => trivial
  | probe => exact fun _ => trivial
  | render => exact relays_render node
  | about other step => exact relays_program hinput step other

theorem relays_programAll (hinput : ∀ error, error.isDepthLimit = false → P error)
    (steps : List Step) (node : Node) : (programAll node steps).Relays P := by
  cases steps with
  | nil => trivial
  | cons step rest =>
    exact (relays_program hinput step node).seq (relays_programAll hinput rest node)

end

end Step

/-- **Scripts are honest**, whatever they do with errors. -/
theorem Renderer.honest_scripted (name : String) (script : List Step) (node : Node) :
    ((Renderer.scripted name script).write node).Honest :=
  fun _ hinput => Step.relays_programAll hinput script node

/-- All renderers of the registry are honest. -/
def Registry.Honest (registry : Registry) : Prop :=
  registry.Writes Program.Honest

theorem Registry.honest_defaults : Registry.defaults.Honest :=
  writes_ofList fun entry hentry node _ hinput =>
    (Renderer.composed_builtin entry hentry node).relays hinput

/-- What goes on relays the errors that it is resumed with. -/
def Pending.Relays (P : RenderError → Prop) : Pending → Prop
  | scope _ next | visit next => ∀ result, FailsOnly P result → (next result).Relays P
  | render next => ∀ result, FailsOnly P result → (next result).Relays P

/-- To relay errors is a discipline. -/
theorem Discipline.relays {P : RenderError → Prop}
    (hinput : ∀ error, error.isDepthLimit = false → P error) :
    Discipline P (Program.Relays P) (Pending.Relays P) where
  violation _ _ := hinput _ rfl
  cancelled _ := hinput _ rfl
  done := Iff.rfl
  look h := h
  notify h := h
  edit h := h
  within h := ⟨h.1, fun _ => h.2⟩
  child h := h
  render h := h
  scope h := h
  visit h := h
  ended h := h

end Rendition
