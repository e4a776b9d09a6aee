import Rendition.Proofs.Render.Discipline
import Rendition.Proofs.Renderer.Composed

/-!
# Renderers that pass errors on

A renderer **passes on** the errors that its operations come back with
(`Program.PassesOn`) if it ends with them, and has nothing more rendered on the way: it may
still look around, send notices, and put the stack in order.  The built-in renderers do
(`Registry.passesOn_defaults`).

If all programs of a render pass errors on, an error at any depth is what the render ends
with: it goes through whatever is pending (`Registry.reaches_through`).
-/

namespace Rendition

namespace Program

/-- Whatever it comes upon, the program ends with the error, and opens no scope, visits no node
and starts no render before. -/
def EndsWith (error : RenderError) : Program → Prop
  | done result => result = .error error
  | look next => ∀ view, (next view).EndsWith error
  | notify _ next => next.EndsWith error
  | edit _ next => ∀ result, (next result).EndsWith error
  | within .. | child .. | render .. => False

/-- The program ends with the first error that an operation of it comes back with. -/
def PassesOn : Program → Prop
  | done _ => True
  | look next => ∀ view, (next view).PassesOn
  | notify _ next => next.PassesOn
  | edit _ next | child _ _ next =>
    (∀ error, (next (.error error)).EndsWith error) ∧ (next (.ok ())).PassesOn
  | within _ body next =>
    body.PassesOn ∧ (∀ error, (next (.error error)).EndsWith error) ∧ (next (.ok ())).PassesOn
  | render _ next =>
    (∀ error, (next (.error error)).EndsWith error) ∧ ∀ output, (next (.ok output)).PassesOn

theorem EndsWith.andThen {program : Program} {error : RenderError}
    {next : Except RenderError Unit → Program} (h : program.EndsWith error)
    (hnext : (next (.error error)).EndsWith error) : (program.andThen next).EndsWith error := by
  induction program with
  | done result =>
    obtain rfl : result = .error error := h
    exact hnext
  | look _ ih => exact fun view => ih view (h view)
  | notify _ _ ih => exact ih h
  | edit _ _ ih => exact fun result => ih result (h result)
  | within | child | render => cases h

theorem PassesOn.andThen {program : Program} {next : Except RenderError Unit → Program}
    (h : program.PassesOn) (hnext : ∀ result, (next result).PassesOn)
    (herror : ∀ error, (next (.error error)).EndsWith error) :
    (program.andThen next).PassesOn := by
  induction program with
  | done result => exact hnext result
  | look _ ih => exact fun view => ih view (h view)
  | notify _ _ ih => exact ih h
  | edit _ _ ih | child _ _ _ ih =>
    exact ⟨fun error => (h.1 error).andThen (herror error), ih _ h.2⟩
  | within _ _ _ _ ih =>
    exact ⟨h.1, fun error => (h.2.1 error).andThen (herror error), ih _ h.2.2⟩
  | render _ _ ih =>
    exact ⟨fun error => (h.1 error).andThen (herror error), fun output => ih _ (h.2 output)⟩

theorem PassesOn.onSuccess {next : Program} (h : next.PassesOn)
    (result : Except RenderError Unit) : (onSuccess next result).PassesOn := by
  cases result with
  | ok => exact h
  | error error => trivial

theorem PassesOn.seq {first second : Program} (h : first.PassesOn) (h' : second.PassesOn) :
    (first.seq second).PassesOn :=
  h.andThen h'.onSuccess fun _ => rfl

theorem passesOn_childrenFrom (index : Nat) (nodes : List Node) :
    (childrenFrom index nodes).PassesOn := by
  induction nodes generalizing index with
  | nil => trivial
  | cons node rest ih => exact ⟨fun _ => rfl, ih (index + 1)⟩

/-- Building blocks pass errors on. -/
theorem Composed.passesOn {program : Program} (h : program.Composed) : program.PassesOn := by
  induction h with
  | skip => trivial
  | reject node defect => exact fun _ => trivial
  | degrade node defect =>
    intro view
    dsimp only
    split <;> trivial
  | leaf content => exact ⟨fun _ => rfl, trivial⟩
  | look _ ih => exact ih
  | enclose kind _ ih => exact ⟨ih, fun _ => rfl, trivial⟩
  | children node => exact passesOn_childrenFrom 0 node.children
  | seq _ _ ih ih' => exact ih.seq ih'

end Program

/-- All renderers of the registry pass errors on. -/
def Registry.PassesOn (registry : Registry) : Prop :=
  registry.Writes Program.PassesOn

/-- **The built-in renderers pass errors on.** -/
theorem Registry.passesOn_defaults : Registry.defaults.PassesOn :=
  writes_ofList fun entry hentry node => (Renderer.composed_builtin entry hentry node).passesOn

/-! ## How an error goes through what is pending -/

/-- What goes on passes on the error that it is resumed with, and later ones. -/
def Pending.PassesOn : Pending → Prop
  | scope _ next | visit next =>
    (∀ error, (next (.error error)).EndsWith error) ∧ (next (.ok ())).PassesOn
  | render next =>
    (∀ error, (next (.error error)).EndsWith error) ∧ ∀ output, (next (.ok output)).PassesOn

/-- A program on its way: it passes errors on, or is about to end with one. -/
def Program.Passing (program : Program) : Prop :=
  program.PassesOn ∨ ∃ error, program.EndsWith error

theorem Program.passing_next {α : Type} {next : Except RenderError α → Program}
    (h : (∀ error, (next (.error error)).EndsWith error) ∧ ∀ value, (next (.ok value)).PassesOn)
    (result : Except RenderError α) : (next result).Passing := by
  cases result with
  | ok value => exact Or.inl (h.2 value)
  | error error => exact Or.inr ⟨error, h.1 error⟩

/-- To pass errors on is a discipline. -/
theorem Discipline.passing : Discipline (fun _ => True) Program.Passing Pending.PassesOn where
  violation _ _ := trivial
  cancelled _ := trivial
  done {result} := by
    cases result with
    | ok => exact ⟨fun _ => trivial, fun _ => Or.inl trivial⟩
    | error => exact ⟨fun _ => trivial, fun _ => Or.inl trivial⟩
  look h view := h.imp (· view) fun ⟨error, hends⟩ => ⟨error, hends view⟩
  notify h := h
  edit h result _ := by
    rcases h with h | ⟨error, hends⟩
    · exact Program.passing_next ⟨h.1, fun _ => h.2⟩ result
    · exact Or.inr ⟨error, hends result⟩
  within h := by
    rcases h with h | ⟨_, hends⟩
    · exact ⟨Or.inl h.1, fun _ => h.2⟩
    · cases hends
  child h := by
    rcases h with h | ⟨_, hends⟩
    · exact h
    · cases hends
  render h := by
    rcases h with h | ⟨_, hends⟩
    · exact h
    · cases hends
  scope h result _ := Program.passing_next ⟨h.1, fun _ => h.2⟩ result
  visit h result _ := Program.passing_next ⟨h.1, fun _ => h.2⟩ result
  ended h result _ := Program.passing_next h result

namespace Registry

variable {registry : Registry}

/-- A program that is about to end with an error does so. -/
theorem reaches_endsWith {program : Program} {error : RenderError} (h : program.EndsWith error)
    (pending : List Pending) (context : Context) :
    ∃ after, registry.Reaches ⟨program, pending, context⟩
      ⟨.done (.error error), pending, after⟩ := by
  induction program generalizing context with
  | done result =>
    obtain rfl : result = .error error := h
    exact ⟨context, .refl _⟩
  | look next ih =>
    obtain ⟨after, hreaches⟩ := ih context.view (h context.view) context
    exact ⟨after, .before rfl hreaches⟩
  | notify notice next ih =>
    obtain ⟨after, hreaches⟩ := ih h (context.notify notice)
    exact ⟨after, .before rfl hreaches⟩
  | edit change next ih =>
    obtain ⟨after, hreaches⟩ := ih _ (h _) (context.attempt change).2
    exact ⟨after, .before rfl hreaches⟩
  | within | child | render => cases h

/-- **An error goes through all that passes errors on.** -/
theorem reaches_through {inner : List Pending} (hinner : ∀ entry ∈ inner, entry.PassesOn)
    {program : Program} {error : RenderError} (h : program.EndsWith error)
    (outer : List Pending) (context : Context) :
    ∃ after, registry.Reaches ⟨program, inner ++ outer, context⟩
      ⟨.done (.error error), outer, after⟩ := by
  induction inner generalizing program context with
  | nil => exact reaches_endsWith h outer context
  | cons entry inner ih =>
    obtain ⟨hentry, hrest⟩ := List.forall_mem_cons.mp hinner
    obtain ⟨ended, hend⟩ : ∃ ended, registry.Reaches ⟨program, entry :: inner ++ outer, context⟩
        ⟨.done (.error error), entry :: inner ++ outer, ended⟩ := reaches_endsWith h _ context
    cases entry with
    | scope depth next | visit next | render next =>
      obtain ⟨after, hreaches⟩ := ih hrest (hentry.1 error) _
      exact ⟨after, (hend.after rfl).trans hreaches⟩

end Registry
end Rendition
