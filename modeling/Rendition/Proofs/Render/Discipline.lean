import Rendition.Proofs.Render.Course

/-!
# What renderers keep to

Much that can be said of renderers is a property of their programs that is handed on from
every program to those it goes on with: a **discipline** (`Discipline`).  One program goes on
with another right away, or after something pending has been resumed, so a discipline speaks
of what is pending as well.  It may make a difference between errors: renderers that keep to
it may then rely on being handed `fair` errors only, and have to end in such errors in return.

The machine keeps to every discipline that the programs of nodes keep to
(`Discipline.step`).  This is stated for what goes on above some point of the pending list
(`Moment.Inside`), such as in the course of one render.
-/

namespace Rendition

/-- The result is success, or an error with the property. -/
def FailsOnly (P : RenderError → Prop) {α : Type} : Except RenderError α → Prop
  | .ok _ => True
  | .error error => P error

theorem FailsOnly.map {P : RenderError → Prop} {α β : Type} {result : Except RenderError α}
    (h : FailsOnly P result) (f : α → β) : FailsOnly P (result.map f) := by
  cases result with
  | ok => trivial
  | error => exact h

/-- Properties of programs and of what they leave pending that are handed on. -/
structure Discipline (fair : RenderError → Prop) (good : Program → Prop)
    (kept : Pending → Prop) : Prop where
  violation : ∀ cause openNames, fair (.invariantViolation cause openNames)
  cancelled : ∀ path, fair (.cancelled path)
  done : ∀ {result}, good (.done result) ↔ FailsOnly fair result
  look : ∀ {next}, good (.look next) → ∀ view, good (next view)
  notify : ∀ {notice next}, good (.notify notice next) → good next
  edit : ∀ {change next}, good (.edit change next) →
    ∀ result, FailsOnly fair result → good (next result)
  within : ∀ {container body next}, good (.within container body next) →
    good body ∧ ∀ depth, kept (.scope depth next)
  child : ∀ {index node next}, good (.child index node next) → kept (.visit next)
  render : ∀ {document next}, good (.render document next) → kept (.render next)
  scope : ∀ {depth next}, kept (.scope depth next) →
    ∀ result, FailsOnly fair result → good (next result)
  visit : ∀ {next}, kept (.visit next) → ∀ result, FailsOnly fair result → good (next result)
  ended : ∀ {next}, kept (.render next) → ∀ result, FailsOnly fair result → good (next result)

/-- What goes on above `outer` keeps to a discipline. -/
structure Moment.Inside (good : Program → Prop) (kept : Pending → Prop) (outer : List Pending)
    (moment : Moment) : Prop where
  program : good moment.program
  pending : ∃ inner, moment.pending = inner ++ outer ∧ ∀ entry ∈ inner, kept entry

open Context

variable {fair : RenderError → Prop} {good : Program → Prop} {kept : Pending → Prop}

namespace Discipline

/-! ## The errors of a context are fair -/

theorem failsOnly_attempt (hd : Discipline fair good kept) (change : Edit) (context : Context) :
    FailsOnly fair (context.attempt change).1 := by
  unfold attempt
  split
  · trivial
  · rename_i error hrefused
    rcases (edit_refused hrefused).2 with ⟨_, -, -, rfl⟩ | ⟨-, rfl⟩ | ⟨_, -, rfl⟩ <;>
      exact hd.violation _ _

theorem failsOnly_open (hd : Discipline fair good kept) {container : Container}
    {context : Context} {error : RenderError} (h : context.edit (.push container) = .error error) :
    fair error := by
  have hrefused := hd.failsOnly_attempt (.push container) context
  rwa [attempt, h] at hrefused

theorem failsOnly_settle (hd : Discipline fair good kept) {outcome : Outcome}
    (h : FailsOnly fair outcome.1) (depth : Nat) : FailsOnly fair (settle depth outcome).1 := by
  obtain ⟨_ | _, after⟩ := outcome
  · exact h
  · by_cases hdepth : after.depth = depth + 1
    · simp only [settle, hdepth, ↓reduceIte]
      exact hd.failsOnly_attempt .pop after
    · simp only [settle, hdepth, ↓reduceIte]
      exact hd.violation _ _

theorem failsOnly_conclude (hd : Discipline fair good kept) {outcome : Outcome}
    (h : FailsOnly fair outcome.1) : FailsOnly fair (conclude outcome).1 := by
  obtain ⟨_ | _, after⟩ := outcome
  · exact h
  · cases hstack : after.stack with
    | cons innermost outer =>
      simp only [conclude, finish, hstack, List.isEmpty_cons, Bool.false_eq_true, ↓reduceIte]
      exact hd.violation _ _
    | nil =>
      cases hroot : after.root with
      | none =>
        simp only [conclude, finish, hstack, hroot, List.isEmpty_nil, ↓reduceIte]
        exact hd.violation _ _
      | some root =>
        simp only [conclude, finish, hstack, hroot, List.isEmpty_nil, ↓reduceIte]
        trivial

/-! ## The machine keeps to disciplines -/

variable {registry : Registry} {first second : Moment} {outer : List Pending}

/-- **Every step keeps to a discipline**, if the program of a node does that it may begin.  The
step after which nothing is left above `outer` is excepted. -/
theorem step (hd : Discipline fair good kept) (hs : registry.step first = some second)
    (hdispatch : ∀ node, good (registry.dispatch node second.context))
    (h : first.Inside good kept outer)
    (hinside : ∀ result, first.program = .done result → first.pending ≠ outer) :
    second.Inside good kept outer := by
  obtain ⟨program, pending, context⟩ := first
  obtain ⟨hprogram, inner, hpending, hinner⟩ := h
  obtain rfl : pending = inner ++ outer := hpending
  cases program with
  | done result =>
    have hresult := hd.done.mp hprogram
    rcases inner with _ | ⟨entry, inner⟩
    · exact absurd rfl (hinside result rfl)
    · obtain ⟨hentry, hrest⟩ := List.forall_mem_cons.mp hinner
      cases entry with
      | scope depth next =>
        obtain rfl := Option.some.inj hs
        exact ⟨hd.scope hentry _ (hd.failsOnly_settle hresult depth), inner, rfl, hrest⟩
      | visit next =>
        obtain rfl := Option.some.inj hs
        exact ⟨hd.visit hentry _ hresult, inner, rfl, hrest⟩
      | render next =>
        obtain rfl := Option.some.inj hs
        exact ⟨hd.ended hentry _ (hd.failsOnly_conclude hresult), inner, rfl, hrest⟩
  | look next =>
    obtain rfl := Option.some.inj hs
    exact ⟨hd.look hprogram _, inner, rfl, hinner⟩
  | notify notice next =>
    obtain rfl := Option.some.inj hs
    exact ⟨hd.notify hprogram, inner, rfl, hinner⟩
  | edit change next =>
    obtain rfl := Option.some.inj hs
    exact ⟨hd.edit hprogram _ (hd.failsOnly_attempt change context), inner, rfl, hinner⟩
  | within container body next =>
    obtain ⟨hbody, hscope⟩ := hd.within hprogram
    simp only [Registry.step] at hs
    split at hs
    · rename_i error hrefused
      obtain rfl := Option.some.inj hs
      have herror : FailsOnly fair (.error error : Except RenderError Unit) :=
        hd.failsOnly_open hrefused
      exact ⟨hd.scope (hscope context.depth) _ herror, inner, rfl, hinner⟩
    · obtain rfl := Option.some.inj hs
      exact ⟨hbody, .scope context.depth next :: inner, rfl,
        List.forall_mem_cons.mpr ⟨hscope _, hinner⟩⟩
  | child index node next =>
    have hentered : ∀ entry ∈ Pending.visit next :: inner, kept entry :=
      List.forall_mem_cons.mpr ⟨hd.child hprogram, hinner⟩
    simp only [Registry.step] at hs
    split at hs
    · obtain rfl := Option.some.inj hs
      exact ⟨hd.done.mpr (hd.cancelled _), .visit next :: inner, rfl, hentered⟩
    · obtain rfl := Option.some.inj hs
      exact ⟨hdispatch node, .visit next :: inner, rfl, hentered⟩
  | render document next =>
    have hended := hd.render hprogram
    simp only [Registry.step] at hs
    split at hs
    · obtain rfl := Option.some.inj hs
      exact ⟨hdispatch document, .render next :: inner, rfl,
        List.forall_mem_cons.mpr ⟨hended, hinner⟩⟩
    · obtain rfl := Option.some.inj hs
      exact ⟨hd.ended hended _ (hd.violation _ _), inner, rfl, hinner⟩

/-- **In the course of a render all is kept to a discipline** that the programs of nodes keep to. -/
theorem reaches (hd : Discipline fair good kept)
    (hdispatch : ∀ node context, good (registry.dispatch node context))
    {next : Except RenderError Rendered → Program}
    (h : first.Inside good kept (.render next :: outer)) (hused : first.context.phase ≠ .idle)
    (hr : registry.Reaches first second) (hphase : second.context.phase = .descending) :
    second.Inside good kept (.render next :: outer) := by
  induction hr with
  | refl => exact h
  | @tail middle second hr hs ih =>
    have hmiddle := Registry.descending_between hr (.before hs (.refl _)) hused hphase
    refine hd.step hs (fun node => hdispatch node _) (ih hmiddle) fun result hdone hpending => ?_
    -- the step would have ended the render
    obtain ⟨program, pending, context⟩ := middle
    obtain rfl : program = .done result := hdone
    obtain rfl : pending = .render next :: outer := hpending
    obtain rfl := Option.some.inj hs
    have hover := isOver_conclude (result, context)
    rw [hphase] at hover
    cases hover

/-- Nothing is asked for. -/
theorem any : Discipline (fun _ => True) (fun _ => True) (fun _ => True) where
  violation _ _ := trivial
  cancelled _ := trivial
  done {result} := by cases result <;> exact ⟨fun _ => trivial, fun _ => trivial⟩
  look _ _ := trivial
  notify _ := trivial
  edit _ _ _ := trivial
  within _ := ⟨trivial, fun _ => trivial⟩
  child _ := trivial
  render _ := trivial
  scope _ _ _ := trivial
  visit _ _ _ := trivial
  ended _ _ _ := trivial

end Discipline
end Rendition
