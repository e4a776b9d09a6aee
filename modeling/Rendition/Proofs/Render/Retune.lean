import Rendition.Proofs.Render.Descent

/-!
# What trees are built without

An edit looks at the open containers and at the root, and at nothing else of a context.  So a
change that leaves these alone (`Context.Aside`) may be made before an operation on the stack or
after it.  Such a change is one of the options and of the signal (`Context.retune`): two runs that
differ in these only can be compared by this, for as long as none of them looks at them.
-/

namespace Rendition.Context

/-! ## Changes aside from what is built -/

/-- The change leaves the open containers and the root as they are, and does not look at them. -/
def Aside (f : Context → Context) : Prop :=
  ∀ context stack root, f { context with stack, root } = { f context with stack, root }

namespace Aside

variable {f : Context → Context}

theorem eq_built (h : Aside f) (context : Context) :
    f context = { f context with stack := context.stack, root := context.root } :=
  h context context.stack context.root

theorem stack (h : Aside f) (context : Context) : (f context).stack = context.stack := by
  rw [h.eq_built context]

theorem edit (h : Aside f) (change : Edit) (context : Context) :
    (f context).edit change = (context.edit change).map f := by
  have hedited : ∀ stack root, (.ok { f context with stack, root } : Except RenderError Context) =
      .ok (f { context with stack, root }) :=
    fun stack root => congrArg Except.ok (h context stack root).symm
  rw [h.eq_built context]
  obtain ⟨_, _, stack, root, _⟩ := context
  cases change with
  | push container =>
    rcases stack with _ | ⟨innermost, outer⟩
    · rcases root with _ | root
      · exact hedited _ _
      · rfl
    · exact hedited _ _
  | pop =>
    rcases stack with _ | ⟨innermost, _ | ⟨parent, outer⟩⟩
    · rfl
    · exact hedited _ _
    · exact hedited _ _
  | leaf content =>
    rcases stack with _ | ⟨innermost, outer⟩
    · rfl
    · exact hedited _ _

theorem attempt (h : Aside f) (change : Edit) (context : Context) :
    (f context).attempt change = ((context.attempt change).1, f (context.attempt change).2) := by
  unfold Context.attempt
  rw [h.edit]
  cases context.edit change <;> rfl

theorem truncate (h : Aside f) (depth : Nat) (context : Context) :
    (f context).truncate depth = f (context.truncate depth) := by
  rw [h.eq_built context]
  exact (h context _ context.root).symm

theorem settle (h : Aside f) (depth : Nat) (outcome : Outcome) :
    Context.settle depth (outcome.1, f outcome.2) =
      ((Context.settle depth outcome).1, f (Context.settle depth outcome).2) := by
  obtain ⟨error | _, after⟩ := outcome
  · exact congrArg (Prod.mk _) (h.truncate depth after)
  · have hdepth : (f after).depth = after.depth := congrArg List.length (h.stack after)
    have hviolation : ∀ cause, (f after).violation cause = after.violation cause := fun cause => by
      rw [violation, openNames, h.stack]
      rfl
    by_cases hbalanced : after.depth = depth + 1
    · simp only [Context.settle, hdepth, hbalanced, ↓reduceIte]
      exact h.attempt .pop after
    · simp only [Context.settle, hdepth, hviolation, h.truncate, hbalanced, ↓reduceIte]

end Aside

/-! ## Options and signal -/

variable (options : RenderOptions → RenderOptions) (signal : Option Bool → Option Bool)

/-- Changes the options and the signal. -/
def retune (context : Context) : Context :=
  { context with options := options context.options, signal := signal context.signal }

theorem aside_retune : Aside (retune options signal) :=
  fun _ _ _ => rfl

theorem conclude_retune (outcome : Outcome) :
    conclude (outcome.1, outcome.2.retune options signal) =
      ((conclude outcome).1, (conclude outcome).2.retune options signal) := by
  obtain ⟨_ | _, after⟩ := outcome
  · rfl
  · obtain ⟨_, _, stack, root, _⟩ := after
    rcases stack with _ | ⟨innermost, outer⟩ <;> rcases root with _ | root <;> rfl

end Rendition.Context
