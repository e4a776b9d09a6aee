import Rendition.Registry

/-!
# Rendering with a registry

To visit a node is to run the program of the renderer registered for its kind.  The
program may in turn visit nodes, of its own node's children or any others, so only
the depth limit bounds the descent: every level uses up one unit of the budget that
the limit leaves (`Context.budget`), and a node met when nothing is left is an error.

A context that is still idle can be descended on as well, and a renderer met there
may start the one render of the context.  That render ends with an empty trail, so
what follows it has a new budget (`Registry.explore`).
-/

namespace Rendition.Registry

/-- Runs the renderer of a node's kind. -/
def invoke (registry : Registry) (dispatcher : Dispatcher) (node : Node) (context : Context) :
    Outcome :=
  match registry.resolve node.kind with
  | none => (.error (.unregisteredKind node.kind context.path), context)
  | some renderer => (renderer.write node).run dispatcher context

/-- The outcome of meeting a node beyond the depth limit. -/
def tooDeep (context : Context) : Outcome :=
  (.error (.depthLimitExceeded context.options.maxDepth context.path), context)

/-- Visits a node on a context that is in use, with a budget of levels. -/
def descend (registry : Registry) : Nat → Node → Context → Outcome
  | 0, _, context => tooDeep context
  | budget + 1, node, context =>
    registry.invoke ⟨registry.descend budget, fun _ => Context.refuse⟩ node context

/-- Renders a document: visits its root with the budget of the context. -/
def render (registry : Registry) (document : Node) (context : Context) :
    Except RenderError Rendered × Context :=
  context.renderWith (fun node entered => registry.descend entered.budget node entered) document

/-- Visits a node on a context that may be idle.  As long as it is, each level uses
up the budget; once its render is over, the rest of the descent is bounded by what
`Context.budget` says then. -/
def explore (registry : Registry) : Nat → Node → Context → Outcome
  | 0, _, context => tooDeep context
  | budget + 1, node, context =>
    registry.invoke
      { visit := fun child entered =>
          if entered.phase = .idle then
            registry.explore budget child entered
          else
            registry.descend entered.budget child entered
        render := registry.render }
      node context

/-- Visits and renders on any context. -/
def dispatcher (registry : Registry) : Dispatcher where
  visit node context :=
    if context.phase = .idle then
      registry.explore context.budget node context
    else
      registry.descend context.budget node context
  render := registry.render

/-- Runs a program on a context from outside of any renderer. -/
def run (registry : Registry) (program : Program) (context : Context) : Outcome :=
  program.run registry.dispatcher context

end Rendition.Registry
