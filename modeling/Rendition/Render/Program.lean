import Rendition.Node.Text
import Rendition.Render.Context

/-!
# Programs of renderers

What a renderer does with its context is a `Program`: a tree of context operations
in which each operation that may fail is followed by a continuation for either
result.  A program may therefore react to errors, swallow them, and edit the stack
in any order; what it cannot do is run for ever by itself.

`Program.run` gives a program its meaning.  The two operations that reach beyond
the context, visiting a child node and starting a render, are left to a
`Dispatcher`.
-/

namespace Rendition

/-- A renderer's dealings with its context. -/
inductive Program where
  /-- Ends with a result. -/
  | done (result : Except RenderError Unit)
  /-- Looks at the context. -/
  | look (next : View → Program)
  /-- Sends a notice. -/
  | notify (notice : Notice) (next : Program)
  /-- Edits the stack. -/
  | edit (change : Edit) (next : Except RenderError Unit → Program)
  /-- Runs a body inside a container. -/
  | within (container : Container) (body : Program) (next : Except RenderError Unit → Program)
  /-- Renders a node as the child of that index. -/
  | child (index : Nat) (node : Node) (next : Except RenderError Unit → Program)
  /-- Starts a render. -/
  | render (document : Node) (next : Except RenderError Rendered → Program)

/-- How nodes are visited and renders started. -/
structure Dispatcher where
  visit : Node → Context → Outcome
  render : Node → Context → Except RenderError Rendered × Context

namespace Program

/-- Runs a program. -/
def run (dispatcher : Dispatcher) : Program → Context → Outcome
  | done result, context => (result, context)
  | look next, context => (next context.view).run dispatcher context
  | notify notice next, context => next.run dispatcher (context.notify notice)
  | edit change next, context =>
    let (result, after) := context.attempt change
    (next result).run dispatcher after
  | within container body next, context =>
    let (result, after) := context.within container (body.run dispatcher)
    (next result).run dispatcher after
  | child index node next, context =>
    let (result, after) := context.visitChild dispatcher.visit index node
    (next result).run dispatcher after
  | render document next, context =>
    let (result, after) := dispatcher.render document context
    (next result).run dispatcher after

/-- Continues a program with whatever its result is. -/
def andThen : Program → (Except RenderError Unit → Program) → Program
  | done result, k => k result
  | look next, k => look fun view => (next view).andThen k
  | notify notice next, k => notify notice (next.andThen k)
  | edit change next, k => edit change fun result => (next result).andThen k
  | within container body next, k => within container body fun result => (next result).andThen k
  | child index node next, k => child index node fun result => (next result).andThen k
  | render document next, k => render document fun result => (next result).andThen k

/-- Passes an error on, and goes on with `next` after success. -/
def onSuccess (next : Program) : Except RenderError Unit → Program
  | .ok () => next
  | .error error => done (.error error)

/-- Runs one program after another, unless the first one fails. -/
def seq (first second : Program) : Program :=
  first.andThen (onSuccess second)

/-! ## Building blocks of renderers -/

/-- Succeeds at once. -/
def skip : Program := done (.ok ())

/-- Fails because of what is wrong with a node. -/
def reject (node : Node) (defect : Defect) : Program :=
  look fun view => done (.error (.invalidInput node.kind view.path defect))

/-- Gets over what is wrong with a node with a warning, or fails because of it in
strict mode. -/
def degrade (node : Node) (defect : Defect) : Program :=
  look fun view =>
    if view.options.strict then
      done (.error (.invalidInput node.kind view.path defect))
    else
      notify (.warn s!"{node.kind}: {defect.message}") skip

def push (container : Container) : Program := edit (.push container) done

def pop : Program := edit .pop done

def leaf (content : Leaf) : Program := edit (.leaf content) done

/-- Runs a body inside a new container of a kind. -/
def enclose (kind : ContainerKind) (body : Program) : Program :=
  within (.empty kind) body done

/-- Renders nodes as the children from an index on, up to the first failure. -/
def childrenFrom (index : Nat) : List Node → Program
  | [] => skip
  | node :: rest => child index node (onSuccess (childrenFrom (index + 1) rest))

/-- Renders the children of a node in order. -/
def children (node : Node) : Program :=
  childrenFrom 0 node.children

end Program
end Rendition
