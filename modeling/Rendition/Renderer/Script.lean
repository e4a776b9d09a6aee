import Rendition.Renderer.Basic
import Rendition.Render.Traversal

/-!
# Scripted renderers

A script is a list of steps on a context, written down as data.  It serves as a
renderer (`Renderer.scripted`), and its steps can be performed one by one on a
context from outside (`Step.perform`).  Steps that need a node take the one given
with `Step.about`, or else the node that the script is run for.
-/

namespace Rendition

/-- A step of a script. -/
inductive Step where
  /-- Opens a container. -/
  | push (kind : ContainerKind)
  /-- Closes the innermost container. -/
  | pop
  /-- Writes a leaf. -/
  | leaf (content : Leaf)
  /-- Takes steps inside a container. -/
  | within (kind : ContainerKind) (body : List Step)
  /-- Takes steps up to the first failure, and records the error instead of passing
  it on. -/
  | attempt (body : List Step)
  /-- Renders the children of the node. -/
  | children
  /-- Renders one child of the node, if it has that many, under an index. -/
  | child (position index : Nat)
  /-- Renders the node itself as a child of that index. -/
  | renderAs (index : Nat)
  /-- Writes the plain text of the node. -/
  | plainText
  /-- Writes a free-form attribute of the node, or an empty text without it. -/
  | extra (key : String)
  | warn (message : String)
  /-- Gets over a defect of the node with a warning, or fails in strict mode. -/
  | degrade (message : String)
  /-- Fails because of a defect of the node. -/
  | fail (message : String)
  /-- Raises the cancellation signal. -/
  | cancel
  /-- Records what the context looks like. -/
  | probe
  /-- Starts a render of the node. -/
  | render
  /-- Takes a step with another node. -/
  | about (node : Node) (step : Step)

namespace Step

mutual

/-- What a step does, for a node. -/
def program (node : Node) : Step → Program
  | push kind => .push (.empty kind)
  | pop => .pop
  | leaf content => .leaf content
  | within kind body => .enclose kind (programAll node body)
  | attempt body =>
    (programAll node body).andThen fun
      | .ok () => .skip
      | .error error => .notify (.journal (.failure error)) .skip
  | children => .children node
  | child position index =>
    match node.children[position]? with
    | none => .skip
    | some found => .child index found .done
  | renderAs index => .child index node .done
  | plainText => .leaf (.text node.plainText)
  | extra key => .leaf (.text (node.attrs.extra[key]?.getD ""))
  | warn message => .notify (.warn message) .skip
  | degrade message => .degrade node (.other message)
  | fail message => .reject node (.other message)
  | cancel => .notify .cancel .skip
  | probe => .look fun view => .notify (.journal (.snapshot view)) .skip
  | render => .render node fun result => .done (result.map fun _ => ())
  | about other step => step.program other

/-- Takes the steps of a script in order, up to the first failure. -/
def programAll (node : Node) : List Step → Program
  | [] => .skip
  | step :: rest => .seq (step.program node) (programAll node rest)

end

/-- Takes a step on a context from outside.  A render that succeeds hands out its
output. -/
def perform (registry : Registry) (node : Node) :
    Step → Context → Except RenderError (Option Rendered) × Context
  | about other step, context => step.perform registry other context
  | render, context =>
    let (result, after) := registry.render node context
    (result.map some, after)
  | step, context =>
    let (result, after) := registry.run (step.program node) context
    (result.map fun _ => none, after)

end Step

/-- What a step did to a context. -/
structure StepReport where
  result : Except RenderError (Option Rendered)
  /-- The context afterwards. -/
  view : View
  /-- What the step added to the journal. -/
  recorded : List JournalEntry

/-- Takes steps on a context, each one whatever became of those before it.  Without a
node of its own, a step is about an empty document. -/
def performAll (registry : Registry) : List Step → Context → List StepReport × Context
  | [], context => ([], context)
  | step :: rest, context =>
    let (result, after) := step.perform registry (.ofKind .document) context
    let (reports, final) := performAll registry rest after
    (⟨result, after.view, after.journal.drop context.journal.length⟩ :: reports, final)

/-- A renderer that runs a script for every node. -/
def Renderer.scripted (name : String) (script : List Step) : Renderer where
  name := name
  write node := Step.programAll node script

end Rendition
