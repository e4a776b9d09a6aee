import Rendition.Element.Kind

/-!
# What can go wrong in a render

A render ends with a complete tree or with exactly one `RenderError`.  Errors are
kept as causes (`Violation`, `Defect`, and where in the document the trouble is);
their wording is in `RenderError.message`.
-/

namespace Rendition

/-- One step down a document: the kind of a node and its index among its siblings. -/
structure PathStep where
  kind : NodeKind
  index : Nat
  deriving DecidableEq, Repr

/-- Where a node is in its document, from the root down. -/
abbrev NodePath := List PathStep

/-- A path as messages show it.  The root's index is left out. -/
def NodePath.display : NodePath → String
  | [] => "<root>"
  | root :: rest =>
    rest.foldl (fun text step => s!"{text}/{step.kind}[{step.index}]") root.kind.name

/-- The life of a render context. -/
inductive Phase where
  /-- Nothing rendered yet. -/
  | idle
  /-- Inside a render. -/
  | descending
  /-- The render is over and its root was handed out. -/
  | completed
  /-- The render failed and the partial tree was discarded. -/
  | aborted
  deriving DecidableEq, Repr

def Phase.name : Phase → String
  | idle => "Idle"
  | descending => "Descending"
  | completed => "Completed"
  | aborted => "Aborted"

/-- How a renderer can misuse its context. -/
inductive Violation where
  /-- A second render on one context. -/
  | reused (phase : Phase)
  /-- Containers are still open at the end of a render. -/
  | leftOpen (count : Nat)
  /-- The render of the root closed no container. -/
  | noRoot
  /-- A container is opened beside the finished root. -/
  | secondRoot (name : String)
  /-- Nothing is open that could be closed. -/
  | nothingToClose
  /-- A leaf is written while nothing is open. -/
  | orphanLeaf
  /-- The body of a scope closed too much or too little. -/
  | unbalanced (expected found : Nat)
  deriving DecidableEq, Repr

def Violation.message : Violation → String
  | reused phase => s!"render context is single-use (state: {phase.name})"
  | leftOpen count => s!"{count} container(s) left open after render"
  | noRoot => "root renderer produced no container"
  | secondRoot name => s!"cannot push top-level `{name}`: root already produced"
  | nothingToClose => "pop with empty container stack"
  | orphanLeaf => "leaf written with no open container"
  | unbalanced expected found =>
    s!"unbalanced push/pop: expected depth {expected}, found {found}"

/-- What can be wrong with a node. -/
inductive Defect where
  /-- The renderer is made for nodes of another kind. -/
  | wrongKind (expected : NodeKind)
  | missingLevel
  | levelOutOfRange (level : Nat)
  | missingText
  | linkWithoutDestination
  | imageWithoutDestination
  | markerWithoutState
  /-- A complaint in a renderer's own words. -/
  | other (message : String)
  deriving DecidableEq, Repr

def Defect.message : Defect → String
  | wrongKind expected => s!"renderer for `{expected}` cannot render it"
  | missingLevel => "missing heading level"
  | levelOutOfRange level => s!"heading level {level} out of range"
  | missingText => "missing text content"
  | linkWithoutDestination => "missing destination, rendering link text only"
  | imageWithoutDestination => "missing destination, rendering alt text only"
  | markerWithoutState => "missing checked state, rendering unchecked"
  | other message => message

/-- The error that ends a render. -/
inductive RenderError where
  /-- No renderer is registered for the kind of a node. -/
  | unregisteredKind (kind : NodeKind) (path : NodePath)
  /-- A renderer broke the rules of its context; `openNames` are the names of the
  containers open at that moment, outermost first. -/
  | invariantViolation (cause : Violation) (openNames : List String)
  /-- A node cannot be rendered as it is. -/
  | invalidInput (kind : NodeKind) (path : NodePath) (defect : Defect)
  /-- The node at `path` is nested more deeply than `limit` allows. -/
  | depthLimitExceeded (limit : Nat) (path : NodePath)
  /-- The render was called off before it came to the node at `path`. -/
  | cancelled (path : NodePath)
  deriving DecidableEq, Repr

def RenderError.message : RenderError → String
  | unregisteredKind kind path =>
    s!"no renderer registered for node kind `{kind}` at {path.display}"
  | invariantViolation cause openNames =>
    let names := ", ".intercalate openNames
    s!"render invariant violated: {cause.message} (open containers: [{names}])"
  | invalidInput kind path defect =>
    s!"invalid `{kind}` node at {path.display}: {defect.message}"
  | depthLimitExceeded limit path =>
    s!"nesting depth limit of {limit} exceeded at {path.display}"
  | cancelled path => s!"rendering cancelled at {path.display}"

/-- A problem that a render got over. -/
structure Warning where
  path : NodePath
  message : String
  deriving DecidableEq, Repr

def Warning.display (warning : Warning) : String :=
  s!"{warning.path.display}: {warning.message}"

end Rendition
