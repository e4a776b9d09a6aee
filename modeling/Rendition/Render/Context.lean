import Rendition.Element.Basic
import Rendition.Node.Basic
import Rendition.Render.Error

/-!
# The state of a render

A `Context` is made for one render of one document.  Its core is the stack of open
containers: leaves and finished containers are attached to the innermost one, and
the container that is closed last becomes the root.  Besides it holds the trail of
nodes from the root to the one being rendered, the warnings so far, the phase of
the render, the cancellation signal if one is attached, and a journal of what
renderers chose to record.

An edit of the stack (`Context.edit`) that is refused leaves no new context at all,
so nothing changes by it; `Context.within` is the scoped form, which puts the stack
back on every way out.
-/

namespace Rendition

/-- Options of a single render. -/
structure RenderOptions where
  /-- Every problem that could be got over is an error instead. -/
  strict : Bool := false
  /-- How deeply nodes may be nested, the root included. -/
  maxDepth : Nat := 128
  deriving DecidableEq, Repr

/-- What a renderer can see of the context. -/
structure View where
  phase : Phase
  options : RenderOptions
  /-- Names of the open containers, outermost first. -/
  openNames : List String
  /-- Kind of the innermost open container. -/
  current : Option ContainerKind
  /-- Path of the node being rendered. -/
  path : NodePath
  deriving DecidableEq, Repr

/-- Number of open containers. -/
def View.depth (view : View) : Nat :=
  view.openNames.length

/-- An entry of the journal: an error that a renderer got over silently, or what
the context looked like at some moment. -/
inductive JournalEntry where
  | failure (error : RenderError)
  | snapshot (view : View)
  deriving DecidableEq, Repr

/-- The state of one render. -/
structure Context where
  options : RenderOptions := {}
  /-- The attached cancellation signal, raised or not. -/
  signal : Option Bool := none
  /-- Open containers, innermost first. -/
  stack : List Container := []
  /-- The finished outermost container. -/
  root : Option Container := none
  /-- The nodes from the one being rendered up to the root. -/
  trail : List PathStep := []
  /-- Warnings, oldest first. -/
  warnings : List Warning := []
  phase : Phase := .idle
  /-- What renderers recorded, oldest first. -/
  journal : List JournalEntry := []

/-- What a finished render hands out. -/
structure Rendered where
  root : Container
  warnings : List Warning

/-- A change to the stack of open containers. -/
inductive Edit where
  /-- Opens a container, which takes all that follows until it is closed. -/
  | push (container : Container)
  /-- Closes the innermost container. -/
  | pop
  /-- Writes a leaf to the innermost container. -/
  | leaf (content : Leaf)

/-- A message to the context that is never refused. -/
inductive Notice where
  /-- Reports a problem with the node being rendered. -/
  | warn (message : String)
  /-- Raises the cancellation signal, if there is one. -/
  | cancel
  | journal (entry : JournalEntry)

namespace Context

/-! ## Looking at a context -/

/-- Number of open containers. -/
def depth (context : Context) : Nat :=
  context.stack.length

/-- Names of the open containers, outermost first. -/
def openNames (context : Context) : List String :=
  context.stack.reverse.map (·.kind.name)

/-- Path of the node being rendered. -/
def path (context : Context) : NodePath :=
  context.trail.reverse

def view (context : Context) : View where
  phase := context.phase
  options := context.options
  openNames := context.openNames
  current := context.stack.head?.map (·.kind)
  path := context.path

/-- How many more levels of nodes fit below the trail. -/
def budget (context : Context) : Nat :=
  context.options.maxDepth + 1 - context.trail.length

def violation (context : Context) (cause : Violation) : RenderError :=
  .invariantViolation cause context.openNames

/-- Whether an attached signal is raised. -/
def isCancelled (context : Context) : Bool :=
  context.signal.getD false

/-! ## Changing a context -/

/-- Attaches a finished container to the innermost of the `parents`, or makes it the
root if there is none. -/
def attach (finished : Container) (parents : List Container) (context : Context) : Context :=
  match parents with
  | [] => { context with stack := [], root := some finished }
  | parent :: outer => { context with stack := parent.append finished.toElement :: outer }

/-- Applies an edit.  A container cannot be opened beside a finished root; closing
and writing need an open container. -/
def edit (change : Edit) (context : Context) : Except RenderError Context :=
  match change, context.stack with
  | .push container, [] =>
    if context.root.isSome then
      .error (context.violation (.secondRoot container.kind.name))
    else
      .ok { context with stack := [container] }
  | .push container, innermost :: outer =>
    .ok { context with stack := container :: innermost :: outer }
  | .pop, [] => .error (context.violation .nothingToClose)
  | .pop, innermost :: outer => .ok (context.attach innermost outer)
  | .leaf _, [] => .error (context.violation .orphanLeaf)
  | .leaf content, innermost :: outer =>
    .ok { context with stack := innermost.append (.leaf content) :: outer }

/-- Applies a notice. -/
def notify (notice : Notice) (context : Context) : Context :=
  match notice with
  | .warn message =>
    { context with warnings := context.warnings ++ [⟨context.path, message⟩] }
  | .cancel => { context with signal := context.signal.map fun _ => true }
  | .journal entry => { context with journal := context.journal ++ [entry] }

/-- Keeps only the `depth` outermost open containers. -/
def truncate (depth : Nat) (context : Context) : Context :=
  { context with stack := context.stack.drop (context.stack.length - depth) }

/-- Steps down to a node. -/
def enter (step : PathStep) (context : Context) : Context :=
  { context with trail := step :: context.trail }

/-- Steps back up. -/
def leave (context : Context) : Context :=
  { context with trail := context.trail.tail }

end Context

/-- How a step of a render ends: with success or an error, in a new context. -/
abbrev Outcome := Except RenderError Unit × Context

namespace Context

/-- The outcome of an edit; a refused one leaves the context as it is. -/
def attempt (change : Edit) (context : Context) : Outcome :=
  match context.edit change with
  | .ok changed => (.ok (), changed)
  | .error error => (.error error, context)

/-- Ends a scope that was opened when `depth` containers were open.  After a failure, or
with more or fewer containers open than when the scope began, everything from its
container on is discarded; otherwise its container is closed. -/
def settle (depth : Nat) : Outcome → Outcome
  | (.error error, after) => (.error error, after.truncate depth)
  | (.ok (), after) =>
    if after.depth = depth + 1 then
      after.attempt .pop
    else
      (.error (after.violation (.unbalanced (depth + 1) after.depth)), after.truncate depth)

/-- Opens a container, runs the body, and closes the container.  If the body fails,
or leaves more or fewer containers open than it found, everything from the container
on is discarded. -/
def within (container : Container) (body : Context → Outcome) (context : Context) : Outcome :=
  match context.edit (.push container) with
  | .error error => (.error error, context)
  | .ok opened => settle context.depth (body opened)

/-- Visits a child node under its index, unless the render has been called off. -/
def visitChild (visit : Node → Context → Outcome) (index : Nat) (child : Node)
    (context : Context) : Outcome :=
  let entered := context.enter ⟨child.kind, index⟩
  let (result, after) :=
    if entered.isCancelled then
      (.error (.cancelled entered.path), entered)
    else
      visit child entered
  (result, after.leave)

/-- Hands out the root and the warnings, if the stack is as it should be after a
complete render. -/
def finish (context : Context) : Except RenderError (Rendered × Context) :=
  if context.stack.isEmpty then
    match context.root with
    | none => .error (context.violation .noRoot)
    | some root => .ok (⟨root, context.warnings⟩, { context with root := none, warnings := [] })
  else
    .error (context.violation (.leftOpen context.depth))

/-- Refuses a render on a context that has been used. -/
def refuse {α : Type} (context : Context) : Except RenderError α × Context :=
  (.error (context.violation (.reused context.phase)), context)

/-- Discards the partial tree after a failed render. -/
def abort (context : Context) : Context :=
  { context with stack := [], root := none, trail := [], phase := .aborted }

/-- Begins the render of a document. -/
def begin (document : Node) (context : Context) : Context :=
  { context with phase := .descending }.enter ⟨document.kind, 0⟩

/-- Ends a render, once its document has been visited. -/
def conclude : Outcome → Except RenderError Rendered × Context
  | (.error error, after) => (.error error, after.abort)
  | (.ok (), after) =>
    match after.finish with
    | .error error => (.error error, after.abort)
    | .ok (output, finished) => (.ok output, { finished with trail := [], phase := .completed })

/-- Renders a document, given how a node is visited.  A context serves one render
only. -/
def renderWith (visit : Node → Context → Outcome) (document : Node) (context : Context) :
    Except RenderError Rendered × Context :=
  if context.phase = .idle then
    conclude (visit document (context.begin document))
  else
    context.refuse

end Context
end Rendition
