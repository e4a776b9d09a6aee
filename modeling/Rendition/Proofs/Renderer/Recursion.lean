import Rendition.Proofs.Renderer.Treatment

/-!
# Rendering by recursion

With the built-in renderers, a render is a structural recursion over the document
(`Node.rendered`).  The recursion has neither a stack of containers nor any other state: a
node, its path and its site determine the elements and warnings that it yields, or the
first error in it (`Node.yield`).  All that is left of the stack is the **site**: the kind
of the innermost open container or, where none is open, whether there is a root already.

The proof shows by induction on the document that a visit **delivers** what the recursion
yields (`Context.Delivers`): the context gains just these elements and warnings at its top,
and all below the top stays as it was.
-/

namespace Rendition

/-- What a node adds to the elements around it, and the warnings on the way. -/
structure Yield where
  elements : List Element := []
  warnings : List Warning := []

namespace Yield

def append (first second : Yield) : Yield :=
  ⟨first.elements ++ second.elements, first.warnings ++ second.warnings⟩

/-- One yield after another, up to the first error. -/
def andThen (first : Except RenderError Yield) (second : Yield → Except RenderError Yield) :
    Except RenderError Yield :=
  match first with
  | .error error => .error error
  | .ok yield => (second yield).map yield.append

@[simp] theorem empty_append (yield : Yield) : append {} yield = yield := by
  simp [append]

@[simp] theorem andThen_empty (second : Yield → Except RenderError Yield) :
    andThen (.ok {}) second = second {} := by
  cases h : second {} <;> simp [andThen, h, Except.map]

/-- The first container among the elements. -/
def root? (yield : Yield) : Option Container :=
  yield.elements.findSome? Element.asContainer?

end Yield

/-- Where elements go. -/
inductive Site where
  /-- Into a container. -/
  | inside (kind : ContainerKind)
  /-- Nowhere yet: no container is open; there is a root already, or there is none. -/
  | outside (rooted : Bool)

namespace Site

/-- The kind of the container. -/
def around : Site → Option ContainerKind
  | inside kind => some kind
  | outside _ => none

/-- The site after elements were added to it. -/
def after (yield : Yield) : Site → Site
  | inside kind => inside kind
  | outside rooted => outside (rooted || yield.root?.isSome)

/-- A container around what its body yields; there is no place for it beside a root. -/
def enclose (kind : ContainerKind) (body : Except RenderError Yield) :
    Site → Except RenderError Yield
  | outside true => .error (.invariantViolation (.secondRoot kind.name) [])
  | inside _ | outside false =>
    body.map fun yield => ⟨[.container kind yield.elements], yield.warnings⟩

/-- A leaf, which has to be in a container. -/
def place : Option Leaf → Site → Except RenderError Yield
  | none, _ => .ok {}
  | some content, inside _ => .ok { elements := [.leaf content] }
  | some _, outside _ => .error (.invariantViolation .orphanLeaf [])

end Site

/-- What a shortcoming yields: a warning, or an error in strict mode. -/
def NodeKind.complain (attrs : Attributes) (options : RenderOptions) (path : NodePath)
    (kind : NodeKind) : Except RenderError Yield :=
  match kind.shortcoming attrs with
  | none => .ok {}
  | some defect =>
    if options.strict then
      .error (.invalidInput kind path defect)
    else
      .ok { warnings := [⟨path, s!"{kind}: {defect.message}"⟩] }

/-- What a treatment yields for a node, where `children` is what its children yield at a
site. -/
def Treatment.yield (kind : NodeKind) (path : NodePath) (site : Site)
    (children : Site → Except RenderError Yield) : Treatment → Except RenderError Yield
  | refused defect => .error (.invalidInput kind path defect)
  | container shape => site.enclose shape (children (.inside shape))
  | block shape content => site.enclose shape ((Site.inside shape).place content)
  | leaf content => site.place content
  | unwrapped => children site

namespace Node

mutual

/-- What a node yields at a path and a site. -/
def yield (options : RenderOptions) (path : NodePath) (site : Site) :
    Node → Except RenderError Yield
  | mk kind attrs children =>
    if options.maxDepth < path.length then
      .error (.depthLimitExceeded options.maxDepth path)
    else
      match kind.treatment attrs site.around with
      | none => .error (.unregisteredKind kind path)
      | some treatment => Yield.andThen (kind.complain attrs options path) fun _ =>
        treatment.yield kind path site fun within => yieldAll options path within 0 children

/-- What nodes yield as children of the node at a path, from an index on. -/
def yieldAll (options : RenderOptions) (path : NodePath) (site : Site) (index : Nat) :
    List Node → Except RenderError Yield
  | [] => .ok {}
  | child :: rest =>
    Yield.andThen (child.yield options (path ++ [⟨child.kind, index⟩]) site) fun first =>
      yieldAll options path (site.after first) (index + 1) rest

end

/-- The result of rendering a document. -/
def rendered (options : RenderOptions) (document : Node) : Except RenderError Rendered :=
  match document.yield options [⟨document.kind, 0⟩] (.outside false) with
  | .error error => .error error
  | .ok yield =>
    match yield.root? with
    | none => .error (.invariantViolation .noRoot [])
    | some root => .ok ⟨root, yield.warnings⟩

end Node

/-! ## Contexts that gain a yield -/

namespace Context

variable {context : Context} {registry : Registry}

/-- Where elements go in the context. -/
def site (context : Context) : Site :=
  match context.stack with
  | [] => .outside context.root.isSome
  | innermost :: _ => .inside innermost.kind

/-- The context with a yield added at its site. -/
def gain (yield : Yield) (context : Context) : Context :=
  match context.stack with
  | [] => { context with
      root := context.root.or yield.root?
      warnings := context.warnings ++ yield.warnings }
  | innermost :: outer => { context with
      stack := { innermost with children := innermost.children ++ yield.elements } :: outer
      warnings := context.warnings ++ yield.warnings }

@[simp] theorem options_gain (yield : Yield) (context : Context) :
    (context.gain yield).options = context.options := by
  unfold gain
  split <;> rfl

@[simp] theorem trail_gain (yield : Yield) (context : Context) :
    (context.gain yield).trail = context.trail := by
  unfold gain
  split <;> rfl

@[simp] theorem path_gain (yield : Yield) (context : Context) :
    (context.gain yield).path = context.path := by
  rw [path, trail_gain, path]

@[simp] theorem isCancelled_gain (yield : Yield) (context : Context) :
    (context.gain yield).isCancelled = context.isCancelled := by
  unfold gain isCancelled
  split <;> rfl

@[simp] theorem site_gain (yield : Yield) (context : Context) :
    (context.gain yield).site = context.site.after yield := by
  cases hstack : context.stack with
  | nil => simp [gain, site, hstack, Site.after]
  | cons innermost outer => simp [gain, site, hstack, Site.after]

theorem gain_gain (first second : Yield) (context : Context) :
    (context.gain first).gain second = context.gain (first.append second) := by
  cases hstack : context.stack with
  | nil => simp [gain, hstack, Yield.append, Yield.root?, List.findSome?_append, Option.or_assoc]
  | cons innermost outer => simp [gain, hstack, Yield.append]

@[simp] theorem gain_empty (context : Context) : context.gain {} = context := by
  obtain ⟨_, _, stack, _⟩ := context
  cases stack with
  | nil => simp [gain, Yield.root?]
  | cons innermost outer => simp [gain]

theorem gain_enter (step : PathStep) (yield : Yield) (context : Context) :
    ((context.enter step).gain yield).leave = context.gain yield := by
  obtain ⟨_, _, stack, _⟩ := context
  cases stack <;> rfl

theorem notify_warn (message : String) (context : Context) :
    context.notify (.warn message) = context.gain { warnings := [⟨context.path, message⟩] } := by
  cases hstack : context.stack with
  | nil => simp [notify, gain, hstack, Yield.root?]
  | cons innermost outer => simp [notify, gain, hstack]

theorem around_site (context : Context) : context.site.around = context.view.current := by
  cases hstack : context.stack with
  | nil => simp [site, view, hstack, Site.around]
  | cons innermost outer => simp [site, view, hstack, Site.around]

/-! ## Deliveries -/

/-- The outcome is what was expected: the context gained the yield, or the error is the
expected one.  Nothing is said of the context after an error, which ends the render. -/
def Delivers (context : Context) (expected : Except RenderError Yield) (outcome : Outcome) : Prop :=
  match expected with
  | .ok yield => outcome = (.ok (), context.gain yield)
  | .error error => outcome.1 = .error error

/-- One delivery after another, up to the first error. -/
theorem Delivers.andThen {first : Except RenderError Yield} {outcome : Outcome} {next : Program}
    {second : Yield → Except RenderError Yield} (hfirst : Delivers context first outcome)
    (hsecond : ∀ yield, first = .ok yield →
      Delivers (context.gain yield) (second yield) (registry.run next (context.gain yield))) :
    Delivers context (Yield.andThen first second)
      (registry.run (.onSuccess next outcome.1) outcome.2) := by
  cases first with
  | error error =>
    have hresult : outcome.1 = .error error := hfirst
    rw [hresult]
    rfl
  | ok yield =>
    obtain rfl : outcome = (.ok (), context.gain yield) := hfirst
    have hrest := hsecond yield rfl
    show Delivers context ((second yield).map yield.append)
      (registry.run next (context.gain yield))
    cases hyield : second yield with
    | error error =>
      rw [hyield] at hrest
      exact hrest
    | ok more =>
      rw [hyield] at hrest
      exact hrest.trans (by rw [gain_gain])

theorem delivers_place (content : Option Leaf) :
    Delivers context (context.site.place content) (registry.run (.leaf? content) context) := by
  cases content with
  | none => exact congrArg (Prod.mk _) (gain_empty context).symm
  | some content =>
    obtain ⟨_, _, stack, _⟩ := context
    cases stack with
    | nil => rfl
    | cons innermost outer =>
      simp [Delivers, site, Site.place, gain, Program.leaf?, Program.leaf, Registry.run,
        Program.run, attempt, edit, Container.append]

/-- A container that could be opened is closed with what its body yields. -/
theorem settle_gain {kind : ContainerKind} {yield : Yield}
    (h : context.stack = [] → context.root = none) :
    settle context.depth (.ok (),
        { context with stack := .empty kind :: context.stack }.gain yield) =
      (.ok (), context.gain ⟨[.container kind yield.elements], yield.warnings⟩) := by
  obtain ⟨_, _, stack, _⟩ := context
  cases stack with
  | nil =>
    obtain rfl := h rfl
    rfl
  | cons innermost outer =>
    simp [settle, gain, depth, attempt, edit, attach, Container.append, Container.toElement,
      Container.empty]

/-- A container that can be opened is yielded around what its body yields. -/
theorem enclose_site {kind : ContainerKind} (body : Except RenderError Yield)
    (h : context.stack = [] → context.root = none) :
    context.site.enclose kind body =
      body.map fun yield => ⟨[.container kind yield.elements], yield.warnings⟩ := by
  obtain ⟨_, _, stack, _⟩ := context
  cases stack with
  | nil =>
    obtain rfl := h rfl
    rfl
  | cons innermost outer => rfl

theorem delivers_enclose {kind : ContainerKind} {body : Program}
    {expected : Except RenderError Yield}
    (h : let opened := { context with stack := .empty kind :: context.stack }
      Delivers opened expected (registry.run body opened)) :
    Delivers context (context.site.enclose kind expected)
      (registry.run (.enclose kind body) context) := by
  change Delivers context _ (context.within (.empty kind) (registry.run body))
  unfold within
  split
  · -- a container is refused beside a root only
    rename_i error hopen
    obtain ⟨_, _, stack, root, _⟩ := context
    rcases stack with _ | ⟨innermost, outer⟩ <;> rcases root with _ | root <;> cases hopen
    rfl
  · rename_i opened hopen
    obtain ⟨container, hpush, hroot, rfl⟩ | ⟨_, _, hpush, -⟩ | ⟨_, _, _, hpush, -⟩ :=
      edit_cases hopen
    · cases hpush
      rw [enclose_site expected hroot]
      cases expected with
      | error error => exact settle_of_error h
      | ok yield =>
        have houtcome : registry.run body _ = (.ok (), _) := h
        rw [houtcome]
        exact settle_gain hroot
    -- no other edit opens a container
    · cases hpush
    · cases hpush

theorem delivers_visitChild {visit : Node → Context → Outcome} {index : Nat} {child : Node}
    {expected : Except RenderError Yield} (hlive : context.isCancelled = false)
    (h : let entered := context.enter ⟨child.kind, index⟩
      Delivers entered expected (visit child entered)) :
    Delivers context expected (context.visitChild visit index child) := by
  rw [visitChild_of_not_cancelled hlive]
  cases expected with
  | error error => exact h
  | ok yield =>
    have houtcome : visit child (context.enter _) = (.ok (), _) := h
    rw [houtcome, gain_enter]
    rfl

theorem delivers_complain {node : Node} {defect : Defect}
    (h : node.kind.shortcoming node.attrs = some defect) :
    Delivers context (node.kind.complain node.attrs context.options context.path)
      (registry.run (.degrade node defect) context) := by
  simp only [NodeKind.complain, h]
  change Delivers context _ (registry.run (if context.options.strict then _ else _) context)
  by_cases hstrict : context.options.strict
  · rw [if_pos hstrict, if_pos hstrict]
    rfl
  · rw [if_neg hstrict, if_neg hstrict]
    exact congrArg (Prod.mk _) (notify_warn _ context)

/-- A complaint yields no elements. -/
theorem after_complain {node : Node} {options : RenderOptions} {path : NodePath} {yield : Yield}
    (h : node.kind.complain node.attrs options path = .ok yield) (site : Site) :
    site.after yield = site := by
  have helements : yield.elements = [] := by
    unfold NodeKind.complain at h
    split at h
    · cases h
      rfl
    · split at h <;> cases h
      rfl
  cases site with
  | inside kind => rfl
  | outside rooted => simp [Site.after, Yield.root?, helements]

end Context

namespace Program

variable {dispatcher : Dispatcher}

theorem run_andThen (program : Program) (next : Except RenderError Unit → Program)
    (context : Context) :
    (program.andThen next).run dispatcher context =
      (next (program.run dispatcher context).1).run dispatcher
        (program.run dispatcher context).2 := by
  induction program generalizing context with
  | done result => rfl
  | look _ ih => exact ih _ _
  | notify _ _ ih => exact ih _
  | edit _ _ ih => exact ih _ _
  | within _ _ _ _ ih => exact ih _ _
  | child _ _ _ ih => exact ih _ _
  | render _ _ ih => exact ih _ _

theorem run_seq (first second : Program) (context : Context) :
    (first.seq second).run dispatcher context =
      (onSuccess second (first.run dispatcher context).1).run dispatcher
        (first.run dispatcher context).2 :=
  run_andThen first _ context

end Program

namespace Context

variable {context : Context}

/-- The treatment of a node delivers what it yields, if the children of the node do. -/
theorem delivers_program {registry : Registry} {node : Node}
    {children : Site → Except RenderError Yield}
    (h : ∀ reached : Context, reached.options = context.options → reached.path = context.path →
      reached.isCancelled = context.isCancelled →
      Delivers reached (children reached.site) (registry.run (.children node) reached))
    (treatment : Treatment) :
    Delivers context (treatment.yield node.kind context.path context.site children)
      (registry.run (treatment.program node) context) := by
  cases treatment with
  | refused defect => rfl
  | container kind => exact delivers_enclose (h _ rfl rfl rfl)
  | block kind content => exact delivers_enclose (delivers_place content)
  | leaf content => exact delivers_place content
  | unwrapped => exact h context rfl rfl rfl

theorem delivers_treat {registry : Registry} {node : Node} {treatment : Treatment}
    {children : Site → Except RenderError Yield}
    (h : ∀ reached : Context, reached.options = context.options → reached.path = context.path →
      reached.isCancelled = context.isCancelled →
      Delivers reached (children reached.site) (registry.run (.children node) reached)) :
    Delivers context
      (Yield.andThen (node.kind.complain node.attrs context.options context.path) fun _ =>
        treatment.yield node.kind context.path context.site children)
      (registry.run (.treat node treatment) context) := by
  unfold Program.treat
  cases hdefect : node.kind.shortcoming node.attrs with
  | none =>
    have hcomplain : node.kind.complain node.attrs context.options context.path = .ok {} := by
      simp only [NodeKind.complain, hdefect]
    rw [hcomplain, Yield.andThen_empty]
    exact delivers_program h treatment
  | some defect =>
    simp only
    rw [Registry.run, Program.run_seq]
    refine (delivers_complain hdefect).andThen fun yield hyield => ?_
    -- the complaint wrote nothing, so the treatment finds the site of the node
    have hsite : (context.gain yield).site = context.site := by
      rw [site_gain, after_complain hyield]
    have hprogram : Delivers (context.gain yield) _
        (registry.run (treatment.program node) (context.gain yield)) :=
      delivers_program (fun reached ho hp hc =>
        h reached (by simpa using ho) (by simpa using hp) (by simpa using hc)) treatment
    rwa [path_gain, hsite] at hprogram

mutual

/-- **A visit delivers what the node yields**, unless the render is called off. -/
theorem delivers_visit (node : Node) (context : Context) (hlive : context.isCancelled = false) :
    Delivers context (node.yield context.options context.path context.site)
      (Registry.defaults.dispatcher.visit node context) := by
  obtain ⟨kind, attrs, children⟩ := node
  have hlength : context.path.length = context.trail.length := List.length_reverse
  rw [Registry.dispatcher_visit, Node.yield, hlength]
  by_cases hdeep : context.options.maxDepth < context.trail.length
  · rw [Registry.dispatch_of_tooDeep _ hdeep, if_pos hdeep]
    rfl
  · rw [Registry.run_dispatch_defaults _ _ hdeep, if_neg hdeep, around_site]
    simp only [Node.kind_mk, Node.attrs_mk]
    cases kind.treatment attrs context.view.current with
    | none => rfl
    | some treatment =>
      refine @delivers_treat _ _ (.mk kind attrs children) _ _ fun reached ho hp hc => ?_
      have hchildren := delivers_children children 0 reached (hc.trans hlive)
      rwa [ho, hp] at hchildren

/-- The children of a node deliver what they yield. -/
theorem delivers_children (children : List Node) (index : Nat) (context : Context)
    (hlive : context.isCancelled = false) :
    Delivers context
      (Node.yieldAll context.options context.path context.site index children)
      (Registry.defaults.run (.childrenFrom index children) context) := by
  cases children with
  | nil => exact congrArg (Prod.mk _) (gain_empty context).symm
  | cons child rest =>
    rw [Node.yieldAll]
    change Delivers context _ (Registry.defaults.run (.onSuccess (.childrenFrom (index + 1) rest)
      (context.visitChild Registry.defaults.dispatcher.visit index child).1) _)
    refine Delivers.andThen ?_ fun yield _ => ?_
    · have hchild := delivers_visit child (context.enter ⟨child.kind, index⟩) hlive
      have hpath : (context.enter ⟨child.kind, index⟩).path =
          context.path ++ [⟨child.kind, index⟩] := List.reverse_cons
      rw [hpath] at hchild
      exact delivers_visitChild hlive hchild
    · -- the siblings find the site as the child has left it
      have hrest := delivers_children rest (index + 1) (context.gain yield) (by simpa using hlive)
      rwa [options_gain, path_gain, site_gain] at hrest

end

end Context

open Context

/-- The result of a render, from what its document yields. -/
def Yield.rendered : Except RenderError Yield → Except RenderError Rendered
  | .error error => .error error
  | .ok yield =>
    match yield.root? with
    | none => .error (.invariantViolation .noRoot [])
    | some root => .ok ⟨root, yield.warnings⟩

/-- Where nothing was rendered yet, what is delivered by the visit of the document becomes the
result. -/
theorem Registry.render_of_delivers {registry : Registry} {context : Context} (document : Node)
    (hidle : context.phase = .idle) (hstack : context.stack = []) (hroot : context.root = none)
    (hwarnings : context.warnings = []) {expected : Except RenderError Yield}
    (hvisit : Delivers (context.begin document) expected
      (registry.dispatcher.visit document (context.begin document))) :
    (registry.render document context).1 = Yield.rendered expected := by
  rw [render_of_idle registry document hidle]
  cases expected with
  | error error => exact conclude_of_error hvisit
  | ok yield =>
    -- nothing was open, so whatever the document yields has become the root
    have houtcome : registry.dispatcher.visit document (context.begin document) =
        (.ok (), (context.begin document).gain yield) := hvisit
    have hgain : (context.begin document).gain yield =
        { context.begin document with root := yield.root?, warnings := yield.warnings } := by
      simp [gain, begin, enter, hstack, hroot, hwarnings]
    rw [houtcome, hgain, Yield.rendered]
    cases hroot : yield.root? with
    | none => simp [conclude, finish, begin, enter, hstack, violation, openNames]
    | some root => simp [conclude, finish, begin, enter, hstack]

/-- Where nothing was rendered yet, the result of a render is that of the recursion. -/
theorem Registry.render_defaults {context : Context} (document : Node)
    (hidle : context.phase = .idle) (hstack : context.stack = []) (hroot : context.root = none)
    (htrail : context.trail = []) (hwarnings : context.warnings = [])
    (hlive : context.isCancelled = false) :
    (defaults.render document context).1 = document.rendered context.options := by
  have hvisit := delivers_visit document (context.begin document) hlive
  have hsite : (context.begin document).site = .outside false := by
    simp [begin, enter, site, hstack, hroot]
  have hpath : (context.begin document).path = [⟨document.kind, 0⟩] := by
    simp [begin, enter, path, htrail]
  rw [hsite, hpath] at hvisit
  exact render_of_delivers document hidle hstack hroot hwarnings hvisit

/-- **Rendering with the built-in renderers is a recursion over the document**: on a fresh
context without a cancellation signal, whatever the document and the options are. -/
theorem render_defaults_of_fresh (options : RenderOptions) (document : Node) :
    (Registry.defaults.render document { options }).1 = document.rendered options :=
  Registry.render_defaults document rfl rfl rfl rfl rfl rfl

/-- A link without a destination is rendered as what it holds, here the root. -/
example : ((Node.ofKind .link).withChild (.paragraph [])).rendered {} =
    .ok ⟨.empty .paragraph,
      [⟨[⟨.link, 0⟩], "link: missing destination, rendering link text only"⟩]⟩ := rfl

end Rendition
