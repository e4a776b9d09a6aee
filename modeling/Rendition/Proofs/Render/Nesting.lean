import Rendition.Proofs.Element.Depth
import Rendition.Proofs.Render.Atomicity
import Rendition.Proofs.Render.Bounds
import Rendition.Proofs.Renderer.Builtin

/-!
# How deeply the output is nested

The depth limit is on nodes, and only their paths are ever compared with it.  That containers are
not nested more deeply than it says either is up to the renderers: a built-in one opens one
container for its node at most (`Program.NestsAtMost`), so there are never more containers open
than there are nodes on the path (`Pending.Roomy`).

For the output this is not enough, because a container that is closed goes on to count in the one
that it has been attached to.  What is kept of it is that each open container, with all that has
been attached to it and together with those around it, stays within the limit
(`Context.NestedWithin`).  To close the innermost one moves its depth one level up, where it
counts one more, and there is one container less around it.
-/

namespace Rendition

/-! ## Programs that nest a number of containers -/

namespace Program

/-- The program opens containers by scopes only, each with nothing but leaves in it, and no more
than `room` inside one another.  Containers of the nodes that it visits do not count. -/
def NestsAtMost : Program → Nat → Prop
  | done _, _ => True
  | look next, room => ∀ view, (next view).NestsAtMost room
  | notify _ next, room => next.NestsAtMost room
  | edit (.leaf _) next, room => ∀ result, (next result).NestsAtMost room
  | edit (.push _) _, _ | edit .pop _, _ => False
  | within container body next, room =>
    container.containerDepth ≤ 1 ∧ (∃ inner, room = inner + 1 ∧ body.NestsAtMost inner) ∧
      ∀ result, (next result).NestsAtMost room
  | child _ _ next, room => ∀ result, (next result).NestsAtMost room
  | render _ next, room => ∀ result, (next result).NestsAtMost room

/-- With `depth` containers open and `length` nodes on the path, there is a node for each
container that the program may open. -/
def FitsAt (program : Program) (depth length : Nat) : Prop :=
  ∃ room, depth + room ≤ length ∧ program.NestsAtMost room

variable {room : Nat}

/-- The only edit of such a program is to write a leaf. -/
theorem NestsAtMost.leaf_of_edit {change : Edit} {next : Except RenderError Unit → Program}
    (h : (edit change next).NestsAtMost room) : ∃ content, change = .leaf content := by
  rcases change with container | _ | content
  · cases h
  · cases h
  · exact ⟨content, rfl⟩

theorem Plain.nestsAtMost {node : Node} {program : Program} (h : program.Plain node) (room : Nat) :
    program.NestsAtMost room := by
  cases h with
  | skip => trivial
  | leaf content => exact fun _ => trivial
  | children =>
    exact children_induction (P := (·.NestsAtMost room)) trivial (fun _ => trivial)
      fun _ _ _ _ hnext => hnext

/-- Built-in renderers open one container at most. -/
theorem Built.nestsAtMost {node : Node} {program : Program} (h : program.Built node) :
    program.NestsAtMost 1 := by
  induction h with
  | reject defect => exact fun _ => trivial
  | plain h => exact h.nestsAtMost 1
  | enclose kind h => exact ⟨Nat.le_refl 1, ⟨0, rfl, h.nestsAtMost 0⟩, fun _ => trivial⟩
  | degrade defect h =>
    intro view
    by_cases hstrict : view.options.strict
    · simp only [hstrict, ↓reduceIte]
      trivial
    · simp only [hstrict]
      exact h.nestsAtMost 1
  | around _ ih => exact fun view => ih view.current

end Program

theorem Registry.IsBuiltin.nestsAtMost_dispatch {registry : Registry} (h : registry.IsBuiltin)
    (node : Node) (context : Context) : (registry.dispatch node context).NestsAtMost 1 := by
  have hwrites : registry.Writes (·.NestsAtMost 1) := fun kind renderer hresolve node =>
    ((h kind renderer hresolve).built node).nestsAtMost
  exact hwrites.dispatch node (fun _ => trivial) trivial

/-- With `depth` containers open and `length` nodes on the path, all that is pending fits when it is
resumed: a scope with its own container closed, a visit one level further up, and a render with
nothing open and no path. -/
def Pending.Roomy : List Pending → Nat → Nat → Prop
  | [], _, _ => True
  | scope outer next :: rest, depth, length =>
    depth = outer + 1 ∧ (∀ result, (next result).FitsAt outer length) ∧ Roomy rest outer length
  | visit next :: rest, depth, length =>
    (∀ result, (next result).FitsAt depth (length - 1)) ∧ Roomy rest depth (length - 1)
  | render next :: rest, _, _ => (∀ result, (next result).FitsAt 0 0) ∧ Roomy rest 0 0

/-! ## The depth of what has been built -/

/-- Each of some open containers, innermost first, stays within the limit inside those around
it. -/
def Container.StackedWithin (limit : Nat) : List Container → Prop
  | [] => True
  | innermost :: outer =>
    outer.length + innermost.containerDepth ≤ limit ∧ StackedWithin limit outer

namespace Container.StackedWithin

variable {limit : Nat}

/-- What is appended to the innermost container has one more container around it. -/
theorem append {innermost : Container} {outer : List Container} {element : Element}
    (h : StackedWithin limit (innermost :: outer))
    (helement : outer.length + 1 + element.containerDepth ≤ limit) :
    StackedWithin limit (innermost.append element :: outer) := by
  obtain ⟨hinnermost, houter⟩ := h
  refine ⟨?_, houter⟩
  rw [containerDepth_append]
  omega

theorem drop {stack : List Container} (h : StackedWithin limit stack) (count : Nat) :
    StackedWithin limit (stack.drop count) := by
  induction stack generalizing count with
  | nil => rwa [List.drop_nil]
  | cons innermost outer ih =>
    cases count with
    | zero => exact h
    | succ count => exact ih h.2 count

end Container.StackedWithin

namespace Context

variable {limit : Nat} {context changed : Context}

/-- What has been built is not nested more deeply than the limit. -/
structure NestedWithin (limit : Nat) (context : Context) : Prop where
  stack : Container.StackedWithin limit context.stack
  root : ∀ root, context.root = some root → root.containerDepth ≤ limit

namespace NestedWithin

theorem of_built_eq (h : NestedWithin limit context) (hbuilt : changed.built = context.built) :
    NestedWithin limit changed := by
  obtain ⟨hstack, hroot⟩ := Prod.mk.inj hbuilt
  exact ⟨hstack ▸ h.stack, hroot ▸ h.root⟩

theorem of_built_nil (h : context.built = ([], none)) : NestedWithin limit context := by
  obtain ⟨hstack, hroot⟩ := Prod.mk.inj h
  refine ⟨hstack ▸ trivial, fun root hsome => ?_⟩
  rw [hroot] at hsome
  cases hsome

/-- An edit keeps to the limit, if there is room for a container that it opens. -/
theorem edit {change : Edit} (h : NestedWithin limit context)
    (hedit : context.edit change = .ok changed)
    (hpush : ∀ container, change = .push container →
      context.depth + container.containerDepth ≤ limit) : NestedWithin limit changed := by
  rcases edit_cases hedit with ⟨container, hchange, -, rfl⟩ |
    ⟨innermost, outer, -, hstack, rfl⟩ | ⟨content, innermost, outer, -, hstack, rfl⟩
  · exact ⟨⟨hpush container hchange, h.stack⟩, h.root⟩
  · have hopen := h.stack
    rw [hstack] at hopen
    obtain ⟨hinnermost, houter⟩ := hopen
    rcases outer with _ | ⟨parent, outer⟩
    · refine ⟨trivial, fun root hroot => ?_⟩
      obtain rfl := Option.some.inj hroot
      simpa using hinnermost
    · -- one level up it counts one more, and there is one container less around it
      exact ⟨houter.append hinnermost, h.root⟩
  · have hopen := h.stack
    rw [hstack] at hopen
    refine ⟨hopen.append ?_, h.root⟩
    have hinnermost := hopen.1
    have hpos := innermost.containerDepth_pos
    show outer.length + 1 + 0 ≤ limit
    omega

theorem attempt {change : Edit} (h : NestedWithin limit context)
    (hpush : ∀ container, change ≠ .push container) :
    NestedWithin limit (context.attempt change).2 := by
  unfold Context.attempt
  split
  · exact h.edit ‹_› fun container hchange => absurd hchange (hpush container)
  · exact h

theorem settle (h : NestedWithin limit context) (depth : Nat) (result : Except RenderError Unit) :
    NestedWithin limit (Context.settle depth (result, context)).2 := by
  have htruncate : NestedWithin limit (context.truncate depth) := ⟨h.stack.drop _, h.root⟩
  cases result with
  | error error => exact htruncate
  | ok =>
    by_cases hdepth : context.depth = depth + 1
    · simp only [Context.settle, hdepth, ↓reduceIte]
      refine h.attempt fun container hpush => ?_
      cases hpush
    · simp only [Context.settle, hdepth, ↓reduceIte]
      exact htruncate

end NestedWithin

/-- Nothing is left in a context at the end of a render, and no node on the path. -/
theorem left_conclude (outcome : Outcome) :
    (conclude outcome).2.built = ([], none) ∧ (conclude outcome).2.trail = [] := by
  rcases conclude_cases outcome with ⟨error, hend⟩ | ⟨root, -, hstack, -, hend⟩
  · rw [hend]
    exact ⟨rfl, rfl⟩
  · rw [hend]
    exact ⟨Prod.ext hstack rfl, rfl⟩

end Context

open Context Registry

namespace Moment

variable {registry : Registry} {first second : Moment} {limit : Nat}

/-! ## Every moment of a render -/

/-- The invariant of a render with built-in renderers, from its first operation on. -/
structure Nested (limit : Nat) (moment : Moment) : Prop where
  level : Level limit moment
  program : moment.program.FitsAt moment.context.depth moment.context.trail.length
  pending : Pending.Roomy moment.pending moment.context.depth moment.context.trail.length
  built : NestedWithin limit moment.context
  used : moment.context.phase ≠ .idle

/-- A moment keeps to the invariant if all that lies ahead fits with as many containers open and
nodes on the path as its context has. -/
theorem nested_of_roomy {program : Program} {pending : List Pending} {context : Context}
    {depth length : Nat} (hlevel : Level limit ⟨program, pending, context⟩)
    (hdepth : context.depth = depth) (hlength : context.trail.length = length)
    (hprogram : program.FitsAt depth length) (hpending : Pending.Roomy pending depth length)
    (hbuilt : NestedWithin limit context) (hused : context.phase ≠ .idle) :
    Nested limit ⟨program, pending, context⟩ := by
  subst hdepth hlength
  exact ⟨hlevel, hprogram, hpending, hbuilt, hused⟩

theorem Nested.step (hreg : registry.IsBuiltin) (hs : registry.step first = some second)
    (h : Nested limit first) : Nested limit second := by
  have hlevel : Level limit second := h.level.step hs
  obtain ⟨program, pending, context⟩ := first
  obtain ⟨hfirst, ⟨room, hroom, hprogram⟩, hpending, hbuilt, hused⟩ := h
  cases program with
  | done result =>
    rcases pending with _ | ⟨⟨depth, next⟩ | next | next, pending⟩
    · cases hs
    · obtain rfl := Option.some.inj hs
      obtain ⟨hdepth, hnext, hrest⟩ := hpending
      have hsteady : Steady context (settle depth (result, context)).2 :=
        .settle depth (result, context)
      have hphase := hsteady.phase hused
      exact nested_of_roomy hlevel (depth_settle hdepth result)
        (congrArg List.length (hsteady.trail hphase)) (hnext _) hrest
        (hbuilt.settle depth result) (hphase ▸ hused)
    · obtain rfl := Option.some.inj hs
      obtain ⟨hnext, hrest⟩ := hpending
      exact nested_of_roomy hlevel rfl List.length_tail (hnext result) hrest
        (hbuilt.of_built_eq rfl) hused
    · obtain rfl := Option.some.inj hs
      obtain ⟨hnext, hrest⟩ := hpending
      obtain ⟨hleft, htrail⟩ := left_conclude (result, context)
      exact nested_of_roomy hlevel (depth_conclude (result, context))
        (congrArg List.length htrail) (hnext _) hrest (.of_built_nil hleft)
        (phase_conclude (result, context))
  | look next =>
    obtain rfl := Option.some.inj hs
    exact ⟨hlevel, ⟨room, hroom, hprogram _⟩, hpending, hbuilt, hused⟩
  | notify notice next =>
    obtain rfl := Option.some.inj hs
    have hsteady : Steady context (context.notify notice) := .notify notice context
    have hphase := hsteady.phase hused
    have hsame : (context.notify notice).built = context.built := by cases notice <;> rfl
    exact nested_of_roomy hlevel (depth_notify notice context)
      (congrArg List.length (hsteady.trail hphase)) ⟨room, hroom, hprogram⟩ hpending
      (hbuilt.of_built_eq hsame) (hphase ▸ hused)
  | edit change next =>
    obtain rfl := Option.some.inj hs
    obtain ⟨content, rfl⟩ := hprogram.leaf_of_edit
    have hsteady : Steady context (context.attempt (.leaf content)).2 := .attempt _ context
    have hphase := hsteady.phase hused
    exact nested_of_roomy hlevel (depth_leaf content context)
      (congrArg List.length (hsteady.trail hphase)) ⟨room, hroom, hprogram _⟩ hpending
      (hbuilt.attempt nofun) (hphase ▸ hused)
  | within container body next =>
    obtain ⟨hcontainer, ⟨inner, rfl, hbody⟩, hnext⟩ := hprogram
    simp only [Registry.step] at hs
    split at hs
    · obtain rfl := Option.some.inj hs
      exact ⟨hlevel, ⟨inner + 1, hroom, hnext _⟩, hpending, hbuilt, hused⟩
    · rename_i opened hopen
      obtain rfl := Option.some.inj hs
      have hsteady : Steady context opened := .edit hopen
      have hphase := hsteady.phase hused
      have hlength : context.trail.length ≤ limit := hfirst.length_le_of_not_isDone rfl
      dsimp only at hroom
      have hopened : NestedWithin limit opened := by
        refine hbuilt.edit hopen fun pushed hpushed => ?_
        obtain rfl := Edit.push.inj hpushed
        show context.depth + container.containerDepth ≤ limit
        omega
      refine nested_of_roomy hlevel (depth_push hopen) (congrArg List.length (hsteady.trail hphase))
        ⟨inner, ?_, hbody⟩ ?_ hopened (hphase ▸ hused)
      · omega
      · exact ⟨rfl, fun result => ⟨inner + 1, hroom, hnext result⟩, hpending⟩
  | child index node next =>
    have hvisit : Pending.Roomy (.visit next :: pending) context.depth (context.trail.length + 1) :=
      ⟨fun result => ⟨room, hroom, hprogram result⟩, hpending⟩
    have hentered : ∀ {program : Program}, program.NestsAtMost 1 →
        program.FitsAt context.depth (context.trail.length + 1) := by
      intro program hone
      refine ⟨1, ?_, hone⟩
      dsimp only at hroom
      omega
    simp only [Registry.step] at hs
    split at hs
    · obtain rfl := Option.some.inj hs
      exact ⟨hlevel, hentered trivial, hvisit, hbuilt.of_built_eq rfl, hused⟩
    · obtain rfl := Option.some.inj hs
      exact ⟨hlevel, hentered (hreg.nestsAtMost_dispatch node _), hvisit, hbuilt.of_built_eq rfl,
        hused⟩
  | render document next =>
    simp only [Registry.step, if_neg hused] at hs
    obtain rfl := Option.some.inj hs
    exact ⟨hlevel, ⟨room, hroom, hprogram _⟩, hpending, hbuilt, hused⟩

theorem Nested.reaches (hreg : registry.IsBuiltin) (hr : registry.Reaches first second)
    (h : Nested limit first) : Nested limit second :=
  hr.keeps (fun hs => Nested.step hreg hs) h

/-- The moment after the first step of a render on a fresh context. -/
theorem nested_of_begun (hreg : registry.IsBuiltin) (document : Node) (options : RenderOptions)
    (signal : Option Bool)
    (hs : registry.step (rendering document { options, signal }) = some second) :
    Nested options.maxDepth second := by
  have hlevel : Level options.maxDepth second := (level_fresh _ options signal).step hs
  obtain rfl := Option.some.inj hs
  refine ⟨hlevel, ⟨1, Nat.le_refl 1, hreg.nestsAtMost_dispatch document _⟩, ?_,
    .of_built_nil rfl, nofun⟩
  exact ⟨fun result => ⟨0, Nat.le_refl 0, trivial⟩, trivial⟩

/-! ## Invocations of renderers -/

/-- **What a step that may invoke a renderer does**: it steps down to a child, or begins a
render. -/
theorem enters_of_not_invokesNone (hs : registry.step first = some second)
    (h : ¬ first.InvokesNone) :
    (∃ index node next, first.program = .child index node next ∧
      second.context = first.context.enter ⟨node.kind, index⟩) ∨
    (∃ document next, first.program = .render document next ∧ first.context.phase = .idle ∧
      second.context = first.context.begin document) := by
  obtain ⟨program, pending, context⟩ := first
  cases program with
  | done result =>
    refine absurd (fun registry' registry'' => ?_) h
    rcases pending with _ | ⟨_ | _ | _, pending⟩ <;> rfl
  | look | notify | edit | within => exact absurd (fun registry' registry'' => rfl) h
  | child index node next =>
    refine Or.inl ⟨index, node, next, rfl, ?_⟩
    simp only [Registry.step] at hs
    split at hs <;> obtain rfl := Option.some.inj hs <;> rfl
  | render document next =>
    by_cases hidle : context.phase = .idle
    · refine Or.inr ⟨document, next, rfl, hidle, ?_⟩
      simp only [Registry.step, hidle, ↓reduceIte] at hs
      obtain rfl := Option.some.inj hs
      rfl
    · refine absurd (fun registry' registry'' => ?_) h
      simp only [Registry.step, hidle, ↓reduceIte]

/-- A renderer that is invoked in the course of a render finds fewer containers open than there
are nodes on its path. -/
theorem Nested.depth_lt (h : Nested limit first) (hs : registry.step first = some second)
    (hinvokes : ¬ first.InvokesNone) : second.context.depth < second.context.path.length := by
  obtain ⟨room, hroom, -⟩ := h.program
  rcases enters_of_not_invokesNone hs hinvokes with ⟨_, _, _, -, hentered⟩ | ⟨_, _, -, hidle, -⟩
  · rw [hentered, Context.path, List.length_reverse]
    show first.context.depth < first.context.trail.length + 1
    omega
  · exact absurd hidle h.used

end Moment

open Moment

/-- **Built-in renderers keep the output within the depth limit**, however deep the document is
and for whatever kinds they are registered.  At each invocation of a renderer fewer containers are
open than there are nodes on its path.  If the render succeeds, the output is no deeper than the
limit; so what goes down from container to container in it, to its plain text or to its markup,
is never inside more containers than that. -/
theorem nested_of_builtin (registry : Registry) (hreg : registry.IsBuiltin)
    (options : RenderOptions) (signal : Option Bool) (document : Node) :
    let fresh : Context := { options, signal }
    (∀ moment, registry.Reaches (rendering document fresh) moment →
      ∀ next, registry.step moment = some next → ¬ moment.InvokesNone →
        next.context.depth < next.context.path.length) ∧
    ∀ output, (registry.render document fresh).1 = .ok output →
      output.root.containerDepth ≤ options.maxDepth ∧
      ∀ inside, List.IsChain (fun outer inner => inner ∈ outer.childContainers)
          (output.root :: inside) →
        (output.root :: inside).length ≤ options.maxDepth := by
  intro fresh
  have hbegin : registry.step (rendering document fresh) = some _ := rfl
  have hbegun := nested_of_begun hreg document options signal hbegin
  constructor
  · intro moment hreaches next hs hinvokes
    rcases Relation.ReflTransGen.cases_head hreaches with rfl | ⟨begun, hstep, hlater⟩
    · obtain rfl := Option.some.inj hs
      exact Nat.zero_lt_one
    · obtain rfl := Option.some.inj (hbegin.symm.trans hstep)
      exact (hbegun.reaches hreg hlater).depth_lt hs hinvokes
  · intro output houtput
    have hend := hbegun.reaches hreg (reaches_run _ _ _)
    rw [render_of_idle registry document rfl, dispatcher_visit] at houtput
    rcases conclude_cases (registry.run (registry.dispatch document (fresh.begin document))
      (fresh.begin document)) with ⟨error, hfailed⟩ | ⟨root, -, -, hroot, hdone⟩
    · rw [hfailed] at houtput
      cases houtput
    · rw [hdone] at houtput
      obtain rfl := Except.ok.inj houtput
      have hdepth : root.containerDepth ≤ options.maxDepth := hend.built.root root hroot
      exact ⟨hdepth, fun inside hinside =>
        Nat.le_trans (Container.length_le_containerDepth hinside) hdepth⟩

/-- A kind of one's own that is rendered as a paragraph, and in it a link without destination, which
goes down a level without opening a container. -/
theorem nested_of_builtin_link :
    let registry := Registry.ofList [(.document, .container .document .document),
      (.custom "box", .container (.custom "box") .paragraph), (.link, .link), (.text, .text)]
    let document : Node := .mk .document {} [.mk (.custom "box") {} [.mk .link {} [.text "a"]]]
    ∃ output : Rendered, registry.IsBuiltin ∧
      (registry.render document { options := { maxDepth := 4 } }).1 = .ok output ∧
      output.root.containerDepth ≤ 4 := by
  intro registry document
  have hreg : registry.IsBuiltin := isBuiltin_ofList (by
    simp only [List.forall_mem_cons]
    exact ⟨.container _ _, .container _ _, .link, .text, List.forall_mem_nil _⟩)
  have houtput : (registry.render document { options := { maxDepth := 4 } }).1 = .ok _ := rfl
  have hnested := nested_of_builtin registry hreg { maxDepth := 4 } none document
  exact ⟨_, hreg, houtput, (hnested.2 _ houtput).1⟩

end Rendition
