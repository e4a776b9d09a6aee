import Rendition.Proofs.Render.Lifecycle
import Rendition.Proofs.Render.Scope

/-!
# What edits write

The open containers of a context, each with what it holds so far, and the finished root are
written down as a word of **brackets**: a container opens, a leaf, a container closes.  The word
of what a context holds (`Context.brackets`) lacks the closing brackets of what is still open,
and nothing else.

Every edit that is not refused adds its own brackets at the end of that word
(`Context.brackets_edit`), and so the word is at all times that of the edits so far, in their
order.  It says everything about what the context holds, since that is what comes of making
the edits of the word again (`Context.attemptAll_brackets`).
-/

namespace Rendition

/-- A letter of a tree that is written down. -/
inductive Bracket where
  | opening (kind : ContainerKind)
  | leaf (content : Leaf)
  | closing
  deriving DecidableEq, Repr

namespace Element

mutual

/-- An element written down, depth first. -/
def brackets : Element → List Bracket
  | leaf content => [.leaf content]
  | container kind children => .opening kind :: bracketsAll children ++ [.closing]

/-- Elements written down one after another. -/
def bracketsAll : List Element → List Bracket
  | [] => []
  | element :: rest => element.brackets ++ bracketsAll rest

end

theorem bracketsAll_append (first second : List Element) :
    bracketsAll (first ++ second) = bracketsAll first ++ bracketsAll second := by
  induction first with
  | nil => rfl
  | cons element rest ih => rw [List.cons_append, bracketsAll, ih, bracketsAll, List.append_assoc]

end Element

namespace Container

/-- An open container with what it holds so far. -/
def opening (container : Container) : List Bracket :=
  .opening container.kind :: Element.bracketsAll container.children

theorem brackets_toElement (container : Container) :
    container.toElement.brackets = container.opening ++ [.closing] := rfl

theorem opening_append (container : Container) (element : Element) :
    (container.append element).opening = container.opening ++ element.brackets := by
  simp only [opening, append, Element.bracketsAll_append, Element.bracketsAll, List.append_nil,
    List.cons_append]

end Container

/-- What an edit writes.  A container that is opened brings what it holds already. -/
def Edit.brackets : Edit → List Bracket
  | push container => container.opening
  | pop => [.closing]
  | leaf content => [.leaf content]

/-- The edit that writes a bracket. -/
def Bracket.edit : Bracket → Edit
  | opening kind => .push (.empty kind)
  | leaf content => .leaf content
  | closing => .pop

namespace Context

/-- What a context holds: the root, or else the open containers from the outermost on. -/
def brackets (context : Context) : List Bracket :=
  match context.root with
  | some root => root.toElement.brackets
  | none => context.stack.reverse.flatMap Container.opening

/-- The context with other containers open. -/
def withStack (stack : List Container) (context : Context) : Context :=
  { context with stack }

/-- The context after edits, of which the refused ones leave it as it is. -/
def attemptAll (changes : List Edit) (context : Context) : Context :=
  changes.foldl (fun reached change => (reached.attempt change).2) context

/-- The edits that are not refused, if they are made one after another. -/
def accepted (context : Context) : List Edit → List Edit
  | [] => []
  | change :: rest =>
    match context.edit change with
    | .ok changed => change :: changed.accepted rest
    | .error _ => context.accepted rest

variable {context changed other : Context}

theorem attemptAll_append (first second : List Edit) (context : Context) :
    context.attemptAll (first ++ second) = (context.attemptAll first).attemptAll second :=
  List.foldl_append

theorem attempt_of_ok {change : Edit} (h : context.edit change = .ok changed) :
    context.attempt change = (.ok (), changed) := by
  rw [attempt, h]

theorem attempt_of_error {change : Edit} {error : RenderError}
    (h : context.edit change = .error error) :
    context.attempt change = (.error error, context) := by
  rw [attempt, h]

/-! ## What edits add -/

/-- Without a root the open containers are written down from the outermost on. -/
theorem brackets_withStack (h : context.root = none) (stack : List Container) :
    (context.withStack stack).brackets = stack.reverse.flatMap Container.opening := by
  rw [brackets, show (context.withStack stack).root = none from h]
  rfl

/-- So the innermost one comes last. -/
theorem brackets_withStack_cons (h : context.root = none) (innermost : Container)
    (outer : List Container) :
    (context.withStack (innermost :: outer)).brackets =
      (context.withStack outer).brackets ++ innermost.opening := by
  rw [brackets_withStack h, brackets_withStack h, List.reverse_cons, List.flatMap_append,
    List.flatMap_singleton]

/-- **An edit that is not refused adds what it writes at the end.** -/
theorem brackets_edit (h : context.root.isSome → context.stack = []) {change : Edit}
    (hedit : context.edit change = .ok changed) :
    changed.brackets = context.brackets ++ change.brackets := by
  rcases edit_cases hedit with
    ⟨container, rfl, hroot, rfl⟩ | ⟨innermost, outer, rfl, hstack, rfl⟩ |
    ⟨content, innermost, outer, rfl, hstack, rfl⟩
  · have hnone : context.root = none := by
      cases hfound : context.root with
      | none => rfl
      | some root => exact hfound.symm.trans (hroot (h (by rw [hfound]; rfl)))
    exact brackets_withStack_cons hnone container context.stack
  · have hnone := root_of_open h (hstack ▸ List.cons_ne_nil _ _)
    have hbefore : context.brackets =
        (context.withStack outer).brackets ++ innermost.opening := by
      rw [← brackets_withStack_cons hnone, ← hstack]
      rfl
    -- the container that is closed becomes the root, or goes to the end of its parent
    cases outer with
    | nil =>
      rw [hbefore, brackets_withStack hnone]
      exact innermost.brackets_toElement
    | cons parent outer =>
      refine (brackets_withStack_cons hnone (parent.append innermost.toElement) outer).trans ?_
      rw [hbefore, brackets_withStack_cons hnone, parent.opening_append,
        innermost.brackets_toElement, Edit.brackets]
      simp only [List.append_assoc]
  · have hnone := root_of_open h (hstack ▸ List.cons_ne_nil _ _)
    have hbefore : context.brackets =
        (context.withStack outer).brackets ++ innermost.opening := by
      rw [← brackets_withStack_cons hnone, ← hstack]
      rfl
    refine (brackets_withStack_cons hnone (innermost.append (.leaf content)) outer).trans ?_
    rw [hbefore, innermost.opening_append, Element.brackets, Edit.brackets, List.append_assoc]

/-- A root stands alone after edits if it did before. -/
theorem root_alone_attemptAll (changes : List Edit)
    (h : context.root.isSome → context.stack = []) :
    (context.attemptAll changes).root.isSome → (context.attemptAll changes).stack = [] := by
  induction changes generalizing context with
  | nil => exact h
  | cons change rest ih => exact ih ((Registry.Ordinary.attempt change context).root_alone h)

/-- So edits write their brackets one after another. -/
theorem brackets_attemptAll (changes : List Edit) (h : context.root.isSome → context.stack = []) :
    (context.attemptAll changes).brackets =
      context.brackets ++ (context.accepted changes).flatMap Edit.brackets := by
  induction changes generalizing context with
  | nil => exact (List.append_nil _).symm
  | cons change rest ih =>
    have hcons : context.attemptAll (change :: rest) =
        (context.attempt change).2.attemptAll rest := rfl
    rw [hcons, accepted]
    cases hedit : context.edit change with
    | error error => rw [attempt_of_error hedit, ih h]
    | ok changed =>
      have hchanged := (Registry.Ordinary.edit hedit).root_alone h
      rw [attempt_of_ok hedit, ih hchanged, brackets_edit h hedit, List.flatMap_cons,
        List.append_assoc]

/-! ## What is read back -/

mutual

/-- To write the brackets of an element is to append it to the innermost container. -/
theorem attemptAll_element (element : Element) (innermost : Container) (outer : List Container)
    (context : Context) :
    (context.withStack (innermost :: outer)).attemptAll (element.brackets.map Bracket.edit) =
      context.withStack (innermost.append element :: outer) := by
  cases element with
  | leaf content => rfl
  | container kind children =>
    rw [Element.brackets, List.map_append, attemptAll_append]
    have hopened : (context.withStack (innermost :: outer)).attemptAll
          ((Bracket.opening kind :: Element.bracketsAll children).map Bracket.edit) =
        (context.withStack (.empty kind :: innermost :: outer)).attemptAll
          ((Element.bracketsAll children).map Bracket.edit) := rfl
    rw [hopened, attemptAll_elements children]
    rfl

theorem attemptAll_elements (elements : List Element) (innermost : Container)
    (outer : List Container) (context : Context) :
    (context.withStack (innermost :: outer)).attemptAll
        ((Element.bracketsAll elements).map Bracket.edit) =
      context.withStack
        ({ innermost with children := innermost.children ++ elements } :: outer) := by
  cases elements with
  | nil => rw [List.append_nil]; rfl
  | cons element rest =>
    rw [Element.bracketsAll, List.map_append, attemptAll_append, attemptAll_element element,
      attemptAll_elements rest]
    simp only [Container.append, List.append_assoc, List.singleton_append]

end

/-- To write an open container is to open it, with all that it holds. -/
theorem attemptAll_opening (container : Container) (outer : List Container)
    (h : outer = [] → context.root = none) :
    (context.withStack outer).attemptAll (container.opening.map Bracket.edit) =
      context.withStack (container :: outer) := by
  have hopened : ((context.withStack outer).attempt (.push (.empty container.kind))).2 =
      context.withStack (.empty container.kind :: outer) := by
    cases outer with
    | nil => simp only [attempt, edit, withStack, h rfl, Option.isSome_none, Bool.false_eq_true,
        ↓reduceIte]
    | cons => rfl
  have hcons : (context.withStack outer).attemptAll (container.opening.map Bracket.edit) =
      ((context.withStack outer).attempt (.push (.empty container.kind))).2.attemptAll
        ((Element.bracketsAll container.children).map Bracket.edit) := rfl
  rw [hcons, hopened, attemptAll_elements]
  rfl

/-- The same for all open containers, from the outermost on. -/
theorem attemptAll_stack (stack : List Container) (h : context.root = none) :
    (context.withStack []).attemptAll
        ((stack.reverse.flatMap Container.opening).map Bracket.edit) =
      context.withStack stack := by
  induction stack with
  | nil => rfl
  | cons innermost outer ih =>
    rw [List.reverse_cons, List.flatMap_append, List.flatMap_singleton, List.map_append,
      attemptAll_append, ih, attemptAll_opening innermost outer fun _ => h]

/-- **What a context holds is what comes of writing its brackets** on a fresh context. -/
theorem attemptAll_brackets (options : RenderOptions) (signal : Option Bool)
    (h : context.root.isSome → context.stack = []) :
    (attemptAll (context.brackets.map Bracket.edit) { options, signal }).built =
      context.built := by
  have hfresh : ({ options, signal } : Context) = withStack [] { options, signal } := rfl
  cases hroot : context.root with
  | none =>
    have hword : context.brackets = context.stack.reverse.flatMap Container.opening :=
      brackets_withStack hroot context.stack
    rw [hword, hfresh, attemptAll_stack context.stack rfl]
    exact Prod.ext rfl hroot.symm
  | some root =>
    have hword : context.brackets = root.opening ++ [.closing] := by
      rw [brackets, hroot]
      exact root.brackets_toElement
    rw [hword, List.map_append, attemptAll_append, hfresh, attemptAll_opening root [] fun _ => rfl]
    exact Prod.ext (h (by rw [hroot]; rfl)).symm hroot.symm

/-- So two contexts that hold the same word hold the same. -/
theorem built_eq_of_brackets (h : context.root.isSome → context.stack = [])
    (hother : other.root.isSome → other.stack = []) (hword : other.brackets = context.brackets) :
    other.built = context.built := by
  rw [← attemptAll_brackets {} none h, ← attemptAll_brackets {} none hother, hword]

/-! ## What is refused -/

/-- The edit is refused. -/
def Refuses (context : Context) (change : Edit) : Prop :=
  ∃ error, (context.attempt change).1 = .error error

theorem refuses_iff {change : Edit} :
    context.Refuses change ↔ ∃ error, context.edit change = .error error := by
  unfold Refuses
  cases hedit : context.edit change with
  | error error =>
    rw [attempt_of_error hedit]
    exact ⟨fun _ => ⟨error, rfl⟩, fun _ => ⟨error, rfl⟩⟩
  | ok changed =>
    rw [attempt_of_ok hedit]
    constructor <;>
    · rintro ⟨error, herror⟩
      cases herror

/-- A refused edit is a violation that reports the open containers, and changes nothing. -/
theorem Refuses.attempt {change : Edit} (h : context.Refuses change) :
    ∃ cause, context.attempt change =
      (.error (.invariantViolation cause context.openNames), context) := by
  obtain ⟨error, hedit⟩ := refuses_iff.mp h
  rw [attempt_of_error hedit]
  obtain ⟨-, ⟨container, -, -, rfl⟩ | ⟨-, rfl⟩ | ⟨content, -, rfl⟩⟩ := edit_refused hedit
  · exact ⟨_, rfl⟩
  · exact ⟨_, rfl⟩
  · exact ⟨_, rfl⟩

/-- A container cannot be opened exactly if there is a root. -/
theorem refuses_push_iff (h : context.root.isSome → context.stack = []) (container : Container) :
    context.Refuses (.push container) ↔ context.root.isSome := by
  rw [refuses_iff]
  constructor
  · rintro ⟨error, hedit⟩
    obtain ⟨-, ⟨_, -, hroot, -⟩ | ⟨hpop, -⟩ | ⟨_, hleaf, -⟩⟩ := edit_refused hedit
    · exact hroot
    · cases hpop
    · cases hleaf
  · intro hroot
    exact edit_of_root hroot (h hroot) (.push container)

/-- Nothing can be closed exactly if nothing is open. -/
theorem refuses_pop_iff : context.Refuses .pop ↔ context.stack = [] := by
  rw [refuses_iff]
  constructor
  · rintro ⟨error, hedit⟩
    exact (edit_refused hedit).1
  · intro hstack
    exact ⟨_, by simp only [edit, hstack]; rfl⟩

/-- The same for a leaf that is to be written. -/
theorem refuses_leaf_iff (content : Leaf) :
    context.Refuses (.leaf content) ↔ context.stack = [] := by
  rw [refuses_iff]
  constructor
  · rintro ⟨error, hedit⟩
    exact (edit_refused hedit).1
  · intro hstack
    exact ⟨_, by simp only [edit, hstack]; rfl⟩

end Context

open Context

/-- **What edits of a fresh context write is what it holds.**  The edits that are not refused, in
their order, are the context written down depth first: the root, or else the open containers with
what they hold, without their closing brackets.  No other context holds what is written down like
that.  An edit is refused exactly if it opens a container while there is a root, or closes or writes
while nothing is open; then it is a violation that reports the open containers, and nothing
changes. -/
theorem brackets_of_fresh (options : RenderOptions) (signal : Option Bool)
    (changes : List Edit) :
    let fresh : Context := { options, signal }
    let reached := fresh.attemptAll changes
    (fresh.accepted changes).flatMap Edit.brackets = reached.brackets ∧
    (∀ other : Context, (other.root.isSome → other.stack = []) →
      other.brackets = reached.brackets → other.built = reached.built) ∧
    (∀ container, reached.Refuses (.push container) ↔ reached.root.isSome) ∧
    (reached.Refuses .pop ↔ reached.stack = []) ∧
    (∀ content, reached.Refuses (.leaf content) ↔ reached.stack = []) ∧
    ∀ change, reached.Refuses change → ∃ cause, reached.attempt change =
      (.error (.invariantViolation cause reached.openNames), reached) := by
  intro fresh reached
  have hfresh : fresh.root.isSome → fresh.stack = [] := fun _ => rfl
  have hreached : reached.root.isSome → reached.stack = [] := root_alone_attemptAll changes hfresh
  refine ⟨(brackets_attemptAll changes hfresh).symm, ?_, refuses_push_iff hreached,
    refuses_pop_iff, refuses_leaf_iff, fun change => Refuses.attempt⟩
  exact fun other hother => built_eq_of_brackets hreached hother

/-- A leaf and a list in a document, which is closed too often.  After that there is a root, and
none of the three edits is possible. -/
theorem brackets_of_fresh_list :
    let changes : List Edit :=
      [.leaf .rule, .push (.empty .document), .leaf .rule, .push ⟨.list none, [.leaf (.text "a")]⟩,
        .pop, .pop, .pop]
    let reached : Context := attemptAll changes {}
    let list : Element := .container (.list none) [.leaf (.text "a")]
    (reached.root.isSome → reached.stack = []) ∧ reached.Refuses (.push (.empty .document)) ∧
    (accepted {} changes).flatMap Edit.brackets =
      [.opening .document, .leaf .rule, .opening (.list none), .leaf (.text "a"), .closing,
        .closing] ∧
    reached.built = ([], some ⟨.document, [.leaf .rule, list]⟩) ∧
    ∃ cause, reached.attempt .pop = (.error (.invariantViolation cause []), reached) := by
  intro changes reached list
  obtain ⟨hword, hsame, hpush, hpop, -, hrefused⟩ := brackets_of_fresh {} none changes
  have hroot : reached.root.isSome → reached.stack = [] := fun _ => rfl
  exact ⟨hroot, (hpush _).mpr rfl, hword, (hsame reached hroot rfl).symm,
    hrefused .pop (hpop.mpr rfl)⟩

end Rendition
