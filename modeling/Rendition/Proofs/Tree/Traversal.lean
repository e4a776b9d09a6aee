import Rendition.Proofs.Element.Walk
import Rendition.Proofs.Node.Preorder
import Rendition.Proofs.Render.Writing
import Rendition.Proofs.Tree.Address
import Rendition.Proofs.Tree.Worklist

/-!
# What traversals visit

Text is collected, nodes are counted and containers are walked over without recursion on the call
stack.  All three visit what the recursion on the tree lists, in its order, which is also that of
the addresses in the tree.  For containers this is the order in which they have been opened, because
the walk is nothing but the opening brackets of the tree (`Container.map_kind_walk`).

A loop with a stack gets to the same results.  It pushes children from the last to the first, so
that the first one is on top, unless the order does not matter: nodes that are only counted may as
well be visited with the last child first (`Node.backwards`).
-/

namespace Rendition

open Address Context Worklist

/-! ## Nodes -/

namespace Node

theorem preorder_eq_flatMap (node : Node) :
    node.preorder = node :: node.children.flatMap preorder := by
  rw [preorder_eq, preorderAll_eq_flatMap]

mutual

/-- The nodes of a tree, each before those below it, but the last child first. -/
def backwards : Node → List Node
  | mk kind attrs children => mk kind attrs children :: backwardsAll children

/-- The nodes of trees, the last tree first. -/
def backwardsAll : List Node → List Node
  | [] => []
  | node :: rest => backwardsAll rest ++ node.backwards

end

theorem backwardsAll_eq_flatMap (nodes : List Node) :
    backwardsAll nodes = nodes.reverse.flatMap backwards := by
  induction nodes with
  | nil => rfl
  | cons node rest ih =>
    rw [backwardsAll, ih, List.reverse_cons, List.flatMap_append, List.flatMap_singleton]

theorem backwards_eq_flatMap (node : Node) :
    node.backwards = node :: node.children.reverse.flatMap backwards := by
  rw [← backwardsAll_eq_flatMap]
  cases node
  rfl

mutual

/-- There are as many nodes in this list, too. -/
theorem length_backwards (tree : Node) : tree.backwards.length = tree.size := by
  obtain ⟨kind, attrs, children⟩ := tree
  rw [backwards, List.length_cons, length_backwardsAll children, size]

theorem length_backwardsAll (trees : List Node) : (backwardsAll trees).length = sizeAll trees := by
  cases trees with
  | nil => rfl
  | cons tree rest =>
    rw [backwardsAll, List.length_append, length_backwardsAll rest, length_backwards tree, sizeAll,
      Nat.add_comm]

end

/-- **The count of nodes** is the number of nodes. -/
theorem nodeCount_eq_size (node : Node) : node.nodeCount = node.size := by
  rw [nodeCount, foldPending_singleton, List.foldl_add_const, length_preorder, Nat.zero_add,
    Nat.one_mul]

/-- What a node itself adds to the text, kind by kind. -/
theorem ownText_eq (node : Node) :
    node.ownText =
      if node.kind = .softBreak ∨ node.kind = .hardBreak then " " else node.attrs.text.getD "" := by
  unfold ownText
  cases node.kind <;> rfl

end Node

/-! ## Containers -/

/-- The kind of the container that a bracket opens. -/
def Bracket.opened? : Bracket → Option ContainerKind
  | opening kind => some kind
  | leaf _ | closing => none

namespace Element

mutual

/-- Written down, the containers of an element open in the order of the walk. -/
theorem opened_brackets (element : Element) :
    element.brackets.filterMap Bracket.opened? = element.containers.map (·.kind) := by
  cases element with
  | leaf content => rfl
  | container kind children =>
    change kind :: (bracketsAll children ++ [Bracket.closing]).filterMap Bracket.opened? =
      kind :: (containersAll children).map (·.kind)
    rw [List.filterMap_append, opened_bracketsAll children]
    exact congrArg (kind :: ·) (List.append_nil _)

theorem opened_bracketsAll (elements : List Element) :
    (bracketsAll elements).filterMap Bracket.opened? = (containersAll elements).map (·.kind) := by
  cases elements with
  | nil => rfl
  | cons element rest =>
    rw [bracketsAll, List.filterMap_append, opened_brackets element, opened_bracketsAll rest,
      containersAll, List.map_append]

end

end Element

namespace Container

/-- **The walk has the containers in the order in which they open.** -/
theorem map_kind_walk (root : Container) :
    root.walk.toList.map (·.kind) = root.toElement.brackets.filterMap Bracket.opened? := by
  rw [toList_walk, Element.opened_brackets]

end Container

/-- So it has them in the order in which edits have opened them. -/
theorem Context.opened_attemptAll (options : RenderOptions) (signal : Option Bool)
    {changes : List Edit} {root : Container}
    (h : (attemptAll changes { options, signal }).root = some root) :
    ((accepted { options, signal } changes).flatMap Edit.brackets).filterMap Bracket.opened? =
      root.walk.toList.map (·.kind) := by
  let fresh : Context := { options, signal }
  have hfresh : fresh.root.isSome → fresh.stack = [] := fun _ => rfl
  have hwritten : (fresh.attemptAll changes).brackets =
      (fresh.accepted changes).flatMap Edit.brackets := brackets_attemptAll changes hfresh
  have hroot : (fresh.attemptAll changes).brackets = root.toElement.brackets := by
    rw [brackets, h]
  rw [root.map_kind_walk, ← hroot, hwritten]

/-- **What traversals visit is what recursion lists.**  The text of a document is that of its nodes,
each before those below it, with a space for a break, whatever text that has; the count is the number
of the nodes; and the walk has each container before those in it.  In the order of addresses no
other list has everything that is in the tree, each node once and each container once.  A loop with
a stack of what is still to be visited ends after as many rounds as there are nodes or containers,
and not before, with the same text, count and walk.  And the containers that edits of a fresh
context have opened come in the walk as they were opened. -/
theorem traversals_in_preorder (document : Node) (root : Container) :
    document.plainText = String.join (document.preorder.map fun node =>
      if node.kind = .softBreak ∨ node.kind = .hardBreak then " " else node.attrs.text.getD "") ∧
    document.nodeCount = document.size ∧ document.size = document.preorder.length ∧
    root.walk.toList = root.toElement.containers ∧
    (∀ listed, Lists (find? Node.children · document) listed ↔ listed = document.preorder) ∧
    (∀ listed, Lists (find? Container.childContainers · root) listed ↔
      listed = root.walk.toList) ∧
    EndsAfter (fun text node => text ++ node.ownText) (·.children.reverse) ⟨"", [document]⟩
      document.size document.plainText ∧
    EndsAfter (fun count _ => count + 1) Node.children ⟨0, [document]⟩
      document.size document.nodeCount ∧
    EndsAfter Array.push (·.childContainers.reverse) ⟨#[], [root]⟩
      root.toElement.containerCount root.walk ∧
    ∀ options signal changes,
      (attemptAll changes { options, signal }).root = some root →
        ((accepted { options, signal } changes).flatMap Edit.brackets).filterMap Bracket.opened? =
          root.walk.toList.map (·.kind) := by
  have hnodes : Lists (find? Node.children · document) document.preorder :=
    lists_find Node.preorder_eq_flatMap document
  have hcontainers : Lists (find? Container.childContainers · root) root.walk.toList := by
    rw [root.toList_walk]
    exact lists_find Container.containers_toElement root
  refine ⟨?_, document.nodeCount_eq_size, document.length_preorder.symm, root.toList_walk,
    fun listed => ⟨(·.unique hnodes), ?_⟩, fun listed => ⟨(·.unique hcontainers), ?_⟩, ?_, ?_, ?_,
    fun options signal changes => opened_attemptAll options signal⟩
  · rw [document.plainText_eq_join]
    exact congrArg _ (List.map_congr_left fun node _ => node.ownText_eq)
  · rintro rfl
    exact hnodes
  · rintro rfl
    exact hcontainers
  · have hloop := endsAfter_reverse Node.preorder_eq_flatMap
      (fun text node => text ++ node.ownText) "" document
    rwa [document.length_preorder, ← Node.foldPending_singleton] at hloop
  · have hloop := endsAfter Node.backwards_eq_flatMap (fun count _ => count + 1) 0 document
    rw [List.foldl_add_const, document.length_backwards, Nat.zero_add, Nat.one_mul] at hloop
    rwa [document.nodeCount_eq_size]
  · have hloop := endsAfter_reverse Container.containers_toElement Array.push #[] root
    rwa [root.toElement.length_containers, ← Container.foldPending_singleton] at hloop

/-- A break that carries a text of its own, and a list that is opened behind a paragraph. -/
theorem traversals_in_preorder_break :
    let document : Node := .paragraph
      [.text "a", (Node.ofKind .softBreak).withText "x", .emphasis [.text "b"]]
    let changes : List Edit :=
      [.push (.empty .document), .push (.empty .paragraph), .leaf (.text "a"), .pop,
        .push (.empty (.list none)), .push (.empty .listItem), .pop, .pop, .pop]
    let root : Container := ⟨.document,
      [.container .paragraph [.leaf (.text "a")], .container (.list none) [.container .listItem []]]⟩
    (attemptAll changes {}).root = some root ∧ document.plainText = "a b" ∧
      document.nodeCount = 5 ∧
      root.walk.toList.map (·.kind) = [.document, .paragraph, .list none, .listItem] := by
  intro document changes root
  have hroot : (attemptAll changes {}).root = some root := rfl
  obtain ⟨htext, hcount, -, -, -, -, -, -, -, hopened⟩ := traversals_in_preorder document root
  exact ⟨hroot, htext.trans (by decide), hcount, (hopened {} none changes hroot).symm⟩

end Rendition
