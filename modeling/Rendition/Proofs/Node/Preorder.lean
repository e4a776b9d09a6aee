import Rendition.Node.Text

/-!
# Nodes in document order

`Node.foldPending` keeps the trees that are still to be visited in a list.  What it visits,
and in which order, is what the tree itself says: each node before its children
(`Node.preorder`).  So the text of a node is its own text and then that of its children, one
after another (`Node.plainText_mk`).
-/

namespace Rendition.Node

mutual

/-- The nodes of a tree, each before those below it. -/
def preorder : Node → List Node
  | mk kind attrs children => mk kind attrs children :: preorderAll children

/-- The nodes of trees, one tree after another. -/
def preorderAll : List Node → List Node
  | [] => []
  | node :: rest => node.preorder ++ preorderAll rest

end

theorem preorder_eq (node : Node) : node.preorder = node :: preorderAll node.children := by
  cases node
  rfl

theorem preorderAll_append (first second : List Node) :
    preorderAll (first ++ second) = preorderAll first ++ preorderAll second := by
  induction first with
  | nil => rfl
  | cons node rest ih => rw [List.cons_append, preorderAll, ih, preorderAll, List.append_assoc]

theorem preorderAll_eq_flatMap (nodes : List Node) : preorderAll nodes = nodes.flatMap preorder := by
  induction nodes with
  | nil => rfl
  | cons node rest ih => rw [preorderAll, ih, List.flatMap_cons]

mutual

/-- There are as many nodes in the list as in the tree. -/
theorem length_preorder (tree : Node) : tree.preorder.length = tree.size := by
  obtain ⟨kind, attrs, children⟩ := tree
  rw [preorder, List.length_cons, length_preorderAll children, size]

theorem length_preorderAll (trees : List Node) : (preorderAll trees).length = sizeAll trees := by
  cases trees with
  | nil => rfl
  | cons tree rest =>
    rw [preorderAll, List.length_append, length_preorder tree, length_preorderAll rest, sizeAll]

end

theorem mem_preorderAll {nodes : List Node} {node : Node} (h : node ∈ nodes) :
    node ∈ preorderAll nodes := by
  induction nodes with
  | nil => cases h
  | cons first rest ih =>
    rw [preorderAll]
    rcases List.mem_cons.mp h with rfl | hrest
    · rw [preorder_eq]
      exact List.mem_append_left _ List.mem_cons_self
    · exact List.mem_append_right _ (ih hrest)

mutual

/-- With a node its children are listed. -/
theorem child_mem_preorder (tree : Node) {node child : Node} (h : node ∈ tree.preorder)
    (hchild : child ∈ node.children) : child ∈ tree.preorder := by
  obtain ⟨kind, attrs, children⟩ := tree
  rw [preorder] at h ⊢
  rcases List.mem_cons.mp h with rfl | hbelow
  · exact List.mem_cons_of_mem _ (mem_preorderAll hchild)
  · exact List.mem_cons_of_mem _ (child_mem_preorderAll children hbelow hchild)

theorem child_mem_preorderAll (trees : List Node) {node child : Node}
    (h : node ∈ preorderAll trees) (hchild : child ∈ node.children) :
    child ∈ preorderAll trees := by
  cases trees with
  | nil => cases h
  | cons first rest =>
    rw [preorderAll] at h ⊢
    rcases List.mem_append.mp h with hfirst | hrest
    · exact List.mem_append_left _ (child_mem_preorder first hfirst hchild)
    · exact List.mem_append_right _ (child_mem_preorderAll rest hrest hchild)

end

/-- **The worklist visits the nodes of the pending trees in order.** -/
theorem foldPending_eq_foldl {β : Type} (f : β → Node → β) (acc : β) (pending : List Node) :
    foldPending f acc pending = (preorderAll pending).foldl f acc := by
  induction acc, pending using foldPending.induct f with
  | case1 acc =>
    rw [foldPending]
    rfl
  | case2 acc node pending ih =>
    rw [foldPending, ih, preorderAll_append, preorderAll, preorder_eq, List.cons_append,
      List.foldl_cons]

/-- From one tree on it visits the nodes of the tree. -/
theorem foldPending_singleton {β : Type} (f : β → Node → β) (acc : β) (node : Node) :
    foldPending f acc [node] = node.preorder.foldl f acc := by
  have hpending : preorderAll [node] = node.preorder := List.append_nil _
  rw [foldPending_eq_foldl, hpending]

/-! ## Text -/

/-- The text of nodes, one after another. -/
def textAll : List Node → String
  | [] => ""
  | node :: rest => node.plainText ++ textAll rest

/-- The text of a tree is that of its nodes in order. -/
theorem plainText_eq_join (node : Node) :
    node.plainText = String.join (node.preorder.map ownText) := by
  rw [plainText, foldPending_singleton, String.join, List.foldl_map]

theorem textAll_eq_join (nodes : List Node) :
    textAll nodes = String.join ((preorderAll nodes).map ownText) := by
  induction nodes with
  | nil => rfl
  | cons node rest ih =>
    rw [textAll, ih, plainText_eq_join, preorderAll, List.map_append, String.join_append]

/-- **The text of a node** is its own text and then that of its children. -/
theorem plainText_mk (kind : NodeKind) (attrs : Attributes) (children : List Node) :
    (mk kind attrs children).plainText =
      (mk kind attrs children).ownText ++ textAll children := by
  rw [plainText_eq_join, textAll_eq_join, preorder, List.map_cons, String.join_cons]

theorem plainText_childless (kind : NodeKind) (attrs : Attributes) :
    (mk kind attrs []).plainText = (mk kind attrs []).ownText :=
  (plainText_mk kind attrs []).trans String.append_empty

theorem textAll_append (first second : List Node) :
    textAll (first ++ second) = textAll first ++ textAll second := by
  rw [textAll_eq_join, textAll_eq_join, textAll_eq_join, preorderAll_append, List.map_append,
    String.join_append]

theorem textAll_singleton (node : Node) : textAll [node] = node.plainText :=
  String.append_empty

end Rendition.Node
