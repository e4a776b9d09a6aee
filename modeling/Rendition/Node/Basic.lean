import Rendition.Node.Kind

/-!
# Document nodes

A node has a kind, attributes and children.  Which attributes mean something
depends on the kind, and it is for renderers to say what a missing one means;
the tree itself allows every combination.  Nodes are built from `Node.ofKind`,
or a constructor for a common kind, by the `with…` functions.
-/

namespace Rendition

/-- Free-form attributes, by name. -/
abbrev ExtraAttrs := Std.ExtTreeMap String String

/-- The attributes of a node. -/
structure Attributes where
  /-- Literal content: text runs, code, raw markup, alternative text of images. -/
  text : Option String := none
  /-- Heading level. -/
  level : Option Nat := none
  /-- Where a link or image points. -/
  destination : Option String := none
  /-- Title of a link or image. -/
  title : Option String := none
  /-- Language of a code block. -/
  language : Option String := none
  /-- First number of an ordered list; bullet lists have none. -/
  start : Option Nat := none
  /-- State of a task list marker. -/
  checked : Option Bool := none
  /-- Alert flavour of a block quote. -/
  alert : Option AlertKind := none
  /-- Alignment of a table cell. -/
  align : Option Alignment := none
  /-- Everything else: attributes of a code fence, data of custom kinds. -/
  extra : ExtraAttrs := ∅

/-- A node of a document tree. -/
inductive Node where
  | mk (kind : NodeKind) (attrs : Attributes) (children : List Node)

namespace Node

def kind : Node → NodeKind
  | mk kind _ _ => kind

def attrs : Node → Attributes
  | mk _ attrs _ => attrs

def children : Node → List Node
  | mk _ _ children => children

@[simp] theorem kind_mk (k : NodeKind) (a : Attributes) (cs : List Node) : (mk k a cs).kind = k := rfl

@[simp] theorem attrs_mk (k : NodeKind) (a : Attributes) (cs : List Node) : (mk k a cs).attrs = a := rfl

@[simp] theorem children_mk (k : NodeKind) (a : Attributes) (cs : List Node) :
    (mk k a cs).children = cs := rfl

/-- The node of a kind that has neither attributes nor children. -/
def ofKind (kind : NodeKind) : Node :=
  mk kind {} []

instance : Inhabited Node := ⟨ofKind .document⟩

/-! ## Building nodes -/

/-- Changes the attributes. -/
def mapAttrs (f : Attributes → Attributes) : Node → Node
  | mk kind attrs children => mk kind (f attrs) children

def withText (text : String) (node : Node) : Node :=
  node.mapAttrs ({ · with text := some text })

def withLevel (level : Nat) (node : Node) : Node :=
  node.mapAttrs ({ · with level := some level })

def withDestination (destination : String) (node : Node) : Node :=
  node.mapAttrs ({ · with destination := some destination })

def withTitle (title : String) (node : Node) : Node :=
  node.mapAttrs ({ · with title := some title })

def withLanguage (language : String) (node : Node) : Node :=
  node.mapAttrs ({ · with language := some language })

def withChecked (checked : Bool) (node : Node) : Node :=
  node.mapAttrs ({ · with checked := some checked })

def withAlert (alert : AlertKind) (node : Node) : Node :=
  node.mapAttrs ({ · with alert := some alert })

def withAlign (align : Alignment) (node : Node) : Node :=
  node.mapAttrs ({ · with align := some align })

/-- Sets a free-form attribute, over an earlier value of it. -/
def withAttr (key value : String) (node : Node) : Node :=
  node.mapAttrs fun attrs => { attrs with extra := attrs.extra.insert key value }

/-- Appends children after those already there. -/
def withChildren (more : List Node) : Node → Node
  | mk kind attrs children => mk kind attrs (children ++ more)

def withChild (node child : Node) : Node :=
  node.withChildren [child]

/-! ## Common nodes -/

def document (children : List Node) : Node :=
  (ofKind .document).withChildren children

def paragraph (children : List Node) : Node :=
  (ofKind .paragraph).withChildren children

def heading (level : Nat) (children : List Node) : Node :=
  ((ofKind .heading).withLevel level).withChildren children

def text (text : String) : Node :=
  (ofKind .text).withText text

def emphasis (children : List Node) : Node :=
  (ofKind .emphasis).withChildren children

def strong (children : List Node) : Node :=
  (ofKind .strong).withChildren children

def link (destination : String) (children : List Node) : Node :=
  ((ofKind .link).withDestination destination).withChildren children

/-- A bullet list, or an ordered list if there is a first number. -/
def list (start : Option Nat) (items : List Node) : Node :=
  ((ofKind .list).withChildren items).mapAttrs ({ · with start := start })

def listItem (children : List Node) : Node :=
  (ofKind .listItem).withChildren children

end Node
end Rendition
