import Rendition.Registry

/-!
# Making renderers

The built-in renderers are each made for one kind of node and refuse every other.
Those that open a container render the children of their node inside it.
-/

namespace Rendition

namespace Renderer

/-- A renderer for nodes of one kind. -/
def forKind (name : String) (kind : NodeKind) (write : Node → Program) : Renderer where
  name := name
  write node := if node.kind = kind then write node else .reject node (.wrongKind kind)

end Renderer

namespace Program

/-- Renders the children of a node inside a new container. -/
def encloseChildren (kind : ContainerKind) (node : Node) : Program :=
  enclose kind (children node)

/-- Goes on with the text of a node, which has to have one. -/
def withText (node : Node) (next : String → Program) : Program :=
  match node.attrs.text with
  | some text => next text
  | none => reject node .missingText

end Program
end Rendition
