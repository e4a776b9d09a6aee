import Rendition.Renderer.Block
import Rendition.Renderer.Inline

/-!
# The built-in renderers

Every built-in kind has one (`Registry.defaults`); custom kinds have none.
-/

namespace Rendition

/-- The renderer of each built-in kind. -/
def Renderer.builtin : List (NodeKind × Renderer) :=
  [(.document, .container .document .document),
    (.paragraph, .container .paragraph .paragraph),
    (.heading, .heading),
    (.blockQuote, .blockQuote),
    (.list, .list),
    (.listItem, .container .listItem .listItem),
    (.codeBlock, .codeBlock),
    (.thematicBreak, .thematicBreak),
    (.table, .container .table .table),
    (.tableHead, .container .tableHead .tableHead),
    (.tableRow, .container .tableRow .tableRow),
    (.tableCell, .tableCell),
    (.definitionList, .container .definitionList .definitionList),
    (.definitionTitle, .container .definitionTitle .definitionTitle),
    (.definitionDetails, .container .definitionDetails .definitionDetails),
    (.text, .text),
    (.code, .code),
    (.emphasis, .styled .emphasis .emphasis),
    (.strong, .styled .strong .strong),
    (.strikethrough, .styled .strikethrough .strikethrough),
    (.superscript, .styled .superscript .superscript),
    (.subscript, .styled .subscript .subscript),
    (.link, .link),
    (.image, .image),
    (.softBreak, .softBreak),
    (.hardBreak, .hardBreak),
    (.taskListMarker, .taskListMarker),
    (.html, .html)]

/-- The registry that has the built-in renderer for every built-in kind. -/
def Registry.defaults : Registry :=
  .ofList Renderer.builtin

end Rendition
