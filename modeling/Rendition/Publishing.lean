import Rendition.Event.Tree
import Rendition.Html.Basic
import Rendition.Markdown.Document
import Rendition.Renderer.Builtin
import Rendition.Render.Traversal
import Rendition.Settings.Basic

/-!
# Publishing documents

A `Publisher` holds what all documents of a project have in common: the registry of
renderers, the options of a render, the dialect of the source texts, and where the
documents are published.  Every document is rendered on a context of its own, so none
of them affects another.
-/

namespace Rendition

/-- What the documents of a project have in common. -/
structure Publisher where
  registry : Registry := .defaults
  options : RenderOptions := {}
  gfm : Bool := true
  headingAttributes : Bool := false
  extractTitle : Bool := false
  basePath : Option String := none

/-- A published document. -/
structure Publication where
  root : Container
  title : Option String
  toc : List Outline.Entry
  warnings : List Warning

/-- How a document fared: what became of it, and what its renderers recorded. -/
structure PublishReport where
  result : Except RenderError Publication
  journal : List JournalEntry

namespace Publisher

/-- The publisher that settings describe. -/
def ofSettings (settings : Settings) : Publisher :=
  { options := settings.renderOptions
    gfm := settings.gfm
    extractTitle := settings.extractTitle
    basePath := settings.basePath }

/-- The dialect of the source texts. -/
def extensions (publisher : Publisher) : Markdown.Extensions :=
  if publisher.gfm then
    .forge publisher.headingAttributes
  else
    .core publisher.headingAttributes

/-- The document of a source text. -/
def parse (publisher : Publisher) (text : String) : Node :=
  .ofEvents (Markdown.events publisher.extensions text)

/-- Publishes a document, with a cancellation signal if one is given. -/
def publish (publisher : Publisher) (document : Node) (signal : Option Bool) : PublishReport :=
  let context : Context := { options := publisher.options, signal }
  let (result, after) := publisher.registry.render document context
  ⟨result.map fun output =>
      let outline := Outline.ofRoot output.root publisher.extractTitle
      ⟨output.root, outline.title, outline.toc, output.warnings⟩,
    after.journal⟩

/-- Publishes the document of a source text. -/
def publishText (publisher : Publisher) (text : String) : PublishReport :=
  publisher.publish (publisher.parse text) none

/-- Publishes many documents, each for itself. -/
def publishAll (publisher : Publisher) (texts : List String) : List PublishReport :=
  texts.map publisher.publishText

/-- A published document as HTML. -/
def toHtml (publisher : Publisher) (publication : Publication) : String :=
  publication.root.toHtml publisher.basePath

end Publisher
end Rendition
