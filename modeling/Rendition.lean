import Rendition.Proofs.Event.FenceInfo
import Rendition.Proofs.Event.NormalForm
import Rendition.Proofs.Event.Rewriting
import Rendition.Proofs.Event.Skipping
import Rendition.Proofs.Html.Addresses
import Rendition.Proofs.Html.Serializer
import Rendition.Proofs.Outline.History
import Rendition.Proofs.Outline.Slug
import Rendition.Proofs.Registry.History
import Rendition.Proofs.Render.Bounds
import Rendition.Proofs.Render.Cancellation
import Rendition.Proofs.Render.Leftovers
import Rendition.Proofs.Render.Limit
import Rendition.Proofs.Render.Nesting
import Rendition.Proofs.Render.Relevance
import Rendition.Proofs.Render.Writing
import Rendition.Proofs.Renderer.Strictness
import Rendition.Proofs.Renderer.Text
import Rendition.Proofs.Tree.Traversal
import Rendition.Publishing
import Rendition.Settings.Discovery
