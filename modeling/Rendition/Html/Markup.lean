/-!
# Markup

Between rich text and its written form stands a list of pieces: tags with their
attributes, text, and raw markup.  Attribute values and text are kept as they are
meant; only `Piece.print` escapes them.
-/

namespace Rendition.Html

/-- How a character is written inside text and attribute values. -/
def escapeChar : Char → List Char
  | '&' => "&amp;".toList
  | '<' => "&lt;".toList
  | '>' => "&gt;".toList
  | '"' => "&quot;".toList
  | '\'' => "&#x27;".toList
  | c => [c]

/-- A text as it is written inside markup. -/
def escape (text : String) : String :=
  String.ofList (text.toList.flatMap escapeChar)

/-- An attribute of a tag; some have no value. -/
structure Attribute where
  name : String
  value : Option String
  deriving DecidableEq, Repr

/-- A piece of markup. -/
inductive Piece where
  | openTag (name : String) (attributes : List Attribute)
  | closeTag (name : String)
  | text (content : String)
  /-- Markup from the document, passed through as it is. -/
  | raw (content : String)
  deriving DecidableEq, Repr

def Attribute.print (given : Attribute) : String :=
  match given.value with
  | none => s!" {given.name}"
  | some value => " " ++ given.name ++ "=\"" ++ escape value ++ "\""

def Piece.print : Piece → String
  | openTag name attributes => "<" ++ name ++ String.join (attributes.map (·.print)) ++ ">"
  | closeTag name => "</" ++ name ++ ">"
  | text content => escape content
  | raw content => content

/-- The written form of markup. -/
def print (pieces : List Piece) : String :=
  String.join (pieces.map (·.print))

end Rendition.Html
