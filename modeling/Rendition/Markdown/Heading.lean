import Rendition.Event.Basic
import Rendition.Markdown.Extensions
import Rendition.Markdown.Line

/-!
# Headings of Markdown

A heading is a line that starts with number signs, as many as its level says, or a text
with a line of equals signs or dashes below.  At the end of it there may be attributes in
braces, the anchor among them.
-/

namespace Rendition.Markdown

/-- The level and the content of a heading that is a line. -/
def heading? (line : Line) : Option (HeadingLevel × List Char) :=
  (opening? line).bind fun opening =>
    let content := opening.dropWhile (· = '#')
    if content.head?.all isGap then
      (HeadingLevel.ofNat? (opening.takeWhile (· = '#')).length).map fun level =>
        (level, content.dropWhile isBlank)
    else
      none

/-- The level of the heading that a line of signs makes of the text above it. -/
def underline? (line : Line) : Option HeadingLevel :=
  match (opening? line).map trimEnd with
  | some ('=' :: rest) => if rest.all (· = '=') then some .first else none
  | some ('-' :: rest) => if rest.all (· = '-') then some .second else none
  | _ => none

/-- Cuts the number signs off that may close a heading.  Spaces separate them from what is
written. -/
def cutClosing (content : List Char) : List Char :=
  let written := trimEnd content
  let title := Text.dropRightWhile (· = '#') written
  if title = [] || title.getLast? = some ' ' then trimEnd title else written

/-! ## Attributes -/

/-- Whether a character can stand among attributes. -/
def mayBeAttribute (c : Char) : Bool :=
  c ∉ ['\x7b', '\x7d', '<', '>', '\\', '\n']

/-- Cuts the attributes off a heading that ends with some: what is before the opening brace,
and what is between the braces. -/
def cutAttributes? (content : List Char) : Option (List Char × List Char) :=
  match (trimEnd content).reverse with
  | '\x7d' :: rest =>
    match rest.dropWhile mayBeAttribute with
    | '\x7b' :: before => some (before.reverse, (rest.takeWhile mayBeAttribute).reverse)
    | _ => none
  | _ => none

/-- The anchor that a word among attributes gives. -/
def anchor? (word : List Char) : Option String :=
  match word with
  | '#' :: c :: rest => some (String.ofList (c :: rest))
  | _ => none

/-- Whether a character separates attributes. -/
def separatesAttributes (c : Char) : Bool :=
  isIndent c || c = '\x0c'

/-- The anchor among attributes.  The last one counts. -/
def anchorAmong (attributes : List Char) : Option String :=
  ((Text.words separatesAttributes attributes).filterMap anchor?).getLast?

/-- What is written in a heading, and the anchor at the end if headings have any. -/
def cutAnchor (extensions : Extensions) (content : List Char) : List Char × Option String :=
  match if extensions.headingAttributes then cutAttributes? content else none with
  | some (written, attributes) => (written, anchorAmong attributes)
  | none => (content, none)

end Rendition.Markdown
