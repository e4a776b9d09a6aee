import Rendition.Text.White

/-!
# Slugs

The slug of a text is its address form: the ASCII letters and digits in lower case,
with a single dash wherever white space, dashes or underscores stood between them.
All other characters are dropped without a trace.
-/

namespace Rendition

namespace Slug

/-- Whether a character parts the words of a slug. -/
def isSeparator (c : Char) : Bool :=
  Text.isWhite c || c = '-' || c = '_'

/-- The slug of the rest of a text.  No dash is written while `afterDash`, which
holds at the start and from a dash to the next letter or digit. -/
def scan (afterDash : Bool) : List Char → List Char
  | [] => []
  | c :: rest =>
    if c.isAlphanum then c.toLower :: scan false rest
    else if !afterDash && isSeparator c then '-' :: scan true rest
    else scan afterDash rest

/-- Takes one dash off the end. -/
def dropFinalDash (slug : List Char) : List Char :=
  (Text.dropTail? ['-'] slug).getD slug

def ofChars (text : List Char) : List Char :=
  dropFinalDash (scan true (Text.trimWhite text))

end Slug

/-- The slug of a text. -/
def slug (text : String) : String :=
  String.ofList (Slug.ofChars text.toList)

end Rendition
