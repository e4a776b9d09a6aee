import Rendition.Node.Basic
import Rendition.Text.White

/-!
# Info strings of code fences

What follows an opening code fence names the language of the code and may go on with
attributes, `key=value`, whose values may be in quotes.  Words without an equals sign
mean nothing here.
-/

namespace Rendition

/-- What an info string says. -/
structure FenceInfo where
  language : String
  attributes : ExtraAttrs

namespace FenceInfo

/-- A value without the quotes around it: first the double ones, then the single
ones. -/
def unquote (value : List Char) : List Char :=
  Text.strip (· = '\'') (Text.strip (· = '"') value)

/-- The attribute that a word gives, if it gives one. -/
def keyValue? (word : List Char) : Option (String × String) :=
  (Text.cutFirst? '=' word).map fun (key, value) =>
    (String.ofList key, String.ofList (unquote value))

/-- Reads an info string.  Of two values for one key, the later one counts. -/
def parse (info : String) : FenceInfo :=
  match Text.whiteWords info.toList with
  | [] => ⟨"", ∅⟩
  | language :: words =>
    ⟨String.ofList language,
      (words.filterMap keyValue?).foldl (fun attrs (key, value) => attrs.insert key value) ∅⟩

end FenceInfo
end Rendition
