/-!
# Fields of a text

Cutting a list of characters at separators.  Every separator is a cut, so a text
with `n` separators has `n + 1` fields, some of which may be empty; the words of a
text are its fields that are not.
-/

namespace Rendition.Text

/-- The fields between separators; there is always at least one. -/
def fields (isSeparator : Char → Bool) : List Char → List (List Char)
  | [] => [[]]
  | c :: rest =>
    if isSeparator c then
      [] :: fields isSeparator rest
    else
      match fields isSeparator rest with
      | [] => [[c]]
      | field :: others => (c :: field) :: others

/-- The fields that are not empty. -/
def words (isSeparator : Char → Bool) (text : List Char) : List (List Char) :=
  (fields isSeparator text).filter (!·.isEmpty)

/-- Cuts at the first occurrence of a character, which belongs to neither part. -/
def cutFirst? (mark : Char) (text : List Char) : Option (List Char × List Char) :=
  match text.dropWhile (· ≠ mark) with
  | [] => none
  | _ :: rest => some (text.takeWhile (· ≠ mark), rest)

/-- Takes off what satisfies `p` at the end. -/
def dropRightWhile (p : Char → Bool) (text : List Char) : List Char :=
  (text.reverse.dropWhile p).reverse

/-- Takes off what satisfies `p` at both ends. -/
def strip (p : Char → Bool) (text : List Char) : List Char :=
  dropRightWhile p (text.dropWhile p)

/-- What is left when the text starts with `lead`. -/
def dropLead? (lead text : List Char) : Option (List Char) :=
  if lead.isPrefixOf text then some (text.drop lead.length) else none

/-- What is left when the text ends with `tail`. -/
def dropTail? (tail text : List Char) : Option (List Char) :=
  if tail.isSuffixOf text then some (text.take (text.length - tail.length)) else none

end Rendition.Text
