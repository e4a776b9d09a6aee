import Rendition.Text.Fields

/-!
# Links between documents

A document refers to others by the files they are written in.  Where it is published
it sits in a directory, the base, and `resolveLink` turns a reference to another
source file into the address that the file has there: relative steps are taken from
the base, and the ending of the file goes, and so does the name of a directory's
index.  Every other link stays as it is.
-/

namespace Rendition.Link

/-- How links begin that lead out of the published documents. -/
def externalLeads : List String :=
  ["http://", "https://", "//", "mailto:", "tel:"]

/-- Whether a link is none of a path: one within the page, or out of the documents. -/
def isFixed (url : List Char) : Bool :=
  "#".toList.isPrefixOf url || externalLeads.any fun lead => lead.toList.isPrefixOf url

/-- The nonempty segments of a path. -/
def segments (path : List Char) : List (List Char) :=
  Text.words (· = '/') path

/-- One step along a path: down into a segment, up one level, or nowhere.  At the
root there is no way up. -/
def step (position : List (List Char)) (component : List Char) : List (List Char) :=
  if component = [] ∨ component = ['.'] then position
  else if component = ['.', '.'] then position.dropLast
  else position ++ [component]

/-- Where a relative path leads from a base. -/
def resolveRelative (path base : List Char) : List Char :=
  ['/'].intercalate ((Text.fields (· = '/') path).foldl step (segments base))

/-- The path without the ending of a source file and, after that, without the name of
an index. -/
def publishedPath (path : List Char) : List Char :=
  let plain := (Text.dropTail? ".md".toList path).getD path
  (Text.dropTail? "/index".toList plain).getD plain

/-- The address of a link in the document with a base. -/
def resolveChars (url base : List Char) : List Char :=
  let path := url.takeWhile (· ≠ '#')
  let fragment := url.dropWhile (· ≠ '#')
  if isFixed url || !".md".toList.isSuffixOf path then
    url
  else
    let resolved :=
      match path with
      | '/' :: absolute => absolute
      | _ => resolveRelative path base
    '/' :: publishedPath resolved ++ fragment

end Link

/-- The address of a link in the document with a base. -/
def resolveLink (url base : String) : String :=
  String.ofList (Link.resolveChars url.toList base.toList)

end Rendition
