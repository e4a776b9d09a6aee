import Rendition.Toml.Number

/-!
# Values of a configuration document

A document in TOML is a table: entries in the order in which they were written, each
with a name of its own.  How a table came about (`TableForm`) decides whether it may
still grow.
-/

namespace Rendition.Toml

/-- How a table came about. -/
inductive TableForm where
  /-- It has a header of its own, or is the document. -/
  | headed
  /-- It is on the way to a table with a header. -/
  | passed
  /-- It is on the way to a dotted key. -/
  | dotted
  /-- It was written as a value, and is complete. -/
  | inline
  deriving DecidableEq, Repr

/-- A value. -/
inductive Value where
  | string (content : String)
  | number (content : Numeral)
  | boolean (content : Bool)
  /-- A date, a time or both, as written. -/
  | moment (written : String)
  | array (items : List Value)
  | table (form : TableForm) (entries : List (String × Value))
  /-- Tables with one header each. -/
  | tableArray (items : List (List (String × Value)))

/-- The entries of a table, in the order in which they were written. -/
abbrev Entries := List (String × Value)

namespace Entries

/-- The value of a name. -/
def get? (entries : Entries) (name : String) : Option Value :=
  entries.lookup name

/-- Gives a name a value: in the place of its entry, or at the end if it has none. -/
def set (name : String) (value : Value) : Entries → Entries
  | [] => [(name, value)]
  | (other, old) :: rest =>
    if other = name then (name, value) :: rest else (other, old) :: set name value rest

/-- Enters a value under a dotted key.  The name itself must be new, and no table on the
way may have a header or be complete; none of them can get a header afterwards.  An array
of tables stands for the last of them, which cannot be the innermost table. -/
def insertDotted (value : Value) : List String → Entries → Option Entries
  | [], _ => none
  | [name], entries =>
    match entries.get? name with
    | none => some (entries.set name value)
    | some _ => none
  | name :: path, entries =>
    match entries.get? name with
    | none => (insertDotted value path []).map fun inner => entries.set name (.table .dotted inner)
    | some (.table form inner) =>
      if form = .dotted ∨ form = .passed then
        (insertDotted value path inner).map fun inner => entries.set name (.table .dotted inner)
      else
        none
    | some (.tableArray items) =>
      match items.getLast? with
      | none => none
      | some last =>
        if path.length = 1 then none
        else
          (insertDotted value path last).map fun last =>
            entries.set name (.tableArray (items.dropLast ++ [last]))
    | some _ => none

/-- Changes what is under the path of a header.  Tables that are missing on the way are
passed, and of an array of tables it is the last one that counts. -/
def alter (change : Option Value → Option Value) : List String → Entries → Option Entries
  | [], _ => none
  | [name], entries => (change (entries.get? name)).map fun value => entries.set name value
  | name :: path, entries =>
    match entries.get? name with
    | none => (alter change path []).map fun inner => entries.set name (.table .passed inner)
    | some (.table form inner) =>
      if form = .inline then none
      else (alter change path inner).map fun inner => entries.set name (.table form inner)
    | some (.tableArray items) =>
      match items.getLast? with
      | none => none
      | some last =>
        (alter change path last).map fun last =>
          entries.set name (.tableArray (items.dropLast ++ [last]))
    | some _ => none

end Entries

/-! ## Reading -/

mutual

/-- Whether all numbers in a value can be read. -/
def Value.isReadable : Value → Bool
  | .number content => content.isReadable
  | .array items => Value.areReadable items
  | .table _ entries => Entries.areReadable entries
  | .tableArray tables => Entries.allReadable tables
  | .string _ | .boolean _ | .moment _ => true

/-- Whether all of several values can be read. -/
def Value.areReadable : List Value → Bool
  | [] => true
  | item :: items => item.isReadable && Value.areReadable items

/-- Whether the values of all entries can be read. -/
def Entries.areReadable : Entries → Bool
  | [] => true
  | (_, value) :: entries => value.isReadable && Entries.areReadable entries

/-- Whether the values of all entries of several tables can be read. -/
def Entries.allReadable : List Entries → Bool
  | [] => true
  | entries :: tables => Entries.areReadable entries && Entries.allReadable tables

end

end Rendition.Toml
