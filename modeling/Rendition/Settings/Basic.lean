import Rendition.Render.Context
import Rendition.Text.White
import Rendition.Toml.Document

/-!
# Render settings

Settings come from the section `render` of a configuration document.  What the section
does not mention has its default, and what else the document holds does not matter.
Settings that no render could work with are refused (`Settings.validate`).
-/

namespace Rendition

/-- The settings of a project. -/
structure Settings where
  /-- Whether the extensions of the Markdown dialect of source forges are in use. -/
  gfm : Bool := true
  /-- Whether the first heading of level 1 is the title of a document. -/
  extractTitle : Bool := false
  /-- Whether problems that a render could get over are errors. -/
  strict : Bool := false
  /-- How deeply nodes may be nested. -/
  maxDepth : Nat := 128
  /-- The directory from which links between documents are resolved. -/
  basePath : Option String := none
  deriving DecidableEq, Repr

/-- Why there are no settings. -/
inductive SettingsError where
  /-- There is no file of that name. -/
  | notFound (path : String)
  /-- The file cannot be read as text. -/
  | unreadable
  /-- The text is no document, or a setting is of the wrong type. -/
  | malformed
  | zeroDepth
  | blankBasePath
  deriving DecidableEq, Repr

/-- The wording of the errors that have one of their own. -/
def SettingsError.message? : SettingsError → Option String
  | notFound path => some s!"Configuration file not found: {path}"
  | unreadable | malformed => none
  | zeroDepth => some "Configuration error: render.max_depth must be at least 1"
  | blankBasePath => some "Configuration error: render.base_path cannot be empty"

namespace Settings

/-- The options of a render under these settings. -/
def renderOptions (settings : Settings) : RenderOptions :=
  ⟨settings.strict, settings.maxDepth⟩

/-- Checks that the settings make sense; the depth limit comes first. -/
def validate (settings : Settings) : Except SettingsError Settings :=
  if settings.maxDepth = 0 then
    .error .zeroDepth
  else
    match settings.basePath with
    | some path => if path.toList.all Text.isWhite then .error .blankBasePath else .ok settings
    | none => .ok settings

/-! ## Reading settings -/

open Toml (Value Entries)

/-- Depth limits are machine words. -/
def depthBound : Nat := Nat.pow 2 64

def setGfm (value : Value) (settings : Settings) : Option Settings :=
  match value with
  | .boolean gfm => some { settings with gfm }
  | _ => none

def setExtractTitle (value : Value) (settings : Settings) : Option Settings :=
  match value with
  | .boolean extractTitle => some { settings with extractTitle }
  | _ => none

def setStrict (value : Value) (settings : Settings) : Option Settings :=
  match value with
  | .boolean strict => some { settings with strict }
  | _ => none

def setMaxDepth (value : Value) (settings : Settings) : Option Settings :=
  match value with
  | .number content =>
    match content.int? with
    | some (.ofNat maxDepth) =>
      if maxDepth < depthBound then some { settings with maxDepth } else none
    | _ => none
  | _ => none

def setBasePath (value : Value) (settings : Settings) : Option Settings :=
  match value with
  | .string path => some { settings with basePath := some path }
  | _ => none

/-- The settings by name, in the order in which a list gives them. -/
def fields : List (String × (Value → Settings → Option Settings)) :=
  [("gfm", setGfm), ("extract_title", setExtractTitle), ("strict", setStrict),
    ("max_depth", setMaxDepth), ("base_path", setBasePath)]

/-- Settings by name.  Entries that are no settings have to be readable all the same. -/
def ofEntries (entries : Entries) : Option Settings :=
  if entries.areReadable then
    fields.foldlM (fun settings (name, set) =>
      match entries.get? name with
      | none => some settings
      | some value => set value settings) {}
  else
    none

/-- Settings by position.  Items without a setting do not matter and need not be
readable. -/
def ofItems (items : List Value) : Option Settings :=
  (fields.zip items).foldlM (fun settings ((_, set), value) => set value settings) {}

/-- The settings in the value of the entry `render`.  A moment counts as a table without
any settings. -/
def ofValue : Value → Option Settings
  | .table _ entries => ofEntries entries
  | .array items => ofItems items
  | .tableArray tables => ofItems (tables.map (.table .headed))
  | .moment _ => some {}
  | .string _ | .number _ | .boolean _ => none

/-- The settings in a configuration document.  Its other entries have to be readable. -/
def ofDocument (document : Entries) : Option Settings :=
  if Entries.areReadable (document.filter (·.1 ≠ "render")) then
    match document.get? "render" with
    | none => some {}
    | some value => ofValue value
  else
    none

/-- Reads and checks settings. -/
def parse (text : String) : Except SettingsError Settings :=
  match (Toml.readDocument? text).bind ofDocument with
  | none => .error .malformed
  | some settings => settings.validate

end Settings
end Rendition
