import Rendition.Settings.Basic

/-!
# Finding the settings file

Settings are loaded from the file that is named, or else from the nearest file
`richtext.toml` on the way from the working directory up to the root of the file tree.
Without any such file, the defaults apply.
-/

namespace Rendition

/-- Files and directories below a root, each under its path from there.  The
directories on the way to a file or directory are there as well. -/
structure FileTree where
  files : List (List String × ByteArray)
  directories : List (List String)

/-- A place in or around a file tree. -/
inductive Place where
  | inside (path : List String)
  /-- Above the root, where nothing is known but that there are directories. -/
  | outside
  deriving DecidableEq, Repr

namespace FileTree

def isDirectory (tree : FileTree) : Place → Bool
  | .outside => true
  | .inside path =>
    path.isEmpty || tree.directories.any (path.isPrefixOf ·) ||
      tree.files.any fun (file, _) => path.isPrefixOf file && path ≠ file

def isFile (tree : FileTree) : Place → Bool
  | .outside => false
  | .inside path => (tree.files.lookup path).isSome

def hasPlace (tree : FileTree) (place : Place) : Bool :=
  tree.isDirectory place || tree.isFile place

/-- The parts of a path between its slashes. -/
def components (path : String) : List String :=
  (Text.fields (· = '/') path.toList).map String.ofList

/-- The path of a file or directory that is known to be below the root. -/
def pathOf (path : String) : List String :=
  (components path).foldl (fun done component =>
    if component = "" || component = "." then done
    else if component = ".." then done.dropLast
    else done ++ [component]) []

/-- One step along a path, which has to start from a directory and lead to something
that is there. -/
def step? (tree : FileTree) (place : Place) (component : String) : Option Place :=
  if !tree.isDirectory place then none
  else if component = "" || component = "." then some place
  else
    match place with
    | .outside => if component = ".." then some .outside else none
    | .inside path =>
      if component = ".." then
        some (if path.isEmpty then .outside else .inside path.dropLast)
      else
        let next := Place.inside (path ++ [component])
        if tree.hasPlace next then some next else none

/-- The place that a path leads to, if it is there.  The empty path leads nowhere. -/
def find? (tree : FileTree) (start : Place) (path : String) : Option Place :=
  if path = "" then none
  else
    let start := if path.startsWith "/" then .outside else start
    (components path).foldlM tree.step? start

/-- The text of the file at a place. -/
def readText? (tree : FileTree) : Place → Option String
  | .outside => none
  | .inside path => (tree.files.lookup path).bind String.fromUTF8?

end FileTree

namespace Settings

/-- The name of settings files. -/
def fileName : String := "richtext.toml"

/-- The nearest settings file: in the directory at a place or else in the directories
above it.  There is none outside the tree. -/
def discover? (tree : FileTree) : Place → Option (List String)
  | .outside => none
  | .inside path =>
    (List.range (path.length + 1)).reverse.findSome? fun count =>
      let candidate := path.take count ++ [fileName]
      if tree.hasPlace (.inside candidate) then some candidate else none

/-- Loads settings from the file at a place. -/
def loadFile (tree : FileTree) (place : Place) : Except SettingsError Settings :=
  match tree.readText? place with
  | none => .error .unreadable
  | some text => parse text

/-- Loads settings, together with the path of the file that they come from: as it was
named, or from the root of the tree if it was found. -/
def load (tree : FileTree) (workingDirectory : Place) (named : Option String) :
    Except SettingsError (Settings × Option String) :=
  match named with
  | some path =>
    match tree.find? workingDirectory path with
    | none => .error (.notFound path)
    | some place => (loadFile tree place).map fun settings => (settings, some path)
  | none =>
    match discover? tree workingDirectory with
    | none => .ok ({}, none)
    | some path =>
      (loadFile tree (.inside path)).map fun settings => (settings, some ("/".intercalate path))

end Settings
end Rendition
