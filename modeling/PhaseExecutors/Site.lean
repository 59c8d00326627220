import PhaseExecutors.Text.Split

/-!
The surroundings of a run: files, the working directory and the environment variables.

Paths are texts. A path is resolved part by part, so every part but the last has to be a directory.
-/

namespace PhaseExecutors

/-! ### Paths -/

namespace PathText

def isAbsolute (path : String) : Bool := path.toList.head? == some '/'

/-- The system takes a path of fewer bytes than this. -/
def lengthLimit : Nat := 4096

def isShort (path : String) : Bool := path.utf8ByteSize < lengthLimit

/-- The path behind a base, unless it is absolute itself. -/
def join (base path : String) : String :=
  if isAbsolute path then path
  else if base.toList.getLast? == some '/' then base ++ path
  else base ++ "/" ++ path

/-- The names of an absolute path; a single dot and an empty name say nothing. -/
def names (path : String) : List String :=
  (Text.splitText '/' path).filter fun n => n ≠ "" && n ≠ "."

def ofNames (names : List String) : String := "/" ++ String.intercalate "/" names

/-- The path of `names` as seen from the directory `base`; both are absolute. -/
def relative : (names base : List String) → List String
  | [], base => base.map fun _ => ".."
  | names, [] => names
  | n :: names, b :: base =>
    if n = b then relative names base else ".." :: (base.map fun _ => "..") ++ n :: names

/-- A path for display: relative to the directory if that has fewer parts. The root of an
absolute path is a part of its own. -/
def shown (directory path : String) : String :=
  let relative := relative (names path) (names directory)
  if relative.length < (names path).length + 1 then String.intercalate "/" relative else path

end PathText

/-! ### Files -/

inductive FileEntry
  | file (content : String)
  | directory
deriving DecidableEq

/-- Files by the names of their absolute paths, and directories that hold no file. -/
structure FileTree where
  files : List (List String × String)
  directories : List (List String) := []

namespace FileTree

/-- Where a part of a path leads from a place. -/
def step (here : List String) (part : String) : List String :=
  if part = "" || part = "." then here
  else if part = ".." then here.dropLast
  else here ++ [part]

/-- The names of every place that a walk along an absolute path may come to. -/
def places (here : List String) : List String → List (List String)
  | [] => []
  | part :: parts =>
    let next := step here part
    next :: places next parts

/-- What stands at a path without dots. -/
def entry? (t : FileTree) (names : List String) : Option FileEntry :=
  match t.files.lookup names with
  | some content => some (.file content)
  | none =>
    if t.files.any (fun f => names.isPrefixOf f.1) || t.directories.any names.isPrefixOf then
      some .directory
    else none

/-- Follows the parts of a path from an entry at `here`. -/
def follow? (t : FileTree) (here : List String) (entry : FileEntry) :
    List String → Option FileEntry
  | [] => some entry
  | part :: parts =>
    match entry with
    | .file _ => none
    | .directory =>
      let next := step here part
      match t.entry? next with
      | some entry => t.follow? next entry parts
      | none => none

/-- What an absolute path leads to. -/
def find? (t : FileTree) (path : String) : Option FileEntry :=
  t.follow? [] .directory (Text.splitText '/' path)

def read? (t : FileTree) (path : String) : Option String :=
  match t.find? path with
  | some (.file content) => some content
  | _ => none

end FileTree

/-! ### Surroundings -/

structure Site where
  files : FileTree
  /-- The absolute path of the working directory. -/
  directory : String
  /-- The variables in the order of the environment block. -/
  environment : List (String × String)
  /-- The home directory that the system has on record for the user. -/
  home : Option String := none

namespace Site

def valueOf? (s : Site) (name : String) : Option String := s.environment.lookup name

/-- Something stands at a path. -/
def exists? (s : Site) (path : String) : Bool :=
  path ≠ "" && PathText.isShort path && (s.files.find? (PathText.join s.directory path)).isSome

/-- A directory and those that contain it, the innermost first. -/
def ancestors (names : List String) : List (List String) :=
  (List.range (names.length + 1)).map fun i => names.take (names.length - i)

/-- The regular file at an absolute path: the path and the content. -/
def fileAt? (s : Site) (path : String) : Option (String × String) :=
  if PathText.isShort path then (s.files.read? path).map fun content => (path, content) else none

/-- Finds a regular file: an absolute path as it is, a relative one from the working directory
or the nearest directory around it. The result is the absolute path and the content. -/
def findFile? (s : Site) (path : String) : Option (String × String) :=
  if PathText.isAbsolute path then s.fileAt? path
  else
    (ancestors (PathText.names s.directory)).findSome? fun directory =>
      s.fileAt? (PathText.join (PathText.ofNames directory) path)

end Site

end PhaseExecutors
