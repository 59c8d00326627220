import PhaseExecutors.Config.Environment
import PhaseExecutors.Config.Overrides
import PhaseExecutors.Site
import PhaseExecutors.Toml.Document

/-!
Loading a configuration from all its sources.

From the lowest to the highest there are the global file, the project file, the file that the
caller names, the environment, and the overrides. Files that are not there are passed over.
-/

namespace PhaseExecutors

inductive LoadError
  | tooLarge (e : OverrideTooLarge)
  /-- A file breaks the rules of its format. -/
  | syntaxError
  | badValue (e : LayeredError)
deriving DecidableEq

namespace Site

/-! ### Files -/

/-- The names of a project file; the first one that exists counts. -/
def projectFiles : List String := ["phasepool.toml", ".phasepool.toml"]

def projectPath? (s : Site) : Option String := projectFiles.find? s.exists?

/-- The home of the user: as the environment names it, or else as the system knows it. -/
def homeDirectory? (s : Site) : Option String :=
  (s.valueOf? "HOME").filter (· ≠ "") <|> s.home.filter (· ≠ "")

/-- The directory of the user's configurations. -/
def configDirectory? (s : Site) : Option String :=
  (s.valueOf? "XDG_CONFIG_HOME").filter PathText.isAbsolute <|>
    s.homeDirectory?.map fun home => PathText.join home ".config"

def globalPath? (s : Site) : Option String :=
  s.configDirectory?.map fun directory =>
    PathText.join (PathText.join directory "phasepool") "config.toml"

/-- A place where a configuration file is looked for. -/
structure Source where
  label : String
  path : String
  found : Bool
deriving DecidableEq, Repr

/-- The places of configuration files, the highest first. -/
def sources (s : Site) (explicit : Option String) : List Source :=
  (explicit.map fun path => ⟨"Explicit", path, s.exists? path⟩).toList ++
    [match s.projectPath? with
      | some path => ⟨"Project", path, true⟩
      | none => ⟨"Project", projectFiles.headD "", false⟩] ++
    (s.globalPath?.map fun path => ⟨"Global", path, s.exists? path⟩).toList

/-! ### Layers -/

/-- The paths of all files that may be looked at, as absolute paths. -/
def candidates (s : Site) (explicit : Option String) : List String :=
  let around (path : String) : List String :=
    if PathText.isAbsolute path then [path]
    else (ancestors (PathText.names s.directory)).map fun directory =>
      PathText.join (PathText.ofNames directory) path
  (projectFiles ++ explicit.toList).flatMap around ++ s.globalPath?.toList

/-- The layer of a file, if the file is found. -/
def fileLayer (s : Site) (path : String) : Except LoadError (List Layer) :=
  match s.findFile? path with
  | none => .ok []
  | some (path, content) =>
    match Toml.read? content with
    | some v => .ok [.ofValue (.file (PathText.shown s.directory path)) v]
    | none => .error .syntaxError

def fileLayers (s : Site) : List String → Except LoadError (List Layer)
  | [] => .ok []
  | path :: paths => do
    let layer ← s.fileLayer path
    let layers ← s.fileLayers paths
    return layer ++ layers

/-- The files of a full load, the lowest first. -/
def loadPaths (s : Site) (explicit : Option String) : List String :=
  (s.globalPath?.filter s.exists?).toList ++ s.projectPath?.toList ++ explicit.toList

end Site

/-- The layer of overrides, if there are any. They are written out and read as a file is. -/
def Overrides.layers (o : Overrides) : Except LoadError (List Layer) :=
  if o.isEmpty then .ok []
  else
    match o.toToml with
    | .error e => .error (.tooLarge e)
    | .ok text =>
      match Toml.read? text with
      | some v => .ok [.ofValue .overrides v]
      | none => .error .syntaxError

namespace Config

/-- The configuration that layers make, the lowest first. -/
def ofLayers (layers : List Layer) : Except LoadError Config :=
  let layer := Layer.mergeAll layers
  match decode .ignored layer.toValue with
  | .ok c => .ok c
  | .error e => .error (.badValue (.locate layer e))

/-- Loads from the given layers of files and variables, with overrides on top. -/
def assemble (lower : Except LoadError (List Layer)) (o : Overrides) : Except LoadError Config := do
  let upper ← o.layers
  let lower ← lower
  ofLayers (lower ++ upper)

def load (s : Site) (explicit : Option String) (o : Overrides) : Except LoadError Config :=
  assemble ((s.fileLayers (s.loadPaths explicit)).map fun layers =>
    layers ++ [EnvironmentLayer.ofVariables s.environment]) o

/-- Only overrides count. -/
def loadOverrides (o : Overrides) : Except LoadError Config := assemble (.ok []) o

/-- Only one file and the overrides count. -/
def loadFile (s : Site) (path : String) (o : Overrides) : Except LoadError Config :=
  assemble (s.fileLayers [path]) o

end Config

namespace LoadError

def message : LoadError → String
  | .tooLarge e => e.message
  | .syntaxError => "a configuration file is not valid TOML"
  | .badValue e => e.message

end LoadError

end PhaseExecutors
