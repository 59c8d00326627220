import PhaseExecutors.Value.Decode

/-!
Layers of a configuration.

A layer is a document in which each part knows its origin. Merging two layers joins tables key by
key; anything else in the upper layer takes the place of what is below it. A joined table counts as
coming from the upper layer.
-/

namespace PhaseExecutors

inductive Origin
  /-- A file, by the path that messages show. -/
  | file (path : String)
  | environment
  | overrides
deriving DecidableEq, Repr

inductive Layer
  | leaf (origin : Origin) (v : Value)
  | table (origin : Origin) (entries : List (String × Layer))

namespace Layer

def origin : Layer → Origin
  | .leaf origin _ => origin
  | .table origin _ => origin

mutual

/-- A document of one origin, its tables sorted by key. -/
def ofValue (origin : Origin) : Value → Layer
  | .table entries => .table origin (ofEntries origin entries)
  | v => .leaf origin v

def ofEntries (origin : Origin) : List (String × Value) → List (String × Layer)
  | [] => []
  | (key, v) :: rest => Value.insertSorted key (ofValue origin v) (ofEntries origin rest)

end

mutual

/-- The document without its origins. -/
def toValue : Layer → Value
  | .leaf _ v => v
  | .table _ entries => .table (toEntries entries)

def toEntries : List (String × Layer) → List (String × Value)
  | [] => []
  | (key, layer) :: rest => (key, layer.toValue) :: toEntries rest

end

mutual

/-- The second layer on top of the first. -/
def merge (lower : Layer) : Layer → Layer
  | .leaf origin v => .leaf origin v
  | .table origin entries =>
    match lower with
    | .table _ below => .table origin (mergeEntries below entries)
    | .leaf .. => .table origin entries

def mergeEntries (below : List (String × Layer)) : List (String × Layer) → List (String × Layer)
  | [] => below
  | (key, upper) :: rest =>
    let joined := match Value.lookup? key below with
      | some lower => merge lower upper
      | none => upper
    mergeEntries (Value.insertSorted key joined below) rest

end

/-- A layer that sets nothing. -/
def empty : Layer := .table .overrides []

/-- The layers on top of each other, the lowest first. -/
def mergeAll (layers : List Layer) : Layer := layers.foldl merge empty

/-- The origin of what stands at a path, or of the deepest part on the way to it. -/
def originAt : List String → Layer → Origin
  | [], layer => layer.origin
  | _ :: _, .leaf origin _ => origin
  | key :: path, .table origin entries =>
    match Value.lookup? key entries with
    | some layer => originAt path layer
    | none => origin

end Layer

/-- A fault of a layered document, and where the value at fault comes from. -/
structure LayeredError where
  error : DecodeError
  origin : Origin
deriving DecidableEq

namespace LayeredError

/-- A fault is blamed on the origin of the value at fault. -/
def locate (layer : Layer) (e : DecodeError) : LayeredError := ⟨e, layer.originAt e.path⟩

/-- The key as its origin writes it. -/
def keyText (path : List String) : Origin → String
  | .environment => String.intercalate "." (path.map String.toUpper)
  | .file _ | .overrides => String.intercalate "." ("default" :: path)

def originText : Origin → String
  | .file path => s!"{path} TOML file"
  | .environment => "`PHASEPOOL_` environment variable(s)"
  | .overrides => "TOML source string"

def message (e : LayeredError) : String :=
  s!"{e.error.cause.message .layered} for key " ++
    Text.quoted (keyText e.error.path e.origin) ++ s!" in {originText e.origin}"

/-- The kind of a fault, as answers name it. -/
def kind (e : LayeredError) : String :=
  match e.error.cause with
  | .badType .. => "InvalidType"
  | .badValue .. => "InvalidValue"
  | .badLength .. => "InvalidLength"
  | .missingField _ => "MissingField"
  | .unknownName .. => "UnknownVariant"
  | .noShape _ | .refused _ => "Message"

end LayeredError

end PhaseExecutors
