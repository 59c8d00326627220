import PhaseExecutors.Value.Basic
import PhaseExecutors.Text.Quoted

/-!
Reading typed data from a value of a document.

An error states its cause and the keys that lead to the fault. A record may be a table or an array
of its fields; when several fields are at fault, the one that the document gives first is
reported, and missing fields come after all given ones.
-/

namespace PhaseExecutors

/-! ### Errors -/

/-- What stands in a document, as far as messages tell. -/
inductive Found
  | null
  | bool (b : Bool)
  | unsigned (n : UInt64)
  | signed (n : Int64)
  | float (x : Binary64)
  | text (s : String)
  | array
  | table
deriving DecidableEq

/-- A single character counts as a text. -/
def Value.found : Value → Found
  | .null => .null
  | .bool b => .bool b
  | .unsigned n => .unsigned n
  | .signed n => .signed n
  | .float x => .float x
  | .char c => .text (String.singleton c)
  | .text s => .text s
  | .array _ => .array
  | .table _ => .table

inductive DecodeCause
  | badType (found : Found) (expected : String)
  | badValue (found : Found) (expected : String)
  | badLength (length : Nat) (expected : String)
  | missingField (name : String)
  | unknownName (name : String) (known : List String)
  | noShape (type : String)
  | refused (message : String)
deriving DecidableEq

structure DecodeError where
  cause : DecodeCause
  path : List String := []
deriving DecidableEq

namespace DecodeError

def badType (v : Value) (expected : String) : DecodeError := ⟨.badType v.found expected, []⟩

def badValue (v : Value) (expected : String) : DecodeError := ⟨.badValue v.found expected, []⟩

/-- The same fault, seen from the value that holds `key`. -/
def within (key : String) (e : DecodeError) : DecodeError := { e with path := key :: e.path }

end DecodeError

/-- The wording of messages. Layered documents name the type of what was found; the other two
differ in how they write floating point numbers. -/
inductive Dialect
  | json
  | toml
  | layered
deriving DecidableEq

namespace Found

def describeLayered : Found → String
  | .null => "unit"
  | .bool b => s!"bool {b}"
  | .unsigned n => s!"unsigned int `{n.toNat}`"
  | .signed n => s!"signed int `{n.toInt}`"
  | .float x => s!"float `{String.ofList (Decimal.plain x)}`"
  | .text s => "string " ++ Text.quoted s
  | .array => "sequence"
  | .table => "map"

def describePlain (float : Binary64 → List Char) : Found → String
  | .null => "null"
  | .bool b => s!"boolean `{b}`"
  | .unsigned n => s!"integer `{n.toNat}`"
  | .signed n => s!"integer `{n.toInt}`"
  | .float x => s!"floating point `{String.ofList (float x)}`"
  | .text s => "string " ++ Text.quoted s
  | .array => "sequence"
  | .table => "map"

def describe : Dialect → Found → String
  | .json, f => f.describePlain Decimal.documented
  | .toml, f => f.describePlain Decimal.plainWithPoint
  | .layered, f => f.describeLayered

end Found

/-- The names that were possible, as a phrase. -/
def oneOf : List String → String
  | [] => "there are no variants"
  | [a] => s!"expected `{a}`"
  | [a, b] => s!"expected `{a}` or `{b}`"
  | names => "expected one of " ++ String.intercalate ", " (names.map fun n => s!"`{n}`")

def DecodeCause.message (dialect : Dialect) : DecodeCause → String
  | .badType found expected =>
    match dialect with
    | .layered => s!"invalid type: found {found.describe dialect}, expected {expected}"
    | _ => s!"invalid type: {found.describe dialect}, expected {expected}"
  | .badValue found expected =>
    match dialect with
    | .layered => s!"invalid value {found.describe dialect}, expected {expected}"
    | _ => s!"invalid value: {found.describe dialect}, expected {expected}"
  | .badLength length expected => s!"invalid length {length}, expected {expected}"
  | .missingField name => s!"missing field `{name}`"
  | .unknownName name known => s!"unknown variant `{name}`, {oneOf known}"
  | .noShape type => s!"data did not match any variant of untagged enum {type}"
  | .refused message => message

/-! ### Simple values -/

abbrev Decoder (α : Type) := Value → Except DecodeError α

namespace Decode

def size : Decoder Size
  | .unsigned n => .ok n
  | .signed n =>
    if n.toInt < 0 then .error (.badValue (.signed n) "usize") else .ok (UInt64.ofNat n.toInt.toNat)
  | v => .error (.badType v "usize")

def bool : Decoder Bool
  | .bool b => .ok b
  | v => .error (.badType v "a boolean")

def text : Decoder String
  | .text s => .ok s
  | v => .error (.badType v "a string")

/-- `none` for the null value. -/
def optional {α : Type} (decode : Decoder α) : Decoder (Option α)
  | .null => .ok none
  | v => (decode v).map some

/-- Decodes every item; the first fault counts. -/
def items {α : Type} (decode : Decoder α) : List Value → Except DecodeError (List α)
  | [] => .ok []
  | v :: rest => do
    let a ← decode v
    let as ← items decode rest
    return a :: as

def list {α : Type} (decode : Decoder α) : Decoder (List α)
  | .array vs => items decode vs
  | v => .error (.badType v "a sequence")

/-- The value that goes with a name. -/
def named {α : Type} (known : List (String × α)) (name : String) : Except DecodeError α :=
  match known.lookup name with
  | some a => .ok a
  | none => .error ⟨.unknownName name (known.map Prod.fst), []⟩

/-- A name by itself, or as the only key of a table that holds null. -/
def name {α : Type} (known : List (String × α)) : Decoder α
  | .text s => named known s
  | .table [(key, v)] => do
    let a ← named known key
    match v with
    | .null => return a
    | v => .error (.badType v "unit")
  | .table entries => .error (.badValue (.table entries) "map with a single key")
  | v => .error (.badType v "string or map")

end Decode

/-! ### Records -/

/-- What becomes of items that a record given as an array has too many. -/
inductive Surplus
  | refused
  | refusedInside
  | ignored
deriving DecidableEq

structure RecordType where
  /-- How messages name the record. -/
  title : String
  /-- The fields in the order of an array. -/
  fields : List String

/-- A field as a document gives it: its name, and its key on the path to it. -/
structure Given where
  name : String
  key : String
  value : Value

/-- The given fields of a record, in the order of the document. -/
structure Fields where
  type : RecordType
  given : List Given
  /-- The record is an array of so many items. -/
  length? : Option Nat

/-- A part of a record, or a fault and its place in the order of reading. -/
def Part (α : Type) : Type := Except (Nat × DecodeError) α

namespace Part

def pure {α : Type} (a : α) : Part α := .ok a

def map {α β : Type} (f : α → β) (p : Part α) : Part β := Except.map f p

/-- Both parts; of two faults the one that is read first. -/
def apply {α β : Type} (f : Part (α → β)) (p : Part α) : Part β :=
  match f, p with
  | .ok f, .ok a => .ok (f a)
  | .error e, .ok _ => .error e
  | .ok _, .error e => .error e
  | .error e, .error e' => if e.1 ≤ e'.1 then .error e else .error e'

/-- A pair of parts. -/
def and {α β : Type} (p : Part α) (q : Part β) : Part (α × β) := (p.map Prod.mk).apply q

end Part

/-- Pairs each item with a field and its index. -/
def givenByIndex (index : Nat) : List String → List Value → List Given
  | name :: names, v :: vs => ⟨name, toString index, v⟩ :: givenByIndex (index + 1) names vs
  | _, _ => []

/-- The fields that a value gives; a key that is no field is passed over when fields are read. -/
def RecordType.fieldsOf (type : RecordType) : Decoder Fields
  | .table entries => .ok ⟨type, entries.map fun e => ⟨e.1, e.1, e.2⟩, none⟩
  | .array vs => .ok ⟨type, givenByIndex 0 type.fields vs, some vs.length⟩
  | v => .error (.badType v type.title)

/-- So many elements, in words. -/
def elements (n : Nat) : String := if n = 1 then "1 element" else s!"{n} elements"

namespace Fields

/-- The place and the content of a given field. -/
def find? (fields : Fields) (name : String) : Option (Nat × Given) :=
  (fields.given.findIdx? (·.name == name)).bind fun i => fields.given[i]?.map fun g => (i, g)

def decodeAt {α : Type} (decode : Decoder α) (place : Nat) (given : Given) : Part α :=
  (decode given.value).mapError fun e => (place, e.within given.key)

/-- A field that may be absent. -/
def get? {α : Type} (fields : Fields) (name : String) (decode : Decoder α) : Part (Option α) :=
  match fields.find? name with
  | some (place, given) => (decodeAt decode place given).map some
  | none => Part.pure none

/-- A field, or its default. -/
def getD {α : Type} (fields : Fields) (name : String) (decode : Decoder α) (default : α) : Part α :=
  (fields.get? name decode).map (·.getD default)

/-- The fault of a field that is absent: of an array, its length. -/
def absent (fields : Fields) (name : String) : DecodeError :=
  match fields.length? with
  | none => ⟨.missingField name, []⟩
  | some n =>
    ⟨.badLength n s!"{fields.type.title} with {elements fields.type.fields.length}", []⟩

/-- A field that has to be there. -/
def get {α : Type} (fields : Fields) (name : String) (decode : Decoder α) : Part α :=
  match fields.find? name with
  | some (place, given) => decodeAt decode place given
  | none => .error (fields.given.length + fields.type.fields.idxOf name, fields.absent name)

/-- The fault of an array with more items than fields. -/
def excess? (fields : Fields) (surplus : Surplus) : Option DecodeError :=
  let known := fields.type.fields.length
  match surplus, fields.length? with
  | .ignored, _ => none
  | _, none => none
  | .refused, some n =>
    if known < n then some ⟨.badLength n "fewer elements in array", []⟩ else none
  | .refusedInside, some n =>
    if known < n then some ⟨.badLength n s!"{elements known} in sequence", []⟩ else none

/-- The record made of its parts. -/
def finish {α : Type} (fields : Fields) (surplus : Surplus) (p : Part α) : Except DecodeError α :=
  match p with
  | .error (_, e) => .error e
  | .ok a =>
    match fields.excess? surplus with
    | some e => .error e
    | none => .ok a

end Fields

/-! ### Tagged records -/

/-- Takes the entry of a key out of a table. -/
def takeEntry (key : String) : List (String × Value) → Option (Value × List (String × Value))
  | [] => none
  | (k, v) :: rest =>
    if k = key then some (v, rest)
    else (takeEntry key rest).map fun (found, others) => (found, (k, v) :: others)

/-- A value with a tag: the case that the tag names, and the value without it. The tag is an
entry of a table or the first item of an array. -/
def Decode.tagged {α : Type} (type tag : String) (known : List (String × α)) :
    Decoder (α × Value) := fun v =>
  let choose (t : Value) (rest : Value) : Except DecodeError (α × Value) :=
    match t with
    | .text s => (Decode.named known s).map fun a => (a, rest)
    | t => .error (.badType t "variant identifier")
  match v with
  | .table entries =>
    match takeEntry tag entries with
    | some (t, others) => choose t (.table others)
    | none => .error ⟨.missingField tag, []⟩
  | .array (t :: rest) => choose t (.array rest)
  | .array [] => .error ⟨.missingField tag, []⟩
  | v => .error (.badType v s!"internally tagged enum {type}")

end PhaseExecutors
