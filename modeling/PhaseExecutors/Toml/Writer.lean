import PhaseExecutors.Value.Basic
import PhaseExecutors.Value.Json

/-!
Writing TOML documents that consist of sections of plain values.

A whole number of the format has a sign and 64 bits, so a larger one cannot be written.
-/

namespace PhaseExecutors.Toml

/-- A value that has no form in the document. -/
inductive WriteError
  | outOfRange (n : UInt64)
  | notPlain
deriving DecidableEq, Repr

namespace WriteError

def message : WriteError → String
  | .outOfRange _ => "out-of-range value for u64 type"
  | .notPlain => "unsupported value"

end WriteError

def plain : Value → Except WriteError String
  | .bool b => .ok (if b then "true" else "false")
  | .unsigned n =>
    if n.toNat < Size.signedBound then .ok (toString n.toNat) else .error (.outOfRange n)
  | .signed n => .ok (toString n.toInt)
  | .text s => .ok (Json.quote s)
  | _ => .error .notPlain

/-- The lines of a section behind its header. -/
def pairLines : List (String × Value) → Except WriteError String
  | [] => .ok ""
  | (key, v) :: rest => do
    let v ← plain v
    let rest ← pairLines rest
    return s!"{key} = {v}\n" ++ rest

def sectionText (key : String) : Value → Except WriteError String
  | .table entries => do
    let lines ← pairLines entries
    return s!"[{key}]\n" ++ lines
  | _ => .error .notPlain

def sectionTexts : List (String × Value) → Except WriteError (List String)
  | [] => .ok []
  | (key, v) :: rest => do
    let text ← sectionText key v
    let rest ← sectionTexts rest
    return text :: rest

/-- The sections of a document, with an empty line between them. -/
def write : Value → Except WriteError String
  | .table sections => do
    let texts ← sectionTexts sections
    return String.intercalate "\n" texts
  | _ => .error .notPlain

end PhaseExecutors.Toml
