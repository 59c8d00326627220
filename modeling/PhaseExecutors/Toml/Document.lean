import PhaseExecutors.Toml.Number
import PhaseExecutors.Toml.Quoted
import PhaseExecutors.Toml.Tables

/-!
Reading TOML documents.

The keys of the resulting table stand in the order in which the document defines them.
-/

namespace PhaseExecutors.Toml

/-- Arrays and inline tables are nested less deep than this, and dotted keys are shorter. -/
def depthLimit : Nat := 80

def isBareKeyChar (c : Char) : Bool := c.isAlphanum || c = '-' || c = '_'

/-- What follows a comment, which may be missing; the line end stays. -/
def skipComment : List Char → List Char
  | '#' :: rest => rest.dropWhile isTextChar
  | cs => cs

/-- What follows the end of a line, behind blanks and a comment. -/
def lineEnd? (cs : List Char) : Option (List Char) :=
  match skipComment (skipBlanks cs) with
  | [] => some []
  | cs => newline? cs

/-- Skips blanks, comments and line ends. -/
def skipLines (fuel : Nat) (cs : List Char) : List Char :=
  match fuel with
  | 0 => cs
  | fuel + 1 =>
    let cs := skipBlanks cs
    match newline? (skipComment cs) with
    | some rest => skipLines fuel rest
    | none => cs

/-! ### Keys -/

def simpleKey? (cs : List Char) : Option (String × List Char) :=
  match cs with
  | '"' :: _ | '\'' :: _ => shortString? cs
  | cs =>
    let word := cs.takeWhile isBareKeyChar
    if word.isEmpty then none else some (String.ofList word, cs.dropWhile isBareKeyChar)

/-- Reads the parts of a dotted key, with blanks around each; `acc` holds the parts so far, last
part first. -/
def keyParts? (fuel : Nat) (acc : List String) (cs : List Char) :
    Option (List String × List Char) :=
  match fuel with
  | 0 => none
  | fuel + 1 =>
    match simpleKey? (skipBlanks cs) with
    | none => none
    | some (part, rest) =>
      match skipBlanks rest with
      | '.' :: rest => keyParts? fuel (part :: acc) rest
      | rest => some ((part :: acc).reverse, rest)

/-- Reads a dotted key: the path and the last part. -/
def key? (cs : List Char) : Option (List String × String × List Char) := do
  let (parts, rest) ← keyParts? (cs.length + 1) [] cs
  if depthLimit ≤ parts.length then none
  else
    let last ← parts.getLast?
    return (parts.dropLast, last, rest)

/-! ### Values -/

mutual

/-- Reads a value that is nested `depth` deep. -/
def value? (fuel depth : Nat) (cs : List Char) : Option (Value × List Char) :=
  match fuel, cs with
  | fuel + 1, c :: rest =>
    if c = '"' || c = '\'' then (string? cs).map fun (s, rest) => (.text s, rest)
    else if c = '[' then
      if depth + 1 < depthLimit then items? fuel (depth + 1) [] (skipLines rest.length rest)
      else none
    else if c = '\x7b' then
      if depth + 1 < depthLimit then
        match skipBlanks rest with
        | '\x7d' :: rest => some (.table [], rest)
        | rest => pairs? fuel (depth + 1) {} rest
      else none
    else
      match cs with
      | 't' :: 'r' :: 'u' :: 'e' :: rest => some (.bool true, rest)
      | 'f' :: 'a' :: 'l' :: 's' :: 'e' :: rest => some (.bool false, rest)
      | cs => number? cs
  | _, _ => none

/-- Reads the items of an array up to its end. -/
def items? (fuel depth : Nat) (acc : List Value) (cs : List Char) : Option (Value × List Char) :=
  match fuel, cs with
  | _, ']' :: rest => some (.array acc.reverse, rest)
  | 0, _ => none
  | fuel + 1, cs =>
    match value? fuel depth cs with
    | none => none
    | some (v, rest) =>
      match skipLines rest.length rest with
      | ',' :: rest => items? fuel depth (v :: acc) (skipLines rest.length rest)
      | ']' :: rest => some (.array (v :: acc).reverse, rest)
      | _ => none

/-- Reads the pairs of an inline table up to its end. -/
def pairs? (fuel depth : Nat) (t : Table) (cs : List Char) : Option (Value × List Char) :=
  match fuel with
  | 0 => none
  | fuel + 1 =>
    match key? cs with
    | some (path, key, '=' :: rest) =>
      match value? fuel depth (skipBlanks rest) with
      | none => none
      | some (v, rest) =>
        match addPair? path key v t, skipBlanks rest with
        | some t, ',' :: rest => pairs? fuel depth t rest
        | some t, '\x7d' :: rest => some (t.toValue, rest)
        | _, _ => none
    | _ => none

end

/-! ### Lines -/

/-- Reads a header, which is a line of its own. -/
def header? (b : Builder) : List Char → Option (Builder × List Char)
  | '[' :: '[' :: rest => do
    let (path, key, rest) ← key? rest
    match rest with
    | ']' :: ']' :: rest =>
      let rest ← lineEnd? rest
      return (← b.openRow? (path ++ [key]), rest)
    | _ => none
  | '[' :: rest => do
    let (path, key, rest) ← key? rest
    match rest with
    | ']' :: rest =>
      let rest ← lineEnd? rest
      return (← b.openTable? (path ++ [key]), rest)
    | _ => none
  | _ => none

/-- Reads a key and its value. -/
def pair? (b : Builder) (cs : List Char) : Option (Builder × List Char) := do
  let (path, key, rest) ← key? cs
  match rest with
  | '=' :: rest =>
    let (v, rest) ← value? (2 * rest.length + 2) 0 (skipBlanks rest)
    let rest ← lineEnd? rest
    return (← b.addPair? path key v, rest)
  | _ => none

def lines? (fuel : Nat) (b : Builder) (cs : List Char) : Option Builder :=
  match fuel with
  | 0 => none
  | fuel + 1 =>
    match skipBlanks cs with
    | [] => some b
    | cs@(c :: _) =>
      let next :=
        if c = '#' || c = '\n' || c = '\r' then (lineEnd? cs).map fun rest => (b, rest)
        else if c = '[' then header? b cs
        else pair? b cs
      match next with
      | some (b, rest) => lines? fuel b rest
      | none => none

def dropByteOrderMark : List Char → List Char
  | '\uFEFF' :: rest => rest
  | cs => cs

/-- Reads a document; `none` if it breaks a rule of the format. -/
def read? (s : String) : Option Value := do
  let cs := dropByteOrderMark s.toList
  let b ← lines? (cs.length + 1) {} cs
  let b ← b.close?
  return b.root.toValue

/-- Reads a document whose tables with the reserved key of dates hold dates. -/
def readDated? (s : String) : Option Value := (read? s).filter documentHoldsDates

end PhaseExecutors.Toml
