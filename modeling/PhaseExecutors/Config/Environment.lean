import PhaseExecutors.Config.Layer
import PhaseExecutors.Text.Split
import PhaseExecutors.Toml.Quoted

/-!
The layer of the environment.

A variable with the right start of its name sets the key that the rest of the name spells. Its
value may be a truth value, a number, a quoted string, an array or a table; anything else is text.
-/

namespace PhaseExecutors.EnvironmentLayer

/-! ### Values -/

/-- The blanks around values and keys: the white space of ASCII without the vertical tab. -/
def isBlank (c : Char) : Bool :=
  c = ' ' || c = '\t' || c = '\n' || c = '\x0c' || c = '\r'

def skipBlanks (cs : List Char) : List Char := cs.dropWhile isBlank

def isSeparator (c : Char) : Bool :=
  c = ',' || c = '\x7b' || c = '\x7d' || c = '[' || c = ']'

def isKeyChar (c : Char) : Bool := c.isAlphanum || c = '_' || c = '-'

/-- A text without separators: a number if it reads as one. Only a text with a point can be
floating point. -/
def plain (cs : List Char) : Value :=
  let cs := Text.trim cs
  match if cs.contains '.' then Decimal.read? cs else none with
  | some x => .float x
  | none =>
    match Size.read? cs with
    | some n => .unsigned n
    | none =>
      match Size.readNegative? cs with
      | some n => .signed n
      | none => .text (String.ofList cs)

/-- Takes a string behind its opening quote; a backslash protects the next character. -/
def quotedPart? (acc : List Char) : List Char → Option (List Char × List Char)
  | [] => none
  | '"' :: rest => some (acc.reverse, rest)
  | '\\' :: c :: rest => quotedPart? (c :: '\\' :: acc) rest
  | c :: rest => quotedPart? (c :: acc) rest

/-- The text that a string with escapes stands for; only the tab may stand in it of all
controls. -/
def unescape? (fuel : Nat) (acc : List Char) (cs : List Char) : Option String :=
  match fuel, cs with
  | _, [] => some (String.ofList acc.reverse)
  | 0, _ => none
  | fuel + 1, c :: rest =>
    if c = '\\' then
      match Toml.escape? rest with
      | some (one, rest) => unescape? fuel (one :: acc) rest
      | none => none
    else if Toml.isTextChar c then unescape? fuel (c :: acc) rest
    else none

def string? (cs : List Char) : Option (String × List Char) :=
  (quotedPart? [] cs).bind fun (inner, rest) =>
    (unescape? inner.length [] inner).map fun s => (s, rest)

def key? (cs : List Char) : Option (String × List Char) :=
  match cs with
  | '"' :: rest => string? rest
  | cs =>
    let word := cs.takeWhile isKeyChar
    if word.isEmpty then none else some (String.ofList word, cs.dropWhile isKeyChar)

mutual

/-- Reads a value with blanks around it. -/
def value? (fuel : Nat) (cs : List Char) : Option (Value × List Char) :=
  match fuel with
  | 0 => none
  | fuel + 1 =>
    let found := match skipBlanks cs with
      | 't' :: 'r' :: 'u' :: 'e' :: rest => some (Value.bool true, rest)
      | 'f' :: 'a' :: 'l' :: 's' :: 'e' :: rest => some (.bool false, rest)
      | '\x7b' :: '\x7d' :: rest => some (.table [], rest)
      | '\x7b' :: rest => pairs? fuel [] rest
      | '[' :: ']' :: rest => some (.array [], rest)
      | '[' :: rest => items? fuel [] rest
      | '"' :: rest => (string? rest).map fun (s, rest) => (.text s, rest)
      | '\'' :: c :: '\'' :: rest => some (.char c, rest)
      | '\'' :: _ => none
      | cs => some (plain (cs.takeWhile (!isSeparator ·)), cs.dropWhile (!isSeparator ·))
    found.map fun (v, rest) => (v, skipBlanks rest)

/-- Reads the items of an array; a comma may stand behind the last one. -/
def items? (fuel : Nat) (acc : List Value) (cs : List Char) : Option (Value × List Char) :=
  match fuel with
  | 0 => none
  | fuel + 1 =>
    match value? fuel cs with
    | some (v, ',' :: ']' :: rest) => some (.array (v :: acc).reverse, rest)
    | some (v, ',' :: rest) => items? fuel (v :: acc) rest
    | some (v, ']' :: rest) => some (.array (v :: acc).reverse, rest)
    | _ => none

/-- Reads the pairs of a table; a comma may stand behind the last one. -/
def pairs? (fuel : Nat) (acc : List (String × Value)) (cs : List Char) :
    Option (Value × List Char) :=
  match fuel with
  | 0 => none
  | fuel + 1 =>
    match key? (skipBlanks cs) with
    | none => none
    | some (key, rest) =>
      match skipBlanks rest with
      | '=' :: rest =>
        match value? fuel rest with
        | some (v, ',' :: '\x7d' :: rest) => some (Value.ofEntries ((key, v) :: acc).reverse, rest)
        | some (v, ',' :: rest) => pairs? fuel ((key, v) :: acc) rest
        | some (v, '\x7d' :: rest) => some (Value.ofEntries ((key, v) :: acc).reverse, rest)
        | _ => none
      | _ => none

end

/-- The value of a variable; a text that breaks the rules stands for itself. -/
def valueOf (s : String) : Value :=
  match value? (2 * s.length + 2) s.toList with
  | some (v, []) => v
  | _ => .text s

/-! ### Variables -/

/-- What the names of all variables of interest begin with, in any case. -/
def nameStart : List Char := "PHASEPOOL_".toList

/-- The keys that the name of a variable spells: two underscores or a point divide them. -/
def keysOf? (name : String) : Option (List String) :=
  let cs := Text.trim name.toList
  if Text.sameIgnoringCase (cs.take nameStart.length) nameStart then
    let rest := Text.trim (Text.replacePairs '_' '.' (cs.drop nameStart.length))
    let keys := Text.splitOn '.' rest
    if keys.any List.isEmpty then none
    else some (keys.map fun key => String.ofList (key.map Char.toLower))
  else none

/-- A value inside tables, one for each key. -/
def nest (v : Value) : List String → Value
  | [] => v
  | key :: keys => .table [(key, nest v keys)]

/-- The layer of one variable. -/
def ofVariable? (name value : String) : Option Layer :=
  (keysOf? name).map fun keys => .ofValue .environment (nest (valueOf value) keys)

/-- The layer of all variables. Two names may spell one key; the later variable counts. -/
def ofVariables (entries : List (String × String)) : Layer :=
  (entries.filterMap fun e => ofVariable? e.1 e.2).foldl Layer.merge (.table .environment [])

end PhaseExecutors.EnvironmentLayer
