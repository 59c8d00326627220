import PhaseExecutors.Text.Hex
import PhaseExecutors.Value.Basic

/-!
JSON documents.

Reading keeps a whole number that fits in 64 bits and makes any other number binary floating
point. The leading digits that fit in 64 bits are scaled by a power of ten in binary arithmetic, so
the result may miss the nearest number by a little. Tables come out sorted by key. Writing is either
compact or indented by two spaces.
-/

namespace PhaseExecutors.Json

/-! ### Reading -/

def isSpace (c : Char) : Bool := c = ' ' || c = '\t' || c = '\n' || c = '\r'

def skipSpace (cs : List Char) : List Char := cs.dropWhile isSpace

/-- The number that four hexadecimal digits write. -/
def hex4? (a b c d : Char) : Option Nat := Text.hexNumber? 0 [a, b, c, d]

def shortEscape? : Char → Option Char
  | '"' => some '"'
  | '\\' => some '\\'
  | '/' => some '/'
  | 'b' => some '\x08'
  | 'f' => some '\x0c'
  | 'n' => some '\n'
  | 'r' => some '\r'
  | 't' => some '\t'
  | _ => none

/-- Reads a string after its opening quote; `acc` holds what was read, last character first. A
character beyond sixteen bits may be written as a pair of escapes. -/
def readString (acc : List Char) : List Char → Option (String × List Char)
  | [] => none
  | '"' :: rest => some (String.ofList acc.reverse, rest)
  | '\\' :: 'u' :: a :: b :: c :: d :: '\\' :: 'u' :: e :: f :: g :: h :: rest => do
    let first ← hex4? a b c d
    let second ← hex4? e f g h
    if 0xD800 ≤ first ∧ first < 0xDC00 then
      if 0xDC00 ≤ second ∧ second < 0xE000 then
        let joined ← Text.charOfCode? (0x10000 + (first - 0xD800) * 0x400 + (second - 0xDC00))
        readString (joined :: acc) rest
      else none
    else
      let one ← Text.charOfCode? first
      readString (one :: acc) ('\\' :: 'u' :: e :: f :: g :: h :: rest)
  | '\\' :: 'u' :: a :: b :: c :: d :: rest => do
    let one ← (hex4? a b c d) >>= Text.charOfCode?
    readString (one :: acc) rest
  | '\\' :: c :: rest => do
    let one ← shortEscape? c
    readString (one :: acc) rest
  | c :: rest => if c.toNat < 0x20 then none else readString (c :: acc) rest
termination_by cs => cs.length

/-- The binary number nearest to a power of ten. -/
def powerOfTen (n : Nat) : Binary64 := ⟨false, Decimal.code 1 n, Decimal.code_lt 1 n⟩

/-- The largest power of ten that has a finite binary number. -/
def largestPower : Nat := 308

/-- A significand times a power of ten, rounded at every step; `none` if it is too large. -/
def scaled? (m : Nat) (e : Int) : Option Binary64 :=
  let x := Binary64.ofNat m
  if m = 0 then some x
  else if 0 ≤ e then
    let y := x.mul (powerOfTen e.toNat)
    if e.toNat ≤ largestPower && y.isFinite then some y else none
  else
    let n := (-e).toNat
    if n ≤ largestPower then some (x.div (powerOfTen n))
    else if n ≤ 2 * largestPower then
      some ((x.div (powerOfTen largestPower)).div (powerOfTen (n - largestPower)))
    else some (.zero false)

/-- Appends digits to a number as long as it fits in 64 bits; the digits left over are returned. -/
def appendDigits (m : Nat) : List Char → Nat × List Char
  | [] => (m, [])
  | c :: ds =>
    let longer := m * 10 + (c.toNat - '0'.toNat)
    if longer < Size.bound then appendDigits longer ds else (m, c :: ds)

/-- The number that digits before and behind a point and an exponent write. -/
def float? (negative : Bool) (whole frac : List Char) (e : Int) : Option Value :=
  let (m, dropped) := appendDigits 0 whole
  let (m, ignored) := appendDigits m frac
  let e := e + dropped.length - (frac.length - ignored.length : Nat)
  (scaled? m e).map fun x => .float { x with negative }

/-- The value of a number without fraction and exponent. -/
def wholeNumber (negative : Bool) (ds : List Char) : Option Value :=
  let n := Decimal.ofDigits ds
  if !negative && n < Size.bound then some (.unsigned (UInt64.ofNat n))
  else if negative && 0 < n && n ≤ Size.signedBound then some (.signed (Int64.ofInt (-n)))
  else float? negative ds [] 0

/-- The value of the characters of a number. -/
def number? (cs : List Char) : Option Value :=
  let (negative, cs) := match cs with
    | '-' :: rest => (true, rest)
    | _ => (false, cs)
  let (whole, frac, rest) := Decimal.splitPoint cs
  if whole.isEmpty || (whole.head? == some '0' && 1 < whole.length) then none
  else if frac.isEmpty && cs.contains '.' then none
  else if frac.isEmpty && rest.isEmpty then wholeNumber negative whole
  else (Decimal.readExponent? rest).bind (float? negative whole frac)

def isNumberChar (c : Char) : Bool :=
  c.isDigit || c = '-' || c = '+' || c = '.' || c = 'e' || c = 'E'

mutual

/-- Reads one value; `fuel` bounds the depth of the calls. -/
def readValue (fuel : Nat) (cs : List Char) : Option (Value × List Char) :=
  match fuel with
  | 0 => none
  | fuel + 1 =>
    match skipSpace cs with
    | 'n' :: 'u' :: 'l' :: 'l' :: rest => some (.null, rest)
    | 't' :: 'r' :: 'u' :: 'e' :: rest => some (.bool true, rest)
    | 'f' :: 'a' :: 'l' :: 's' :: 'e' :: rest => some (.bool false, rest)
    | '"' :: rest => (readString [] rest).map fun (s, rest) => (.text s, rest)
    | '[' :: rest =>
      match skipSpace rest with
      | ']' :: rest => some (.array [], rest)
      | rest => readItems fuel [] rest
    | '\x7b' :: rest =>
      match skipSpace rest with
      | '\x7d' :: rest => some (.table [], rest)
      | rest => readMembers fuel [] rest
    | cs => (number? (cs.takeWhile isNumberChar)).map fun v => (v, cs.dropWhile isNumberChar)

def readItems (fuel : Nat) (acc : List Value) (cs : List Char) : Option (Value × List Char) :=
  match fuel with
  | 0 => none
  | fuel + 1 =>
    match readValue fuel cs with
    | none => none
    | some (v, rest) =>
      match skipSpace rest with
      | ',' :: rest => readItems fuel (v :: acc) rest
      | ']' :: rest => some (.array (v :: acc).reverse, rest)
      | _ => none

def readMembers (fuel : Nat) (acc : List (String × Value)) (cs : List Char) :
    Option (Value × List Char) :=
  match fuel with
  | 0 => none
  | fuel + 1 =>
    match skipSpace cs with
    | '"' :: rest =>
      match readString [] rest with
      | none => none
      | some (key, rest) =>
        match skipSpace rest with
        | ':' :: rest =>
          match readValue fuel rest with
          | none => none
          | some (v, rest) =>
            match skipSpace rest with
            | ',' :: rest => readMembers fuel ((key, v) :: acc) rest
            | '\x7d' :: rest => some (Value.ofEntries ((key, v) :: acc).reverse, rest)
            | _ => none
        | _ => none
    | _ => none

end

/-- Reads a document that holds one value. -/
def read? (s : String) : Option Value :=
  match readValue (2 * s.length + 2) s.toList with
  | some (v, rest) => if (skipSpace rest).isEmpty then some v else none
  | none => none

/-! ### Writing -/

def hex2 (n : Nat) : List Char := [Nat.digitChar (n / 16), Nat.digitChar (n % 16)]

/-- A character inside a string. -/
def escape (c : Char) : List Char :=
  if c = '"' then ['\\', '"']
  else if c = '\\' then ['\\', '\\']
  else if c = '\x08' then ['\\', 'b']
  else if c = '\x0c' then ['\\', 'f']
  else if c = '\n' then ['\\', 'n']
  else if c = '\r' then ['\\', 'r']
  else if c = '\t' then ['\\', 't']
  else if c.toNat < 0x20 then '\\' :: 'u' :: '0' :: '0' :: hex2 c.toNat
  else [c]

def quote (s : String) : String :=
  String.ofList ('"' :: s.toList.flatMap escape ++ ['"'])

/-- A value without parts; `none` for an array or a table. -/
def scalar? : Value → Option String
  | .null => some "null"
  | .bool b => some (if b then "true" else "false")
  | .unsigned n => some (toString n.toNat)
  | .signed n => some (toString n.toInt)
  | .float x => some (if x.isFinite then String.ofList (Decimal.documented x) else "null")
  | .char c => some (quote (String.singleton c))
  | .text s => some (quote s)
  | .array _ | .table _ => none

mutual

/-- The document on one line. -/
def compact : Value → String
  | .array items => "[" ++ String.intercalate "," (compactItems items) ++ "]"
  | .table entries => "\x7b" ++ String.intercalate "," (compactEntries entries) ++ "\x7d"
  | v => (scalar? v).getD ""

def compactItems : List Value → List String
  | [] => []
  | v :: rest => compact v :: compactItems rest

def compactEntries : List (String × Value) → List String
  | [] => []
  | (k, v) :: rest => (quote k ++ ":" ++ compact v) :: compactEntries rest

end

def indent (depth : Nat) : String := String.ofList (List.replicate (2 * depth) ' ')

/-- Parts between brackets, each on a line of its own. -/
def bracketed (opening closing : String) (depth : Nat) (parts : List String) : String :=
  if parts.isEmpty then opening ++ closing
  else
    opening ++ "\n" ++ String.intercalate ",\n" (parts.map (indent (depth + 1) ++ ·)) ++
      "\n" ++ indent depth ++ closing

mutual

/-- The document with one part per line, at the given depth. -/
def pretty (depth : Nat) : Value → String
  | .array items => bracketed "[" "]" depth (prettyItems (depth + 1) items)
  | .table entries => bracketed "\x7b" "\x7d" depth (prettyEntries (depth + 1) entries)
  | v => (scalar? v).getD ""

def prettyItems (depth : Nat) : List Value → List String
  | [] => []
  | v :: rest => pretty depth v :: prettyItems depth rest

def prettyEntries (depth : Nat) : List (String × Value) → List String
  | [] => []
  | (k, v) :: rest => (quote k ++ ": " ++ pretty depth v) :: prettyEntries depth rest

end

end PhaseExecutors.Json
