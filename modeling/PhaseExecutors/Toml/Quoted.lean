import PhaseExecutors.Text.Hex

/-!
Strings of TOML documents: basic and literal ones, on one line or on several.

Each reader starts behind the opening quotes and returns the text and what follows the closing
quotes. Line ends inside a string come out as a single line feed.
-/

namespace PhaseExecutors.Toml

/-- A character that may stand in a comment or a string: no control but the tab. -/
def isTextChar (c : Char) : Bool := c = '\t' || (0x20 ≤ c.toNat && c.toNat ≠ 0x7F)

def isBlank (c : Char) : Bool := c = ' ' || c = '\t'

def skipBlanks (cs : List Char) : List Char := cs.dropWhile isBlank

/-- What follows an end of line. -/
def newline? : List Char → Option (List Char)
  | '\n' :: rest => some rest
  | '\r' :: '\n' :: rest => some rest
  | _ => none

def shortEscape? : Char → Option Char
  | 'b' => some '\x08'
  | 't' => some '\t'
  | 'n' => some '\n'
  | 'f' => some '\x0c'
  | 'r' => some '\r'
  | '"' => some '"'
  | '\\' => some '\\'
  | _ => none

/-- Reads an escape behind its backslash. -/
def escape? : List Char → Option (Char × List Char)
  | 'u' :: a :: b :: c :: d :: rest =>
    (Text.hexNumber? 0 [a, b, c, d] >>= Text.charOfCode?).map fun one => (one, rest)
  | 'U' :: a :: b :: c :: d :: e :: f :: g :: h :: rest =>
    (Text.hexNumber? 0 [a, b, c, d, e, f, g, h] >>= Text.charOfCode?).map fun one => (one, rest)
  | c :: rest => (shortEscape? c).map fun one => (one, rest)
  | [] => none

/-- A text read last character first, and what follows it. -/
def closed (acc rest : List Char) : Option (String × List Char) :=
  some (String.ofList acc.reverse, rest)

def basic? (fuel : Nat) (acc : List Char) (cs : List Char) : Option (String × List Char) :=
  match fuel, cs with
  | fuel + 1, c :: rest =>
    if c = '"' then closed acc rest
    else if c = '\\' then
      match escape? rest with
      | some (one, rest) => basic? fuel (one :: acc) rest
      | none => none
    else if isTextChar c then basic? fuel (c :: acc) rest
    else none
  | _, _ => none

def literal? (acc : List Char) : List Char → Option (String × List Char)
  | [] => none
  | '\'' :: rest => closed acc rest
  | c :: rest => if isTextChar c then literal? (c :: acc) rest else none

/-- The number of quotes at the front that belong to the text, if the string ends there: of a
run of quotes the last three close the string, and at most two stand before them. -/
def closing? (quote : Char) (cs : List Char) : Option Nat :=
  let run := (cs.takeWhile (· = quote)).length
  if run < 3 then none else some (min (run - 3) 2)

/-- What follows a backslash at the end of a line: line ends and blanks are dropped. -/
def continued? (cs : List Char) : Option (List Char) :=
  (newline? (skipBlanks cs)).map fun rest =>
    rest.dropWhile fun c => isBlank c || c = '\n' || c = '\r'

/-- A carriage return only stands before a line feed. -/
def lineEndsOnly (dropped : List Char) : Bool :=
  match dropped with
  | [] => true
  | '\r' :: '\n' :: rest => lineEndsOnly rest
  | '\r' :: _ => false
  | _ :: rest => lineEndsOnly rest

def longBasic? (fuel : Nat) (acc : List Char) (cs : List Char) : Option (String × List Char) :=
  match fuel, cs with
  | fuel + 1, c :: rest =>
    match closing? '"' cs with
    | some extra => closed (List.replicate extra '"' ++ acc) (cs.drop (extra + 3))
    | none =>
      if c = '\\' then
        match continued? rest with
        | some after =>
          if lineEndsOnly (rest.take (rest.length - after.length)) then longBasic? fuel acc after
          else none
        | none =>
          match escape? rest with
          | some (one, rest) => longBasic? fuel (one :: acc) rest
          | none => none
      else
        match newline? cs with
        | some rest => longBasic? fuel ('\n' :: acc) rest
        | none => if isTextChar c then longBasic? fuel (c :: acc) rest else none
  | _, _ => none

def longLiteral? (fuel : Nat) (acc : List Char) (cs : List Char) : Option (String × List Char) :=
  match fuel, cs with
  | fuel + 1, c :: rest =>
    match closing? '\'' cs with
    | some extra => closed (List.replicate extra '\'' ++ acc) (cs.drop (extra + 3))
    | none =>
      match newline? cs with
      | some rest => longLiteral? fuel ('\n' :: acc) rest
      | none => if isTextChar c then longLiteral? fuel (c :: acc) rest else none
  | _, _ => none

/-- A line end right behind the opening quotes is no part of the text. -/
def dropFirstNewline (cs : List Char) : List Char := (newline? cs).getD cs

/-- Reads a string on one line. -/
def shortString? : List Char → Option (String × List Char)
  | '"' :: rest => basic? (rest.length + 1) [] rest
  | '\'' :: rest => literal? [] rest
  | _ => none

/-- Reads any string. -/
def string? : List Char → Option (String × List Char)
  | '"' :: '"' :: '"' :: rest =>
    let rest := dropFirstNewline rest
    longBasic? (rest.length + 1) [] rest
  | '\'' :: '\'' :: '\'' :: rest =>
    let rest := dropFirstNewline rest
    longLiteral? (rest.length + 1) [] rest
  | cs => shortString? cs

end PhaseExecutors.Toml
