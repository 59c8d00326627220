import PhaseExecutors.Toml.Date
import PhaseExecutors.Text.Hex

/-!
Numbers of TOML documents.

Each reader takes the longest form it knows from the front of the text. Whole numbers have to fit
in 64 bits with a sign.
-/

namespace PhaseExecutors.Toml

/-- Takes digits from the front; an underscore may stand between two of them. -/
def digitRun (isDigit : Char → Bool) : List Char → List Char × List Char
  | c :: '_' :: d :: rest =>
    if isDigit c && isDigit d then
      let (ds, rest) := digitRun isDigit (d :: rest)
      (c :: ds, rest)
    else if isDigit c then ([c], '_' :: d :: rest)
    else ([], c :: '_' :: d :: rest)
  | c :: rest =>
    if isDigit c then
      let (ds, rest) := digitRun isDigit rest
      (c :: ds, rest)
    else ([], c :: rest)
  | [] => ([], [])

/-- Takes a sign from the front: whether it is a minus, and its characters. -/
def sign : List Char → Bool × List Char
  | '+' :: rest => (false, rest)
  | '-' :: rest => (true, rest)
  | rest => (false, rest)

/-- Takes decimal digits that do not begin with a needless zero. -/
def wholeDigits? : List Char → Option (List Char × List Char)
  | '0' :: rest => some (['0'], rest)
  | cs =>
    match digitRun Char.isDigit cs with
    | ([], _) => none
    | run => some run

/-- A number of 64 bits with a sign. -/
def signed? (n : Int) : Option Value :=
  if -Size.signedBound ≤ n ∧ n < Size.signedBound then some (.signed (Int64.ofInt n)) else none

/-- The number that digits of a base write. -/
def ofBase (base : Nat) (ds : List Char) : Nat :=
  ds.foldl (fun n c => n * base + (Text.hexDigit? c).getD 0) 0

def inBase? (base : Nat) (cs : List Char) : Option (Value × List Char) :=
  match digitRun (fun c => ((Text.hexDigit? c).map fun d => decide (d < base)).getD false) cs with
  | ([], _) => none
  | (ds, rest) => (signed? (ofBase base ds)).map fun v => (v, rest)

def integer? : List Char → Option (Value × List Char)
  | '0' :: 'x' :: rest => inBase? 16 rest
  | '0' :: 'o' :: rest => inBase? 8 rest
  | '0' :: 'b' :: rest => inBase? 2 rest
  | cs =>
    let (negative, cs) := sign cs
    (wholeDigits? cs).bind fun (ds, rest) =>
      let n : Int := Decimal.ofDigits ds
      (signed? (if negative then -n else n)).map fun v => (v, rest)

/-- Takes an exponent: its characters without underscores. -/
def exponent? : List Char → Option (List Char × List Char)
  | c :: rest =>
    if c = 'e' || c = 'E' then
      let (negative, rest) := sign rest
      match digitRun Char.isDigit rest with
      | ([], _) => none
      | (ds, rest) => some ('e' :: (if negative then '-' :: ds else ds), rest)
    else none
  | [] => none

/-- Takes a point and digits. -/
def fraction? : List Char → Option (List Char × List Char)
  | '.' :: rest =>
    match digitRun Char.isDigit rest with
    | ([], _) => none
    | (ds, rest) => some ('.' :: ds, rest)
  | _ => none

/-- What stands behind the whole digits of a floating point number. -/
def floatTail? (cs : List Char) : Option (List Char × List Char) :=
  match exponent? cs with
  | some tail => some tail
  | none =>
    (fraction? cs).map fun (frac, rest) =>
      match exponent? rest with
      | some (power, rest) => (frac ++ power, rest)
      | none => (frac, rest)

/-- A number too large for the format is refused if it is positive. -/
def float? (cs : List Char) : Option (Value × List Char) :=
  let (negative, cs) := sign cs
  match cs with
  | 'i' :: 'n' :: 'f' :: rest => some (.float (.infinity negative), rest)
  | 'n' :: 'a' :: 'n' :: rest => some (.float (.nan negative), rest)
  | cs =>
    (wholeDigits? cs).bind fun (whole, rest) =>
      (floatTail? rest).bind fun (tail, rest) =>
        (Decimal.readUnsigned? negative (whole ++ tail)).bind fun x =>
          if x = .infinity false then none else some (.float x, rest)

/-- Reads a date or a number, whichever form is longest. -/
def number? (cs : List Char) : Option (Value × List Char) :=
  match dateTime? cs with
  | some found => some found
  | none =>
    match float? cs with
    | some found => some found
    | none => integer? cs

end PhaseExecutors.Toml
