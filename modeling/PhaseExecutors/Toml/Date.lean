import PhaseExecutors.Value.Basic

/-!
Dates and times of TOML documents.

A date becomes a table with one reserved key, whose value is the text of the date. A document may
also write such a table out; then the text has to be that of a date.
-/

namespace PhaseExecutors.Toml

/-! ### Parts of a date -/

/-- Takes so many digits as a number. -/
def fixedDigits? (width : Nat) (cs : List Char) : Option (Nat × List Char) :=
  let ds := cs.take width
  if ds.length = width ∧ ds.all Char.isDigit then some (Decimal.ofDigits ds, cs.drop width)
  else none

/-- Takes a character. -/
def expect? (c : Char) : List Char → Option (List Char)
  | d :: rest => if c = d then some rest else none
  | [] => none

def isLeapYear (year : Nat) : Bool := (year % 4 = 0 && year % 100 ≠ 0) || year % 400 = 0

def daysOfMonth (year month : Nat) : Nat :=
  if month = 2 then (if isLeapYear year then 29 else 28)
  else if month ∈ [4, 6, 9, 11] then 30
  else 31

/-- What follows a date. -/
def date? (cs : List Char) : Option (List Char) := do
  let (year, cs) ← fixedDigits? 4 cs
  let cs ← expect? '-' cs
  let (month, cs) ← fixedDigits? 2 cs
  let cs ← expect? '-' cs
  let (day, cs) ← fixedDigits? 2 cs
  if 1 ≤ month ∧ month ≤ 12 ∧ 1 ≤ day ∧ day ≤ daysOfMonth year month then some cs else none

/-- What follows a fraction of a second, if there is one. -/
def dropSecondFraction (cs : List Char) : List Char :=
  match cs with
  | '.' :: c :: rest => if c.isDigit then rest.dropWhile Char.isDigit else cs
  | cs => cs

/-- What follows a time of day; a minute may have a leap second. -/
def time? (cs : List Char) : Option (List Char) := do
  let (hour, cs) ← fixedDigits? 2 cs
  let cs ← expect? ':' cs
  let (minute, cs) ← fixedDigits? 2 cs
  let cs ← expect? ':' cs
  let (second, cs) ← fixedDigits? 2 cs
  if hour ≤ 23 ∧ minute ≤ 59 ∧ second ≤ 60 then some (dropSecondFraction cs) else none

/-- What follows an offset from universal time. -/
def offset? (cs : List Char) : Option (List Char) :=
  match cs with
  | [] => none
  | c :: rest =>
    if c = 'Z' || c = 'z' then some rest
    else if c = '+' || c = '-' then do
      let (hour, rest) ← fixedDigits? 2 rest
      let rest ← expect? ':' rest
      let (minute, rest) ← fixedDigits? 2 rest
      if hour ≤ 23 ∧ minute ≤ 59 then some rest else none
    else none

/-- What follows a time and an offset behind a date, either of which may be missing. -/
def afterDate (cs : List Char) : List Char :=
  match cs with
  | c :: rest =>
    if c = 'T' || c = 't' || c = ' ' then
      match time? rest with
      | some rest => (offset? rest).getD rest
      | none => cs
    else cs
  | [] => []

/-- What follows a date with or without a time, or a time of day. -/
def dateOrTime? (cs : List Char) : Option (List Char) :=
  match date? cs with
  | some rest => some (afterDate rest)
  | none => time? cs

/-- The whole text is a date or a time. -/
def isDateText (cs : List Char) : Bool := dateOrTime? cs = some []

/-! ### Dates in a document -/

/-- The key of the only entry of a table that stands for a date. -/
def dateKey : String := "$__toml_private_datetime"

/-- Takes a date or a time as a table. -/
def dateTime? (cs : List Char) : Option (Value × List Char) :=
  (dateOrTime? cs).map fun rest =>
    (.table [(dateKey, .text (String.ofList (cs.take (cs.length - rest.length))))], rest)

mutual

/-- Every table that begins with the reserved key holds the text of a date there. What else such a
table holds does not count. -/
def holdsDates : Value → Bool
  | .table [] => true
  | .table ((key, v) :: rest) =>
    if key = dateKey then
      match v with
      | .text s => isDateText s.toList
      | _ => false
    else holdsDates v && entriesHoldDates rest
  | .array items => itemsHoldDates items
  | _ => true

def entriesHoldDates : List (String × Value) → Bool
  | [] => true
  | (_, v) :: rest => holdsDates v && entriesHoldDates rest

def itemsHoldDates : List Value → Bool
  | [] => true
  | v :: rest => holdsDates v && itemsHoldDates rest

end

/-- The tables inside a document that stand for dates hold dates; the document itself is no date. -/
def documentHoldsDates : Value → Bool
  | .table entries => entriesHoldDates entries
  | v => holdsDates v

end PhaseExecutors.Toml
