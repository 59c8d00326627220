import PhaseExecutors.Number.Binary64
import PhaseExecutors.Number.Size
import PhaseExecutors.Text.Blank

/-!
Decimal text of binary numbers.

A decimal is a pair of digits and a power of ten. Reading rounds a decimal once, to the nearest
binary number. Writing takes the fewest digits that read back, and of these the nearest ones.
-/

namespace PhaseExecutors.Decimal

open Binary64 (roundUnits unitsPerOne)

/-! ### Reading -/

/-- The code of the number nearest to `m * 10 ^ e`. -/
def code (m : Nat) (e : Int) : Nat :=
  if 0 ≤ e then roundUnits (m * Nat.pow 10 e.toNat * unitsPerOne) 1
  else roundUnits (m * unitsPerOne) (Nat.pow 10 (-e).toNat)

/-- The code of a decimal of `width` digits. The powers of ten beyond the range of the format
are not computed: above it the result is infinite, below it zero. -/
def codeOfDigits (m width : Nat) (e : Int) : Nat :=
  if m = 0 then 0
  else if 400 < e then Binary64.infinityCode
  else if e + width < -400 then 0
  else code m e

theorem code_lt (m : Nat) (e : Int) : code m e < 0x8000000000000000 := by
  unfold code; split <;> exact Binary64.roundUnits_lt _ _

theorem codeOfDigits_lt (m width : Nat) (e : Int) :
    codeOfDigits m width e < 0x8000000000000000 := by
  unfold codeOfDigits
  split
  · decide
  split
  · decide
  split
  · decide
  exact code_lt m e

/-- The number that a row of digits writes. -/
def ofDigits (ds : List Char) : Nat := ds.foldl (fun n c => n * 10 + (c.toNat - '0'.toNat)) 0

/-- Reads one or more digits. -/
def exponentDigits? (ds : List Char) : Option Nat :=
  if !ds.isEmpty && ds.all Char.isDigit then some (ofDigits ds) else none

/-- Reads the exponent that may follow the digits: nothing, or `e` with a signed number. -/
def readExponent? : List Char → Option Int
  | [] => some 0
  | c :: rest =>
    if c = 'e' || c = 'E' then
      match rest with
      | '-' :: ds => (exponentDigits? ds).map fun n => -(n : Int)
      | '+' :: ds => (exponentDigits? ds).map Int.ofNat
      | ds => (exponentDigits? ds).map Int.ofNat
    else none

/-- The digits before and after the point, and what follows them. -/
def splitPoint (cs : List Char) : List Char × List Char × List Char :=
  let whole := cs.takeWhile Char.isDigit
  match cs.dropWhile Char.isDigit with
  | '.' :: rest => (whole, rest.takeWhile Char.isDigit, rest.dropWhile Char.isDigit)
  | rest => (whole, [], rest)

/-- Reads an unsigned decimal: digits with at most one point, and an exponent. -/
def readUnsigned? (negative : Bool) (cs : List Char) : Option Binary64 :=
  let (whole, frac, rest) := splitPoint cs
  if whole.isEmpty && frac.isEmpty then none
  else
    (readExponent? rest).map fun e =>
      let ds := whole ++ frac
      ⟨negative, codeOfDigits (ofDigits ds) ds.length (e - frac.length), codeOfDigits_lt _ _ _⟩

def readMagnitude? (negative : Bool) (cs : List Char) : Option Binary64 :=
  if Text.sameIgnoringCase cs "inf".toList || Text.sameIgnoringCase cs "infinity".toList then
    some (.infinity negative)
  else if Text.sameIgnoringCase cs "nan".toList then some (.nan negative)
  else readUnsigned? negative cs

/-- Reads a number: an optional sign, then a decimal, an infinity or `nan`. -/
def read? : List Char → Option Binary64
  | '-' :: cs => readMagnitude? true cs
  | '+' :: cs => readMagnitude? false cs
  | cs => readMagnitude? false cs

/-! ### Writing -/

def distance (a b : Nat) : Nat := (a - b) + (b - a)

/-- Which of two equally near decimals is written. -/
inductive Tie
  | up
  | even
deriving DecidableEq, Repr

/-- The nearer to `num` of the neighbours `low` and `low + 1`, both in steps of `den`. -/
def nearer (tie : Tie) (num den low : Nat) : Nat :=
  let below := distance num (low * den)
  let above := distance num ((low + 1) * den)
  if below < above then low
  else if above < below then low + 1
  else
    match tie with
    | .up => low + 1
    | .even => if low % 2 = 0 then low else low + 1

/-- The multiple of `10 ^ k` that reads back as the finite `code`, if one of the two neighbours
of its magnitude on that grid does. -/
def onGrid? (tie : Tie) (code : Nat) (k : Int) : Option Nat :=
  let u := Binary64.unitsOfCode code
  let (num, den) :=
    if 0 ≤ k then (u, unitsPerOne * Nat.pow 10 k.toNat)
    else (u * Nat.pow 10 (-k).toNat, unitsPerOne)
  let low := num / den
  let lowFits := decide (Decimal.code low k = code)
  let highFits := decide (Decimal.code (low + 1) k = code)
  match lowFits, highFits with
  | true, true => some (nearer tie num den low)
  | true, false => some low
  | false, true => some (low + 1)
  | false, false => none

/-- A power of ten not below the magnitude of a finite code, and close to it. -/
def startPower (code : Nat) : Int :=
  ((Binary64.unitsOfCode code).log2 - (1074 : Int)) * 3 / 10 + 2

/-- The shortest decimal of a finite code: the first grid, from coarse to fine, on which the
code has a decimal; past the digits that always suffice, the magnitude itself. -/
def shortest (tie : Tie) (code : Nat) : Nat × Int :=
  let start := startPower code
  let found := (List.range 24).findSome? fun (i : Nat) =>
    (onGrid? tie code (start - i)).map fun d => (d, start - (i : Int))
  found.getD (Binary64.unitsOfCode code * Nat.pow 5 1074, -1074)

/-- The digits without a row of zeros at the end, and the power of ten that goes with them. -/
def dropTrailingZeros (ds : List Char) (k : Int) : List Char × Int :=
  let kept := (ds.reverse.dropWhile (· == '0')).reverse
  (kept, k + (ds.length - kept.length : Nat))

/-- Positional notation of `ds * 10 ^ k`, with a point only before a fraction. -/
def positional (ds : List Char) (k : Int) : List Char :=
  if 0 ≤ k then ds ++ List.replicate k.toNat '0'
  else
    let n := (-k).toNat
    let padded := List.replicate (n + 1 - ds.length) '0' ++ ds
    let whole := padded.take (padded.length - n)
    let frac := padded.drop (padded.length - n)
    match (dropTrailingZeros frac 0).1 with
    | [] => whole
    | frac => whole ++ '.' :: frac

/-- The magnitude of a finite code in positional notation, however long. -/
def plainMagnitude (code : Nat) : List Char :=
  if code = 0 then ['0'] else
    let (d, k) := shortest .up code
    positional (Size.digits d) k

/-- The number in positional notation: no exponent, and no fraction for a whole number. -/
def plain (x : Binary64) : List Char :=
  if x.isNaN then "NaN".toList
  else
    (if x.negative then ['-'] else []) ++
      (if x.isFinite then plainMagnitude x.code else "inf".toList)

/-- The power of ten of scientific notation, always with its sign. -/
def signedPower (power : Int) : List Char :=
  (if power < 0 then '-' else '+') :: Size.digits power.natAbs

/-- Scientific notation of digits that do not end in zero. -/
def scientific (ds : List Char) (point : Int) : List Char :=
  let power := signedPower (point - 1)
  match ds with
  | [] => []
  | [d] => d :: 'e' :: power
  | d :: rest => d :: '.' :: rest ++ 'e' :: power

/-- The number as documents write it: always with a fraction or an exponent. Positional notation
is kept from `10 ^ -5` up to below `10 ^ 16`. -/
def documented (x : Binary64) : List Char :=
  if !x.isFinite then plain x
  else
    (if x.negative then ['-'] else []) ++
      if x.code = 0 then "0.0".toList
      else
        let (d, k) := shortest .even x.code
        let (ds, k) := dropTrailingZeros (Size.digits d) k
        let point := (ds.length : Int) + k
        if -5 < point && point ≤ 16 then
          if 0 ≤ k then positional ds k ++ ".0".toList else positional ds k
        else scientific ds point

/-- Positional notation that always shows a fraction for a finite number. -/
def plainWithPoint (x : Binary64) : List Char :=
  let text := plain x
  if x.isFinite && !text.contains '.' then text ++ ".0".toList else text

end PhaseExecutors.Decimal
