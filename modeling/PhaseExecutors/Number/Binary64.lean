/-!
Binary floating point numbers of 64 bits.

A number is a sign and a magnitude code: the word without its sign bit. Codes below
`infinityCode` are finite, and their order is the order of the magnitudes; a code above it is no
number. The magnitude of a finite code is a multiple of `2 ^ -1074`, counted by `units`, so all
arithmetic is exact arithmetic on natural numbers followed by one rounding.
-/

namespace PhaseExecutors

structure Binary64 where
  negative : Bool
  code : Nat
  code_lt : code < 0x8000000000000000 := by decide
deriving DecidableEq, Repr

namespace Binary64

/-- The code of the infinities. -/
def infinityCode : Nat := 0x7FF0000000000000

/-- The word of 64 bits, sign first. -/
def bits (x : Binary64) : Nat := (if x.negative then 0x8000000000000000 else 0) + x.code

/-- The number `1`. -/
def one : Binary64 := ⟨false, 0x3FF0000000000000, by decide⟩

def infinity (negative : Bool) : Binary64 := ⟨negative, infinityCode, by decide⟩

def nan (negative : Bool) : Binary64 := ⟨negative, 0x7FF8000000000000, by decide⟩

def zero (negative : Bool) : Binary64 := ⟨negative, 0, by decide⟩

instance : Inhabited Binary64 := ⟨zero false⟩

def isNaN (x : Binary64) : Bool := infinityCode < x.code

def isFinite (x : Binary64) : Bool := x.code < infinityCode

def isZero (x : Binary64) : Bool := x.code == 0

/-- A finite number above zero. -/
def isPositive (x : Binary64) : Bool := x.isFinite && !x.isZero && !x.negative

/-- Equality of numbers: nothing equals what is no number, and the two zeros are equal. -/
def sameNumber (x y : Binary64) : Bool :=
  !x.isNaN && !y.isNaN && ((x.isZero && y.isZero) || (x.negative == y.negative && x.code == y.code))

/-- The leading bit of a significand, `2 ^ 52`, which a code leaves out. -/
def hiddenBit : Nat := 0x10000000000000

/-- How many units of `2 ^ -1074` make one. -/
def unitsPerOne : Nat := Nat.pow 2 1074

/-- The magnitude of a finite code in units of `2 ^ -1074`. -/
def unitsOfCode (code : Nat) : Nat :=
  let e := code / hiddenBit
  let f := code % hiddenBit
  if e = 0 then f else (hiddenBit + f) * Nat.pow 2 (e - 1)

def units (x : Binary64) : Nat := unitsOfCode x.code

/-- The quotient, rounded to the nearest whole number; a half goes to the even neighbour. -/
def roundHalfEven (num den : Nat) : Nat :=
  let q := num / den
  let r := num % den
  if 2 * r < den then q
  else if den < 2 * r then q + 1
  else if q % 2 = 0 then q else q + 1

/-- The code nearest to `num / den` units. Of a magnitude with `53 + t` bits the last `t` are
rounded away; a carry out of the significand moves to the next exponent by itself. -/
def roundUnits (num den : Nat) : Nat :=
  let v := num / den
  let t := if v = 0 then 0 else v.log2 + 1 - 53
  min (t * hiddenBit + roundHalfEven num (den * Nat.pow 2 t)) infinityCode

theorem roundUnits_lt (num den : Nat) : roundUnits num den < 0x8000000000000000 :=
  Nat.lt_of_le_of_lt (Nat.min_le_right _ _) (by decide)

/-- The number nearest to `num / den` units, with the given sign. -/
def ofUnits (negative : Bool) (num den : Nat) : Binary64 :=
  ⟨negative, roundUnits num den, roundUnits_lt num den⟩

def ofNat (n : Nat) : Binary64 := ofUnits false (n * unitsPerOne) 1

def mul (x y : Binary64) : Binary64 :=
  let negative := x.negative != y.negative
  if x.isNaN || y.isNaN then nan false
  else if x.isFinite && y.isFinite then ofUnits negative (x.units * y.units) unitsPerOne
  else if x.isZero || y.isZero then nan false
  else infinity negative

def div (x y : Binary64) : Binary64 :=
  let negative := x.negative != y.negative
  if x.isNaN || y.isNaN || (x.isZero && y.isZero) || !(x.isFinite || y.isFinite) then nan false
  else if y.isZero || !x.isFinite then infinity negative
  else if !y.isFinite then zero negative
  else ofUnits negative (x.units * unitsPerOne) y.units

/-- The integral part of a number that is neither negative nor infinite; the negative zero
counts as zero. -/
def floorNat? (x : Binary64) : Option Nat :=
  if !x.isFinite || (x.negative && !x.isZero) then none else some (x.units / unitsPerOne)

/-- The word as sixteen hexadecimal digits. -/
def hex (x : Binary64) : String :=
  let ds := Nat.toDigits 16 x.bits
  String.ofList (List.replicate (16 - ds.length) '0' ++ ds)

end Binary64

end PhaseExecutors
