/-!
Sizes: numbers of threads, tasks and permits.

A size is a 64-bit word. Arithmetic on sizes never wraps: it is either checked, with `none` for
a result that does not fit, or saturating.
-/

namespace PhaseExecutors

abbrev Size := UInt64

namespace Size

/-- The largest size, `2 ^ 64 - 1`. -/
def top : Size := 0xFFFFFFFFFFFFFFFF

/-- The number of sizes, `2 ^ 64`. -/
abbrev bound : Nat := 0x10000000000000000

/-- The numbers below this one, `2 ^ 63`, have a signed word. -/
abbrev signedBound : Nat := 0x8000000000000000

def ofNat? (n : Nat) : Option Size := if n < bound then some (UInt64.ofNat n) else none

/-- The number as a size, or the largest size if it does not fit. -/
def clamp (n : Nat) : Size := (ofNat? n).getD top

def satSub (a b : Size) : Size := UInt64.ofNat (a.toNat - b.toNat)

def satAdd (a b : Size) : Size := clamp (a.toNat + b.toNat)

def satMul (a b : Size) : Size := clamp (a.toNat * b.toNat)

theorem ofNat?_eq_some {n : Nat} (h : n < bound) : ofNat? n = some (UInt64.ofNat n) :=
  if_pos h

theorem toNat_clamp (n : Nat) : (clamp n).toNat = min n top.toNat := by
  have htop : top.toNat = bound - 1 := rfl
  by_cases h : n < bound
  · rw [clamp, ofNat?_eq_some h, Option.getD_some, UInt64.toNat_ofNat_of_lt' h]
    omega
  · rw [clamp, ofNat?, if_neg h, Option.getD_none]
    omega

theorem toNat_satSub (a b : Size) : (a.satSub b).toNat = a.toNat - b.toNat :=
  UInt64.toNat_ofNat_of_lt' (Nat.lt_of_le_of_lt (Nat.sub_le ..) a.toNat_lt)

/-- Why a text is no size. -/
inductive ReadError
  | empty
  | badDigit
  | tooLarge
deriving DecidableEq, Repr

namespace ReadError

def message : ReadError → String
  | .empty => "cannot parse integer from empty string"
  | .badDigit => "invalid digit found in string"
  | .tooLarge => "number too large to fit in target type"

end ReadError

/-- The value of an ASCII digit. -/
def digit? (c : Char) : Option Nat := if c.isDigit then some (c.toNat - '0'.toNat) else none

/-- Reads digits from the left onto the value so far; the first offence counts. -/
def readDigits (n : Nat) : List Char → Except ReadError Nat
  | [] => .ok n
  | c :: cs =>
    match digit? c with
    | none => .error .badDigit
    | some d => if n * 10 + d < bound then readDigits (n * 10 + d) cs else .error .tooLarge

/-- Reads an optional `+` and decimal digits. -/
def read (cs : List Char) : Except ReadError Size :=
  match cs with
  | [] => .error .empty
  | ['+'] => .error .badDigit
  | '+' :: ds => (readDigits 0 ds).map UInt64.ofNat
  | ds => (readDigits 0 ds).map UInt64.ofNat

def read? (cs : List Char) : Option Size := (read cs).toOption

/-- Reads a `-` and digits as a signed 64-bit number. -/
def readNegative? (cs : List Char) : Option Int64 :=
  match cs with
  | '-' :: d :: ds =>
    match readDigits 0 (d :: ds) with
    | .ok n => if n ≤ signedBound then some (Int64.ofInt (-n)) else none
    | .error _ => none
  | _ => none

/-- The decimal digits of a number. -/
def digits (n : Nat) : List Char := Nat.toDigits 10 n

end Size

end PhaseExecutors
