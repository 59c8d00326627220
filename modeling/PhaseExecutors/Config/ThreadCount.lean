import PhaseExecutors.Number.Decimal

/-!
Thread counts as a configuration writes them.

A count is a fixed number, or it follows the CPUs of the host: all of them, a multiple of them,
or all but a few. A count that follows the host never resolves below one.
-/

namespace PhaseExecutors

inductive ThreadCount
  | fixed (n : Size)
  | hostCpus (factor : Binary64) (minus : Size)
deriving DecidableEq, Repr

namespace ThreadCount

/-- All CPUs of the host. -/
def auto : ThreadCount := .hostCpus .one 0

instance : Inhabited ThreadCount := ⟨auto⟩

/-- Why a text is no thread count. -/
inductive ReadError
  | invalid (text : String)
  | invalidFactor (text : String)
deriving DecidableEq, Repr

namespace ReadError

def message : ReadError → String
  | .invalid text =>
    s!"invalid thread count '{text}': expected an integer, 'auto' or HOST_CPUS[*factor|-n]"
  | .invalidFactor text =>
    s!"invalid HOST_CPUS factor '{text}': must be a finite number greater than 0"

end ReadError

/-! ### Resolving -/

/-- The CPUs times the factor, rounded down; `none` unless the product is a size. -/
def scale? (host : Size) (factor : Binary64) : Option Size :=
  ((Binary64.ofNat host.toNat).mul factor).floorNat? >>= Size.ofNat?

/-- The number of threads on a host with that many CPUs. A product that is no size counts as the
largest size. -/
def resolve (host : Size) : ThreadCount → Size
  | .fixed n => n
  | .hostCpus factor minus => max (((scale? host factor).getD Size.top).satSub minus) 1

/-- The count is written as zero. Only a fixed count can resolve to zero. -/
def isZero : ThreadCount → Bool
  | .fixed n => n == 0
  | .hostCpus .. => false

/-- The count resolves to all CPUs, whatever the host. -/
def isAuto : ThreadCount → Bool
  | .fixed _ => false
  | .hostCpus factor minus => factor.sameNumber .one && minus == 0

/-! ### Reading and writing -/

def hostWord : List Char := "HOST_CPUS".toList

def autoWord : List Char := "auto".toList

/-- Reads what follows `HOST_CPUS`; `whole` is the text that an error names. -/
def readRelative (whole : String) (rest : List Char) : Except ReadError ThreadCount :=
  match rest with
  | [] => .ok auto
  | '*' :: rest =>
    let text := Text.trim rest
    match Decimal.read? text with
    | some factor =>
      if factor.isPositive then .ok (.hostCpus factor 0)
      else .error (.invalidFactor (String.ofList text))
    | none => .error (.invalidFactor (String.ofList text))
  | '-' :: rest =>
    match Size.read? (Text.trim rest) with
    | some minus => .ok (.hostCpus .one minus)
    | none => .error (.invalid whole)
  | _ => .error (.invalid whole)

/-- Reads a thread count. Blanks may stand at both ends and around each part. -/
def read (text : String) : Except ReadError ThreadCount :=
  let cs := Text.trim text.toList
  match Size.read? cs with
  | some n => .ok (.fixed n)
  | none =>
    if Text.sameIgnoringCase cs autoWord then .ok auto
    else
      match Text.dropWord? hostWord cs with
      | some rest => readRelative text (Text.trim rest)
      | none => .error (.invalid text)

/-- The characters of a count: a factor of one and an offset of zero are left out. -/
def render : ThreadCount → List Char
  | .fixed n => Size.digits n.toNat
  | .hostCpus factor minus =>
    hostWord ++
      (if factor.sameNumber .one then [] else '*' :: Decimal.plain factor) ++
      (if minus = 0 then [] else '-' :: Size.digits minus.toNat)

def toText (count : ThreadCount) : String := String.ofList count.render

/-- Reading back what is written gives the same count. -/
def readsBack (count : ThreadCount) : Bool := read count.toText |>.toOption |> (· == some count)

end ThreadCount

end PhaseExecutors
