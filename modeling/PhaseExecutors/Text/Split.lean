/-!
Splitting text.
-/

namespace PhaseExecutors.Text

/-- The parts of a text between the places where `sep` stands. -/
def splitOn (sep : Char) : List Char → List (List Char)
  | [] => [[]]
  | c :: cs =>
    if c = sep then [] :: splitOn sep cs
    else
      match splitOn sep cs with
      | [] => [[c]]
      | part :: parts => (c :: part) :: parts

def splitText (sep : Char) (s : String) : List String :=
  (splitOn sep s.toList).map String.ofList

/-- Every pair of `old` characters becomes one `new` character, from the left. -/
def replacePairs (old new : Char) : List Char → List Char
  | a :: b :: rest =>
    if a = old ∧ b = old then new :: replacePairs old new rest
    else a :: replacePairs old new (b :: rest)
  | rest => rest

end PhaseExecutors.Text
