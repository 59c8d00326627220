import PhaseExecutors.Number.Decimal

/-!
Values of documents.

One type serves every format: a format that lacks a kind of value never produces it. Unsigned
and signed numbers are kept apart because messages tell them apart. The entries of a table stand
in the order of the format: sorted by key, or as written.
-/

namespace PhaseExecutors

inductive Value
  | null
  | bool (b : Bool)
  | unsigned (n : UInt64)
  | signed (n : Int64)
  | float (x : Binary64)
  | char (c : Char)
  | text (s : String)
  | array (items : List Value)
  | table (entries : List (String × Value))
deriving Inhabited

namespace Value

/-- What stands under a key, of entries that hold each key once. -/
def lookup? {α : Type} (key : String) : List (String × α) → Option α
  | [] => none
  | (k, v) :: rest => if k = key then some v else lookup? key rest

/-- The value that a table holds for a key. -/
def get? (v : Value) (key : String) : Option Value :=
  match v with
  | .table entries => lookup? key entries
  | _ => none

/-- Puts an entry at its place among entries sorted by key, instead of an older one. -/
def insertSorted {α : Type} (key : String) (v : α) : List (String × α) → List (String × α)
  | [] => [(key, v)]
  | (k, w) :: rest =>
    if key = k then (key, v) :: rest
    else if key < k then (key, v) :: (k, w) :: rest
    else (k, w) :: insertSorted key v rest

/-- Entries in the order of their keys; of one key the last entry counts. -/
def sortEntries {α : Type} (entries : List (String × α)) : List (String × α) :=
  entries.foldl (fun sorted e => insertSorted e.1 e.2 sorted) []

/-- A table sorted by key. -/
def ofEntries (entries : List (String × Value)) : Value := .table (sortEntries entries)

section Lookup

variable {α : Type}

@[simp] theorem lookup?_nil (key : String) : lookup? key ([] : List (String × α)) = none := rfl

theorem lookup?_cons (key k : String) (v : α) (rest : List (String × α)) :
    lookup? key ((k, v) :: rest) = if k = key then some v else lookup? key rest := rfl

theorem lookup?_insertSorted (key other : String) (v : α) (entries : List (String × α)) :
    lookup? other (insertSorted key v entries) =
      if key = other then some v else lookup? other entries := by
  induction entries with
  | nil => simp [insertSorted, lookup?]
  | cons e rest ih =>
    obtain ⟨k, w⟩ := e
    unfold insertSorted
    split
    · next h => subst h; simp only [lookup?]; split <;> rfl
    split
    · simp only [lookup?]
    · next hk _ =>
      simp only [lookup?, ih]
      split
      · next h => subst h; rw [if_neg hk]
      · rfl

end Lookup

end Value

end PhaseExecutors
