/- Tables whose keys stand in the order of their first insertion. -/
namespace Prepass

abbrev Table (κ α : Type) := List (κ × α)

namespace Table

variable {κ α : Type} [DecidableEq κ]

def find? (table : Table κ α) (key : κ) : Option α := (List.find? (·.1 = key) table).map Prod.snd

def contains (table : Table κ α) (key : κ) : Bool := List.any table (·.1 = key)

/-- A key that is present keeps its place. -/
def insert : Table κ α → κ → α → Table κ α
  | [], key, a => [(key, a)]
  | entry :: rest, key, a =>
    if entry.1 = key then (key, a) :: rest else entry :: insert rest key a

def erase (table : Table κ α) (key : κ) : Table κ α := List.filter (·.1 ≠ key) table

/-- Inserts pair after pair. -/
def ofPairs (pairs : List (κ × α)) : Table κ α :=
  pairs.foldl (fun table pair => table.insert pair.1 pair.2) []

end Table

end Prepass
