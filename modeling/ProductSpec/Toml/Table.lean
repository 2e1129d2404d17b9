/-
  Tables of TOML documents while they are put together. A table comes from a heading of its own,
  from the heading of a table inside it, or from a key with points; which of these says what may
  still be added to it.
-/
import ProductSpec.Json.Basic

namespace ProductSpec.Toml

inductive TableKind
  /-- It has a heading of its own. -/
  | headed
  /-- It is only around tables with headings. -/
  | around
  /-- It comes from keys with points. -/
  | dotted
deriving DecidableEq, Repr

/-- What a name in a table stands for. -/
inductive Part
  | value (v : Json)
  | table (kind : TableKind) (entries : List (String × Part))
  /-- A list of tables with a heading for each; only the last one may still grow. -/
  | tables (earlier : List Json) (last : List (String × Part))

abbrev Entries := List (String × Part)

namespace Part

mutual

def toJson : Part → Json
  | .value v => v
  | .table _ entries => .object (membersOf entries)
  | .tables earlier last => .array (earlier ++ [.object (membersOf last)])

def membersOf : List (String × Part) → List (String × Json)
  | [] => []
  | (name, part) :: rest => (name, toJson part) :: membersOf rest

end

end Part

namespace Entries

def toJson (entries : Entries) : Json := .object (Part.membersOf entries)

/-- Changes what a name stands for. -/
def alter (name : String) (f : Option Part → Option Part) : Entries → Option Entries
  | [] => do return [(name, ← f none)]
  | (other, part) :: rest =>
    if other = name then do return (name, ← f (some part)) :: rest
    else do return (other, part) :: (← alter name f rest)

/-- Changes the table that a heading's names lead to; tables on the way are there or are made. -/
def under : (names : List String) → (Entries → Option Entries) → Entries → Option Entries
  | [], f, entries => f entries
  | name :: rest, f, entries => entries.alter name fun
    | none => (under rest f []).map (.table .around)
    | some (.table kind inner) => (under rest f inner).map (.table kind)
    | some (.tables earlier last) => (under rest f last).map (.tables earlier)
    | some (.value _) => none

/-- Gives a table a heading. It may have none yet. -/
def openTable (name : String) (entries : Entries) : Option Entries := entries.alter name fun
  | none => some (.table .headed [])
  | some (.table .around inner) => some (.table .headed inner)
  | _ => none

/-- Begins the next table of a list. -/
def openItem (name : String) (entries : Entries) : Option Entries := entries.alter name fun
  | none => some (.tables [] [])
  | some (.tables earlier last) => some (.tables (earlier ++ [toJson last]) [])
  | _ => none

/-- Adds a value under a key. The table that a key with points adds to must come from such keys. -/
def insert : (key : List String) → Json → Entries → Option Entries
  | [], _, _ => none
  | [name], v, entries => entries.alter name fun
    | none => some (.value v)
    | some _ => none
  | name :: rest, v, entries => entries.alter name fun
    | none => (insert rest v []).map (.table .dotted)
    | some (.table .dotted inner) => (insert rest v inner).map (.table .dotted)
    | some (.table .around inner) =>
      if rest.length = 1 then none else (insert rest v inner).map (.table .around)
    | some (.tables earlier last) =>
      if rest.length = 1 then none else (insert rest v last).map (.tables earlier)
    | some _ => none

end Entries

end ProductSpec.Toml
