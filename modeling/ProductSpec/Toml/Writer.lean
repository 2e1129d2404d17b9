/-
  Writing a document as TOML: first the plain members of a table, then a heading for each table
  in it.
-/
import ProductSpec.Json.Writer
import ProductSpec.Text.Digit
import ProductSpec.Toml.Quoted

namespace ProductSpec.Toml

/-- The length of the longest run of a mark in a text. -/
def longestRun (mark : Char) (cs : List Char) : Nat :=
  (cs.foldl (fun (longest, run) c =>
    if c = mark then (max longest (run + 1), run + 1) else (longest, 0)) (0, 0)).1

/-- A character between double marks. Over several lines a line break stands for itself. -/
def escapeChar (isLong : Bool) (c : Char) : List Char :=
  if c = '\n' ∧ isLong then ['\n']
  else
    match escapes.find? (·.2 == c) with
    | some (e, _) => ['\\', e]
    | none => if isControl c then '\\' :: 'u' :: Text.hexDigits 4 c.toNat else [c]

/-- A text in the marks in which the least of it has to be escaped. -/
def quoteText (s : String) : String :=
  let cs := s.toList
  let isLong := cs.contains '\n'
  let hasControl := cs.any fun c => isControl c && c != '\n'
  let doubles := longestRun '"' cs
  let singles := longestRun '\'' cs
  let isBare := !hasControl && !cs.contains '\\'
  let opening := if isLong then "\n" else ""
  if isBare && doubles = 0 && !isLong then "\"" ++ s ++ "\""
  else if !hasControl && singles = 0 && !isLong then "'" ++ s ++ "'"
  else if isBare && doubles ≤ 2 then "\"\"\"" ++ opening ++ s ++ "\"\"\""
  else if !hasControl && singles ≤ 2 then "'''" ++ opening ++ s ++ "'''"
  else
    let body := String.ofList (cs.flatMap (escapeChar isLong))
    if isLong then "\"\"\"\n" ++ body ++ "\"\"\"" else "\"" ++ body ++ "\""

/-- A plain member: a text or what is written alike in every document. -/
def renderValue : Json → String
  | .text s => quoteText s
  | other => other.compact

def renderPlain : List (String × Json) → String
  | [] => ""
  | (_, .object _) :: rest => renderPlain rest
  | (name, value) :: rest => name ++ " = " ++ renderValue value ++ "\n" ++ renderPlain rest

mutual

/-- The sections of a table under its heading. -/
def sections (path : List String) : Json → List String
  | .object members =>
    ("[" ++ ".".intercalate path ++ "]\n" ++ renderPlain members) :: sectionsOf path members
  | _ => []

def sectionsOf (path : List String) : List (String × Json) → List String
  | [] => []
  | (name, value) :: rest => sections (path ++ [name]) value ++ sectionsOf path rest

end

/-- A document whose members are all tables. -/
def render (members : List (String × Json)) : String := "\n".intercalate (sectionsOf [] members)

example : quoteText "a" = "\"a\"" ∧ quoteText "a\\b" = "'a\\b'" := ⟨rfl, rfl⟩
example : render [("a", .object [("x", .int 1), ("b", .object [("y", .text "z")])])] =
    "[a]\nx = 1\n\n[a.b]\ny = \"z\"\n" := rfl

end ProductSpec.Toml
