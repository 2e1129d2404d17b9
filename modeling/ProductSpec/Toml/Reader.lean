/-
  Reading a TOML document: headings, and under each of them keys with their values.
-/
import ProductSpec.Toml.Atom
import ProductSpec.Toml.Quoted
import ProductSpec.Toml.Table

namespace ProductSpec.Toml

def skipSpaces (cs : List Char) : List Char := cs.dropWhile isSpace

/-- Passes over a comment, which ends before the next line break. -/
def skipComment? : List Char → Option (List Char)
  | '#' :: rest =>
    let comment := rest.takeWhile (· != '\n')
    let body := (Text.dropLast? '\r' comment).getD comment
    if body.any isControl then none else some (rest.drop body.length)
  | rest => some rest

/-- Passes over the end of a line: blanks, a comment and a line break or the end of the text. -/
def skipLine? (cs : List Char) : Option (List Char) := do
  match ← skipComment? (skipSpaces cs) with
  | [] => some []
  | '\n' :: rest => some rest
  | '\r' :: '\n' :: rest => some rest
  | _ => none

/-- Passes over blanks, comments and line breaks, at most so many of them. -/
def skipGap? : Nat → List Char → Option (List Char)
  | 0, cs => some cs
  | fuel + 1, cs => do
    let rest := skipSpaces cs
    match rest with
    | '#' :: _ | '\n' :: _ | '\r' :: _ => skipGap? fuel (← skipLine? rest)
    | _ => some rest

def isKeyChar (c : Char) : Bool := c.isAlphanum || c == '-' || c == '_'

/-- One name of a key: bare, or in marks on one line. -/
def readName? (cs : List Char) : Option (String × List Char) := do
  let (name, rest) ← match cs with
    | '"' :: rest => readQuoted rest
    | '\'' :: rest => readLiteral rest
    | _ =>
      let name := cs.takeWhile isKeyChar
      if name.isEmpty then none else some (name, cs.dropWhile isKeyChar)
  return (String.ofList name, skipSpaces rest)

/-- A key: names with points between them. -/
def readKey? : Nat → List Char → Option (List String × List Char)
  | 0, _ => none
  | fuel + 1, cs => do
    let (name, rest) ← readName? (skipSpaces cs)
    match rest with
    | '.' :: rest =>
      let (names, rest) ← readKey? fuel rest
      return (name :: names, rest)
    | _ => return ([name], rest)

/-- A key and the equals sign behind it. -/
def readAssigned? (fuel : Nat) (cs : List Char) : Option (List String × List Char) := do
  match ← readKey? fuel cs with
  | (key, '=' :: rest) => return (key, skipSpaces rest)
  | _ => none

mutual

/-- A value, in at most so many steps. -/
def readValue? : Nat → List Char → Option (Json × List Char)
  | 0, _ => none
  | fuel + 1, cs =>
    match cs with
    | '[' :: rest => readItems? fuel [] rest
    | '\x7b' :: rest =>
      match skipSpaces rest with
      | '\x7d' :: rest => some (.object [], rest)
      | rest => readMembers? fuel [] rest
    | '"' :: _ | '\'' :: _ => (readText? cs).map fun (text, rest) => (.text text, rest)
    | _ => readWord? cs

/-- The items of a list after those already read, up to its closing bracket. -/
def readItems? : Nat → List Json → List Char → Option (Json × List Char)
  | 0, _, _ => none
  | fuel + 1, items, cs => do
    match ← skipGap? cs.length cs with
    | ']' :: rest => return (.array items, rest)
    | cs =>
      let (item, rest) ← readValue? fuel cs
      match ← skipGap? rest.length rest with
      | ']' :: rest => return (.array (items ++ [item]), rest)
      | ',' :: rest => readItems? fuel (items ++ [item]) rest
      | _ => none

/-- The members of a table on one line after those already read, up to its closing brace. -/
def readMembers? : Nat → Entries → List Char → Option (Json × List Char)
  | 0, _, _ => none
  | fuel + 1, entries, cs => do
    let (key, rest) ← readAssigned? fuel cs
    let (value, rest) ← readValue? fuel rest
    let entries ← Entries.insert key value entries
    match skipSpaces rest with
    | '\x7d' :: rest => return (entries.toJson, rest)
    | ',' :: rest => readMembers? fuel entries rest
    | _ => none

end

/-- What has been read of a document: all its entries, and the names of the last heading. -/
structure Draft where
  entries : Entries
  heading : List String

/-- A heading, with one bracket for a table and two for a table of a list. -/
def readHeading? (fuel : Nat) (d : Draft) (cs : List Char) : Option (Draft × List Char) := do
  let (isItem, cs) := match cs with
    | '[' :: '[' :: rest => (true, rest)
    | rest => (false, rest.drop 1)
  let (names, rest) ← readKey? fuel cs
  let rest ← Text.dropStart? (if isItem then [']', ']'] else [']']) rest
  let last ← names.getLast?
  let entries ← Entries.under names.dropLast
    (if isItem then Entries.openItem last else Entries.openTable last) d.entries
  return (⟨entries, names⟩, rest)

/-- A key with its value. -/
def readEntry? (fuel : Nat) (d : Draft) (cs : List Char) : Option (Draft × List Char) := do
  let (key, rest) ← readAssigned? fuel cs
  let (value, rest) ← readValue? fuel rest
  return (⟨← Entries.under d.heading (Entries.insert key value) d.entries, d.heading⟩, rest)

/-- The lines of a document, at most so many of them. -/
def readStatements? : Nat → Draft → List Char → Option Entries
  | 0, _, _ => none
  | fuel + 1, d, cs => do
    match ← skipGap? cs.length cs with
    | [] => return d.entries
    | cs =>
      let (d, rest) ← match cs with
        | '[' :: _ => readHeading? cs.length d cs
        | _ => readEntry? cs.length d cs
      readStatements? fuel d (← skipLine? rest)

/-- The document that a text holds. A byte order mark in front of it does not count. -/
def read? (text : String) : Option Json := do
  let cs := match text.toList with
    | '\ufeff' :: rest => rest
    | cs => cs
  return (← readStatements? (cs.length + 1) ⟨[], []⟩ cs).toJson

end ProductSpec.Toml
