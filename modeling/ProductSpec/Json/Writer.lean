/-
  The text of a document, on one line or indented by two blanks.
-/
import ProductSpec.Json.Basic
import ProductSpec.Number.Shortest

namespace ProductSpec.Json

open Number

def hexDigit (n : Nat) : Char := "0123456789abcdef".toList.getD n '0'

/-- Quotation marks, backslashes and control characters are escaped, and nothing else. -/
def escapeChar (c : Char) : List Char :=
  match c with
  | '"' => ['\\', '"']
  | '\\' => ['\\', '\\']
  | '\n' => ['\\', 'n']
  | '\r' => ['\\', 'r']
  | '\t' => ['\\', 't']
  | '\x08' => ['\\', 'b']
  | '\x0c' => ['\\', 'f']
  | c =>
    if c.toNat < 0x20 then ['\\', 'u', '0', '0', hexDigit (c.toNat / 16), hexDigit (c.toNat % 16)]
    else [c]

def quoted (s : String) : String := String.ofList ('"' :: s.toList.flatMap escapeChar ++ ['"'])

def numberText (x : Double) : String := DecimalStyle.document.write "null" "null" x

/-- Where the line breaks go: `none` for a document on one line, else the current depth. -/
abbrev Layout := Option Nat

namespace Layout

def deeper (l : Layout) : Layout := l.map (· + 1)

/-- What separates the parts of a list or an object. -/
def lineBreak : Layout → String
  | none => ""
  | some depth => "\n" ++ String.ofList (List.replicate (2 * depth) ' ')

def colon : Layout → String
  | none => ":"
  | some _ => ": "

end Layout

mutual

def write (l : Layout) : Json → String
  | .null => "null"
  | .bool b => if b then "true" else "false"
  | .int n => toString n
  | .float x => numberText x
  | .text s => quoted s
  | .array [] => "[]"
  | .array (item :: rest) =>
    "[" ++ l.deeper.lineBreak ++ write l.deeper item ++ writeItems l.deeper rest ++
      l.lineBreak ++ "]"
  | .object [] => "\x7b\x7d"
  | .object ((name, value) :: rest) =>
    "\x7b" ++ l.deeper.lineBreak ++ quoted name ++ l.colon ++ write l.deeper value ++
      writeMembers l.deeper rest ++ l.lineBreak ++ "\x7d"

def writeItems (l : Layout) : List Json → String
  | [] => ""
  | item :: rest => "," ++ l.lineBreak ++ write l item ++ writeItems l rest

def writeMembers (l : Layout) : List (String × Json) → String
  | [] => ""
  | (name, value) :: rest =>
    "," ++ l.lineBreak ++ quoted name ++ l.colon ++ write l value ++ writeMembers l rest

end

/-- The document on one line. -/
def compact (j : Json) : String := write none j

/-- The document over several lines. -/
def pretty (j : Json) : String := write (some 0) j

end ProductSpec.Json
