/-
  A place in a YAML text: what remains and where it stands. All repetition while reading goes
  through `Cursor.loop`, which ends because each round takes at least one character.
-/

namespace ProductSpec.Yaml

/-- A place in a text. -/
structure Cursor where
  rest : List Char
  index : Nat
  line : Nat
  column : Nat

def isBreak (c : Char) : Bool :=
  c == '\n' || c == '\r' || c == '\u0085' || c == '\u2028' || c == '\u2029'

def isSpaceOrTab (c : Char) : Bool := c == ' ' || c == '\t'

/-- A letter, digit, underscore or hyphen. -/
def isNameChar (c : Char) : Bool := c.isAlphanum || c == '_' || c == '-'

/-- Whether a place is at a blank, a line break or the end. -/
def isBlankOrEnd (c : Option Char) : Bool :=
  match c with
  | none => true
  | some c => isSpaceOrTab c || isBreak c

/-- The characters that a text may hold. -/
def isPrintable (c : Char) : Bool :=
  let n := c.toNat
  n == 9 || n == 10 || n == 13 || (0x20 ≤ n && n ≤ 0x7E) || n == 0x85 ||
    (0xA0 ≤ n && n ≤ 0xD7FF) || (0xE000 ≤ n && n ≤ 0xFFFD) || 0x10000 ≤ n

namespace Cursor

def start (cs : List Char) : Cursor := ⟨cs, 0, 0, 0⟩

def peek (c : Cursor) (i : Nat) : Option Char := c.rest[i]?

def atEnd (c : Cursor) : Bool := c.rest.isEmpty

def sees (c : Cursor) (d : Char) : Bool := c.peek 0 == some d

def seesBreak (c : Cursor) : Bool := (c.peek 0).any isBreak

def seesBlank (c : Cursor) : Bool := (c.peek 0).any isSpaceOrTab

/-- Passes over `n` characters of one line. -/
def skip (c : Cursor) (n : Nat) : Cursor :=
  ⟨c.rest.drop n, c.index + n, c.line, c.column + n⟩

/-- The characters from here on for as long as `p` holds, all of one line, and the place after
them. -/
def span (c : Cursor) (p : Char → Bool) : List Char × Cursor :=
  let run := c.rest.takeWhile p
  (run, c.skip run.length)

/-- Passes over one line break. -/
def skipBreak (c : Cursor) : Cursor :=
  match c.rest with
  | '\r' :: '\n' :: rest => ⟨rest, c.index + 2, c.line + 1, 0⟩
  | _ :: rest => ⟨rest, c.index + 1, c.line + 1, 0⟩
  | [] => c

/-- The text a line break stands for: the break itself for the two Unicode separators and a line
feed for all others; nothing at the end of the text. -/
def breakText (c : Cursor) : List Char :=
  match c.rest with
  | [] => []
  | d :: _ => if d == '\u2028' || d == '\u2029' then [d] else if isBreak d then ['\n'] else []

/-- Whether three equal marks followed by a blank or an end begin the line here. -/
def seesDocumentMark (c : Cursor) (mark : Char) : Bool :=
  c.column == 0 && c.peek 0 == some mark && c.peek 1 == some mark && c.peek 2 == some mark &&
    isBlankOrEnd (c.peek 3)

def seesDocumentEdge (c : Cursor) : Bool := c.seesDocumentMark '-' || c.seesDocumentMark '.'

/-- What a round of reading gives: the next place to read from, or the result. -/
inductive Round (σ α : Type)
  | again (state : σ) (next : Cursor)
  | done (result : α)

/-- Repeats a step until it gives a result. A step that fails, or that goes on without having
taken a character, ends the reading. -/
def loop {σ α : Type} (step : σ → Cursor → Option (Round σ α)) (state : σ) (c : Cursor) :
    Option α :=
  match step state c with
  | none => none
  | some (.done result) => some result
  | some (.again state next) =>
    if next.rest.length < c.rest.length then loop step state next else none
termination_by c.rest.length

end Cursor

end ProductSpec.Yaml
