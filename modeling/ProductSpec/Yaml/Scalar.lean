/-
  The scalars of a YAML text: plain, quoted, and over whole lines. Line breaks inside a plain or
  quoted scalar are folded: one becomes a blank, and of several all but the first are kept.
-/
import ProductSpec.Yaml.Cursor
import ProductSpec.Json.Token

namespace ProductSpec.Yaml

open Cursor

/-- Blanks and line breaks between two parts of a scalar. -/
structure Gap where
  /-- Whether a line break has been passed. -/
  broken : Bool
  blanks : List Char
  firstBreak : List Char
  breaks : List Char

namespace Gap

def empty : Gap := ⟨false, [], [], []⟩

def isEmpty (g : Gap) : Bool := !g.broken && g.blanks.isEmpty

/-- What the gap stands for in the scalar. -/
def text (g : Gap) : List Char :=
  if !g.broken then g.blanks
  else if g.firstBreak.head? == some '\n' then
    if g.breaks.isEmpty then [' '] else g.breaks
  else g.firstBreak ++ g.breaks

end Gap

/-- Reads a gap. Where a least column is given, a tab before it on a new line is refused. -/
def readGap (leastColumn : Option Nat) : Gap → Cursor → Option (Gap × Cursor) :=
  loop fun g c =>
    if c.seesBlank then
      if g.broken && c.sees '\t' && leastColumn.any (c.column < ·) then none
      else if g.broken then some (.again g (c.skip 1))
      else some (.again { g with blanks := g.blanks ++ c.rest.take 1 } (c.skip 1))
    else if c.seesBreak then
      if g.broken then some (.again { g with breaks := g.breaks ++ c.breakText } c.skipBreak)
      else some (.again ⟨true, [], c.breakText, []⟩ c.skipBreak)
    else some (.done (g, c))

def isFlowMark (c : Char) : Bool := c == ',' || c == '[' || c == ']' || c == '\x7b' || c == '\x7d'

/-- The characters of a plain scalar up to a blank or a mark that ends it. In a flow collection a
colon in front of a mark is refused. -/
def plainRun (flow : Bool) : List Char → Option (List Char)
  | [] => some []
  | c :: rest =>
    if isBlankOrEnd (some c) then some []
    else if flow && c == ':' && rest.head?.any (fun d => isFlowMark d || d == '?') then none
    else if (c == ':' && isBlankOrEnd rest.head?) || (flow && isFlowMark c) then some []
    else (plainRun flow rest).map (c :: ·)

/-- A plain scalar, whether a line break follows it, and the place after it. -/
def readPlain (flow : Bool) (leastColumn : Nat) (c : Cursor) :
    Option (List Char × Bool × Cursor) :=
  loop (σ := List Char × Gap) (fun (text, gap) c => do
    if c.seesDocumentEdge || c.sees '#' then return .done (text, gap.broken, c)
    let run ← plainRun flow c.rest
    let text := if run.isEmpty then text else text ++ gap.text ++ run
    let gap := if run.isEmpty then gap else Gap.empty
    let c := c.skip run.length
    if !(c.seesBlank || c.seesBreak) then return .done (text, gap.broken, c)
    let (gap, c) ← readGap (some leastColumn) gap c
    if !flow && c.column < leastColumn then return .done (text, gap.broken, c)
    return .again (text, gap) c)
    ([], Gap.empty) c

/-- The characters that a backslash and one character stand for. -/
def escapes : List (Char × Char) :=
  [('0', '\x00'), ('a', '\x07'), ('b', '\x08'), ('t', '\t'), ('\t', '\t'), ('n', '\n'),
   ('v', '\x0b'), ('f', '\x0c'), ('r', '\r'), ('e', '\x1b'), (' ', ' '), ('"', '"'),
   ('/', '/'), ('\\', '\\'), ('N', '\u0085'), ('_', '\u00a0'), ('L', '\u2028'),
   ('P', '\u2029')]

/-- Reads an escape after its backslash: the character and the number of characters taken. -/
def readEscape (c : Cursor) : Option (Char × Nat) := do
  let kind ← c.peek 0
  match [('x', 2), ('u', 4), ('U', 8)].lookup kind with
  | some width =>
    let digits := (c.rest.drop 1).take width
    if digits.length < width then none
    let n ← Json.hexNumber? digits
    return (← Json.charOf? n, width + 1)
  | none => return (← escapes.lookup kind, 1)

/-- A quoted scalar after its opening mark. Between single marks a doubled mark stands for one;
between double marks a backslash escapes. -/
def readQuoted (mark : Char) (c : Cursor) : Option (List Char × Cursor) :=
  let single := mark == '\''
  loop (fun text c => do
    if c.seesDocumentEdge then none
    let d ← c.peek 0
    if single && d == mark && c.peek 1 == some mark then return .again (text ++ [mark]) (c.skip 2)
    else if d == mark then return .done (text, c.skip 1)
    else if !single && d == '\\' then
      if (c.peek 1).any isBreak then
        let (gap, next) ← readGap none ⟨true, [], [], []⟩ (c.skip 1).skipBreak
        return .again (text ++ gap.text) next
      else
        let (e, width) ← readEscape (c.skip 1)
        return .again (text ++ [e]) (c.skip (1 + width))
    else if isBlankOrEnd (some d) then
      let (gap, next) ← readGap none Gap.empty c
      return .again (text ++ gap.text) next
    else
      let (run, next) := c.span fun e => !(e == mark || e == '\\' || isBlankOrEnd (some e))
      if run.isEmpty then return .again (text ++ [d]) (c.skip 1)
      else return .again (text ++ run) next)
    [] c

/-- What becomes of the line breaks at the end of a scalar over whole lines. -/
inductive Chomping
  | strip
  | clip
  | keep
deriving DecidableEq, Repr

def chomping? (c : Option Char) : Option Chomping :=
  if c == some '-' then some .strip else if c == some '+' then some .keep else none

/-- An indentation digit, from 1 to 9. -/
def indentDigit? (c : Option Char) : Option Nat :=
  c.bind fun d => if d.isDigit then some (d.toNat - 48) else none

/-- The indicators after `|` or `>`, in either order, and the place after them. -/
def readIndicators (c : Cursor) : Option (Chomping × Option Nat × Cursor) := do
  let (chomping, indent, c) :=
    match chomping? (c.peek 0), indentDigit? (c.peek 0) with
    | some chomping, _ =>
      match indentDigit? (c.peek 1) with
      | some n => (chomping, some n, c.skip 2)
      | none => (chomping, none, c.skip 1)
    | none, some n =>
      match chomping? (c.peek 1) with
      | some chomping => (chomping, some n, c.skip 2)
      | none => (.clip, some n, c.skip 1)
    | none, none => (.clip, none, c)
  if indent == some 0 then none
  return (chomping, indent, c)

/-- Reads the empty lines and the indentation before a line. Without a given indentation the
deepest column passed is the result. -/
def readIndentation (indent : Option Nat) (c : Cursor) :
    Option (List Char × Nat × Cursor) :=
  loop (σ := List Char × Nat) (fun (breaks, deepest) c => do
    let blanks := (c.rest.takeWhile (· == ' ')).length
    let taken := match indent with
      | some n => min blanks (n - c.column)
      | none => blanks
    let c := c.skip taken
    let deepest := max deepest c.column
    if (indent.all (c.column < ·)) && c.sees '\t' then none
    if c.seesBreak then return .again (breaks ++ c.breakText, deepest) c.skipBreak
    return .done (breaks, deepest, c))
    ([], 0) c

/-- The parts of a scalar over whole lines read so far. -/
structure Lines where
  text : List Char
  lastBreak : List Char
  breaks : List Char
  blankBefore : Bool

/-- A scalar over whole lines after its `|` or `>`; `outer` is the indentation of what is around
it, `none` at the left edge. -/
def readLines (literal : Bool) (outer : Option Nat) (c : Cursor) :
    Option (List Char × Cursor) := do
  let (chomping, step, c) ← readIndicators c
  let (_, c) := c.span isSpaceOrTab
  let c := if c.sees '#' then (c.span fun d => !isBreak d).2 else c
  if !(c.atEnd || c.seesBreak) then none
  let c := if c.seesBreak then c.skipBreak else c
  let given := step.map fun n => (outer.getD 0) + n
  let (breaks, deepest, c) ← readIndentation given c
  let indent := given.getD (max (max deepest ((outer.map (· + 1)).getD 0)) 1)
  let (lines, c) ← loop (σ := Lines) (fun l c => do
    if c.column != indent || c.atEnd then return .done (l, c)
    let blank := c.seesBlank
    let folded := !literal && l.lastBreak.head? == some '\n' && !l.blankBefore && !blank
    let between :=
      if folded then (if l.breaks.isEmpty then [' '] else []) else l.lastBreak
    let (line, c) := c.span fun d => !isBreak d
    let lastBreak := c.breakText
    let c := if c.seesBreak then c.skipBreak else c
    let (breaks, _, c) ← readIndentation (some indent) c
    return .again ⟨l.text ++ between ++ l.breaks ++ line, lastBreak, breaks, blank⟩ c)
    ⟨[], [], breaks, false⟩ c
  let tail := match chomping with
    | .strip => []
    | .clip => lines.lastBreak
    | .keep => lines.lastBreak ++ lines.breaks
  return (lines.text ++ tail, c)

end ProductSpec.Yaml
