/-
  Cutting a YAML text into its words. Indentation opens and closes block collections, and a colon
  makes the word before it a key: a possible key is remembered where it starts, for one line and
  at most 1024 characters.
-/
import ProductSpec.Yaml.Scalar

namespace ProductSpec.Yaml

open Cursor

/-- How a scalar was written. -/
inductive Style
  | plain
  | literal
  | other
deriving DecidableEq, Repr, Inhabited

/-- A word. Block collections are bracketed by words of their own, which follow from the
indentation. -/
inductive Token
  | versionDirective (major minor : Nat)
  | tagDirective (handle start : String)
  | documentStart
  | documentEnd
  | blockSequence
  | blockMapping
  | blockEnd
  | blockEntry
  | flowSequence
  | flowSequenceEnd
  | flowMapping
  | flowMappingEnd
  | flowEntry
  | key
  | value
  | alias (name : String)
  | anchor (name : String)
  | tag (handle suffix : String)
  | scalar (text : String) (style : Style)
deriving DecidableEq, Repr

/-- A place where a key may have started. -/
structure KeyStart where
  /-- Whether nothing but a key can stand there. -/
  required : Bool
  /-- How many words come before it. -/
  before : Nat
  index : Nat
  line : Nat
  column : Nat

/-- The words read so far, last first, and what decides about the next one. -/
structure Lexer where
  words : List Token
  count : Nat
  /-- The possible key of the innermost collection and, outwards, of the flow collections around
  it. -/
  keyStart : Option KeyStart
  outerKeyStarts : List (Option KeyStart)
  /-- The column of the innermost block collection. -/
  indent : Option Nat
  outerIndents : List (Option Nat)
  /-- Whether a key may start here. -/
  keyAllowed : Bool

namespace Lexer

def start : Lexer := ⟨[], 0, none, [], none, [], true⟩

def inFlow (l : Lexer) : Bool := !l.outerKeyStarts.isEmpty

def push (l : Lexer) (t : Token) : Lexer := { l with words := t :: l.words, count := l.count + 1 }

/-- Puts a word behind the first `before` words. -/
def insert (l : Lexer) (before : Nat) (t : Token) : Lexer :=
  let after := l.count - before
  { l with words := l.words.take after ++ t :: l.words.drop after, count := l.count + 1 }

/-- Gives up a possible key; where one is required there is an error. -/
def dropKey (l : Lexer) : Option Lexer :=
  match l.keyStart with
  | some k => if k.required then none else some { l with keyStart := none }
  | none => some l

def isStale (k : KeyStart) (c : Cursor) : Bool := k.line < c.line || k.index + 1024 < c.index

/-- Gives up the possible keys that are too far back. -/
def dropStale (l : Lexer) (c : Cursor) : Option Lexer := do
  let fresh := fun (k? : Option KeyStart) =>
    match k? with
    | some k => if isStale k c then if k.required then none else some none else some (some k)
    | none => some none
  return { l with
    keyStart := ← fresh l.keyStart
    outerKeyStarts := ← l.outerKeyStarts.mapM fresh }

/-- Remembers that a key may start here. -/
def saveKey (l : Lexer) (c : Cursor) : Option Lexer := do
  if !l.keyAllowed then return l
  let l ← l.dropKey
  let required := !l.inFlow && l.indent == some c.column
  return { l with keyStart := some ⟨required, l.count, c.index, c.line, c.column⟩ }

/-- Opens a block collection behind the first `before` words if the column is deeper than that of
the innermost one. -/
def openBlock (l : Lexer) (column before : Nat) (t : Token) : Lexer :=
  if l.inFlow || l.indent.any (column ≤ ·) then l
  else { (l.insert before t) with indent := some column, outerIndents := l.indent :: l.outerIndents }

/-- Closes block collections from the inside as long as `deeper` holds of their column. -/
def closeWhile (deeper : Nat → Bool) : (outer : List (Option Nat)) → Lexer → Lexer
  | [], l => l
  | next :: outer, l =>
    if l.indent.any deeper then
      closeWhile deeper outer { (l.push .blockEnd) with indent := next, outerIndents := outer }
    else l

/-- Closes the block collections deeper than a column. -/
def closeBlocks (l : Lexer) (column : Nat) : Lexer :=
  if l.inFlow then l else closeWhile (column < ·) l.outerIndents l

/-- Closes all block collections. -/
def closeAll (l : Lexer) : Lexer :=
  if l.inFlow then l else closeWhile (fun _ => true) l.outerIndents l

/-- Passes over blanks, comments and line breaks; after a line break a key may start, except in a
flow collection. -/
def skipToWord (l : Lexer) (c : Cursor) : Option (Bool × Cursor) :=
  loop (σ := Bool) (fun keyAllowed c =>
    let (_, c) := c.span fun d => d == ' ' || ((l.inFlow || !keyAllowed) && d == '\t')
    let c := if c.sees '#' then (c.span fun d => !isBreak d).2 else c
    if c.seesBreak then some (.again (keyAllowed || !l.inFlow) c.skipBreak)
    else some (.done (keyAllowed, c)))
    l.keyAllowed c

/-- The digits of one part of a version, at most nine. -/
def readVersionPart (c : Cursor) : Option (Nat × Cursor) :=
  let (digits, next) := c.span Char.isDigit
  if digits.isEmpty || 9 < digits.length then none
  else some (digits.foldl (fun n d => 10 * n + (d.toNat - 48)) 0, next)

/-- One character of a tag written as `%` and two hexadecimal digits for each of its bytes. -/
def readTagBytes (c : Cursor) : Option (Char × Cursor) := do
  let byte := fun (i : Nat) => do
    if c.peek (3 * i) != some '%' then none
    Json.hexNumber? [← c.peek (3 * i + 1), ← c.peek (3 * i + 2)]
  let first ← byte 0
  let width := if first < 0x80 then 1 else if 0xC0 ≤ first && first < 0xE0 then 2
    else if 0xE0 ≤ first && first < 0xF0 then 3 else if 0xF0 ≤ first && first < 0xF8 then 4 else 0
  let bytes ← (List.range width).mapM byte
  let text ← String.fromUTF8? (ByteArray.mk (bytes.map UInt8.ofNat).toArray)
  match text.toList with
  | [d] => some (d, c.skip (3 * width))
  | _ => none

def isTagChar (verbatim : Bool) (c : Char) : Bool :=
  isNameChar c || ";/?:@&=+$.!~*'()".toList.contains c || (verbatim && ",[]".toList.contains c)

/-- The characters of a tag from here on. -/
def readTagText (verbatim : Bool) (start : List Char) (c : Cursor) : Option (String × Cursor) := do
  let (text, c) ← loop (fun text c => do
    let (run, next) := c.span (isTagChar verbatim)
    if next.sees '%' then
      let (d, next) ← readTagBytes next
      return .again (text ++ run ++ [d]) next
    else return .done (text ++ run, next))
    start c
  if text.isEmpty then none else some (String.ofList text, c)

/-- A tag handle: `!`, and between two marks a name. -/
def readHandle (directive : Bool) (c : Cursor) : Option (List Char × Cursor) :=
  if !c.sees '!' then none
  else
    let (name, next) := (c.skip 1).span isNameChar
    if next.sees '!' then some ('!' :: name ++ ['!'], next.skip 1)
    else if directive && !name.isEmpty then none
    else some ('!' :: name, next)

/-- The handle and the suffix of a tag. -/
def readTag (c : Cursor) : Option (Token × Cursor) := do
  if c.peek 1 == some '<' then
    let (text, next) ← readTagText true [] (c.skip 2)
    if !next.sees '>' then none
    return (.tag "" text, next.skip 1)
  let (handle, next) ← readHandle false c
  if 1 < handle.length && handle.getLast? == some '!' then
    let (suffix, next) ← readTagText false [] next
    return (.tag (String.ofList handle) suffix, next)
  else
    let (suffix, next) ← readTagText false handle next
    if suffix == "!" then return (.tag "" "!", next)
    return (.tag "!" (String.ofList (suffix.toList.drop 1)), next)

/-- A directive after its percent sign, up to and with the end of the line. -/
def readDirective (c : Cursor) : Option (Token × Cursor) := do
  let (name, next) := c.span isNameChar
  if !isBlankOrEnd (next.peek 0) then none
  let (_, next) := next.span isSpaceOrTab
  let (word, next) ←
    if name == "YAML".toList then do
      let (major, next) ← readVersionPart next
      if !next.sees '.' then none
      let (minor, next) ← readVersionPart (next.skip 1)
      pure (Token.versionDirective major minor, next)
    else if name == "TAG".toList then do
      let (handle, next) ← readHandle true next
      let (blanks, next) := next.span isSpaceOrTab
      if blanks.isEmpty then none
      let (text, next) ← readTagText true [] next
      if !isBlankOrEnd (next.peek 0) then none
      pure (Token.tagDirective (String.ofList handle) text, next)
    else none
  let (_, next) := next.span isSpaceOrTab
  let next := if next.sees '#' then (next.span fun d => !isBreak d).2 else next
  if !(next.atEnd || next.seesBreak) then none
  return (word, if next.seesBreak then next.skipBreak else next)

/-- The name of an anchor or of an alias. -/
def readName (c : Cursor) : Option (String × Cursor) := do
  let (name, next) := c.span isNameChar
  if name.isEmpty then none
  if !(isBlankOrEnd (next.peek 0) || (next.peek 0).any "?:,]\x7d%@`".toList.contains) then none
  return (String.ofList name, next)

def isPlainStart (l : Lexer) (c : Cursor) (d : Char) : Bool :=
  !(isBlankOrEnd (some d) || "-?:,[]\x7b\x7d#&*!|>'\"%@`".toList.contains d) ||
    (d == '-' && !(c.peek 1).any isSpaceOrTab) ||
    (!l.inFlow && (d == '?' || d == ':') && !isBlankOrEnd (c.peek 1))

def wordsOfMark (d : Char) : Option Token :=
  [('[', Token.flowSequence), ('\x7b', .flowMapping), (']', .flowSequenceEnd),
    ('\x7d', .flowMappingEnd)].lookup d

/-- A word that is a single mark or begins with one. -/
def readMarked (l : Lexer) (c : Cursor) (d : Char) : Option (Option (Lexer × Cursor)) :=
  let followed := isBlankOrEnd (c.peek 1)
  if d == '[' || d == '\x7b' then some do
    let l ← l.saveKey c
    let l := { l with keyStart := none, outerKeyStarts := l.keyStart :: l.outerKeyStarts,
                      keyAllowed := true }
    return (l.push (← wordsOfMark d), c.skip 1)
  else if d == ']' || d == '\x7d' then some do
    let l ← l.dropKey
    let l := match l.outerKeyStarts with
      | k :: outer => { l with keyStart := k, outerKeyStarts := outer, keyAllowed := false }
      | [] => { l with keyAllowed := false }
    return (l.push (← wordsOfMark d), c.skip 1)
  else if d == ',' then some do
    let l ← l.dropKey
    return ({ l with keyAllowed := true }.push .flowEntry, c.skip 1)
  else if d == '-' && followed then some do
    if !l.inFlow && !l.keyAllowed then none
    let l ← (l.openBlock c.column l.count .blockSequence).dropKey
    return ({ l with keyAllowed := true }.push .blockEntry, c.skip 1)
  else if d == '?' && (l.inFlow || followed) then some do
    if !l.inFlow && !l.keyAllowed then none
    let l ← (l.openBlock c.column l.count .blockMapping).dropKey
    return ({ l with keyAllowed := !l.inFlow }.push .key, c.skip 1)
  else if d == ':' && (l.inFlow || followed) then some do
    match l.keyStart with
    | some k =>
      let l := (l.insert k.before .key).openBlock k.column k.before .blockMapping
      return ({ l with keyStart := none, keyAllowed := false }.push .value, c.skip 1)
    | none =>
      if !l.inFlow && !l.keyAllowed then none
      let l := l.openBlock c.column l.count .blockMapping
      return ({ l with keyAllowed := !l.inFlow }.push .value, c.skip 1)
  else if d == '*' || d == '&' then some do
    let l ← l.saveKey c
    let (name, next) ← readName (c.skip 1)
    return ({ l with keyAllowed := false }.push (if d == '*' then .alias name else .anchor name),
      next)
  else if d == '!' then some do
    let l ← l.saveKey c
    let (word, next) ← readTag c
    if !(isBlankOrEnd (next.peek 0) || (l.inFlow && next.sees ',')) then none
    return ({ l with keyAllowed := false }.push word, next)
  else if (d == '|' || d == '>') && !l.inFlow then some do
    let l ← l.dropKey
    let (text, next) ← readLines (d == '|') l.indent (c.skip 1)
    let style := if d == '|' then Style.literal else .other
    return ({ l with keyAllowed := true }.push (.scalar (String.ofList text) style), next)
  else if d == '\'' || d == '"' then some do
    let l ← l.saveKey c
    let (text, next) ← readQuoted d (c.skip 1)
    return ({ l with keyAllowed := false }.push (.scalar (String.ofList text) .other), next)
  else none

/-- Reads the word that begins here. -/
def readWord (l : Lexer) (c : Cursor) (d : Char) : Option (Lexer × Cursor) := do
  if c.column == 0 && d == '%' then
    let l ← l.closeAll.dropKey
    let (word, next) ← readDirective (c.skip 1)
    return ({ l with keyAllowed := false }.push word, next)
  else if c.seesDocumentEdge then
    let l ← l.closeAll.dropKey
    let word := if d == '-' then Token.documentStart else .documentEnd
    return ({ l with keyAllowed := false }.push word, c.skip 3)
  else
    match l.readMarked c d with
    | some result => result
    | none =>
      if !l.isPlainStart c d then none
      let l ← l.saveKey c
      let (text, broken, next) ← readPlain l.inFlow ((l.indent.map (· + 1)).getD 0) c
      return ({ l with keyAllowed := broken }.push (.scalar (String.ofList text) .plain), next)

/-- One round: blanks are passed over, collections that end are closed, and a word is read. -/
def round (l : Lexer) (c : Cursor) : Option (Round Lexer (List Token)) := do
  let (keyAllowed, c) ← l.skipToWord c
  let l := { l with keyAllowed }
  let l ← l.dropStale c
  let l := l.closeBlocks c.column
  match c.peek 0 with
  | none =>
    let l ← l.closeAll.dropKey
    return .done l.words.reverse
  | some d =>
    let (l, next) ← l.readWord c d
    return .again l next

/-- A byte order mark in front does not count. -/
def dropMark (cs : List Char) : List Char :=
  match cs with
  | '\uFEFF' :: rest => rest
  | cs => cs

/-- The words of a text. -/
def tokens (text : String) : Option (List Token) :=
  let cs := dropMark text.toList
  if cs.all isPrintable then loop round start (Cursor.start cs) else none

end Lexer

end ProductSpec.Yaml
