/-
  YAML documents as trees of scalars, sequences and mappings. The words are taken one by one;
  the open collections are kept on a stack, and where a word cannot belong to the innermost one
  an empty scalar or the end of that collection is put in first.
-/
import ProductSpec.Yaml.Lexer

namespace ProductSpec.Yaml

/-- A node with its tag, if one is written. -/
inductive Node
  | scalar (tag : Option String) (style : Style) (text : String)
  | sequence (tag : Option String) (items : List Node)
  | mapping (tag : Option String) (entries : List (Node × Node))
deriving Inhabited

namespace Node

/-- A node left out where there could be one. -/
def empty : Node := scalar none .plain ""

end Node

/-- A finished node, how deep it is nested, and how often aliases are followed in it. -/
structure Built where
  node : Node
  depth : Nat
  follows : Nat
deriving Inhabited

namespace Built

def ofScalar (n : Node) : Built := ⟨n, 0, 0⟩

def empty : Built := ofScalar .empty

def deepest (parts : List Built) : Nat := parts.foldl (fun d b => max d b.depth) 0

def total (parts : List Built) : Nat := parts.foldl (fun n b => n + b.follows) 0

def ofSequence (tag : Option String) (items : List Built) : Built :=
  ⟨.sequence tag (items.map Built.node), deepest items + 1, total items⟩

def ofMapping (tag : Option String) (entries : List (Built × Built)) : Built :=
  let parts := entries.flatMap fun (k, v) => [k, v]
  ⟨.mapping tag (entries.map fun (k, v) => (k.node, v.node)), deepest parts + 1, total parts⟩

end Built

/-- The anchor and the tag in front of a node. -/
structure Properties where
  anchor : Option String
  tag : Option String

namespace Properties

def none : Properties := ⟨.none, .none⟩

def isEmpty (p : Properties) : Bool := p.anchor.isNone && p.tag.isNone

end Properties

/-- The kinds of collections. A pair is the single entry of a mapping in a flow sequence. -/
inductive CollectionKind
  | blockSequence
  | indentlessSequence
  | blockMapping
  | flowSequence
  | flowPair
  | flowMapping
deriving DecidableEq, Repr

/-- An open collection. -/
structure Frame where
  kind : CollectionKind
  properties : Properties
  /-- The finished items of a sequence, last first. -/
  items : List Built
  /-- The finished entries of a mapping, last first. -/
  entries : List (Built × Built)
  /-- The key whose value is not read yet. -/
  key : Option Built
  /-- Whether a node that is read next is a key without a value. -/
  bare : Bool

namespace Frame

def opened (kind : CollectionKind) (p : Properties) : Frame := ⟨kind, p, [], [], none, false⟩

def finished (f : Frame) : Built :=
  match f.kind with
  | .blockSequence | .indentlessSequence | .flowSequence =>
    .ofSequence f.properties.tag f.items.reverse
  | .blockMapping | .flowMapping | .flowPair => .ofMapping f.properties.tag f.entries.reverse

def addEntry (f : Frame) (k v : Built) : Frame :=
  { f with entries := (k, v) :: f.entries, key := none, bare := false }

end Frame

/-- What the next word may be, in the innermost open collection. -/
inductive Place
  /-- The start of an item or entry, or the end of the collection. -/
  | entry
  /-- A node, or nothing. -/
  | slot
  /-- A node that has properties already. -/
  | node (p : Properties)
  /-- What follows after a node. -/
  | next

/-- The open collections, innermost first, and the nodes that have an anchor, latest first. -/
structure Builder where
  frames : List Frame
  place : Place
  anchors : List (String × Built)
  /-- How many scalars, aliases, and starts and ends of collections there are so far. -/
  events : Nat
  root : Option Built
  /-- What the handles of tags stand for. -/
  handles : List (String × String)

/-- What becomes of a word: it is taken, or something left out is put in before it. -/
inductive Outcome
  | taken (b : Builder)
  | supplied (b : Builder)

namespace Builder

def start (handles : List (String × String)) : Builder := ⟨[], .slot, [], 0, none, handles⟩

/-- Puts a finished node into the innermost open collection. A pair ends with its value. -/
def settle (b : Builder) (n : Built) : (frames : List Frame) → Builder
  | [] => { b with frames := [], place := .next, root := some n }
  | f :: rest =>
    let stay := fun (f : Frame) => { b with frames := f :: rest, place := .next }
    match f.kind with
    | .blockSequence | .indentlessSequence | .flowSequence => stay { f with items := n :: f.items }
    | .blockMapping | .flowMapping =>
      match f.key with
      | some k => stay (f.addEntry k n)
      | none => if f.bare then stay (f.addEntry n .empty) else stay { f with key := some n }
    | .flowPair =>
      match f.key with
      | some k => settle { b with events := b.events + 2 } (f.addEntry k n).finished rest
      | none => stay { f with key := some n }

/-- Takes a finished node, remembering it if it has an anchor. -/
def finish (b : Builder) (p : Properties) (events : Nat) (n : Built) : Builder :=
  let anchors := match p.anchor with
    | some name => (name, n) :: b.anchors
    | none => b.anchors
  settle { b with anchors, events := b.events + events } n b.frames

def finishEmpty (b : Builder) : Builder := b.finish .none 1 .empty

/-- Ends a collection whose frame has been taken off. -/
def close (b : Builder) (f : Frame) (rest : List Frame) : Builder :=
  { b with frames := rest }.finish f.properties 2 f.finished

def openFrame (b : Builder) (kind : CollectionKind) (p : Properties) (place : Place) : Builder :=
  { b with frames := .opened kind p :: b.frames, place }

/-- The full tag; its handle has to be known. -/
def resolveTag (b : Builder) (handle suffix : String) : Option String :=
  if handle == "" then some suffix else (b.handles.lookup handle).map (· ++ suffix)

/-- A node begins, or its properties do. A node with properties may be an empty scalar. -/
def beginNode (b : Builder) (p : Properties) (t : Token) : Option Outcome :=
  let leftOut := if p.isEmpty then none
    else some (.supplied (b.finish p 1 (.ofScalar (.scalar p.tag .plain ""))))
  match t with
  | .alias name =>
    if p.isEmpty then do
      let target ← b.anchors.lookup name
      return .taken (b.finish .none 1 { target with follows := target.follows + 1 })
    else leftOut
  | .anchor name =>
    if p.anchor.isNone then some (.taken { b with place := .node { p with anchor := some name } })
    else leftOut
  | .tag handle suffix =>
    if p.tag.isNone then do
      let tag ← b.resolveTag handle suffix
      return .taken { b with place := .node { p with tag := some tag } }
    else leftOut
  | .scalar text style =>
    some (.taken (b.finish p 1 (.ofScalar (.scalar p.tag style text))))
  | .flowSequence => some (.taken (b.openFrame .flowSequence p .entry))
  | .flowMapping => some (.taken (b.openFrame .flowMapping p .entry))
  | .blockSequence => some (.taken (b.openFrame .blockSequence p .next))
  | .blockMapping => some (.taken (b.openFrame .blockMapping p .next))
  | .blockEntry =>
    if b.frames.head?.any (·.kind == .blockMapping) then
      some (.taken (b.openFrame .indentlessSequence p .slot))
    else leftOut
  | _ => leftOut

/-- The words in front of which a node left out is put in. -/
def endsSlot (f : Frame) (t : Token) : Bool :=
  match f.kind with
  | .blockSequence => t == .blockEntry || t == .blockEnd
  | .indentlessSequence => t == .blockEntry || t == .key || t == .value || t == .blockEnd
  | .blockMapping => t == .key || t == .value || t == .blockEnd
  | .flowPair => (f.key.isNone && t == .value) || t == .flowEntry || t == .flowSequenceEnd
  | .flowMapping => (f.key.isNone && t == .value) || t == .flowEntry || t == .flowMappingEnd
  | .flowSequence => false

/-- The words in front of which the root may be left out. -/
def endsDocument (t : Token) : Bool :=
  match t with
  | .documentEnd | .documentStart | .versionDirective .. | .tagDirective .. => true
  | _ => false

/-- A word after a node. -/
def afterNode (b : Builder) (f : Frame) (rest : List Frame) (t : Token) : Option Outcome :=
  let goOn := fun (place : Place) => some (.taken { b with place })
  match f.kind, f.key with
  | .blockSequence, _ =>
    if t == .blockEntry then goOn .slot
    else if t == .blockEnd then some (.taken (b.close f rest)) else none
  | .indentlessSequence, _ =>
    if t == .blockEntry then goOn .slot else some (.supplied (b.close f rest))
  | .blockMapping, none =>
    if t == .key then goOn .slot
    else if t == .blockEnd then some (.taken (b.close f rest)) else none
  | .flowSequence, _ =>
    if t == .flowEntry then goOn .entry
    else if t == .flowSequenceEnd then some (.taken (b.close f rest)) else none
  | .flowMapping, none =>
    if t == .flowEntry then goOn .entry
    else if t == .flowMappingEnd then some (.taken (b.close f rest)) else none
  | .flowPair, none => none
  | _, some _ => if t == .value then goOn .slot else some (.supplied b.finishEmpty)

/-- A word where an item or an entry may begin. -/
def atEntry (b : Builder) (f : Frame) (rest : List Frame) (t : Token) : Option Outcome :=
  match f.kind with
  | .flowSequence =>
    if t == .flowSequenceEnd then some (.taken (b.close f rest))
    else if t == .key then some (.taken (b.openFrame .flowPair .none .slot))
    else b.beginNode .none t
  | .flowMapping =>
    if t == .flowMappingEnd then some (.taken (b.close f rest))
    else if t == .key then some (.taken { b with place := .slot })
    else { b with frames := { f with bare := true } :: rest }.beginNode .none t
  | _ => none

def step (b : Builder) (t : Token) : Option Outcome :=
  match b.place, b.frames with
  | .node p, _ => b.beginNode p t
  | .slot, f :: _ =>
    if endsSlot f t then
      -- The mark after an empty key of a pair is taken with it.
      if f.kind == .flowPair && f.key.isNone then some (.taken b.finishEmpty)
      else some (.supplied b.finishEmpty)
    else b.beginNode .none t
  | .slot, [] => if endsDocument t then some (.supplied b.finishEmpty) else b.beginNode .none t
  | .entry, f :: rest => b.atEntry f rest t
  | .next, f :: rest => b.afterNode f rest t
  | .next, [] => if t == .documentEnd then some (.taken b) else none
  | .entry, [] => none

/-- Takes a word after all that is put in before it. Each thing put in settles a node, a value or
the end of an open collection, so three for each of them are enough. -/
def take (t : Token) : (limit : Nat) → Builder → Option Builder
  | 0, _ => none
  | limit + 1, b =>
    match b.step t with
    | some (.taken b) => some b
    | some (.supplied b) => take t limit b
    | none => none

/-- The root at the end of the words; one that has only properties is an empty scalar. -/
def result? (b : Builder) : Option Built :=
  match b.place, b.frames with
  | .node p, [] => some (.ofScalar (.scalar p.tag .plain ""))
  | _, _ => b.root

def feed (b : Builder) (t : Token) : Option Builder := take t (3 * b.frames.length + 4) b

end Builder

/-- The handles that are known without a directive. -/
def standardHandles : List (String × String) := [("!", "!"), ("!!", "tag:yaml.org,2002:")]

/-- What stands in front of a document: whether its version is given and its own handles. -/
structure Prelude where
  version : Bool
  handles : List (String × String)

/-- Reads the directives up to the mark that starts the document. Without any directive the mark
may be missing. -/
def readPrelude (p : Prelude) : List Token → Option (Prelude × Bool × List Token)
  | .versionDirective major minor :: rest =>
    if p.version || major != 1 || (minor != 1 && minor != 2) then none
    else readPrelude { p with version := true } rest
  | .tagDirective handle start :: rest =>
    if (p.handles.lookup handle).isSome then none
    else readPrelude { p with handles := (handle, start) :: p.handles } rest
  | .documentStart :: rest => some (p, true, rest)
  | rest => if p.version || !p.handles.isEmpty then none else some (p, false, rest)

/-- Collections may be nested up to this depth. -/
def depthLimit : Nat := 128

namespace Node

/-- The one document made of the words; nothing at all is an empty scalar. Aliases may be
followed a hundred times for each part of the document. -/
def ofTokens? (words : List Token) : Option Node := do
  let (p, marked, body) ← readPrelude ⟨false, []⟩ words
  if body.isEmpty then return .empty
  if !marked && body.head?.any Builder.endsDocument then none
  let b ← body.foldlM Builder.feed (.start (p.handles ++ standardHandles))
  let root ← b.result?
  if depthLimit < root.depth || 100 * b.events < root.follows then none
  return root.node

/-- Reads the one document of a text. -/
def read? (text : String) : Option Node := do ofTokens? (← Lexer.tokens text)

end Node

end ProductSpec.Yaml
