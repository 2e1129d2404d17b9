/-
  Reading a document from its text. The words are taken one by one; the open lists and objects
  are kept on a stack, and what may come next depends on the last word only.
-/
import ProductSpec.Json.Token

namespace ProductSpec.Json

/-- A list or an object that is still open, the parts read so far last first. -/
inductive Frame
  | array (items : List Json)
  | object (members : List (String × Json)) (name : String)

/-- What may come next. -/
inductive Expect
  | value
  | valueOrClose
  | name
  | nameOrClose
  | colon (name : String)
  | commaOrClose
  | done (result : Json)

/-- The open lists and objects, innermost first. An object is on the stack as its members while
a member name is expected. -/
structure Reading where
  frames : List Frame
  expect : Expect

/-- Lists and objects may be nested up to this depth. -/
def depthLimit : Nat := 127

namespace Reading

def start : Reading := ⟨[], .value⟩

/-- Takes a complete value into the innermost open list or object. -/
def accept (frames : List Frame) (value : Json) : Reading :=
  match frames with
  | [] => ⟨[], .done value⟩
  | .array items :: rest => ⟨.array (value :: items) :: rest, .commaOrClose⟩
  | .object members name :: rest => ⟨.object ((name, value) :: members) "" :: rest, .commaOrClose⟩

def openFrame (frames : List Frame) (frame : Frame) (expect : Expect) : Option Reading :=
  if frames.length < depthLimit then some ⟨frame :: frames, expect⟩ else none

/-- A word where a value may begin. -/
def beginValue (frames : List Frame) : Token → Option Reading
  | .text s => some (accept frames (.text s))
  | .atom value => some (accept frames value)
  | .openArray => openFrame frames (.array []) .valueOrClose
  | .openObject => openFrame frames (.object [] "") .nameOrClose
  | _ => none

/-- Ends the innermost list or object. -/
def close : List Frame → Token → Option Reading
  | .array items :: rest, .closeArray => some (accept rest (.array items.reverse))
  | .object members _ :: rest, .closeObject => some (accept rest (.object members.reverse))
  | _, _ => none

def step (r : Reading) (t : Token) : Option Reading :=
  match r.expect with
  | .value => beginValue r.frames t
  | .valueOrClose =>
    match t with
    | .closeArray => close r.frames t
    | _ => beginValue r.frames t
  | .name =>
    match t with
    | .text s => some ⟨r.frames, .colon s⟩
    | _ => none
  | .nameOrClose =>
    match t with
    | .text s => some ⟨r.frames, .colon s⟩
    | _ => close r.frames t
  | .colon name =>
    match t, r.frames with
    | .colon, .object members _ :: rest => some ⟨.object members name :: rest, .value⟩
    | _, _ => none
  | .commaOrClose =>
    match t, r.frames with
    | .comma, .array _ :: _ => some ⟨r.frames, .value⟩
    | .comma, .object .. :: _ => some ⟨r.frames, .name⟩
    | _, _ => close r.frames t
  | .done _ => none

end Reading

/-- The document that a text holds, members as written. -/
def read? (text : String) : Option Json := do
  let words ← tokens text.toList
  let final ← words.foldlM Reading.step Reading.start
  match final.expect with
  | .done result => some result
  | _ => none

end ProductSpec.Json
