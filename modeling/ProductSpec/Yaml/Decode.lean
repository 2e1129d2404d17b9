/-
  Reading values of other types out of YAML nodes. Any scalar is a text; a number or a truth
  value has to be written plainly; a record is a mapping whose keys are texts, and keys that it
  does not have are passed over. A collection that is left empty has no entries.
-/
import ProductSpec.Yaml.Value

namespace ProductSpec.Yaml

open Number

namespace Node

def isEmpty : Node → Bool
  | .scalar _ .plain "" => true
  | _ => false

def text? : Node → Option String
  | .scalar _ _ s => some s
  | _ => none

/-- Whether an optional value is left out; null may be spelled or left empty. -/
def leftOut? : Node → Option Bool
  | .scalar tag style s =>
    if style ≠ .plain then some false
    else
      match tag with
      | some "tag:yaml.org,2002:null" => if isNull s then some true else none
      | some _ => some false
      | none => some (s == "" || isNull s)
  | _ => some false

def optional? {α : Type} (read? : Node → Option α) (n : Node) : Option (Option α) := do
  if ← n.leftOut? then return none else return some (← read? n)

/-- The text of a scalar that may be read as a number or a truth value with the given tag. -/
def bareText? (expected : String) : Node → Option String
  | .scalar tag style s =>
    if style = .plain ∨ (style = .literal ∧ tag = some expected) then some s else none
  | _ => none

/-- A natural number of at most 64 bits; it has no minus sign. -/
def word? (n : Node) : Option UInt64 := do
  let s ← n.bareText? "tag:yaml.org,2002:int"
  if s.toList.head? = some '-' then none
  let i ← integer? s.toList
  if fitsNat64 i.toNat then some (.ofNat i.toNat) else none

def truth? (n : Node) : Option Bool := do bool? (← n.bareText? "tag:yaml.org,2002:bool")

/-- The items of a sequence. -/
def items? (n : Node) : Option (List Node) :=
  match n with
  | .sequence _ items => some items
  | n => if n.isEmpty then some [] else none

def list? {α : Type} (read? : Node → Option α) (n : Node) : Option (List α) := do
  (← n.items?).mapM read?

/-- The members of a record. The names that it has must not be repeated. -/
def members? (names : List String) (n : Node) : Option (List (String × Node)) := do
  let entries ← match n with
    | .mapping _ entries => some entries
    | n => if n.isEmpty then some [] else none
  let members ← entries.mapM fun (k, v) => (k.text?).map fun name => (name, v)
  if names.any fun name => 1 < members.countP (·.1 == name) then none
  return members

/-- A mapping whose keys and values may be of any type. -/
def mapping? (n : Node) : Option Mapping :=
  match n with
  | .mapping _ entries =>
    match h : Value.ofEntries? [] entries with
    | some entries => some ⟨entries, (Value.distinct_of_ofEntries? h).1⟩
    | none => none
  | n => if n.isEmpty then some .empty else none

end Node

/-- A member that has to be there. -/
def required? {α : Type} (members : List (String × Node)) (name : String)
    (read? : Node → Option α) : Option α := do read? (← members.lookup name)

/-- A member with a default. -/
def withDefault? {α : Type} (members : List (String × Node)) (name : String) (default : α)
    (read? : Node → Option α) : Option α :=
  match members.lookup name with
  | some n => read? n
  | none => some default

/-- A member that may be absent or null. -/
def optionalMember? {α : Type} (members : List (String × Node)) (name : String)
    (read? : Node → Option α) : Option (Option α) :=
  withDefault? members name none (Node.optional? read?)

end ProductSpec.Yaml
