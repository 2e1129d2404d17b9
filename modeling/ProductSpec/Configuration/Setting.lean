/-
  Settings: values from files and from the environment, laid over each other. A later value takes
  the place of an earlier one, and tables are joined. A setting is read leniently: numbers, truth
  values and their texts stand for each other.
-/
import ProductSpec.Json.Decode
import ProductSpec.Text.Split

namespace ProductSpec.Setting

open Json Number

/-- The names in a table, which are those of its members in small letters. -/
def membersOf : Json → List (String × Json)
  | .object members => members
  | _ => []

mutual

/-- A value laid over what was there before. -/
def overlay (old : Option Json) : Json → Json
  | .object [] => old.getD (.object [])
  | .object (member :: rest) =>
    .object (overlayMembers ((old.map membersOf).getD []) (member :: rest))
  | value => value

def overlayMembers (old : List (String × Json)) : List (String × Json) → List (String × Json)
  | [] => old
  | (name, value) :: rest =>
    let name := name.toLower
    overlayMembers (insertEntry name (overlay (old.lookup name) value) old) rest

end

/-- Lays a value over what is at a place. Whatever is on the way becomes a table. -/
def overlayAt (value : Json) : List String → Option Json → Json
  | [], old => overlay old value
  | name :: rest, old =>
    let members := (old.map membersOf).getD []
    let name := name.toLower
    .object (insertEntry name (overlayAt value rest (members.lookup name)) members)

def isNameChar (c : Char) : Bool := c.isAlphanum || c == '_' || c == '-'

/-- The place that a name with points stands for. Any other name stands for itself. -/
def place (name : String) : List String :=
  let parts := Text.split '.' name.toList
  if parts.all fun part => !part.isEmpty && part.all isNameChar then parts.map String.ofList
  else [name]

/-- Settings under names laid over others. -/
def overlayAll (old : Json) (entries : List (String × Json)) : Json :=
  entries.foldl (fun j (name, value) => overlayAt value (place name) (some j)) old

/-- What a setting is as a text. -/
def text : Json → Decoded String
  | .text s => .ok s
  | .bool b => .ok (if b then "true" else "false")
  | .int n => .ok (toString n)
  | .float x => .ok x.display
  | _ => .error .shape

def truthWord? (s : String) : Option Bool :=
  if ["true", "on", "yes"].contains s then some true
  else if ["false", "off", "no"].contains s then some false
  else none

/-- What a setting is as a truth value. Of the numbers only zero is false. -/
def truth : Json → Decoded Bool
  | .bool b => .ok b
  | .int n => .ok (n != 0)
  | .float x => .ok (x.isNaN || !x.isFinite || x.units != 0)
  | .text s =>
    let s := s.toLower
    if s = "1" then .ok true
    else if s = "0" then .ok false
    else
      match truthWord? s with
      | some b => .ok b
      | none => .error .shape
  | _ => .error .shape

/-- The nearest natural number of 64 bits to a float, a half going up. -/
def nearest : Double → Nat
  | .nan => 0
  | .infinite negative => if negative then 0 else maxNat64
  | .finite negative significand shift _ =>
    if negative then 0
    else min maxNat64
        (((2 * significand) <<< shift + 1 <<< double.scale) >>> (double.scale + 1))

/-- A natural number of 64 bits as it is written, with or without a plus sign. -/
def natural? (s : String) : Option Nat :=
  let digits := (Text.dropStart? ['+'] s.toList).getD s.toList
  if digits.isEmpty ∨ !digits.all Char.isDigit then none
  else
    let n := digits.foldl (fun n c => 10 * n + (c.toNat - 48)) 0
    if fitsNat64 n then some n else none

/-- What a setting is as a natural number. -/
def natural : Json → Decoded Nat
  | .int n => if 0 ≤ n then .ok n.toNat else .error .shape
  | .float x => .ok (nearest x)
  | .bool b => .ok b.toNat
  | .text s =>
    match (truthWord? s.toLower).map Bool.toNat |>.or (natural? s) with
    | some n => .ok n
    | none => .error .shape
  | _ => .error .shape

/-- A choice by its name, in letters of any size. The name may be the only one in a table. -/
def choice {α : Type} (ofName? : String → Option α) (j : Json) : Decoded α :=
  let name? := match j with
    | .text s => some s
    | .object [(s, _)] => some s
    | _ => none
  match name?.bind fun s => ofName? s.toLower with
  | some value => .ok value
  | none => .error .shape

end ProductSpec.Setting
