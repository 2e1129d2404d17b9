/-
  What a schema says of a value, keyword by keyword. An object that is keyed by the names of parts
  is checked part by part: a part that is there against its own schema, and one that is not there
  is missing if it has to be.
-/
import ProductSpec.JsonSchema.Check
import ProductSpec.JsonSchema.Derive
import ProductSpec.Proofs.NameMap
import ProductSpec.Proofs.Names
import Mathlib.Data.List.Perm.Basic

namespace ProductSpec

section Maps

variable {α : Type}

theorem insertEntry_perm {name : String} {value : α} {entries : List (String × α)}
    (fresh : name ∉ entries.map Prod.fst) :
    (insertEntry name value entries).Perm ((name, value) :: entries) := by
  induction entries with
  | nil => exact .refl _
  | cons e rest ih =>
    rw [List.map_cons, List.mem_cons, not_or] at fresh
    unfold insertEntry
    split
    · exact .refl _
    · rw [if_neg fresh.1]
      exact ((ih fresh.2).cons e).trans (.swap ..)

namespace NameMap

theorem perm_foldl_insert {entries : List (String × α)} {m : NameMap α}
    (distinct : ((m.entries ++ entries).map Prod.fst).Nodup) :
    (entries.foldl (fun m e => m.insert e.1 e.2) m).entries.Perm (m.entries ++ entries) := by
  induction entries generalizing m with
  | nil =>
    rw [List.append_nil]
    exact .refl _
  | cons e rest ih =>
    have fresh : e.1 ∉ m.entries.map Prod.fst := by
      rw [List.map_append, List.map_cons] at distinct
      intro taken
      exact (List.nodup_append.1 distinct).2.2 _ taken _ List.mem_cons_self rfl
    have step : (m.insert e.1 e.2).entries.Perm (e :: m.entries) := insertEntry_perm fresh
    have moved : ((m.insert e.1 e.2).entries ++ rest).Perm (m.entries ++ e :: rest) :=
      (step.append_right rest).trans List.perm_middle.symm
    exact (ih ((moved.map Prod.fst).nodup_iff.2 distinct)).trans moved

/-- Where no name occurs twice, a map made from a list holds the list. -/
theorem perm_ofList {entries : List (String × α)} (distinct : (entries.map Prod.fst).Nodup) :
    (ofList entries).entries.Perm entries :=
  perm_foldl_insert distinct

theorem get?_mapValues {β : Type} (m : NameMap α) (f : α → β) (name : String) :
    (m.mapValues f).get? name = (m.get? name).map f := by
  show List.lookup name (m.entries.map fun e => (e.1, f e.2)) = (List.lookup name m.entries).map f
  induction m.entries with
  | nil => rfl
  | cons e rest ih =>
    rw [List.map_cons, lookup_cons, lookup_cons, ih]
    split <;> rfl

end NameMap

end Maps

/-- What is stored of each item is found under the name of the item. -/
theorem Json.member?_ofMembers {α : Type} {name : α → String} {items : List α}
    (distinct : (items.map name).Nodup) (value : α → Json) (label : String) :
    (Json.ofMembers (items.map fun x => (name x, value x))).member? label =
      (items.find? fun x => name x == label).map value := by
  have names : (items.map fun x => (name x, value x)).map Prod.fst = items.map name := by
    rw [List.map_map]
    rfl
  show (NameMap.ofList _).get? label = _
  by_cases stored : label ∈ items.map name
  · obtain ⟨x, mem, rfl⟩ := List.mem_map.1 stored
    rw [find?_name distinct mem]
    exact NameMap.get?_foldl_insert_of_mem (names ▸ distinct)
      (List.mem_map_of_mem (f := fun x => (name x, value x)) mem)
  · rw [find?_name_eq_none stored]
    exact NameMap.get?_foldl_insert_of_notMem (names ▸ stored)

namespace JsonSchema

variable {follow : Follow} {location : List Step} {value : Json}

theorem texts?_texts (names : List String) : texts? (texts names) = some names := by
  show (names.map Json.text).mapM Json.asText? = some names
  induction names with
  | nil => rfl
  | cons name rest ih => simp [ih, Json.asText?]

/-- What one keyword of a schema finds in a value. -/
def ofKeyword (follow : Follow) (location : List Step) (value : Json) (keyword : String)
    (argument : Json) : List Violation :=
  match keyword with
  | "properties" => propertyViolations follow location value argument
  | "items" => itemViolations follow location value argument
  | "anyOf" =>
    if isAnyOf follow location value argument then [] else [⟨location, .noAlternative value⟩]
  | _ => (plainFaults keyword argument value).map fun f => ⟨location, f⟩

theorem ofKeyword_anyOf (argument : Json) :
    ofKeyword follow location value "anyOf" argument =
      if isAnyOf follow location value argument then [] else [⟨location, .noAlternative value⟩] :=
  rfl

theorem keywordViolations_eq (members : List (String × Json)) :
    keywordViolations follow location value members =
      members.flatMap fun m => ofKeyword follow location value m.1 m.2 := by
  induction members with
  | nil => rw [keywordViolations, List.flatMap_nil]
  | cons m rest ih =>
    rw [keywordViolations.eq_def, List.flatMap_cons, ← ih]
    rfl

theorem violationsWith_object {members : List (String × Json)}
    (standsAlone : members.lookup "$ref" = none) :
    violationsWith follow location value (.object members) =
      members.flatMap fun m => ofKeyword follow location value m.1 m.2 := by
  rw [violationsWith, standsAlone]
  exact keywordViolations_eq members

theorem memberViolations_eq (members properties : List (String × Json)) :
    memberViolations follow location members properties = properties.flatMap fun p =>
      match members.lookup p.1 with
      | some value => violationsWith follow (location ++ [.name p.1]) value p.2
      | none => [] := by
  induction properties with
  | nil => rw [memberViolations, List.flatMap_nil]
  | cons p rest ih =>
    rw [List.flatMap_cons, ← ih]
    exact memberViolations.eq_def follow location members (p :: rest)

/-- A schema with a description stands alone if the rest of it does, and the description says
nothing about a value. -/
theorem violationsWith_described (i : NodeInfo) {members : List (String × Json)}
    (standsAlone : members.lookup "$ref" = none) :
    violationsWith follow location value (.object (description i ++ members)) =
      members.flatMap fun m => ofKeyword follow location value m.1 m.2 := by
  unfold description
  cases i.description with
  | none => exact violationsWith_object standsAlone
  | some text =>
    rw [violationsWith_object]
    · rfl
    · exact standsAlone

/-- What the schema of an object says of one: what is wrong with its members, and which are
missing. -/
theorem ofKeyword_object (members properties : List (String × Json)) (required : List String) :
    ((object (.object properties) required).flatMap fun m =>
        ofKeyword follow location (.object members) m.1 m.2) =
      memberViolations follow location members properties ++
        (requiredFaults (.object members) required).map fun f => ⟨location, f⟩ := by
  show propertyViolations follow location (.object members) (.object properties) ++
    (((requiredFaults (.object members) ((texts? (texts required)).getD [])).map _) ++ []) = _
  rw [texts?_texts, List.append_nil, propertyViolations]
  rfl

/-- What is wrong with one part of an object, which may not be there. -/
def partViolations (follow : Follow) (location : List Step) (name : String) (isRequired : Bool)
    (value? : Option Json) (schema : Json) : List Violation :=
  match value? with
  | some value => violationsWith follow (location ++ [.name name]) value schema
  | none => if isRequired then [⟨location, .missing name⟩] else []

theorem map_filter_eq_flatMap {α β : Type} (keep : α → Bool) (f : α → β) (items : List α) :
    (items.filter keep).map f = items.flatMap fun x => if keep x then [f x] else [] := by
  induction items with
  | nil => rfl
  | cons x rest ih =>
    rw [List.filter_cons, List.flatMap_cons, ← ih]
    split <;> rfl

/-- An object that is keyed by names has the violations of its parts. -/
theorem violations_keyed {α : Type} {items : List α} {name : α → String} (follow : Follow)
    (location : List Step) (distinct : (items.map name).Nodup) (isRequired : α → Bool)
    (schema : α → Json) (members : List (String × Json)) :
    (violationsWith follow location (.object members)
        (keyed (items.map fun x => (name x, schema x)) ((items.filter isRequired).map name))).Perm
      (items.flatMap fun x =>
        partViolations follow location (name x) (isRequired x) (members.lookup (name x))
          (schema x)) := by
  have names : (items.map fun x => (name x, schema x)).map Prod.fst = items.map name := by
    rw [List.map_map]
    rfl
  have stored : (memberViolations follow location members
      (NameMap.ofList (items.map fun x => (name x, schema x))).entries).Perm
      (items.flatMap fun x => match members.lookup (name x) with
        | some value => violationsWith follow (location ++ [.name (name x)]) value (schema x)
        | none => []) := by
    rw [memberViolations_eq]
    refine ((NameMap.perm_ofList (names ▸ distinct)).flatMap_right _).trans ?_
    rw [List.flatMap_map]
  have absent : (requiredFaults (.object members) ((items.filter isRequired).map name)).map
        (fun f => (⟨location, f⟩ : Violation)) =
      items.flatMap fun x =>
        if isRequired x && (members.lookup (name x)).isNone then [⟨location, .missing (name x)⟩]
        else [] := by
    unfold requiredFaults
    dsimp only
    rw [List.filter_map, List.filter_filter, List.map_map, List.map_map, map_filter_eq_flatMap]
    simp only [Bool.and_comm, Function.comp_apply]
  have each : ∀ x, (partViolations follow location (name x) (isRequired x)
        (members.lookup (name x)) (schema x)) =
      (match members.lookup (name x) with
        | some value => violationsWith follow (location ++ [.name (name x)]) value (schema x)
        | none => []) ++
      if isRequired x && (members.lookup (name x)).isNone then [⟨location, .missing (name x)⟩]
      else [] := by
    intro x
    unfold partViolations
    cases members.lookup (name x) <;> simp
  rw [keyed, violationsWith_object rfl, Json.ofMembers, ofKeyword_object, absent]
  simp only [each]
  exact (stored.append_right _).trans (List.flatMap_append_perm items _ _)

end JsonSchema

end ProductSpec
