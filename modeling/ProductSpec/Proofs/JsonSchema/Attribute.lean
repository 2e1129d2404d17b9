/-
  The schema of one constraint: it speaks of the types of a plain value only.
-/
import ProductSpec.Proofs.JsonSchema.Keywords

namespace ProductSpec

open JsonSchema

namespace AttributeConstraint

variable {follow : Follow} {location : List Step} {c : AttributeConstraint}

theorem violations_schema_literal {l : Literal} (kind : c.kind = .literal l) (value : Json) :
    violationsWith follow location value c.schema =
      (typeFaults value l.schemaTypes).map fun f => ⟨location, f⟩ := by
  unfold schema
  rw [kind]
  dsimp only
  split
  · next t same =>
    rw [violationsWith_object rfl, same]
    exact List.append_nil _
  · rw [violationsWith_object rfl]
    show (typeFaults value ((texts? (texts l.schemaTypes)).getD [])).map _ ++ [] = _
    rw [texts?_texts, List.append_nil]
    rfl

/-- The types of single values that conform to a placeholder. -/
def scalarTypes (t : BaseType) : List String :=
  if t.isFloat then ["number", "null"] else [t.jsonType]

theorem violations_schemaType (t : BaseType) (value : Json) :
    violationsWith follow location value (.object [("type", t.schemaType)]) =
      (typeFaults value (scalarTypes t)).map fun f => ⟨location, f⟩ := by
  rw [violationsWith_object rfl]
  cases t <;> exact List.append_nil _

theorem schema_placeholder {p : Placeholder} (kind : c.kind = .placeholder p) :
    c.schema =
      if p.isArray then
        .object [("anyOf", .array [.object [("type", p.baseType.schemaType)],
          .object [("items", .object [("type", p.baseType.schemaType)]),
            ("type", .text "array")]])]
      else .object [("type", p.baseType.schemaType)] := by
  unfold schema
  rw [kind]

/-- A value has no violation of the schema, or one of its type. -/
theorem violations_schema_cases (c : AttributeConstraint) (value : Json) :
    violationsWith follow location value c.schema = [] ∨
      (∃ types, violationsWith follow location value c.schema =
        [⟨location, .wrongType value types⟩]) ∨
      violationsWith follow location value c.schema = [⟨location, .noAlternative value⟩] := by
  have ofTypes : ∀ types, (typeFaults value types).map (fun f => (⟨location, f⟩ : Violation)) = [] ∨
      (typeFaults value types).map (fun f => (⟨location, f⟩ : Violation)) =
        [⟨location, .wrongType value types⟩] := by
    intro types
    unfold typeFaults
    split
    · exact .inl rfl
    · exact .inr rfl
  cases kind : c.kind with
  | literal l =>
    rw [violations_schema_literal kind]
    exact (ofTypes _).imp_right fun wrong => .inl ⟨_, wrong⟩
  | placeholder p =>
    rw [schema_placeholder kind]
    split
    · rw [violationsWith_object rfl, List.flatMap_cons, List.flatMap_nil, List.append_nil,
        ofKeyword_anyOf]
      split
      · exact .inl rfl
      · exact .inr (.inr rfl)
    · rw [violations_schemaType]
      exact (ofTypes _).imp_right fun wrong => .inl ⟨_, wrong⟩

end AttributeConstraint

end ProductSpec
