/-
  The grammar of placeholders. A text is read as a placeholder just when it is one written out:
  blanks may stand around the type and around the words behind the colon, and nothing else may
  differ from the canonical token.
-/
import ProductSpec.Placeholder
import ProductSpec.Proofs.Outcome
import ProductSpec.Proofs.Text.Words

namespace ProductSpec

open Text

theorem BaseType.ofToken?_eq_some_iff {token : String} {t : BaseType} :
    ofToken? token = some t ↔ token = t.token := by
  constructor
  · intro found
    unfold ofToken? at found
    have same := List.find?_some found
    exact (beq_iff_eq.1 same).symm
  · rintro rfl
    exact ofToken?_token t

namespace Placeholder

/-- The type that a placeholder names, and whether it is that of the elements of an array. -/
inductive TypeWritten : List Char → BaseType → Bool → Prop
  | single (t : BaseType) : TypeWritten t.token.toList t false
  | array (t : BaseType) : TypeWritten ("Array[".toList ++ t.token.toList ++ [']']) t true

/-- The words behind the colon, and whether the attribute is required. -/
inductive EndingWritten : List Char → Bool → Prop
  | required : EndingWritten marker true
  | optional {between : List Char} (blank : AllBlank between) (some : between ≠ []) :
      EndingWritten (marker ++ between ++ optionalWord) false

/-- A placeholder written out. -/
inductive Written : List Char → Placeholder → Prop
  | intro {b₁ b₂ b₃ b₄ type ending : List Char} {t : BaseType} {isArray required : Bool}
      (blank₁ : AllBlank b₁) (blank₂ : AllBlank b₂) (blank₃ : AllBlank b₃) (blank₄ : AllBlank b₄)
      (isType : TypeWritten type t isArray) (isEnding : EndingWritten ending required) :
      Written ('<' :: (b₁ ++ type ++ b₂ ++ ':' :: (b₃ ++ ending ++ b₄)) ++ ['>'])
        ⟨t, isArray, required, true⟩

theorem isWord_marker : IsWord marker := by decide

theorem isWord_optionalWord : IsWord optionalWord := by decide

theorem TypeWritten.isWord {type : List Char} {t : BaseType} {isArray : Bool}
    (h : TypeWritten type t isArray) : IsWord type := by
  cases h <;> cases t <;> decide

theorem TypeWritten.notMem_colon {type : List Char} {t : BaseType} {isArray : Bool}
    (h : TypeWritten type t isArray) : ':' ∉ type := by
  cases h <;> cases t <;> decide

theorem inner?_eq_some_iff {cs inner : List Char} :
    inner? cs = some inner ↔ cs = '<' :: inner ++ ['>'] := by
  unfold inner?
  simp only [Option.bind_eq_bind, Option.bind_eq_some_iff, dropStart?_eq_some_iff,
    dropLast?_eq_some_iff]
  constructor
  · rintro ⟨rest, rfl, rfl⟩
    rfl
  · rintro rfl
    exact ⟨inner ++ ['>'], rfl, rfl⟩

/-- A text is shaped like a placeholder if it begins with `<` and ends with a `>` behind it. -/
theorem isShaped_iff {text : String} :
    isShaped text = true ↔ 2 ≤ text.toList.length ∧ text.toList.head? = some '<' ∧
      text.toList.getLast? = some '>' := by
  unfold isShaped
  rw [Option.isSome_iff_exists]
  constructor
  · rintro ⟨inner, found⟩
    rw [inner?_eq_some_iff.1 found]
    exact ⟨by simp, rfl, List.getLast?_concat⟩
  · rintro ⟨long, first, last⟩
    obtain ⟨tail, form⟩ := List.head?_eq_some_iff.1 first
    rw [form] at long last ⊢
    have filled : tail ≠ [] := by
      rintro rfl
      simp at long
    rw [List.getLast?_cons_of_ne_nil filled] at last
    obtain ⟨inner, rfl⟩ := List.getLast?_eq_some_iff.1 last
    exact ⟨inner, inner?_eq_some_iff.2 rfl⟩

theorem eq_of_arrayElement? {part name : List Char} (h : arrayElement? part = some name) :
    part = "Array[".toList ++ name ++ [']'] := by
  unfold arrayElement? at h
  simp only [Option.bind_eq_bind, Option.bind_eq_some_iff, dropStart?_eq_some_iff,
    dropLast?_eq_some_iff] at h
  obtain ⟨rest, rfl, inside, rfl, kept⟩ := h
  split at kept
  · cases kept
  · cases kept
    rw [List.append_assoc]

/-- A type is read from the texts that name one. -/
theorem typeName?_iff {part : List Char} {t : BaseType} {isArray : Bool} :
    (∃ name, typeName? part = some (name, isArray) ∧
        BaseType.ofToken? (String.ofList name) = some t) ↔ TypeWritten part t isArray := by
  constructor
  · rintro ⟨name, found, isToken⟩
    have named : name = t.token.toList := by
      rw [← BaseType.ofToken?_eq_some_iff.1 isToken, String.toList_ofList]
    unfold typeName? at found
    split at found
    · next inside =>
      cases found
      rw [eq_of_arrayElement? inside, named]
      exact .array t
    · split at found
      · cases found
      · cases found
        exact named ▸ .single t
  · intro written
    have isToken : BaseType.ofToken? (String.ofList t.token.toList) = some t := by
      rw [String.ofList_toList, BaseType.ofToken?_token]
    cases written with
    | single => exact ⟨_, by cases t <;> decide, isToken⟩
    | array => exact ⟨_, by cases t <;> decide, isToken⟩

theorem parseMarker_eq_ok_iff {found : List (List Char)} {required : Bool} :
    parseMarker found = .ok required ↔
      required = true ∧ found = [marker] ∨ required = false ∧ found = [marker, optionalWord] := by
  constructor
  · intro read
    unfold parseMarker at read
    split at read
    · cases read
    · next first rest =>
      split at read
      · cases read
      · next isMarker =>
        rw [not_not.1 isMarker]
        split at read
        · cases read
          exact .inl ⟨rfl, rfl⟩
        · next second more =>
          split at read
          · cases read
          · next isOptional =>
            rw [not_not.1 isOptional]
            split at read
            · cases read
              exact .inr ⟨rfl, rfl⟩
            · cases read
  · rintro (⟨rfl, rfl⟩ | ⟨rfl, rfl⟩) <;> decide

/-- The text behind the colon is read if it is an ending with blanks around it. -/
theorem parseMarker_words_iff {cs : List Char} {required : Bool} :
    parseMarker (words cs) = .ok required ↔ ∃ before ending after, AllBlank before ∧
      AllBlank after ∧ EndingWritten ending required ∧ cs = before ++ ending ++ after := by
  rw [parseMarker_eq_ok_iff, words_eq_single_iff isWord_marker,
    words_eq_pair_iff isWord_marker isWord_optionalWord]
  constructor
  · rintro (⟨rfl, before, after, blank, blank', form⟩ |
      ⟨rfl, before, between, after, blank, inner, some, blank', form⟩)
    · exact ⟨before, marker, after, blank, blank', .required, form⟩
    · exact ⟨before, _, after, blank, blank', .optional inner some, form⟩
  · rintro ⟨before, ending, after, blank, blank', isEnding, form⟩
    cases isEnding with
    | required => exact .inl ⟨rfl, before, after, blank, blank', form⟩
    | optional inner some => exact .inr ⟨rfl, before, _, after, blank, inner, some, blank', form⟩

/-- What a successful reading has read. -/
theorem parseChars_eq_ok_iff {cs : List Char} {p : Placeholder} :
    parseChars cs = .ok p ↔ ∃ inner typePart rest, inner? cs = some inner ∧
      splitFirst ':' inner = some (typePart, rest) ∧
      TypeWritten (trim typePart) p.baseType p.isArray ∧
      parseMarker (words rest) = .ok p.required ∧ p.derivedFromFile = true := by
  unfold parseChars
  constructor
  · intro read
    split at read
    · next inner delimited =>
      split at read
      · next typePart rest cut =>
        dsimp only at read
        split at read
        · next name isArray named =>
          split at read
          · next t isToken =>
            obtain ⟨required, isEnding, made⟩ := bind_eq_ok.1 read
            cases made
            exact ⟨inner, typePart, rest, delimited, cut, typeName?_iff.1 ⟨name, named, isToken⟩,
              isEnding, rfl⟩
          · cases read
        · cases read
      · cases read
    · cases read
  · rintro ⟨inner, typePart, rest, delimited, cut, isType, isEnding, derived⟩
    obtain ⟨name, named, isToken⟩ := typeName?_iff.2 isType
    obtain ⟨t, isArray, required, fromFile⟩ := p
    cases derived
    simp only [delimited, cut, named, isToken]
    exact bind_eq_ok.2 ⟨required, isEnding, rfl⟩

theorem parse_eq_ok_iff {text : String} {p : Placeholder} :
    parse text = .ok p ↔ Written text.toList p := by
  unfold parse
  rw [parseChars_eq_ok_iff]
  simp only [inner?_eq_some_iff, splitFirst_eq_some_iff, parseMarker_words_iff]
  constructor
  · rintro ⟨_, typePart, _, form, ⟨-, rfl⟩, isType, ⟨b₃, ending, b₄, blank₃, blank₄, isEnding, rfl⟩,
      isDerived⟩
    obtain ⟨b₁, b₂, blank₁, blank₂, padded⟩ := exists_trim typePart
    obtain ⟨t, isArray, required, derived⟩ := p
    cases isDerived
    rw [form, padded]
    exact .intro blank₁ blank₂ blank₃ blank₄ isType isEnding
  · intro written
    generalize text.toList = cs at written
    cases written with
    | @intro b₁ b₂ b₃ b₄ type ending _ _ _ blank₁ blank₂ blank₃ blank₄ isType isEnding =>
      have noColon : ':' ∉ b₁ ++ type ++ b₂ := by
        simp only [List.mem_append, not_or]
        exact ⟨⟨blank₁.notMem rfl, isType.notMem_colon⟩, blank₂.notMem rfl⟩
      refine ⟨_, b₁ ++ type ++ b₂, _, rfl, ⟨noColon, rfl⟩, ?_, ⟨b₃, ending, b₄, blank₃, blank₄,
        isEnding, rfl⟩, rfl⟩
      rw [trim_padded isType.isWord.isTrimmed blank₁ blank₂]
      exact isType

theorem parseMarker_ne_notDelimited (found : List (List Char)) :
    parseMarker found ≠ .error .notDelimited := by
  unfold parseMarker
  split
  · nofun
  · split
    · nofun
    · split
      · nofun
      · split
        · nofun
        · split <;> nofun

/-- A reading fails for want of delimiters if and only if the text is not shaped like a
placeholder: whatever else is wrong with a text is told by another error. -/
theorem parse_eq_notDelimited_iff {text : String} :
    parse text = .error .notDelimited ↔ isShaped text = false := by
  unfold parse parseChars isShaped
  cases inner? text.toList with
  | none => exact ⟨fun _ => rfl, fun _ => rfl⟩
  | some inner =>
    refine ⟨fun failed => ?_, nofun⟩
    dsimp only at failed
    split at failed
    · next typePart rest cut =>
      split at failed
      · split at failed
        · cases read : parseMarker (words rest) with
          | ok required =>
            rw [read] at failed
            cases failed
          | error e =>
            rw [read] at failed
            cases failed
            exact absurd read (parseMarker_ne_notDelimited _)
        · cases failed
      · cases failed
    · cases failed

/-- The canonical token of a placeholder is one written out. -/
theorem written_token {p : Placeholder} (derived : p.derivedFromFile = true) :
    Written p.token.toList p := by
  obtain ⟨t, isArray, required, fromFile⟩ := p
  cases derived
  have single : AllBlank [' '] := by decide
  have isType : TypeWritten
      (if isArray then "Array[" ++ t.token ++ "]" else t.token).toList t isArray := by
    cases isArray with
    | false => exact .single t
    | true =>
      rw [if_pos rfl, String.toList_append, String.toList_append]
      exact .array t
  have isEnding : EndingWritten (marker ++ (if required then "" else " optional").toList)
      required := by
    cases required with
    | true => exact .required
    | false => exact .optional single (List.cons_ne_nil _ _)
  have written := Written.intro .nil .nil single .nil isType isEnding
  have opening : "<".toList = ['<'] := rfl
  have colon : ": derived_from_file".toList = ':' :: ' ' :: marker := by decide
  have closing : ">".toList = ['>'] := rfl
  unfold token
  simp only [String.toList_append, opening, colon, closing]
  simpa only [List.nil_append, List.append_nil, List.cons_append, List.append_assoc] using written

/-- A text is read as a placeholder if and only if it is that placeholder written out, whatever was
read has a token that is read the same, and only a text without its delimiters is refused for the
want of them. -/
theorem parse_exactly (text : String) :
    (∀ p, parse text = .ok p ↔ Written text.toList p) ∧
      (∀ p, parse text = .ok p → parse p.token = .ok p) ∧
      (parse text = .error .notDelimited ↔ isShaped text = false) ∧
      (isShaped text = true ↔ 2 ≤ text.toList.length ∧ text.toList.head? = some '<' ∧
        text.toList.getLast? = some '>') := by
  refine ⟨fun p => parse_eq_ok_iff, fun p read => ?_, parse_eq_notDelimited_iff, isShaped_iff⟩
  obtain ⟨-, -, -, -, -, -, -, derived⟩ := parseChars_eq_ok_iff.1 read
  exact parse_eq_ok_iff.2 (written_token derived)

/-- There is no place for blanks inside the brackets. -/
example : parse "<Array[ int32]: derived_from_file>" = .error (.unknownBaseType " int32") := by
  decide +kernel

/-- A token with blanks of several kinds, in every place where some may stand. -/
def wideToken : String := "<\u3000Array[int32] :\tderived_from_file\n optional >"

theorem parse_exactly_wideToken :
    Written wideToken.toList ⟨.int32, true, false, true⟩ ∧
      parse "<Array[int32]: derived_from_file optional>" = .ok ⟨.int32, true, false, true⟩ := by
  have read : parse wideToken = .ok ⟨.int32, true, false, true⟩ := by decide +kernel
  have canonical : token ⟨.int32, true, false, true⟩ =
      "<Array[int32]: derived_from_file optional>" := by decide +kernel
  obtain ⟨written, again, -⟩ := parse_exactly wideToken
  rw [← canonical]
  exact ⟨(written _).1 read, again _ read⟩

end Placeholder

end ProductSpec
