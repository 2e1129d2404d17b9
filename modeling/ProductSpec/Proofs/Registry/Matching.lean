/-
  Which projects a file follows by the conventions that it names. Specifications are told by how
  they are written, the conventions of a file by how a text is cut into them, and the projects of a
  registry by the order in which they were added.
-/
import ProductSpec.Registry.Basic
import ProductSpec.Proofs.NameMap
import ProductSpec.Proofs.Text.Words

namespace ProductSpec

open Text

namespace ConventionSpec

/-- How the version numbers of a specification are written. -/
def versionForm (major minor : Bool) : List Char :=
  (if major then "-[]".toList else []) ++ (if minor then ".[]".toList else [])

/-- How a specification is written. -/
def form (s : ConventionSpec) : List Char := s.name.toList ++ versionForm s.hasMajor s.hasMinor

/-- The specifications that can be written: a name is some letters and digits, and a minor version
number stands behind a major one. -/
structure Writable (s : ConventionSpec) : Prop where
  named : s.name.toList ≠ []
  plain : ∀ c ∈ s.name.toList, c.isAlphanum = true
  ordered : s.hasMinor = true → s.hasMajor = true

/-- A version number behind its mark, or nothing where there is none. -/
def IsNumber (mark : Char) (present : Bool) (part : List Char) : Prop :=
  if present then
    ∃ digits, digits ≠ [] ∧ (∀ d ∈ digits, isDecimalDigit d = true) ∧ part = mark :: digits
  else part = []

/-- The conventions that name a project: its name comes first, then the version numbers that it
has, and then the convention ends or goes on with `-` or `.`. -/
def Names (s : ConventionSpec) (convention : List Char) : Prop :=
  ∃ major minor rest, convention = s.name.toList ++ (major ++ (minor ++ rest)) ∧
    IsNumber '-' s.hasMajor major ∧ IsNumber '.' s.hasMinor minor ∧
    ∀ c ∈ rest.head?, c = '-' ∨ c = '.'

section Parse

variable {s : ConventionSpec} {text : String}

theorem isBlank_of_isAlphanum {c : Char} (h : c.isAlphanum = true) : isBlank c = false := by
  change (decide (c.val ≥ 'A'.val ∧ c.val ≤ 'Z'.val) || c.val ≥ 'a'.val && c.val ≤ 'z'.val ||
    c.val ≥ '0'.val && c.val ≤ '9'.val) = true at h
  simp only [Bool.or_eq_true, Bool.and_eq_true, decide_eq_true_eq] at h
  change ((65 ≤ c.toNat ∧ c.toNat ≤ 90) ∨ (97 ≤ c.toNat ∧ c.toNat ≤ 122)) ∨
    (48 ≤ c.toNat ∧ c.toNat ≤ 57) at h
  simp only [isBlank, Bool.or_eq_false_iff, Bool.and_eq_false_iff, decide_eq_false_iff_not,
    beq_eq_false_iff_ne]
  omega

theorem Writable.isTrimmed_form (h : s.Writable) : IsTrimmed s.form := by
  have versions (major minor : Bool) : (versionForm major minor).any isBlank = false := by
    cases major <;> cases minor <;> rfl
  have word : IsWord s.form := by
    refine ⟨List.append_ne_nil_of_left_ne_nil h.named _, fun c mem => ?_⟩
    rcases List.mem_append.1 mem with mem | mem
    · exact isBlank_of_isAlphanum (h.plain c mem)
    · exact Bool.eq_false_iff.2 (List.any_eq_false.1 (versions _ _) c mem)
  exact word.isTrimmed

theorem parse?_eq_some_iff : parse? text = some s ↔ s.Writable ∧ trim text.toList = s.form := by
  constructor
  · intro h
    -- What is read is written in the same way, whichever version numbers there are.
    have written (major minor : Bool) (ordered : minor = true → major = true)
        (named : ¬ ((trim text.toList).takeWhile Char.isAlphanum).isEmpty = true)
        (version : (trim text.toList).dropWhile Char.isAlphanum = versionForm major minor)
        (read : some ⟨String.ofList ((trim text.toList).takeWhile Char.isAlphanum), major, minor⟩ =
          some s) : s.Writable ∧ trim text.toList = s.form := by
      cases read
      refine ⟨⟨?_, ?_, ordered⟩, ?_⟩
      · rw [String.toList_ofList]
        exact mt List.isEmpty_iff.2 named
      · rw [String.toList_ofList]
        exact fun _ => List.mem_takeWhile_imp
      · rw [form, ← version, String.toList_ofList, List.takeWhile_append_dropWhile]
    unfold parse? at h
    dsimp only at h
    split at h
    · cases h
    · next named =>
      split at h
      · next version => exact written false false nofun named version h
      · split at h
        · next version => exact written true false nofun named version h
        · split at h
          · next version => exact written true true (fun _ => rfl) named version h
          · cases h
  · rintro ⟨⟨named, plain, ordered⟩, text_eq⟩
    obtain ⟨name, major, minor⟩ := s
    have marks (major minor : Bool) :
        ∀ c ∈ (versionForm major minor).head?, c.isAlphanum = false := by
      cases major <;> cases minor <;> rintro c ⟨⟩ <;> rfl
    obtain ⟨name_eq, version_eq⟩ := takeWhile_append_of_stop plain (marks major minor)
    unfold parse?
    dsimp only at named ⊢
    rw [text_eq, form, name_eq, version_eq, if_neg (by simpa using named), String.ofList_toList]
    cases major with
    | false =>
      cases minor with
      | false => rfl
      | true => cases ordered rfl
    | true => cases minor <;> rfl

end Parse

section Numbers

variable {mark : Char} {present : Bool} {cs rest : List Char}

theorem isBoundary_iff : isBoundary rest = true ↔ ∀ c ∈ rest.head?, c = '-' ∨ c = '.' := by
  cases rest <;> simp [isBoundary]

theorem dropNumber?_append {digits : List Char} (nonempty : digits ≠ [])
    (all : ∀ d ∈ digits, isDecimalDigit d = true)
    (stop : ∀ c ∈ rest.head?, isDecimalDigit c = false) :
    dropNumber? mark (mark :: digits ++ rest) = some rest := by
  obtain ⟨d, tail, rfl⟩ := List.exists_cons_of_ne_nil nonempty
  have first : isDecimalDigit d = true := all d List.mem_cons_self
  have behind := (takeWhile_append_of_stop all stop).2
  simp only [dropNumber?, List.cons_append, dropStart?, if_pos] at behind ⊢
  simp [first, behind]

theorem isNumber_of_dropNumber? (h : dropNumber? mark cs = some rest) :
    ∃ part, IsNumber mark true part ∧ cs = part ++ rest := by
  obtain ⟨behind, found, dropped⟩ := Option.bind_eq_some_iff.1 h
  obtain rfl := dropStart?_eq_some_iff.1 found
  split at dropped
  · next first =>
    cases dropped
    refine ⟨mark :: behind.takeWhile isDecimalDigit, ?_, ?_⟩
    · refine ⟨_, ?_, fun _ => List.mem_takeWhile_imp, rfl⟩
      cases behind with
      | nil => cases first
      | cons d tail =>
        rw [List.takeWhile_cons_of_pos (p := isDecimalDigit) first]
        exact List.cons_ne_nil _ _
    · simp
  · cases dropped

/-- A version number is dropped if it has to be there. -/
theorem isNumber_of_drop (h : (if present then dropNumber? mark cs else some cs) = some rest) :
    ∃ part, IsNumber mark present part ∧ cs = part ++ rest := by
  cases present with
  | false => exact ⟨[], rfl, Option.some.inj h⟩
  | true => exact isNumber_of_dropNumber? h

theorem drop_of_isNumber {part : List Char} (h : IsNumber mark present part)
    (stop : ∀ c ∈ rest.head?, isDecimalDigit c = false) :
    (if present then dropNumber? mark (part ++ rest) else some (part ++ rest)) = some rest := by
  cases present with
  | false =>
    cases h
    rfl
  | true =>
    obtain ⟨digits, nonempty, all, rfl⟩ := h
    exact dropNumber?_append nonempty all stop

end Numbers

/-- A convention is compared with a specification from the left. A version number can be read in
one way only, since no digit follows it. -/
theorem matches_iff {s : ConventionSpec} {convention : String} :
    s.matches convention = true ↔ s.Names convention.toList := by
  have held (o : Option (List Char)) : (o.map isBoundary).getD false = true ↔
      ∃ rest, o = some rest ∧ isBoundary rest = true := by
    cases o <;> simp
  have steps : s.matches convention = true ↔ ∃ rest,
      (∃ afterName, dropStart? s.name.toList convention.toList = some afterName ∧
        ∃ afterMajor,
          (if s.hasMajor then dropNumber? '-' afterName else some afterName) = some afterMajor ∧
          (if s.hasMinor then dropNumber? '.' afterMajor else some afterMajor) = some rest) ∧
      isBoundary rest = true := by
    unfold «matches»
    dsimp only
    rw [held]
    cases s.hasMajor <;> cases s.hasMinor <;> simp [Option.bind_eq_some_iff]
  rw [steps]
  constructor
  · rintro ⟨rest, ⟨afterName, named, afterMajor, majorRead, minorRead⟩, boundary⟩
    obtain ⟨major, isMajor, rfl⟩ := isNumber_of_drop majorRead
    obtain ⟨minor, isMinor, rfl⟩ := isNumber_of_drop minorRead
    exact ⟨major, minor, rest, dropStart?_eq_some_iff.1 named, isMajor, isMinor,
      isBoundary_iff.1 boundary⟩
  · rintro ⟨major, minor, rest, form, isMajor, isMinor, boundary⟩
    have marks : isDecimalDigit '-' = false ∧ isDecimalDigit '.' = false := by decide
    have stop : ∀ c ∈ rest.head?, isDecimalDigit c = false := by
      intro c mem
      rcases boundary c mem with rfl | rfl
      · exact marks.1
      · exact marks.2
    have stop' : ∀ c ∈ (minor ++ rest).head?, isDecimalDigit c = false := by
      unfold IsNumber at isMinor
      split at isMinor
      · obtain ⟨digits, -, -, rfl⟩ := isMinor
        intro c mem
        cases mem
        exact marks.2
      · rwa [isMinor]
    exact ⟨rest, ⟨_, dropStart?_eq_some_iff.2 form, _, drop_of_isNumber isMajor stop',
      drop_of_isNumber isMinor stop⟩, isBoundary_iff.2 boundary⟩

end ConventionSpec

namespace Registry

variable {r : Registry} {p : RegisteredProject} {added : List RegisteredProject}

/-- A registry after some projects were added to it, with the last one first. -/
inductive Built : List RegisteredProject → Registry → Prop
  | empty : Built [] empty
  | add {added : List RegisteredProject} {r r' : Registry} {p : RegisteredProject} {text : String}
      {force : Bool} : Built added r → ConventionSpec.parse? text = some p.spec →
      r.add p force = .ok r' → Built (p :: added) r'

theorem projects_of_add {r' : Registry} {force : Bool} (h : r.add p force = .ok r') :
    r'.projects = r.projects.insert p.spec.name p := by
  unfold add at h
  split at h
  · cases h
  · cases h
    rfl

/-- Each project is kept under its name. -/
theorem Built.name_eq (h : Built added r) {e : String × RegisteredProject}
    (mem : e ∈ r.projects.entries) : e.1 = e.2.spec.name := by
  induction h with
  | empty => cases mem
  | add _ _ done ih =>
    rw [projects_of_add done] at mem
    rcases mem_insertEntry mem with rfl | mem
    · rfl
    · exact ih mem

/-- A name belongs to the project that was added last under it. -/
theorem Built.get?_eq (h : Built added r) (name : String) :
    r.get? name = added.find? fun p => p.spec.name == name := by
  unfold get?
  induction h with
  | empty => rfl
  | @add added r r' p text force _ _ done ih =>
    rw [projects_of_add done, NameMap.get?_insert, List.find?_cons, ih]
    by_cases same : name = p.spec.name
    · rw [if_pos same, same, beq_self_eq_true]
    · rw [if_neg same, beq_false_of_ne (Ne.symm same)]

theorem Built.mem_values_iff (h : Built added r) :
    p ∈ r.projects.values ↔ added.find? (fun q => q.spec.name == p.spec.name) = some p := by
  rw [← h.get?_eq]
  constructor
  · intro mem
    obtain ⟨e, isEntry, rfl⟩ := List.mem_map.1 mem
    rw [← h.name_eq isEntry]
    exact NameMap.get?_of_mem isEntry
  · intro found
    exact List.mem_map_of_mem (NameMap.mem_of_get? found)

theorem Built.names_ascend (h : Built added r) :
    r.projects.values.Pairwise fun a b => a.spec.name < b.spec.name := by
  refine List.pairwise_map.2 (r.projects.ascending.imp_of_mem fun {a b} mem mem' below => ?_)
  rwa [← h.name_eq mem, ← h.name_eq mem']

theorem any_matches_iff {s : ConventionSpec} {text : String} :
    (ConventionSpec.conventions text).any s.matches = true ↔
      ∃ token, IsRun ConventionSpec.isSeparator text.toList token ∧ s.Names token := by
  simp [ConventionSpec.conventions, ConventionSpec.matches_iff, mem_runsWithout_iff]

/-- A text is a specification just if it is the written form of one with blank characters around
it. A registry gives, in the order of their names, the projects that were added last under their
names and that one of the conventions in the text names; these are the maximal runs between blank
characters and commas. -/
theorem matching_exactly :
    (∀ (text : String) (s : ConventionSpec), ConventionSpec.parse? text = some s ↔
      s.Writable ∧ ∃ before after, AllBlank before ∧ AllBlank after ∧
        text.toList = before ++ s.form ++ after) ∧
    ∀ (added : List RegisteredProject) (r : Registry), Built added r → ∀ text : String,
      ((r.matching text).Pairwise fun a b => a.spec.name < b.spec.name) ∧
      ∀ p, p ∈ r.matching text ↔
        added.find? (fun q => q.spec.name == p.spec.name) = some p ∧
        ∃ token, IsRun ConventionSpec.isSeparator text.toList token ∧ p.spec.Names token := by
  refine ⟨fun text s => ?_, fun added r built text => ⟨built.names_ascend.filter _, fun p => ?_⟩⟩
  · rw [ConventionSpec.parse?_eq_some_iff]
    exact and_congr_right fun writable => trim_eq_iff writable.isTrimmed_form
  · rw [matching, List.mem_filter, built.mem_values_iff, any_matches_iff]

/-- A project of which releases have two numbers. -/
def acme : RegisteredProject :=
  ⟨⟨"ACME", true, true⟩, .ofText "/acme", .ofText "/acme/definitions"⟩

/-- A project whose name begins like that of the other one. -/
def acmeSea : RegisteredProject :=
  ⟨⟨"ACMESEA", true, false⟩, .ofText "/sea", .ofText "/sea/definitions"⟩

def acmes : Registry := ⟨.ofList [("ACME", acme), ("ACMESEA", acmeSea)]⟩

theorem matching_exactly_acmes :
    ConventionSpec.parse? " ACME-[].[]" = some acme.spec ∧ Built [acmeSea, acme] acmes ∧
      acme ∈ acmes.matching "CF-1.8,ACME-2.0-draft" := by
  have writable : acme.spec.Writable :=
    ⟨by decide, List.all_eq_true.1 (by decide), fun _ => rfl⟩
  have read : ConventionSpec.parse? " ACME-[].[]" = some acme.spec :=
    (matching_exactly.1 _ _).2
      ⟨writable, [' '], [], List.all_eq_true.1 (by decide), List.forall_mem_nil _, rfl⟩
  have readSea : ConventionSpec.parse? "ACMESEA-[]" = some acmeSea.spec := by decide
  have first : empty.add acme false = .ok ⟨.ofList [("ACME", acme)]⟩ := rfl
  have second : Registry.add ⟨.ofList [("ACME", acme)]⟩ acmeSea false = .ok acmes := rfl
  have built : Built [acmeSea, acme] acmes := .add (.add .empty read first) readSea second
  have convention : IsRun ConventionSpec.isSeparator "CF-1.8,ACME-2.0-draft".toList
      "ACME-2.0-draft".toList :=
    mem_runsWithout_iff.1 (by decide)
  have named : acme.spec.Names "ACME-2.0-draft".toList := by
    refine ⟨"-2".toList, ".0".toList, "-draft".toList, rfl, ?_, ?_, ?_⟩
    · exact ⟨['2'], List.cons_ne_nil _ _, List.all_eq_true.1 (by decide), rfl⟩
    · exact ⟨['0'], List.cons_ne_nil _ _, List.all_eq_true.1 (by decide), rfl⟩
    · rintro c ⟨⟩
      exact .inl rfl
  exact ⟨read, built, ((matching_exactly.2 _ _ built _).2 acme).2 ⟨by decide, _, convention, named⟩⟩

example : acmes.matching "ACMESEA-10, ACME-2.x" = [acmeSea] := by decide

end Registry

end ProductSpec
