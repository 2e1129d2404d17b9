/-
  Versions as texts: what each part of a version is read from. Every version that has such parts is
  read back out of its text.
-/
import ProductSpec.Proofs.Number.Digits
import ProductSpec.Proofs.Text.Cut
import ProductSpec.Version.Tag

namespace ProductSpec.Version

open Number Text

/-- What a version has that is read out of a text: its numbers are those of a word, and its
identifiers are written in letters, digits and hyphens. -/
structure Valid (v : Version) : Prop where
  major : fitsNat64 v.major = true
  minor : fitsNat64 v.minor = true
  patch : fitsNat64 v.patch = true
  pre : ∀ s ∈ v.pre, isIdentifier false s.toList = true
  build : ∀ s ∈ v.build, isIdentifier true s.toList = true

theorem number?_toDigits {n : Nat} (fits : fitsNat64 n = true) :
    number? (Nat.toDigits 10 n) = some n := by
  rw [number?, if_neg, foldl_toDigits, if_pos fits]
  rintro (empty | strange | zero)
  · exact Nat.toDigits_ne_nil (List.isEmpty_iff.1 empty)
  · exact strange (all_isDigit_toDigits n)
  · exact not_leading_zero n zero

/-- A number is read from its decimal digits alone. -/
theorem number?_eq_some_iff {cs : List Char} {n : Nat} :
    number? cs = some n ↔ fitsNat64 n = true ∧ cs = Nat.toDigits 10 n := by
  refine ⟨fun h => ?_, fun ⟨fits, form⟩ => form ▸ number?_toDigits fits⟩
  unfold number? at h
  split at h
  · cases h
  · next wellFormed =>
    rw [not_or, not_or, not_not] at wellFormed
    obtain ⟨filled, digits, canonical⟩ := wellFormed
    dsimp only at h
    split at h
    · next fits =>
      cases h
      exact ⟨fits, (toDigits_foldl (mt List.isEmpty_iff.2 filled) digits canonical).symm⟩
    · cases h

theorem notMem_toDigits {n : Nat} {c : Char} (h : c.isDigit = false) : c ∉ Nat.toDigits 10 n := by
  intro mem
  rw [isDigit_of_mem_toDigits mem] at h
  cases h

theorem split_toDigits (n : Nat) : split '.' (Nat.toDigits 10 n) = [Nat.toDigits 10 n] := by
  rw [split_eq_splitOn, List.splitOn_eq_singleton (notMem_toDigits rfl)]

theorem split_toDigits_append (n : Nat) (rest : List Char) :
    split '.' (Nat.toDigits 10 n ++ '.' :: rest) = Nat.toDigits 10 n :: split '.' rest := by
  rw [split_eq_splitOn, split_eq_splitOn,
    List.splitOn_append_cons_self_of_not_mem (notMem_toDigits rfl)]

/-- The text of identifiers. -/
def joined (parts : List String) : List Char := ['.'].intercalate (parts.map String.toList)

theorem isIdentifierChar_of_isIdentifier {leadingZeros : Bool} {cs : List Char}
    (h : isIdentifier leadingZeros cs = true) : ∀ c ∈ cs, isIdentifierChar c = true := by
  simp only [isIdentifier, Bool.and_eq_true] at h
  exact List.all_eq_true.1 h.1.2

section Identifiers

variable {leadingZeros : Bool} {cs : List Char} {parts : List String} {c : Char}

/-- The characters of identifiers and the points between them. -/
theorem mem_joined (h : ∀ s ∈ parts, isIdentifier leadingZeros s.toList = true)
    (mem : c ∈ joined parts) : c = '.' ∨ isIdentifierChar c = true := by
  refine (mem_of_mem_intercalate mem).imp_right ?_
  rintro ⟨piece, isIn, mem⟩
  obtain ⟨s, known, rfl⟩ := List.mem_map.1 isIn
  exact isIdentifierChar_of_isIdentifier (h s known) c mem

/-- Identifiers are read from a text with points between them, and from no other one. -/
theorem identifiers?_eq_some_iff : identifiers? leadingZeros cs = some parts ↔
    parts ≠ [] ∧ (∀ s ∈ parts, isIdentifier leadingZeros s.toList = true) ∧ cs = joined parts := by
  constructor
  · intro h
    unfold identifiers? at h
    dsimp only at h
    split at h
    · next all =>
      cases h
      refine ⟨?_, fun s mem => ?_, ?_⟩
      · rw [split_eq_splitOn]
        exact mt List.map_eq_nil_iff.1 (List.splitOn_ne_nil _ _)
      · obtain ⟨part, isIn, rfl⟩ := List.mem_map.1 mem
        rw [String.toList_ofList]
        exact List.all_eq_true.1 all part isIn
      · simp [joined, Function.comp_def, intercalate_split]
    · cases h
  · rintro ⟨filled, all, rfl⟩
    have pieces : split '.' (joined parts) = parts.map String.toList := by
      rw [split_eq_splitOn, joined, List.splitOn_intercalate]
      · intro piece mem point
        obtain ⟨s, isIn, rfl⟩ := List.mem_map.1 mem
        exact absurd (isIdentifierChar_of_isIdentifier (all s isIn) _ point) (by decide)
      · exact mt List.map_eq_nil_iff.1 filled
    rw [identifiers?, pieces, if_pos]
    · simp [Function.comp_def]
    · simpa using all

end Identifiers

/-- What follows the numbers in the text of a version. -/
def suffixText (v : Version) : List Char :=
  (if v.pre = [] then [] else '-' :: joined v.pre) ++
    if v.build = [] then [] else '+' :: joined v.build

theorem suffix?_suffixText {v : Version} (inPre : ∀ s ∈ v.pre, isIdentifier false s.toList = true)
    (inBuild : ∀ s ∈ v.build, isIdentifier true s.toList = true) :
    suffix? v.suffixText = some (v.pre, v.build) := by
  -- A plus sign cuts the suffix, so there must be none in the part before it.
  have plus : '+' ∉ joined v.pre := fun mem => absurd (mem_joined inPre mem) (by decide)
  have readPre : v.pre ≠ [] → identifiers? false (joined v.pre) = some v.pre := fun filled =>
    identifiers?_eq_some_iff.2 ⟨filled, inPre, rfl⟩
  have readBuild : v.build ≠ [] → identifiers? true (joined v.build) = some v.build := fun filled =>
    identifiers?_eq_some_iff.2 ⟨filled, inBuild, rfl⟩
  unfold suffixText
  by_cases noPre : v.pre = []
  · rw [if_pos noPre, List.nil_append, noPre]
    by_cases noBuild : v.build = []
    · rw [if_pos noBuild, noBuild]
      rfl
    · rw [if_neg noBuild, suffix?, readBuild noBuild]
      rfl
  · rw [if_neg noPre, List.cons_append, suffix?]
    by_cases noBuild : v.build = []
    · rw [if_pos noBuild, List.append_nil, splitFirst_of_notMem plus, noBuild]
      simp only [readPre noPre]
      rfl
    · rw [if_neg noBuild, splitFirst_append plus]
      simp only [readPre noPre, readBuild noBuild]
      rfl

/-- A suffix is read from its identifiers behind their signs, and from nothing else. -/
theorem suffix?_eq_some_iff {cs : List Char} {v : Version} :
    suffix? cs = some (v.pre, v.build) ↔ (∀ s ∈ v.pre, isIdentifier false s.toList = true) ∧
      (∀ s ∈ v.build, isIdentifier true s.toList = true) ∧ cs = v.suffixText := by
  constructor
  · intro h
    obtain ⟨major, minor, patch, pre, build⟩ := v
    unfold suffix? at h
    split at h
    · cases h
      exact ⟨List.forall_mem_nil _, List.forall_mem_nil _, rfl⟩
    · split at h
      · next cut =>
        simp only [Option.bind_eq_bind, Option.bind_eq_some_iff, Option.pure_def,
          Option.some.injEq, Prod.mk.injEq, identifiers?_eq_some_iff] at h
        obtain ⟨_, ⟨someFirst, first, rfl⟩, _, ⟨someSecond, second, rfl⟩, rfl, rfl⟩ := h
        refine ⟨first, second, ?_⟩
        rw [eq_of_splitFirst cut, suffixText, if_neg someFirst, if_neg someSecond, List.cons_append]
      · simp only [Option.bind_eq_bind, Option.bind_eq_some_iff, Option.pure_def,
          Option.some.injEq, Prod.mk.injEq, identifiers?_eq_some_iff] at h
        obtain ⟨_, ⟨someFirst, first, rfl⟩, rfl, rfl⟩ := h
        refine ⟨first, List.forall_mem_nil _, ?_⟩
        rw [suffixText, if_neg someFirst, if_pos rfl, List.append_nil]
    · simp only [Option.bind_eq_bind, Option.bind_eq_some_iff, Option.pure_def, Option.some.injEq,
        Prod.mk.injEq, identifiers?_eq_some_iff] at h
      obtain ⟨_, ⟨someSecond, second, rfl⟩, rfl, rfl⟩ := h
      refine ⟨List.forall_mem_nil _, second, ?_⟩
      rw [suffixText, if_pos rfl, if_neg someSecond, List.nil_append]
    · cases h
  · rintro ⟨inPre, inBuild, rfl⟩
    exact suffix?_suffixText inPre inBuild

theorem isSuffixStart_of_mem_head? {v : Version} {c : Char} (h : c ∈ v.suffixText.head?) :
    isSuffixStart c = true := by
  unfold suffixText at h
  by_cases noPre : v.pre = []
  · by_cases noBuild : v.build = []
    · rw [if_pos noPre, if_pos noBuild] at h
      cases h
    · rw [if_pos noPre, if_neg noBuild] at h
      cases h
      rfl
  · rw [if_neg noPre] at h
    cases h
    rfl

/-- What follows the numbers begins where no character of the numbers stands. -/
theorem cut_suffixText {core : List Char} (v : Version)
    (h : ∀ c ∈ core, c.isDigit = true ∨ c = '.') :
    (core ++ v.suffixText).takeWhile (!isSuffixStart ·) = core ∧
      (core ++ v.suffixText).dropWhile (!isSuffixStart ·) = v.suffixText := by
  refine takeWhile_append_of_stop (fun c mem => ?_) fun c mem => ?_
  · have unlike : ∀ d : Char, d.isDigit = false → d ≠ '.' → c ≠ d := by
      rintro d noDigit noPoint rfl
      rcases h c mem with digit | point
      · rw [digit] at noDigit
        cases noDigit
      · exact noPoint point
    simp [isSuffixStart, unlike '-' rfl (by decide), unlike '+' rfl (by decide)]
  · rw [isSuffixStart_of_mem_head? mem]
    rfl

/-- The numbers of a version in its text. -/
def coreText (v : Version) : List Char :=
  Nat.toDigits 10 v.major ++ '.' :: (Nat.toDigits 10 v.minor ++ '.' :: Nat.toDigits 10 v.patch)

theorem mem_coreText {v : Version} {c : Char} (h : c ∈ v.coreText) :
    c.isDigit = true ∨ c = '.' := by
  simp only [coreText, List.mem_append, List.mem_cons] at h
  rcases h with h | h | h | h | h
  · exact .inl (isDigit_of_mem_toDigits h)
  · exact .inr h
  · exact .inl (isDigit_of_mem_toDigits h)
  · exact .inr h
  · exact .inl (isDigit_of_mem_toDigits h)

theorem toList_text (v : Version) : v.text.toList = v.coreText ++ v.suffixText := by
  simp only [text, coreText, suffixText, preText, buildText, joined, String.toList_append,
    List.isEmpty_iff, Nat.toString_eq_repr]
  by_cases noPre : v.pre = [] <;> by_cases noBuild : v.build = [] <;> simp [noPre, noBuild]

/-- A version is read back out of its text. -/
theorem read?_text {v : Version} (h : v.Valid) : read? v.text = some v := by
  obtain ⟨taken, dropped⟩ := cut_suffixText v fun _ => mem_coreText (v := v)
  have pieces : split '.' v.coreText =
      [Nat.toDigits 10 v.major, Nat.toDigits 10 v.minor, Nat.toDigits 10 v.patch] := by
    rw [coreText, split_toDigits_append, split_toDigits_append, split_toDigits]
  rw [read?, toList_text]
  simp only [taken, dropped, pieces, suffix?_suffixText h.pre h.build, number?_toDigits h.major,
    number?_toDigits h.minor, number?_toDigits h.patch]
  rfl

end ProductSpec.Version
