/-
  Tags as they are written. A text names a version just when it is that version written out, of
  which the last numbers may be left out, with at most one `v` in front. The name of its directory
  has that `v` and is written with the same characters.
-/
import ProductSpec.Proofs.Version.Text

namespace ProductSpec.Version

open Number Text

/-- Letters, digits and hyphens, and not digits alone. -/
structure IsAlphanumeric (s : String) : Prop where
  chars : ∀ c ∈ s.toList, c.isAlphanum = true ∨ c = '-'
  notNumber : ∃ c ∈ s.toList, c.isDigit = false

/-- An identifier of a pre-release. One that is a number has no leading zeros. -/
inductive IsPreIdentifier (s : String) : Prop
  | alphanumeric (h : IsAlphanumeric s)
  | number (n : Nat) (h : s = toString n)

/-- An identifier of a build. -/
inductive IsBuildIdentifier (s : String) : Prop
  | alphanumeric (h : IsAlphanumeric s)
  | digits (filled : s ≠ "") (h : ∀ c ∈ s.toList, c.isDigit = true)

/-- One to three numbers of 64 bits with points between them. Those that are left out are zero. -/
inductive CoreWritten : List Char → Nat → Nat → Nat → Prop
  | one {a : Nat} (fitsA : a < 0x10000000000000000) : CoreWritten (Nat.toDigits 10 a) a 0 0
  | two {a b : Nat} (fitsA : a < 0x10000000000000000) (fitsB : b < 0x10000000000000000) :
      CoreWritten (Nat.toDigits 10 a ++ '.' :: Nat.toDigits 10 b) a b 0
  | three {a b c : Nat} (fitsA : a < 0x10000000000000000) (fitsB : b < 0x10000000000000000)
      (fitsC : c < 0x10000000000000000) :
      CoreWritten (Nat.toDigits 10 a ++ '.' :: (Nat.toDigits 10 b ++ '.' :: Nat.toDigits 10 c))
        a b c

/-- A version written out: its numbers, then its identifiers behind their signs. -/
inductive Written (v : Version) : List Char → Prop
  | intro {core : List Char} (isCore : CoreWritten core v.major v.minor v.patch)
      (isPre : ∀ s ∈ v.pre, IsPreIdentifier s) (isBuild : ∀ s ∈ v.build, IsBuildIdentifier s) :
      Written v (core ++ v.suffixText)

/-- A tag of a version: the version written out, behind a `v` or alone. -/
inductive TagWritten (v : Version) : List Char → Prop
  | bare {cs : List Char} (h : v.Written cs) : TagWritten v cs
  | marked {cs : List Char} (h : v.Written cs) : TagWritten v ('v' :: cs)

variable {v : Version} {cs : List Char} {s tag : String}

theorem fitsNat64_iff {n : Nat} : fitsNat64 n = true ↔ n < 0x10000000000000000 := by
  rw [fitsNat64, maxNat64, decide_eq_true_iff]
  omega

theorem isIdentifier_iff {leadingZeros : Bool} : isIdentifier leadingZeros cs = true ↔
    cs ≠ [] ∧ (∀ c ∈ cs, isIdentifierChar c = true) ∧ (leadingZeros = true ∨
      (∃ c ∈ cs, c.isDigit = false) ∨ ¬ (1 < cs.length ∧ cs.head? = some '0')) := by
  have long : cs ≠ [] → (cs.length = 1 ↔ ¬ 1 < cs.length) := fun filled => by
    have positive := List.length_pos_iff.2 filled
    omega
  simp only [isIdentifier, Bool.and_eq_true, Bool.or_eq_true, Bool.not_eq_true', and_assoc,
    or_assoc, List.isEmpty_eq_false_iff, List.all_eq_true, List.all_eq_false, beq_iff_eq,
    bne_iff_ne, not_and_or, Bool.not_eq_true]
  exact and_congr_right fun filled => by rw [long filled]

theorem isPreIdentifier_iff : isIdentifier false s.toList = true ↔ IsPreIdentifier s := by
  rw [isIdentifier_iff]
  constructor
  · rintro ⟨filled, chars, kind⟩
    by_cases other : ∃ c ∈ s.toList, c.isDigit = false
    · exact .alphanumeric ⟨fun c mem => by simpa [isIdentifierChar] using chars c mem, other⟩
    · have digits : s.toList.all Char.isDigit = true := by simpa using other
      have canonical := (kind.resolve_left Bool.false_ne_true).resolve_left other
      refine .number (s.toList.foldl (fun n c => 10 * n + (c.toNat - 48)) 0) ?_
      rw [Nat.toString_eq_ofList_toDigits, toDigits_foldl filled digits canonical,
        String.ofList_toList]
  · rintro (⟨chars, c, mem, other⟩ | ⟨n, rfl⟩)
    · exact ⟨List.ne_nil_of_mem mem, fun c mem => by simpa [isIdentifierChar] using chars c mem,
        .inr (.inl ⟨c, mem, other⟩)⟩
    · rw [Nat.toString_eq_ofList_toDigits, String.toList_ofList]
      refine ⟨Nat.toDigits_ne_nil, fun c mem => ?_, .inr (.inr (not_leading_zero n))⟩
      simp [isIdentifierChar, Char.isAlphanum, isDigit_of_mem_toDigits mem]

theorem isBuildIdentifier_iff : isIdentifier true s.toList = true ↔ IsBuildIdentifier s := by
  rw [isIdentifier_iff]
  constructor
  · rintro ⟨filled, chars, -⟩
    by_cases other : ∃ c ∈ s.toList, c.isDigit = false
    · exact .alphanumeric ⟨fun c mem => by simpa [isIdentifierChar] using chars c mem, other⟩
    · exact .digits (mt (by rintro rfl; rfl) filled) (by simpa using other)
  · rintro (⟨chars, c, mem, other⟩ | ⟨filled, digits⟩)
    · exact ⟨List.ne_nil_of_mem mem, fun c mem => by simpa [isIdentifierChar] using chars c mem,
        .inl rfl⟩
    · exact ⟨mt String.toList_eq_nil_iff.1 filled, fun c mem => by
        simp [isIdentifierChar, Char.isAlphanum, digits c mem], .inl rfl⟩

namespace CoreWritten

variable {a b c : Nat}

theorem fits (h : CoreWritten cs a b c) :
    fitsNat64 a = true ∧ fitsNat64 b = true ∧ fitsNat64 c = true := by
  cases h with
  | one fitsA => exact ⟨fitsNat64_iff.2 fitsA, rfl, rfl⟩
  | two fitsA fitsB => exact ⟨fitsNat64_iff.2 fitsA, fitsNat64_iff.2 fitsB, rfl⟩
  | three fitsA fitsB fitsC =>
    exact ⟨fitsNat64_iff.2 fitsA, fitsNat64_iff.2 fitsB, fitsNat64_iff.2 fitsC⟩

theorem chars (h : CoreWritten cs a b c) : ∀ d ∈ cs, d.isDigit = true ∨ d = '.' := by
  have digits : ∀ n, ∀ d ∈ Nat.toDigits 10 n, d.isDigit = true ∨ d = '.' := fun n d mem =>
    .inl (isDigit_of_mem_toDigits mem)
  cases h with
  | one => exact digits a
  | two => exact List.forall_mem_append.2 ⟨digits a, List.forall_mem_cons.2 ⟨.inr rfl, digits b⟩⟩
  | three =>
    exact List.forall_mem_append.2 ⟨digits a, List.forall_mem_cons.2 ⟨.inr rfl,
      List.forall_mem_append.2 ⟨digits b, List.forall_mem_cons.2 ⟨.inr rfl, digits c⟩⟩⟩⟩

theorem head? (h : CoreWritten cs a b c) : ∃ d, cs.head? = some d ∧ d.isDigit = true := by
  obtain ⟨d, rest, form⟩ := List.exists_cons_of_ne_nil (Nat.toDigits_ne_nil (n := a) (b := 10))
  have digit : d.isDigit = true := isDigit_of_mem_toDigits (n := a) (form ▸ List.mem_cons_self)
  cases h <;> exact ⟨d, by simp [form], digit⟩

end CoreWritten

theorem core?_eq_some_iff {a b c : Nat} : core? cs = some (a, b, c) ↔ CoreWritten cs a b c := by
  constructor
  · intro h
    have whole := intercalate_split '.' cs
    unfold core? at h
    split at h <;>
      simp only [Option.bind_eq_bind, Option.bind_eq_some_iff, Option.pure_def, Option.some.injEq,
        Prod.mk.injEq, number?_eq_some_iff, fitsNat64_iff, reduceCtorEq] at h
    · next pieces =>
      obtain ⟨_, ⟨fitsA, rfl⟩, rfl, rfl, rfl⟩ := h
      rw [pieces] at whole
      rw [← whole]
      simpa using CoreWritten.one fitsA
    · next pieces =>
      obtain ⟨_, ⟨fitsA, rfl⟩, _, ⟨fitsB, rfl⟩, rfl, rfl, rfl⟩ := h
      rw [pieces] at whole
      rw [← whole]
      simpa using CoreWritten.two fitsA fitsB
    · next pieces =>
      obtain ⟨_, ⟨fitsA, rfl⟩, _, ⟨fitsB, rfl⟩, _, ⟨fitsC, rfl⟩, rfl, rfl, rfl⟩ := h
      rw [pieces] at whole
      rw [← whole]
      simpa using CoreWritten.three fitsA fitsB fitsC
  · intro h
    obtain ⟨fitsA, fitsB, fitsC⟩ := h.fits
    cases h with
    | one => simp [core?, split_toDigits, number?_toDigits fitsA]
    | two =>
      simp [core?, split_toDigits, split_toDigits_append, number?_toDigits fitsA,
        number?_toDigits fitsB]
    | three =>
      simp [core?, split_toDigits, split_toDigits_append, number?_toDigits fitsA,
        number?_toDigits fitsB, number?_toDigits fitsC]

namespace Written

variable (h : v.Written cs)

include h

theorem valid : v.Valid := by
  obtain ⟨isCore, isPre, isBuild⟩ := h
  obtain ⟨major, minor, patch⟩ := isCore.fits
  exact ⟨major, minor, patch, fun s mem => isPreIdentifier_iff.2 (isPre s mem),
    fun s mem => isBuildIdentifier_iff.2 (isBuild s mem)⟩

theorem head? : ∃ d, cs.head? = some d ∧ d.isDigit = true := by
  obtain ⟨isCore, -, -⟩ := h
  obtain ⟨d, first, digit⟩ := isCore.head?
  exact ⟨d, by rw [List.head?_append, first]; rfl, digit⟩

theorem head?_ne {c : Char} (strange : c.isDigit = false) : cs.head? ≠ some c := by
  obtain ⟨d, first, digit⟩ := h.head?
  rw [first]
  rintro ⟨⟩
  rw [strange] at digit
  cases digit

end Written

/-- The characters of tags. -/
def isTagChar (c : Char) : Bool := c.isAlphanum || c == '.' || c == '-' || c == '+'

theorem isTagChar_of_mem_suffixText (h : v.Valid) {c : Char} (mem : c ∈ v.suffixText) :
    isTagChar c = true := by
  have inJoined : c = '.' ∨ isIdentifierChar c = true → isTagChar c = true := by
    rintro (rfl | allowed)
    · rfl
    · rcases Bool.or_eq_true_iff.1 allowed with allowed | allowed <;> simp [isTagChar, allowed]
  rcases List.mem_append.1 mem with mem | mem
  · split at mem
    · cases mem
    · rcases List.mem_cons.1 mem with rfl | mem
      · rfl
      · exact inJoined (mem_joined h.pre mem)
  · split at mem
    · cases mem
    · rcases List.mem_cons.1 mem with rfl | mem
      · rfl
      · exact inJoined (mem_joined h.build mem)

theorem Written.isTagChar (h : v.Written cs) : ∀ c ∈ cs, isTagChar c = true := by
  have valid := h.valid
  obtain ⟨isCore, -, -⟩ := h
  refine List.forall_mem_append.2 ⟨fun c mem => ?_, fun c => isTagChar_of_mem_suffixText valid⟩
  rcases isCore.chars c mem with digit | rfl
  · simp [Version.isTagChar, Char.isAlphanum, digit]
  · rfl

theorem bareTag_marked (cs : List Char) : bareTag ('v' :: cs) = cs := rfl

theorem bareTag_of_head?_ne (h : cs.head? ≠ some 'v') : bareTag cs = cs := by
  cases cs with
  | nil => rfl
  | cons c rest =>
    have unlike : 'v' ≠ c := fun same => h (congrArg some same.symm)
    rw [bareTag, dropStart?, if_neg unlike]
    rfl

theorem bareTag_cases (tag : List Char) :
    tag.head? ≠ some 'v' ∧ bareTag tag = tag ∨ tag = 'v' :: bareTag tag := by
  by_cases marked : tag.head? = some 'v'
  · obtain ⟨rest, rfl⟩ := List.head?_eq_some_iff.1 marked
    exact .inr rfl
  · exact .inl ⟨marked, bareTag_of_head?_ne marked⟩

theorem tagWritten_iff : v.TagWritten cs ↔ v.Written (bareTag cs) := by
  constructor
  · rintro (written | written)
    · rwa [bareTag_of_head?_ne (written.head?_ne rfl)]
    · exact written
  · intro written
    rcases bareTag_cases cs with ⟨-, same⟩ | marked
    · exact .bare (same ▸ written)
    · rw [marked]
      exact .marked written

/-- A tag names the version that it is written for, and no other text names one. -/
theorem ofTag?_eq_some_iff : ofTag? tag = some v ↔ v.TagWritten tag.toList := by
  rw [tagWritten_iff, ofTag?]
  generalize bareTag tag.toList = bare
  simp only [Option.bind_eq_bind, Option.bind_eq_some_iff, Option.pure_def, Option.some.injEq]
  constructor
  · rintro ⟨⟨major, minor, patch⟩, core, ⟨pre, build⟩, suffix, rfl⟩
    obtain ⟨inPre, inBuild, form⟩ :=
      suffix?_eq_some_iff (v := ⟨major, minor, patch, pre, build⟩).1 suffix
    rw [← List.takeWhile_append_dropWhile (p := (!isSuffixStart ·)) (l := bare), form]
    exact ⟨core?_eq_some_iff.1 core, fun s mem => isPreIdentifier_iff.1 (inPre s mem),
      fun s mem => isBuildIdentifier_iff.1 (inBuild s mem)⟩
  · intro written
    have valid := written.valid
    obtain ⟨isCore, -, -⟩ := written
    obtain ⟨taken, dropped⟩ := cut_suffixText v isCore.chars
    exact ⟨_, taken ▸ core?_eq_some_iff.2 isCore, _,
      dropped ▸ suffix?_suffixText valid.pre valid.build, rfl⟩

/-- Leading zeros are refused in a pre-release and kept in a build. -/
example : ofTag? "v1.2-3.04" = none ∧ ofTag? "v1.2+3.04" = some ⟨1, 2, 0, [], ["3", "04"]⟩ := by
  decide +kernel

theorem valid_of_ofTag? (h : ofTag? tag = some v) : v.Valid :=
  (tagWritten_iff.1 (ofTag?_eq_some_iff.1 h)).valid

/-- Only the tag behind its `v` is read. -/
theorem ofTag?_congr {other : String} (h : bareTag tag.toList = bareTag other.toList) :
    ofTag? tag = ofTag? other := by
  rw [ofTag?, ofTag?, h]

namespace TagWritten

variable (h : v.TagWritten cs)

include h

theorem isTagChar : ∀ c ∈ cs, isTagChar c = true := by
  cases h with
  | bare written => exact written.isTagChar
  | marked written => exact List.forall_mem_cons.2 ⟨rfl, written.isTagChar⟩

theorem head? : ∃ d, cs.head? = some d ∧ (d = 'v' ∨ d.isDigit = true) := by
  cases h with
  | bare written =>
    obtain ⟨d, first, digit⟩ := written.head?
    exact ⟨d, first, .inr digit⟩
  | marked written => exact ⟨'v', rfl, .inl rfl⟩

/-- There is one `v` in front at most. -/
theorem head?_bareTag : (bareTag cs).head? ≠ some 'v' := (tagWritten_iff.1 h).head?_ne rfl

end TagWritten

/-- Every tag may name a directory. -/
theorem ofCheckedTag?_eq (tag : String) : ofCheckedTag? tag = ofTag? tag := by
  unfold ofCheckedTag?
  split
  · next refused =>
    refine (Option.eq_none_iff_forall_ne_some.2 fun v named => ?_).symm
    have written := ofTag?_eq_some_iff.1 named
    obtain ⟨d, first, begins⟩ := written.head?
    rcases refused with rfl | separator | point
    · have none : ofTag? "latest" = none := by decide +kernel
      rw [none] at named
      cases named
    · obtain ⟨c, mem, isSeparator⟩ := List.any_eq_true.1 separator
      have allowed := written.isTagChar c mem
      rcases Bool.or_eq_true_iff.1 isSeparator with same | same
      · rw [beq_iff_eq.1 same] at allowed
        exact absurd allowed (by decide)
      · rw [beq_iff_eq.1 same] at allowed
        exact absurd allowed (by decide)
    · rw [first, Option.some.injEq] at point
      rw [point] at begins
      exact absurd begins (by decide)
  · rfl

theorem ofTag?_of_ofCheckedTag? (h : ofCheckedTag? tag = some v) : ofTag? tag = some v :=
  ofCheckedTag?_eq tag ▸ h

/-- The directory of a tag is the tag behind one `v`. -/
theorem toList_dirName (tag : String) : (dirName tag).toList = 'v' :: bareTag tag.toList := by
  unfold dirName
  rcases bareTag_cases tag.toList with ⟨unmarked, same⟩ | marked
  · rw [if_neg unmarked, String.toList_append, same]
    rfl
  · rw [if_pos (by rw [marked]; rfl)]
    exact marked

/-- The directory of a tag is written with the characters of tags and begins with `v`. -/
theorem dirName_text (h : ofTag? tag = some v) :
    ∃ rest, (dirName tag).toList = 'v' :: rest ∧ ∀ c ∈ rest, isTagChar c = true :=
  ⟨_, toList_dirName tag, (tagWritten_iff.1 (ofTag?_eq_some_iff.1 h)).isTagChar⟩

theorem dirName_eq_iff_bareTag {other : String} :
    dirName tag = dirName other ↔ bareTag tag.toList = bareTag other.toList := by
  rw [← String.toList_inj, toList_dirName, toList_dirName, List.cons.injEq, and_iff_right rfl]

theorem dirName_marked (h : (bareTag ("v" ++ tag).toList).head? ≠ some 'v') :
    dirName ("v" ++ tag) = dirName tag := by
  have form : ("v" ++ tag).toList = 'v' :: tag.toList := by
    rw [String.toList_append]
    rfl
  rw [form, bareTag_marked] at h
  rw [dirName_eq_iff_bareTag, form, bareTag_marked, bareTag_of_head?_ne h]

/-- Tags have one directory if they are equal, or if they are so but for the `v` of one of them. -/
theorem dirName_eq_iff {other : String} {w : Version} (h : ofTag? tag = some v)
    (h' : ofTag? other = some w) :
    dirName tag = dirName other ↔ tag = other ∨ tag = "v" ++ other ∨ other = "v" ++ tag := by
  constructor
  · rw [dirName_eq_iff_bareTag]
    intro same
    rcases bareTag_cases tag.toList with ⟨-, bare⟩ | marked <;>
      rcases bareTag_cases other.toList with ⟨-, bare'⟩ | marked'
    · rw [bare, bare'] at same
      exact .inl (String.toList_inj.1 same)
    · rw [← same, bare] at marked'
      refine .inr (.inr (String.toList_inj.1 ?_))
      rw [marked', String.toList_append]
      rfl
    · rw [same, bare'] at marked
      refine .inr (.inl (String.toList_inj.1 ?_))
      rw [marked, String.toList_append]
      rfl
    · rw [same, ← marked'] at marked
      exact .inl (String.toList_inj.1 marked)
  · rintro (rfl | rfl | rfl)
    · rfl
    · exact dirName_marked (ofTag?_eq_some_iff.1 h).head?_bareTag
    · exact (dirName_marked (ofTag?_eq_some_iff.1 h').head?_bareTag).symm

end ProductSpec.Version
