/-
  References to definitions. A name is escaped for the pointer but not for the fragment that holds
  the pointer, so a reference leads back to its name if the fragment changes nothing in it: if no
  percent sign in the name has two hexadecimal digits after it and no control ends it.
-/
import ProductSpec.JsonSchema.Reference
import ProductSpec.Proofs.File.Reading
import ProductSpec.Proofs.Text.Cut

namespace ProductSpec

theorem toList_byteArray (bytes : ByteArray) : bytes.toList = bytes.data.toList := by
  suffices rest : ∀ i taken, ByteArray.toList.loop bytes i taken =
      taken.reverse ++ bytes.data.toList.drop i from rest 0 []
  intro i taken
  induction i, taken using ByteArray.toList.loop.induct bytes with
  | case1 i taken inside ih =>
    have within : i < bytes.data.toList.length := by rwa [Array.length_toList]
    have next : bytes.get! i = bytes.data.toList[i] := getElem!_pos bytes.data i inside
    rw [ByteArray.toList.loop.eq_def, if_pos inside, ih, List.drop_eq_getElem_cons within, next,
      List.reverse_cons, List.append_assoc, List.singleton_append]
  | case2 i taken past =>
    have all : bytes.data.toList.length ≤ i := by
      rw [Array.length_toList]
      exact Nat.le_of_not_lt past
    rw [ByteArray.toList.loop.eq_def, if_neg past, List.drop_eq_nil_of_le all, List.append_nil]

/-- The bytes of a text are those of its characters. -/
theorem toList_toUTF8_ofList (cs : List Char) :
    (String.ofList cs).toUTF8.toList = cs.flatMap String.utf8EncodeChar := by
  rw [toList_byteArray, String.toUTF8_eq_toByteArray, String.toByteArray_ofList, List.utf8Encode,
    List.data_toByteArray]

namespace JsonSchema

/-- No percent sign in a text has two hexadecimal digits after it. -/
def IsUnescaped (cs : List Char) : Prop :=
  ∀ high low, ['%', high, low] <:+: cs →
    Json.hexValue? high = none ∨ Json.hexValue? low = none

/-- A name that a reference may hold as it is, but for tildes and slashes. -/
structure Verbatim (name : String) : Prop where
  solid : ∀ c ∈ name.toList, Text.isBlank c = false ∧ c ≠ '\\'
  unescaped : IsUnescaped name.toList
  ended : ∀ c ∈ name.toList.getLast?, 0x20 < c.toNat

section Bytes

/-- A character is one byte, or none of its bytes is that of another one. -/
theorem utf8EncodeChar_cases (c : Char) :
    (∃ b : UInt8, String.utf8EncodeChar c = [b] ∧ Char.ofNat b.toNat = c) ∨
      ∀ b ∈ String.utf8EncodeChar c, 0x80 ≤ b.toNat := by
  unfold String.utf8EncodeChar
  dsimp only
  split
  · next small =>
    refine .inl ⟨_, rfl, ?_⟩
    rw [UInt8.toNat_ofNat', Nat.mod_eq_of_lt (by omega)]
    exact c.ofNat_toNat
  · refine .inr ?_
    split
    · simp only [List.forall_mem_cons, UInt8.toNat_ofNat', List.not_mem_nil, false_implies,
        implies_true, and_true]
      omega
    · split <;>
      · simp only [List.forall_mem_cons, UInt8.toNat_ofNat', List.not_mem_nil, false_implies,
          implies_true, and_true]
        omega

theorem hexValue?_eq_none {b : UInt8} (h : 0x80 ≤ b.toNat) :
    Json.hexValue? (Char.ofNat b.toNat) = none := by
  have bound := b.toNat_lt
  have valid : b.toNat.isValidChar := .inl (by omega)
  have value : (Char.ofNat b.toNat).toNat = b.toNat := by
    rw [Char.ofNat, dif_pos valid]
    rfl
  have above : ∀ d : Char, d.toNat < 0x80 → ¬ Char.ofNat b.toNat ≤ d := by
    intro d small le
    have below : (Char.ofNat b.toNat).toNat ≤ d.toNat := UInt32.le_iff_toNat_le.1 (Char.le_def.1 le)
    omega
  unfold Json.hexValue?
  rw [if_neg fun h => above '9' (by decide) h.2, if_neg fun h => above 'f' (by decide) h.2,
    if_neg fun h => above 'F' (by decide) h.2]

/-- A byte that is a hexadecimal digit is a character of its own. -/
theorem exists_of_hexValue? {cs : List Char} {b : UInt8} {rest : List UInt8} {n : Nat}
    (bytes : cs.flatMap String.utf8EncodeChar = b :: rest)
    (hex : Json.hexValue? (Char.ofNat b.toNat) = some n) :
    ∃ c others, cs = c :: others ∧ Json.hexValue? c = some n ∧
      rest = others.flatMap String.utf8EncodeChar := by
  cases cs with
  | nil => cases bytes
  | cons c others =>
    rw [List.flatMap_cons] at bytes
    rcases utf8EncodeChar_cases c with ⟨b', single, rfl⟩ | wide
    · rw [single, List.singleton_append, List.cons.injEq] at bytes
      obtain ⟨rfl, rfl⟩ := bytes
      exact ⟨_, others, rfl, hex, rfl⟩
    · obtain ⟨first, more, form⟩ := List.exists_cons_of_ne_nil (String.utf8EncodeChar_ne_nil (c := c))
      rw [form, List.cons_append, List.cons.injEq] at bytes
      have large := wide first (form ▸ List.mem_cons_self)
      rw [bytes.1] at large
      cases (hexValue?_eq_none large).symm.trans hex

theorem percentDecoded_cons {b : UInt8} {rest : List UInt8}
    (plain : b = 0x25 → ∀ high low tail, rest = high :: low :: tail → hexByte? high low = none) :
    percentDecoded (b :: rest) = b :: percentDecoded rest := by
  rw [percentDecoded.eq_def]
  split
  · next high low tail form =>
    obtain ⟨rfl, rfl⟩ := List.cons.inj form
    rw [plain rfl high low tail rfl]
  · next unlike form =>
    obtain ⟨rfl, rfl⟩ := List.cons.inj form
    rfl
  · next form => cases form

theorem percentDecoded_append {bytes rest : List UInt8} (plain : 0x25 ∉ bytes) :
    percentDecoded (bytes ++ rest) = bytes ++ percentDecoded rest := by
  induction bytes with
  | nil => rfl
  | cons b bytes ih =>
    rw [List.mem_cons, not_or] at plain
    rw [List.cons_append, percentDecoded_cons fun same => absurd same.symm plain.1, ih plain.2,
      List.cons_append]

/-- Where no character is written as a percent sign and two digits, the bytes stand for
themselves. -/
theorem percentDecoded_eq_self {cs : List Char} (h : IsUnescaped cs) :
    percentDecoded (cs.flatMap String.utf8EncodeChar) = cs.flatMap String.utf8EncodeChar := by
  induction cs with
  | nil => rfl
  | cons c rest ih =>
    have tail := ih fun high low inside => h high low (inside.trans (List.suffix_cons c rest).isInfix)
    rw [List.flatMap_cons]
    by_cases percent : c = '%'
    · subst percent
      show percentDecoded (0x25 :: rest.flatMap String.utf8EncodeChar) =
        0x25 :: rest.flatMap String.utf8EncodeChar
      rw [percentDecoded_cons, tail]
      intro _ high low more form
      by_contra hex
      obtain ⟨byte, hex⟩ := Option.ne_none_iff_exists'.1 hex
      obtain ⟨m, first, hex⟩ := Option.bind_eq_some_iff.1 hex
      obtain ⟨n, second, -⟩ := Option.bind_eq_some_iff.1 hex
      obtain ⟨c, others, rfl, isHex, form⟩ := exists_of_hexValue? form first
      obtain ⟨d, others, rfl, isHex', -⟩ := exists_of_hexValue? form.symm second
      have inside : ['%', c, d] <:+: '%' :: c :: d :: others :=
        (List.prefix_append ['%', c, d] others).isInfix
      rcases h c d inside with none | none
      · cases none.symm.trans isHex
      · cases none.symm.trans isHex'
    · rw [percentDecoded_append, tail]
      intro mem
      rcases utf8EncodeChar_cases c with ⟨b, single, rfl⟩ | wide
      · rw [single, List.mem_singleton] at mem
        exact percent (mem ▸ rfl)
      · exact absurd (wide _ mem) (by decide)

end Bytes

section Escaping

theorem isUnescaped_cons {c : Char} {rest : List Char} (other : c ≠ '%') (h : IsUnescaped rest) :
    IsUnescaped (c :: rest) := by
  intro high low inside
  rcases List.infix_cons_iff.1 inside with start | inside
  · exact absurd (List.cons_prefix_cons.1 start).1.symm other
  · exact h high low inside

theorem isUnescaped_of_notMem {cs : List Char} (h : '%' ∉ cs) : IsUnescaped cs :=
  fun _ _ inside => absurd (inside.subset List.mem_cons_self) h

/-- Before a character that is no tilde nothing was escaped. -/
theorem exists_of_escape {cs rest : List Char} {c : Char} (h : escape cs = c :: rest)
    (other : c ≠ '~') : ∃ others, cs = c :: others ∧ rest = escape others := by
  unfold escape at h
  split at h
  · cases h
  · exact absurd (List.cons.inj h).1.symm other
  · exact absurd (List.cons.inj h).1.symm other
  · next d others _ _ =>
    obtain ⟨rfl, rfl⟩ := List.cons.inj h
    exact ⟨others, rfl, rfl⟩

/-- Escaping puts no hexadecimal digits behind a percent sign. -/
theorem isUnescaped_escape {cs : List Char} (h : IsUnescaped cs) : IsUnescaped (escape cs) := by
  fun_induction escape cs with
  | case1 => exact h
  | case2 rest ih =>
    have inner := ih fun high low inside => h high low (inside.trans (List.suffix_cons _ rest).isInfix)
    exact isUnescaped_cons (by decide) (isUnescaped_cons (by decide) inner)
  | case3 rest ih =>
    have inner := ih fun high low inside => h high low (inside.trans (List.suffix_cons _ rest).isInfix)
    exact isUnescaped_cons (by decide) (isUnescaped_cons (by decide) inner)
  | case4 c rest notTilde notSlash ih =>
    have inner := ih fun high low inside => h high low (inside.trans (List.suffix_cons c rest).isInfix)
    intro high low inside
    rcases List.infix_cons_iff.1 inside with start | inside
    · by_contra hex
      rw [not_or] at hex
      have digits : ∀ d, Json.hexValue? d ≠ none → d ≠ '~' := by
        rintro d digit rfl
        exact digit rfl
      obtain ⟨rfl, more, form⟩ := List.cons_prefix_cons.1 start
      obtain ⟨others, rfl, behind⟩ := exists_of_escape form.symm (digits high hex.1)
      obtain ⟨others, rfl, -⟩ := exists_of_escape behind.symm (digits low hex.2)
      have found := h high low (List.prefix_append ['%', high, low] others).isInfix
      exact found.elim hex.1 hex.2
    · exact inner high low inside

theorem notMem_escape (cs : List Char) : '/' ∉ escape cs := by
  fun_induction escape cs with
  | case1 => exact List.not_mem_nil
  | case2 rest ih => simp [ih]
  | case3 rest ih => simp [ih]
  | case4 c rest notTilde notSlash ih =>
    simpa [ih] using fun same : '/' = c => notSlash same.symm

theorem mem_escape {cs : List Char} {c : Char} (h : c ∈ escape cs) :
    c ∈ cs ∨ c = '~' ∨ c = '0' ∨ c = '1' := by
  fun_induction escape cs with
  | case1 => cases h
  | case2 rest ih | case3 rest ih =>
    simp only [List.mem_cons] at h ⊢
    tauto
  | case4 d rest notTilde notSlash ih =>
    simp only [List.mem_cons] at h ⊢
    tauto

theorem escape_eq_nil {cs : List Char} (h : escape cs = []) : cs = [] := by
  rw [← unescape_escape cs, h]
  rfl

/-- The last character stays the last, or it is a digit of what it is escaped as. -/
theorem getLast?_escape {cs : List Char} {c : Char} (h : (escape cs).getLast? = some c) :
    cs.getLast? = some c ∨ c = '0' ∨ c = '1' := by
  fun_induction escape cs with
  | case1 => cases h
  | case2 rest ih | case3 rest ih =>
    rw [List.getLast?_cons_cons, List.getLast?_cons, Option.some.injEq] at h
    cases last : (escape rest).getLast? with
    | none =>
      rw [last] at h
      simp [← h]
    | some d =>
      rw [last, Option.getD_some] at h
      rcases ih (h ▸ last) with same | digit
      · exact .inl (by rw [List.getLast?_cons, same]; rfl)
      · exact .inr digit
  | case4 d rest notTilde notSlash ih =>
    rw [List.getLast?_cons, Option.some.injEq] at h
    cases last : (escape rest).getLast? with
    | none =>
      rw [last, Option.getD_none] at h
      rw [escape_eq_nil (List.getLast?_eq_none_iff.1 last), h]
      exact .inl rfl
    | some e =>
      rw [last, Option.getD_some] at h
      rcases ih (h ▸ last) with same | digit
      · exact .inl (by rw [List.getLast?_cons, same]; rfl)
      · exact .inr digit

end Escaping

section Resolution

variable {name : String}

theorem toList_referenceTo (name : String) :
    (referenceTo name).toList = "#/definitions/".toList ++ escape name.toList :=
  String.toList_append.trans (congrArg ("#/definitions/".toList ++ ·) String.toList_ofList)

theorem isReference_iff {reference : String} :
    isReference reference = true ↔ ∀ c ∈ reference.toList, Text.isBlank c = false ∧ c ≠ '\\' := by
  simp [isReference]

theorem isReference_referenceTo (h : Verbatim name) : isReference (referenceTo name) = true := by
  rw [isReference_iff, toList_referenceTo, List.forall_mem_append]
  refine ⟨isReference_iff.1 (by decide), fun c mem => ?_⟩
  rcases mem_escape mem with mem | rfl | rfl | rfl
  · exact h.solid c mem
  all_goals decide

/-- Nothing is trimmed from the reference. -/
theorem trimControls_referenceTo (h : Verbatim name) :
    trimControls (referenceTo name).toList = (referenceTo name).toList := by
  have ended : ∀ c ∈ (referenceTo name).toList.getLast?, ¬ c.toNat ≤ 0x20 := by
    intro c last
    rw [toList_referenceTo, List.getLast?_append] at last
    cases inner : (escape name.toList).getLast? with
    | none =>
      rw [inner] at last
      cases last
      decide
    | some d =>
      rw [inner] at last
      cases last
      rcases getLast?_escape inner with same | rfl | rfl
      · exact Nat.not_le.2 (h.ended c same)
      all_goals decide
  unfold trimControls
  cases reversed : (referenceTo name).toList.reverse with
  | nil => rw [List.dropWhile_nil, ← reversed, List.reverse_reverse]
  | cons c rest =>
    have last : (referenceTo name).toList.getLast? = some c := by
      rw [← List.head?_reverse, reversed, List.head?_cons]
    rw [List.dropWhile_cons_of_neg (by simpa using ended c last), ← reversed, List.reverse_reverse]

/-- The reference to a verbatim name leads to its definition. -/
theorem steps?_referenceTo (h : Verbatim name) :
    steps? (referenceTo name) = some ["definitions", name] := by
  have fragment : Text.dropStart? ['#'] (trimControls (referenceTo name).toList) =
      some ("/definitions/".toList ++ escape name.toList) := by
    rw [trimControls_referenceTo h, toList_referenceTo]
    rfl
  have unescaped : IsUnescaped ("/definitions/".toList ++ escape name.toList) := by
    have inner := isUnescaped_escape h.unescaped
    simp only [show "/definitions/".toList = ['/', 'd', 'e', 'f', 'i', 'n', 'i', 't', 'i', 'o', 'n',
      's', '/'] from rfl, List.cons_append, List.nil_append]
    iterate 13 refine isUnescaped_cons (by decide) ?_
    exact inner
  have pieces : Text.split '/' ("/definitions/".toList ++ escape name.toList) =
      [[], "definitions".toList, escape name.toList] := by
    have single : Text.split '/' (escape name.toList) = [escape name.toList] := by
      rw [Text.split_eq_splitOn]
      exact List.splitOn_eq_singleton (notMem_escape _)
    show Text.split '/' ('/' :: ("definitions".toList ++ '/' :: escape name.toList)) = _
    rw [Text.split, if_pos rfl, Text.split_eq_splitOn,
      List.splitOn_append_cons_self_of_not_mem (by decide), ← Text.split_eq_splitOn, single]
  have decoded : String.fromUTF8? ⟨(percentDecoded (String.ofList ("/definitions/".toList ++
      escape name.toList)).toUTF8.toList).toArray⟩ =
        some (String.ofList ("/definitions/".toList ++ escape name.toList)) := by
    rw [toList_toUTF8_ofList, percentDecoded_eq_self unescaped, fromUTF8?_eq_some,
      String.toUTF8_eq_toByteArray, String.toByteArray_ofList, List.utf8Encode,
      ← List.data_toByteArray]
  unfold steps?
  rw [fragment]
  simp only [Option.bind_eq_bind, Option.bind_some, decoded, String.toList_ofList, pieces,
    List.map_cons, List.map_nil, unescape_escape, String.ofList_toList]
  rfl

-- A name that looks escaped leads to the name that it would stand for.
example : steps? (referenceTo "a%41") = some ["definitions", "aA"] := by decide +kernel

end Resolution

end JsonSchema

end ProductSpec
