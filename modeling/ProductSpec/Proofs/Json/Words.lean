/-
  The words of a written document. Every part of a document reads as itself except for its
  numbers, which are what their text is read as.
-/
import ProductSpec.Json.Token
import ProductSpec.Json.Writer
import ProductSpec.Proofs.Number.Digits

namespace ProductSpec.Json

open Number

section Lexing

variable {rest : List Char}

theorem tokens_blank {c : Char} (h : c = ' ' ∨ c = '\n' ∨ c = '\r' ∨ c = '\t') :
    tokens (c :: rest) = tokens rest := by
  rw [tokens, if_pos h]

/-- The words that are a single character. -/
def marks : List (Char × Token) :=
  [('[', .openArray), (']', .closeArray), ('\x7b', .openObject), ('\x7d', .closeObject),
    (',', .comma), (':', .colon)]

theorem tokens_mark (c : Char) (t : Token) (h : (c, t) ∈ marks) :
    tokens (c :: rest) = (tokens rest).map (t :: ·) := by
  simp only [marks, List.mem_cons, Prod.mk.injEq, List.not_mem_nil, or_false] at h
  rcases h with ⟨rfl, rfl⟩ | ⟨rfl, rfl⟩ | ⟨rfl, rfl⟩ | ⟨rfl, rfl⟩ | ⟨rfl, rfl⟩ | ⟨rfl, rfl⟩ <;>
  · rw [tokens]
    cases tokens rest <;> rfl

theorem tokens_quoted {body after : List Char} (h : splitQuoted rest = some (body, after)) :
    tokens ('"' :: rest) =
      (unescape body).bind fun s => (tokens after).map (.text (String.ofList s) :: ·) := by
  rw [tokens, if_neg (by decide), if_pos rfl]
  split
  · next none => cases none.symm.trans h
  · next found =>
    obtain ⟨rfl, rfl⟩ := Prod.mk.inj (Option.some.inj (h.symm.trans found))
    cases unescape body with
    | none => rfl
    | some s => cases tokens after <;> rfl

/-- A text at whose beginning no number and no name goes on. -/
def Stops (rest : List Char) : Prop :=
  ∀ c ∈ rest.head?, isNumberChar c = false ∧ c.isLower = false

theorem tokens_number {c : Char} {cs : List Char} (first : c = '-' ∨ c.isDigit = true)
    (others : ∀ d ∈ cs, isNumberChar d = true) (stops : Stops rest) :
    tokens (c :: (cs ++ rest)) =
      (readNumber (c :: cs)).bind fun n => (tokens rest).map (.atom n :: ·) := by
  obtain ⟨taken, dropped⟩ := Text.takeWhile_append_of_stop others fun d mem => (stops d mem).1
  have unlike : ¬ (c = ' ' ∨ c = '\n' ∨ c = '\r' ∨ c = '\t') ∧ c ≠ '"' := by
    rcases first with rfl | digit
    · decide
    · constructor
      · rintro (rfl | rfl | rfl | rfl) <;> cases digit
      · rintro rfl
        cases digit
  rw [tokens, if_neg unlike.1, if_neg unlike.2, if_pos first]
  simp only [taken, dropped]
  cases readNumber (c :: cs) with
  | none => rfl
  | some n => cases tokens rest <;> rfl

/-- The words that are names. -/
def names : List (String × Json) := [("null", .null), ("true", .bool true), ("false", .bool false)]

theorem tokens_lower (c : Char) (cs : List Char) (first : c.isLower = true)
    (others : cs.all Char.isLower = true) (stops : Stops rest) :
    tokens (c :: (cs ++ rest)) =
      (names.lookup (String.ofList (c :: cs))).bind fun value =>
        (tokens rest).map (.atom value :: ·) := by
  obtain ⟨taken, dropped⟩ := Text.takeWhile_append_of_stop (List.all_eq_true.1 others)
    fun d mem => (stops d mem).2
  have unlike : ¬ (c = ' ' ∨ c = '\n' ∨ c = '\r' ∨ c = '\t') ∧ c ≠ '"' ∧ c ≠ '-' := by
    refine ⟨?_, ?_, ?_⟩
    · rintro (rfl | rfl | rfl | rfl) <;> cases first
    · rintro rfl
      cases first
    · rintro rfl
      cases first
  have noDigit : c.isDigit = false := by
    change (decide (c.val ≥ 'a'.val) && decide (c.val ≤ 'z'.val)) = true at first
    simp only [ge_iff_le, Bool.and_eq_true, decide_eq_true_eq] at first
    simp only [Char.isDigit, ge_iff_le, Bool.and_eq_false_iff, decide_eq_false_iff_not]
    exact .inr fun below => absurd (UInt32.le_trans first.1 below) (by decide)
  rw [tokens, if_neg unlike.1, if_neg unlike.2.1, if_neg (by simp [unlike.2.2, noDigit]),
    if_pos first]
  simp only [taken, dropped, names]
  cases List.lookup (String.ofList (c :: cs)) _ with
  | none => rfl
  | some value => cases tokens rest <;> rfl

theorem tokens_name {name : String} {value : Json} (h : (name, value) ∈ names)
    (stops : Stops rest) : tokens (name.toList ++ rest) = (tokens rest).map (.atom value :: ·) := by
  simp only [names, List.mem_cons, Prod.mk.injEq, List.not_mem_nil, or_false] at h
  rcases h with ⟨rfl, rfl⟩ | ⟨rfl, rfl⟩ | ⟨rfl, rfl⟩
  · exact tokens_lower 'n' "ull".toList rfl rfl stops
  · exact tokens_lower 't' "rue".toList rfl rfl stops
  · exact tokens_lower 'f' "alse".toList rfl rfl stops

end Lexing

section Escaping

/-- What a single character behind a backslash stands for. -/
def shortEscapes : List (Char × Char) :=
  [('"', '"'), ('\\', '\\'), ('/', '/'), ('b', '\x08'), ('f', '\x0c'), ('n', '\n'), ('r', '\r'),
    ('t', '\t')]

/-- The three ways in which a character is written. -/
theorem escapeChar_cases (c : Char) :
    (∃ short, escapeChar c = ['\\', short] ∧ shortEscapes.lookup short = some c ∧ short ≠ 'u') ∨
      (c.toNat < 0x20 ∧ escapeChar c =
        ['\\', 'u', '0', '0', hexDigit (c.toNat / 16), hexDigit (c.toNat % 16)]) ∨
      (c ≠ '"' ∧ c ≠ '\\' ∧ 0x20 ≤ c.toNat ∧ escapeChar c = [c]) := by
  unfold escapeChar
  split
  · exact .inl ⟨'"', rfl, rfl, by decide⟩
  · exact .inl ⟨'\\', rfl, rfl, by decide⟩
  · exact .inl ⟨'n', rfl, rfl, by decide⟩
  · exact .inl ⟨'r', rfl, rfl, by decide⟩
  · exact .inl ⟨'t', rfl, rfl, by decide⟩
  · exact .inl ⟨'b', rfl, rfl, by decide⟩
  · exact .inl ⟨'f', rfl, rfl, by decide⟩
  · next quote slash _ _ _ _ _ =>
    refine .inr ?_
    split
    · next control => exact .inl ⟨control, rfl⟩
    · next plain => exact .inr ⟨quote, slash, Nat.not_lt.1 plain, rfl⟩

theorem splitQuoted_plain {c : Char} {cs : List Char} (quote : c ≠ '"') (slash : c ≠ '\\') :
    splitQuoted (c :: cs) = (splitQuoted cs).map fun (body, after) => (c :: body, after) := by
  rw [splitQuoted]
  · exact quote
  · exact fun _ _ same _ => slash same

theorem hexDigit_plain : ∀ n < 16, hexDigit n ≠ '"' ∧ hexDigit n ≠ '\\' := by decide

theorem hexNumber?_control :
    ∀ n < 32, hexNumber? ['0', '0', hexDigit (n / 16), hexDigit (n % 16)] = some n := by decide

/-- The escaped form of a text ends at the quotation mark behind it. -/
theorem splitQuoted_escaped (s rest : List Char) :
    splitQuoted (s.flatMap escapeChar ++ '"' :: rest) = some (s.flatMap escapeChar, rest) := by
  induction s with
  | nil => rfl
  | cons c s ih =>
    rw [List.flatMap_cons, List.append_assoc]
    -- A backslash takes the character behind it along, so no mark in the text ends it early.
    rcases escapeChar_cases c with ⟨short, form, -, -⟩ | ⟨control, form⟩ | ⟨quote, slash, -, form⟩
    · rw [form]
      simp [splitQuoted, ih]
    · obtain ⟨quote, slash⟩ := hexDigit_plain (c.toNat / 16) (by omega)
      obtain ⟨quote', slash'⟩ := hexDigit_plain (c.toNat % 16) (by omega)
      rw [form]
      simp [splitQuoted, splitQuoted_plain quote slash, splitQuoted_plain quote' slash', ih]
    · rw [form, List.singleton_append, splitQuoted_plain quote slash, ih]
      rfl

theorem charOf?_toNat (c : Char) : charOf? c.toNat = some c := by
  have valid : c.toNat.isValidChar := c.valid
  rw [charOf?, dif_pos valid]
  rfl

/-- A text is read out of its escaped form. -/
theorem unescape_escaped (s : List Char) : unescape (s.flatMap escapeChar) = some s := by
  induction s with
  | nil => rfl
  | cons c s ih =>
    rw [List.flatMap_cons]
    rcases escapeChar_cases c with ⟨short, form, found, unlike⟩ | ⟨control, form⟩ |
      ⟨quote, slash, printable, form⟩
    · rw [form, List.cons_append, List.cons_append, List.nil_append, unescape]
      · change (shortEscapes.lookup short).bind _ = _
        rw [found, ih]
        rfl
      · exact fun _ _ _ _ _ same _ => unlike same
    · rw [form]
      simp only [List.cons_append, List.nil_append]
      rw [unescape, hexNumber?_control c.toNat control, ih]
      -- A control character is below the surrogates, so no second half is looked for.
      have low : ¬ (0xD800 ≤ c.toNat ∧ c.toNat < 0xDC00) := by omega
      simp only [Option.bind_eq_bind, Option.bind_some, if_neg low, charOf?_toNat]
      rfl
    · rw [form, List.singleton_append, unescape, if_neg (Nat.not_lt.2 printable), ih]
      · rfl
      · exact fun _ _ _ _ _ same _ => slash same
      · exact fun _ _ same _ => slash same
      · exact fun same _ => slash same

/-- A written text is one word. -/
theorem tokens_text (s : String) (rest : List Char) :
    tokens ((quoted s).toList ++ rest) = (tokens rest).map (.text s :: ·) := by
  have form : (quoted s).toList ++ rest =
      '"' :: (s.toList.flatMap escapeChar ++ '"' :: rest) := by
    simp [quoted]
  rw [form, tokens_quoted (splitQuoted_escaped s.toList rest), unescape_escaped, Option.bind_some,
    String.ofList_toList]

end Escaping

end ProductSpec.Json
