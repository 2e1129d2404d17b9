/-
  The words of a written document: those of its parts, with brackets and separators between them
  and whatever the layout puts in.
-/
import ProductSpec.Proofs.Json.Numbers

namespace ProductSpec.Json

open Number

mutual

/-- The values in a document that have no parts. -/
def leaves : Json → List Json
  | .array items => leavesOfItems items
  | .object members => leavesOfMembers members
  | other => [other]

def leavesOfItems : List Json → List Json
  | [] => []
  | item :: rest => leaves item ++ leavesOfItems rest

def leavesOfMembers : List (String × Json) → List Json
  | [] => []
  | (_, value) :: rest => leaves value ++ leavesOfMembers rest

end

/-- What the leaves of a document must be for it to be written: its floats are finite and its
integers are those of a word. -/
def IsWritable (leaf : Json) : Prop :=
  match leaf with
  | .int n => FitsWord n
  | .float x => x.isFinite = true
  | _ => True

mutual

/-- The words of a document whose floats are reread. -/
def words? : Json → Option (List Token)
  | .float x => (rereadFloat? x).map fun y => [.atom (.float y)]
  | .text s => some [.text s]
  | .array [] => some [.openArray, .closeArray]
  | .array (item :: rest) => do
    return .openArray :: ((← words? item) ++ (← wordsOfItems? rest) ++ [.closeArray])
  | .object [] => some [.openObject, .closeObject]
  | .object ((name, value) :: rest) => do
    return .openObject :: .text name :: .colon ::
      ((← words? value) ++ (← wordsOfMembers? rest) ++ [.closeObject])
  | other => some [.atom other]

def wordsOfItems? : List Json → Option (List Token)
  | [] => some []
  | item :: rest => do return .comma :: ((← words? item) ++ (← wordsOfItems? rest))

def wordsOfMembers? : List (String × Json) → Option (List Token)
  | [] => some []
  | (name, value) :: rest => do
    return .comma :: .text name :: .colon :: ((← words? value) ++ (← wordsOfMembers? rest))

end

section Lexing

variable {rest : List Char}

theorem stops_cons {c : Char} (h : isNumberChar c = false ∧ c.isLower = false) :
    Stops (c :: rest) := by
  intro d mem
  cases mem
  exact h

theorem stops_lineBreak (l : Layout) (h : Stops rest) : Stops (l.lineBreak.toList ++ rest) := by
  cases l with
  | none => exact h
  | some depth =>
    rw [Layout.lineBreak, String.toList_append]
    exact stops_cons (by decide)

theorem tokens_lineBreak (l : Layout) : tokens (l.lineBreak.toList ++ rest) = tokens rest := by
  cases l with
  | none => rfl
  | some depth =>
    have blanks : ∀ n, tokens (List.replicate n ' ' ++ rest) = tokens rest := by
      intro n
      induction n with
      | zero => rfl
      | succ n ih => rw [List.replicate_succ, List.cons_append, tokens_blank (.inl rfl), ih]
    have form : (Layout.lineBreak (some depth)).toList ++ rest =
        '\n' :: (List.replicate (2 * depth) ' ' ++ rest) := by simp [Layout.lineBreak]
    rw [form, tokens_blank (.inr (.inl rfl)), blanks]

theorem tokens_closing (l : Layout) {c : Char} {t : Token} (mark : (c, t) ∈ marks) :
    tokens (l.lineBreak.toList ++ c :: rest) = (tokens rest).map ([t] ++ ·) := by
  rw [tokens_lineBreak, tokens_mark c t mark]
  rfl

theorem tokens_colon (l : Layout) :
    tokens (l.colon.toList ++ rest) = (tokens rest).map (.colon :: ·) := by
  have mark : (':', Token.colon) ∈ marks := by simp [marks]
  cases l with
  | none => exact tokens_mark _ _ mark
  | some depth =>
    have form : (Layout.colon (some depth)).toList ++ rest = ':' :: ' ' :: rest := by
      simp [Layout.colon]
    rw [form, tokens_mark _ _ mark, tokens_blank (.inl rfl)]

theorem stops_writeItems (l : Layout) (items : List Json) (h : Stops rest) :
    Stops ((writeItems l items).toList ++ rest) := by
  cases items with
  | nil => exact h
  | cons item others =>
    simp only [writeItems, String.toList_append, List.append_assoc]
    exact stops_cons (by decide)

theorem stops_writeMembers (l : Layout) (members : List (String × Json)) (h : Stops rest) :
    Stops ((writeMembers l members).toList ++ rest) := by
  cases members with
  | nil => exact h
  | cons member others =>
    simp only [writeMembers, String.toList_append, List.append_assoc]
    exact stops_cons (by decide)

/-- The words of a written document, and behind them those of the text that follows. -/
def Lexes (text : String) (words : Option (List Token)) (rest : List Char) : Prop :=
  tokens (text.toList ++ rest) = words.bind fun ws => (tokens rest).map (ws ++ ·)

/-- Two texts one after the other, with words before and behind them. -/
theorem Lexes.between {first others : String} {ws? ws'? : Option (List Token)}
    {more : List Char} (before after : List Token) (lexed : Lexes first ws? (others.toList ++ more))
    (lexed' : Lexes others ws'? more) (behind : tokens more = (tokens rest).map (after ++ ·)) :
    (tokens (first.toList ++ (others.toList ++ more))).map (before ++ ·) =
      (do return before ++ ((← ws?) ++ (← ws'?) ++ after) : Option (List Token)).bind fun ws =>
        (tokens rest).map (ws ++ ·) := by
  rw [lexed, lexed', behind]
  cases ws? with
  | none => rfl
  | some ws =>
    cases ws'? with
    | none => rfl
    | some ws' => cases tokens rest <;> simp

mutual

theorem lexes_write (l : Layout) (j : Json) (writable : ∀ leaf ∈ j.leaves, leaf.IsWritable)
    {rest : List Char} (stops : Stops rest) : Lexes (write l j) (words? j) rest := by
  unfold Lexes
  match j with
  | .null =>
    rw [write]
    exact tokens_name (by simp [names]) stops
  | .bool true =>
    rw [write]
    exact tokens_name (by simp [names]) stops
  | .bool false =>
    rw [write]
    exact tokens_name (by simp [names]) stops
  | .int n =>
    have fits : FitsWord n := writable (.int n) (List.mem_singleton_self _)
    rw [write, tokens_numberText (isNumberText_toString n) stops, readNumber_toString fits]
    rfl
  | .float x =>
    have finite : x.isFinite = true := writable (.float x) (List.mem_singleton_self _)
    rw [write, tokens_numberText (numberText_finite finite).1 stops, readNumber_numberText finite,
      words?]
    cases rereadFloat? x <;> rfl
  | .text s =>
    rw [write]
    exact tokens_text s rest
  | .array [] =>
    have form : (write l (.array [])).toList ++ rest = '[' :: ']' :: rest := by simp [write]
    rw [form, tokens_mark '[' .openArray (by simp [marks]),
      tokens_mark ']' .closeArray (by simp [marks]), words?]
    cases tokens rest <;> rfl
  | .array (item :: items) =>
    obtain ⟨first, others⟩ := List.forall_mem_append.1 writable
    have form : (write l (.array (item :: items))).toList ++ rest =
        '[' :: (l.deeper.lineBreak.toList ++ ((write l.deeper item).toList ++
          ((writeItems l.deeper items).toList ++ (l.lineBreak.toList ++ ']' :: rest)))) := by
      simp [write]
    have close : Stops (l.lineBreak.toList ++ ']' :: rest) :=
      stops_lineBreak l (stops_cons (by decide))
    rw [form, tokens_mark '[' .openArray (by simp [marks]), tokens_lineBreak]
    exact Lexes.between [.openArray] [.closeArray]
      (lexes_write l.deeper item first (stops_writeItems _ _ close))
      (lexes_writeItems l.deeper items others close) (tokens_closing l (by simp [marks]))
  | .object [] =>
    have form : (write l (.object [])).toList ++ rest = '\x7b' :: '\x7d' :: rest := by simp [write]
    rw [form, tokens_mark '\x7b' .openObject (by simp [marks]),
      tokens_mark '\x7d' .closeObject (by simp [marks]), words?]
    cases tokens rest <;> rfl
  | .object ((name, value) :: members) =>
    obtain ⟨first, others⟩ := List.forall_mem_append.1 writable
    have form : (write l (.object ((name, value) :: members))).toList ++ rest =
        '\x7b' :: (l.deeper.lineBreak.toList ++ ((quoted name).toList ++ (l.colon.toList ++
          ((write l.deeper value).toList ++ ((writeMembers l.deeper members).toList ++
            (l.lineBreak.toList ++ '\x7d' :: rest)))))) := by
      simp [write]
    have close : Stops (l.lineBreak.toList ++ '\x7d' :: rest) :=
      stops_lineBreak l (stops_cons (by decide))
    rw [form, tokens_mark '\x7b' .openObject (by simp [marks]), tokens_lineBreak, tokens_text,
      tokens_colon, Option.map_map, Option.map_map]
    exact Lexes.between [.openObject, .text name, .colon] [.closeObject]
      (lexes_write l.deeper value first (stops_writeMembers _ _ close))
      (lexes_writeMembers l.deeper members others close) (tokens_closing l (by simp [marks]))

theorem lexes_writeItems (l : Layout) (items : List Json)
    (writable : ∀ leaf ∈ leavesOfItems items, leaf.IsWritable) {rest : List Char}
    (stops : Stops rest) : Lexes (writeItems l items) (wordsOfItems? items) rest := by
  unfold Lexes
  match items with
  | [] => simp [writeItems, wordsOfItems?]
  | item :: others =>
    obtain ⟨first, more⟩ := List.forall_mem_append.1 writable
    have form : (writeItems l (item :: others)).toList ++ rest =
        ',' :: (l.lineBreak.toList ++ ((write l item).toList ++
          ((writeItems l others).toList ++ rest))) := by
      simp [writeItems]
    have lexed := Lexes.between [.comma] []
      (lexes_write l item first (stops_writeItems _ _ stops))
      (lexes_writeItems l others more stops) (Option.map_id' ..).symm
    rw [form, tokens_mark ',' .comma (by simp [marks]), tokens_lineBreak]
    simpa [wordsOfItems?] using lexed

theorem lexes_writeMembers (l : Layout) (members : List (String × Json))
    (writable : ∀ leaf ∈ leavesOfMembers members, leaf.IsWritable) {rest : List Char}
    (stops : Stops rest) : Lexes (writeMembers l members) (wordsOfMembers? members) rest := by
  unfold Lexes
  match members with
  | [] => simp [writeMembers, wordsOfMembers?]
  | (name, value) :: others =>
    obtain ⟨first, more⟩ := List.forall_mem_append.1 writable
    have form : (writeMembers l ((name, value) :: others)).toList ++ rest =
        ',' :: (l.lineBreak.toList ++ ((quoted name).toList ++ (l.colon.toList ++
          ((write l value).toList ++ ((writeMembers l others).toList ++ rest))))) := by
      simp [writeMembers]
    have lexed := Lexes.between [.comma, .text name, .colon] []
      (lexes_write l value first (stops_writeMembers _ _ stops))
      (lexes_writeMembers l others more stops) (Option.map_id' ..).symm
    rw [form, tokens_mark ',' .comma (by simp [marks]), tokens_lineBreak, tokens_text, tokens_colon,
      Option.map_map, Option.map_map]
    simpa [wordsOfMembers?, Function.comp_def] using lexed

end

end Lexing

end ProductSpec.Json
