/-
  File patterns, told by the pieces that they are read as. A pattern has one reading, and it matches
  a name just if the name can be cut into chunks that the pieces cover: a literal covers itself, and
  a wildcard one or more characters other than a line break.
-/
import ProductSpec.Project.FilePattern
import ProductSpec.Proofs.Text.Cut
import Mathlib.Data.List.Forall2
import Mathlib.Data.List.Infix

namespace ProductSpec

/-- A piece of a pattern. -/
inductive PatternPiece
  | literal (text : List Char)
  | wildcard
deriving DecidableEq, Repr

/-- How a pattern is read from the left. A brace that is opened goes on to the next one that closes,
and what is between them does not count; if none closes it, it stands for itself with everything
behind it. -/
inductive PatternReading : List Char → List PatternPiece → Prop
  | plain {text : List Char} : '{' ∉ text → PatternReading text [.literal text]
  | unclosed {before after : List Char} : '{' ∉ before → '}' ∉ after →
      PatternReading (before ++ '{' :: after) [.literal (before ++ '{' :: after)]
  | closed {before inside rest : List Char} {pieces : List PatternPiece} :
      '{' ∉ before → '}' ∉ inside → PatternReading rest pieces →
      PatternReading (before ++ '{' :: (inside ++ '}' :: rest))
        (.literal before :: .wildcard :: pieces)

/-- What a piece of a pattern can stand for in a name. -/
def PatternPiece.Covers : PatternPiece → List Char → Prop
  | literal text, chunk => chunk = text
  | wildcard, chunk => chunk ≠ [] ∧ '\n' ∉ chunk

section Assembled

variable {α : Type} {covers : α → List Char → Prop} {x : α} {xs ys : List α} {name : List Char}

/-- A name is put together from chunks that some items cover, one after the other. -/
def Assembled (covers : α → List Char → Prop) (items : List α) (name : List Char) : Prop :=
  ∃ chunks, List.Forall₂ covers items chunks ∧ name = chunks.flatten

theorem assembled_nil : Assembled covers [] name ↔ name = [] := by
  constructor
  · rintro ⟨chunks, covered, rfl⟩
    cases covered
    rfl
  · rintro rfl
    exact ⟨[], .nil, rfl⟩

theorem assembled_cons :
    Assembled covers (x :: xs) name ↔
      ∃ chunk rest, covers x chunk ∧ Assembled covers xs rest ∧ name = chunk ++ rest := by
  constructor
  · rintro ⟨chunks, covered, rfl⟩
    cases covered with
    | cons first others => exact ⟨_, _, first, ⟨_, others, rfl⟩, rfl⟩
  · rintro ⟨chunk, rest, first, ⟨chunks, others, rfl⟩, rfl⟩
    exact ⟨chunk :: chunks, .cons first others, rfl⟩

theorem assembled_append :
    Assembled covers (xs ++ ys) name ↔
      ∃ before after, Assembled covers xs before ∧ Assembled covers ys after ∧
        name = before ++ after := by
  induction xs generalizing name with
  | nil => simp [assembled_nil]
  | cons x xs ih =>
    rw [List.cons_append, assembled_cons]
    constructor
    · rintro ⟨chunk, rest, first, others, rfl⟩
      obtain ⟨before, after, left, right, rfl⟩ := ih.1 others
      exact ⟨chunk ++ before, after, assembled_cons.2 ⟨chunk, before, first, left, rfl⟩, right,
        (List.append_assoc ..).symm⟩
    · rintro ⟨before, after, left, right, rfl⟩
      obtain ⟨chunk, rest, first, others, rfl⟩ := assembled_cons.1 left
      exact ⟨chunk, rest ++ after, first, ih.2 ⟨rest, after, others, right, rfl⟩,
        List.append_assoc ..⟩

end Assembled

namespace PatternPart

/-- What a part of a pattern can stand for. -/
def Covers : PatternPart → List Char → Prop
  | char c, chunk => chunk = [c]
  | wildcard, chunk => chunk ≠ [] ∧ '\n' ∉ chunk

/-- A name is of the form that some parts describe. -/
def Fits (parts : List PatternPart) (name : List Char) : Prop := Assembled Covers parts name

variable {part : PatternPart} {parts : List PatternPart} {name cs : List Char} {c d : Char}

theorem not_fits_nil : ¬ Fits (part :: parts) [] := by
  intro h
  obtain ⟨chunk, rest, covered, -, same⟩ := assembled_cons.1 h
  have empty : chunk = [] := (List.append_eq_nil_iff.1 same.symm).1
  cases part with
  | char c => cases empty.symm.trans covered
  | wildcard => exact covered.1 empty

theorem fits_char : Fits (char d :: parts) (c :: cs) ↔ c = d ∧ Fits parts cs := by
  unfold Fits
  rw [assembled_cons]
  constructor
  · rintro ⟨chunk, rest, rfl, others, same⟩
    obtain ⟨rfl, rfl⟩ := List.cons.inj same
    exact ⟨rfl, others⟩
  · rintro ⟨rfl, others⟩
    exact ⟨[c], cs, rfl, others, rfl⟩

/-- A wildcard takes a character, and then it may end or take more. -/
theorem fits_wildcard :
    Fits (wildcard :: parts) (c :: cs) ↔
      c ≠ '\n' ∧ (Fits parts cs ∨ Fits (wildcard :: parts) cs) := by
  unfold Fits
  rw [assembled_cons, assembled_cons]
  constructor
  · rintro ⟨chunk, rest, ⟨filled, noBreak⟩, others, same⟩
    obtain ⟨first, chunk, rfl⟩ := List.exists_cons_of_ne_nil filled
    obtain ⟨rfl, rfl⟩ := List.cons.inj same
    rw [List.mem_cons, not_or] at noBreak
    refine ⟨Ne.symm noBreak.1, ?_⟩
    cases chunk with
    | nil => exact .inl others
    | cons second chunk => exact .inr ⟨_, rest, ⟨List.cons_ne_nil _ _, noBreak.2⟩, others, rfl⟩
  · rintro ⟨noBreak, others | ⟨chunk, rest, ⟨-, noBreak'⟩, others, rfl⟩⟩
    · exact ⟨[c], cs, ⟨List.cons_ne_nil _ _, by simpa using Ne.symm noBreak⟩, others, rfl⟩
    · exact ⟨c :: chunk, rest, ⟨List.cons_ne_nil _ _,
        List.not_mem_cons_of_ne_of_not_mem (Ne.symm noBreak) noBreak'⟩, others, rfl⟩

/-- The answers for a name and its ends tell which of them fit. -/
def Answers (parts : List PatternPart) (name : List Char) (row : List Bool) : Prop :=
  List.Forall₂ (fun rest answer => answer = true ↔ Fits parts rest) name.tails row

theorem Answers.head {row : List Bool} (h : Answers parts name row) :
    row.headD false = true ↔ Fits parts name := by
  unfold Answers at h
  -- The first of the ends of a name is the name.
  cases name <;>
  · rw [List.tails] at h
    cases h with
    | cons first _ => exact first

theorem answers_matchNone (name : List Char) : Answers [] name (matchNone name) := by
  unfold Answers
  induction name with
  | nil => exact .cons (iff_of_true rfl (assembled_nil.2 rfl)) .nil
  | cons c cs ih =>
    rw [List.tails_cons]
    exact .cons (iff_of_false Bool.false_ne_true fun h => by cases assembled_nil.1 h) ih

/-- One more part in front. The answers for the ends of the name are there when they are needed. -/
theorem answers_matchRow {others : List Bool} (part : PatternPart)
    (h : Answers parts name others) :
    Answers (part :: parts) name (matchRow part name others) := by
  induction name generalizing others with
  | nil =>
    exact .cons (iff_of_false Bool.false_ne_true not_fits_nil) .nil
  | cons c cs ih =>
    unfold Answers at h
    rw [List.tails_cons] at h
    cases h with
    | @cons _ answer _ later first rest =>
      have onward : Answers parts cs later := rest
      have row := ih onward
      unfold Answers
      rw [List.tails_cons]
      refine .cons ?_ row
      cases part with
      | char d => rw [fits_char, ← onward.head, Bool.and_eq_true, beq_iff_eq]
      | wildcard =>
        rw [fits_wildcard, ← onward.head, ← row.head, Bool.and_eq_true, Bool.or_eq_true, bne_iff_ne]

theorem answers_matchEnds (name : List Char) (parts : List PatternPart) :
    Answers parts name (matchEnds name parts) := by
  induction parts with
  | nil => exact answers_matchNone name
  | cons part rest ih => exact answers_matchRow part ih

/-- The parts that a piece is made of. -/
def ofPiece : PatternPiece → List PatternPart
  | .literal text => text.map char
  | .wildcard => [wildcard]

theorem fits_literal {text : List Char} : Fits (text.map char) name ↔ name = text := by
  induction text generalizing name with
  | nil => exact assembled_nil
  | cons c text ih =>
    cases name with
    | nil => exact iff_of_false not_fits_nil nofun
    | cons d cs => rw [List.map_cons, fits_char, ih, List.cons.injEq]

theorem fits_ofPiece (piece : PatternPiece) : Fits (ofPiece piece) name ↔ piece.Covers name := by
  cases piece with
  | literal text => exact fits_literal
  | wildcard =>
    constructor
    · intro h
      obtain ⟨chunk, rest, covered, last, rfl⟩ := assembled_cons.1 h
      rw [assembled_nil.1 last, List.append_nil]
      exact covered
    · intro covered
      exact assembled_cons.2 ⟨name, [], covered, assembled_nil.2 rfl, (List.append_nil _).symm⟩

/-- Parts describe the names that are put together from what their pieces cover. -/
theorem fits_flatMap (pieces : List PatternPiece) :
    Fits (pieces.flatMap ofPiece) name ↔ Assembled PatternPiece.Covers pieces name := by
  induction pieces generalizing name with
  | nil => exact assembled_nil.trans assembled_nil.symm
  | cons piece rest ih =>
    unfold Fits at ih ⊢
    rw [List.flatMap_cons, assembled_append, assembled_cons]
    simp only [ih]
    exact exists_congr fun _ => exists_congr fun _ => and_congr_left fun _ => fits_ofPiece piece

section Reading

variable {before inside rest : List Char}

theorem read_append (h : '{' ∉ before) : read (before ++ rest) = before.map char ++ read rest := by
  induction before with
  | nil => rfl
  | cons c before ih =>
    rw [List.mem_cons, not_or] at h
    rw [List.cons_append, read.eq_3 _ _ (Ne.symm h.1), ih h.2, List.map_cons, List.cons_append]

theorem read_unclosed (h : '}' ∉ rest) : read ('{' :: rest) = ('{' :: rest).map char := by
  rw [read]
  split
  · next found => rw [Text.splitFirst_of_notMem h] at found; cases found
  · rfl

theorem read_closed (h : '}' ∉ inside) :
    read ('{' :: (inside ++ '}' :: rest)) = wildcard :: read rest := by
  rw [read]
  split
  · next found =>
    rw [Text.splitFirst_append h] at found
    cases found
    rfl
  · next missing => rw [Text.splitFirst_append h] at missing; cases missing

theorem read_eq_of_reading {pieces : List PatternPiece} (h : PatternReading cs pieces) :
    read cs = pieces.flatMap ofPiece := by
  induction h with
  | @plain text noBrace =>
    rw [← List.append_nil text, read_append noBrace]
    simp [read, ofPiece]
  | unclosed noBrace noClose =>
    rw [read_append noBrace, read_unclosed noClose]
    simp [ofPiece]
  | closed noBrace noClose _ ih =>
    rw [read_append noBrace, read_closed noClose, ih]
    rfl

end Reading

end PatternPart

namespace PatternReading

variable {cs : List Char} {pieces : List PatternPiece}

/-- A pattern is read up to its first brace, and then behind the brace that closes it. -/
theorem reading_iff : PatternReading cs pieces ↔
    match Text.splitFirst '{' cs with
    | none => pieces = [.literal cs]
    | some (before, after) =>
      match Text.splitFirst '}' after with
      | none => pieces = [.literal cs]
      | some (_, rest) => ∃ more, PatternReading rest more ∧
          pieces = .literal before :: .wildcard :: more := by
  constructor
  · intro h
    cases h with
    | plain noBrace => rw [Text.splitFirst_of_notMem noBrace]
    | unclosed noBrace noClose =>
      rw [Text.splitFirst_append noBrace]
      dsimp only
      rw [Text.splitFirst_of_notMem noClose]
    | closed noBrace noClose onward =>
      rw [Text.splitFirst_append noBrace]
      dsimp only
      rw [Text.splitFirst_append noClose]
      exact ⟨_, onward, rfl⟩
  · intro h
    split at h
    · next none => exact h ▸ .plain (Text.splitFirst_eq_none_iff.1 none)
    · next before after brace =>
      obtain ⟨noBrace, rfl⟩ := Text.splitFirst_eq_some_iff.1 brace
      split at h
      · next none => exact h ▸ .unclosed noBrace (Text.splitFirst_eq_none_iff.1 none)
      · next inside rest close =>
        obtain ⟨noClose, rfl⟩ := Text.splitFirst_eq_some_iff.1 close
        obtain ⟨more, onward, rfl⟩ := h
        exact .closed noBrace noClose onward

/-- A pattern has one reading. -/
theorem exists_unique_reading (cs : List Char) :
    ∃ pieces, ∀ other, PatternReading cs other ↔ other = pieces := by
  -- What is behind the brace that closes is shorter than the pattern.
  induction length : cs.length using Nat.strong_induction_on generalizing cs with
  | h n ih =>
    subst length
    cases brace : Text.splitFirst '{' cs with
    | none =>
      refine ⟨[.literal cs], fun other => ?_⟩
      rw [reading_iff, brace]
    | some parts =>
      obtain ⟨before, after⟩ := parts
      cases close : Text.splitFirst '}' after with
      | none =>
        refine ⟨[.literal cs], fun other => ?_⟩
        rw [reading_iff, brace]
        dsimp only
        rw [close]
      | some parts =>
        obtain ⟨inside, rest⟩ := parts
        have shorter := (Text.length_splitFirst close).trans (Text.length_splitFirst brace)
        obtain ⟨pieces, onward⟩ := ih rest.length shorter rest rfl
        refine ⟨.literal before :: .wildcard :: pieces, fun other => ?_⟩
        rw [reading_iff, brace]
        dsimp only
        rw [close]
        simp only [onward, exists_eq_left]

end PatternReading

/-- A pattern is read in one way, and it matches the names that are put together from what its
pieces cover, one piece after the other. -/
theorem matchesFilePattern_exactly (pattern : String) :
    ∃ pieces, (∀ other, PatternReading pattern.toList other ↔ other = pieces) ∧
      ∀ name : String, matchesFilePattern pattern name = true ↔
        ∃ chunks, List.Forall₂ PatternPiece.Covers pieces chunks ∧
          name.toList = chunks.flatten := by
  obtain ⟨pieces, unique⟩ := PatternReading.exists_unique_reading pattern.toList
  have parts := PatternPart.read_eq_of_reading ((unique pieces).2 rfl)
  refine ⟨pieces, unique, fun name => ?_⟩
  calc
    matchesFilePattern pattern name = true
      ↔ PatternPart.Fits (PatternPart.read pattern.toList) name.toList :=
        (PatternPart.answers_matchEnds name.toList _).head
    _ ↔ Assembled PatternPiece.Covers pieces name.toList := by
      rw [parts, PatternPart.fits_flatMap]

end ProductSpec
