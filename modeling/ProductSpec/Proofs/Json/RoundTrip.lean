/-
  Reading a written document. It is refused if it is too deep or if the text of a float in it is
  no number, and otherwise gives the document back with its floats as they are reread.
-/
import ProductSpec.Json.Reader
import ProductSpec.Proofs.Json.Lexing

namespace ProductSpec.Json

open Number

mutual

/-- The document with other floats. -/
def mapFloats (f : Double → Double) : Json → Json
  | .float x => .float (f x)
  | .array items => .array (mapFloatsOfItems f items)
  | .object members => .object (mapFloatsOfMembers f members)
  | other => other

def mapFloatsOfItems (f : Double → Double) : List Json → List Json
  | [] => []
  | item :: rest => mapFloats f item :: mapFloatsOfItems f rest

def mapFloatsOfMembers (f : Double → Double) : List (String × Json) → List (String × Json)
  | [] => []
  | (name, value) :: rest => (name, mapFloats f value) :: mapFloatsOfMembers f rest

end

mutual

/-- How many lists and objects are around the innermost value. -/
def depth : Json → Nat
  | .array items => 1 + depthOfItems items
  | .object members => 1 + depthOfMembers members
  | _ => 0

def depthOfItems : List Json → Nat
  | [] => 0
  | item :: rest => max (depth item) (depthOfItems rest)

def depthOfMembers : List (String × Json) → Nat
  | [] => 0
  | (_, value) :: rest => max (depth value) (depthOfMembers rest)

end

/-- The float that is read for one that is written. -/
def rereadFloat (x : Double) : Double := (rereadFloat? x).getD x

section Reading

open Reading

/-- Where a value may begin. -/
inductive Expect.IsValue : Expect → Prop
  | value : IsValue .value
  | valueOrClose : IsValue .valueOrClose

theorem step_begin {frames : List Frame} {expect : Expect} (h : expect.IsValue) (t : Token)
    (notClose : t ≠ .closeArray) :
    step ⟨frames, expect⟩ t = beginValue frames t := by
  cases h with
  | value => rfl
  | valueOrClose =>
    cases t with
    | closeArray => exact absurd rfl notClose
    | _ => rfl

/-- A value in a frame is read where the frame and the value are not too deep. -/
theorem openFrame_bind {frames : List Frame} {frame : Frame} {next : Expect} {d : Nat}
    {f : Reading → Option Reading} {s : Reading}
    (inner : frames.length + 1 ≤ depthLimit → f ⟨frame :: frames, next⟩ =
      if frames.length + 1 + d ≤ depthLimit then some s else none) :
    (openFrame frames frame next).bind f =
      if frames.length + (1 + d) ≤ depthLimit then some s else none := by
  have opens : openFrame frames frame next =
    if frames.length + 1 ≤ depthLimit then some ⟨frame :: frames, next⟩ else none := rfl
  rw [opens, ← Nat.add_assoc]
  by_cases opened : frames.length + 1 ≤ depthLimit
  · rw [if_pos opened, Option.bind_some, inner opened]
  · rw [if_neg opened, if_neg (by omega)]
    rfl

/-- Two values one after the other are read where neither is too deep. -/
theorem foldlM_append_of_depth {xs ys : List Token} {s₀ s t : Reading} {n a b : Nat}
    (first : xs.foldlM step s₀ = if n + a ≤ depthLimit then some s else none)
    (second : ys.foldlM step s = if n + b ≤ depthLimit then some t else none) :
    (xs ++ ys).foldlM step s₀ = if n + max a b ≤ depthLimit then some t else none := by
  rw [List.foldlM_append, first]
  by_cases fits : n + a ≤ depthLimit
  · rw [if_pos fits, Option.bind_eq_bind, Option.bind_some, second]
    congr 1
    exact propext (by omega)
  · rw [if_neg fits, if_neg (by omega)]
    rfl

/-- The end of a list or an object. -/
theorem foldlM_concat_of_depth {xs : List Token} {t : Token} {s₀ s s' : Reading} {n : Nat}
    (inner : xs.foldlM step s₀ = if n ≤ depthLimit then some s else none)
    (last : step s t = some s') :
    (xs ++ [t]).foldlM step s₀ = if n ≤ depthLimit then some s' else none := by
  rw [List.foldlM_append, inner]
  split
  · simp [last]
  · rfl

/-- An atom is taken at once. -/
theorem foldlM_atom {frames : List Frame} {expect : Expect} (h : expect.IsValue)
    (opened : frames.length ≤ depthLimit) (value : Json) {t : Token}
    (begins : beginValue frames t = some (accept frames value)) (notClose : t ≠ .closeArray) :
    [t].foldlM step ⟨frames, expect⟩ =
      if frames.length + 0 ≤ depthLimit then some (accept frames value) else none := by
  rw [List.foldlM_cons, step_begin h t notClose, begins, Nat.add_zero, if_pos opened]
  rfl

mutual

/-- The words of a document are read as the document, where it is not too deep. -/
theorem foldlM_words (frames : List Frame) {expect : Expect} (j : Json) {ws : List Token}
    (h : words? j = some ws) (isValue : expect.IsValue) (opened : frames.length ≤ depthLimit) :
    ws.foldlM step ⟨frames, expect⟩ =
      if frames.length + j.depth ≤ depthLimit then some (accept frames (j.mapFloats rereadFloat))
      else none := by
  match j with
  | .null | .bool _ | .int _ | .text _ =>
    cases h
    exact foldlM_atom isValue opened _ rfl nofun
  | .float x =>
    obtain ⟨y, reread, rfl⟩ := Option.map_eq_some_iff.1 h
    rw [mapFloats, rereadFloat, reread, Option.getD_some]
    exact foldlM_atom isValue opened (.float y) rfl nofun
  | .array [] =>
    cases h
    rw [List.foldlM_cons, step_begin isValue .openArray nofun, beginValue]
    refine openFrame_bind fun deeper => ?_
    rw [depthOfItems, Nat.add_zero, if_pos deeper]
    rfl
  | .array (item :: items) =>
    simp only [words?, Option.bind_eq_bind, Option.bind_eq_some_iff, Option.pure_def,
      Option.some.injEq] at h
    obtain ⟨first, found, others, more, rfl⟩ := h
    rw [List.foldlM_cons, step_begin isValue .openArray nofun, beginValue]
    refine openFrame_bind fun deeper => ?_
    refine foldlM_concat_of_depth (foldlM_append_of_depth
      (foldlM_words (.array [] :: frames) item found .valueOrClose deeper)
      (foldlM_wordsOfItems items more deeper)) ?_
    simp [step, close, mapFloats, mapFloatsOfItems]
  | .object [] =>
    cases h
    rw [List.foldlM_cons, step_begin isValue .openObject nofun, beginValue]
    refine openFrame_bind fun deeper => ?_
    rw [depthOfMembers, Nat.add_zero, if_pos deeper]
    rfl
  | .object ((name, value) :: members) =>
    simp only [words?, Option.bind_eq_bind, Option.bind_eq_some_iff, Option.pure_def,
      Option.some.injEq] at h
    obtain ⟨first, found, others, more, rfl⟩ := h
    rw [List.foldlM_cons, step_begin isValue .openObject nofun, beginValue]
    refine openFrame_bind fun deeper => ?_
    have named : ∀ ts : List Token, (Token.text name :: Token.colon :: ts).foldlM step
        ⟨.object [] "" :: frames, .nameOrClose⟩ =
          ts.foldlM step ⟨.object [] name :: frames, .value⟩ := fun _ => rfl
    rw [named]
    refine foldlM_concat_of_depth (foldlM_append_of_depth
      (foldlM_words (.object [] name :: frames) value found .value deeper)
      (foldlM_wordsOfMembers members more deeper)) ?_
    simp [step, close, mapFloats, mapFloatsOfMembers]

/-- The words of further items are read after those that have been read. -/
theorem foldlM_wordsOfItems {frames : List Frame} (items : List Json) {ws : List Token}
    (h : wordsOfItems? items = some ws) {done : List Json}
    (opened : frames.length + 1 ≤ depthLimit) :
    ws.foldlM step ⟨.array done :: frames, .commaOrClose⟩ =
      if frames.length + 1 + depthOfItems items ≤ depthLimit then
        some ⟨.array ((mapFloatsOfItems rereadFloat items).reverse ++ done) :: frames,
          .commaOrClose⟩
      else none := by
  match items with
  | [] =>
    cases h
    rw [depthOfItems, Nat.add_zero, if_pos opened]
    rfl
  | item :: others =>
    simp only [wordsOfItems?, Option.bind_eq_bind, Option.bind_eq_some_iff, Option.pure_def,
      Option.some.injEq] at h
    obtain ⟨first, found, more, rest, rfl⟩ := h
    have comma : ∀ ts : List Token, (Token.comma :: ts).foldlM step
        ⟨.array done :: frames, .commaOrClose⟩ =
          ts.foldlM step ⟨.array done :: frames, .value⟩ := fun _ => rfl
    rw [comma, mapFloatsOfItems, List.reverse_cons, List.append_assoc]
    exact foldlM_append_of_depth
      (foldlM_words (.array done :: frames) item found .value opened)
      (foldlM_wordsOfItems others rest opened)

theorem foldlM_wordsOfMembers {frames : List Frame} (members : List (String × Json))
    {ws : List Token} (h : wordsOfMembers? members = some ws) {done : List (String × Json)}
    (opened : frames.length + 1 ≤ depthLimit) :
    ws.foldlM step ⟨.object done "" :: frames, .commaOrClose⟩ =
      if frames.length + 1 + depthOfMembers members ≤ depthLimit then
        some ⟨.object ((mapFloatsOfMembers rereadFloat members).reverse ++ done) "" :: frames,
          .commaOrClose⟩
      else none := by
  match members with
  | [] =>
    cases h
    rw [depthOfMembers, Nat.add_zero, if_pos opened]
    rfl
  | (name, value) :: others =>
    simp only [wordsOfMembers?, Option.bind_eq_bind, Option.bind_eq_some_iff, Option.pure_def,
      Option.some.injEq] at h
    obtain ⟨first, found, more, rest, rfl⟩ := h
    have named : ∀ ts : List Token, (Token.comma :: .text name :: .colon :: ts).foldlM step
        ⟨.object done "" :: frames, .commaOrClose⟩ =
          ts.foldlM step ⟨.object done name :: frames, .value⟩ := fun _ => rfl
    rw [named, mapFloatsOfMembers, List.reverse_cons, List.append_assoc]
    exact foldlM_append_of_depth
      (foldlM_words (.object done name :: frames) value found .value opened)
      (foldlM_wordsOfMembers others rest opened)

end

end Reading

mutual

/-- A document has words unless one of its floats cannot be reread. -/
theorem isSome_words? (j : Json) :
    (words? j).isSome = true ↔ ∀ x, .float x ∈ j.leaves → (rereadFloat? x).isSome = true := by
  match j with
  | .null | .bool _ | .int _ | .text _ => simp [words?, leaves]
  | .float x => simp [words?, leaves]
  | .array [] | .object [] => simp [words?, leaves, leavesOfItems, leavesOfMembers]
  | .array (item :: items) =>
    simp only [leaves, leavesOfItems, List.mem_append, or_imp, forall_and, ← isSome_words? item,
      ← isSome_wordsOfItems? items, words?]
    cases words? item <;> cases wordsOfItems? items <;> simp
  | .object ((name, value) :: members) =>
    simp only [leaves, leavesOfMembers, List.mem_append, or_imp, forall_and, ← isSome_words? value,
      ← isSome_wordsOfMembers? members, words?]
    cases words? value <;> cases wordsOfMembers? members <;> simp

theorem isSome_wordsOfItems? (items : List Json) :
    (wordsOfItems? items).isSome = true ↔
      ∀ x, .float x ∈ leavesOfItems items → (rereadFloat? x).isSome = true := by
  match items with
  | [] => simp [wordsOfItems?, leavesOfItems]
  | item :: others =>
    simp only [leavesOfItems, List.mem_append, or_imp, forall_and, ← isSome_words? item,
      ← isSome_wordsOfItems? others, wordsOfItems?]
    cases words? item <;> cases wordsOfItems? others <;> simp

theorem isSome_wordsOfMembers? (members : List (String × Json)) :
    (wordsOfMembers? members).isSome = true ↔
      ∀ x, .float x ∈ leavesOfMembers members → (rereadFloat? x).isSome = true := by
  match members with
  | [] => simp [wordsOfMembers?, leavesOfMembers]
  | (name, value) :: others =>
    simp only [leavesOfMembers, List.mem_append, or_imp, forall_and, ← isSome_words? value,
      ← isSome_wordsOfMembers? others, wordsOfMembers?]
    cases words? value <;> cases wordsOfMembers? others <;> simp

end

mutual

theorem mapFloats_eq_self_iff (f : Double → Double) (j : Json) :
    j.mapFloats f = j ↔ ∀ x, .float x ∈ j.leaves → f x = x := by
  match j with
  | .null | .bool _ | .int _ | .text _ => simp [mapFloats, leaves]
  | .float x => simp [mapFloats, leaves]
  | .array items =>
    rw [mapFloats, leaves, Json.array.injEq, mapFloatsOfItems_eq_self_iff f items]
  | .object members =>
    rw [mapFloats, leaves, Json.object.injEq, mapFloatsOfMembers_eq_self_iff f members]

theorem mapFloatsOfItems_eq_self_iff (f : Double → Double) (items : List Json) :
    mapFloatsOfItems f items = items ↔ ∀ x, .float x ∈ leavesOfItems items → f x = x := by
  match items with
  | [] => simp [mapFloatsOfItems, leavesOfItems]
  | item :: others =>
    rw [mapFloatsOfItems, List.cons.injEq, mapFloats_eq_self_iff f item,
      mapFloatsOfItems_eq_self_iff f others]
    simp only [leavesOfItems, List.mem_append, or_imp, forall_and]

theorem mapFloatsOfMembers_eq_self_iff (f : Double → Double) (members : List (String × Json)) :
    mapFloatsOfMembers f members = members ↔
      ∀ x, .float x ∈ leavesOfMembers members → f x = x := by
  match members with
  | [] => simp [mapFloatsOfMembers, leavesOfMembers]
  | (name, value) :: others =>
    rw [mapFloatsOfMembers, List.cons.injEq, Prod.mk.injEq, mapFloats_eq_self_iff f value,
      mapFloatsOfMembers_eq_self_iff f others]
    simp only [leavesOfMembers, List.mem_append, or_imp, forall_and, true_and]

end

/-- What is read from the text of a document. -/
theorem read?_write_eq_some {l : Layout} {j j' : Json}
    (writable : ∀ leaf ∈ j.leaves, leaf.IsWritable) :
    read? (write l j) = some j' ↔
      j.depth ≤ depthLimit ∧ (∀ x, .float x ∈ j.leaves → (rereadFloat? x).isSome = true) ∧
        j' = j.mapFloats rereadFloat := by
  have lexed : tokens (write l j).toList = words? j := by
    have stops : Stops [] := nofun
    have all := lexes_write l j writable stops
    rw [Lexes, List.append_nil] at all
    rw [all]
    cases words? j with
    | none => rfl
    | some ws =>
      rw [Option.bind_some, tokens]
      simp
  rw [read?, lexed, ← isSome_words?]
  cases found : words? j with
  | none => simp
  | some ws =>
    have final := foldlM_words [] j found .value (Nat.zero_le _)
    rw [Option.bind_eq_bind, Option.bind_some, Reading.start, final]
    simp only [List.length_nil, Nat.zero_add, Option.isSome_some, true_and]
    by_cases fits : j.depth ≤ depthLimit
    · rw [if_pos fits]
      simp [fits, Reading.accept, eq_comm]
    · rw [if_neg fits]
      simp [fits]

end ProductSpec.Json
