/-
  Cutting texts that were put together from pieces: the pieces come out again if they do not hold
  the separator themselves.
-/
import ProductSpec.Text.Blank
import ProductSpec.Text.Split
import Mathlib.Data.List.TakeWhile

namespace ProductSpec.Text

variable {sep c : Char} {cs rest before : List Char}

theorem split_eq_splitOn (sep : Char) (cs : List Char) : split sep cs = cs.splitOn sep := by
  induction cs with
  | nil => rfl
  | cons c rest ih =>
    rw [split, List.splitOn_cons_eq_if_modifyHead, ih]
    simp only [beq_iff_eq]
    split
    · rfl
    · obtain ⟨first, others, form⟩ := List.exists_cons_of_ne_nil (List.splitOn_ne_nil sep rest)
      rw [form]
      rfl

theorem intercalate_split (sep : Char) (cs : List Char) : [sep].intercalate (split sep cs) = cs := by
  rw [split_eq_splitOn, List.intercalate_splitOn]

/-- No piece has the separator in it. -/
theorem notMem_of_mem_split {piece : List Char} (h : piece ∈ split sep cs) : sep ∉ piece := by
  fun_induction split sep cs generalizing piece with
  | case1 =>
    rw [List.mem_singleton.1 h]
    exact List.not_mem_nil
  | case2 rest ih =>
    rcases List.mem_cons.1 h with rfl | h
    · exact List.not_mem_nil
    · exact ih h
  | case3 c rest unlike none =>
    rw [List.mem_singleton.1 h]
    exact fun mem => unlike (List.mem_singleton.1 mem).symm
  | case4 c rest unlike first others form ih =>
    rw [form] at ih
    rcases List.mem_cons.1 h with rfl | h
    · exact fun mem => (List.mem_cons.1 mem).elim (fun same => unlike same.symm)
        (ih List.mem_cons_self)
    · exact ih (List.mem_cons_of_mem _ h)

theorem mem_of_mem_intercalate {pieces : List (List Char)} (h : c ∈ [sep].intercalate pieces) :
    c = sep ∨ ∃ piece ∈ pieces, c ∈ piece := by
  induction pieces with
  | nil => cases h
  | cons first rest ih =>
    cases rest with
    | nil =>
      rw [List.intercalate_singleton] at h
      exact .inr ⟨first, List.mem_singleton_self _, h⟩
    | cons second rest =>
      rw [List.intercalate_cons_cons, List.mem_append, List.mem_append] at h
      rcases h with (h | h) | h
      · exact .inr ⟨first, List.mem_cons_self, h⟩
      · exact .inl (List.mem_singleton.1 h)
      · exact (ih h).imp_right fun ⟨piece, mem, isIn⟩ =>
          ⟨piece, List.mem_cons_of_mem _ mem, isIn⟩

theorem splitFirst_append (h : sep ∉ before) :
    splitFirst sep (before ++ sep :: rest) = some (before, rest) := by
  induction before with
  | nil => exact if_pos rfl
  | cons c before ih =>
    rw [List.mem_cons, not_or] at h
    rw [List.cons_append, splitFirst, if_neg (Ne.symm h.1), ih h.2]
    rfl

theorem splitFirst_of_notMem (h : sep ∉ cs) : splitFirst sep cs = none := by
  induction cs with
  | nil => rfl
  | cons c rest ih =>
    rw [List.mem_cons, not_or] at h
    rw [splitFirst, if_neg (Ne.symm h.1), ih h.2]
    rfl

theorem eq_of_splitFirst (h : splitFirst sep cs = some (before, rest)) :
    cs = before ++ sep :: rest := by
  induction cs generalizing before with
  | nil => cases h
  | cons c cs ih =>
    rw [splitFirst] at h
    split at h
    · next same =>
      cases h
      rw [same, List.nil_append]
    · obtain ⟨⟨first, second⟩, found, form⟩ := Option.map_eq_some_iff.1 h
      cases form
      rw [ih found, List.cons_append]

theorem notMem_of_splitFirst (h : splitFirst sep cs = some (before, rest)) : sep ∉ before := by
  fun_induction splitFirst sep cs generalizing before rest with
  | case1 => cases h
  | case2 rest =>
    cases h
    exact List.not_mem_nil
  | case3 c cs unlike ih =>
    obtain ⟨⟨first, second⟩, found, form⟩ := Option.map_eq_some_iff.1 h
    cases form
    exact List.not_mem_cons_of_ne_of_not_mem (Ne.symm unlike) (ih found)

theorem splitFirst_eq_some_iff :
    splitFirst sep cs = some (before, rest) ↔ sep ∉ before ∧ cs = before ++ sep :: rest :=
  ⟨fun h => ⟨notMem_of_splitFirst h, eq_of_splitFirst h⟩,
    fun ⟨fresh, form⟩ => form ▸ splitFirst_append fresh⟩

theorem splitFirst_eq_none_iff : splitFirst sep cs = none ↔ sep ∉ cs := by
  refine ⟨fun missing mem => ?_, splitFirst_of_notMem⟩
  obtain ⟨before, rest, form, fresh⟩ := List.eq_append_cons_of_mem mem
  rw [form, splitFirst_append fresh] at missing
  cases missing

theorem dropStart?_eq_some_iff {start text : List Char} :
    dropStart? start text = some rest ↔ text = start ++ rest := by
  fun_induction dropStart? start text with
  | case1 text => simp
  | case2 => simp
  | case3 start c text ih => rw [ih, List.cons_append, List.cons.injEq, and_iff_right rfl]
  | case4 s start c text unlike => simp [Ne.symm unlike]

theorem dropLast?_eq_some_iff {last : Char} :
    dropLast? last cs = some before ↔ cs = before ++ [last] := by
  fun_induction dropLast? last cs generalizing before with
  | case1 => simp
  | case2 => cases before <;> simp
  | case3 c unlike => cases before <;> simp [unlike]
  | case4 c rest filled ih =>
    cases before with
    | nil => exact iff_of_false (by simp) fun h => filled (List.cons.inj h).2
    | cons d before =>
      simp only [Option.map_eq_some_iff, ih, List.cons_append, List.cons.injEq]
      exact ⟨fun ⟨_, form, same, here⟩ => ⟨same, here ▸ form⟩,
        fun ⟨same, form⟩ => ⟨before, form, same, rfl⟩⟩

theorem takeWhile_append_of_stop {p : Char → Bool} (all : ∀ c ∈ before, p c = true)
    (stop : ∀ c ∈ rest.head?, p c = false) :
    (before ++ rest).takeWhile p = before ∧ (before ++ rest).dropWhile p = rest := by
  rw [List.takeWhile_append_of_pos all, List.dropWhile_append_of_pos all]
  cases rest with
  | nil => simp
  | cons c rest => simp [stop c rfl]

/-- Two equal characters are found where they stand first. -/
theorem splitFirstText_pair (h : sep ∉ before) :
    splitFirstText [sep, sep] (before ++ sep :: sep :: rest) = some (before, rest) := by
  induction before with
  | nil =>
    rw [List.nil_append, splitFirstText, dropStart?, if_pos rfl, dropStart?, if_pos rfl]
    cases rest <;> rfl
  | cons c before ih =>
    rw [List.mem_cons, not_or] at h
    rw [List.cons_append, splitFirstText, dropStart?, if_neg h.1, ih h.2]
    rfl

theorem eq_of_splitFirstText {text : List Char}
    (h : splitFirstText text cs = some (before, rest)) : cs = before ++ text ++ rest := by
  fun_induction splitFirstText text cs generalizing before rest with
  | case1 =>
    obtain ⟨after, found, form⟩ := Option.map_eq_some_iff.1 h
    cases form
    exact dropStart?_eq_some_iff.1 found
  | case2 c cs after found =>
    cases h
    exact dropStart?_eq_some_iff.1 found
  | case3 c cs other ih =>
    obtain ⟨⟨first, second⟩, found, form⟩ := Option.map_eq_some_iff.1 h
    cases form
    rw [ih found, List.cons_append, List.cons_append]

/-- A text without blanks at its ends. -/
structure IsTrimmed (cs : List Char) : Prop where
  first : ∀ c ∈ cs.head?, isBlank c = false
  last : ∀ c ∈ cs.getLast?, isBlank c = false

instance : Decidable (IsTrimmed cs) :=
  decidable_of_iff (cs.head?.all (!isBlank ·) ∧ cs.getLast?.all (!isBlank ·)) <| by
    simp only [Option.all_eq_true, Bool.not_eq_true']
    exact ⟨fun ⟨first, last⟩ => ⟨first, last⟩, fun h => ⟨h.first, h.last⟩⟩

theorem dropEndWhile_append {p : Char → Bool} (h : p c = false) (cs : List Char) :
    dropEndWhile p (cs ++ [c]) = cs ++ [c] := by
  induction cs with
  | nil => rw [List.nil_append, dropEndWhile, dropEndWhile, h]; rfl
  | cons d cs ih =>
    rw [List.cons_append, dropEndWhile, ih]
    cases cs <;> rfl

theorem trim_of_isTrimmed (h : IsTrimmed cs) : trim cs = cs := by
  rcases List.eq_nil_or_concat cs with rfl | ⟨before, c, rfl⟩
  · rfl
  · rw [List.concat_eq_append] at h ⊢
    have last : isBlank c = false := h.last c (by simp)
    have first : (before ++ [c]).dropWhile isBlank = before ++ [c] := by
      cases before with
      | nil => simp [last]
      | cons d before => simp [h.first d rfl]
    rw [trim, first, dropEndWhile_append last]

theorem trim_ne_nil (h : IsTrimmed before) (filled : before ≠ []) : trim (before ++ rest) ≠ [] := by
  obtain ⟨c, others, rfl⟩ := List.exists_cons_of_ne_nil filled
  have first := h.first c rfl
  rw [List.cons_append, trim, List.dropWhile_cons_of_neg (by simp [first]), dropEndWhile]
  split
  · rw [if_neg (by simp [first])]
    exact List.cons_ne_nil _ _
  · exact List.cons_ne_nil _ _

theorem dropLast?_of_unlike {last : Char} (h : c ≠ last) (cs : List Char) :
    dropLast? last (cs ++ [c]) = none := by
  induction cs with
  | nil => exact if_neg h
  | cons d cs ih =>
    rw [List.cons_append, dropLast?, ih]
    · rfl
    · exact List.append_ne_nil_of_right_ne_nil _ (List.cons_ne_nil _ _)

theorem dropReturn_eq_self (h : cs.getLast? ≠ some '\r') : dropReturn cs = cs := by
  rcases List.eq_nil_or_concat cs with rfl | ⟨before, c, rfl⟩
  · rfl
  · have unlike : c ≠ '\r' := by simpa using h
    rw [List.concat_eq_append, dropReturn, dropLast?_of_unlike unlike]
    rfl

theorem dropReturn_sublist (cs : List Char) : (dropReturn cs).Sublist cs := by
  rw [dropReturn]
  cases last : dropLast? '\r' cs with
  | none => exact .refl _
  | some before =>
    rw [dropLast?_eq_some_iff.1 last]
    exact List.sublist_append_left ..

/-- No line has a line break in it. -/
theorem notMem_of_mem_lines {line : List Char} (h : line ∈ lines cs) : '\n' ∉ line := by
  simp only [lines, List.mem_map] at h
  obtain ⟨⟨piece, i⟩, mem, rfl⟩ := h
  have whole : piece ∈ split '\n' cs := by
    have mem := List.fst_mem_of_mem_zipIdx mem
    split at mem
    · exact List.dropLast_subset _ mem
    · exact mem
  have none := notMem_of_mem_split whole
  dsimp only
  split
  · exact fun isIn => none ((dropReturn_sublist piece).subset isIn)
  · exact none

theorem split_lines {texts : List (List Char)} (h : ∀ t ∈ texts, '\n' ∉ t) :
    split '\n' (texts.flatMap (· ++ ['\n'])) = texts ++ [[]] := by
  rw [split_eq_splitOn]
  induction texts with
  | nil => rfl
  | cons t rest ih =>
    obtain ⟨first, others⟩ := List.forall_mem_cons.1 h
    rw [List.flatMap_cons, List.append_assoc, List.singleton_append,
      List.splitOn_append_cons_self_of_not_mem first, ih others, List.cons_append]

/-- Lines that are written one after the other are read as they are. -/
theorem lines_flatMap {texts : List (List Char)} (h : ∀ t ∈ texts, '\n' ∉ t)
    (kept : ∀ t ∈ texts, dropReturn t = t) : lines (texts.flatMap (· ++ ['\n'])) = texts := by
  have pieces := split_lines h
  unfold lines
  simp only [pieces, List.getLast?_append, List.getLast?_singleton, Option.some_or, if_pos,
    List.dropLast_concat, List.length_append, List.length_singleton]
  refine List.ext_getElem (by simp) fun i inside _ => ?_
  have within : i < texts.length := by simpa using inside
  simp only [List.getElem_map, List.getElem_zipIdx, Nat.zero_add, Nat.add_lt_add_iff_right,
    if_pos within]
  exact kept _ (List.getElem_mem within)

end ProductSpec.Text
