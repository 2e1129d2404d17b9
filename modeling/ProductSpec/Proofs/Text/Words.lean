/-
  The words of a text and what is left of it when the blanks at its ends are dropped, told by the
  blanks between them: a text is put together from its words in one way, the lengths of the runs of
  blanks apart. Words are the runs without blanks; what is true of them on this account is said of
  the runs without any kind of character.
-/
import ProductSpec.Proofs.Text.Cut
import Mathlib.Data.List.Basic

namespace ProductSpec.Text

variable {cs rest before after word : List Char} {c : Char}

section Runs

variable {p : Char → Bool} {run : List Char}

theorem runsWithout_append_dropped (h : ∀ c ∈ before, p c = true) (cs : List Char) :
    runsWithout p (before ++ cs) = runsWithout p cs := by
  induction before with
  | nil => rfl
  | cons c before ih =>
    obtain ⟨first, others⟩ := List.forall_mem_cons.1 h
    rw [List.cons_append, runsWithout.eq_def]
    dsimp only
    rw [if_pos first]
    exact ih others

/-- A run that stands first is the first one. -/
theorem runsWithout_append_run (nonempty : run ≠ []) (kept : ∀ c ∈ run, p c = false)
    (stop : ∀ c ∈ rest.head?, p c = true) :
    runsWithout p (run ++ rest) = run :: runsWithout p rest := by
  induction run with
  | nil => exact absurd rfl nonempty
  | cons c run ih =>
    obtain ⟨first, others⟩ := List.forall_mem_cons.1 kept
    rw [List.cons_append, runsWithout.eq_def]
    dsimp only
    rw [if_neg (by simp [first])]
    cases run with
    | nil =>
      cases rest with
      | nil => rfl
      | cons d rest =>
        have dropped : p d = true := stop d rfl
        simp only [List.nil_append, if_pos dropped]
    | cons d run =>
      have further := ih (List.cons_ne_nil d run) others
      have unlike : ¬ p d = true := by simp [others d List.mem_cons_self]
      simp only [List.cons_append, if_neg unlike] at further ⊢
      rw [further]

theorem runsWithout_dropped (h : ∀ c ∈ cs, p c = true) : runsWithout p cs = [] := by
  have same := runsWithout_append_dropped h []
  rw [List.append_nil] at same
  exact same

/-- All of a text is dropped, or it has a first run. -/
theorem dropped_or_run (p : Char → Bool) (cs : List Char) :
    (∀ c ∈ cs, p c = true) ∨ ∃ before run rest, (∀ c ∈ before, p c = true) ∧ run ≠ [] ∧
      (∀ c ∈ run, p c = false) ∧ (∀ c ∈ rest.head?, p c = true) ∧ cs = before ++ run ++ rest := by
  cases left : cs.dropWhile p with
  | nil => exact .inl (List.dropWhile_eq_nil_iff.1 left)
  | cons c tail =>
    have filled : p c = false := by
      have first := List.head?_dropWhile_not p cs
      rw [left] at first
      simpa using first
    refine .inr ⟨cs.takeWhile p, (c :: tail).takeWhile (!p ·), (c :: tail).dropWhile (!p ·),
      fun _ => List.mem_takeWhile_imp, ?_, ?_, ?_, ?_⟩
    · rw [List.takeWhile_cons_of_pos (by simp [filled])]
      exact List.cons_ne_nil _ _
    · intro d mem
      simpa using List.mem_takeWhile_imp mem
    · intro d mem
      have first := List.head?_dropWhile_not (!p ·) (c :: tail)
      rw [Option.mem_def.1 mem] at first
      simpa using first
    · rw [List.append_assoc, List.takeWhile_append_dropWhile, ← left,
        List.takeWhile_append_dropWhile]

/-- What holds of a text of which all is dropped, and of one with a first run if it holds of what
is behind that run, holds of every text. -/
theorem runs_induction (p : Char → Bool) {motive : List Char → Prop}
    (dropped : ∀ cs, (∀ c ∈ cs, p c = true) → motive cs)
    (run : ∀ before run rest, (∀ c ∈ before, p c = true) → run ≠ [] → (∀ c ∈ run, p c = false) →
      (∀ c ∈ rest.head?, p c = true) → motive rest → motive (before ++ run ++ rest))
    (cs : List Char) : motive cs := by
  induction length : cs.length using Nat.strong_induction_on generalizing cs with
  | h n ih =>
    subst length
    rcases dropped_or_run p cs with all | ⟨before, first, rest, all, filled, kept, stop, rfl⟩
    · exact dropped cs all
    · have shorter : rest.length < (before ++ first ++ rest).length := by
        have positive := List.length_pos_iff.2 filled
        simp only [List.length_append]
        omega
      exact run before first rest all filled kept stop (ih _ shorter rest rfl)

/-- A maximal non-empty run of characters of a text of which `p` does not hold. -/
structure IsRun (p : Char → Bool) (cs run : List Char) : Prop where
  nonempty : run ≠ []
  kept : ∀ c ∈ run, p c = false
  maximal : ∃ before after, cs = before ++ run ++ after ∧
    (∀ c ∈ before.getLast?, p c = true) ∧ ∀ c ∈ after.head?, p c = true

/-- Behind a character that is dropped the runs begin anew. -/
theorem runsWithout_append (h : ∀ c ∈ before.getLast?, p c = true) (cs : List Char) :
    runsWithout p (before ++ cs) = runsWithout p before ++ runsWithout p cs := by
  induction before using runs_induction p with
  | dropped before all =>
    rw [runsWithout_append_dropped all, runsWithout_dropped all, List.nil_append]
  | run first run rest all filled kept stop ih =>
    -- The text does not end with its first run, for no character of the run is dropped.
    have goesOn : rest ≠ [] := by
      rintro rfl
      rw [List.append_nil, List.getLast?_append_of_ne_nil _ filled] at h
      obtain ⟨c, last⟩ := Option.ne_none_iff_exists'.1 (mt List.getLast?_eq_none_iff.1 filled)
      have unlike := kept c (List.mem_of_mem_getLast? last)
      rw [h c last] at unlike
      cases unlike
    rw [List.getLast?_append_of_ne_nil _ goesOn] at h
    have stop' : ∀ c ∈ (rest ++ cs).head?, p c = true := by
      rwa [List.head?_append_of_ne_nil _ goesOn]
    rw [List.append_assoc first, List.append_assoc first, runsWithout_append_dropped all,
      runsWithout_append_dropped all, List.append_assoc run,
      runsWithout_append_run filled kept stop', runsWithout_append_run filled kept stop, ih h,
      List.cons_append]

/-- The runs of a text are the maximal ones. -/
theorem mem_runsWithout_iff : run ∈ runsWithout p cs ↔ IsRun p cs run := by
  constructor
  · intro h
    induction cs using runs_induction p with
    | dropped cs all =>
      rw [runsWithout_dropped all] at h
      cases h
    | run first word rest all filled kept stop ih =>
      rw [List.append_assoc, runsWithout_append_dropped all,
        runsWithout_append_run filled kept stop] at h
      rcases List.mem_cons.1 h with rfl | h
      · exact ⟨filled, kept, first, rest, rfl,
          fun c mem => all c (List.mem_of_mem_getLast? mem), stop⟩
      · obtain ⟨nonempty, kept', before, after, rfl, start, stop'⟩ := ih h
        refine ⟨nonempty, kept', first ++ word ++ before, after, by simp, ?_, stop'⟩
        -- A character stands between the first run and this one, since the first one ends.
        have between : before ≠ [] := by
          rintro rfl
          obtain ⟨c, tail, rfl⟩ := List.exists_cons_of_ne_nil nonempty
          have unlike := kept' c List.mem_cons_self
          rw [stop c rfl] at unlike
          cases unlike
        rwa [List.getLast?_append_of_ne_nil _ between]
  · rintro ⟨nonempty, kept, before, after, rfl, start, stop⟩
    rw [List.append_assoc, runsWithout_append start, runsWithout_append_run nonempty kept stop]
    exact List.mem_append_right _ List.mem_cons_self

end Runs

/-- A run of blank characters, which may be empty. -/
def AllBlank (cs : List Char) : Prop := ∀ c ∈ cs, isBlank c = true

instance : Decidable (AllBlank cs) := decidable_of_iff (cs.all isBlank = true) List.all_eq_true

theorem AllBlank.nil : AllBlank [] := nofun

theorem allBlank_cons : AllBlank (c :: cs) ↔ isBlank c = true ∧ AllBlank cs := List.forall_mem_cons

/-- A character that is not blank is in no run of blanks. -/
theorem AllBlank.notMem (h : AllBlank cs) (filled : isBlank c = false) : c ∉ cs := by
  intro mem
  rw [h c mem] at filled
  cases filled

/-- A run of characters that are not blank. -/
structure IsWord (cs : List Char) : Prop where
  nonempty : cs ≠ []
  filled : ∀ c ∈ cs, isBlank c = false

instance : Decidable (IsWord cs) :=
  decidable_of_iff (cs ≠ [] ∧ cs.all (!isBlank ·) = true)
    ⟨fun ⟨nonempty, filled⟩ => ⟨nonempty, by simpa using filled⟩,
      fun h => ⟨h.nonempty, by simpa using h.filled⟩⟩

theorem IsWord.isTrimmed (h : IsWord cs) : IsTrimmed cs :=
  ⟨fun c mem => h.filled c (List.mem_of_mem_head? mem),
    fun c mem => h.filled c (List.mem_of_mem_getLast? mem)⟩

theorem dropWhile_eq_nil (h : AllBlank cs) : cs.dropWhile isBlank = [] :=
  List.dropWhile_eq_nil_iff.2 h

theorem dropEndWhile_eq_nil (h : AllBlank cs) : dropEndWhile isBlank cs = [] := by
  induction cs with
  | nil => rfl
  | cons c cs ih =>
    obtain ⟨blank, others⟩ := allBlank_cons.1 h
    rw [dropEndWhile, ih others]
    exact if_pos blank

theorem dropEndWhile_append_blank (h : AllBlank after) (cs : List Char) :
    dropEndWhile isBlank (cs ++ after) = dropEndWhile isBlank cs := by
  induction cs with
  | nil => exact dropEndWhile_eq_nil h
  | cons c cs ih => rw [List.cons_append, dropEndWhile, ih, dropEndWhile]

theorem exists_dropEndWhile (cs : List Char) :
    ∃ after, AllBlank after ∧ cs = dropEndWhile isBlank cs ++ after := by
  induction cs with
  | nil => exact ⟨[], .nil, rfl⟩
  | cons c cs ih =>
    obtain ⟨after, blank, form⟩ := ih
    rw [dropEndWhile]
    split
    · next none =>
      rw [none, List.nil_append] at form
      split
      · next isBlank => exact ⟨c :: cs, allBlank_cons.2 ⟨isBlank, form ▸ blank⟩, rfl⟩
      · exact ⟨cs, form ▸ blank, rfl⟩
    · exact ⟨after, blank, by rw [List.cons_append, ← form]⟩

/-- Only blanks are dropped. -/
theorem exists_trim (cs : List Char) :
    ∃ before after, AllBlank before ∧ AllBlank after ∧ cs = before ++ trim cs ++ after := by
  obtain ⟨after, blank, form⟩ := exists_dropEndWhile (cs.dropWhile isBlank)
  refine ⟨cs.takeWhile isBlank, after, fun _ => List.mem_takeWhile_imp, blank, ?_⟩
  rw [List.append_assoc, trim, ← form, List.takeWhile_append_dropWhile]

theorem notBlank_of_mem_getLast? (h : c ∈ (dropEndWhile isBlank cs).getLast?) :
    isBlank c = false := by
  induction cs with
  | nil => cases h
  | cons d cs ih =>
    rw [dropEndWhile] at h
    split at h
    · split at h
      · cases h
      · next filled =>
        obtain rfl : d = c := by simpa using h
        simpa using filled
    · next kept =>
      obtain ⟨e, rest, form⟩ := List.exists_cons_of_ne_nil kept
      rw [form, List.getLast?_cons_cons, ← form] at h
      exact ih h

/-- No blank is left at the ends. -/
theorem isTrimmed_trim (cs : List Char) : IsTrimmed (trim cs) := by
  refine ⟨fun c mem => ?_, fun c mem => notBlank_of_mem_getLast? mem⟩
  obtain ⟨after, -, form⟩ := exists_dropEndWhile (cs.dropWhile isBlank)
  have first : (cs.dropWhile isBlank).head? = some c := by
    rw [form, List.head?_append, ← trim, Option.mem_def.1 mem, Option.some_or]
  have stop := List.head?_dropWhile_not isBlank cs
  rwa [first] at stop

/-- All blanks at the ends are dropped. -/
theorem trim_padded (h : IsTrimmed cs) (blank : AllBlank before) (blank' : AllBlank after) :
    trim (before ++ cs ++ after) = cs := by
  have first : (before ++ (cs ++ after)).dropWhile isBlank = (cs ++ after).dropWhile isBlank :=
    List.dropWhile_append_of_pos blank
  have core := trim_of_isTrimmed h
  unfold trim at core ⊢
  rw [List.append_assoc, first]
  cases cs with
  | nil => rw [List.nil_append, dropWhile_eq_nil blank']; rfl
  | cons c cs =>
    have filled : ¬ isBlank c = true := by simp [h.first c rfl]
    rw [List.dropWhile_cons_of_neg filled] at core
    rw [List.cons_append, List.dropWhile_cons_of_neg filled, ← List.cons_append,
      dropEndWhile_append_blank blank', core]

/-- What is left is the text with blanks around it taken off. -/
theorem trim_eq_iff {core : List Char} (h : IsTrimmed core) :
    trim cs = core ↔
      ∃ before after, AllBlank before ∧ AllBlank after ∧ cs = before ++ core ++ after := by
  constructor
  · rintro rfl
    exact exists_trim cs
  · rintro ⟨before, after, blank, blank', rfl⟩
    exact trim_padded h blank blank'

/-- The text is at its end, or a blank stands first. -/
def EndsWord (cs : List Char) : Prop := ∀ c ∈ cs.head?, isBlank c = true

theorem AllBlank.endsWord (h : AllBlank cs) : EndsWord cs :=
  fun c mem => h c (List.mem_of_mem_head? mem)

theorem words_append_blank (h : AllBlank before) (cs : List Char) :
    words (before ++ cs) = words cs :=
  runsWithout_append_dropped h cs

/-- A word that stands first is the first one. -/
theorem words_append_word (h : IsWord word) (stop : EndsWord rest) :
    words (word ++ rest) = word :: words rest :=
  runsWithout_append_run h.nonempty h.filled stop

/-- A text is blank, or it has a first word. -/
theorem allBlank_or_word (cs : List Char) :
    AllBlank cs ∨ ∃ before word rest, AllBlank before ∧ IsWord word ∧ EndsWord rest ∧
      cs = before ++ word ++ rest := by
  refine (dropped_or_run isBlank cs).imp_right fun ⟨before, word, rest, blank, form⟩ => ?_
  obtain ⟨nonempty, filled, stop, rfl⟩ := form
  exact ⟨before, word, rest, blank, ⟨nonempty, filled⟩, stop, rfl⟩

theorem words_eq_nil_iff : words cs = [] ↔ AllBlank cs := by
  constructor
  · intro none
    rcases allBlank_or_word cs with blank | ⟨before, word, rest, blank, isWord, stop, rfl⟩
    · exact blank
    · rw [List.append_assoc, words_append_blank blank, words_append_word isWord stop] at none
      cases none
  · exact runsWithout_dropped

/-- The first word of a text and the others. -/
theorem words_eq_cons_iff {others : List (List Char)} :
    words cs = word :: others ↔ ∃ before rest, AllBlank before ∧ IsWord word ∧ EndsWord rest ∧
      cs = before ++ word ++ rest ∧ words rest = others := by
  constructor
  · intro found
    rcases allBlank_or_word cs with blank | ⟨before, first, rest, blank, isWord, stop, rfl⟩
    · rw [words_eq_nil_iff.2 blank] at found
      cases found
    · rw [List.append_assoc, words_append_blank blank, words_append_word isWord stop] at found
      obtain ⟨rfl, rfl⟩ := List.cons.inj found
      exact ⟨before, rest, blank, isWord, stop, rfl, rfl⟩
  · rintro ⟨before, rest, blank, isWord, stop, rfl, rfl⟩
    rw [List.append_assoc, words_append_blank blank, words_append_word isWord stop]

/-- A text has one word if there are only blanks around it. -/
theorem words_eq_single_iff (h : IsWord word) :
    words cs = [word] ↔ ∃ before after, AllBlank before ∧ AllBlank after ∧
      cs = before ++ word ++ after := by
  rw [words_eq_cons_iff]
  constructor
  · rintro ⟨before, rest, blank, -, -, form, none⟩
    exact ⟨before, rest, blank, words_eq_nil_iff.1 none, form⟩
  · rintro ⟨before, after, blank, blank', form⟩
    exact ⟨before, after, blank, h, blank'.endsWord, form, words_eq_nil_iff.2 blank'⟩

/-- A text has two words if there are only blanks around them, and some between them. -/
theorem words_eq_pair_iff {first second : List Char} (h : IsWord first) (h' : IsWord second) :
    words cs = [first, second] ↔ ∃ before between after, AllBlank before ∧ AllBlank between ∧
      between ≠ [] ∧ AllBlank after ∧ cs = before ++ (first ++ between ++ second) ++ after := by
  rw [words_eq_cons_iff]
  constructor
  · rintro ⟨before, rest, blank, -, stop, rfl, one⟩
    obtain ⟨between, after, blank', blank'', rfl⟩ := (words_eq_single_iff h').1 one
    refine ⟨before, between, after, blank, blank', ?_, blank'', by simp⟩
    -- Without a blank between them the second word would go on with the first.
    rintro rfl
    obtain ⟨c, tail, rfl⟩ := List.exists_cons_of_ne_nil h'.nonempty
    have filled := h'.filled c List.mem_cons_self
    rw [stop c rfl] at filled
    cases filled
  · rintro ⟨before, between, after, blank, blank', some, blank'', rfl⟩
    refine ⟨before, between ++ second ++ after, blank, h, ?_, by simp,
      (words_eq_single_iff h').2 ⟨between, after, blank', blank'', rfl⟩⟩
    obtain ⟨c, tail, rfl⟩ := List.exists_cons_of_ne_nil some
    intro d mem
    exact Option.mem_some_iff.1 mem ▸ blank' c List.mem_cons_self

end ProductSpec.Text
