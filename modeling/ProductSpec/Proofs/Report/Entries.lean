/-
  A report read as the outcomes of the checks that it was made of: all of them in the order in
  which the checks were made, and the findings and the passed checks at chosen places.
-/
import ProductSpec.Report.Basic
import Mathlib.Data.List.Induction
import Mathlib.Data.List.TakeWhile

namespace ProductSpec

namespace Entry

/-- The path of a passed check. -/
def passed? : Entry → Option NodePath
  | pass p => some p
  | finding _ => none

/-- Where something was found, and what. -/
def found? : Entry → Option (NodePath × Category)
  | pass _ => none
  | finding d => some (d.path, d.category)

end Entry

namespace Report

/-- What was found at some places, in the order in which it was found. -/
def foundAt (r : Report) (own : NodePath → Bool) : List (NodePath × Category) :=
  (r.diagnostics.filter fun d => own d.path).map fun d => (d.path, d.category)

/-- The checks that passed at some places. -/
def passedAt (r : Report) (own : NodePath → Bool) : List NodePath :=
  (r.passed.map Prod.snd).filter own

theorem ofEntries_eq (entries : List Entry) :
    (ofEntries entries).diagnostics = entries.filterMap Entry.diagnostic? ∧
      (ofEntries entries).passed.map Prod.snd = entries.filterMap Entry.passed? := by
  -- The checks that were made before count as well, so the report is general in the induction.
  suffices added : ∀ r : Report,
      (entries.foldl add r).diagnostics = r.diagnostics ++ entries.filterMap Entry.diagnostic? ∧
        (entries.foldl add r).passed.map Prod.snd =
          r.passed.map Prod.snd ++ entries.filterMap Entry.passed? from added empty
  induction entries with
  | nil => simp
  | cons e rest ih =>
    intro r
    obtain ⟨found, passed⟩ := ih (r.add e)
    rw [List.foldl_cons, found, passed]
    cases e <;> simp [add, push, pass, List.filterMap_cons, Entry.diagnostic?, Entry.passed?]

theorem ofEntries_concat (entries : List Entry) (e : Entry) :
    ofEntries (entries ++ [e]) = (ofEntries entries).add e := by
  rw [ofEntries, List.foldl_append]
  rfl

/-- No check is kept behind more findings than there are. -/
theorem passed_le (entries : List Entry) {p : Nat × NodePath}
    (h : p ∈ (ofEntries entries).passed) : p.1 ≤ (ofEntries entries).diagnostics.length := by
  induction entries using List.reverseRecOn with
  | nil => cases h
  | append_singleton entries e ih =>
    rw [ofEntries_concat] at h ⊢
    cases e with
    | pass path =>
      rcases List.mem_append.1 h with old | new
      · exact ih old
      · exact List.mem_singleton.1 new ▸ Nat.le_refl _
    | finding d =>
      have longer : ((ofEntries entries).push d).diagnostics.length =
          (ofEntries entries).diagnostics.length + 1 := List.length_append
      exact Nat.le_trans (ih h) (longer ▸ Nat.le_succ _)

/-- A check that passes after all findings is the last outcome. -/
theorem entriesFrom_pass {index position : Nat} {diagnostics : List Diagnostic}
    (passed : List (Nat × NodePath)) (path : NodePath)
    (last : index + diagnostics.length ≤ position) :
    entriesFrom index diagnostics (passed ++ [(position, path)]) =
      entriesFrom index diagnostics passed ++ [.pass path] := by
  induction diagnostics generalizing index passed with
  | nil => simp [entriesFrom]
  | cons d rest ih =>
    rw [List.length_cons] at last
    have later : ¬ position ≤ index := by omega
    have taken : (passed ++ [(position, path)]).takeWhile (fun p => decide (p.1 ≤ index)) =
        passed.takeWhile fun p => decide (p.1 ≤ index) := by
      rw [List.takeWhile_append]
      split
      · next all =>
        rw [List.takeWhile_cons_of_neg (by simpa using later), List.append_nil]
        exact ((List.takeWhile_prefix _).eq_of_length all).symm
      · rfl
    have dropped : (passed ++ [(position, path)]).dropWhile (fun p => decide (p.1 ≤ index)) =
        (passed.dropWhile fun p => decide (p.1 ≤ index)) ++ [(position, path)] := by
      rw [List.dropWhile_append]
      split
      · next none => simp [later, List.isEmpty_iff.1 none]
      · rfl
    rw [entriesFrom, entriesFrom, taken, dropped, ih _ (by omega), List.append_assoc,
      List.cons_append]

/-- A finding after all checks that passed is the last outcome. -/
theorem entriesFrom_finding {index : Nat} {diagnostics : List Diagnostic}
    {passed : List (Nat × NodePath)} (d : Diagnostic)
    (before : ∀ p ∈ passed, p.1 ≤ index + diagnostics.length) :
    entriesFrom index (diagnostics ++ [d]) passed =
      entriesFrom index diagnostics passed ++ [.finding d] := by
  induction diagnostics generalizing index passed with
  | nil =>
    have all : ∀ p ∈ passed, decide (p.1 ≤ index) = true := fun p mem =>
      decide_eq_true (before p mem)
    simp [entriesFrom, List.takeWhile_eq_self_iff.2 all, List.dropWhile_eq_nil_iff.2 all]
  | cons first rest ih =>
    have later : ∀ p ∈ passed.dropWhile (fun p => decide (p.1 ≤ index)),
        p.1 ≤ index + 1 + rest.length := by
      intro p mem
      have bound := before p ((List.dropWhile_sublist _).subset mem)
      rw [List.length_cons] at bound
      omega
    rw [List.cons_append, entriesFrom, entriesFrom, ih later, List.append_assoc, List.cons_append]

/-- The order in which the checks were made can be told from a report. -/
theorem entries_ofEntries (entries : List Entry) : (ofEntries entries).entries = entries := by
  induction entries using List.reverseRecOn with
  | nil => rfl
  | append_singleton entries e ih =>
    rw [ofEntries_concat]
    cases e with
    | pass path =>
      exact (entriesFrom_pass _ path (Nat.le_of_eq (Nat.zero_add _))).trans
        (congrArg (· ++ [Entry.pass path]) ih)
    | finding d =>
      have before : ∀ p ∈ (ofEntries entries).passed,
          p.1 ≤ 0 + (ofEntries entries).diagnostics.length := fun p mem => by
        rw [Nat.zero_add]
        exact passed_le entries mem
      exact (entriesFrom_finding d before).trans (congrArg (· ++ [Entry.finding d]) ih)

theorem mem_diagnostics {entries : List Entry} {d : Diagnostic} :
    d ∈ (ofEntries entries).diagnostics ↔ .finding d ∈ entries := by
  rw [(ofEntries_eq entries).1, List.mem_filterMap]
  constructor
  · rintro ⟨e, mem, found⟩
    cases e with
    | pass p => cases found
    | finding d' =>
      cases found
      exact mem
  · intro mem
    exact ⟨_, mem, rfl⟩

theorem mem_passed {entries : List Entry} {p : NodePath} :
    p ∈ (ofEntries entries).passed.map Prod.snd ↔ .pass p ∈ entries := by
  rw [(ofEntries_eq entries).2, List.mem_filterMap]
  constructor
  · rintro ⟨e, mem, passed⟩
    cases e with
    | pass p' =>
      cases passed
      exact mem
    | finding d => cases passed
  · intro mem
    exact ⟨_, mem, rfl⟩

/-- Only the outcomes at the places count. -/
theorem foundAt_ofEntries (entries : List Entry) (own : NodePath → Bool) :
    (ofEntries entries).foundAt own =
      (entries.filter fun e => own e.path).filterMap Entry.found? := by
  rw [foundAt, (ofEntries_eq entries).1, List.filter_filterMap, List.map_filterMap,
    List.filterMap_filter]
  congr 1
  funext e
  cases e with
  | pass p => simp [Entry.diagnostic?, Entry.found?]
  | finding d =>
    by_cases here : own d.path <;>
      simp [Entry.diagnostic?, Entry.path, Entry.found?, Option.filter, here]

theorem passedAt_ofEntries (entries : List Entry) (own : NodePath → Bool) :
    (ofEntries entries).passedAt own =
      (entries.filter fun e => own e.path).filterMap Entry.passed? := by
  rw [passedAt, (ofEntries_eq entries).2, List.filter_filterMap, List.filterMap_filter]
  congr 1
  funext e
  cases e with
  | pass p => by_cases here : own p <;> simp [Entry.path, Entry.passed?, here]
  | finding d => simp [Entry.passed?]

end Report

end ProductSpec
