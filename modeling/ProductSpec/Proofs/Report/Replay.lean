/-
  The text of a report replays the checks: in the full text each check has one entry, in the order
  in which the checks were made, and the shorter texts leave entries out. Of the interleaving a
  report keeps only a number with each passed check; where these numbers are not those of a run,
  the full text still has every check once.
-/
import ProductSpec.Proofs.Report.Entries
import ProductSpec.Report.Render

namespace ProductSpec

namespace Entry

/-- The entry of a check in the text of a report: `OK` or how bad the finding is, in eight columns,
then where the check was made and what was found. -/
def told : Entry → String
  | pass path => "OK      " ++ " -> ".intercalate path
  | finding d =>
    (match d.severity with
      | .error => "ERROR   "
      | .warning => "WARNING ") ++ (" -> ".intercalate d.path ++ " : " ++ d.message)

theorem line_eq_told (e : Entry) : e.line = e.told := by
  cases e with
  | pass path => rfl
  | finding d =>
    have label : labelled d.severity.label d.text =
        (match d.severity with
          | .error => "ERROR   "
          | .warning => "WARNING ") ++ d.text := by
      cases d.severity <;> rfl
    exact label

end Entry

namespace Report

/-- The text of a report with the entries of its body: the heading stands above them between two
lines, and the summary and another line below. -/
def framed (r : Report) (file definition : String) (body : List String) : String :=
  Text.join "\n"
    ([rule, "Checking " ++ file ++ " against " ++ definition, rule] ++ body ++
      [r.summary, rule]) ++ "\n"

theorem render_eq_framed {v : Verbosity} (loud : v ≠ .quiet) (r : Report)
    (file definition : String) : r.render v file definition = r.framed file definition (r.body v) :=
  if_neg loud

/-- Whatever numbers the passed checks are kept with, all outcomes are told. -/
theorem filterMap_entriesFrom (index : Nat) (diagnostics : List Diagnostic)
    (passed : List (Nat × NodePath)) :
    (entriesFrom index diagnostics passed).filterMap Entry.diagnostic? = diagnostics ∧
      (entriesFrom index diagnostics passed).filterMap Entry.passed? = passed.map Prod.snd := by
  -- The passed checks that come first and those that are left are an arbitrary list cut in two.
  have passes (ps : List (Nat × NodePath)) :
      (ps.map fun p => Entry.pass p.2).filterMap Entry.diagnostic? = [] ∧
        (ps.map fun p => Entry.pass p.2).filterMap Entry.passed? = ps.map Prod.snd := by
    rw [List.filterMap_map, List.filterMap_map]
    exact ⟨List.filterMap_eq_nil_iff.2 fun _ _ => rfl, congrFun List.filterMap_eq_map ps⟩
  induction diagnostics generalizing index passed with
  | nil => exact passes passed
  | cons d rest ih =>
    obtain ⟨found, kept⟩ := ih (index + 1) (passed.dropWhile fun p => decide (p.1 ≤ index))
    obtain ⟨notFound, taken⟩ := passes (passed.takeWhile fun p => decide (p.1 ≤ index))
    rw [entriesFrom, List.filterMap_append, List.filterMap_append]
    constructor
    · rw [notFound, List.nil_append,
        List.filterMap_cons_some (f := Entry.diagnostic?) (b := d) rfl, found]
    · rw [taken, List.filterMap_cons_none rfl, kept, ← List.map_append,
        List.takeWhile_append_dropWhile]

theorem filterMap_entries (r : Report) :
    r.entries.filterMap Entry.diagnostic? = r.diagnostics ∧
      r.entries.filterMap Entry.passed? = r.passed.map Prod.snd :=
  filterMap_entriesFrom 0 r.diagnostics r.passed

/-- A report of some checks counts all of them. -/
theorem checkCount_ofEntries (entries : List Entry) :
    (ofEntries entries).checkCount = entries.length := by
  induction entries using List.reverseRecOn with
  | nil => rfl
  | append_singleton entries e ih =>
    rw [ofEntries_concat, List.length_append, ← ih]
    unfold checkCount
    cases e with
    | pass path => simp [add, pass]; omega
    | finding d => simp [add, push]; omega

theorem body_eq (r : Report) (v : Verbosity) :
    r.body v = (r.entries.filter v.shows).map Entry.told ++
      (if v = .all then [toString r.checkCount ++ " checks"] else []) := by
  rw [body, List.map_congr_left fun e _ => e.line_eq_told]

/-- The full text leaves out nothing. -/
theorem body_all (r : Report) :
    r.body .all = r.entries.map Entry.told ++ [toString r.checkCount ++ " checks"] := by
  rw [body_eq, if_pos rfl, List.filter_eq_self.2 fun e _ => by cases e <;> rfl]

/-- A shorter text of the report of some checks has those of them that it shows. -/
theorem body_ofEntries {v : Verbosity} {p : Entry → Bool} (isShorter : v ≠ .all)
    (shows : ∀ e, v.shows e = p e) (checks : List Entry) :
    (ofEntries checks).body v = (checks.filter p).map Entry.told := by
  rw [body_eq, if_neg isShorter, List.append_nil, entries_ofEntries,
    List.filter_congr fun e _ => shows e]

/-- The full text of the report of some checks has one entry for each of them, in the order in which
they were made, and their number; the shorter texts have the findings among them, or the errors. The
full text of any report has every passed check and every finding once, and each kind in its
order. -/
theorem render_replays (file definition : String) :
    (∀ checks : List Entry,
      (ofEntries checks).render .all file definition =
        (ofEntries checks).framed file definition
          (checks.map Entry.told ++ [toString checks.length ++ " checks"]) ∧
      (ofEntries checks).render .warningsAndErrors file definition =
        (ofEntries checks).framed file definition
          ((checks.filter fun e => e.diagnostic?.isSome).map Entry.told) ∧
      (ofEntries checks).render .errorsOnly file definition =
        (ofEntries checks).framed file definition
          ((checks.filter fun e => e.diagnostic?.any fun d => d.severity = .error).map
            Entry.told)) ∧
    ∀ r : Report, ∃ order : List Entry,
      r.render .all file definition =
        r.framed file definition
          (order.map Entry.told ++
            [toString (r.passed.length + r.diagnostics.length) ++ " checks"]) ∧
      order.filterMap Entry.diagnostic? = r.diagnostics ∧
      order.filterMap Entry.passed? = r.passed.map Prod.snd := by
  refine ⟨fun checks => ⟨?_, ?_, ?_⟩, fun r => ⟨r.entries, ?_, r.filterMap_entries⟩⟩
  · rw [render_eq_framed (v := .all) nofun, body_all, entries_ofEntries, checkCount_ofEntries]
  · have body := body_ofEntries (v := .warningsAndErrors) (p := fun e => e.diagnostic?.isSome)
      nofun (fun e => by cases e <;> rfl) checks
    rw [render_eq_framed (v := .warningsAndErrors) nofun, body]
  · have body := body_ofEntries (v := .errorsOnly)
      (p := fun e => e.diagnostic?.any fun d => d.severity = .error)
      nofun (fun e => by cases e <;> rfl) checks
    rw [render_eq_framed (v := .errorsOnly) nofun, body]
  · rw [render_eq_framed (v := .all) nofun, body_all]
    rfl

end Report

end ProductSpec
