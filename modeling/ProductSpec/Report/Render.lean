/-
  The text of a report. The full text replays all checks in the order in which they were made;
  the shorter ones leave out passed checks and what is not severe enough.
-/
import ProductSpec.Report.Basic

namespace ProductSpec

/-- How much of a report is shown. -/
inductive Verbosity
  | all
  | warningsAndErrors
  | errorsOnly
  | quiet
deriving DecidableEq, Repr, Inhabited

def Verbosity.shows (v : Verbosity) : Entry → Bool
  | .pass _ => v == .all
  | .finding d =>
    match v with
    | .all | .warningsAndErrors => true
    | .errorsOnly => d.isError
    | .quiet => false

/-- A label of a report's line fills seven columns. -/
def labelled (label text : String) : String :=
  label ++ "".pushn ' ' (7 - label.length) ++ " " ++ text

def Entry.line : Entry → String
  | pass path => labelled "OK" path.text
  | finding d => labelled d.severity.label d.text

namespace Report

def rule : String := "".pushn '-' 50

/-- The lines for the single checks, and in the full text their number. -/
def body (r : Report) (v : Verbosity) : List String :=
  (r.entries.filter v.shows).map Entry.line ++
    (if v = .all then [toString r.checkCount ++ " checks"] else [])

/-- The text of a report on a file and the definition it was checked against. Nothing is said in
quiet mode. -/
def render (r : Report) (v : Verbosity) (file definition : String) : String :=
  if v = .quiet then ""
  else Text.join "\n"
    ([rule, "Checking " ++ file ++ " against " ++ definition, rule] ++ r.body v ++
      [r.summary, rule]) ++ "\n"

end Report

end ProductSpec
