/-
  Reports: what the checks of one file found. A report keeps the findings in order, and each
  passed check with the number of findings before it, so that both can be told in the order in
  which the checks were made.
-/
import ProductSpec.Dataset.Basic
import ProductSpec.Report.Severity

namespace ProductSpec

/-- One finding. -/
structure Diagnostic where
  path : NodePath
  severity : Severity
  category : Category
  message : String
  /-- What the definition asks for, if the finding is about one constraint. -/
  constraint : Option String
deriving DecidableEq, Repr, Inhabited

namespace Diagnostic

def isError (d : Diagnostic) : Bool := d.severity == .error

def text (d : Diagnostic) : String := d.path.text ++ " : " ++ d.message

end Diagnostic

structure Report where
  diagnostics : List Diagnostic
  /-- Each passed check behind the number of findings made before it. -/
  passed : List (Nat × NodePath)
deriving DecidableEq, Repr, Inhabited

/-- The outcome of one check. -/
inductive Entry
  | pass (path : NodePath)
  | finding (d : Diagnostic)
deriving DecidableEq, Repr, Inhabited

namespace Entry

def path : Entry → NodePath
  | pass p => p
  | finding d => d.path

def diagnostic? : Entry → Option Diagnostic
  | pass _ => none
  | finding d => some d

end Entry

namespace Report

def empty : Report := ⟨[], []⟩

def push (r : Report) (d : Diagnostic) : Report := { r with diagnostics := r.diagnostics ++ [d] }

def pass (r : Report) (path : NodePath) : Report :=
  { r with passed := r.passed ++ [(r.diagnostics.length, path)] }

def add (r : Report) : Entry → Report
  | .pass path => r.pass path
  | .finding d => r.push d

/-- The report of checks in the order in which they were made. -/
def ofEntries (entries : List Entry) : Report := entries.foldl add empty

/-- The outcomes from some finding on, a passed check as soon as its number is reached. -/
def entriesFrom (index : Nat) : List Diagnostic → List (Nat × NodePath) → List Entry
  | [], passed => passed.map fun p => .pass p.2
  | d :: rest, passed =>
    (passed.takeWhile fun p => p.1 ≤ index).map (fun p => .pass p.2) ++
      .finding d :: entriesFrom (index + 1) rest (passed.dropWhile fun p => p.1 ≤ index)

/-- All outcomes in the order in which the checks were made. -/
def entries (r : Report) : List Entry := entriesFrom 0 r.diagnostics r.passed

def checkCount (r : Report) : Nat := r.passed.length + r.diagnostics.length

def errors (r : Report) : List Diagnostic := r.diagnostics.filter fun d => d.severity == .error

def warnings (r : Report) : List Diagnostic :=
  r.diagnostics.filter fun d => d.severity == .warning

/-- A file is compliant if nothing found is an error. -/
def isCompliant (r : Report) : Bool := r.errors.isEmpty

def summary (r : Report) : String :=
  if r.isCompliant then "OK"
  else "ERROR (" ++ toString r.errors.length ++ " errors, " ++ toString r.warnings.length ++
    " warnings)"

end Report

end ProductSpec
