/-
  Reports in documents.
-/
import ProductSpec.Report.Basic

namespace ProductSpec

open Json

namespace Diagnostic

def toJson (d : Diagnostic) : Json :=
  .object ([("path", .array (d.path.map .text)), ("severity", d.severity.toJson),
    ("category", d.category.toJson), ("message", .text d.message)] ++
    optional "constraint" (d.constraint.map .text))

def decode (j : Json) : Decoded Diagnostic := do
  let r ← record ["path", "severity", "category", "message", "constraint"] j
  let path ← r.required "path" (decodeList decodeText)
  let severity ← r.required "severity" Severity.decode
  let category ← r.required "category" Category.decode
  let message ← r.required "message" decodeText
  let constraint ← r.optional "constraint" decodeText
  r.finish
  return ⟨path, severity, category, message, constraint⟩

end Diagnostic

namespace Report

def passToJson (p : Nat × NodePath) : Json := .array [.ofNat p.1, .array (p.2.map .text)]

def decodePass : Json → Decoded (Nat × NodePath)
  | .array [position, path] => do return (← decodeNat position, ← decodeList decodeText path)
  | _ => .error .shape

def toJson (r : Report) : Json :=
  .object [("diagnostics", .array (r.diagnostics.map Diagnostic.toJson)),
    ("passed", .array (r.passed.map passToJson))]

def decode (j : Json) : Decoded Report := do
  let r ← record ["diagnostics", "passed"] j
  let diagnostics ← r.required "diagnostics" (decodeList Diagnostic.decode)
  let passed ← r.withDefault "passed" [] (decodeList decodePass)
  r.finish
  return ⟨diagnostics, passed⟩

end Report

end ProductSpec
