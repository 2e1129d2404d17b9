/-
  Comparisons in documents.
-/
import ProductSpec.Comparison.Change

namespace ProductSpec

open Json

namespace Change

def toJson (c : Change) : Json :=
  .object [("change_type", .text c.kind.code), ("path", .text c.path.text),
    ("old_value", (c.old.map .text).getD .null), ("new_value", (c.new.map .text).getD .null),
    ("is_breaking", .bool c.isBreaking), ("description", .text c.description)]

end Change

namespace Comparison

def toJson (c : Comparison) : Json :=
  .object [("is_compatible", .bool c.isCompatible),
    ("changes", .array (c.changes.map Change.toJson)), ("summary", .text c.summary)]

end Comparison

end ProductSpec
