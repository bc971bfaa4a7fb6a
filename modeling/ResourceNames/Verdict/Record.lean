import ResourceNames.Json.Printer
import ResourceNames.Verdict.Basic

/-!
# Verdicts as JSON

The record of a verdict. What is empty is left out.
-/

namespace ResourceNames.Verdict

/-- The record that describes a verdict, its entries in their order. -/
def layout (v : Verdict) : Json.Layout :=
  let texts (key : String) (items : List String) : List (String × Json.Layout) :=
    if items.isEmpty then [] else [(key, .list (items.map fun s => .value (.str s)))]
  .record ([("valid", .value (.bool v.valid))] ++
    v.parsed.toList.map (fun r => ("parsedResource", .ofEntries r.recordEntries)) ++
    texts "errors" v.errors ++ texts "warnings" v.warnings ++
    v.reason.toList.map (fun r => ("reason", .value (.str r.name))) ++
    v.conversion.toList.map (fun c => ("conversion", .ofEntries c.recordEntries)))

/-- The record that describes a verdict. -/
def toRecord (v : Verdict) : Json := v.layout.content

end ResourceNames.Verdict
