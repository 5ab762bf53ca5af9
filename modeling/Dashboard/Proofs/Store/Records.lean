import Dashboard.Store
import Dashboard.Proofs.Json.Spread

/-!
Stored pages as text: a record is read back from the text that it is written as.
-/
namespace Dashboard

namespace Json

theorem arePrintable_strings (texts : List String) : ArePrintable (texts.map .str) := by
  induction texts with
  | nil => trivial
  | cons text more ih => exact ⟨trivial, ih⟩

theorem isStandard_strings (levels : Nat) (texts : List String) :
    IsStandard (levels + 1) (strings texts) := by
  refine areStandard_iff.mpr fun v member => ?_
  obtain ⟨text, -, rfl⟩ := List.mem_map.mp member
  simp [IsStandard]

/-- A list of texts is read as it was written. -/
theorem toJson?_strings (texts : List String) :
    (form (strings texts)).toJson? = some (strings texts) := by
  have same : relayed (strings texts) = strings texts := by
    rw [strings, relayed, relayedItems_eq_map, List.map_map]
    exact congrArg arr (List.map_congr_left fun text _ => by simp [relayed])
  have read : (form (strings texts)).value? maxNesting = some (relayed (strings texts)) :=
    value?_form (isStandard_strings 126 texts)
  rw [Form.toJson?, read, same]

theorem mapM_string?_strings (texts : List String) :
    (texts.map Json.str).mapM Json.string? = some texts := by
  induction texts with
  | nil => rfl
  | cons text more ih => rw [List.map_cons, List.mapM_cons, ih]; rfl

end Json

namespace Record

variable (r : Record)

/-- The members of the text of a record. -/
def members : List (Option String × Json.Form) :=
  [(some "source", .string (some r.source)), (some "compiled", .string (some r.compiled)),
    (some "warnings", Json.form (.strings r.warnings)),
    (some "lastModified", .string (some r.lastModified))]

theorem ofChars?_spread : Json.Form.ofChars? r.toJson.spread.toList = some (.object r.members) :=
  Json.ofChars?_spread ⟨trivial, trivial, Json.arePrintable_strings r.warnings, trivial, trivial⟩

/-- Each field of a record stands in its text once. -/
theorem mapM_member?_members : fieldNames.mapM (member? r.members) =
    some [.str r.source, .str r.compiled, .strings r.warnings, .str r.lastModified] := by
  have source : member? r.members "source" = some (.str r.source) := rfl
  have compiled : member? r.members "compiled" = some (.str r.compiled) := rfl
  have warnings : member? r.members "warnings" = some (.strings r.warnings) :=
    Json.toJson?_strings r.warnings
  have lastModified : member? r.members "lastModified" = some (.str r.lastModified) := rfl
  simp only [fieldNames, List.mapM_cons, List.mapM_nil, source, compiled, warnings, lastModified,
    Option.bind_eq_bind, Option.bind_some, Option.pure_def]

theorem ofText?_spread : ofText? r.toJson.spread = some r := by
  have named : (r.members.any fun member => member.1.isNone) = false := rfl
  have fields : ofFields?
      [.str r.source, .str r.compiled, .strings r.warnings, .str r.lastModified] = some r := by
    rw [Json.strings, ofFields?, Json.mapM_string?_strings]
    rfl
  rw [ofText?, ofChars?_spread, Option.bind_eq_bind, Option.bind_some, ofForm?, named,
    mapM_member?_members]
  exact fields

end Record

end Dashboard
