import Dashboard.Prefilter
import Dashboard.Proofs.Pattern

/-!
What the pre-filter reports. A category is reported when its pattern matches somewhere in the text, so
what is found in a text is found as well where the text stands on lines of its own in another one.
-/
namespace Dashboard.Prefilter

open Text Text.Pattern

/-- The categories that are reported for a text. -/
def reported (source : String) : List Category := (scan source).map Violation.category

/-- A category is reported once, if there is a match. -/
theorem reported_eq (source : String) : reported source =
    Category.all.filter fun category => (category.pattern.find? none source.toList).isSome := by
  rw [reported, scan, List.map_filterMap]
  have kept (all : List Category) : (all.filterMap fun category =>
      ((category.pattern.firstMatch? source.toList).map fun found =>
        (⟨category, trim found⟩ : Violation)).map Violation.category) =
      all.filter fun category => (category.pattern.find? none source.toList).isSome := by
    induction all with
    | nil => rfl
    | cons category more ih =>
      rw [List.filterMap_cons, List.filter_cons, ih, firstMatch?]
      cases category.pattern.find? none source.toList <;> rfl
  exact kept Category.all

/-- What is reported for a text is reported for every document that holds it on lines of its own,
each category once and in the order of the categories. -/
theorem reported_of_surrounded (before text behind : String) :
    (reported text).Sublist (reported (before ++ "\n" ++ text ++ "\n" ++ behind)) ∧
      (reported (before ++ "\n" ++ text ++ "\n" ++ behind)).Sublist Category.all ∧
      Category.all.Nodup := by
  have feed : "\n".toList = ['\n'] := String.toList_ofList
  have apart : Place.isWord (some '\n') = false := by decide
  have chars : (before ++ "\n" ++ text ++ "\n" ++ behind).toList =
      before.toList ++ ['\n'] ++ text.toList ++ '\n' :: behind.toList := by
    simp [String.toList_append, feed]
  refine ⟨?_, ?_, by decide⟩
  · rw [reported_eq, reported_eq, chars]
    refine List.monotone_filter_right _ fun category found => ?_
    refine isSome_find?_of_surrounded found ?_ apart
    rw [List.getLast?_concat]
    exact apart
  · rw [reported_eq]
    exact List.filter_sublist

/-- Without the line feeds a word may run on. -/
example : reported "eval(x)" = [.dynamicCode] ∧ reported ("medi" ++ "eval(x)") = [] := by decide +kernel

end Dashboard.Prefilter
