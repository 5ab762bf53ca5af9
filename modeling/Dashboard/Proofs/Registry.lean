import Dashboard.Markup.Tree
import Dashboard.Registry
import Dashboard.Proofs.Module.Lines

/-!
Tags that the registry knows. Each is the name of an input, the name of a display, or an alias of the
chart, and begins with a capital letter.
-/
namespace Dashboard

open Dashboard.Module (IsWord)

namespace Registry

variable {tag : String} {spec : DisplaySpec} {implied : Option String}

theorem mem_inputs_of_lookup {spec : InputSpec} (h : lookup tag = .input spec) : spec ∈ inputs := by
  unfold lookup at h
  split at h
  · next found =>
    cases h
    exact List.mem_of_find?_eq_some found
  · split at h
    · cases h
    · split at h <;> cases h

theorem mem_displays_of_lookup (h : lookup tag = .display spec implied) : spec ∈ displays := by
  unfold lookup at h
  split at h
  · cases h
  · split at h
    · next found =>
      cases h
      exact List.mem_of_find?_eq_some found
    · split at h
      · cases h
        simp [displays]
      · cases h

/-- A tag that implies no type is the name of its display. -/
theorem name_of_lookup (h : lookup tag = .display spec none) : spec.name = tag := by
  unfold lookup at h
  split at h
  · cases h
  · split at h
    · next found =>
      cases h
      simpa using List.find?_some found
    · split at h <;> cases h

theorem lookup_displayName {name : String} (member : name ∈ displayNames) :
    lookup name ≠ .unknown := by
  revert name
  decide

theorem isWord_displayName : ∀ name ∈ displayNames, IsWord name := by
  unfold IsWord
  decide

theorem isWord_inputName : ∀ name ∈ inputNames, IsWord name := by
  unfold IsWord
  decide

theorem isWord_of_lookup_display (h : lookup tag = .display spec implied) : IsWord spec.name :=
  isWord_displayName _ (List.mem_map_of_mem (mem_displays_of_lookup h))

theorem isWord_of_lookup_input {spec : InputSpec} (h : lookup tag = .input spec) :
    IsWord spec.name :=
  isWord_inputName _ (List.mem_map_of_mem (mem_inputs_of_lookup h))

/-- The tags that the registry knows. -/
def tags : List String := inputNames ++ displayNames ++ chartAliases.map Prod.fst

theorem mem_tags_of_lookup (h : lookup tag ≠ .unknown) : tag ∈ tags := by
  by_contra unknown
  simp only [tags, List.mem_append, not_or] at unknown
  obtain ⟨⟨noInput, noDisplay⟩, noAlias⟩ := unknown
  have inputAbsent : input? tag = none := by
    refine List.find?_eq_none.mpr fun spec member same => noInput ?_
    exact List.mem_map.mpr ⟨spec, member, by simpa using same⟩
  have displayAbsent : display? tag = none := by
    refine List.find?_eq_none.mpr fun spec member same => noDisplay ?_
    exact List.mem_map.mpr ⟨spec, member, by simpa using same⟩
  have aliasAbsent : List.lookup tag chartAliases = none := by
    refine List.lookup_eq_none_iff.mpr fun entry member => ?_
    exact bne_iff_ne.mpr fun same => noAlias (List.mem_map.mpr ⟨entry, member, same.symm⟩)
  rw [lookup, inputAbsent, displayAbsent, aliasAbsent] at h
  exact h rfl

theorem isComponentName_of_lookup (h : lookup tag ≠ .unknown) :
    Markup.isComponentName tag = true := by
  have all : ∀ name ∈ tags, Markup.isComponentName name = true := by
    decide
  exact all tag (mem_tags_of_lookup h)

end Registry

end Dashboard
