import Dashboard.Analysis
import Dashboard.Proofs.Component.Numbering

/-!
Inputs in an analysis. A component stands inside an input when one is met on the way from parent to parent;
the components that do not are those of the elements outside of inputs.
-/
namespace Dashboard

open Dashboard.Component (Lists Listed Adds Numbers childless reported reported?)
open Dashboard.Markup (Attribute)

namespace Analysis

def component? (a : Analysis) (id : Nat) : Option Component :=
  (a.inputs ++ a.displays).find? fun component => component.id = id

/-- Whether an input is met from a parent upwards within so many steps. -/
def meetsInput (a : Analysis) : Nat → Option Nat → Bool
  | 0, _ | _ + 1, none => false
  | steps + 1, some id =>
    (a.component? id).any fun outer => outer.role = .input || a.meetsInput steps outer.parent

/-- Whether a component stands inside an input. Parents have lower numbers, so the steps are enough. -/
def isNested (a : Analysis) (component : Component) : Bool :=
  a.meetsInput component.id component.parent

def outerInputs (a : Analysis) : List Component := a.inputs.filter fun component => !a.isNested component

def outerDisplays (a : Analysis) : List Component :=
  a.displays.filter fun component => !a.isNested component

/-- An analysis that shows the components of some elements. -/
structure Shows (a : Analysis) (entries : List Listed) (elements : List (String × List Attribute)) :
    Prop where
  lists : Lists 0 none false entries elements
  inputs : a.inputs.map childless =
    (entries.map Listed.component).filter fun component => component.role = .input
  displays : a.displays.map childless =
    (entries.map Listed.component).filter fun component => component.role = .display

namespace Shows

variable {a : Analysis} {entries : List Listed} {elements : List (String × List Attribute)}

theorem component?_of_mem (h : a.Shows entries elements) {entry : Listed} (member : entry ∈ entries) :
    (a.component? entry.component.id).map childless = some entry.component := by
  have distinct : (entries.map fun entry => entry.component.id).Nodup := by
    rw [h.lists.ids]
    exact List.nodup_range'
  have shown : (a.inputs ++ a.displays).map childless =
      ((entries.map Listed.component).filter fun component => component.role = .input) ++
        (entries.map Listed.component).filter fun component => component.role = .display := by
    rw [List.map_append, h.inputs, h.displays]
  have all {component : Component} : component ∈ (a.inputs ++ a.displays).map childless ↔
      ∃ entry ∈ entries, entry.component = component := by
    rw [shown, List.mem_append, List.mem_filter, List.mem_filter, ← and_or_left, List.mem_map]
    refine and_iff_left ?_
    cases component.role <;> simp
  obtain ⟨component, inside, same⟩ := List.mem_map.mp (all.mpr ⟨entry, member, rfl⟩)
  have numbered : component.id = entry.component.id := by rw [← same]; rfl
  have some : (a.component? entry.component.id).isSome = true :=
    List.find?_isSome.mpr ⟨component, inside, decide_eq_true numbered⟩
  obtain ⟨found, met⟩ := Option.isSome_iff_exists.mp some
  obtain ⟨other, there, equal⟩ := all.mp (List.mem_map_of_mem (List.mem_of_find?_eq_some met))
  have number : found.id = entry.component.id := by
    rw [component?] at met
    simpa using List.find?_some met
  have alike : other.component.id = entry.component.id := by
    rw [equal]
    exact number
  rw [List.inj_on_of_nodup_map distinct there member alike] at equal
  rw [met, Option.map_some, equal]

theorem meetsInput_eq (h : a.Shows entries elements) (steps : Nat) {entry : Listed}
    (member : entry ∈ entries) (near : entry.component.id ≤ steps) :
    a.meetsInput steps entry.component.parent = entry.isNested := by
  induction steps generalizing entry with
  | zero => 
    rcases h.lists.parents entry member with ⟨top, plain⟩ | ⟨outer, inside, above, lower, nested⟩
    · rw [top, plain]
      rfl
    · omega
  | succ steps ih =>
    rcases h.lists.parents entry member with ⟨top, plain⟩ | ⟨outer, inside, above, lower, nested⟩
    · rw [top, plain]
      rfl
    · obtain ⟨found, met, same⟩ := Option.map_eq_some_iff.mp (h.component?_of_mem inside)
      have role : found.role = outer.component.role := by rw [← same]; rfl
      have parent : found.parent = outer.component.parent := by rw [← same]; rfl
      rw [above, meetsInput, met, Option.any_some, role, parent, ih inside (by omega), nested,
        Bool.or_comm]

theorem outer_eq (h : a.Shows entries elements) (role : Role) {components : List Component}
    (shown : components.map childless =
      (entries.map Listed.component).filter fun component => component.role = role) :
    (components.filter fun component => !a.isNested component).map reported =
      (elements.filterMap reported?).filter fun shown => shown.1 = role := by
  have nested : ∀ entry ∈ entries, a.isNested entry.component = entry.isNested :=
    fun entry member => h.meetsInput_eq _ member le_rfl
  have outer : elements.filterMap reported? = (entries.filter fun entry => !entry.isNested).map
      fun entry => entry.component.reported := h.lists.outer.symm
  calc (components.filter fun component => !a.isNested component).map reported
      = ((components.map childless).filter fun component => !a.isNested component).map reported := by
        rw [List.filter_map, List.map_map]
        rfl
    _ = ((entries.filter fun entry => decide (entry.component.role = role)).filter
          fun entry => !a.isNested entry.component).map fun entry => entry.component.reported := by
        rw [shown, List.filter_map, List.filter_map, List.map_map]
        rfl
    _ = ((entries.filter fun entry => decide (entry.component.role = role)).filter
          fun entry => !entry.isNested).map fun entry => entry.component.reported := by
        congr 1
        refine List.filter_congr fun entry member => ?_
        rw [nested entry (List.mem_of_mem_filter member)]
    _ = (elements.filterMap reported?).filter fun shown => shown.1 = role := by
        rw [outer, List.filter_map, List.filter_comm]
        rfl

theorem outerInputs_eq (h : a.Shows entries elements) : a.outerInputs.map reported =
    (elements.filterMap reported?).filter fun shown => shown.1 = .input :=
  h.outer_eq .input h.inputs

theorem outerDisplays_eq (h : a.Shows entries elements) : a.outerDisplays.map reported =
    (elements.filterMap reported?).filter fun shown => shown.1 = .display :=
  h.outer_eq .display h.displays

end Shows

/-- The analysis of what nodes are classified into shows their components. -/
theorem exists_shows {a : Analysis} {c : Classification} {children : List Markup.Node}
    (classified : Component.classifyAll none false {} children = c) (inputs : a.inputs = c.inputComponents)
    (displays : a.displays = c.displayComponents) :
    ∃ entries, a.Shows entries (Markup.outerAll children) := by
  obtain ⟨entries, adds, lists⟩ := Component.numbers_classifyAll none false false {} children
  rw [classified] at adds
  refine ⟨entries, lists, ?_, ?_⟩
  · rw [inputs, Classification.inputComponents, adds.inputs]
    exact Component.components_of_adds adds lists _
  · rw [displays, Classification.displayComponents, adds.displays]
    exact Component.components_of_adds adds lists _

end Analysis

end Dashboard
