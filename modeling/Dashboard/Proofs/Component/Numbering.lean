import Dashboard.Proofs.Component.Passing

/-!
How the classification numbers components. Each element that the registry knows becomes one component, in
document order, whose parent is the component around it; so the components outside of inputs, as their
parents tell, are those of the elements outside of inputs.
-/
namespace Dashboard.Component

open Dashboard.Markup (Node Alternative Attribute outerAll)

/-- A component without its children, which are added to it later. -/
def childless (component : Component) : Component := { component with children := [] }

/-- A component, and whether it stands inside an input. -/
structure Listed where
  component : Component
  isNested : Bool

/-- What the classification makes of an element by itself. -/
def reported? (e : String × List Attribute) : Option (Role × String × Dictionary Json) :=
  match Registry.lookup e.1 with
  | .input _ => some (.input, e.1, (attributesOf e.1 e.2).values)
  | .display _ implied =>
    some (.display, e.1, withImpliedType implied (attributesOf e.1 e.2).values)
  | .unknown => none

def isInputTag (tag : String) : Bool :=
  match Registry.lookup tag with
  | .input _ => true
  | .display .. | .unknown => false

/-- What a component shows of its element. -/
def reported (component : Component) : Role × String × Dictionary Json :=
  (component.role, component.tag, component.attributes)

/-- The components of some elements, numbered from a start and below a parent. -/
structure Lists (start : Nat) (parent : Option Nat) (isNested : Bool) (entries : List Listed)
    (elements : List (String × List Attribute)) : Prop where
  ids : entries.map (fun entry => entry.component.id) = List.range' start entries.length
  parents : ∀ entry ∈ entries,
    (entry.component.parent = parent ∧ entry.isNested = isNested) ∨
      ∃ outer ∈ entries, entry.component.parent = some outer.component.id ∧
        outer.component.id < entry.component.id ∧
        entry.isNested = (outer.isNested || decide (outer.component.role = .input))
  outer : (entries.filter fun entry => !entry.isNested).map (fun entry => entry.component.reported) =
    if isNested then [] else elements.filterMap reported?

namespace Lists

variable {start : Nat} {parent : Option Nat} {isNested : Bool} {entries : List Listed}
  {elements : List (String × List Attribute)}

theorem nil (start : Nat) (parent : Option Nat) (isNested : Bool) :
    Lists start parent isNested [] [] := by
  refine ⟨rfl, by simp, ?_⟩
  cases isNested <;> rfl

theorem append (h : Lists start parent isNested entries elements) {later : List Listed}
    {others : List (String × List Attribute)}
    (more : Lists (start + entries.length) parent isNested later others) :
    Lists start parent isNested (entries ++ later) (elements ++ others) := by
  refine ⟨?_, fun entry member => ?_, ?_⟩
  · rw [List.map_append, h.ids, more.ids, List.length_append, List.range'_append_1]
  · rcases List.mem_append.mp member with here | there
    · exact (h.parents entry here).imp_right fun ⟨outer, inside, rest⟩ =>
        ⟨outer, List.mem_append_left _ inside, rest⟩
    · exact (more.parents entry there).imp_right fun ⟨outer, inside, rest⟩ =>
        ⟨outer, List.mem_append_right _ inside, rest⟩
  · rw [List.filter_append, List.map_append, h.outer, more.outer, List.filterMap_append]
    cases isNested <;> rfl

/-- An element that the registry does not know becomes no component. -/
theorem skip (h : Lists start parent isNested entries elements) {e : String × List Attribute}
    (unknown : reported? e = none) : Lists start parent isNested entries (e :: elements) := by
  refine ⟨h.ids, h.parents, ?_⟩
  rw [h.outer, List.filterMap_cons_none unknown]

theorem lt_of_mem (h : Lists start parent isNested entries elements) {entry : Listed}
    (member : entry ∈ entries) : start ≤ entry.component.id := by
  have inside : entry.component.id ∈ List.range' start entries.length := by
    rw [← h.ids]
    exact List.mem_map_of_mem member
  exact (List.mem_range'_1.mp inside).1

/-- A component in front of those below it. -/
theorem cons (component : Component) (id : component.id = start) (above : component.parent = parent)
    {e : String × List Attribute} (known : reported? e = some component.reported)
    (below : Lists (start + 1) (some start) (isNested || decide (component.role = .input)) entries
      elements) :
    Lists start parent isNested (⟨component, isNested⟩ :: entries)
      (e :: if component.role = .input then [] else elements) := by
  refine ⟨?_, ?_, ?_⟩
  · rw [List.map_cons, below.ids, id]
    rfl
  · refine List.forall_mem_cons.mpr ⟨Or.inl ⟨above, rfl⟩, fun entry member => Or.inr ?_⟩
    rcases below.parents entry member with ⟨top, nested⟩ | ⟨outer, inside, rest⟩
    · exact ⟨_, List.mem_cons_self, by rw [top, id], by
        rw [id]
        exact below.lt_of_mem member, nested⟩
    · exact ⟨outer, List.mem_cons_of_mem _ inside, rest⟩
  · cases isNested with
    | true =>
      rw [List.filter_cons_of_neg (by simp), below.outer]
      rfl
    | false =>
      rw [List.filter_cons_of_pos rfl, List.map_cons, below.outer, List.filterMap_cons_some known]
      by_cases input : component.role = .input <;> simp [input]

end Lists

/-- From one classification to a later one so many components are added at the end. -/
structure Adds (c d : Classification) (entries : List Component) : Prop where
  components : d.components.map childless = c.components.map childless ++ entries
  inputs : d.inputs = c.inputs ++ (entries.filter fun entry => entry.role = .input).map Component.id
  displays : d.displays =
    c.displays ++ (entries.filter fun entry => entry.role = .display).map Component.id

namespace Adds

variable {c d e : Classification} {entries later : List Component}

theorem trans (h : Adds c d entries) (more : Adds d e later) : Adds c e (entries ++ later) := by
  refine ⟨?_, ?_, ?_⟩
  · rw [more.components, h.components, List.append_assoc]
  · rw [more.inputs, h.inputs, List.filter_append, List.map_append, List.append_assoc]
  · rw [more.displays, h.displays, List.filter_append, List.map_append, List.append_assoc]

theorem length (h : Adds c d entries) : d.components.length = c.components.length + entries.length := by
  have sizes := congrArg List.length h.components
  simpa using sizes

theorem push (c : Classification) (tag : String) (role : Role) (attributes : Dictionary Json)
    (parent : Option Nat) (isContainer insideGrid : Bool) :
    Adds c (c.push tag role attributes parent isContainer insideGrid)
      [⟨c.components.length, tag, role, attributes, parent, [], isContainer, insideGrid⟩] := by
  refine ⟨?_, ?_, ?_⟩
  · have kept (child p : Nat) : (c.components.modify p (Classification.addChild child)).map childless =
        c.components.map childless := by
      refine List.ext_getElem? fun i => ?_
      rw [List.getElem?_map, List.getElem?_map, List.getElem?_modify]
      cases c.components[i]? with
      | none => rfl
      | some component => by_cases same : p = i <;> simp [same, childless, Classification.addChild]
    cases parent with
    | none => simp [Classification.push, childless]
    | some p => simp [Classification.push, childless, kept]
  · cases role <;> simp [Classification.push]
  · cases role <;> simp [Classification.push]

end Adds

/-- The components that are added are those of the elements, numbered on from what there is. -/
def Numbers (c d : Classification) (parent : Option Nat) (isNested : Bool)
    (elements : List (String × List Attribute)) : Prop :=
  ∃ entries, Adds c d (entries.map Listed.component) ∧
    Lists c.components.length parent isNested entries elements

namespace Numbers

variable {c d e : Classification} {parent : Option Nat} {isNested : Bool}
  {elements others : List (String × List Attribute)}

theorem nil (c : Classification) (parent : Option Nat) (isNested : Bool) :
    Numbers c c parent isNested [] :=
  ⟨[], ⟨by simp, by simp, by simp⟩, .nil _ _ _⟩

/-- Faults and warnings may be added on the way. -/
theorem report (faults : List ComponentFault) (h : Numbers (c.report faults) d parent isNested elements) :
    Numbers c d parent isNested elements := by
  obtain ⟨entries, adds, lists⟩ := h
  exact ⟨entries, ⟨adds.components, adds.inputs, adds.displays⟩, lists⟩

theorem warn (warnings : List ComponentWarning)
    (h : Numbers (c.warn warnings) d parent isNested elements) :
    Numbers c d parent isNested elements := by
  obtain ⟨entries, adds, lists⟩ := h
  exact ⟨entries, ⟨adds.components, adds.inputs, adds.displays⟩, lists⟩

theorem append (h : Numbers c d parent isNested elements) (more : Numbers d e parent isNested others) :
    Numbers c e parent isNested (elements ++ others) := by
  obtain ⟨entries, adds, lists⟩ := h
  obtain ⟨later, addsLater, listsLater⟩ := more
  rw [adds.length, List.length_map] at listsLater
  exact ⟨entries ++ later, by rw [List.map_append]; exact adds.trans addsLater, lists.append listsLater⟩

theorem skip (h : Numbers c d parent isNested elements) {element : String × List Attribute}
    (unknown : reported? element = none) : Numbers c d parent isNested (element :: elements) := by
  obtain ⟨entries, adds, lists⟩ := h
  exact ⟨entries, adds, lists.skip unknown⟩

/-- A component is entered before those below it. -/
theorem push {tag : String} {role : Role} {attributes : Dictionary Json} {isContainer insideGrid : Bool}
    {element : String × List Attribute} (known : reported? element = some (role, tag, attributes))
    (below : Numbers (c.push tag role attributes parent isContainer insideGrid) d
      (some c.components.length) (isNested || decide (role = .input)) elements) :
    Numbers c d parent isNested (element :: if role = .input then [] else elements) := by
  obtain ⟨entries, adds, lists⟩ := below
  have entered := Adds.push c tag role attributes parent isContainer insideGrid
  rw [entered.length] at lists
  let component : Component :=
    ⟨c.components.length, tag, role, attributes, parent, [], isContainer, insideGrid⟩
  exact ⟨⟨component, isNested⟩ :: entries, entered.trans adds, lists.cons component rfl rfl known⟩

/-- An element is entered before those below it. -/
theorem enter {tag : String} {attributes : List Attribute} {insideGrid : Bool}
    (below : Numbers (Component.enter c tag attributes parent insideGrid).1 d
      (Component.enter c tag attributes parent insideGrid).2.1 (isNested || isInputTag tag) elements) :
    Numbers c d parent isNested ((tag, attributes) :: if isInputTag tag then [] else elements) := by
  rw [isInputTag] at below ⊢
  rw [Component.enter] at below
  cases known : Registry.lookup tag with
  | unknown =>
    simp only [known, Bool.or_false] at below
    exact (((below.report _).warn _).report _).skip (by rw [reported?, known])
  | input spec =>
    simp only [known] at below
    exact (((below.push (by rw [reported?, known])).warn _).warn _).report _
  | display spec implied =>
    simp only [known] at below
    exact ((below.push (by rw [reported?, known])).warn _).report _

end Numbers

mutual

theorem numbers_classifyNode (parent : Option Nat) (isNested insideGrid : Bool) (c : Classification)
    (node : Node) : Numbers c (classifyNode parent insideGrid c node) parent isNested node.outer := by
  match node with
  | .element position tag attributes children =>
    have entered := (numbers_classifyAll _ (isNested || isInputTag tag)
      (enter c tag attributes parent insideGrid).2.2 (enter c tag attributes parent insideGrid).1
      children).enter
    have elements : Node.outer (.element position tag attributes children) =
        (tag, attributes) :: if isInputTag tag then [] else outerAll children := by
      rw [Node.outer, isInputTag]
      cases Registry.lookup tag <;> rfl
    rw [classifyNode, elements]
    exact entered
  | .ifBlock _ raw _ children alternative =>
    rw [classifyNode, Node.outer]
    exact ((numbers_classifyAll parent isNested insideGrid _ children).report _).append
      (numbers_classifyAlternative parent isNested insideGrid _ alternative)
  | .mustache tag => exact (Numbers.nil _ parent isNested).report _
  | .text .. | .comment .. => exact .nil _ _ _
  | .style .. => exact (Numbers.nil _ parent isNested).report _

theorem numbers_classifyAll (parent : Option Nat) (isNested insideGrid : Bool) (c : Classification)
    (nodes : List Node) :
    Numbers c (classifyAll parent insideGrid c nodes) parent isNested (outerAll nodes) := by
  match nodes with
  | [] => exact .nil _ _ _
  | first :: more =>
    exact (numbers_classifyNode parent isNested insideGrid c first).append
      (numbers_classifyAll parent isNested insideGrid _ more)

theorem numbers_classifyAlternative (parent : Option Nat) (isNested insideGrid : Bool)
    (c : Classification) (alternative : Alternative) :
    Numbers c (classifyAlternative parent insideGrid c alternative) parent isNested
      alternative.outer := by
  match alternative with
  | .absent => exact .nil _ _ _
  | .otherwise _ children => exact numbers_classifyAll parent isNested insideGrid c children
  | .elseIf _ block => exact numbers_classifyNode parent isNested insideGrid c block

end

variable {d : Classification} {entries : List Listed} {elements : List (String × List Attribute)}

/-- Components are found under their numbers. -/
theorem get?_of_adds (adds : Adds {} d (entries.map Listed.component))
    (lists : Lists 0 none false entries elements) {entry : Listed} (member : entry ∈ entries) :
    (d.get? entry.component.id).map childless = some entry.component := by
  obtain ⟨i, inside, rfl⟩ := List.mem_iff_getElem.mp member
  have numbered : entries[i].component.id = i := by
    have there : (entries.map fun entry => entry.component.id)[i]? = some i := by
      rw [lists.ids, List.getElem?_range' inside]
      simp
    simpa [List.getElem?_eq_getElem inside] using there
  have all : d.components.map childless = entries.map Listed.component := adds.components
  rw [numbered, Classification.get?, ← List.getElem?_map, all, List.getElem?_map,
    List.getElem?_eq_getElem inside]
  rfl

/-- The components under some of the numbers. -/
theorem components_of_adds (adds : Adds {} d (entries.map Listed.component))
    (lists : Lists 0 none false entries elements) (keeps : Component → Bool) :
    ((((entries.map Listed.component).filter keeps).map Component.id).filterMap d.get?).map childless =
      (entries.map Listed.component).filter keeps := by
  rw [List.filterMap_map, List.map_filterMap]
  refine (List.filterMap_congr fun component member => ?_).trans List.filterMap_some
  obtain ⟨entry, inside, rfl⟩ := List.mem_map.mp (List.mem_of_mem_filter member)
  exact get?_of_adds adds lists inside

end Dashboard.Component
