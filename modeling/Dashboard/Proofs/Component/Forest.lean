import Dashboard.Proofs.Component.Numbering
import Dashboard.Proofs.Component.Reducing
import Dashboard.Proofs.Outline

/-!
The components of a document as a forest. Components stand under their numbers, parents before their
children, and each knows its children and whether it stands directly in a container. Every element of
the document is one of the components or is reported as unknown.
-/
namespace Dashboard

namespace Classification

def parentOf (c : Classification) (id : Nat) : Option Nat := (c.get? id).bind Component.parent

/-- Whether what is entered below this parent stands directly in a container. -/
def inContainer (c : Classification) (parent : Option Nat) : Bool :=
  (parent.bind c.get?).any Component.isContainer

/-- What holds of the components at every point of a classification. The children of a component are
those that name it as their parent. -/
structure IsLinked (c : Classification) : Prop where
  ids : ∀ i x, c.get? i = some x → x.id = i
  parents : ∀ i p, c.parentOf i = some p → p < i
  children : ∀ i x, c.get? i = some x →
    x.children = (List.range c.components.length).filter fun j => c.parentOf j = some i
  grid : ∀ i x, c.get? i = some x → x.insideGrid = c.inContainer x.parent

/-- What may be entered below a parent: the parent is there, and it is known whether it is a container. -/
structure Fits (c : Classification) (parent : Option Nat) (insideGrid : Bool) : Prop where
  present : ∀ p, parent = some p → p < c.components.length
  grid : insideGrid = c.inContainer parent

theorem lt_of_get? {c : Classification} {i : Nat} {x : Component} (h : c.get? i = some x) :
    i < c.components.length :=
  (List.getElem?_eq_some_iff.mp h).1

theorem isLinked_empty : IsLinked {} where
  ids _ _ found := by cases found
  parents _ _ found := by cases found
  children _ _ found := by cases found
  grid _ _ found := by cases found

theorem fits_none (c : Classification) : c.Fits none false := ⟨nofun, rfl⟩

section Push

/-! A component is entered. -/

variable (c : Classification) (tag : String) (role : Role) (attributes : Dictionary Json)
  (parent : Option Nat) (isContainer insideGrid : Bool)

theorem length_push :
    (c.push tag role attributes parent isContainer insideGrid).components.length =
      c.components.length + 1 := by
  cases parent <;> simp [push]

theorem get?_push_length :
    (c.push tag role attributes parent isContainer insideGrid).get? c.components.length =
      some ⟨c.components.length, tag, role, attributes, parent, [], isContainer, insideGrid⟩ := by
  cases parent <;> simp [push, get?]

theorem get?_push_of_lt {i : Nat} (h : i < c.components.length) :
    (c.push tag role attributes parent isContainer insideGrid).get? i =
      (c.get? i).map fun x => if parent = some i then addChild c.components.length x else x := by
  cases parent with
  | none => simp [push, get?, List.getElem?_append_left h]
  | some p =>
    have long : i < (c.components.modify p (addChild c.components.length)).length := by
      rwa [List.length_modify]
    simp [push, get?, List.getElem?_append_left long, List.getElem?_modify]

theorem parentOf_push_of_lt {i : Nat} (h : i < c.components.length) :
    (c.push tag role attributes parent isContainer insideGrid).parentOf i = c.parentOf i := by
  rw [parentOf, parentOf, get?_push_of_lt c tag role attributes parent isContainer insideGrid h]
  cases c.get? i with
  | none => rfl
  | some x =>
    rw [Option.map_some, Option.bind_some, Option.bind_some]
    split_ifs <;> rfl

theorem parentOf_push_length :
    (c.push tag role attributes parent isContainer insideGrid).parentOf c.components.length =
      parent := by
  rw [parentOf, get?_push_length]
  rfl

theorem inContainer_push_length :
    (c.push tag role attributes parent isContainer insideGrid).inContainer
      (some c.components.length) = isContainer := by
  rw [inContainer, Option.bind_some, get?_push_length]
  rfl

theorem get?_push_eq_some {i : Nat} {x : Component}
    (h : (c.push tag role attributes parent isContainer insideGrid).get? i = some x) :
    (∃ y, c.get? i = some y ∧
        x = if parent = some i then addChild c.components.length y else y) ∨
      (i = c.components.length ∧
        x = ⟨c.components.length, tag, role, attributes, parent, [], isContainer, insideGrid⟩) := by
  have inside := lt_of_get? h
  rw [length_push] at inside
  rcases Nat.lt_succ_iff_lt_or_eq.mp inside with lower | rfl
  · rw [get?_push_of_lt c tag role attributes parent isContainer insideGrid lower] at h
    obtain ⟨y, there, same⟩ := Option.map_eq_some_iff.mp h
    exact Or.inl ⟨y, there, same.symm⟩
  · rw [get?_push_length] at h
    exact Or.inr ⟨rfl, (Option.some.inj h).symm⟩

theorem inContainer_push_of_lt {above : Option Nat}
    (h : ∀ p, above = some p → p < c.components.length) :
    (c.push tag role attributes parent isContainer insideGrid).inContainer above =
      c.inContainer above := by
  cases above with
  | none => rfl
  | some p =>
    rw [inContainer, inContainer, Option.bind_some, Option.bind_some,
      get?_push_of_lt c tag role attributes parent isContainer insideGrid (h p rfl)]
    cases c.get? p with
    | none => rfl
    | some x =>
      rw [Option.map_some, Option.any_some, Option.any_some]
      split_ifs <;> rfl

/-- The children of a component are those before the last one, and perhaps the last one. -/
theorem children_push (i : Nat) :
    (List.range (c.components.length + 1)).filter (fun j =>
        (c.push tag role attributes parent isContainer insideGrid).parentOf j = some i) =
      ((List.range c.components.length).filter fun j => c.parentOf j = some i) ++
        if parent = some i then [c.components.length] else [] := by
  rw [List.range_succ, List.filter_append]
  congr 1
  · refine List.filter_congr fun j member => ?_
    rw [parentOf_push_of_lt c tag role attributes parent isContainer insideGrid
      (List.mem_range.mp member)]
  · rw [List.filter_singleton, parentOf_push_length]
    by_cases above : parent = some i <;> simp [above]

end Push

section Linked

variable {c : Classification} {tag : String} {role : Role} {attributes : Dictionary Json}
  {parent : Option Nat} {isContainer insideGrid : Bool}

theorem IsLinked.present (linked : c.IsLinked) {i : Nat} {x : Component} (h : c.get? i = some x) :
    ∀ p, x.parent = some p → p < c.components.length := by
  intro p above
  have lower := linked.parents i p (by rw [parentOf, h]; exact above)
  exact Nat.lt_trans lower (lt_of_get? h)

/-- A component that fits is entered, and all stay linked. -/
theorem IsLinked.push (linked : c.IsLinked) (fits : c.Fits parent insideGrid) :
    (c.push tag role attributes parent isContainer insideGrid).IsLinked where
  ids i x found := by
    rcases get?_push_eq_some _ _ _ _ _ _ _ found with ⟨y, there, rfl⟩ | ⟨rfl, rfl⟩
    · have same := linked.ids i y there
      split_ifs <;> exact same
    · rfl
  parents i p found := by
    obtain ⟨x, there, above⟩ := Option.bind_eq_some_iff.mp found
    rcases get?_push_eq_some _ _ _ _ _ _ _ there with ⟨y, before, rfl⟩ | ⟨rfl, rfl⟩
    · rw [parentOf_push_of_lt _ _ _ _ _ _ _ (lt_of_get? before)] at found
      exact linked.parents i p found
    · exact fits.present p above
  children i x found := by
    rw [length_push, children_push]
    rcases get?_push_eq_some _ _ _ _ _ _ _ found with ⟨y, there, rfl⟩ | ⟨rfl, rfl⟩
    · rw [← linked.children i y there]
      split_ifs
      · rfl
      · exact (List.append_nil _).symm
    · -- No component has had the new number for its parent.
      have unborn : ∀ j ∈ List.range c.components.length,
          ¬ decide (c.parentOf j = some c.components.length) = true := by
        intro j member below
        have lower := linked.parents j _ (of_decide_eq_true below)
        have present := List.mem_range.mp member
        omega
      have apart : parent ≠ some c.components.length := fun above =>
        absurd (fits.present _ above) (Nat.lt_irrefl _)
      rw [List.filter_eq_nil_iff.mpr unborn, if_neg apart]
      rfl
  grid i x found := by
    rcases get?_push_eq_some _ _ _ _ _ _ _ found with ⟨y, there, rfl⟩ | ⟨rfl, rfl⟩
    · have known := linked.grid i y there
      rw [← inContainer_push_of_lt c tag role attributes parent isContainer insideGrid
        (linked.present there)] at known
      split_ifs <;> exact known
    · rw [inContainer_push_of_lt c tag role attributes parent isContainer insideGrid fits.present]
      exact fits.grid

/-- What stands below the new component fits. -/
theorem fits_push (c : Classification) :
    (c.push tag role attributes parent isContainer insideGrid).Fits (some c.components.length)
      isContainer where
  present p same := by
    obtain rfl := Option.some.inj same
    rw [length_push]
    exact Nat.lt_succ_self _
  grid := (inContainer_push_length c tag role attributes parent isContainer insideGrid).symm

/-- What is reported on the way changes no component. -/
theorem IsLinked.report (linked : c.IsLinked) (faults : List ComponentFault) :
    (c.report faults).IsLinked :=
  ⟨linked.ids, linked.parents, linked.children, linked.grid⟩

theorem IsLinked.warn (linked : c.IsLinked) (warnings : List ComponentWarning) :
    (c.warn warnings).IsLinked :=
  ⟨linked.ids, linked.parents, linked.children, linked.grid⟩

theorem Fits.report (fits : c.Fits parent insideGrid) (faults : List ComponentFault) :
    (c.report faults).Fits parent insideGrid :=
  ⟨fits.present, fits.grid⟩

theorem Fits.warn (fits : c.Fits parent insideGrid) (warnings : List ComponentWarning) :
    (c.warn warnings).Fits parent insideGrid :=
  ⟨fits.present, fits.grid⟩

/-- Components stay what they are when others are added. -/
theorem Fits.of_adds {d : Classification} {entries : List Component} (fits : c.Fits parent insideGrid)
    (adds : Component.Adds c d entries) : d.Fits parent insideGrid where
  present p above := by
    rw [adds.length]
    exact Nat.lt_add_right _ (fits.present p above)
  grid := by
    rw [fits.grid]
    cases parent with
    | none => rfl
    | some p =>
      have same : (d.get? p).map Component.childless = (c.get? p).map Component.childless := by
        have inside : p < (c.components.map Component.childless).length := by
          rw [List.length_map]
          exact fits.present p rfl
        rw [get?, get?, ← List.getElem?_map, ← List.getElem?_map, adds.components,
          List.getElem?_append_left inside]
      have container (found : Option Component) :
          found.any Component.isContainer =
            (found.map Component.childless).any Component.isContainer := by
        cases found <;> rfl
      rw [inContainer, inContainer, Option.bind_some, Option.bind_some, container, ← same,
        ← container]

end Linked

end Classification

namespace Component

open Dashboard.Markup (Node Alternative Attribute)

theorem isLinked_enter {c : Classification} {parent : Option Nat} {insideGrid : Bool} (tag : String)
    (attributes : List Attribute) (linked : c.IsLinked) (fits : c.Fits parent insideGrid) :
    (enter c tag attributes parent insideGrid).1.IsLinked ∧
      (enter c tag attributes parent insideGrid).1.Fits (enter c tag attributes parent insideGrid).2.1
        (enter c tag attributes parent insideGrid).2.2 := by
  have linked := (linked.report (attributesOf tag attributes).faults).warn
    (attributesOf tag attributes).warnings
  have fits := (fits.report (attributesOf tag attributes).faults).warn
    (attributesOf tag attributes).warnings
  rw [enter]
  cases Registry.lookup tag with
  | unknown => exact ⟨linked.report _, fits.report _⟩
  | input spec => exact ⟨(linked.warn _).push (fits.warn _), Classification.fits_push _⟩
  | display spec implied => exact ⟨linked.push fits, Classification.fits_push _⟩

mutual

theorem isLinked_classifyNode {parent : Option Nat} {insideGrid : Bool} {c : Classification}
    (node : Node) (linked : c.IsLinked) (fits : c.Fits parent insideGrid) :
    (classifyNode parent insideGrid c node).IsLinked := by
  match node with
  | .element _ tag attributes children =>
    obtain ⟨entered, below⟩ := isLinked_enter tag attributes linked fits
    exact isLinked_classifyAll children entered below
  | .ifBlock _ raw _ children alternative =>
    have reported := fits.report (referenceFaults raw)
    obtain ⟨_, adds, -⟩ := numbers_classifyAll parent false insideGrid _ children
    exact isLinked_classifyAlternative alternative
      (isLinked_classifyAll children (linked.report _) reported) (reported.of_adds adds)
  | .mustache _ => exact linked.report _
  | .style .. => exact linked.report _
  | .text .. | .comment .. => exact linked

theorem isLinked_classifyAll {parent : Option Nat} {insideGrid : Bool} {c : Classification}
    (nodes : List Node) (linked : c.IsLinked) (fits : c.Fits parent insideGrid) :
    (classifyAll parent insideGrid c nodes).IsLinked := by
  match nodes with
  | [] => exact linked
  | first :: more =>
    obtain ⟨_, adds, -⟩ := numbers_classifyNode parent false insideGrid c first
    exact isLinked_classifyAll more (isLinked_classifyNode first linked fits) (fits.of_adds adds)

theorem isLinked_classifyAlternative {parent : Option Nat} {insideGrid : Bool} {c : Classification}
    (alternative : Alternative) (linked : c.IsLinked) (fits : c.Fits parent insideGrid) :
    (classifyAlternative parent insideGrid c alternative).IsLinked := by
  match alternative with
  | .absent => exact linked
  | .otherwise _ children => exact isLinked_classifyAll children linked fits
  | .elseIf _ block => exact isLinked_classifyNode block linked fits

end

end Component

/-! Every element becomes a component or is reported as unknown. -/

def ComponentFault.isUnknown : ComponentFault → Bool
  | unknownComponent _ => true
  | directive .. | styleRegion | placeholder _ => false

namespace Markup

/-- The kinds of the nodes that stand for elements. -/
def isElementKind (kind : String) : Bool := kind = "InlineComponent" || kind = "Element"

theorem isElementKind_script (node : Script.Node) : isElementKind node.kind = false := by
  have none : ∀ kind ∈ Script.Node.kinds, isElementKind kind = false := by decide
  exact none _ node.kind_mem_kinds

theorem countKinds_mustache (tag : Mustache) : tag.outline.countKinds isElementKind = 0 := by
  rw [Mustache.outline, Outline.countKinds_node]
  simp [Branch.one, Script.Node.countKinds_outline isElementKind_script, isElementKind]

theorem countKinds_attribute (a : Attribute) : a.outline.countKinds isElementKind = 0 := by
  obtain ⟨position, name, value⟩ := a
  cases value with
  | bare => rfl
  | text place data => rfl
  | mustache tag =>
    rw [Attribute.outline, Outline.countKinds_node]
    simp [Branch.many, countKinds_mustache, isElementKind]

/-- How many elements there are among nodes and below them. -/
def elementCount (nodes : List Outline) : Nat := (nodes.map (Outline.countKinds isElementKind)).sum

theorem elementCount_cons (first : Outline) (more : List Outline) :
    elementCount (first :: more) = first.countKinds isElementKind + elementCount more := rfl

theorem elementCount_append (front back : List Outline) :
    elementCount (front ++ back) = elementCount front + elementCount back := by
  rw [elementCount, List.map_append, List.sum_append]
  rfl

theorem elementCount_attributes (attributes : List Attribute) :
    elementCount (attributes.map Attribute.outline) = 0 := by
  refine List.sum_eq_zero_iff_forall_eq_nat.mpr ?_
  simp [countKinds_attribute]

theorem countKinds_element (position : Position) (name : String) (attributes : List Attribute)
    (children : List Node) :
    (Node.element position name attributes children).outline.countKinds isElementKind =
      1 + elementCount (outlines children) := by
  have kind : isElementKind (if isComponentName name then "InlineComponent" else "Element") = true := by
    cases isComponentName name <;> decide
  rw [Node.outline, Outline.countKinds_node, kind, if_pos rfl]
  congr 1
  show elementCount (attributes.map Attribute.outline ++ (outlines children ++ [])) = _
  rw [List.append_nil, elementCount_append, elementCount_attributes, Nat.zero_add]

theorem countKinds_ifBlock (position : Position) (raw : String) (condition : Script.Node)
    (children : List Node) (alternative : Alternative) :
    (Node.ifBlock position raw condition children alternative).outline.countKinds isElementKind =
      elementCount (outlines children) +
        elementCount (alternative.branches.flatMap Branch.nodes) := by
  rw [Node.outline, Outline.countKinds_node, if_neg (by decide), Nat.zero_add]
  show elementCount ((_ :: (_ ++ _)).flatMap Branch.nodes) = _
  rw [List.flatMap_cons, List.flatMap_append, elementCount_append, elementCount_append]
  show _ + (_ + (condition.outline.countKinds isElementKind + 0)) = _
  rw [Script.Node.countKinds_outline isElementKind_script]
  rfl

end Markup

namespace Classification

/-- How many elements have been met: those that are components and those that are unknown. -/
def met (c : Classification) : Nat := c.components.length + c.faults.countP ComponentFault.isUnknown

theorem met_report (c : Classification) (faults : List ComponentFault) :
    (c.report faults).met = c.met + faults.countP ComponentFault.isUnknown := by
  rw [met, met, report, List.countP_append, Nat.add_assoc]

theorem met_warn (c : Classification) (warnings : List ComponentWarning) :
    (c.warn warnings).met = c.met := rfl

theorem met_push (c : Classification) (tag : String) (role : Role) (attributes : Dictionary Json)
    (parent : Option Nat) (isContainer insideGrid : Bool) :
    (c.push tag role attributes parent isContainer insideGrid).met = c.met + 1 := by
  rw [met, length_push, Nat.add_right_comm]
  rfl

end Classification

namespace Component

open Dashboard.Markup (Node Alternative Attribute elementCount outlines isElementKind)

theorem countP_placeholders (violations : List Placeholder.Violation) :
    (violations.map ComponentFault.placeholder).countP ComponentFault.isUnknown = 0 := by
  rw [List.countP_map]
  exact List.countP_eq_zero.mpr fun _ _ => Bool.false_ne_true

theorem countP_textFaults (v : Json) : (textFaults v).countP ComponentFault.isUnknown = 0 := by
  rw [textFaults_eq, List.countP_flatMap]
  refine List.sum_eq_zero_iff_forall_eq_nat.mpr (List.forall_mem_map.mpr fun text _ => ?_)
  exact countP_placeholders _

theorem countP_attributesOf (tag : String) (attributes : List Attribute) :
    (attributesOf tag attributes).faults.countP ComponentFault.isUnknown = 0 := by
  suffices run : ∀ found : Attributes, found.faults.countP ComponentFault.isUnknown = 0 →
      (attributes.foldl (Attributes.add tag) found).faults.countP ComponentFault.isUnknown = 0 from
    run {} rfl
  induction attributes with
  | nil => exact fun found none => none
  | cons first more ih =>
    intro found none
    refine ih _ ?_
    rw [Attributes.add]
    split_ifs
    · rw [List.countP_append, none]
      rfl
    · rw [List.countP_append, none, countP_textFaults]

theorem met_enter (c : Classification) (tag : String) (attributes : List Attribute)
    (parent : Option Nat) (insideGrid : Bool) :
    (enter c tag attributes parent insideGrid).1.met = c.met + 1 := by
  have before : ((c.report (attributesOf tag attributes).faults).warn
      (attributesOf tag attributes).warnings).met = c.met := by
    rw [Classification.met_warn, Classification.met_report, countP_attributesOf, Nat.add_zero]
  rw [enter]
  cases Registry.lookup tag with
  | unknown =>
    dsimp only
    rw [Classification.met_report, before]
    rfl
  | input spec =>
    dsimp only
    rw [Classification.met_push, Classification.met_warn, before]
  | display spec implied =>
    dsimp only
    rw [Classification.met_push, before]

theorem met_references (c : Classification) (raw : String) :
    (c.report (referenceFaults raw)).met = c.met := by
  rw [Classification.met_report, referenceFaults, countP_placeholders, Nat.add_zero]

mutual

theorem met_classifyNode (parent : Option Nat) (insideGrid : Bool) (c : Classification)
    (node : Node) : (classifyNode parent insideGrid c node).met =
      c.met + node.outline.countKinds isElementKind := by
  match node with
  | .element _ tag attributes children =>
    rw [Markup.countKinds_element, classifyNode, met_classifyAll, met_enter, Nat.add_assoc]
  | .ifBlock _ raw _ children alternative =>
    rw [Markup.countKinds_ifBlock, classifyNode, met_classifyAlternative, met_classifyAll,
      met_references, Nat.add_assoc]
  | .mustache tag =>
    rw [Node.outline, Markup.countKinds_mustache, classifyNode, met_references, Nat.add_zero]
  | .text .. | .comment .. => rfl
  | .style _ attributes _ =>
    rw [Node.outline, Outline.countKinds_node, if_neg (by decide), classifyNode,
      Classification.met_report]
    show c.met + 0 = c.met + (0 + elementCount (attributes.map Attribute.outline ++ []))
    rw [List.append_nil, Markup.elementCount_attributes]

theorem met_classifyAll (parent : Option Nat) (insideGrid : Bool) (c : Classification)
    (nodes : List Node) : (classifyAll parent insideGrid c nodes).met =
      c.met + elementCount (outlines nodes) := by
  match nodes with
  | [] => rfl
  | first :: more =>
    rw [classifyAll, met_classifyAll, met_classifyNode, outlines, Markup.elementCount_cons,
      Nat.add_assoc]

theorem met_classifyAlternative (parent : Option Nat) (insideGrid : Bool) (c : Classification)
    (alternative : Alternative) : (classifyAlternative parent insideGrid c alternative).met =
      c.met + elementCount (alternative.branches.flatMap Branch.nodes) := by
  match alternative with
  | .absent => rfl
  | .otherwise _ children =>
    rw [classifyAlternative, met_classifyAll]
    show _ = c.met + (Outline.countKinds isElementKind _ + 0)
    rw [Outline.countKinds_node, if_neg (by decide), Nat.zero_add]
    show _ = c.met + elementCount (outlines children ++ [])
    rw [List.append_nil]
  | .elseIf _ block =>
    rw [classifyAlternative, met_classifyNode]
    show _ = c.met + (Outline.countKinds isElementKind _ + 0)
    rw [Outline.countKinds_node, if_neg (by decide), Nat.zero_add]
    rfl

end

end Component

/-! The components of a document. -/

namespace Classification

/-- The components are a forest, told twice: by the parent of each, and by its children. -/
structure IsForest (c : Classification) : Prop where
  ids : ∀ i x, c.get? i = some x → x.id = i
  parents : ∀ i x p, c.get? i = some x → x.parent = some p → p < x.id
  children : ∀ i x, c.get? i = some x →
    ∀ j, j ∈ x.children ↔ ∃ y, c.get? j = some y ∧ y.parent = some i
  increasing : ∀ i x, c.get? i = some x → x.children.Pairwise (· < ·)
  inputs : c.inputs.Pairwise (· < ·)
  displays : c.displays.Pairwise (· < ·)
  disjoint : ∀ i ∈ c.inputs, i ∉ c.displays
  listed : ∀ i, i ∈ c.inputs ∨ i ∈ c.displays ↔ i < c.components.length
  insideGrid : ∀ i x, c.get? i = some x →
    (x.insideGrid = true ↔
      ∃ p y, x.parent = some p ∧ c.get? p = some y ∧ y.isContainer = true)

/-- The lists of inputs and of displays hold the numbers of the components in these roles. -/
structure ListsRoles (c : Classification) : Prop where
  inputs : c.inputs = (c.components.filter fun x => x.role = .input).map Component.id
  displays : c.displays = (c.components.filter fun x => x.role = .display).map Component.id

theorem listsRoles_of_adds {c : Classification} {entries : List Component}
    (adds : Component.Adds {} c entries) : c.ListsRoles := by
  have all : entries = c.components.map Component.childless := adds.components.symm
  constructor
  · rw [adds.inputs, all, List.filter_map, List.map_map]
    rfl
  · rw [adds.displays, all, List.filter_map, List.map_map]
    rfl

section Forest

variable {c : Classification}

theorem IsLinked.map_id (linked : c.IsLinked) :
    c.components.map Component.id = List.range c.components.length := by
  refine List.ext_getElem (by simp) fun i inside _ => ?_
  rw [List.getElem_map, List.getElem_range]
  exact linked.ids i _ (List.getElem?_eq_getElem _)

theorem IsLinked.mem_role (linked : c.IsLinked) (role : Role) (i : Nat) :
    i ∈ (c.components.filter fun x => x.role = role).map Component.id ↔
      ∃ x, c.get? i = some x ∧ x.role = role := by
  simp only [List.mem_map, List.mem_filter, decide_eq_true_eq]
  constructor
  · rintro ⟨x, ⟨member, same⟩, rfl⟩
    obtain ⟨j, there⟩ := List.mem_iff_getElem?.mp member
    exact ⟨x, by rw [linked.ids j x there]; exact there, same⟩
  · rintro ⟨x, there, same⟩
    exact ⟨x, ⟨List.mem_of_getElem? there, same⟩, linked.ids i x there⟩

theorem IsLinked.pairwise_role (linked : c.IsLinked) (role : Role) :
    ((c.components.filter fun x => x.role = role).map Component.id).Pairwise (· < ·) := by
  have sorted : (c.components.map Component.id).Pairwise (· < ·) := by
    rw [linked.map_id]
    exact List.pairwise_lt_range
  exact sorted.sublist (List.filter_sublist.map _)

/-- What holds at every point of a classification makes it a forest. -/
theorem IsLinked.isForest (linked : c.IsLinked) (lists : c.ListsRoles) : c.IsForest where
  ids := linked.ids
  parents i x p there above := by
    rw [linked.ids i x there]
    exact linked.parents i p (by rw [parentOf, there]; exact above)
  children i x there j := by
    rw [linked.children i x there, List.mem_filter, List.mem_range, decide_eq_true_eq, parentOf,
      Option.bind_eq_some_iff]
    exact and_iff_right_of_imp fun ⟨y, found, _⟩ => lt_of_get? found
  increasing i x there := by
    rw [linked.children i x there]
    exact List.pairwise_lt_range.sublist List.filter_sublist
  inputs := lists.inputs ▸ linked.pairwise_role .input
  displays := lists.displays ▸ linked.pairwise_role .display
  disjoint i := by
    rw [lists.inputs, lists.displays, linked.mem_role, linked.mem_role]
    rintro ⟨x, there, input⟩ ⟨y, found, display⟩
    obtain rfl := Option.some.inj (there.symm.trans found)
    rw [input] at display
    cases display
  listed i := by
    rw [lists.inputs, lists.displays, linked.mem_role, linked.mem_role]
    constructor
    · rintro (⟨x, there, -⟩ | ⟨x, there, -⟩)
      · exact lt_of_get? there
      · exact lt_of_get? there
    · intro inside
      have there : c.get? i = some c.components[i] := List.getElem?_eq_getElem inside
      cases role : c.components[i].role with
      | input => exact Or.inl ⟨_, there, role⟩
      | display => exact Or.inr ⟨_, there, role⟩
  insideGrid i x there := by
    rw [linked.grid i x there, inContainer, Option.any_eq_true]
    constructor
    · rintro ⟨y, found, container⟩
      obtain ⟨p, above, below⟩ := Option.bind_eq_some_iff.mp found
      exact ⟨p, y, above, below, container⟩
    · rintro ⟨p, y, above, found, container⟩
      exact ⟨y, Option.bind_eq_some_iff.mpr ⟨p, above, found⟩, container⟩

end Forest

end Classification

namespace Markup.Document

/-- The components of a document are a forest, and together with the unknown elements they are all of
its elements. -/
theorem classify_isForest (document : Document) :
    document.classify.IsForest ∧
      document.classify.components.length +
          document.classify.faults.countP ComponentFault.isUnknown =
        document.outline.countKinds isElementKind := by
  obtain ⟨_, adds, -⟩ := Component.numbers_classifyAll none false false {} document.children
  have linked := Component.isLinked_classifyAll document.children Classification.isLinked_empty
    (Classification.fits_none {})
  refine ⟨linked.isForest (Classification.listsRoles_of_adds adds), ?_⟩
  have all := Component.met_classifyAll none false {} document.children
  have count : document.outline.countKinds isElementKind = elementCount (outlines document.children) := by
    rw [Document.outline, Outline.countKinds_node, if_neg (by decide), Nat.zero_add]
    show elementCount (outlines document.children ++ []) = _
    rw [List.append_nil]
  rw [count]
  exact all.trans (Nat.zero_add _)

end Markup.Document

end Dashboard
