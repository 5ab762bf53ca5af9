import Dashboard.Component
import Dashboard.Proofs.Dictionary
import Dashboard.Proofs.Markup.Documents
import Dashboard.Proofs.Placeholder

/-!
What the classification has nothing against, node by node, and the elements that stand outside of
inputs. Neither depends on places, nor does the classification.
-/
namespace Dashboard

open Dashboard.Markup (Node Alternative Attribute)

namespace Markup

mutual

/-- The elements below a node that do not stand inside an input, in document order. -/
def Node.outer : Node → List (String × List Attribute)
  | .element _ tag attributes children =>
    (tag, attributes) :: match Registry.lookup tag with
      | .input _ => []
      | _ => outerAll children
  | .ifBlock _ _ _ children alternative => outerAll children ++ alternative.outer
  | .text .. | .mustache _ | .comment .. | .style .. => []

def Alternative.outer : Alternative → List (String × List Attribute)
  | .absent => []
  | .otherwise _ children => outerAll children
  | .elseIf _ block => block.outer

def outerAll : List Node → List (String × List Attribute)
  | [] => []
  | first :: more => first.outer ++ outerAll more

end

/-- An element without the places of its attributes. -/
def unplacedElement (e : String × List Attribute) : String × List Attribute :=
  (e.1, e.2.map Attribute.unplaced)

mutual

theorem Node.outer_unplaced (node : Node) :
    node.unplaced.outer = node.outer.map unplacedElement := by
  match node with
  | .element _ tag attributes children =>
    rw [Node.unplaced, Node.outer, Node.outer, List.map_cons]
    split
    · rfl
    · rw [outerAll_unplaced children]
      rfl
  | .ifBlock _ raw condition children alternative =>
    rw [Node.unplaced, Node.outer, Node.outer, outerAll_unplaced children,
      Alternative.outer_unplaced alternative, List.map_append]
  | .text .. | .mustache _ | .comment .. | .style .. => rfl

theorem Alternative.outer_unplaced (alternative : Alternative) :
    alternative.unplaced.outer = alternative.outer.map unplacedElement := by
  match alternative with
  | .absent => rfl
  | .otherwise _ children => exact outerAll_unplaced children
  | .elseIf _ block => exact Node.outer_unplaced block

theorem outerAll_unplaced (nodes : List Node) :
    outerAll (unplacedAll nodes) = (outerAll nodes).map unplacedElement := by
  match nodes with
  | [] => rfl
  | first :: more =>
    rw [unplacedAll, outerAll, outerAll, Node.outer_unplaced first, outerAll_unplaced more,
      List.map_append]

end

theorem outerAll_broken {children others : List Node} (h : Broken children others) :
    outerAll children = outerAll others := by
  cases h <;> rfl

/-- Documents with the same markup have the same elements. -/
theorem SameMarkup.outerAll {processed children : List Node} (h : SameMarkup processed children) :
    (Markup.outerAll processed).map unplacedElement = (Markup.outerAll children).map unplacedElement := by
  obtain ⟨others, shape, same⟩ := h
  have here : Markup.outerAll processed = Markup.outerAll others := by
    rcases shape with rfl | broken
    · rfl
    · exact outerAll_broken broken
  rw [here, ← outerAll_unplaced, same, outerAll_unplaced]

end Markup

namespace Component

/-! The attributes of an element. -/

variable {tag : String}

theorem add_unplaced (found : Attributes) (a : Attribute) :
    Attributes.add tag found a.unplaced = Attributes.add tag found a := by
  have same : attributeValue tag a.unplaced = attributeValue tag a := by
    obtain ⟨position, name, value⟩ := a
    cases value with
    | bare | text => rfl
    | mustache t =>
      have kind : t.expression.unplaced.kind = t.expression.kind := by
        cases t.expression <;> rfl
      simp only [attributeValue, Attribute.unplaced, Markup.AttributeValue.unplaced,
        Markup.Mustache.unplaced, Script.Node.value?_unplaced, kind]
  rw [Attributes.add, same]
  rfl

theorem attributesOf_unplaced (attributes : List Attribute) :
    attributesOf tag (attributes.map Attribute.unplaced) = attributesOf tag attributes := by
  rw [attributesOf, List.foldl_map]
  simp only [add_unplaced]
  rfl

/-- An attribute that the classification has nothing against. -/
def IsFaultless (tag : String) (a : Attribute) : Prop :=
  isDirective a.name = false ∧ textFaults (attributeValue tag a).1 = []

theorem foldl_add (attributes : List Attribute) (found : Attributes) :
    (attributes.foldl (Attributes.add tag) found).faults = [] ↔
      found.faults = [] ∧ ∀ a ∈ attributes, IsFaultless tag a := by
  induction attributes generalizing found with
  | nil => simp
  | cons first more ih =>
    rw [List.foldl_cons, ih, List.forall_mem_cons, ← and_assoc]
    refine and_congr_left fun _ => ?_
    rw [Attributes.add]
    split_ifs with directive
    · simp [IsFaultless, directive]
    · simp [IsFaultless, directive]

theorem faults_attributesOf (attributes : List Attribute) :
    (attributesOf tag attributes).faults = [] ↔ ∀ a ∈ attributes, IsFaultless tag a := by
  rw [attributesOf, foldl_add]
  simp

theorem values_foldl_add {attributes : List Attribute}
    (plain : ∀ a ∈ attributes, isDirective a.name = false) (found : Attributes) :
    (attributes.foldl (Attributes.add tag) found).values =
      (attributes.map fun a => (a.name, (attributeValue tag a).1)).foldl
        (fun d e => Dictionary.insert e.1 e.2 d) found.values := by
  induction attributes generalizing found with
  | nil => rfl
  | cons first more ih =>
    obtain ⟨here, later⟩ := List.forall_mem_cons.mp plain
    rw [List.foldl_cons, ih later, List.map_cons, List.foldl_cons, Attributes.add, here]
    rfl

/-- The values of attributes none of which is a directive. -/
theorem values_attributesOf {attributes : List Attribute}
    (plain : ∀ a ∈ attributes, isDirective a.name = false) :
    (attributesOf tag attributes).values =
      Dictionary.ofList (attributes.map fun a => (a.name, (attributeValue tag a).1)) :=
  values_foldl_add plain {}

/-! Nodes. -/

mutual

/-- A node that the classification has nothing against, nor against any node below. -/
def Passes : Node → Prop
  | .element _ tag attributes children =>
    Registry.lookup tag ≠ .unknown ∧ (∀ a ∈ attributes, IsFaultless tag a) ∧ PassAll children
  | .ifBlock _ raw _ children alternative =>
    referenceFaults raw = [] ∧ PassAll children ∧ PassesAlternative alternative
  | .mustache tag => referenceFaults tag.raw = []
  | .text .. | .comment .. => True
  | .style .. => False

def PassesAlternative : Alternative → Prop
  | .absent => True
  | .otherwise _ children => PassAll children
  | .elseIf _ block => Passes block

def PassAll : List Node → Prop
  | [] => True
  | first :: more => Passes first ∧ PassAll more

end

mutual

theorem faultless_outer (node : Node) (pass : Passes node) :
    ∀ e ∈ node.outer, ∀ a ∈ e.2, IsFaultless e.1 a := by
  match node with
  | .element _ tag attributes children =>
    obtain ⟨-, here, below⟩ := pass
    rw [Node.outer]
    refine List.forall_mem_cons.mpr ⟨here, ?_⟩
    split
    · simp
    · exact faultless_outerAll children below
  | .ifBlock _ _ _ children alternative =>
    rw [Node.outer]
    exact List.forall_mem_append.mpr
      ⟨faultless_outerAll children pass.2.1, faultless_outerAlternative alternative pass.2.2⟩
  | .text .. | .mustache _ | .comment .. | .style .. => simp [Node.outer]

theorem faultless_outerAlternative (alternative : Alternative)
    (pass : PassesAlternative alternative) :
    ∀ e ∈ alternative.outer, ∀ a ∈ e.2, IsFaultless e.1 a := by
  match alternative with
  | .absent => simp [Alternative.outer]
  | .otherwise _ children => exact faultless_outerAll children pass
  | .elseIf _ block => exact faultless_outer block pass

theorem faultless_outerAll (nodes : List Node) (pass : PassAll nodes) :
    ∀ e ∈ Markup.outerAll nodes, ∀ a ∈ e.2, IsFaultless e.1 a := by
  match nodes with
  | [] => simp [Markup.outerAll]
  | first :: more =>
    exact List.forall_mem_append.mpr
      ⟨faultless_outer first pass.1, faultless_outerAll more pass.2⟩

end

theorem faults_enter (c : Classification) (attributes : List Attribute) (parent : Option Nat)
    (insideGrid : Bool) :
    (enter c tag attributes parent insideGrid).1.faults = [] ↔
      c.faults = [] ∧ Registry.lookup tag ≠ .unknown ∧ ∀ a ∈ attributes, IsFaultless tag a := by
  rw [← faults_attributesOf, enter]
  cases Registry.lookup tag with
  | unknown => simp [Classification.report, Classification.warn]
  | input spec => simp [Classification.report, Classification.warn, Classification.push]
  | display spec implied => simp [Classification.report, Classification.warn, Classification.push]

theorem faults_report (c : Classification) (faults : List ComponentFault) :
    (c.report faults).faults = [] ↔ c.faults = [] ∧ faults = [] := by
  simp [Classification.report]

mutual

theorem faults_classifyNode (parent : Option Nat) (insideGrid : Bool) (c : Classification)
    (node : Node) :
    (classifyNode parent insideGrid c node).faults = [] ↔ c.faults = [] ∧ Passes node := by
  match node with
  | .element _ tag attributes children =>
    rw [classifyNode, faults_classifyAll, faults_enter, Passes, and_assoc, and_assoc]
  | .ifBlock _ raw _ children alternative =>
    rw [classifyNode, faults_classifyAlternative, faults_classifyAll, faults_report, Passes,
      and_assoc, and_assoc]
  | .mustache tag => rw [classifyNode, faults_report, Passes]
  | .text .. | .comment .. => simp [classifyNode, Passes]
  | .style .. => simp [classifyNode, Passes, Classification.report]

theorem faults_classifyAll (parent : Option Nat) (insideGrid : Bool) (c : Classification)
    (nodes : List Node) :
    (classifyAll parent insideGrid c nodes).faults = [] ↔ c.faults = [] ∧ PassAll nodes := by
  match nodes with
  | [] => simp [classifyAll, PassAll]
  | first :: more =>
    rw [classifyAll, faults_classifyAll, faults_classifyNode, PassAll, and_assoc]

theorem faults_classifyAlternative (parent : Option Nat) (insideGrid : Bool) (c : Classification)
    (alternative : Alternative) :
    (classifyAlternative parent insideGrid c alternative).faults = [] ↔
      c.faults = [] ∧ PassesAlternative alternative := by
  match alternative with
  | .absent => simp [classifyAlternative, PassesAlternative]
  | .otherwise _ children =>
    rw [classifyAlternative, faults_classifyAll, PassesAlternative]
  | .elseIf _ block =>
    rw [classifyAlternative, faults_classifyNode, PassesAlternative]

end

/-- What a classification without faults promises of its nodes. -/
theorem passAll_of_classified {nodes : List Node} {c : Classification}
    (classified : classifyAll none false {} nodes = c) (h : c.faults = []) : PassAll nodes := by
  rw [← classified] at h
  exact ((faults_classifyAll none false {} nodes).mp h).2

theorem enter_unplaced (c : Classification) (attributes : List Attribute) (parent : Option Nat)
    (insideGrid : Bool) :
    enter c tag (attributes.map Attribute.unplaced) parent insideGrid =
      enter c tag attributes parent insideGrid := by
  rw [enter, attributesOf_unplaced]
  rfl

mutual

theorem classifyNode_unplaced (parent : Option Nat) (insideGrid : Bool) (c : Classification)
    (node : Node) :
    classifyNode parent insideGrid c node.unplaced = classifyNode parent insideGrid c node := by
  match node with
  | .element _ tag attributes children =>
    rw [Node.unplaced, classifyNode, classifyNode, enter_unplaced]
    exact classifyAll_unplaced _ _ _ children
  | .ifBlock _ raw _ children alternative =>
    rw [Node.unplaced, classifyNode, classifyNode, classifyAll_unplaced,
      classifyAlternative_unplaced]
  | .mustache tag => rfl
  | .text .. | .comment .. | .style .. => rfl

theorem classifyAll_unplaced (parent : Option Nat) (insideGrid : Bool) (c : Classification)
    (nodes : List Node) :
    classifyAll parent insideGrid c (Markup.unplacedAll nodes) =
      classifyAll parent insideGrid c nodes := by
  match nodes with
  | [] => rfl
  | first :: more =>
    rw [Markup.unplacedAll, classifyAll, classifyAll, classifyNode_unplaced, classifyAll_unplaced]

theorem classifyAlternative_unplaced (parent : Option Nat) (insideGrid : Bool)
    (c : Classification) (alternative : Alternative) :
    classifyAlternative parent insideGrid c alternative.unplaced =
      classifyAlternative parent insideGrid c alternative := by
  match alternative with
  | .absent => rfl
  | .otherwise _ children => exact classifyAll_unplaced parent insideGrid c children
  | .elseIf _ block => exact classifyNode_unplaced parent insideGrid c block

end

theorem classifyAll_broken (parent : Option Nat) (insideGrid : Bool) (c : Classification)
    {children others : List Node} (h : Markup.Broken children others) :
    classifyAll parent insideGrid c children = classifyAll parent insideGrid c others := by
  cases h <;> rfl

/-- Documents with the same markup are classified alike. -/
theorem classifyAll_same (parent : Option Nat) (insideGrid : Bool) (c : Classification)
    {processed children : List Node} (h : Markup.SameMarkup processed children) :
    classifyAll parent insideGrid c processed = classifyAll parent insideGrid c children := by
  obtain ⟨others, shape, same⟩ := h
  have here : classifyAll parent insideGrid c processed = classifyAll parent insideGrid c others := by
    rcases shape with rfl | broken
    · rfl
    · exact classifyAll_broken parent insideGrid c broken
  rw [here, ← classifyAll_unplaced, same, classifyAll_unplaced]

end Component

end Dashboard
