import Dashboard.Proofs.Component.Passing
import Dashboard.Proofs.Meaning
import Dashboard.Proofs.Sandbox.Rendering

/-!
Values of attributes, reduced twice: for the classification, which also judges them, and for the
generator. Both come to the same value unless a name is the value, or an array or an object has a
part that is no literal; the generator makes null of the latter.
-/
namespace Dashboard

namespace Json

mutual

/-- The texts in a value at any depth, keys of objects excepted. -/
def texts : Json → List String
  | .str text => [text]
  | .arr items => itemTexts items
  | .obj entries => entryTexts entries
  | .null | .bool _ | .int _ | .float _ => []

def itemTexts : List Json → List String
  | [] => []
  | first :: more => texts first ++ itemTexts more

def entryTexts : List (String × Json) → List String
  | [] => []
  | (_, value) :: more => texts value ++ entryTexts more

end

mutual

theorem texts_relayed (v : Json) : texts (relayed v) = texts v := by
  match v with
  | .null | .bool _ | .int _ | .float _ | .str _ => rfl
  | .arr items => exact itemTexts_relayed items
  | .obj entries => exact entryTexts_relayed entries

theorem itemTexts_relayed (items : List Json) : itemTexts (relayedItems items) = itemTexts items := by
  match items with
  | [] => rfl
  | first :: more =>
    rw [relayedItems, itemTexts, itemTexts, texts_relayed first, itemTexts_relayed more]

theorem entryTexts_relayed (entries : List (String × Json)) :
    entryTexts (relayedEntries entries) = entryTexts entries := by
  match entries with
  | [] => rfl
  | (key, value) :: more =>
    rw [relayedEntries, entryTexts, entryTexts, texts_relayed value, entryTexts_relayed more]

end

theorem mem_entryTexts {entries : List (String × Json)} {text : String} :
    text ∈ entryTexts entries ↔ ∃ entry ∈ entries, text ∈ texts entry.2 := by
  induction entries with
  | nil => simp [entryTexts]
  | cons first more ih => simp [entryTexts, ih]

end Json

namespace LoadedModule

mutual

/-- Resolving replaces every text. -/
theorem texts_resolveValue (state : InputState) (v : Json) :
    (resolveValue state v).texts = v.texts.map (Placeholder.resolve · state) := by
  match v with
  | .null | .bool _ | .int _ | .float _ | .str _ => rfl
  | .arr items => exact itemTexts_resolveItems state items
  | .obj entries => exact entryTexts_resolveEntries state entries

theorem itemTexts_resolveItems (state : InputState) (items : List Json) :
    Json.itemTexts (resolveItems state items) =
      (Json.itemTexts items).map (Placeholder.resolve · state) := by
  match items with
  | [] => rfl
  | first :: more =>
    rw [resolveItems, Json.itemTexts, Json.itemTexts, texts_resolveValue state first,
      itemTexts_resolveItems state more, List.map_append]

theorem entryTexts_resolveEntries (state : InputState) (entries : List (String × Json)) :
    Json.entryTexts (resolveEntries state entries) =
      (Json.entryTexts entries).map (Placeholder.resolve · state) := by
  match entries with
  | [] => rfl
  | (key, value) :: more =>
    rw [resolveEntries, Json.entryTexts, Json.entryTexts, texts_resolveValue state value,
      entryTexts_resolveEntries state more, List.map_append]

end

end LoadedModule

namespace Component

mutual

/-- The faults of a value are those of its texts. -/
theorem textFaults_eq (v : Json) :
    textFaults v = v.texts.flatMap fun text => (Placeholder.violations text).map .placeholder := by
  match v with
  | .null | .bool _ | .int _ | .float _ => rfl
  | .str text => exact (List.flatMap_singleton _ _).symm
  | .arr items => exact itemFaults_eq items
  | .obj entries => exact entryFaults_eq entries

theorem itemFaults_eq (items : List Json) : itemFaults items =
    (Json.itemTexts items).flatMap fun text => (Placeholder.violations text).map .placeholder := by
  match items with
  | [] => rfl
  | first :: more =>
    rw [itemFaults, Json.itemTexts, List.flatMap_append, textFaults_eq first, itemFaults_eq more]

theorem entryFaults_eq (entries : List (String × Json)) : entryFaults entries =
    (Json.entryTexts entries).flatMap fun text => (Placeholder.violations text).map .placeholder := by
  match entries with
  | [] => rfl
  | (_, value) :: more =>
    rw [entryFaults, Json.entryTexts, List.flatMap_append, textFaults_eq value, entryFaults_eq more]

end

/-- A value has no faults when validation lets all its texts pass. -/
theorem textFaults_eq_nil (v : Json) :
    textFaults v = [] ↔ ∀ text ∈ v.texts, Placeholder.violations text = [] := by
  simp only [textFaults_eq, List.flatMap_eq_nil_iff, List.map_eq_nil_iff]

end Component

namespace Script.Node

mutual

/-- A literal has one value for both reductions. -/
theorem value?_of_literal? (node : Node) (v : Json) (h : node.literal? = some v) :
    node.value? = some v := by
  cases node with
  | literal position value => exact h
  | array position elements =>
    obtain ⟨values, read, rfl⟩ := Option.map_eq_some_iff.mp h
    rw [value?, valuesOrNull_of_literals? elements values read]
  | object position properties =>
    obtain ⟨entries, read, rfl⟩ := Option.map_eq_some_iff.mp h
    rw [value?, valueEntries_of_literalEntries? properties entries read]
  | _ => cases h

theorem valuesOrNull_of_literals? (nodes : List Node) (values : List Json)
    (h : literals? nodes = some values) : valuesOrNull nodes = values := by
  match nodes with
  | [] =>
    cases h
    rfl
  | first :: more =>
    rw [literals?] at h
    split at h
    · next v vs here later =>
      cases h
      rw [valuesOrNull, value?_of_literal? first v here, valuesOrNull_of_literals? more vs later]
      rfl
    · cases h

theorem valueEntries_of_literalEntries? (nodes : List Node) (entries : List (String × Json))
    (h : literalEntries? nodes = some entries) : valueEntries nodes = entries := by
  match nodes with
  | [] =>
    cases h
    rfl
  | first :: more =>
    cases first with
    | property position key value shorthand =>
      rw [literalEntries?] at h
      split at h
      · next k v es named here later =>
        cases h
        rw [valueEntries, named, value?_of_literal? value v here,
          valueEntries_of_literalEntries? more es later]
        rfl
      · cases h
    | _ => cases h

end

/-- An array or an object with a part that is no literal. -/
def isPartial : Node → Bool
  | array position elements => (literal? (array position elements)).isNone
  | object position properties => (literal? (object position properties)).isNone
  | _ => false

end Script.Node

namespace Markup

/-- The name that is the value of an attribute. -/
def Attribute.bareName? (a : Attribute) : Option String :=
  match a.value with
  | .mustache tag => tag.expression.bareName?
  | .bare | .text .. => none

/-- An attribute whose value is an array or an object with a part that is no literal. -/
def Attribute.isPartial (a : Attribute) : Bool :=
  match a.value with
  | .mustache tag => tag.expression.isPartial
  | .bare | .text .. => false

end Markup

namespace Meaning

/-- The generator makes null of an array or an object that is no literal. -/
theorem expressionValue_of_isPartial (constants : Dictionary Json) {node : Script.Node}
    (h : node.isPartial = true) : expressionValue constants node = .null := by
  cases node with
  | array position elements =>
    rw [expressionValue, Option.isNone_iff_eq_none.mp h]
    rfl
  | object position properties =>
    rw [expressionValue, Option.isNone_iff_eq_none.mp h]
    rfl
  | _ => cases h

/-- Any other expression but a name has one value for both reductions. -/
theorem expressionValue_eq (constants : Dictionary Json) {node : Script.Node}
    (named : node.bareName? = none) (whole : node.isPartial = false) :
    expressionValue constants node = node.value?.getD .null := by
  cases literal : node.literal? with
  | some v =>
    rw [expressionValue, literal, Script.Node.value?_of_literal? node v literal]
    rfl
  | none =>
    rw [expressionValue, literal, named]
    cases node with
    | identifier => cases named
    | array => rw [Script.Node.isPartial, literal] at whole; cases whole
    | object => rw [Script.Node.isPartial, literal] at whole; cases whole
    | literal => cases literal
    | member position owner name computed =>
      rw [Script.Node.value?]
      cases Script.Node.inputName? (.member position owner name computed) <;> rfl
    | _ => rfl

variable {tag : String} {a : Markup.Attribute}

/-- Both reductions of an attribute come to the same value. -/
theorem value_eq (constants : Dictionary Json) (named : a.bareName? = none)
    (whole : a.isPartial = false) :
    value constants a = (Component.attributeValue tag a).1 := by
  obtain ⟨position, name, written⟩ := a
  cases written with
  | bare | text => rfl
  | mustache t =>
    rw [value, Component.attributeValue]
    dsimp only
    rw [expressionValue_eq constants named whole]
    cases t.expression.value? <;> rfl

theorem value_of_isPartial (constants : Dictionary Json) (h : a.isPartial = true) :
    value constants a = .null := by
  obtain ⟨position, name, written⟩ := a
  cases written with
  | bare | text => cases h
  | mustache t => exact expressionValue_of_isPartial constants h

/-- A name stands for the constant of that name. -/
theorem value_of_bareName? (constants : Dictionary Json) {name : String} (h : a.bareName? = some name) :
    value constants a = (Dictionary.find? constants name).getD .null := by
  obtain ⟨position, key, written⟩ := a
  cases written with
  | bare | text => cases h
  | mustache t =>
    obtain ⟨place, shape⟩ := Script.Node.bareName?_eq_some.mp h
    rw [value]
    dsimp only
    rw [shape]
    rfl

/-- Validation lets the texts pass in the value of an attribute that the classification has nothing
against, unless a name is the value. -/
theorem violations_value (constants : Dictionary Json) (named : a.bareName? = none)
    (faultless : Component.IsFaultless tag a) :
    ∀ text ∈ (value constants a).texts, Placeholder.violations text = [] := by
  cases whole : a.isPartial with
  | true => simp [value_of_isPartial constants whole, Json.texts]
  | false =>
    rw [value_eq constants named whole]
    exact (Component.textFaults_eq_nil _).mp faultless.2

end Meaning

end Dashboard
