import Dashboard.Sandbox
import Dashboard.Proofs.Json.ReadBack

/-!
Rendering values that come out of their text. Only doubles change on that way: a rendered tree is
the same with its doubles as they are read back, and it is unchanged exactly when each of them is
read back as itself.
-/
namespace Dashboard

open Dashboard.Json (reread relayed relayedItems relayedEntries relayedEntries_eq_map)

namespace Json

mutual

/-- All doubles in a value. -/
def doubles : Json → List Binary64
  | .float x => [x]
  | .arr items => itemDoubles items
  | .obj entries => entryDoubles entries
  | .null | .bool _ | .int _ | .str _ => []

def itemDoubles : List Json → List Binary64
  | [] => []
  | first :: more => doubles first ++ itemDoubles more

def entryDoubles : List (String × Json) → List Binary64
  | [] => []
  | (_, value) :: more => doubles value ++ entryDoubles more

end

mutual

theorem relayed_eq_self (v : Json) : relayed v = v ↔ ∀ x ∈ doubles v, reread x = x := by
  match v with
  | .null | .bool _ | .int _ | .str _ => simp [relayed, doubles]
  | .float x => simp [relayed, doubles]
  | .arr items => simp [relayed, doubles, relayedItems_eq_self items]
  | .obj entries => simp [relayed, doubles, relayedEntries_eq_self entries]

theorem relayedItems_eq_self (items : List Json) :
    relayedItems items = items ↔ ∀ x ∈ itemDoubles items, reread x = x := by
  match items with
  | [] => simp [relayedItems, itemDoubles]
  | first :: more =>
    simp [relayedItems, itemDoubles, relayed_eq_self first, relayedItems_eq_self more, or_imp,
      forall_and]

theorem relayedEntries_eq_self (entries : List (String × Json)) :
    relayedEntries entries = entries ↔ ∀ x ∈ entryDoubles entries, reread x = x := by
  match entries with
  | [] => simp [relayedEntries, entryDoubles]
  | (key, value) :: more =>
    simp [relayedEntries, entryDoubles, relayed_eq_self value, relayedEntries_eq_self more, or_imp,
      forall_and]

end

end Json

namespace RenderNode

mutual

/-- The tree with its doubles as they are read back. -/
def relayed : RenderNode → RenderNode
  | .widget name props children => .widget name (relayedEntries props) (relayedAll children)
  | .text data => .text data

def relayedAll : List RenderNode → List RenderNode
  | [] => []
  | first :: more => first.relayed :: relayedAll more

end

mutual

def doubles : RenderNode → List Binary64
  | .widget _ props children => Json.entryDoubles props ++ doublesAll children
  | .text _ => []

def doublesAll : List RenderNode → List Binary64
  | [] => []
  | first :: more => first.doubles ++ doublesAll more

end

mutual

theorem relayed_eq_self (node : RenderNode) : node.relayed = node ↔ ∀ x ∈ node.doubles, reread x = x := by
  match node with
  | .widget name props children =>
    simp [relayed, doubles, Json.relayedEntries_eq_self props, relayedAll_eq_self children, or_imp,
      forall_and]
  | .text data => simp [relayed, doubles]

theorem relayedAll_eq_self (nodes : List RenderNode) :
    relayedAll nodes = nodes ↔ ∀ x ∈ doublesAll nodes, reread x = x := by
  match nodes with
  | [] => simp [relayedAll, doublesAll]
  | first :: more =>
    simp [relayedAll, doublesAll, relayed_eq_self first, relayedAll_eq_self more, or_imp, forall_and]

end

theorem relayedAll_append (front back : List RenderNode) :
    relayedAll (front ++ back) = relayedAll front ++ relayedAll back := by
  induction front with
  | nil => rfl
  | cons first more ih => rw [List.cons_append, relayedAll, relayedAll, ih, List.cons_append]

end RenderNode

namespace LoadedModule

mutual

/-- Placeholders are resolved in texts, which are read back as they are. -/
theorem resolveValue_relayed (state : InputState) (v : Json) :
    resolveValue state (relayed v) = relayed (resolveValue state v) := by
  match v with
  | .null | .bool _ | .int _ | .float _ | .str _ => rfl
  | .arr items => simp [relayed, resolveValue, resolveItems_relayed state items]
  | .obj entries => simp [relayed, resolveValue, resolveEntries_relayed state entries]

theorem resolveItems_relayed (state : InputState) (items : List Json) :
    resolveItems state (relayedItems items) = relayedItems (resolveItems state items) := by
  match items with
  | [] => rfl
  | first :: more =>
    simp [relayedItems, resolveItems, resolveValue_relayed state first,
      resolveItems_relayed state more]

theorem resolveEntries_relayed (state : InputState) (entries : List (String × Json)) :
    resolveEntries state (relayedEntries entries) = relayedEntries (resolveEntries state entries) := by
  match entries with
  | [] => rfl
  | (key, value) :: more =>
    simp [relayedEntries, resolveEntries, resolveValue_relayed state value,
      resolveEntries_relayed state more]

end

end LoadedModule

theorem Json.find?_relayedEntries (d : Dictionary Json) (key : String) :
    Dictionary.find? (relayedEntries d) key = (Dictionary.find? d key).map relayed := by
  induction d with
  | nil => rfl
  | cons entry more ih =>
    rw [relayedEntries, Dictionary.find?_cons, Dictionary.find?_cons, ih]
    split_ifs <;> rfl

theorem Widget.hides_relayed (props : Dictionary Json) :
    Widget.hides (relayedEntries props) = Widget.hides props := by
  unfold hides
  rw [Json.find?_relayedEntries]
  cases Dictionary.find? props "visible" with
  | none => rfl
  | some value => cases value <;> rfl

end Dashboard
