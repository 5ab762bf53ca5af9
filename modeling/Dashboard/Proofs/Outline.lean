import Mathlib.Algebra.GroupWithZero.Nat
import Dashboard.Outline

/-!
The rows of an outline. The rows below a node are those of its parts, one level deeper; so what is
counted in the rows, and how deep they reach, can be told from the parts.
-/
namespace Dashboard

namespace Outline

variable {kind : String} {position : Position} {scalars : List (String × Scalar)}
  {branches : List (Branch Outline)}

/-- How deep a row stands, and the kind of its node. -/
def Row.key (row : Row) : Nat × String := (row.depth, row.kind)

def keys (tree : Outline) : List (Nat × String) := tree.rows.map Row.key

def deepen (levels : Nat) (key : Nat × String) : Nat × String := (key.1 + levels, key.2)

mutual

theorem keys_rowsAt (start depth : Nat) (field other : String) (tree : Outline) :
    (rowsAt (start + depth) field tree).map Row.key =
      (rowsAt start other tree).map fun row => deepen depth row.key := by
  match tree with
  | .node kind position scalars branches =>
    have below := keys_branchRows (start + 1) depth branches
    rw [Nat.add_right_comm] at below
    rw [rowsAt, rowsAt, List.map_cons, List.map_cons, below]
    rfl

theorem keys_branchRows (start depth : Nat) (branches : List (Branch Outline)) :
    (branchRows (start + depth) branches).map Row.key =
      (branchRows start branches).map fun row => deepen depth row.key := by
  match branches with
  | [] => rfl
  | ⟨field, _, nodes⟩ :: more =>
    rw [branchRows, branchRows, List.map_append, List.map_append,
      keys_listRows start depth field field nodes, keys_branchRows start depth more]

theorem keys_listRows (start depth : Nat) (field other : String) (nodes : List Outline) :
    (listRows (start + depth) field nodes).map Row.key =
      (listRows start other nodes).map fun row => deepen depth row.key := by
  match nodes with
  | [] => rfl
  | first :: more =>
    rw [listRows, listRows, List.map_append, List.map_append,
      keys_rowsAt start depth field other first, keys_listRows start depth field other more]

end

theorem listRows_eq (depth : Nat) (field : String) (nodes : List Outline) :
    listRows depth field nodes = nodes.flatMap (rowsAt depth field) := by
  induction nodes with
  | nil => rfl
  | cons first more ih => rw [listRows, ih, List.flatMap_cons]

theorem branchRows_eq (depth : Nat) (branches : List (Branch Outline)) :
    branchRows depth branches = branches.flatMap fun b => b.nodes.flatMap (rowsAt depth b.field) := by
  induction branches with
  | nil => rfl
  | cons first more ih =>
    obtain ⟨field, isList, nodes⟩ := first
    rw [branchRows, ih, listRows_eq, List.flatMap_cons]

/-- What holds of the row of a node and of all rows of its parts holds of all its rows. -/
theorem forall_rowsAt {P : Row → Prop} {field : String} {depth : Nat}
    (here : ∀ lists, P ⟨depth, field, kind, position, scalars, lists⟩)
    (below : ∀ branch ∈ branches, ∀ part ∈ branch.nodes, ∀ row ∈ rowsAt (depth + 1) branch.field part,
      P row) :
    ∀ row ∈ rowsAt depth field (.node kind position scalars branches), P row := by
  rw [rowsAt, branchRows_eq]
  refine List.forall_mem_cons.mpr ⟨here _, fun row member => ?_⟩
  obtain ⟨branch, under, member⟩ := List.mem_flatMap.mp member
  obtain ⟨part, inside, member⟩ := List.mem_flatMap.mp member
  exact below branch under part inside row member

/-- A node comes before its parts, which stand one level deeper. -/
theorem keys_node : keys (.node kind position scalars branches) =
    (0, kind) :: (branches.flatMap Branch.nodes).flatMap fun part => part.keys.map (deepen 1) := by
  have part (field : String) (tree : Outline) :
      (rowsAt 1 field tree).map Row.key = tree.keys.map (deepen 1) := by
    have deeper := keys_rowsAt 0 1 field "" tree
    rw [Nat.zero_add] at deeper
    rw [deeper, keys, List.map_map]
    rfl
  rw [keys, rows, rowsAt, List.map_cons, branchRows_eq, List.map_flatMap, List.flatMap_assoc]
  simp only [List.map_flatMap, part]
  rfl

/-! How many rows have a kind. -/

section Kinds

variable (p : String → Bool)

/-- How many nodes of a tree are of such a kind. -/
def countKinds (tree : Outline) : Nat := tree.rows.countP fun row => p row.kind

theorem countKinds_eq (tree : Outline) : tree.countKinds p = tree.keys.countP fun key => p key.2 := by
  rw [keys, List.countP_map]
  rfl

theorem countKinds_node : countKinds p (.node kind position scalars branches) =
    (if p kind then 1 else 0) + ((branches.flatMap Branch.nodes).map (countKinds p)).sum := by
  have part (tree : Outline) :
      ((tree.keys.map (deepen 1)).countP fun key => p key.2) = tree.countKinds p := by
    rw [countKinds_eq, List.countP_map]
    rfl
  rw [countKinds_eq, keys_node, List.countP_cons, List.countP_flatMap, Nat.add_comm]
  simp only [Function.comp_def, part]

end Kinds

/-! How deep the rows reach. -/

/-- No path from the root has more than so many nodes on it. -/
def Within (height : Nat) (tree : Outline) : Prop := ∀ row ∈ tree.rows, row.depth < height

theorem within_iff {height : Nat} {tree : Outline} :
    tree.Within height ↔ ∀ key ∈ tree.keys, key.1 < height := by
  rw [Within, keys, List.forall_mem_map]
  rfl

theorem within_node {height : Nat} :
    Within (height + 1) (.node kind position scalars branches) ↔
      ∀ part ∈ branches.flatMap Branch.nodes, part.Within height := by
  simp only [within_iff, keys_node, List.forall_mem_cons, List.mem_flatMap, List.mem_map, deepen,
    Nat.succ_pos, true_and]
  constructor
  · intro h part inside key member
    exact Nat.lt_of_succ_lt_succ (h _ ⟨part, inside, key, member, rfl⟩)
  · rintro h _ ⟨part, inside, key, member, rfl⟩
    exact Nat.succ_lt_succ (h part inside key member)

theorem Within.mono {height higher : Nat} {tree : Outline} (h : tree.Within height)
    (le : height ≤ higher) : tree.Within higher :=
  fun row member => Nat.lt_of_lt_of_le (h row member) le

end Outline

namespace Script.Node

/-- The kinds of the nodes of scripts. -/
def kinds : List String :=
  ["Literal", "TemplateLiteral", "Identifier", "ArrayExpression", "ObjectExpression", "Property",
    "SpreadElement", "FunctionDeclaration", "FunctionExpression", "ArrowFunctionExpression",
    "UnaryExpression", "UpdateExpression", "LogicalExpression", "BinaryExpression",
    "AssignmentExpression", "ConditionalExpression", "MemberExpression", "CallExpression",
    "NewExpression", "VariableDeclaration", "VariableDeclarator", "ImportDeclaration",
    "ImportDefaultSpecifier", "ImportNamespaceSpecifier", "ImportSpecifier",
    "ExportNamedDeclaration", "ReturnStatement", "IfStatement", "BlockStatement",
    "EmptyStatement", "ExpressionStatement", "Program"]

theorem kind_mem_kinds (node : Node) : node.kind ∈ kinds := by
  refine List.contains_iff_mem.mp ?_
  cases node
  case function _ isDeclaration _ _ _ => cases isDeclaration <;> rfl
  case binary _ operator _ _ =>
    rw [kind, view]
    cases operator.isLogical <;> rfl
  all_goals rfl

/-- The parts of an outline are the outlines of the children. -/
theorem outline_eq (node : Node) :
    ∃ branches, node.outline = .node node.kind node.position node.view.scalars branches ∧
      branches.flatMap Branch.nodes = node.children.map outline := by
  rw [outline]
  refine ⟨_, rfl, ?_⟩
  simp [children, List.map_flatMap, List.flatMap_map]

theorem within_outline {height : Nat} {node : Node} :
    node.outline.Within (height + 1) ↔ ∀ child ∈ node.children, child.outline.Within height := by
  obtain ⟨branches, shape, parts⟩ := outline_eq node
  rw [shape, Outline.within_node, parts, List.forall_mem_map]

theorem countKinds_outline {p : String → Bool} (never : ∀ node : Node, p node.kind = false)
    (node : Node) : node.outline.countKinds p = 0 := by
  obtain ⟨branches, shape, parts⟩ := outline_eq node
  rw [shape, Outline.countKinds_node, never node, parts, List.map_map]
  refine (Nat.zero_add _).trans (List.sum_eq_zero_iff_forall_eq_nat.mpr ?_)
  refine List.forall_mem_map.mpr fun child below => ?_
  obtain ⟨branch, under, member⟩ := List.mem_flatMap.mp below
  have smaller := sizeOf_lt_of_mem_branches under member
  exact countKinds_outline never child
termination_by sizeOf node

/-- No row of the outline is of a kind that scripts do not have. -/
theorem kind_of_mem_rowsAt {p : String → Bool} (none : ∀ kind ∈ kinds, p kind = false) (node : Node)
    (depth : Nat) (field : String) : ∀ row ∈ Outline.rowsAt depth field node.outline,
      p row.kind = false := by
  have same := Outline.keys_rowsAt 0 depth field "" node.outline
  rw [Nat.zero_add] at same
  intro row member
  have key := List.mem_map_of_mem (f := Outline.Row.key) member
  rw [same] at key
  obtain ⟨other, inside, key⟩ := List.mem_map.mp key
  have zero := countKinds_outline (fun node => none _ node.kind_mem_kinds) node
  have kind : other.kind = row.kind := congrArg Prod.snd key
  rw [← kind]
  exact Bool.eq_false_iff.mpr (List.countP_eq_zero.mp zero other inside)

end Script.Node

end Dashboard
