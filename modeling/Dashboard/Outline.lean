import Dashboard.Script.Tree

/-!
Outlines of syntax trees: every node with its kind, place, scalars and branches, whatever language
it belongs to. `Outline.rows` lists the nodes of a tree in pre-order.
-/
namespace Dashboard

inductive Outline where
  | node (kind : String) (position : Position) (scalars : List (String × Scalar))
      (branches : List (Branch Outline))
  deriving Repr

namespace Outline

structure Row where
  depth : Nat
  field : String
  kind : String
  position : Position
  scalars : List (String × Scalar)
  lists : List (String × Nat)
  deriving Repr

mutual

/-- The nodes of a tree that hangs under `field` at a depth, a parent before its children. -/
def rowsAt (depth : Nat) (field : String) : Outline → List Row
  | .node kind position scalars branches =>
    let lists := branches.filterMap fun b => if b.isList then some (b.field, b.nodes.length) else none
    ⟨depth, field, kind, position, scalars, lists⟩ :: branchRows (depth + 1) branches

def branchRows (depth : Nat) : List (Branch Outline) → List Row
  | [] => []
  | ⟨field, _, nodes⟩ :: more => listRows depth field nodes ++ branchRows depth more

def listRows (depth : Nat) (field : String) : List Outline → List Row
  | [] => []
  | first :: more => rowsAt depth field first ++ listRows depth field more

end

def rows (tree : Outline) : List Row := rowsAt 0 "" tree

def count (tree : Outline) : Nat := tree.rows.length

end Outline

namespace Script.Node

def outline (node : Node) : Outline :=
  .node node.view.kind node.view.position node.view.scalars
    (node.view.branches.attach.map fun ⟨branch, _⟩ =>
      ⟨branch.field, branch.isList, branch.nodes.attach.map fun ⟨child, _⟩ => outline child⟩)
termination_by sizeOf node
decreasing_by exact sizeOf_lt_of_mem_branches ‹_› ‹_›

/-- The node and everything below it, a parent before its children. -/
def subnodes (node : Node) : List Node :=
  node :: node.view.branches.attach.flatMap fun ⟨branch, _⟩ =>
    branch.nodes.attach.flatMap fun ⟨child, _⟩ => subnodes child
termination_by sizeOf node
decreasing_by exact sizeOf_lt_of_mem_branches ‹_› ‹_›

theorem subnodes_eq (node : Node) :
    node.subnodes = node :: node.children.flatMap subnodes := by
  rw [subnodes]
  simp [children, List.flatMap_assoc, List.flatMap_subtype]

end Script.Node

end Dashboard
