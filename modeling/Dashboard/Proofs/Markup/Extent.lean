import Dashboard.Proofs.Markup.Standing
import Dashboard.Proofs.Script.Extent

/-!
How high the trees of documents are. Elements and blocks enter levels, of which there are only so
many, and the expressions in them are as high as expressions can be.
-/
namespace Dashboard.Markup

open Dashboard.Outline (Within within_node)
open Dashboard.Script (expressionHeight builds_wholeExpression builds_program within_of_parseText)

section Heights

variable {height : Nat} {kind : String} {position : Position} {scalars : List (String × Scalar)}
  {field : String}

theorem within_branches {branches : List (Branch Outline)}
    (h : ∀ branch ∈ branches, ∀ part ∈ branch.nodes, part.Within height) :
    Within (height + 1) (.node kind position scalars branches) := by
  refine within_node.mpr fun part member => ?_
  obtain ⟨branch, under, inside⟩ := List.mem_flatMap.mp member
  exact h branch under part inside

theorem within_one {part : Outline} (h : part.Within height) :
    Within (height + 1) (.node kind position scalars [.one field part]) :=
  within_branches (List.forall_mem_singleton.mpr (List.forall_mem_singleton.mpr h))

theorem within_many {parts : List Outline} (h : ∀ part ∈ parts, part.Within height) :
    Within (height + 1) (.node kind position scalars [.many field parts]) :=
  within_branches (List.forall_mem_singleton.mpr h)

theorem within_leaf : Within (height + 1) (.node kind position scalars []) :=
  within_branches nofun

end Heights

/-- How high a node is where so many levels remain: it may hold an attribute with an expression, or
a branch of the level below. -/
def nodeHeight (levels : Nat) : Nat := expressionHeight + 2 * levels + 3

section Within

variable {text : List Char}

theorem Mustache.IsExact.within {tag : Mustache} (exact : tag.IsExact text) :
    tag.outline.Within (expressionHeight + 1) := by
  obtain ⟨-, content, origin, -, -, parsed⟩ := exact
  exact within_one (within_of_parseText builds_wholeExpression parsed)

theorem Attribute.IsExact.within {a : Attribute} (exact : a.IsExact text) :
    a.outline.Within (expressionHeight + 2) := by
  obtain ⟨position, name, value⟩ := a
  cases value with
  | bare => exact within_leaf
  | text p data => exact within_many (List.forall_mem_singleton.mpr within_leaf)
  | mustache tag =>
    exact within_many (List.forall_mem_singleton.mpr (Mustache.IsExact.within exact.2))

theorem attributes_within {attributes : List Attribute} (exact : ∀ a ∈ attributes, a.IsExact text) :
    ∀ part ∈ attributes.map Attribute.outline, part.Within (expressionHeight + 2) :=
  List.forall_mem_map.mpr fun a member => Attribute.IsExact.within (exact a member)

mutual

theorem Node.within : (node : Node) → {levels : Nat} → node.IsExact text → node.IsSound levels →
    node.outline.Within (nodeHeight levels)
  | .element p name attributes children, levels, exact, sound => by
    obtain ⟨-, tags, inside⟩ := exact
    obtain ⟨-, nested, -⟩ := sound
    rw [Node.outline, nodeHeight]
    refine within_branches (List.forall_mem_cons.mpr ⟨fun part member => ?_,
      List.forall_mem_singleton.mpr fun part member => ?_⟩)
    · exact (attributes_within tags part member).mono (by omega)
    · rcases nested with rfl | ⟨inner, rfl, deeper⟩
      · cases member
      · exact (outlines_within children inside deeper part member).mono (by rw [nodeHeight]; omega)
  | .text p data, levels, _, _ => by
    rw [Node.outline, nodeHeight]
    exact within_leaf
  | .mustache tag, levels, exact, _ =>
    (Mustache.IsExact.within exact).mono (by rw [nodeHeight]; omega)
  | .ifBlock p raw condition children alternative, levels, exact, sound => by
    obtain ⟨-, parsed, inside, other⟩ := exact
    obtain ⟨inner, rfl, -, deeper, otherwise⟩ := sound
    rw [Node.outline, nodeHeight]
    refine within_branches (List.forall_mem_cons.mpr ⟨fun part member => ?_,
      List.forall_mem_append.mpr ⟨fun branch under part member => ?_, ?_⟩⟩)
    · exact (outlines_within children inside deeper part member).mono (by rw [nodeHeight]; omega)
    · exact (Alternative.within alternative other otherwise branch under part member).mono
        (by rw [nodeHeight]; omega)
    · refine List.forall_mem_singleton.mpr (List.forall_mem_singleton.mpr ?_)
      exact (within_of_parseText builds_wholeExpression parsed).mono (by omega)
  | .comment p data, levels, _, _ => by
    rw [Node.outline, nodeHeight]
    exact within_leaf
  | .style p attributes raw, levels, exact, _ => by
    rw [Node.outline]
    exact (within_many (attributes_within exact.2)).mono (by rw [nodeHeight]; omega)

/-- Between a block and what it holds instead stands a node of its own. -/
theorem Alternative.within : (alternative : Alternative) → {levels : Nat} →
    alternative.IsExact text → alternative.IsSound levels →
    ∀ branch ∈ alternative.branches, ∀ part ∈ branch.nodes, part.Within (nodeHeight levels + 1)
  | .absent, _, _, _ => nofun
  | .otherwise _ children, _, exact, sound =>
    List.forall_mem_singleton.mpr (List.forall_mem_singleton.mpr
      (within_many (outlines_within children exact.2 sound)))
  | .elseIf _ block, _, exact, sound =>
    List.forall_mem_singleton.mpr (List.forall_mem_singleton.mpr
      (within_many (List.forall_mem_singleton.mpr (Node.within block exact.2 sound))))

theorem outlines_within : (nodes : List Node) → {levels : Nat} → AreExact text nodes →
    AreSound nodes levels → ∀ part ∈ outlines nodes, part.Within (nodeHeight levels)
  | [], _, _, _ => nofun
  | first :: more, _, exact, sound =>
    List.forall_mem_cons.mpr
      ⟨Node.within first exact.1 sound.1, outlines_within more exact.2 sound.2⟩

end

end Within

/-- How high trees are where so many levels may be entered, in scripts and in documents. -/
def treeHeight (nesting : Nat) : Nat := Script.Productions.heightAt nesting + 2 * nesting + 4

example : treeHeight maxNesting = 6500 := by decide +kernel

theorem nodeHeight_succ : nodeHeight maxNesting + 1 = treeHeight maxNesting := by
  rw [nodeHeight, treeHeight, expressionHeight]

theorem document_within {source : String} {document : Document} (h : parse source = .ok document) :
    document.outline.Within (treeHeight maxNesting) ∧
      ∀ region, document.script = some region →
        region.outline.Within (treeHeight maxNesting) := by
  obtain ⟨exact, script⟩ := isExact_of_parse h
  have tree : document.outline.Within (nodeHeight maxNesting + 1) :=
    within_many (outlines_within _ exact (areSound_of_parse h))
  refine ⟨nodeHeight_succ ▸ tree, fun region met => ?_⟩
  have tag : region.outline.Within (expressionHeight + 3) :=
    within_many (attributes_within (script region met).attributes)
  exact tag.mono (by rw [treeHeight, expressionHeight]; omega)

namespace Productions

open Dashboard.Markup.Parser

/-! The levels that remain, as a nesting that is counted and checked. -/

/-- An element or a block is entered only where the nesting is below the limit. -/
def guarded {α : Type} (nesting : Nat) (position : Position) (p : Parser α) : Parser α :=
  if nesting < maxNesting then p else failAt .nestingTooDeep position

/-- The productions at a nesting. Each calls those one level deeper through the check of the
nesting, down to so many levels; deeper than that stands anything. -/
def counted (beyond : Productions) : (room nesting : Nat) → Productions
  | 0, _ => beyond
  | room + 1, nesting =>
    let inner := counted beyond room (nesting + 1)
    let ifBlock := fun inElement condition position =>
      guarded nesting position (branches inner inElement condition position)
    { children := childrenUntil
        (fun position inElement => guarded nesting position (inner.children inElement)) ifBlock
      ifBlock := ifBlock }

theorem counted_eq (beyond : Productions) {room nesting : Nat} (enough : maxNesting < nesting + room)
    (le : nesting ≤ maxNesting) : counted beyond room nesting = atLevel (maxNesting - nesting) := by
  induction room generalizing nesting with
  | zero => omega
  | succ room ih =>
    rw [counted]
    by_cases below : nesting < maxNesting
    · have level : maxNesting - nesting = maxNesting - (nesting + 1) + 1 := by omega
      rw [ih (by omega) below, level]
      simp only [guarded, if_pos below]
      rfl
    · obtain rfl : nesting = maxNesting := by omega
      rw [Nat.sub_self]
      simp only [guarded, if_neg below]
      rfl

end Productions

/-- The trees of accepted texts are no higher than the limit on nesting allows, and no production
of either parser runs beyond that limit: whatever stood there, nothing would change. -/
theorem parses_within_nesting :
    (∀ text origin tree, Script.parseExpression text origin = .ok tree →
      tree.outline.Within (treeHeight maxNesting)) ∧
    (∀ text origin program, Script.parseScript text origin = .ok program →
      program.outline.Within (treeHeight maxNesting)) ∧
    (∀ source document, parse source = .ok document →
      document.outline.Within (treeHeight maxNesting) ∧
        ∀ region, document.script = some region →
          region.outline.Within (treeHeight maxNesting)) ∧
    (∀ beyond, Script.Productions.counted beyond (maxNesting + 1) 0 =
      Script.Productions.entered maxNesting) ∧
    ∀ beyond, Productions.counted beyond (maxNesting + 1) 0 = Productions.atLevel maxNesting := by
  refine ⟨fun text origin tree parsed => ?_, fun text origin program parsed => ?_,
    fun source document parsed => document_within parsed, Script.Productions.counted_start,
    fun beyond => Productions.counted_eq beyond (by omega) (Nat.zero_le _)⟩
  · exact (within_of_parseText builds_wholeExpression parsed).mono
      (by rw [treeHeight, expressionHeight]; omega)
  · exact (within_of_parseText (builds_program origin) parsed).mono
      (by rw [treeHeight, expressionHeight]; omega)

/-- A document with a script, an element in a block, and expressions in both. -/
def nested : String :=
  "<script>let a = b.c;</script>\x7b#if a\x7d<p title=\x7ba + 1\x7d>\x7ba\x7d</p>\x7b/if\x7d"

theorem parses_within_nesting_nested : ∃ document program tree, parse nested = .ok document ∧
    Script.parseScript "let a = b.c;" .start = .ok program ∧
    Script.parseExpression "a + 1" .start = .ok tree ∧ document.script.isSome ∧
    document.outline.Within (treeHeight maxNesting) ∧
    program.outline.Within (treeHeight maxNesting) ∧
    tree.outline.Within (treeHeight maxNesting) := by
  have chars : nested.toList = _ := String.toList_ofList
  have markup : (parse nested).toOption.map (·.script.isSome) = some true := by
    rw [parse_of_toList chars]
    decide +kernel
  have script : (Script.parseScript "let a = b.c;" .start).toOption.isSome = true := by
    decide +kernel
  have expression : (Script.parseExpression "a + 1" .start).toOption.isSome = true := by
    decide +kernel
  obtain ⟨document, markup, region⟩ := Option.map_eq_some_iff.mp markup
  obtain ⟨program, script⟩ := Option.isSome_iff_exists.mp script
  obtain ⟨tree, expression⟩ := Option.isSome_iff_exists.mp expression
  have markup := toOption_eq_some.mp markup
  have script := toOption_eq_some.mp script
  have expression := toOption_eq_some.mp expression
  obtain ⟨expressions, scripts, documents, -⟩ := parses_within_nesting
  exact ⟨document, program, tree, markup, script, expression, region, (documents _ _ markup).1,
    scripts _ _ _ script, expressions _ _ _ expression⟩

end Dashboard.Markup
