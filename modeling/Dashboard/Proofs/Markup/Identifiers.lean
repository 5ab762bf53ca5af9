import Dashboard.Proofs.Markup.Standing
import Dashboard.Proofs.Script.Standing

/-!
The places of identifiers. In expression tags, in attributes and in the script an identifier is where
the source spells its name. In a condition it is where the name would stand if the text of the
condition began at the place of the block.
-/
namespace Dashboard.Markup

/-- An expression that is written in a document: in a tag, or as the condition of a block. -/
inductive Written where
  | tag (tag : Mustache)
  | condition (position : Position) (raw : String) (test : Script.Node)

def Attribute.written (a : Attribute) : List Written :=
  match a.value with
  | .mustache tag => [.tag tag]
  | .bare | .text .. => []

mutual

/-- The expressions in the attributes of a node, in its condition and below. -/
def Node.written : Node → List Written
  | .element _ _ attributes children => attributes.flatMap Attribute.written ++ writtenAll children
  | .mustache tag => [.tag tag]
  | .ifBlock p raw condition children alternative =>
    .condition p raw condition :: (writtenAll children ++ alternative.written)
  | .style _ attributes _ => attributes.flatMap Attribute.written
  | .text .. | .comment .. => []

def Alternative.written : Alternative → List Written
  | .absent => []
  | .otherwise _ children => writtenAll children
  | .elseIf _ block => block.written

def writtenAll : List Node → List Written
  | [] => []
  | first :: more => first.written ++ writtenAll more

end

/-- All expressions of a document but its script: those of the tree, and those in the attributes of the
script region. -/
def Document.written (document : Document) : List Written :=
  document.script.toList.flatMap (·.attributes.flatMap Attribute.written) ++
    writtenAll document.children

/-- What a parsed document says of an expression in it. -/
def Written.IsExact (text : List Char) : Written → Prop
  | .tag found => found.IsExact text
  | .condition p raw test => IsCondition text raw p ∧ Script.parseExpression raw p = .ok test

variable {text : List Char} {w : Written}

theorem Attribute.isExact_of_mem_written {a : Attribute} (exact : a.IsExact text)
    (member : w ∈ a.written) : w.IsExact text := by
  obtain ⟨position, name, value⟩ := a
  cases value with
  | mustache tag =>
    obtain rfl := List.mem_singleton.mp member
    exact exact.2
  | _ => cases member

theorem isExact_of_mem_attributes {attributes : List Attribute}
    (exact : ∀ a ∈ attributes, a.IsExact text)
    (member : w ∈ attributes.flatMap Attribute.written) : w.IsExact text := by
  obtain ⟨a, inside, member⟩ := List.mem_flatMap.mp member
  exact Attribute.isExact_of_mem_written (exact a inside) member

mutual

theorem Node.isExact_of_mem_written : (node : Node) → node.IsExact text → w ∈ node.written →
    w.IsExact text
  | .element _ _ attributes children, exact, member => by
    rcases List.mem_append.mp member with member | member
    · exact isExact_of_mem_attributes exact.2.1 member
    · exact isExact_of_mem_writtenAll children exact.2.2 member
  | .mustache tag, exact, member => by
    obtain rfl := List.mem_singleton.mp member
    exact exact
  | .ifBlock p raw condition children alternative, exact, member => by
    obtain ⟨stands, parsed, inside, other⟩ := exact
    rcases List.mem_cons.mp member with rfl | member
    · exact ⟨stands, parsed⟩
    rcases List.mem_append.mp member with member | member
    · exact isExact_of_mem_writtenAll children inside member
    · exact alternative.isExact_of_mem_written other member
  | .style _ attributes _, exact, member => isExact_of_mem_attributes exact.2 member
  | .text .., _, member | .comment .., _, member => by cases member

theorem Alternative.isExact_of_mem_written : (alternative : Alternative) →
    alternative.IsExact text → w ∈ alternative.written → w.IsExact text
  | .absent, _, member => by cases member
  | .otherwise _ children, exact, member => isExact_of_mem_writtenAll children exact.2 member
  | .elseIf _ block, exact, member => block.isExact_of_mem_written exact.2 member

theorem isExact_of_mem_writtenAll : (nodes : List Node) → AreExact text nodes →
    w ∈ writtenAll nodes → w.IsExact text
  | [], _, member => by cases member
  | first :: more, exact, member => by
    rcases List.mem_append.mp member with member | member
    · exact first.isExact_of_mem_written exact.1 member
    · exact isExact_of_mem_writtenAll more exact.2 member

end

theorem isExact_of_mem_written {source : String} {document : Document}
    (h : parse source = .ok document) (member : w ∈ document.written) :
    w.IsExact source.toList := by
  obtain ⟨children, region⟩ := isExact_of_parse h
  rcases List.mem_append.mp member with member | member
  · obtain ⟨found, met, member⟩ := List.mem_flatMap.mp member
    exact isExact_of_mem_attributes (region found (Option.mem_toList.mp met)).attributes member
  · exact isExact_of_mem_writtenAll _ children member

/-- Where the identifiers of a document stand in a text. In expression tags, attributes and the script
the text spells their names at their places. In a condition the name stands behind the place of its
node, which is the place that it would have if the text of the condition began at the place of the
block. -/
structure Document.HasNamesIn (text : List Char) (document : Document) : Prop where
  tags : ∀ tag, .tag tag ∈ document.written → ∀ p name,
    .identifier p name ∈ tag.expression.subnodes → Spells text p name.toList
  script : ∀ program, document.scriptProgram? = .ok (some program) → ∀ p name,
    .identifier p name ∈ program.subnodes → Spells text p name.toList
  conditions : ∀ block raw test, .condition block raw test ∈ document.written →
    ∃ q : Position, block.offset < q.offset ∧ Spells text q raw.toList ∧
      ∀ p name, .identifier p name ∈ test.subnodes →
        ∃ front, front <+: raw.toList ∧ p = block.advance front ∧
          Spells text (q.advance front) name.toList

theorem hasNamesIn_of_parse {source : String} {document : Document}
    (parsed : parse source = .ok document) : document.HasNamesIn source.toList where
  tags tag member p name inside := by
    obtain ⟨-, content, origin, stands, -, expression⟩ := isExact_of_mem_written parsed member
    exact (stands.trans (Script.stands_of_parseExpression expression inside)).spells
  script program read p name inside := by
    rw [Document.scriptProgram?] at read
    split at read
    · cases read
    · next region met =>
      obtain ⟨node, script, same⟩ := map_eq_ok.mp read
      obtain rfl := Option.some.inj same
      have body := ((isExact_of_parse parsed).2 region met).raw
      exact (body.trans (Script.stands_of_parseScript script inside)).spells
  conditions block raw test member := by
    obtain ⟨⟨-, q, further, stands⟩, expression⟩ := isExact_of_mem_written parsed member
    refine ⟨q, further, stands.spells, fun p name inside => ?_⟩
    obtain ⟨front, behind, split, place⟩ := Script.stands_of_parseExpression expression inside
    refine ⟨front, ⟨_, split.symm⟩, place, ?_⟩
    rw [split] at stands
    exact stands.right.left.spells

/-- A document with a script, a tag in an attribute, and a condition. -/
def labelled : String :=
  "<script>\nlet total = 1;\n</script>\n<Chart data=\x7btotal\x7d />\x7b#if inputs.a\x7dx\x7b/if\x7d"

theorem hasNamesIn_of_parse_labelled : ∃ document, parse labelled = .ok document ∧
    document.script.isSome ∧ document.written.length = 2 ∧
      document.HasNamesIn labelled.toList := by
  have shown : (parse labelled).toOption.map
      (fun document => (document.script.isSome, document.written.length)) = some (true, 2) := by
    have chars : labelled.toList = _ := String.toList_ofList
    rw [parse_of_toList chars]
    decide +kernel
  obtain ⟨document, parsed, shown⟩ := Option.map_eq_some_iff.mp shown
  obtain ⟨script, two⟩ := Prod.mk.inj shown
  have parsed := toOption_eq_some.mp parsed
  exact ⟨document, parsed, script, two, hasNamesIn_of_parse parsed⟩

/-- An identifier as its place and its name. -/
def spelled? : Script.Node → Option (Position × String)
  | .identifier p name => some (p, name)
  | _ => none

def conditional : String := "\x7b#if a\x7db\x7b/if\x7d"

/-- The name in the condition stands five characters behind the place of its node. -/
theorem not_spells_conditional : ∃ document block raw test p, parse conditional = .ok document ∧
    .condition block raw test ∈ document.written ∧ .identifier p "a" ∈ test.subnodes ∧
      ¬ Spells conditional.toList p "a".toList := by
  have shown : (parse conditional).toOption.map (fun document => document.written.map fun
      | .condition _ _ test => test.subnodes.filterMap spelled?
      | .tag _ => []) = some [[(.start, "a")]] := by
    have chars : conditional.toList = _ := String.toList_ofList
    rw [parse_of_toList chars]
    decide +kernel
  obtain ⟨document, parsed, shown⟩ := Option.map_eq_some_iff.mp shown
  obtain ⟨w, _, found, names, -⟩ := List.map_eq_cons_iff.mp shown
  cases w with
  | tag => cases names
  | condition block raw test =>
    have named : (.start, "a") ∈ test.subnodes.filterMap spelled? := by simp [names]
    obtain ⟨node, inside, same⟩ := List.mem_filterMap.mp named
    cases node with
    | identifier p name =>
      cases same
      refine ⟨document, block, raw, test, .start, toOption_eq_some.mp parsed, ?_, inside, ?_⟩
      · rw [found]
        exact List.mem_cons_self
      · intro spells
        exact absurd spells.characters (by decide)
    | _ => cases same

end Dashboard.Markup
