import Dashboard.Proofs.Markup.Standing
import Dashboard.Proofs.Outline

/-!
What the rows of a parsed document say of its source: they stand where their places say, and the text
of a row is a part of the source.
-/
namespace Dashboard.Markup

/-! What a row says. -/

/-- The kinds of the nodes of a document, apart from its root and from the expressions in it. -/
def placedKinds : List String :=
  ["Text", "Comment", "Element", "InlineComponent", "Attribute", "MustacheTag", "IfBlock",
    "ElseBlock", "Style", "Script"]

/-- The text ahead begins with the data, or with the data between two quotes where it begins with a
quote. -/
def BeginsWithValue (data : List Char) : List Char → Prop
  | [] => False
  | c :: ahead =>
    if c = '\x22' ∨ c = '\x27' then data ++ [c] <+: ahead else data <+: c :: ahead

/-- A row is where its offset is, and its data is what stands there. -/
structure IsFaithful (source : List Char) (row : Outline.Row) : Prop where
  place : row.kind ∈ placedKinds →
    row.position = Position.start.behind (source.take row.position.offset)
  text : row.kind = "Text" → ∃ data : String, row.scalars = [("data", .str data)] ∧
    if row.field = "value" then BeginsWithValue data.toList (source.drop row.position.offset)
    else data.toList <+: source.drop row.position.offset
  comment : row.kind = "Comment" → ∃ data : String, row.scalars = [("data", .str data)] ∧
    "<!--".toList ++ (data.toList ++ "-->".toList) <+: source.drop row.position.offset

/-- The body of a script is what stands at its origin, in front of the closing tag unless the tag of
the script closes itself. -/
structure ScriptRegion.IsFaithful (text : List Char) (region : ScriptRegion) : Prop where
  place : region.origin = Position.start.behind (text.take region.origin.offset)
  raw : region.raw.toList <+: text.drop region.origin.offset
  closing : ¬ "/>".toList <:+ text.take region.origin.offset →
    ∃ closing, closing.map Char.toLower = "</script".toList ∧
      region.raw.toList ++ closing <+: text.drop region.origin.offset

/-- All rows of a document: those of its tree, and those of its script region. -/
def Document.rows (document : Document) : List Outline.Row :=
  document.outline.rows ++ document.script.toList.flatMap fun region => region.outline.rows

section Rows

variable {text : List Char} {depth : Nat} {field kind : String} {p : Position}
  {scalars : List (String × Scalar)} {lists : List (String × Nat)} {branches : List (Branch Outline)}

/-- Kinds that carry no text need a place only. -/
theorem isFaithful_of_stands (stands : Stands .start text p []) (noText : kind ≠ "Text")
    (noComment : kind ≠ "Comment") : IsFaithful text ⟨depth, field, kind, p, scalars, lists⟩ where
  place _ := stands.place
  text same := absurd same noText
  comment same := absurd same noComment

/-- Expressions have other kinds. -/
theorem isFaithful_of_mem_expression (node : Script.Node) :
    ∀ row ∈ Outline.rowsAt depth field node.outline, IsFaithful text row := by
  intro row member
  have none : ∀ kind ∈ Script.Node.kinds, decide (kind ∈ placedKinds) = false := by decide
  have other : row.kind ∉ placedKinds := of_decide_eq_false
    (node.kind_of_mem_rowsAt (p := fun kind => kind ∈ placedKinds) none depth field row member)
  have unlike {kind : String} (placed : kind ∈ placedKinds) : row.kind ≠ kind :=
    fun same => other (same ▸ placed)
  exact ⟨fun placed => absurd placed other, fun same => absurd same (unlike (by decide)),
    fun same => absurd same (unlike (by decide))⟩

theorem isFaithful_of_mem_mustache {tag : Mustache} (exact : tag.IsExact text) :
    ∀ row ∈ Outline.rowsAt depth field tag.outline, IsFaithful text row := by
  refine Outline.forall_rowsAt (fun _ => isFaithful_of_stands exact.1 (by decide) (by decide)) ?_
  refine List.forall_mem_singleton.mpr (List.forall_mem_singleton.mpr ?_)
  exact isFaithful_of_mem_expression tag.expression

theorem beginsWithValue_of_isExact {data : String}
    (exact : (AttributeValue.text p data).IsExact text) :
    BeginsWithValue data.toList (text.drop p.offset) := by
  rcases exact with ⟨c, more, shape, plain, stands⟩ | ⟨quote, either, stands⟩
  · obtain ⟨behind, ahead⟩ := stands.spells.characters
    rw [shape] at ahead ⊢
    rw [← ahead, List.cons_append, BeginsWithValue, if_neg plain]
    exact ⟨behind, rfl⟩
  · obtain ⟨behind, ahead⟩ := stands.spells.characters
    rw [← ahead, List.cons_append, BeginsWithValue, if_pos either]
    exact ⟨behind, rfl⟩

theorem AttributeValue.IsExact.place {data : String}
    (exact : (AttributeValue.text p data).IsExact text) :
    p = Position.start.behind (text.take p.offset) := by
  rcases exact with ⟨_, _, -, -, stands⟩ | ⟨_, -, stands⟩
  · exact stands.place
  · exact stands.place

theorem isFaithful_of_mem_attribute {a : Attribute} (exact : a.IsExact text) :
    ∀ row ∈ Outline.rowsAt depth field a.outline, IsFaithful text row := by
  obtain ⟨position, name, value⟩ := a
  obtain ⟨named, exact⟩ := exact
  have here (scalars : List (String × Scalar)) (lists : List (String × Nat)) :
      IsFaithful text ⟨depth, field, "Attribute", position, scalars, lists⟩ :=
    isFaithful_of_stands named.start (by decide) (by decide)
  cases value with
  | bare => exact Outline.forall_rowsAt (here _) nofun
  | text p data =>
    refine Outline.forall_rowsAt (here _) (List.forall_mem_singleton.mpr ?_)
    refine List.forall_mem_singleton.mpr (Outline.forall_rowsAt (fun _ => ?_) nofun)
    exact ⟨fun _ => exact.place, fun _ => ⟨data, rfl, beginsWithValue_of_isExact exact⟩,
      fun same => absurd same (show "Text" ≠ "Comment" by decide)⟩
  | mustache tag =>
    refine Outline.forall_rowsAt (here _) (List.forall_mem_singleton.mpr ?_)
    exact List.forall_mem_singleton.mpr (isFaithful_of_mem_mustache exact)

theorem isFaithful_of_mem_attributes {attributes : List Attribute}
    (exact : ∀ a ∈ attributes, a.IsExact text) :
    ∀ part ∈ attributes.map Attribute.outline, ∀ row ∈ Outline.rowsAt depth field part,
      IsFaithful text row :=
  List.forall_mem_map.mpr fun a member => isFaithful_of_mem_attribute (exact a member)

theorem children_ne_value : "children" ≠ "value" := by decide

mutual

/-- The rows of a node that is no value of an attribute. -/
theorem Node.isFaithful : (node : Node) → node.IsExact text → {depth : Nat} → {field : String} →
    field ≠ "value" → ∀ row ∈ Outline.rowsAt depth field node.outline, IsFaithful text row
  | .element p name attributes children, exact, _, _, _ => by
    obtain ⟨place, tags, inside⟩ := exact
    rw [Node.outline]
    refine Outline.forall_rowsAt (fun _ => ?_) (List.forall_mem_cons.mpr
      ⟨isFaithful_of_mem_attributes tags, List.forall_mem_singleton.mpr ?_⟩)
    · split_ifs
      · exact isFaithful_of_stands place (by decide) (by decide)
      · exact isFaithful_of_stands place (by decide) (by decide)
    · exact outlines_isFaithful children inside children_ne_value
  | .text p data, exact, _, _, child => by
    refine Outline.forall_rowsAt (fun _ => ?_) nofun
    refine ⟨fun _ => Stands.place exact, fun _ => ⟨data, rfl, ?_⟩,
      fun same => absurd same (show "Text" ≠ "Comment" by decide)⟩
    rw [if_neg child]
    exact (Stands.spells exact).characters
  | .mustache _, exact, _, _, _ => isFaithful_of_mem_mustache exact
  | .ifBlock p raw condition children alternative, exact, _, _, _ => by
    obtain ⟨⟨place, -⟩, -, inside, other⟩ := exact
    rw [Node.outline]
    refine Outline.forall_rowsAt (fun _ => isFaithful_of_stands place (by decide) (by decide))
      (List.forall_mem_cons.mpr ⟨outlines_isFaithful children inside children_ne_value,
        List.forall_mem_append.mpr ⟨alternative.isFaithful other, ?_⟩⟩)
    exact List.forall_mem_singleton.mpr
      (List.forall_mem_singleton.mpr (isFaithful_of_mem_expression condition))
  | .comment p data, exact, _, _, _ => by
    refine Outline.forall_rowsAt (fun _ => ?_) nofun
    exact ⟨fun _ => Stands.place exact, fun same => absurd same (show "Comment" ≠ "Text" by decide),
      fun _ => ⟨data, rfl, (Stands.spells exact).characters⟩⟩
  | .style p attributes raw, exact, _, _, _ => by
    refine Outline.forall_rowsAt (fun _ => isFaithful_of_stands exact.1 (by decide) (by decide)) ?_
    exact List.forall_mem_singleton.mpr (isFaithful_of_mem_attributes exact.2)

theorem Alternative.isFaithful : (alternative : Alternative) → alternative.IsExact text →
    {depth : Nat} → ∀ branch ∈ alternative.branches, ∀ part ∈ branch.nodes,
      ∀ row ∈ Outline.rowsAt depth branch.field part, IsFaithful text row
  | .absent, _, _ => nofun
  | .otherwise p children, exact, _ => by
    refine List.forall_mem_singleton.mpr (List.forall_mem_singleton.mpr ?_)
    refine Outline.forall_rowsAt (fun _ => isFaithful_of_stands exact.1 (by decide) (by decide)) ?_
    exact List.forall_mem_singleton.mpr (outlines_isFaithful children exact.2 children_ne_value)
  | .elseIf p block, exact, _ => by
    refine List.forall_mem_singleton.mpr (List.forall_mem_singleton.mpr ?_)
    refine Outline.forall_rowsAt (fun _ => isFaithful_of_stands exact.1 (by decide) (by decide)) ?_
    exact List.forall_mem_singleton.mpr
      (List.forall_mem_singleton.mpr (block.isFaithful exact.2 children_ne_value))

theorem outlines_isFaithful : (nodes : List Node) → AreExact text nodes → {depth : Nat} →
    {field : String} → field ≠ "value" →
      ∀ part ∈ outlines nodes, ∀ row ∈ Outline.rowsAt depth field part, IsFaithful text row
  | [], _, _, _, _ => nofun
  | first :: more, exact, _, _, child =>
    List.forall_mem_cons.mpr
      ⟨first.isFaithful exact.1 child, outlines_isFaithful more exact.2 child⟩

end

theorem isFaithful_of_mem_region {region : ScriptRegion} (exact : region.IsExact text) :
    ∀ row ∈ region.outline.rows, IsFaithful text row := by
  refine Outline.forall_rowsAt (fun _ => isFaithful_of_stands exact.place (by decide) (by decide)) ?_
  exact List.forall_mem_singleton.mpr (isFaithful_of_mem_attributes exact.attributes)

end Rows

theorem ScriptRegion.isFaithful {text : List Char} {region : ScriptRegion}
    (exact : region.IsExact text) : region.IsFaithful text where
  place := exact.raw.place
  raw := exact.raw.spells.characters
  closing notClosed := by
    rcases exact.body with ⟨closing, letters, stands⟩ | ⟨-, p, stands, same⟩
    · exact ⟨closing, letters, stands.spells.characters⟩
    · rw [same] at notClosed
      exact absurd stands.suffix notClosed

/-- The nodes of a parsed document are faithful to its source, and so is its script. -/
theorem isFaithful_of_parse {source : String} {document : Document}
    (parsed : parse source = .ok document) :
    (∀ row ∈ document.rows, IsFaithful source.toList row) ∧
      ∀ region, document.script = some region → region.IsFaithful source.toList := by
  obtain ⟨children, script⟩ := isExact_of_parse parsed
  refine ⟨List.forall_mem_append.mpr ⟨?_, fun row member => ?_⟩, fun region met =>
    ScriptRegion.isFaithful (script region met)⟩
  · refine Outline.forall_rowsAt (fun _ => ⟨fun placed => ?_, fun same => ?_, fun same => ?_⟩) ?_
    · exact absurd placed (show "Fragment" ∉ placedKinds by decide)
    · exact absurd same (show "Fragment" ≠ "Text" by decide)
    · exact absurd same (show "Fragment" ≠ "Comment" by decide)
    · exact List.forall_mem_singleton.mpr (outlines_isFaithful _ children children_ne_value)
  · obtain ⟨region, met, member⟩ := List.mem_flatMap.mp member
    exact isFaithful_of_mem_region (script region (Option.mem_toList.mp met)) row member

/-- A document with a script, a comment, values with quotes and without, and a block with an else. -/
def leaflet : String :=
  "<Script>\nlet a = 1;\n</Script>\n<!-- b --><p id='c' class=d>e\x7ba\x7d\x7b#if a\x7df\x7b:else\x7dg\x7b/if\x7d</p>"

theorem isFaithful_of_parse_leaflet : ∃ document, parse leaflet = .ok document ∧
    document.rows.map Outline.Row.kind = ["Fragment", "Text", "Comment", "Element", "Attribute", "Text",
      "Attribute", "Text", "Text", "MustacheTag", "Identifier", "IfBlock", "Text", "ElseBlock", "Text",
      "Identifier", "Script"] ∧
    (∀ row ∈ document.rows, IsFaithful leaflet.toList row) ∧
      ∀ region, document.script = some region → region.IsFaithful leaflet.toList := by
  have shown : (parse leaflet).toOption.map (fun document => document.rows.map Outline.Row.kind) =
      some ["Fragment", "Text", "Comment", "Element", "Attribute", "Text", "Attribute", "Text", "Text",
        "MustacheTag", "Identifier", "IfBlock", "Text", "ElseBlock", "Text", "Identifier",
        "Script"] := by
    have chars : leaflet.toList = _ := String.toList_ofList
    rw [parse_of_toList chars]
    decide +kernel
  obtain ⟨document, parsed, shown⟩ := Option.map_eq_some_iff.mp shown
  have parsed := toOption_eq_some.mp parsed
  exact ⟨document, parsed, shown, isFaithful_of_parse parsed⟩

end Dashboard.Markup
