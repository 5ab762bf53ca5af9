import Dashboard.Proofs.Component.Reducing
import Dashboard.Proofs.Generate.Elements

/-!
The texts in the props of a module. Each of them stands in the value of an attribute, outside of
inputs in the case of a display, or is the type that a chart alias implies; what holds of all these
holds of every text that is mounted, and what is rendered are these texts resolved.
-/
namespace Dashboard

open Dashboard.Json (entryTexts mem_entryTexts)
open Dashboard.Markup (Attribute Node outerAll)
open Dashboard.Placeholder (HasNoBrace)

theorem Registry.hasNoBrace_impliedType {tag kind : String} {spec : DisplaySpec}
    (h : lookup tag = .display spec (some kind)) : HasNoBrace kind.toList := by
  have plain : ∀ entry ∈ chartAliases, HasNoBrace entry.2.toList := by
    unfold HasNoBrace
    decide
  unfold lookup at h
  split at h
  · cases h
  · split at h
    · cases h
    · split at h
      · next implied found =>
        cases h
        exact plain _ (Dictionary.mem_of_find?_eq_some found)
      · cases h

/-- An implied type replaces nothing that is written. -/
theorem Component.find?_withImpliedType (implied : Option String) {attributes : Dictionary Json}
    {key : String} {value : Json} (h : Dictionary.find? attributes key = some value) :
    Dictionary.find? (withImpliedType implied attributes) key = some value := by
  unfold withImpliedType
  cases implied with
  | none => exact h
  | some kind =>
    dsimp only
    split_ifs with written
    · exact h
    · rw [Dictionary.find?_insert]
      split_ifs with same
      · rw [Dictionary.contains, ← same, h] at written
        exact absurd rfl written
      · exact h

/-- The props that an instruction carries. -/
def Module.Instruction.props? : Module.Instruction → Option (Dictionary Json)
  | .param _ _ props | .mount _ props | .openWidget _ props => some props
  | _ => none

/-- Something that holds of the texts of some values, and of texts without braces. -/
structure Covers (P : String → Prop) (constants : Dictionary Json)
    (elements : List (String × List Attribute)) : Prop where
  plain : ∀ text, HasNoBrace text.toList → P text
  values : ∀ e ∈ elements, ∀ a ∈ e.2, ∀ text ∈ (Meaning.value constants a).texts, P text

namespace Covers

variable {P : String → Prop} {constants : Dictionary Json}
  {elements : List (String × List Attribute)}

theorem mono (h : Covers P constants elements) {others : List (String × List Attribute)}
    (fewer : ∀ e ∈ others, e ∈ elements) : Covers P constants others :=
  ⟨h.plain, fun e member => h.values e (fewer e member)⟩

theorem imp (h : Covers P constants elements) {Q : String → Prop} (weaker : ∀ text, P text → Q text) :
    Covers Q constants elements :=
  ⟨fun text plain => weaker text (h.plain text plain),
    fun e element a written text inside => weaker text (h.values e element a written text inside)⟩

theorem props (h : Covers P constants elements) {e : String × List Attribute} (member : e ∈ elements) :
    ∀ text ∈ entryTexts (Meaning.props constants e.2), P text := by
  intro text inside
  obtain ⟨entry, found, deeper⟩ := mem_entryTexts.mp inside
  obtain ⟨a, written, rfl⟩ := List.mem_map.mp (Dictionary.mem_ofList found)
  exact h.values e member a written text deeper

/-- The texts in the props of a display. -/
theorem display (h : Covers P constants elements) {e : String × List Attribute} (member : e ∈ elements)
    {spec : DisplaySpec} {implied : Option String}
    (known : Registry.lookup e.1 = .display spec implied) :
    ∀ text ∈ entryTexts (Component.withImpliedType implied (Meaning.props constants e.2)), P text := by
  unfold Component.withImpliedType
  cases implied with
  | none => exact h.props member
  | some kind =>
    dsimp only
    split_ifs
    · exact h.props member
    · intro text inside
      obtain ⟨entry, found, deeper⟩ := mem_entryTexts.mp inside
      rcases Dictionary.mem_insert found with rfl | written
      · obtain rfl : text = kind := by simpa [Json.texts] using deeper
        exact h.plain _ (Registry.hasNoBrace_impliedType known)
      · exact h.props member text (mem_entryTexts.mpr ⟨entry, written, deeper⟩)

end Covers

/-- A text of a constant that is the value of an attribute of one of these elements. -/
def IsInlined (constants : Dictionary Json) (elements : List (String × List Attribute))
    (text : String) : Prop :=
  ∃ e ∈ elements, ∃ a ∈ e.2, ∃ name value, a.bareName? = some name ∧
    Dictionary.find? constants name = some value ∧ text ∈ value.texts

/-- In attributes that the classification has nothing against, validation lets all texts pass but those of
constants. -/
theorem covers_of_faultless (constants : Dictionary Json) {elements : List (String × List Attribute)}
    (faultless : ∀ e ∈ elements, ∀ a ∈ e.2, Component.IsFaultless e.1 a) :
    Covers (fun text => Placeholder.violations text = [] ∨ IsInlined constants elements text) constants
      elements := by
  refine ⟨fun text plain => Or.inl (Placeholder.violations_of_hasNoBrace plain),
    fun e element a written text inside => ?_⟩
  cases named : a.bareName? with
  | none =>
    exact Or.inl (Meaning.violations_value constants named (faultless e element a written) text inside)
  | some name =>
    rw [Meaning.value_of_bareName? constants named] at inside
    cases found : Dictionary.find? constants name with
    | none =>
      rw [found] at inside
      cases inside
    | some value =>
      rw [found] at inside
      exact Or.inr ⟨e, element, a, written, name, value, named, found, inside⟩

namespace Generate

open Dashboard.Module (Instruction Line)

variable {P : String → Prop} {b : Bindings}

/-- Content carries the props of what it mounts. -/
theorem Generates.props?_eq {nodes : List Node} {ps is : List Instruction} {cs : List Content}
    (h : Generates b nodes ps is cs) : ∀ i ∈ is, i.props? = (mounted? i).map Prod.snd := by
  induction h with
  | nil => simp
  | input _ _ _ ih | blank _ _ ih | comment _ ih => exact ih
  | mount _ _ _ _ _ ih | text _ _ ih | shown _ _ ih | literal _ _ _ ih =>
    exact List.forall_mem_cons.mpr ⟨rfl, ih⟩
  | widget _ _ _ _ _ _ ihInside ihRest | choice _ _ _ ihInside ihRest =>
    exact List.forall_mem_cons.mpr ⟨rfl, List.forall_mem_append.mpr
      ⟨ihInside, List.forall_mem_cons.mpr ⟨rfl, ihRest⟩⟩⟩
  | choiceElse _ _ _ _ _ ihInside ihOther ihRest =>
    exact List.forall_mem_cons.mpr ⟨rfl, List.forall_mem_append.mpr
      ⟨ihInside, List.forall_mem_cons.mpr ⟨rfl, List.forall_mem_append.mpr
        ⟨ihOther, List.forall_mem_cons.mpr ⟨rfl, ihRest⟩⟩⟩⟩⟩

/-- The texts in what nodes are generated into. -/
theorem Generates.texts {nodes : List Node} {ps is : List Instruction} {cs : List Content}
    (h : Generates b nodes ps is cs) (covers : Covers P b.constants (outerAll nodes)) :
    ∀ i ∈ ps ++ is, ∀ props, i.props? = some props → ∀ text ∈ entryTexts props, P text := by
  intro i member props carried
  rcases List.mem_append.mp member with declared | content
  · rw [h.params_eq] at declared
    obtain ⟨e, element, made⟩ := List.mem_filterMap.mp declared
    unfold paramOf? at made
    split at made
    · cases made
      cases carried
      exact covers.props element
    · cases made
    · cases made
  · rw [h.props?_eq i content] at carried
    obtain ⟨⟨binding, _⟩, shown, rfl⟩ := Option.map_eq_some_iff.mp carried
    have mounted := List.mem_filterMap.mpr ⟨i, content, shown⟩
    rw [h.mounted] at mounted
    obtain ⟨e, element, made⟩ := List.mem_filterMap.mp mounted
    unfold mountOf? at made
    split at made
    · next known =>
      cases made
      exact covers.display element known
    · cases made
    · cases made

/-- The attributes of every element outside of inputs are props of an instruction. -/
theorem Generates.carried {nodes : List Node} {ps is : List Instruction} {cs : List Content}
    (h : Generates b nodes ps is cs) {e : String × List Attribute} (element : e ∈ outerAll nodes)
    {a : Attribute} (written : a ∈ e.2) : ∃ i ∈ ps ++ is, ∃ props, i.props? = some props ∧
      Dictionary.find? props a.name = some (Meaning.value b.constants a) := by
  obtain ⟨known, usable⟩ := h.usable e element
  have found : Dictionary.find? (Meaning.props b.constants e.2) a.name =
      some (Meaning.value b.constants a) :=
    Dictionary.find?_ofList (by rw [List.map_map]; exact usable.distinct) (List.mem_map_of_mem written)
  cases kind : Registry.lookup e.1 with
  | unknown => exact absurd kind known
  | input spec =>
    have declared : .param spec.name spec.generates (Meaning.props b.constants e.2) ∈ ps := by
      rw [h.params_eq]
      exact List.mem_filterMap.mpr ⟨e, element, by rw [paramOf?, kind]⟩
    exact ⟨_, List.mem_append_left _ declared, _, rfl, found⟩
  | display spec implied =>
    have mounted := List.mem_filterMap.mpr
      ⟨e, element, show mountOf? b.constants e = some _ by rw [mountOf?, kind]⟩
    rw [← h.mounted] at mounted
    obtain ⟨i, content, shown⟩ := List.mem_filterMap.mp mounted
    refine ⟨i, List.mem_append_right _ content, _, by rw [h.props?_eq i content, shown]; rfl, ?_⟩
    exact Component.find?_withImpliedType implied found

/-- The texts in the props of a module. -/
theorem IsGenerated.texts {document : Markup.Document} {out : Output} {cs : List Content}
    (h : IsGenerated document b out cs) (covers : Covers P b.constants (outerAll document.children))
    (filename : String) : ∀ i ∈ instructions filename b out, ∀ props, i.props? = some props →
      ∀ text ∈ entryTexts props, P text := by
  intro i member props carried
  refine h.generates.texts covers i ?_ props carried
  simp only [instructions_eq, declarations, List.mem_append, List.mem_cons, List.mem_map] at member
  rcases member with (((rfl | ⟨_, _, rfl⟩) | declared) | ⟨_, _, rfl⟩) | content
  · cases carried
  · cases carried
  · exact List.mem_append_left _ declared
  · cases carried
  · exact List.mem_append_right _ (List.mem_map.mpr content)

end Generate

namespace RenderNode

mutual

/-- The texts in the props of all widgets of a tree. -/
def propTexts : RenderNode → List String
  | .widget _ props children => entryTexts props ++ propTextsAll children
  | .text _ => []

def propTextsAll : List RenderNode → List String
  | [] => []
  | first :: more => first.propTexts ++ propTextsAll more

end

mutual

theorem propTexts_relayed (node : RenderNode) : node.relayed.propTexts = node.propTexts := by
  match node with
  | .widget name props children =>
    rw [relayed, propTexts, propTexts, Json.entryTexts_relayed, propTextsAll_relayed children]
  | .text data => rfl

theorem propTextsAll_relayed (nodes : List RenderNode) :
    propTextsAll (relayedAll nodes) = propTextsAll nodes := by
  match nodes with
  | [] => rfl
  | first :: more =>
    rw [relayedAll, propTextsAll, propTextsAll, propTexts_relayed first, propTextsAll_relayed more]

end

theorem propTextsAll_append (front back : List RenderNode) :
    propTextsAll (front ++ back) = propTextsAll front ++ propTextsAll back := by
  induction front with
  | nil => rfl
  | cons first more ih => rw [List.cons_append, propTextsAll, ih, propTextsAll, List.append_assoc]

end RenderNode

namespace Meaning

open Dashboard.RenderNode (propTextsAll propTextsAll_append)

variable {P : String → Prop} {constants : Dictionary Json} {state : InputState}

/-- A text that comes of resolving one of which something holds. -/
def IsResolved (P : String → Prop) (state : InputState) (text : String) : Prop :=
  ∃ original, P original ∧ text = Placeholder.resolve original state

mutual

/-- The texts in the props of what a document shows come of those in its attributes. -/
theorem resolved_evaluate (n : Node) (covers : Covers P constants n.outer) :
    ∀ text ∈ propTextsAll (evaluate constants state n), IsResolved P state text := by
  match n with
  | .element position tag attributes children =>
    rw [evaluate]
    cases known : Registry.lookup tag with
    | input | unknown => simp [propTextsAll]
    | display spec implied =>
      rw [Node.outer, known] at covers
      dsimp only
      split_ifs
      · simp [propTextsAll]
      · have inside := covers.mono fun e => List.mem_cons_of_mem _
        rw [propTextsAll, propTextsAll, List.append_nil, RenderNode.propTexts]
        refine List.forall_mem_append.mpr ⟨?_, resolved_evaluateAll children inside⟩
        rw [LoadedModule.entryTexts_resolveEntries]
        intro text member
        obtain ⟨original, found, rfl⟩ := List.mem_map.mp member
        exact ⟨original, covers.display List.mem_cons_self known original found, rfl⟩
  | .text position data =>
    rw [evaluate]
    split_ifs <;> simp [propTextsAll, RenderNode.propTexts]
  | .mustache tag =>
    rw [evaluate]
    split <;> simp [propTextsAll, RenderNode.propTexts]
  | .ifBlock position raw condition children alternative =>
    rw [evaluate]
    split_ifs
    · exact resolved_evaluateAll children (covers.mono fun e => List.mem_append_left _)
    · exact resolved_evaluateAlternative alternative (covers.mono fun e => List.mem_append_right _)
  | .comment .. | .style .. => simp [evaluate, propTextsAll]

theorem resolved_evaluateAll (ns : List Node) (covers : Covers P constants (outerAll ns)) :
    ∀ text ∈ propTextsAll (evaluateAll constants state ns), IsResolved P state text := by
  match ns with
  | [] => simp [evaluateAll, propTextsAll]
  | first :: more =>
    rw [evaluateAll, propTextsAll_append]
    exact List.forall_mem_append.mpr
      ⟨resolved_evaluate first (covers.mono fun e => List.mem_append_left _),
        resolved_evaluateAll more (covers.mono fun e => List.mem_append_right _)⟩

theorem resolved_evaluateAlternative (alternative : Markup.Alternative)
    (covers : Covers P constants alternative.outer) :
    ∀ text ∈ propTextsAll (evaluateAlternative constants state alternative),
      IsResolved P state text := by
  match alternative with
  | .absent => simp [evaluateAlternative, propTextsAll]
  | .otherwise _ children => exact resolved_evaluateAll children covers
  | .elseIf _ block => exact resolved_evaluate block covers

end

end Meaning

end Dashboard
