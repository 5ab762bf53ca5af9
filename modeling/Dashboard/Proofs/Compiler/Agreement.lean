import Dashboard.Proofs.Analysis
import Dashboard.Proofs.Compiler.Verdict
import Dashboard.Proofs.Generate.Texts

/-!
The analysis and the component that runs. Under the strict policy both know the same displays and the same
inputs, those inside an input apart, which the module leaves out; and what the analysis reads in an
attribute is what the module holds, arrays and objects with a part that is no literal apart. Values of
inputs go through the text of the module on their way to the component.
-/
namespace Dashboard

open Dashboard.Component (isInputTag reported reported? withImpliedType)
open Dashboard.Generate (Bindings AreUsable mounted? mountOf? paramOf? declaration?)
open Dashboard.Json (relayedEntries find?_relayedEntries)
open Dashboard.Markup (Attribute outerAll)
open Dashboard.Module (Instruction Line)

/-- The attribute of that name is no array and no object with a part that is no literal. -/
def Markup.IsWholeAt (attributes : List Attribute) (name : String) : Prop :=
  ∀ a ∈ attributes, a.name = name → a.isPartial = false

instance (attributes : List Attribute) (name : String) : Decidable (Markup.IsWholeAt attributes name) :=
  inferInstanceAs (Decidable (∀ a ∈ attributes, a.name = name → a.isPartial = false))

theorem Registry.input?_of_lookup {tag : String} {spec : InputSpec} (h : lookup tag = .input spec) :
    input? tag = some spec := by
  unfold lookup at h
  split at h
  · next found =>
    cases h
    exact found
  · split at h
    · cases h
    · split at h <;> cases h

namespace Component

variable {tag : String} {attributes : List Attribute}

/-- Both readings of an attribute come to the same value. -/
theorem attributeValue_eq (usable : AreUsable standardBindings attributes) {a : Attribute}
    (member : a ∈ attributes) (whole : Markup.IsWholeAt attributes a.name) :
    (attributeValue tag a).1 = Meaning.value standardBindings.constants a :=
  (Meaning.value_eq _ ((isDefined_standardBindings a).mp (usable.defined a member))
    (whole a member rfl)).symm

theorem find?_values (usable : AreUsable standardBindings attributes) {name : String}
    (whole : Markup.IsWholeAt attributes name) :
    Dictionary.find? (attributesOf tag attributes).values name =
      Dictionary.find? (Meaning.props standardBindings.constants attributes) name := by
  rw [values_attributesOf usable.plain, Meaning.props]
  refine Dictionary.find?_ofList_congr Attribute.name fun a member same => ?_
  subst same
  exact attributeValue_eq usable member whole

theorem contains_values (usable : AreUsable standardBindings attributes) (name : String) :
    Dictionary.contains (attributesOf tag attributes).values name =
      Dictionary.contains (Meaning.props standardBindings.constants attributes) name := by
  rw [values_attributesOf usable.plain, Meaning.props, Dictionary.contains_ofList,
    Dictionary.contains_ofList, List.any_map, List.any_map]
  rfl

/-- Both readings of all attributes come to the same values, if none is partial. -/
theorem values_eq_props (usable : AreUsable standardBindings attributes)
    (whole : ∀ name, Markup.IsWholeAt attributes name) :
    (attributesOf tag attributes).values = Meaning.props standardBindings.constants attributes := by
  rw [values_attributesOf usable.plain, Meaning.props]
  congr 1
  exact List.map_congr_left fun a member =>
    congrArg (Prod.mk a.name) (attributeValue_eq usable member (whole a.name))

/-- An implied type is added to both readings or to neither. -/
theorem find?_withImpliedType_congr (implied : Option String) {d e : Dictionary Json} {key : String}
    (typed : Dictionary.contains d "type" = Dictionary.contains e "type")
    (same : Dictionary.find? d key = Dictionary.find? e key) :
    Dictionary.find? (withImpliedType implied d) key =
      Dictionary.find? (withImpliedType implied e) key := by
  unfold withImpliedType
  cases implied with
  | none => exact same
  | some kind =>
    dsimp only
    rw [typed]
    split_ifs
    · exact same
    · rw [Dictionary.find?_insert, Dictionary.find?_insert, same]

/-- The components show what is reported of the elements in a role. -/
def Show (role : Role) (components : List Component) (elements : List (String × List Attribute)) :
    Prop :=
  components.map reported = (elements.filterMap reported?).filter fun shown => shown.1 = role

variable {role : Role} {components : List Component} {e : String × List Attribute}
  {more : List (String × List Attribute)}

theorem Show.nil (h : Show role components []) : components = [] := List.map_eq_nil_iff.mp h

theorem Show.skip (h : Show role components (e :: more))
    (other : ∀ shown, reported? e = some shown → shown.1 ≠ role) : Show role components more := by
  unfold Show at h
  cases found : reported? e with
  | none => rwa [List.filterMap_cons_none found] at h
  | some shown =>
    rwa [List.filterMap_cons_some found, List.filter_cons_of_neg (by simpa using other shown found)]
      at h

theorem Show.first {tag : String} {attributes : Dictionary Json}
    (h : Show role components (e :: more)) (found : reported? e = some (role, tag, attributes)) :
    ∃ component rest, components = component :: rest ∧ component.tag = tag ∧
      component.attributes = attributes ∧ Show role rest more := by
  unfold Show at h
  rw [List.filterMap_cons_some found, List.filter_cons_of_pos (by simp)] at h
  obtain ⟨component, rest, rfl, first, others⟩ := List.map_eq_cons_iff.mp h
  cases first
  exact ⟨component, rest, rfl, rfl, rfl, others⟩

end Component

/-! Displays. -/

def isDisplayTag (tag : String) : Bool :=
  match Registry.lookup tag with
  | .display .. => true
  | .input _ | .unknown => false

/-- A display element, the component that the analysis shows for it and the mount in the module. -/
structure IsMounted (e : String × List Attribute) (component : Component)
    (mount : String × Dictionary Json) : Prop where
  tag : component.tag = e.1
  name : ∃ spec implied, Registry.lookup e.1 = .display spec implied ∧ mount.1 = spec.name
  entry : ∀ name, Markup.IsWholeAt e.2 name →
    Dictionary.find? component.attributes name = Dictionary.find? mount.2 name
  attributes : (∀ name, Markup.IsWholeAt e.2 name) → component.attributes = mount.2

/-- Components and mounts of the same elements correspond one to one. -/
theorem forall₂_isMounted {elements : List (String × List Attribute)}
    (usable : ∀ e ∈ elements, AreUsable standardBindings e.2) {components : List Component}
    (shown : Component.Show .display components elements) :
    components.length = (elements.filterMap (mountOf? standardBindings.constants)).length ∧
      List.Forall₂ (fun e pair => IsMounted e pair.1 pair.2) (elements.filter fun e => isDisplayTag e.1)
        (components.zip (elements.filterMap (mountOf? standardBindings.constants))) := by
  induction elements generalizing components with
  | nil =>
    obtain rfl := shown.nil
    exact ⟨rfl, .nil⟩
  | cons e more ih =>
    obtain ⟨here, later⟩ := List.forall_mem_cons.mp usable
    cases known : Registry.lookup e.1 with
    | unknown | input =>
      have skip : mountOf? standardBindings.constants e = none := by rw [mountOf?, known]
      rw [List.filterMap_cons_none skip, List.filter_cons_of_neg (by simp [isDisplayTag, known])]
      exact ih later (shown.skip (by simp [reported?, known]))
    | display spec implied =>
      have display : reported? e =
          some (.display, e.1, withImpliedType implied (Component.attributesOf e.1 e.2).values) := by
        rw [reported?, known]
      have mounted : mountOf? standardBindings.constants e =
          some (spec.name, withImpliedType implied (Meaning.props standardBindings.constants e.2)) := by
        rw [mountOf?, known]
      obtain ⟨component, rest, rfl, tag, attributes, others⟩ := shown.first display
      obtain ⟨lengths, pairs⟩ := ih later others
      rw [List.filterMap_cons_some mounted, List.filter_cons_of_pos (by simp [isDisplayTag, known]),
        List.zip_cons_cons]
      refine ⟨congrArg Nat.succ lengths, .cons ⟨tag, ⟨spec, implied, known, rfl⟩, fun name whole => ?_,
        fun whole => ?_⟩ pairs⟩
      · rw [attributes]
        exact Component.find?_withImpliedType_congr implied (Component.contains_values here "type")
          (Component.find?_values here whole)
      · rw [attributes, Component.values_eq_props here whole]

/-! Inputs. -/

/-- What an input with these attributes begins with. -/
def initially? (valueType : ValueType) (attributes : Dictionary Json) : Option (String × Json) := do
  let name ← Classification.inputName? attributes
  let value ← Dictionary.find? attributes "value"
  some (name, value.coerce valueType)

theorem initially?_congr (valueType : ValueType) {d e : Dictionary Json}
    (name : Dictionary.find? d "name" = Dictionary.find? e "name")
    (value : Dictionary.find? d "value" = Dictionary.find? e "value") :
    initially? valueType d = initially? valueType e := by
  rw [initially?, initially?, Classification.inputName?, Classification.inputName?, name, value]

def ParamDeclaration.beginning? (param : ParamDeclaration) : Option (String × Json) :=
  initially? param.valueType param.props

def Component.beginning? (component : Component) : Option (String × Json) :=
  (Registry.input? component.tag).bind fun spec => initially? spec.generates component.attributes

theorem LoadedModule.initialState_eq (m : LoadedModule) :
    m.initialState = Dictionary.ofList (m.params.filterMap ParamDeclaration.beginning?) := rfl

theorem Component.initialState_eq (components : List Component) :
    initialState components = Dictionary.ofList (components.filterMap beginning?) := rfl

/-- A component with its values as they come out of their text. -/
def Component.relayed (component : Component) : Component :=
  { component with attributes := relayedEntries component.attributes }

/-- An input, as it is declared and as it is shown, begins with one and the same value. -/
theorem beginning?_of_input {e : String × List Attribute} {spec : InputSpec}
    (known : Registry.lookup e.1 = .input spec) (usable : AreUsable standardBindings e.2)
    (name : Markup.IsWholeAt e.2 "name") (value : Markup.IsWholeAt e.2 "value")
    {component : Component} (tag : component.tag = e.1)
    (attributes : component.attributes = (Component.attributesOf e.1 e.2).values) :
    ParamDeclaration.beginning? ⟨spec.name, spec.generates,
        relayedEntries (Meaning.props standardBindings.constants e.2)⟩ =
      component.relayed.beginning? := by
  rw [Component.beginning?, Component.relayed, tag, Registry.input?_of_lookup known, attributes]
  refine initially?_congr _ ?_ ?_
  · rw [find?_relayedEntries, find?_relayedEntries, Component.find?_values usable name]
  · rw [find?_relayedEntries, find?_relayedEntries, Component.find?_values usable value]

/-- The parameters of a module begin with what the components of the same elements begin with. -/
theorem initialState_of_elements {elements : List (String × List Attribute)}
    (usable : ∀ e ∈ elements, AreUsable standardBindings e.2)
    (whole : ∀ e ∈ elements, isInputTag e.1 = true →
      Markup.IsWholeAt e.2 "name" ∧ Markup.IsWholeAt e.2 "value")
    {components : List Component} (shown : Component.Show .input components elements)
    {m : LoadedModule} (params : m.params =
      (elements.filterMap (paramOf? standardBindings.constants)).filterMap fun i =>
        declaration? i.relayed) :
    m.initialState = Component.initialState (components.map Component.relayed) := by
  rw [LoadedModule.initialState_eq, Component.initialState_eq, params]
  congr 1
  clear params m
  induction elements generalizing components with
  | nil =>
    obtain rfl := shown.nil
    rfl
  | cons e more ih =>
    obtain ⟨here, usable⟩ := List.forall_mem_cons.mp usable
    obtain ⟨wholeHere, whole⟩ := List.forall_mem_cons.mp whole
    cases known : Registry.lookup e.1 with
    | unknown | display =>
      rw [List.filterMap_cons_none (by rw [paramOf?, known])]
      exact ih usable whole (shown.skip (by simp [reported?, known]))
    | input spec =>
      have input : reported? e = some (.input, e.1, (Component.attributesOf e.1 e.2).values) := by
        rw [reported?, known]
      have param : paramOf? standardBindings.constants e = some (.param spec.name spec.generates
          (Meaning.props standardBindings.constants e.2)) := by
        rw [paramOf?, known]
      obtain ⟨component, rest, rfl, tag, attributes, others⟩ := shown.first input
      obtain ⟨name, value⟩ := wholeHere (by rw [isInputTag, known])
      rw [List.filterMap_cons_some param]
      show List.filterMap ParamDeclaration.beginning? (⟨spec.name, spec.generates, relayedEntries _⟩ :: _) =
        List.filterMap Component.beginning? (component.relayed :: rest.map Component.relayed)
      rw [List.filterMap_cons, List.filterMap_cons,
        beginning?_of_input known here name value tag attributes, ih usable whole others]

/-- What a module mounts, in order. -/
def GeneratedModule.mounts (g : GeneratedModule) : List (String × Dictionary Json) :=
  g.lines.filterMap fun line => mounted? line.instruction

namespace Compiler

/-- Under the strict policy the displays that the analysis shows outside of inputs are those that the module
mounts, with the same attributes except where one is partial; and the component begins with the values of
the inputs that the analysis shows outside of inputs, as they are read back. -/
theorem agrees_of_compile {compiler : Compiler} (strict : compiler.policy = .strict)
    {source filename : String} {compiled : CompiledModule}
    (h : (compiler.compile source filename).outcome = .ok compiled) :
    ∃ text g processed, preprocess source = .ok text ∧ generate text filename = .ok g ∧
      compiled.code = g.code ∧ Markup.parse text = .ok processed ∧
      (analyze source).outerDisplays.length = g.mounts.length ∧
      List.Forall₂ (fun e pair => IsMounted e pair.1 pair.2)
        ((outerAll processed.children).filter fun e => isDisplayTag e.1)
        ((analyze source).outerDisplays.zip g.mounts) ∧
      ((∀ e ∈ outerAll processed.children, isInputTag e.1 = true →
          Markup.IsWholeAt e.2 "name" ∧ Markup.IsWholeAt e.2 "value") →
        compiled.component.initialState =
            Component.initialState ((analyze source).outerInputs.map Component.relayed) ∧
          ((∀ component ∈ (analyze source).inputs,
              (analyze source).isNested component = false ∧ component.relayed = component) →
            compiled.component.initialState = (analyze source).state)) := by
  obtain ⟨document, text, children, out, cs, clean, prepared, isGenerated, generated, code, component⟩ :=
    isPrepared_of_compile strict h
  have analysis := clean.analyze_eq
  obtain ⟨entries, shows⟩ : ∃ entries, (analyze source).Shows entries (outerAll children) :=
    Analysis.exists_shows prepared.classified (by rw [analysis]) (by rw [analysis])
  have usable : ∀ e ∈ outerAll children, AreUsable standardBindings e.2 :=
    fun e member => (isGenerated.generates.usable e member).2
  have mounts : GeneratedModule.mounts ⟨Generate.lines filename standardBindings out,
      standardBindings.warnings ++ out.warnings⟩ =
        (outerAll children).filterMap (mountOf? standardBindings.constants) := by
    rw [← isGenerated.mounted filename, Generate.instructions, List.filterMap_map]
    rfl
  obtain ⟨lengths, pairs⟩ := forall₂_isMounted usable shows.outerDisplays_eq
  rw [← mounts] at lengths pairs
  refine ⟨text, _, _, prepared.prepared, generated, code, prepared.parsed, lengths, pairs,
    fun whole => ?_⟩
  have params : compiled.component.params = ((outerAll children).filterMap
      (paramOf? standardBindings.constants)).filterMap fun i => declaration? i.relayed := by
    rw [component, Generate.IsGenerated.params_loaded, ← isGenerated.generates.params_eq]
  have begins := initialState_of_elements usable whole shows.outerInputs_eq params
  refine ⟨begins, fun plain => ?_⟩
  have all : (analyze source).outerInputs = (analyze source).inputs :=
    List.filter_eq_self.mpr fun input member => by rw [(plain input member).1]; rfl
  have same : (analyze source).inputs.map Component.relayed = (analyze source).inputs :=
    (List.map_congr_left fun input member => (plain input member).2).trans (List.map_id _)
  have state : (analyze source).state = Component.initialState (analyze source).inputs := by
    rw [analysis]
  rw [begins, all, same, state]

/-- A switch inside a switch, and a chart that shows the outer one. -/
def nested : String :=
  "<Toggle name=\"a\" value=\"true\"><Toggle name=\"b\" value=\"true\" /></Toggle>" ++
    "<BarChart title=\"\x7binputs.a\x7d\" />"

/-- The switches with the standard imports. -/
def nestedText : String :=
  "<script>\nimport Chart from \"Chart\";\nimport Filter from \"Filter\";\nimport Grid from \"Grid\";\n</script>\n<Toggle name=\"a\" value=\"true\"><Toggle name=\"b\" value=\"true\" /></Toggle><BarChart title=\"\x7binputs.a\x7d\" />"

/-- What the switches are generated into. -/
def nestedModule : String :=
  "// dashc module\nmodule \"Nested.dash\"\nimport Chart from \"Chart\"\nimport Filter from \"Filter\"\nimport Grid from \"Grid\"\nparam Toggle boolean \x7b\"name\":\"a\",\"value\":\"true\"\x7d\nmount Chart \x7b\"title\":\"\x7binputs.a\x7d\",\"type\":\"bar\"\x7d\n"

set_option maxRecDepth 4000 in
theorem preprocess_nested : (preprocess nested).toOption = some nestedText := by
  have chars : nested.toList = _ :=
    String.toList_append.trans (congrArg₂ (· ++ ·) String.toList_ofList String.toList_ofList)
  have text : nestedText.toList = _ := String.toList_ofList
  refine toOption_eq_some.mpr (Markup.preprocess_of_toList (Markup.importing_eq.trans String.toList_ofList) ?_)
  rw [Markup.parse_of_toList chars, chars, text]
  decide +kernel

set_option maxRecDepth 4000 in
theorem exists_compiled_nested : ∃ compiled, (compile {} nested "Nested.dash").outcome = .ok compiled ∧
    Dictionary.contains compiled.component.initialState "b" = false := by
  have chars : nested.toList = _ :=
    String.toList_append.trans (congrArg₂ (· ++ ·) String.toList_ofList String.toList_ofList)
  have text : nestedText.toList = _ := String.toList_ofList
  have code : nestedModule.toList = _ := String.toList_ofList
  refine @exists_compiled_of_stages {} nested "Nested.dash" Bool nestedText nestedModule
    (fun m => Dictionary.contains m.initialState "b") false ?_ preprocess_nested ?_ ?_
  · rw [gate, Prefilter.scan, Markup.parse_of_toList chars, chars]
    decide +kernel
  · exact code_of_toList text code (by decide +kernel)
  · rw [Sandbox.load, code]
    decide +kernel

set_option maxRecDepth 4000 in
/-- The attributes of both switches and of the chart are whole. -/
theorem agrees_of_compile_nested : ∃ compiled text g processed,
    (compile {} nested "Nested.dash").outcome = .ok compiled ∧ preprocess nested = .ok text ∧
      generate text "Nested.dash" = .ok g ∧ compiled.code = g.code ∧ Markup.parse text = .ok processed ∧
      (analyze nested).outerDisplays.length = g.mounts.length ∧
      List.Forall₂ (fun e pair => IsMounted e pair.1 pair.2)
        ((outerAll processed.children).filter fun e => isDisplayTag e.1)
        ((analyze nested).outerDisplays.zip g.mounts) ∧
      compiled.component.initialState =
        Component.initialState ((analyze nested).outerInputs.map Component.relayed) := by
  obtain ⟨compiled, succeeded, -⟩ := exists_compiled_nested
  obtain ⟨text, g, processed, prepared, generated, code, parsed, lengths, pairs, begins⟩ :=
    agrees_of_compile rfl succeeded
  have whole : ((preprocess nested).toOption.bind fun text => (Markup.parse text).toOption).map
      (fun document => (outerAll document.children).all fun e => decide (isInputTag e.1 = true →
        Markup.IsWholeAt e.2 "name" ∧ Markup.IsWholeAt e.2 "value")) = some true := by
    have chars : nestedText.toList = _ := String.toList_ofList
    rw [preprocess_nested, Option.bind_some, Markup.parse_of_toList chars]
    decide +kernel
  rw [prepared, Except.toOption, Option.bind_some, parsed, Except.toOption, Option.map_some] at whole
  refine ⟨compiled, text, g, processed, succeeded, prepared, generated, code, parsed, lengths, pairs,
    (begins fun e member => ?_).1⟩
  exact of_decide_eq_true (List.all_eq_true.mp (Option.some.inj whole) e member)

/-- The inner switch has a value in the analysis and none in the component, which leaves it out. -/
theorem initialState_nested_ne : ∃ compiled,
    (compile {} nested "Nested.dash").outcome = .ok compiled ∧
      compiled.component.initialState ≠ (analyze nested).state := by
  obtain ⟨compiled, succeeded, absent⟩ := exists_compiled_nested
  have present : Dictionary.contains (analyze nested).state "b" = true := by
    have chars : nested.toList = _ :=
      String.toList_append.trans (congrArg₂ (· ++ ·) String.toList_ofList String.toList_ofList)
    rw [analyze, Prefilter.scan, Markup.parse_of_toList chars, chars]
    decide +kernel
  refine ⟨compiled, succeeded, fun same => ?_⟩
  rw [same, present] at absent
  cases absent

end Compiler

end Dashboard
