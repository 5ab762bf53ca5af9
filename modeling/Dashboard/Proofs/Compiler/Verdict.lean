import Dashboard.Proofs.Compiler.Strict
import Dashboard.Proofs.Component.Reducing

/-!
The analysis foretells the compilation. Where it finds nothing wrong, a document fails to compile for
two reasons only: attributes that cannot be made into props, and a module beyond the limits.
-/
namespace Dashboard

open Dashboard.Generate (AreUsable IsDefined IsGenerated Output instructions)
open Dashboard.Markup (Attribute Node outerAll unplacedElement)
open Dashboard.Module (Line nesting)

namespace Markup

/-- Attributes with one name twice, or with a bare name for a value. -/
def AreRefused (attributes : List Attribute) : Prop :=
  ¬ (attributes.map Attribute.name).Nodup ∨ ∃ a ∈ attributes, a.bareName?.isSome = true

instance (attributes : List Attribute) : Decidable (AreRefused attributes) :=
  inferInstanceAs (Decidable (_ ∨ _))

theorem Attribute.bareName?_unplaced (a : Attribute) : a.unplaced.bareName? = a.bareName? := by
  obtain ⟨position, name, value⟩ := a
  cases value with
  | bare | text => rfl
  | mustache tag => exact Script.Node.bareName?_unplaced tag.expression

theorem areRefused_unplaced (attributes : List Attribute) :
    AreRefused (attributes.map Attribute.unplaced) ↔ AreRefused attributes := by
  have names : (attributes.map Attribute.unplaced).map Attribute.name =
      attributes.map Attribute.name := by
    rw [List.map_map]
    rfl
  simp [AreRefused, names, Attribute.bareName?_unplaced]

/-- Elements that agree up to places are refused alike. -/
theorem forall_areRefused {elements others : List (String × List Attribute)}
    (same : elements.map unplacedElement = others.map unplacedElement) :
    (∀ e ∈ elements, ¬ AreRefused e.2) ↔ ∀ e ∈ others, ¬ AreRefused e.2 := by
  have unplaced (all : List (String × List Attribute)) :
      (∀ e ∈ all.map unplacedElement, ¬ AreRefused e.2) ↔ ∀ e ∈ all, ¬ AreRefused e.2 := by
    rw [List.forall_mem_map]
    exact forall₂_congr fun e _ => not_congr (areRefused_unplaced e.2)
  rw [← unplaced elements, same, unplaced others]

end Markup

open Dashboard.Markup (AreRefused)

/-- How deep the blocks of a module nest. -/
def GeneratedModule.nesting (g : GeneratedModule) : Nat := Module.nesting (g.lines.map Line.instruction)

/-- A module that has too many instructions, or nests too deep. -/
def GeneratedModule.IsBeyond (limits : SandboxLimits) (g : GeneratedModule) : Prop :=
  limits.maxInstructions < g.lines.length ∨ limits.maxDepth < g.nesting

instance (limits : SandboxLimits) (g : GeneratedModule) : Decidable (g.IsBeyond limits) :=
  inferInstanceAs (Decidable (_ ∨ _))

/-- Behind the standard imports no name is declared. -/
theorem isDefined_standardBindings (a : Attribute) : IsDefined standardBindings a ↔ a.bareName? = none := by
  unfold IsDefined Attribute.bareName?
  cases a.value with
  | bare | text => simp
  | mustache t =>
    constructor
    · intro h
      refine Option.eq_none_iff_forall_ne_some.mpr fun name bare => ?_
      cases h t name rfl bare
    · rintro absent _ name ⟨⟩ bare
      cases absent.symm.trans bare

/-- Behind the standard imports attributes are usable unless refused. -/
theorem areUsable_standardBindings {tag : String} {attributes : List Attribute}
    (faultless : ∀ a ∈ attributes, Component.IsFaultless tag a) :
    AreUsable standardBindings attributes ↔ ¬ AreRefused attributes := by
  rw [AreRefused, not_or, not_not]
  constructor
  · rintro ⟨-, known, distinct⟩
    refine ⟨distinct, ?_⟩
    rintro ⟨a, member, bare⟩
    rw [(isDefined_standardBindings a).mp (known a member)] at bare
    cases bare
  · rintro ⟨distinct, known⟩
    refine ⟨fun a member => (faultless a member).1,
      fun a member => (isDefined_standardBindings a).mpr ?_, distinct⟩
    by_contra bare
    exact known ⟨a, member, Option.isSome_iff_ne_none.mpr bare⟩

namespace IsPrepared

variable {source text filename : String} {document : Markup.Document} {children : List Node}
  {out : Output} {limits : SandboxLimits}

/-- The nodes can be generated unless an element outside of inputs is refused. -/
theorem nodes_isOk (h : IsPrepared source document text children)
    (clean : document.classify.faults = []) :
    (∃ out, Generate.nodes standardBindings 0 children = .ok out) ↔
      ∀ e ∈ outerAll document.children, ¬ AreRefused e.2 := by
  have faultless := Component.faultless_outerAll children (h.passAll clean)
  rw [← Markup.forall_areRefused h.outer]
  constructor
  · rintro ⟨out, built⟩ e member
    obtain ⟨cs, generated⟩ := h.isGenerated built
    exact (areUsable_standardBindings (faultless e member)).mp
      (generated.generates.usable e member).2
  · intro usable
    exact Generate.exists_nodes rfl 0 maxNesting children (h.passAll clean) h.sound
      fun e member => (areUsable_standardBindings (faultless e member)).mpr (usable e member)

/-- Generated lines are loaded exactly when they keep to the limits. -/
theorem load_isOk (h : IsPrepared source document text children)
    (clean : document.classify.faults = [])
    (built : Generate.nodes standardBindings 0 children = .ok out) :
    (∃ m, Sandbox.load { limits := limits }
        (Module.text (Generate.lines filename standardBindings out)) = .ok m) ↔
      (instructions filename standardBindings out).length ≤ limits.maxInstructions ∧
        nesting (instructions filename standardBindings out) ≤ limits.maxDepth := by
  obtain ⟨cs, generated⟩ := h.isGenerated built
  have named := generated.refersByName (h.passAll clean) filename
  simp only [generated.load_eq_ok, named, true_and]
  constructor
  · rintro ⟨m, few, shallow, -⟩
    exact ⟨few, shallow⟩
  · rintro ⟨few, shallow⟩
    exact ⟨_, few, shallow, rfl⟩

/-- The outcome of a compilation behind the strict gate, stage by stage. -/
theorem outcome_eq (h : IsPrepared source document text children)
    (clean : IsClean .strict source document) :
    (Compiler.compile { policy := .strict, limits := limits } source filename).outcome =
      match generate text filename with
      | .error f => .error f
      | .ok g => ((Sandbox.load { limits := limits } g.code).mapError Failure.ofLoadError).map
          fun component => ⟨g.code, component⟩ := by
  have passed : (gate ScriptPolicy.strict source).violations = [] :=
    gate_eq_nil.mpr ⟨document, clean⟩
  rw [Compiler.outcome_of_gate passed, Compiler.build, h.prepared]
  simp only [bind, Except.bind, mapError_ok]
  cases generate text filename with
  | error f => rfl
  | ok g =>
    simp only [Compiler.sandbox]
    cases Sandbox.load { limits := limits } g.code <;> rfl

/-- A document with a refused element does not compile. -/
theorem outcome_of_refused (h : IsPrepared source document text children)
    (clean : IsClean .strict source document)
    (refused : ¬ ∀ e ∈ outerAll document.children, ¬ AreRefused e.2) :
    ∃ message, (Compiler.compile { policy := .strict, limits := limits } source filename).outcome =
      .error (.compile message) := by
  rw [h.outcome_eq clean, h.generate_eq]
  cases built : Generate.nodes standardBindings 0 children with
  | ok out => exact absurd ((h.nodes_isOk clean.components).mp ⟨out, built⟩) refused
  | error e => exact ⟨e.message, rfl⟩

/-- A document without refused elements is generated, and compiles within the limits. -/
theorem outcome_of_usable (h : IsPrepared source document text children)
    (clean : IsClean .strict source document)
    (usable : ∀ e ∈ outerAll document.children, ¬ AreRefused e.2) :
    ∃ g, generate text filename = .ok g ∧ g.nesting ≤ maxNesting ∧
      (g.IsBeyond limits → ∃ message, (Compiler.compile { policy := .strict, limits := limits } source
        filename).outcome = .error (.runtimeLoad message)) ∧
      (¬ g.IsBeyond limits → ∃ compiled, (Compiler.compile { policy := .strict, limits := limits }
        source filename).outcome = .ok compiled) := by
  obtain ⟨out, built⟩ := (h.nodes_isOk clean.components).mpr usable
  obtain ⟨cs, generated⟩ := h.isGenerated built
  have whole : generate text filename = .ok ⟨Generate.lines filename standardBindings out,
      standardBindings.warnings ++ out.warnings⟩ := by
    rw [h.generate_eq, built]
    rfl
  have outcome : (Compiler.compile { policy := .strict, limits := limits } source filename).outcome =
      ((Sandbox.load { limits := limits } (Module.text (Generate.lines filename standardBindings out))
        ).mapError Failure.ofLoadError).map fun component =>
          ⟨Module.text (Generate.lines filename standardBindings out), component⟩ := by
    rw [h.outcome_eq clean, whole]
    rfl
  refine ⟨_, whole, generated.nesting_le filename, ?_⟩
  have loads := @load_isOk _ _ filename _ _ _ limits h clean.components built
  have count : (instructions filename standardBindings out).length =
      (Generate.lines filename standardBindings out).length := List.length_map _
  rw [count] at loads
  rw [outcome]
  constructor
  · intro beyond
    cases loaded : Sandbox.load { limits := limits }
        (Module.text (Generate.lines filename standardBindings out)) with
    | ok m =>
      obtain ⟨few, shallow⟩ := loads.mp ⟨m, loaded⟩
      exact absurd beyond (not_or.mpr ⟨not_lt.mpr few, not_lt.mpr shallow⟩)
    | error e => exact ⟨e.message, rfl⟩
  · intro within
    obtain ⟨few, shallow⟩ := not_or.mp within
    obtain ⟨m, loaded⟩ := loads.mpr ⟨not_lt.mp few, not_lt.mp shallow⟩
    rw [loaded]
    exact ⟨_, rfl⟩

end IsPrepared

/-- A document compiles that the gate lets pass, that refuses no element and whose module keeps to the
limits. -/
theorem exists_compiled {source filename : String} {limits : SandboxLimits}
    (passed : (gate .strict source).violations = [])
    (usable : (Markup.parse source).toOption.all fun document =>
      (outerAll document.children).all fun e => !decide (AreRefused e.2))
    (within : ((preprocess source).toOption.bind fun text =>
      (generate text filename).toOption).all fun g => !decide (g.IsBeyond limits)) :
    ∃ compiled, (Compiler.compile { policy := .strict, limits := limits } source filename).outcome =
      .ok compiled := by
  obtain ⟨document, clean⟩ := gate_eq_nil.mp passed
  obtain ⟨text, children, prepared⟩ := exists_isPrepared clean.parsed clean.scriptless
  have elements : ∀ e ∈ outerAll document.children, ¬ AreRefused e.2 := by
    simpa [clean.parsed, Except.toOption] using usable
  obtain ⟨g, generated, -, -, succeeds⟩ :=
    @IsPrepared.outcome_of_usable _ _ filename _ _ limits prepared clean elements
  refine succeeds ?_
  simpa [prepared.prepared, generated, Except.toOption] using within

/-- A number input, and a chart that shows it and a number of sixteen digits. -/
def gauge : String :=
  "<NumberInput name=\"a\" /><Chart title=\"\x7binputs.a\x7d\" data=\x7b9.100000000000001\x7d />"

/-- The input and the chart with the standard imports. -/
def gaugeText : String :=
  "<script>\nimport Chart from \"Chart\";\nimport Filter from \"Filter\";\nimport Grid from \"Grid\";\n</script>\n<NumberInput name=\"a\" /><Chart title=\"\x7binputs.a\x7d\" data=\x7b9.100000000000001\x7d />"

set_option maxRecDepth 4000 in
theorem preprocess_gauge : (preprocess gauge).toOption = some gaugeText := by
  have chars : gauge.toList = _ := String.toList_ofList
  have text : gaugeText.toList = _ := String.toList_ofList
  refine toOption_eq_some.mpr (Markup.preprocess_of_toList (Markup.importing_eq.trans String.toList_ofList) ?_)
  rw [Markup.parse_of_toList chars, chars, text]
  decide +kernel

set_option maxRecDepth 4000 in
theorem exists_compiled_gauge :
    ∃ compiled, (Compiler.compile {} gauge "Gauge.dash").outcome = .ok compiled := by
  have chars : gauge.toList = _ := String.toList_ofList
  have text : gaugeText.toList = _ := String.toList_ofList
  refine exists_compiled ?_ ?_ ?_
  · rw [gate, Prefilter.scan, Markup.parse_of_toList chars, chars]
    decide +kernel
  · rw [Markup.parse_of_toList chars]
    decide +kernel
  · rw [preprocess_gauge, Option.bind_some]
    refine generate_of_toList (fun outcome => outcome.toOption.all fun g => !decide (g.IsBeyond {})) text ?_
    decide +kernel

/-- Where the analysis finds nothing wrong, a document fails to compile when an element outside of
inputs has attributes that are refused, else when its module is beyond the limits, and never
otherwise. What compiles is never found wrong. -/
theorem compile_of_analyze (limits : SandboxLimits) (source filename : String) :
    let outcome := (Compiler.compile { policy := .strict, limits := limits } source filename).outcome
    (∀ compiled, outcome = .ok compiled → (analyze source).violations = []) ∧
      ((analyze source).violations = [] → ∃ document, Markup.parse source = .ok document ∧
        ((∃ message, outcome = .error (.compile message)) ↔
          ∃ e ∈ outerAll document.children, AreRefused e.2) ∧
        ((∀ e ∈ outerAll document.children, ¬ AreRefused e.2) → ∃ text g,
          preprocess source = .ok text ∧ generate text filename = .ok g ∧
          ((∃ message, outcome = .error (.runtimeLoad message)) ↔ g.IsBeyond limits) ∧
          (64 ≤ limits.maxDepth → ¬ limits.maxDepth < g.nesting) ∧
          (¬ g.IsBeyond limits → ∃ compiled, outcome = .ok compiled)) ∧
        ∀ f, outcome = .error f →
          (∃ message, f = .compile message) ∨ ∃ message, f = .runtimeLoad message) := by
  intro outcome
  constructor
  · intro compiled h
    exact analyze_eq_nil.mpr (Compiler.compile_eq_ok.mp h).1
  intro fine
  obtain ⟨document, clean⟩ := analyze_eq_nil.mp fine
  obtain ⟨text, children, prepared⟩ := exists_isPrepared clean.parsed clean.scriptless
  refine ⟨document, clean.parsed, ?_⟩
  by_cases usable : ∀ e ∈ outerAll document.children, ¬ AreRefused e.2
  · obtain ⟨g, generated, shallow, fails, succeeds⟩ :=
      @IsPrepared.outcome_of_usable _ _ filename _ _ limits prepared clean usable
    have refused : ¬ ∃ e ∈ outerAll document.children, AreRefused e.2 := by
      push Not
      exact usable
    have never : 64 ≤ limits.maxDepth → ¬ limits.maxDepth < g.nesting :=
      fun deep => not_lt.mpr (le_trans shallow deep)
    by_cases beyond : g.IsBeyond limits
    · obtain ⟨message, failed⟩ := fails beyond
      change outcome = _ at failed
      clear_value outcome
      subst failed
      refine ⟨⟨fun ⟨_, other⟩ => (by cases other), fun some => absurd some refused⟩, fun _ =>
        ⟨text, g, prepared.prepared, generated, ⟨fun _ => beyond, fun _ => ⟨message, rfl⟩⟩, never,
          fun within => absurd beyond within⟩, ?_⟩
      rintro _ ⟨⟩
      exact Or.inr ⟨message, rfl⟩
    · obtain ⟨compiled, succeeded⟩ := succeeds beyond
      change outcome = _ at succeeded
      clear_value outcome
      subst succeeded
      refine ⟨⟨fun ⟨_, other⟩ => (by cases other), fun some => absurd some refused⟩, fun _ =>
        ⟨text, g, prepared.prepared, generated, ⟨fun ⟨_, other⟩ => (by cases other),
          fun spent => absurd spent beyond⟩, never, fun _ => ⟨compiled, rfl⟩⟩, ?_⟩
      rintro _ ⟨⟩
  · obtain ⟨message, failed⟩ :=
      @IsPrepared.outcome_of_refused _ _ filename _ _ limits prepared clean usable
    change outcome = _ at failed
    clear_value outcome
    subst failed
    push Not at usable
    refine ⟨⟨fun _ => usable, fun _ => ⟨message, rfl⟩⟩, fun none => ?_, ?_⟩
    · obtain ⟨e, member, refused⟩ := usable
      exact absurd refused (none e member)
    · rintro _ ⟨⟩
      exact Or.inl ⟨message, rfl⟩

/-- The gauge compiles, so the analysis finds nothing wrong with it and no element is refused. -/
theorem compile_of_analyze_gauge :
    (∃ compiled, (Compiler.compile {} gauge "Gauge.dash").outcome = .ok compiled) ∧
      (analyze gauge).violations = [] ∧ ∃ document, Markup.parse gauge = .ok document ∧
        ¬ ∃ e ∈ outerAll document.children, AreRefused e.2 := by
  obtain ⟨compiled, h⟩ := exists_compiled_gauge
  obtain ⟨fine, foretold⟩ := compile_of_analyze {} gauge "Gauge.dash"
  obtain ⟨document, parsed, refused, -⟩ := foretold (fine compiled h)
  refine ⟨⟨compiled, h⟩, fine compiled h, document, parsed, fun some => ?_⟩
  obtain ⟨message, failed⟩ := refused.mpr some
  cases h.symm.trans failed

end Dashboard
