import Dashboard.Compiler
import Dashboard.Proofs.Generate.Loading

/-!
The stages of a compilation. A document that the gate lets pass is preprocessed, generated and
loaded; when every stage succeeds, the module is what the tree of the preprocessed text was generated
into.
-/
namespace Dashboard

open Dashboard.Generate (Bindings IsGenerated)

/-- A document that has nothing against it. -/
structure IsClean (policy : ScriptPolicy) (source : String) (document : Markup.Document) : Prop where
  allowed : Prefilter.scan source = []
  parsed : Markup.parse source = .ok document
  script : ∃ outcome, policy.enforce document.script = .ok outcome ∧ outcome.violations = []
  components : document.classify.faults = []

theorem gate_eq_nil {policy : ScriptPolicy} {source : String} :
    (gate policy source).violations = [] ↔ ∃ document, IsClean policy source document := by
  constructor
  · intro clean
    rw [gate] at clean
    split at clean
    · simp at clean
    · next document parsed =>
      dsimp only at clean
      split at clean
      · next outcome enforced =>
        simp only [List.append_eq_nil_iff, List.map_eq_nil_iff] at clean
        obtain ⟨⟨allowed, script⟩, components⟩ := clean
        exact ⟨document, allowed, parsed, ⟨outcome, enforced, script⟩, components⟩
      · simp at clean
  · rintro ⟨document, allowed, parsed, ⟨outcome, enforced, script⟩, components⟩
    simp [gate, allowed, parsed, enforced, script, components]

/-- The analysis finds nothing wrong exactly where the strict gate does not. -/
theorem analyze_eq_nil {source : String} :
    (analyze source).violations = [] ↔ ∃ document, IsClean .strict source document := by
  constructor
  · intro clean
    rw [analyze] at clean
    split at clean
    · simp at clean
    · next document parsed =>
      split at clean
      · simp at clean
      · next outcome enforced =>
        split_ifs at clean with script
        · simp only [List.append_eq_nil_iff, List.map_eq_nil_iff] at clean
          exact ⟨document, clean.1, parsed, ⟨outcome, enforced, by simpa using script⟩, clean.2⟩
        · simp only [List.append_eq_nil_iff, List.map_eq_nil_iff] at clean
          exact absurd (List.isEmpty_iff.mpr clean.2) script
  · rintro ⟨document, allowed, parsed, ⟨outcome, enforced, script⟩, components⟩
    simp [analyze, allowed, parsed, enforced, script, components]

/-- The analysis of a clean document shows its classification. -/
theorem IsClean.analyze_eq {source : String} {document : Markup.Document}
    (h : IsClean .strict source document) : analyze source =
      { inputs := document.classify.inputComponents
        displays := document.classify.displayComponents
        state := Component.initialState document.classify.inputComponents
        violations := []
        warnings := document.classify.warnings } := by
  obtain ⟨outcome, enforced, script⟩ := h.script
  simp [analyze, h.parsed, enforced, script, h.allowed, h.components]

/-- The strict policy lets no script region pass. -/
theorem IsClean.scriptless {source : String} {document : Markup.Document}
    (h : IsClean .strict source document) : document.script = none := by
  obtain ⟨outcome, enforced, clean⟩ := h.script
  cases met : document.script with
  | none => rfl
  | some region =>
    rw [met] at enforced
    cases enforced
    cases clean

theorem generate_eq_ok {source filename : String} {g : GeneratedModule} :
    generate source filename = .ok g ↔ ∃ document program b out,
      Markup.parse source = .ok document ∧ document.scriptProgram? = .ok program ∧
        (match program with
          | some node => Bindings.ofProgram node
          | none => .ok {}) = .ok b ∧
        Generate.nodes b 0 document.children = .ok out ∧
        g = ⟨Generate.lines filename b out, b.warnings ++ out.warnings⟩ := by
  rw [generate]
  simp only [bind_eq_ok, mapError_eq_ok]
  constructor
  · rintro ⟨document, parsed, program, read, b, bound, out, built, last⟩
    exact ⟨document, program, b, out, parsed, read, bound, built, (Except.ok.inj last).symm⟩
  · rintro ⟨document, program, b, out, parsed, read, bound, built, rfl⟩
    exact ⟨document, parsed, program, read, b, bound, out, built, rfl⟩

/-- What is generated from a document and the program of its script. -/
def generateFrom (filename : String) (document : Markup.Document) (program : Option Script.Node) :
    Except Failure GeneratedModule := do
  let bindings ← (match program with
    | some node => Bindings.ofProgram node
    | none => .ok {}).mapError .ofCompileError
  let out ← (Generate.nodes bindings 0 document.children).mapError .ofCompileError
  return ⟨Generate.lines filename bindings out, bindings.warnings ++ out.warnings⟩

/-- The body of a script without a tag in it, as it stands in a text. -/
def bodyOf (letters : List Char) (region : Markup.ScriptRegion) : List Char :=
  (letters.drop region.origin.offset).takeWhile (· ≠ '<')

/-- What is generated from a document whose characters are at hand. -/
def generateFound (filename : String) (letters : List Char) (document : Markup.Document) :
    Except Failure GeneratedModule :=
  ((match document.script with
    | none => Except.ok none
    | some region => (Script.programOf (bodyOf letters region) region.origin).map some).mapError
      ParseError.failure).bind (generateFrom filename document)

/-- A document is generated from its characters, and its script from the part of them that is its
body. What holds of the one outcome holds of the other. -/
theorem generate_of_toList (holds : Except Failure GeneratedModule → Bool) {text filename : String}
    {letters : List Char} (h : text.toList = letters)
    (evaluated : (Markup.wholeDocument ⟨⟨letters, .start⟩, none⟩).toOption.any fun found =>
      (found.1.script.all fun region => region.raw = String.ofList (bodyOf letters region)) &&
        holds (generateFound filename letters found.1)) :
    holds (generate text filename) = true := by
  obtain ⟨⟨document, s⟩, whole, evaluated⟩ := (Option.any_eq_true _ _).mp evaluated
  obtain ⟨script, held⟩ := Bool.and_eq_true_iff.mp evaluated
  have read : document.scriptProgram? = match document.script with
      | none => .ok none
      | some region => (Script.programOf (bodyOf letters region) region.origin).map some := by
    rw [Markup.Document.scriptProgram?]
    cases met : document.script with
    | none => rfl
    | some region =>
      have same : region.raw = String.ofList (bodyOf letters region) := by
        simpa [met] using script
      simp only [Markup.ScriptRegion.program, same, Script.parseScript_ofList]
  have generated : generate text filename = generateFound filename letters document := by
    rw [generate, Markup.parse_of_toList h, toOption_eq_some.mp whole]
    show (document.scriptProgram?.mapError ParseError.failure).bind _ = _
    rw [read]
    rfl
  rw [generated]
  exact held

/-- The text of a module, found by its characters. -/
theorem code_of_toList {text code filename : String} {letters body : List Char}
    (h : text.toList = letters) (c : code.toList = body)
    (evaluated : (Markup.wholeDocument ⟨⟨letters, .start⟩, none⟩).toOption.any fun found =>
      (found.1.script.all fun region => region.raw = String.ofList (bodyOf letters region)) &&
        (generateFound filename letters found.1).toOption.any fun g => Module.letters g.lines = body) :
    (generate text filename).toOption.map GeneratedModule.code = some code := by
  have found := generate_of_toList
    (fun outcome => outcome.toOption.any fun g => Module.letters g.lines = body) h evaluated
  obtain ⟨g, generated, same⟩ := (Option.any_eq_true _ _).mp found
  rw [generated, Option.map_some, GeneratedModule.code, ← String.ofList_toList (s := Module.text g.lines),
    Module.toList_text_eq_letters, of_decide_eq_true same, ← c, String.ofList_toList]

/-- What a script binds is what its document declares. -/
theorem constants_eq_declared {document : Markup.Document} {program : Script.Node} {b : Bindings}
    (read : document.scriptProgram? = .ok (some program))
    (bound : Bindings.ofProgram program = .ok b) : b.constants = Meaning.declared document := by
  have whole := read
  rw [Markup.Document.scriptProgram?] at whole
  split at whole
  · cases whole
  · obtain ⟨node, parsed, same⟩ := map_eq_ok.mp whole
    cases same
    obtain ⟨body, rfl⟩ := Script.eq_program_of_parseScript parsed
    rw [Bindings.constants_of_ofProgram bound, Meaning.declared, read]

/-- What a preprocessed document is generated into when the gate has let its source pass. -/
theorem isGenerated_of_generate {policy : ScriptPolicy} {source text filename : String}
    {document : Markup.Document} {g : GeneratedModule} (clean : IsClean policy source document)
    (prepared : preprocess source = .ok text) (generated : generate text filename = .ok g) :
    ∃ processed b out cs, Markup.parse text = .ok processed ∧ IsGenerated processed b out cs ∧
      g.lines = Generate.lines filename b out := by
  obtain ⟨processed, program, b, out, parsed, read, bound, built, rfl⟩ :=
    generate_eq_ok.mp generated
  obtain ⟨outcome, enforced, allowed⟩ := clean.script
  obtain ⟨region, met, raw⟩ := Markup.script_of_preprocess clean.parsed prepared parsed
  have whole : processed.scriptProgram? = region.program.map some := by
    rw [Markup.Document.scriptProgram?, met]
  obtain ⟨node, regionRead, rfl⟩ := map_eq_ok.mp (whole ▸ read)
  obtain ⟨sound, confined⟩ := Bindings.sound_of_region enforced allowed raw regionRead bound
  obtain ⟨cs, generates⟩ := Generate.generates_of_nodes confined 0 _ _ built
  exact ⟨processed, b, out, cs, parsed, ⟨sound, confined, constants_eq_declared read bound,
    Markup.areSound_of_parse parsed, generates⟩, rfl⟩

namespace Compiler

variable {compiler : Compiler} {source filename : String} {compiled : CompiledModule}

/-- Behind the gate the outcome is what is built. -/
theorem outcome_of_gate (clean : (gate compiler.policy source).violations = []) :
    (compiler.compile source filename).outcome =
      (compiler.build source filename).map Prod.fst := by
  simp only [compile, clean, List.isEmpty_nil, Bool.not_true, Bool.false_eq_true, if_false]
  cases compiler.build source filename <;> rfl

theorem build_eq_ok {warnings : List GenerateWarning} :
    compiler.build source filename = .ok (compiled, warnings) ↔ ∃ text g,
      preprocess source = .ok text ∧ generate text filename = .ok g ∧
        compiler.sandbox.load g.code = .ok compiled.component ∧ compiled.code = g.code ∧
        warnings = g.warnings := by
  rw [build]
  simp only [bind_eq_ok, mapError_eq_ok]
  constructor
  · rintro ⟨text, prepared, g, generated, component, loaded, last⟩
    cases last
    exact ⟨text, g, prepared, generated, loaded, rfl, rfl⟩
  · rintro ⟨text, g, prepared, generated, loaded, code, rfl⟩
    refine ⟨text, prepared, g, generated, compiled.component, loaded, ?_⟩
    rw [← code]
    rfl

/-- A document compiles exactly when it passes the gate and every stage behind it. -/
theorem compile_eq_ok :
    (compiler.compile source filename).outcome = .ok compiled ↔
      (∃ document, IsClean compiler.policy source document) ∧ ∃ text g,
        preprocess source = .ok text ∧ generate text filename = .ok g ∧
          compiler.sandbox.load g.code = .ok compiled.component ∧ compiled.code = g.code := by
  rw [← gate_eq_nil]
  by_cases clean : (gate compiler.policy source).violations = []
  · rw [outcome_of_gate clean, map_eq_ok]
    constructor
    · rintro ⟨⟨found, warnings⟩, built, rfl⟩
      obtain ⟨text, g, prepared, generated, loaded, code, -⟩ := build_eq_ok.mp built
      exact ⟨clean, text, g, prepared, generated, loaded, code⟩
    · rintro ⟨-, text, g, prepared, generated, loaded, code⟩
      exact ⟨(compiled, g.warnings),
        build_eq_ok.mpr ⟨text, g, prepared, generated, loaded, code, rfl⟩, rfl⟩
  · simp [compile, clean]

theorem outcome_of_generate_error {text : String} {failure : Failure}
    (passes : (gate compiler.policy source).violations = [])
    (prepares : (preprocess source).toOption = some text)
    (fails : (generate text filename).map (fun _ => ()) = .error failure) :
    (compiler.compile source filename).outcome = .error failure := by
  rw [outcome_of_gate passes, map_eq_error, build, toOption_eq_some.mp prepares, mapError_ok, ok_bind,
    map_eq_error.mp fails]
  rfl

/-- What the generator notes is a warning of what compiles. -/
theorem mem_warnings_of_compile {text : String} {g : GeneratedModule} {notice : GenerateWarning}
    (h : (compiler.compile source filename).outcome = .ok compiled)
    (prepared : preprocess source = .ok text) (generated : generate text filename = .ok g)
    (member : notice ∈ g.warnings) : .generation notice ∈ (compiler.compile source filename).warnings := by
  have passes := gate_eq_nil.mpr (compile_eq_ok.mp h).1
  rw [outcome_of_gate passes, map_eq_ok] at h
  obtain ⟨⟨found, warnings⟩, built, rfl⟩ := h
  obtain ⟨text', g', prepared', generated', -, -, rfl⟩ := build_eq_ok.mp built
  obtain rfl := Except.ok.inj (prepared.symm.trans prepared')
  obtain rfl := Except.ok.inj (generated.symm.trans generated')
  rw [compile, if_neg (by simp [passes]), built]
  exact List.mem_append_right _ (List.mem_map_of_mem member)

/-- A document whose stages are run one by one. -/
theorem exists_compiled_of_stages {α : Type} {text code : String} {view : LoadedModule → α} {seen : α}
    (passes : (gate compiler.policy source).violations = [])
    (prepares : (preprocess source).toOption = some text)
    (generates : (generate text filename).toOption.map GeneratedModule.code = some code)
    (loads : (compiler.sandbox.load code).toOption.map view = some seen) :
    ∃ compiled, (compiler.compile source filename).outcome = .ok compiled ∧
      view compiled.component = seen := by
  obtain ⟨g, generated, rfl⟩ := Option.map_eq_some_iff.mp generates
  obtain ⟨m, loaded, rfl⟩ := Option.map_eq_some_iff.mp loads
  exact ⟨⟨g.code, m⟩, compile_eq_ok.mpr ⟨gate_eq_nil.mp passes, text, g, toOption_eq_some.mp prepares,
    toOption_eq_some.mp generated, toOption_eq_some.mp loaded, rfl⟩, rfl⟩

/-- What a document that compiles was generated into, and what was loaded of it. -/
theorem isGenerated_of_compile (h : (compiler.compile source filename).outcome = .ok compiled) :
    ∃ text processed b out cs, preprocess source = .ok text ∧
      Markup.parse text = .ok processed ∧ IsGenerated processed b out cs ∧
      compiled.code = Module.text (Generate.lines filename b out) ∧
      compiled.component = IsGenerated.loaded filename b out cs := by
  obtain ⟨⟨document, clean⟩, text, g, prepared, generated, loaded, code⟩ := compile_eq_ok.mp h
  obtain ⟨processed, b, out, cs, parsed, isGenerated, lines⟩ :=
    isGenerated_of_generate clean prepared generated
  rw [GeneratedModule.code, lines] at code loaded
  obtain ⟨-, -, -, component⟩ := (isGenerated.load_eq_ok filename compiler.limits).mp loaded
  exact ⟨text, processed, b, out, cs, prepared, parsed, isGenerated, code, component⟩

end Compiler

end Dashboard
