import Dashboard.Proofs.Compiler.Verdict
import Dashboard.Proofs.Generate.Offences

/-!
The places in what the compiler says. The generator works on the text with the standard imports, so a
failure and its warnings tell where nodes of that text stand. The nodes are those of the source: offences
and notices are the same for both texts, each with the place that its node has there.
-/
namespace Dashboard

open Dashboard.Markup (Attribute Node Alternative Document HasOpenScript SameMarkup)
open Dashboard.Script (importNode)

namespace Generate

/-- The faults of offences, in order. -/
def faults (offences : List CompileError) : List CompileFault := offences.map CompileError.fault

theorem faults_append (front back : List CompileError) :
    faults (front ++ back) = faults front ++ faults back :=
  List.map_append

theorem faults_if (c : Prop) [Decidable c] (fault : CompileFault) (p : Position) :
    faults (if c then [⟨fault, p⟩] else []) = if c then [fault] else [] := by
  split <;> rfl

theorem faults_unless (c : Prop) [Decidable c] (fault : CompileFault) (p : Position) :
    faults (if c then [] else [⟨fault, p⟩]) = if c then [] else [fault] := by
  split <;> rfl

/-! Faults do not depend on places. -/

section Along

variable {σ ν : Type} {offences : σ → ν → List CompileError} {next : σ → ν → σ} {f : ν → ν}

theorem faults_along (same : ∀ s n, faults (offences s (f n)) = faults (offences s n))
    (go : ∀ s n, next s (f n) = next s n) (s : σ) (parts : List ν) :
    faults (along offences next s (parts.map f)) = faults (along offences next s parts) := by
  induction parts generalizing s with
  | nil => rfl
  | cons part more ih =>
    rw [List.map_cons, along, along, faults_append, faults_append, same, go, ih]

theorem foldl_map_eq (go : ∀ s n, next s (f n) = next s n) (s : σ) (parts : List ν) :
    (parts.map f).foldl next s = parts.foldl next s := by
  rw [List.foldl_map]
  simp only [go]

end Along

namespace Scope

open Script.Node (unplaced unplacedAll unplacedAll_eq_map literal?_unplaced)

theorem afterSpecifier_unplaced (s : Scope) (n : Script.Node) :
    s.afterSpecifier n.unplaced = s.afterSpecifier n := by
  cases n with
  | defaultSpecifier position binding => cases binding <;> rfl
  | _ => rfl

theorem afterDeclarator_unplaced (s : Scope) (n : Script.Node) :
    s.afterDeclarator n.unplaced = s.afterDeclarator n := by
  cases n with
  | declarator position binding value => cases binding <;> rfl
  | _ => rfl

theorem after_unplaced (s : Scope) (n : Script.Node) : s.after n.unplaced = s.after n := by
  cases n with
  | imports position specifiers source =>
    cases source with
    | literal place value =>
      cases value with
      | str text =>
        show (unplacedAll specifiers).foldl afterSpecifier s = specifiers.foldl afterSpecifier s
        rw [unplacedAll_eq_map, foldl_map_eq afterSpecifier_unplaced]
      | _ => rfl
    | _ => rfl
  | declarations position kind declarators =>
    show (unplacedAll declarators).foldl afterDeclarator s = declarators.foldl afterDeclarator s
    rw [unplacedAll_eq_map, foldl_map_eq afterDeclarator_unplaced]
  | _ => rfl

theorem faults_redeclaration (s : Scope) (name : String) (p q : Position) :
    faults (s.redeclaration name p) = faults (s.redeclaration name q) := by
  rw [redeclaration, redeclaration, faults_if, faults_if]

theorem faults_specifierOffences (s : Scope) (n : Script.Node) :
    faults (s.specifierOffences n.unplaced) = faults (s.specifierOffences n) := by
  cases n with
  | defaultSpecifier position binding =>
    cases binding with
    | identifier place name => exact s.faults_redeclaration name _ _
    | _ => rfl
  | _ => rfl

theorem faults_initializerOffences (name : String) (value : Option Script.Node) :
    faults (initializerOffences name (Script.Node.unplaced? value)) =
      faults (initializerOffences name value) := by
  cases value with
  | none => rfl
  | some init =>
    show faults (initializerOffences name (some init.unplaced)) = _
    rw [initializerOffences, initializerOffences, literal?_unplaced, faults_unless, faults_unless]

theorem faults_declaratorOffences (s : Scope) (n : Script.Node) :
    faults (s.declaratorOffences n.unplaced) = faults (s.declaratorOffences n) := by
  cases n with
  | declarator position binding value =>
    cases binding with
    | identifier place name =>
      show faults (s.redeclaration name _ ++ initializerOffences name (Script.Node.unplaced? value)) =
        faults (s.redeclaration name _ ++ initializerOffences name value)
      rw [faults_append, faults_append, faults_initializerOffences, faults_redeclaration]
    | _ => rfl
  | _ => rfl

theorem faults_statementOffences (s : Scope) (n : Script.Node) :
    faults (s.statementOffences n.unplaced) = faults (s.statementOffences n) := by
  cases n with
  | imports position specifiers source =>
    cases source with
    | literal place value =>
      cases value with
      | str text =>
        show faults (along _ _ s (unplacedAll specifiers)) = _
        rw [unplacedAll_eq_map, faults_along faults_specifierOffences afterSpecifier_unplaced]
        rfl
      | _ => rfl
    | _ => rfl
  | declarations position kind declarators =>
    show faults (along _ _ s (unplacedAll declarators)) = _
    rw [unplacedAll_eq_map, faults_along faults_declaratorOffences afterDeclarator_unplaced]
    rfl
  | _ => rfl

end Scope

theorem faults_undefinedNames (s : Scope) (a : Attribute) :
    faults (undefinedNames s a.unplaced) = faults (undefinedNames s a) := by
  obtain ⟨position, name, value⟩ := a
  cases value with
  | bare | text => rfl
  | mustache tag =>
    obtain ⟨place, raw, expression⟩ := tag
    cases expression with
    | identifier p word =>
      show faults (if word ∈ s.constants then [] else [⟨.undefinedName word, .start⟩]) =
        faults (if word ∈ s.constants then [] else [⟨.undefinedName word, p⟩])
      rw [faults_unless, faults_unless]
    | _ => rfl

theorem faults_attributesOffences (s : Scope) (tag : String) (attributes : List Attribute) :
    faults (attributesOffences s tag (attributes.map Attribute.unplaced)) =
      faults (attributesOffences s tag attributes) := by
  refine faults_along (f := Attribute.unplaced) (fun earlier a => ?_) (fun _ _ => rfl) [] attributes
  simp only [attributeOffences, faults_append, faults_undefinedNames, faults_if]
  rfl

theorem faults_referenceOffences (tag : Markup.Mustache) :
    faults (referenceOffences tag.unplaced) = faults (referenceOffences tag) := by
  unfold referenceOffences
  simp only [Markup.Mustache.unplaced, Script.Node.inputName?_unplaced, Script.Node.literal?_unplaced]
  split <;> rfl

mutual

theorem faults_nodeOffences (s : Scope) (n : Node) :
    faults (nodeOffences s n.unplaced) = faults (nodeOffences s n) := by
  match n with
  | .element position tag attributes children =>
    rw [Node.unplaced, nodeOffences, nodeOffences]
    by_cases component : Markup.isComponentName tag = true
    · rw [if_pos component, if_pos component, faults_append, faults_append, faults_attributesOffences]
      cases Registry.lookup tag with
      | input => rfl
      | _ =>
        dsimp only
        rw [faults_append, faults_append, faults_nodesOffences s children, faults_unless, faults_unless]
    · rw [if_neg component, if_neg component]
      rfl
  | .text .. | .comment .. => rfl
  | .mustache tag => exact faults_referenceOffences tag
  | .ifBlock position raw condition children alternative =>
    simp only [Node.unplaced, nodeOffences, faults_append, faults_nodesOffences s children,
      faults_alternativeOffences s alternative, faults_unless, Script.Node.inputName?_unplaced]
  | .style .. => rfl

theorem faults_nodesOffences (s : Scope) (ns : List Node) :
    faults (nodesOffences s (Markup.unplacedAll ns)) = faults (nodesOffences s ns) := by
  match ns with
  | [] => rfl
  | first :: more =>
    rw [Markup.unplacedAll, nodesOffences, nodesOffences, faults_append, faults_append,
      faults_nodeOffences s first, faults_nodesOffences s more]

theorem faults_alternativeOffences (s : Scope) (alternative : Alternative) :
    faults (alternativeOffences s alternative.unplaced) =
      faults (alternativeOffences s alternative) := by
  match alternative with
  | .absent => rfl
  | .otherwise _ children => exact faults_nodesOffences s children
  | .elseIf _ block => exact faults_nodeOffences s block

end

end Generate

/-! Neither do notices. -/

/-- A notice of what stands at the start of a text. -/
def GenerateWarning.unplaced : GenerateWarning → GenerateWarning
  | .statementSkipped _ => .statementSkipped .start
  | .childrenIgnored tag _ => .childrenIgnored tag .start

namespace Generate

theorem statementNotices_unplaced (n : Script.Node) :
    (Scope.statementNotices n.unplaced).map GenerateWarning.unplaced =
      (Scope.statementNotices n).map GenerateWarning.unplaced := by
  cases n <;> rfl

mutual

theorem nodeNotices_unplaced (n : Node) : (nodeNotices n.unplaced).map GenerateWarning.unplaced =
    (nodeNotices n).map GenerateWarning.unplaced := by
  match n with
  | .element position tag attributes children =>
    rw [Node.unplaced, nodeNotices, nodeNotices]
    cases Registry.lookup tag with
    | input => cases children <;> rfl
    | _ => exact nodesNotices_unplaced children
  | .text .. | .comment .. | .mustache _ | .style .. => rfl
  | .ifBlock position raw condition children alternative =>
    rw [Node.unplaced, nodeNotices, nodeNotices, List.map_append, List.map_append,
      nodesNotices_unplaced children, alternativeNotices_unplaced alternative]

theorem nodesNotices_unplaced (ns : List Node) :
    (nodesNotices (Markup.unplacedAll ns)).map GenerateWarning.unplaced =
      (nodesNotices ns).map GenerateWarning.unplaced := by
  match ns with
  | [] => rfl
  | first :: more =>
    rw [Markup.unplacedAll, nodesNotices, nodesNotices, List.map_append, List.map_append,
      nodeNotices_unplaced first, nodesNotices_unplaced more]

theorem alternativeNotices_unplaced (alternative : Alternative) :
    (alternativeNotices alternative.unplaced).map GenerateWarning.unplaced =
      (alternativeNotices alternative).map GenerateWarning.unplaced := by
  match alternative with
  | .absent => rfl
  | .otherwise _ children => exact nodesNotices_unplaced children
  | .elseIf _ block => exact nodeNotices_unplaced block

end

end Generate

/-- What is bound and what there is against a script, where the displays are imported and where the script
imports them itself. -/
theorem Generate.faults_imported {body own : List Script.Node}
    (same : Script.Node.unplacedAll body =
      Registry.displayNames.map importNode ++ Script.Node.unplacedAll own) :
    faults (scriptOffences [] body) = faults (scriptOffences Registry.displayNames own) ∧
      scopeOf [] body = scopeOf Registry.displayNames own ∧
      (body.flatMap Scope.statementNotices).map GenerateWarning.unplaced =
        (own.flatMap Scope.statementNotices).map GenerateWarning.unplaced := by
  rw [Script.Node.unplacedAll_eq_map, Script.Node.unplacedAll_eq_map] at same
  refine ⟨?_, ?_, ?_⟩
  · rw [scriptOffences, ← faults_along Scope.faults_statementOffences Scope.after_unplaced, same,
      along_append, faults_append, faults_along Scope.faults_statementOffences Scope.after_unplaced]
    rfl
  · rw [scopeOf, ← foldl_map_eq Scope.after_unplaced, same, List.foldl_append,
      foldl_map_eq Scope.after_unplaced]
    rfl
  · have each (nodes : List Script.Node) :
        ((nodes.map Script.Node.unplaced).flatMap Scope.statementNotices).map GenerateWarning.unplaced =
          (nodes.flatMap Scope.statementNotices).map GenerateWarning.unplaced := by
      simp only [List.flatMap_map, List.map_flatMap, statementNotices_unplaced]
    rw [← each, same, List.flatMap_append, List.map_append, each]
    rfl

/-- There is nothing against a line feed. -/
theorem Generate.nodesOffences_broken (s : Scope) {children others : List Node}
    (broken : Markup.Broken children others) : nodesOffences s children = nodesOffences s others ∧
      nodesNotices children = nodesNotices others := by
  cases broken <;> exact ⟨rfl, rfl⟩

/-- The offences and the notices of a document with the imports are those of the document without them, each
at its own place. -/
theorem Markup.Document.offences_imported {document processed : Document}
    {program : Option Script.Node} (read : document.scriptProgram? = .ok program)
    (markup : SameMarkup processed.children document.children)
    (imported : HasImported processed (ownStatements program)) :
    Generate.faults (processed.offences []) =
        Generate.faults (document.offences Registry.displayNames) ∧
      processed.notices.map GenerateWarning.unplaced =
        document.notices.map GenerateWarning.unplaced := by
  obtain ⟨position, body, script, same⟩ := imported
  obtain ⟨others, broken, alike⟩ := markup
  have own : document.statements = ownStatements program := by
    rw [statements, read]
  have whole : processed.statements = body := by
    rw [statements, script]
    rfl
  obtain ⟨against, bound, noted⟩ := Generate.faults_imported same
  have text (s : Generate.Scope) :
      Generate.nodesOffences s processed.children = Generate.nodesOffences s others ∧
        Generate.nodesNotices processed.children = Generate.nodesNotices others := by
    rcases broken with same | broken
    · exact same ▸ ⟨rfl, rfl⟩
    · exact Generate.nodesOffences_broken s broken
  constructor
  · rw [offences, offences, own, whole, Generate.faults_append, Generate.faults_append, against, bound,
      (text _).1, ← Generate.faults_nodesOffences, alike, Generate.faults_nodesOffences]
  · rw [notices, notices, own, whole, List.map_append, List.map_append, noted, (text {}).2,
      ← Generate.nodesNotices_unplaced, alike, Generate.nodesNotices_unplaced]

/-- The document of a source, and the text with the imports with its document. -/
structure IsProcessed (source : String) (document : Document) (text : String) (processed : Document) :
    Prop where
  parsed : Markup.parse source = .ok document
  prepared : preprocess source = .ok text
  again : Markup.parse text = .ok processed

theorem IsProcessed.faults_eq {source text : String} {document processed : Document}
    (h : IsProcessed source document text processed) {program : Option Script.Node}
    (read : document.scriptProgram? = .ok program) (isOpen : HasOpenScript source document) :
    Generate.faults (processed.offences []) =
        Generate.faults (document.offences Registry.displayNames) ∧
      processed.notices.map GenerateWarning.unplaced =
        document.notices.map GenerateWarning.unplaced := by
  obtain ⟨text', other, prepared, again, markup, imported⟩ :=
    preprocess_isTransparent h.parsed read isOpen
  obtain rfl := Except.ok.inj (h.prepared.symm.trans prepared)
  obtain rfl := Except.ok.inj (h.again.symm.trans again)
  exact Markup.Document.offences_imported read markup imported

/-- What the generator gets as far as is a document with a script that can be parsed. -/
theorem exists_program {text filename : String}
    (reached : ∀ message, generate text filename ≠ .error (.parse message)) :
    ∃ processed program, Markup.parse text = .ok processed ∧
      processed.scriptProgram? = .ok program := by
  cases parsed : Markup.parse text with
  | error e => exact absurd (by rw [generate, parsed]; rfl) (reached e.message)
  | ok processed =>
    cases read : processed.scriptProgram? with
    | error e =>
      refine absurd ?_ (reached e.message)
      rw [generate, parsed]
      simp only [mapError_ok, ok_bind, read]
      rfl
    | ok program => exact ⟨processed, program, rfl, read⟩

theorem IsClean.exists_program {policy : ScriptPolicy} {source : String} {document : Document}
    (h : IsClean policy source document) : ∃ program, document.scriptProgram? = .ok program := by
  obtain ⟨outcome, enforced, allowed⟩ := h.script
  rw [Document.scriptProgram?]
  cases met : document.script with
  | none => exact ⟨none, rfl⟩
  | some region =>
    rw [met] at enforced
    cases policy with
    | strict =>
      cases enforced
      cases allowed
    | permissive =>
      obtain ⟨program, read, -⟩ := map_eq_ok.mp enforced
      exact ⟨some program, map_eq_ok.mpr ⟨program, read, rfl⟩⟩

theorem IsClean.hasOpenScript {source : String} {document : Document}
    (h : IsClean .strict source document) : HasOpenScript source document := by
  intro region met
  rw [h.scriptless] at met
  cases met

namespace Compiler

variable {compiler : Compiler} {source filename : String}

theorem failure_ne_compile (report : GateReport) (message : String) :
    report.failure ≠ .compile message := by
  rw [GateReport.failure]
  split_ifs <;> rintro ⟨⟩

/-- A message about the text of a document comes from the generator. -/
theorem exists_of_compile_message {message : String}
    (h : (compiler.compile source filename).outcome = .error (.compile message)) :
    ∃ document text, IsClean compiler.policy source document ∧ preprocess source = .ok text ∧
      generate text filename = .error (.compile message) := by
  by_cases passes : (gate compiler.policy source).violations = []
  · rw [outcome_of_gate passes, map_eq_error, build] at h
    obtain ⟨document, clean⟩ := gate_eq_nil.mp passes
    rcases bind_eq_error.mp h with unprepared | ⟨text, prepared, h⟩
    · obtain ⟨e, -, other⟩ := mapError_eq_error.mp unprepared
      cases other
    rcases bind_eq_error.mp h with failed | ⟨g, -, h⟩
    · exact ⟨document, text, clean, mapError_eq_ok.mp prepared, failed⟩
    rcases bind_eq_error.mp h with unloaded | ⟨component, -, last⟩
    · obtain ⟨e, -, other⟩ := mapError_eq_error.mp unloaded
      cases other
    · cases last
  · rw [compile, if_pos (by simpa using passes)] at h
    exact absurd (Except.error.inj h) (failure_ne_compile _ _)

/-- So does a warning that is not about components. -/
theorem exists_of_warning {notice : GenerateWarning}
    (h : .generation notice ∈ (compiler.compile source filename).warnings) :
    ∃ document text g, IsClean compiler.policy source document ∧ preprocess source = .ok text ∧
      generate text filename = .ok g ∧ notice ∈ g.warnings := by
  have gated : .generation notice ∉
      (gate compiler.policy source).warnings.map Warning.component := by simp
  by_cases passes : (gate compiler.policy source).violations = []
  · rw [compile, if_neg (by simp [passes])] at h
    obtain ⟨document, clean⟩ := gate_eq_nil.mp passes
    cases built : compiler.build source filename with
    | error f =>
      rw [built] at h
      exact absurd h gated
    | ok found =>
      obtain ⟨compiled, more⟩ := found
      rw [built] at h
      obtain ⟨text, g, prepared, generated, -, -, rfl⟩ := build_eq_ok.mp built
      refine ⟨document, text, g, clean, prepared, generated, ?_⟩
      simpa using h
  · rw [compile, if_pos (by simpa using passes)] at h
    exact absurd h gated

/-- When the generation fails, the message is about the first offence in the text with the imports, and
tells the place that the node of the offence has in that text; a warning tells the place in that text of
what is left out. The first offence in the source itself is of the same fault, and what is left out of
the source is the same, but stands at places of its own. -/
theorem offences_of_compile (compiler : Compiler) (source filename : String) :
    (∀ message, (compiler.compile source filename).outcome = .error (.compile message) →
      ∃ document text processed e, IsProcessed source document text processed ∧
        (processed.offences []).head? = some e ∧ message = e.message ∧
        (HasOpenScript source document →
          ∃ q, (document.offences Registry.displayNames).head? = some ⟨e.fault, q⟩)) ∧
      ∀ notice, .generation notice ∈ (compiler.compile source filename).warnings →
        ∃ document text processed, IsProcessed source document text processed ∧
          ∃ i : Nat, processed.notices[i]? = some notice ∧
            (HasOpenScript source document → ∃ own : GenerateWarning,
              document.notices[i]? = some own ∧ own.unplaced = notice.unplaced) := by
  constructor
  · intro message failed
    obtain ⟨document, text, clean, prepared, failed⟩ := exists_of_compile_message failed
    obtain ⟨processed, program, again, read⟩ := exists_program (fun other => by rw [failed]; rintro ⟨⟩)
    obtain ⟨own, ownRead⟩ := clean.exists_program
    obtain ⟨e, first, same⟩ := (generate_eq_error again read).mp failed
    have isProcessed : IsProcessed source document text processed := ⟨clean.parsed, prepared, again⟩
    refine ⟨document, text, processed, e, isProcessed, first, Failure.compile.inj same, fun isOpen => ?_⟩
    have same := congrArg List.head? (isProcessed.faults_eq ownRead isOpen).1
    rw [Generate.faults, Generate.faults, List.head?_map, List.head?_map, first] at same
    obtain ⟨⟨fault, q⟩, found, rfl⟩ := Option.map_eq_some_iff.mp same.symm
    exact ⟨q, found⟩
  · intro notice noted
    obtain ⟨document, text, g, clean, prepared, generated, member⟩ := exists_of_warning noted
    obtain ⟨processed, program, again, read⟩ :=
      exists_program (fun other => by rw [generated]; rintro ⟨⟩)
    obtain ⟨own, ownRead⟩ := clean.exists_program
    rw [warnings_of_generate again read generated] at member
    obtain ⟨i, here⟩ := List.mem_iff_getElem?.mp member
    have isProcessed : IsProcessed source document text processed := ⟨clean.parsed, prepared, again⟩
    refine ⟨document, text, processed, isProcessed, i, here, fun isOpen => ?_⟩
    have same := congrArg (fun notices => notices[i]?) (isProcessed.faults_eq ownRead isOpen).2
    rw [List.getElem?_map, List.getElem?_map, here] at same
    exact Option.map_eq_some_iff.mp same.symm

example : CompileError.message ⟨.undefinedName "a", ⟨1, 14, 13⟩⟩ = "'a' is not defined at 1:14" := by
  decide +kernel

/-- A chart whose data is a name that nothing declares. -/
def missing : String := "<Chart data=\x7bmissing\x7d />"

/-- The chart with the standard imports. -/
def missingText : String :=
  "<script>\nimport Chart from \"Chart\";\nimport Filter from \"Filter\";\nimport Grid from \"Grid\";\n</script>\n<Chart data=\x7bmissing\x7d />"

set_option maxRecDepth 4000 in
theorem outcome_missing : (Compiler.compile {} missing "Missing.dash").outcome =
    .error (.compile "'missing' is not defined at 6:14") := by
  have chars : missing.toList = _ := String.toList_ofList
  have text : missingText.toList = _ := String.toList_ofList
  refine @outcome_of_generate_error {} missing "Missing.dash" missingText _ ?_ ?_ ?_
  · rw [gate, Prefilter.scan, Markup.parse_of_toList chars, chars]
    decide +kernel
  · refine toOption_eq_some.mpr (Markup.preprocess_of_toList (Markup.importing_eq.trans String.toList_ofList) ?_)
    rw [Markup.parse_of_toList chars, chars, text]
    decide +kernel
  · refine of_decide_eq_true (generate_of_toList
      (fun outcome => decide (outcome.map (fun _ => ()) =
        .error (.compile "'missing' is not defined at 6:14"))) text ?_)
    decide +kernel

/-- The name stands in the first line of the source, and the message puts it into the sixth. -/
theorem compile_missing : (Compiler.compile {} missing "Missing.dash").outcome =
      .error (.compile "'missing' is not defined at 6:14") ∧
    ∃ document e, Markup.parse missing = .ok document ∧
      (document.offences Registry.displayNames).head? = some e ∧
      e.message = "'missing' is not defined at 1:14" := by
  have chars : missing.toList = _ := String.toList_ofList
  have first : (Markup.parse missing).toOption.bind (fun document =>
      (document.offences Registry.displayNames).head?) =
        some ⟨.undefinedName "missing", ⟨1, 14, 13⟩⟩ := by
    rw [Markup.parse_of_toList chars]
    decide +kernel
  obtain ⟨document, parsed, first⟩ := Option.bind_eq_some_iff.mp first
  exact ⟨outcome_missing, document, _, toOption_eq_some.mp parsed, first, by decide⟩

/-- A switch with a text in it. -/
def filled : String := "<Toggle name=\"a\">x</Toggle>"

/-- The switch with the standard imports. -/
def filledText : String :=
  "<script>\nimport Chart from \"Chart\";\nimport Filter from \"Filter\";\nimport Grid from \"Grid\";\n</script>\n<Toggle name=\"a\">x</Toggle>"

set_option maxRecDepth 4000 in
theorem warnings_filled : .generation (.childrenIgnored "Toggle" ⟨6, 1, 100⟩) ∈
    (Compiler.compile {} filled "Filled.dash").warnings := by
  have chars : filled.toList = _ := String.toList_ofList
  have text : filledText.toList = _ := String.toList_ofList
  have prepared : preprocess filled = .ok filledText := by
    refine Markup.preprocess_of_toList (Markup.importing_eq.trans String.toList_ofList) ?_
    rw [Markup.parse_of_toList chars, chars, text]
    decide +kernel
  have notes : (generate filledText "Filled.dash").toOption.any
      (fun g => decide (g.warnings = [.childrenIgnored "Toggle" ⟨6, 1, 100⟩]) && !decide (g.IsBeyond {})) := by
    refine generate_of_toList (fun outcome => outcome.toOption.any fun g =>
      decide (g.warnings = [.childrenIgnored "Toggle" ⟨6, 1, 100⟩]) && !decide (g.IsBeyond {})) text ?_
    decide +kernel
  obtain ⟨g, generated, both⟩ := (Option.any_eq_true _ _).mp notes
  obtain ⟨noted, within⟩ := Bool.and_eq_true_iff.mp both
  obtain ⟨compiled, succeeded⟩ := @exists_compiled filled "Filled.dash" {}
    (by rw [gate, Prefilter.scan, Markup.parse_of_toList chars, chars]; decide +kernel)
    (by rw [Markup.parse_of_toList chars]; decide +kernel)
    (by rw [toOption_eq_some.mpr prepared, Option.bind_some, generated]; exact within)
  exact mem_warnings_of_compile succeeded prepared
    (toOption_eq_some.mp generated) (by rw [of_decide_eq_true noted]; exact List.mem_singleton_self _)

theorem offences_of_compile_missing :
    ((Compiler.compile {} missing "Missing.dash").outcome =
      .error (.compile "'missing' is not defined at 6:14") ∧
    ∃ document text processed e, IsProcessed missing document text processed ∧
      (processed.offences []).head? = some e ∧ "'missing' is not defined at 6:14" = e.message ∧
      HasOpenScript missing document ∧
      ∃ q, (document.offences Registry.displayNames).head? = some ⟨e.fault, q⟩) ∧
    .generation (.childrenIgnored "Toggle" ⟨6, 1, 100⟩) ∈
      (Compiler.compile {} filled "Filled.dash").warnings ∧
    ∃ document text processed, IsProcessed filled document text processed ∧
      ∃ i : Nat, processed.notices[i]? = some (.childrenIgnored "Toggle" ⟨6, 1, 100⟩) ∧
        HasOpenScript filled document ∧ ∃ own : GenerateWarning,
          document.notices[i]? = some own ∧
            own.unplaced = GenerateWarning.unplaced (.childrenIgnored "Toggle" ⟨6, 1, 100⟩) := by
  constructor
  · obtain ⟨document, text, processed, e, isProcessed, first, same, own⟩ :=
      (offences_of_compile {} missing "Missing.dash").1 _ outcome_missing
    obtain ⟨other, -, clean, -⟩ := exists_of_compile_message outcome_missing
    obtain rfl := Except.ok.inj (isProcessed.parsed.symm.trans clean.parsed)
    have isOpen := IsClean.hasOpenScript clean
    exact ⟨outcome_missing, document, text, processed, e, isProcessed, first, same, isOpen, own isOpen⟩
  · obtain ⟨document, text, processed, isProcessed, i, here, own⟩ :=
      (offences_of_compile {} filled "Filled.dash").2 _ warnings_filled
    obtain ⟨other, -, -, clean, -⟩ := exists_of_warning warnings_filled
    obtain rfl := Except.ok.inj (isProcessed.parsed.symm.trans clean.parsed)
    have isOpen := IsClean.hasOpenScript clean
    exact ⟨warnings_filled, document, text, processed, isProcessed, i, here, isOpen, own isOpen⟩

end Compiler

end Dashboard
