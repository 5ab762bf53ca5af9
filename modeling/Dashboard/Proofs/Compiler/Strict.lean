import Dashboard.Proofs.Compiler.Stages
import Dashboard.Proofs.Generate.Refusals

/-!
Documents that the strict gate lets pass. They have no script region, so preprocessing puts one in
front of them; the classification and the elements outside of inputs stay what they were, and every
display is imported.
-/
namespace Dashboard

open Dashboard.Generate (Bindings Output AreUsable IsGenerated)
open Dashboard.Markup (Node AreSound outerAll unplacedElement)
open Dashboard.Module (Line nesting)

/-- What is bound in front of a document without a script. -/
def standardBindings : Bindings := { imports := Bindings.standard }

/-- The script region that is put in front binds the displays and nothing else. -/
theorem ofProgram_importing (children : List Node) : ∃ program,
    Markup.Document.scriptProgram? ⟨some (Markup.frontRegion Markup.importing), children⟩ =
      .ok (some program) ∧ Bindings.ofProgram program = .ok standardBindings := by
  have raw : (Markup.frontRegion Markup.importing).raw.toList =
      '\n' :: (standardImports.toList ++ ['\n']) := String.toList_ofList
  obtain ⟨front, read, same⟩ := Script.parseScript_standardImports_alone
    (Markup.frontRegion Markup.importing).origin raw
  have whole := @Bindings.ofProgram_front (Markup.frontRegion Markup.importing).origin front [] same
  rw [List.append_nil] at whole
  refine ⟨_, ?_, whole⟩
  rw [Markup.Document.scriptProgram?]
  dsimp only
  rw [Markup.ScriptRegion.program, read]
  rfl

/-- The children of a document behind the imports that preprocessing puts in front of it. -/
structure IsPrepared (source : String) (document : Markup.Document) (text : String)
    (children : List Node) : Prop where
  prepared : preprocess source = .ok text
  parsed : Markup.parse text = .ok ⟨some (Markup.frontRegion Markup.importing), children⟩
  classified : Component.classifyAll none false {} children = document.classify
  outer : (outerAll children).map unplacedElement =
    (outerAll document.children).map unplacedElement

theorem exists_isPrepared {source : String} {document : Markup.Document}
    (parsed : Markup.parse source = .ok document) (scriptless : document.script = none) :
    ∃ text children, IsPrepared source document text children := by
  obtain ⟨text, prepared, shape⟩ := Markup.preprocess_front parsed scriptless
  obtain ⟨children, others, again, broken, agree⟩ :=
    Markup.parse_front Markup.hasNoTag_importing parsed scriptless shape
  have same : Markup.SameMarkup children document.children := ⟨others, Or.inr broken, agree.same.symm⟩
  exact ⟨text, children, prepared, again, Component.classifyAll_same none false {} same, same.outerAll⟩

namespace IsPrepared

variable {source text : String} {document : Markup.Document} {children : List Node}

theorem generate_eq (h : IsPrepared source document text children) (filename : String) :
    generate text filename = ((Generate.nodes standardBindings 0 children).mapError
      Failure.ofCompileError).map fun out =>
        ⟨Generate.lines filename standardBindings out, standardBindings.warnings ++ out.warnings⟩ := by
  obtain ⟨program, read, bound⟩ := ofProgram_importing children
  rw [generate, h.parsed, mapError_ok, ok_bind, read, mapError_ok, ok_bind]
  show ((Bindings.ofProgram program).mapError _ >>= _) = _
  rw [bound, mapError_ok, ok_bind]
  cases Generate.nodes standardBindings 0 children <;> rfl

theorem passAll (h : IsPrepared source document text children)
    (clean : document.classify.faults = []) : Component.PassAll children :=
  Component.passAll_of_classified h.classified clean

theorem sound (h : IsPrepared source document text children) :
    AreSound children maxNesting := Markup.areSound_of_parse h.parsed

/-- What the children are generated into, when they are. -/
theorem isGenerated (h : IsPrepared source document text children) {out : Output}
    (built : Generate.nodes standardBindings 0 children = .ok out) :
    ∃ cs, IsGenerated ⟨some (Markup.frontRegion Markup.importing), children⟩ standardBindings out
      cs := by
  obtain ⟨program, read, bound⟩ := ofProgram_importing children
  obtain ⟨cs, generates⟩ := Generate.generates_of_nodes (Or.inr rfl) 0 _ _ built
  exact ⟨cs, Bindings.isSound_empty _, Or.inr rfl, constants_eq_declared read bound, h.sound,
    generates⟩

end IsPrepared

/-- What a document comes to that compiles under the strict policy. -/
theorem Compiler.isPrepared_of_compile {compiler : Compiler} (strict : compiler.policy = .strict)
    {source filename : String} {compiled : CompiledModule}
    (h : (compiler.compile source filename).outcome = .ok compiled) :
    ∃ document text children out cs, IsClean .strict source document ∧
      IsPrepared source document text children ∧
      IsGenerated ⟨some (Markup.frontRegion Markup.importing), children⟩ standardBindings out cs ∧
      generate text filename = .ok ⟨Generate.lines filename standardBindings out,
        standardBindings.warnings ++ out.warnings⟩ ∧
      compiled.code = Module.text (Generate.lines filename standardBindings out) ∧
      compiled.component = IsGenerated.loaded filename standardBindings out cs := by
  obtain ⟨⟨document, clean⟩, text, g, prepared, generated, loaded, code⟩ := compile_eq_ok.mp h
  rw [strict] at clean
  obtain ⟨other, children, ready⟩ := exists_isPrepared clean.parsed clean.scriptless
  obtain rfl : text = other := Except.ok.inj (prepared.symm.trans ready.prepared)
  have whole := generated
  rw [ready.generate_eq] at whole
  obtain ⟨out, built, rfl⟩ := map_eq_ok.mp whole
  obtain ⟨cs, isGenerated⟩ := ready.isGenerated (mapError_eq_ok.mp built)
  obtain ⟨-, -, -, component⟩ := (isGenerated.load_eq_ok filename compiler.limits).mp loaded
  exact ⟨document, text, children, out, cs, clean, ready, isGenerated, generated, code, component⟩

end Dashboard
