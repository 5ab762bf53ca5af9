import Dashboard.Proofs.Compiler.Verdict
import Dashboard.Proofs.Generate.Texts

/-!
Integrity of placeholders. In a module that comes out of the strict gate every text in a prop is free
of braces or one placeholder and nothing else, so that no brace is rendered unless an input shows one.
-/
namespace Dashboard

open Dashboard.Generate (instructions)
open Dashboard.Json (entryTexts)
open Dashboard.Markup (outerAll)
open Dashboard.Placeholder (HasNoBrace IsIntact)

/-- What inputs show holds no brace if none of their values does as text. -/
theorem InputState.hasNoBrace_shown {state : InputState}
    (plain : ∀ entry ∈ state, HasNoBrace entry.2.stringified.toList) (name : String) :
    HasNoBrace (state.shown name).toList := by
  unfold InputState.shown
  split
  · next value found => exact plain _ (Dictionary.mem_of_find?_eq_some found)
  · simp [HasNoBrace]

/-- Attributes that pass the strict gate hold intact texts, as there are no constants. -/
theorem IsPrepared.covers {source text : String} {document : Markup.Document}
    {children : List Markup.Node} (h : IsPrepared source document text children)
    (clean : document.classify.faults = []) : Covers IsIntact [] (outerAll children) := by
  have covers := covers_of_faultless [] (Component.faultless_outerAll children (h.passAll clean))
  refine covers.imp fun text passes => ?_
  rcases passes with fine | ⟨_, _, _, _, _, _, _, found, _⟩
  · exact Placeholder.isIntact_of_violations fine
  · cases found

namespace Compiler

/-- Texts in the props of a module that compiles under the strict policy are intact, and no brace is
rendered in a prop while the inputs show none. -/
theorem isIntact_of_compile {compiler : Compiler} (strict : compiler.policy = .strict)
    {source filename : String} {compiled : CompiledModule}
    (h : (compiler.compile source filename).outcome = .ok compiled) :
    (∃ text g, preprocess source = .ok text ∧ generate text filename = .ok g ∧
      compiled.code = g.code ∧ ∀ line ∈ g.lines, ∀ props, line.instruction.props? = some props →
        ∀ text ∈ entryTexts props, IsIntact text) ∧
      ∀ state : InputState, (∀ entry ∈ state, HasNoBrace entry.2.stringified.toList) →
        ∀ text ∈ RenderNode.propTextsAll (compiled.component.render state),
          HasNoBrace text.toList := by
  obtain ⟨document, text, children, out, cs, clean, prepared, isGenerated, generated, code, component⟩ :=
    isPrepared_of_compile strict h
  have covers := prepared.covers clean.components
  constructor
  · refine ⟨text, _, prepared.prepared, generated, code, fun line member => ?_⟩
    exact isGenerated.texts covers filename line.instruction (List.mem_map_of_mem member)
  · intro state plain
    have none : Meaning.declared ⟨some (Markup.frontRegion Markup.importing), children⟩ = [] :=
      isGenerated.constants.symm
    rw [component, isGenerated.render, RenderNode.propTextsAll_relayed, Meaning.ofDocument, none]
    intro shown member
    obtain ⟨original, intact, rfl⟩ := Meaning.resolved_evaluateAll children covers shown member
    exact intact.resolve (InputState.hasNoBrace_shown plain)

/-- The gauge, whose title is a placeholder, and an input that shows a number. -/
theorem isIntact_of_compile_gauge : ∃ compiled,
    (compile {} gauge "Gauge.dash").outcome = .ok compiled ∧
      (∃ text g, preprocess gauge = .ok text ∧ generate text "Gauge.dash" = .ok g ∧
        compiled.code = g.code ∧ ∀ line ∈ g.lines, ∀ props, line.instruction.props? = some props →
          ∀ text ∈ entryTexts props, IsIntact text) ∧
        ∀ text ∈ RenderNode.propTextsAll (compiled.component.render [("a", .str "12")]),
          HasNoBrace text.toList := by
  obtain ⟨compiled, h⟩ := exists_compiled_gauge
  obtain ⟨intact, plain⟩ := isIntact_of_compile rfl h
  refine ⟨compiled, h, intact, plain _ ?_⟩
  unfold HasNoBrace
  decide

end Compiler

end Dashboard
