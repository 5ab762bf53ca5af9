import Dashboard.Proofs.Compiler.Stages
import Dashboard.Proofs.Generate.Texts

/-!
Constants and the placeholder rule. Validation sees the text of an attribute and the texts in a literal,
but of a constant only the name: the texts in a module that it would refuse are those of the constants
that attributes name.
-/
namespace Dashboard

open Dashboard.Json (entryTexts mem_entryTexts)
open Dashboard.Markup (HasOpenScript outerAll)
open Dashboard.Placeholder (violations)

/-- The text of a constant that is the value of an attribute stands in a prop. -/
theorem Generate.IsGenerated.inlined {document : Markup.Document} {b : Bindings} {out : Output}
    {cs : List Content} (h : IsGenerated document b out cs) (filename : String) {text : String}
    (inlined : IsInlined b.constants (outerAll document.children) text) :
    ∃ i ∈ instructions filename b out, ∃ props, i.props? = some props ∧ text ∈ entryTexts props := by
  obtain ⟨e, element, a, written, name, value, named, found, inside⟩ := inlined
  obtain ⟨i, member, props, carried, prop⟩ := h.generates.carried element written
  rw [Meaning.value_of_bareName? b.constants named, found] at prop
  refine ⟨i, ?_, props, carried,
    mem_entryTexts.mpr ⟨_, Dictionary.mem_of_find?_eq_some prop, inside⟩⟩
  simp only [instructions_eq, declarations, List.mem_append]
  rcases List.mem_append.mp member with declared | content
  · exact Or.inl (Or.inl (Or.inr declared))
  · exact Or.inr content

namespace Compiler

/-- Whatever validation would refuse in a prop of a module comes of a constant that is the value of an
attribute, and whatever it would refuse in such a constant stands in a prop. -/
theorem refused_iff_inlined {compiler : Compiler} {source filename : String} {document : Markup.Document}
    {compiled : CompiledModule} (parsed : Markup.parse source = .ok document)
    (isOpen : HasOpenScript source document)
    (h : (compiler.compile source filename).outcome = .ok compiled) :
    ∃ text g processed, preprocess source = .ok text ∧ generate text filename = .ok g ∧
      compiled.code = g.code ∧ Markup.parse text = .ok processed ∧
      ∀ text, violations text ≠ [] →
        ((∃ line ∈ g.lines, ∃ props, line.instruction.props? = some props ∧ text ∈ entryTexts props) ↔
          IsInlined (Meaning.declared processed) (outerAll processed.children) text) := by
  obtain ⟨⟨other, clean⟩, text, g, prepared, generated, -, code⟩ := compile_eq_ok.mp h
  obtain rfl : other = document := Except.ok.inj (clean.parsed.symm.trans parsed)
  obtain ⟨processed, b, out, cs, again, isGenerated, lines⟩ :=
    isGenerated_of_generate clean prepared generated
  have same : Markup.SameMarkup processed.children other.children := by
    obtain ⟨text', processed', -, prepared', again', same, -⟩ :=
      Markup.exists_preprocessed parsed isOpen
    obtain rfl : text = text' := Except.ok.inj (prepared.symm.trans prepared')
    obtain rfl : processed = processed' := Except.ok.inj (again.symm.trans again')
    exact same
  have pass : Component.PassAll processed.children :=
    Component.passAll_of_classified (Component.classifyAll_same none false {} same) clean.components
  have covers := covers_of_faultless b.constants (Component.faultless_outerAll _ pass)
  refine ⟨text, g, processed, prepared, generated, code, again, fun refused fault => ?_⟩
  rw [lines, ← isGenerated.constants]
  constructor
  · rintro ⟨line, member, props, carried, inside⟩
    exact (isGenerated.texts covers filename line.instruction (List.mem_map_of_mem member) props carried
      refused inside).resolve_left fault
  · intro inlined
    obtain ⟨i, member, props, carried, inside⟩ := isGenerated.inlined filename inlined
    obtain ⟨line, written, rfl⟩ := List.mem_map.mp member
    exact ⟨line, written, props, carried, inside⟩

example : violations "\x7bevil\x7d" ≠ [] ∧ violations "\x7binputs.evil\x7d" = [] := by decide +kernel

/-- A script with a constant in braces, and a chart that it is the title of. -/
def braced : String :=
  "<script>let chartTitle = '\x7bevil\x7d';</script>\n<Chart title=\x7bchartTitle\x7d />"

/-- The script with the standard imports. -/
def bracedText : String :=
  "<script>\nimport Chart from \"Chart\";\nimport Filter from \"Filter\";\nimport Grid from \"Grid\";\nlet chartTitle = '\x7bevil\x7d';</script>\n<Chart title=\x7bchartTitle\x7d />"

/-- What the script and the chart are generated into. -/
def bracedModule : String :=
  "// dashc module\nmodule \"Braced.dash\"\nimport Chart from \"Chart\"\nimport Filter from \"Filter\"\nimport Grid from \"Grid\"\nlet chartTitle \"\x7bevil\x7d\"\nmount Chart \x7b\"title\":\"\x7bevil\x7d\"\x7d\n"

set_option maxRecDepth 4000 in
theorem exists_compiled_braced : ∃ compiled,
    (Compiler.compile { policy := .permissive } braced "Braced.dash").outcome = .ok compiled ∧
      "\x7bevil\x7d" ∈ RenderNode.propTextsAll (compiled.component.render []) := by
  have chars : braced.toList = _ := String.toList_ofList
  have text : bracedText.toList = _ := String.toList_ofList
  have code : bracedModule.toList = _ := String.toList_ofList
  have prepared : preprocess braced = .ok bracedText := by
    refine Markup.preprocess_of_toList (Markup.importing_eq.trans String.toList_ofList) ?_
    rw [Markup.parse_of_toList chars, chars, text]
    decide +kernel
  obtain ⟨compiled, succeeded, texts⟩ := @exists_compiled_of_stages { policy := .permissive } braced
    "Braced.dash" (List String) bracedText bracedModule (fun m => RenderNode.propTextsAll (m.render []))
    ["\x7bevil\x7d"]
    (by rw [gate, Prefilter.scan, Markup.parse_of_toList chars, chars]; decide +kernel)
    (toOption_eq_some.mpr prepared) (code_of_toList text code (by decide +kernel))
    (by rw [Sandbox.load, code]; decide +kernel)
  exact ⟨compiled, succeeded, by rw [texts]; exact List.mem_singleton_self _⟩

theorem refused_iff_inlined_braced : ∃ document compiled,
    Markup.parse braced = .ok document ∧ HasOpenScript braced document ∧
      (Compiler.compile { policy := .permissive } braced "Braced.dash").outcome = .ok compiled ∧
      ∃ text g processed, preprocess braced = .ok text ∧ generate text "Braced.dash" = .ok g ∧
        compiled.code = g.code ∧ Markup.parse text = .ok processed ∧
        ∀ text, violations text ≠ [] →
          ((∃ line ∈ g.lines, ∃ props, line.instruction.props? = some props ∧
            text ∈ entryTexts props) ↔
            IsInlined (Meaning.declared processed) (outerAll processed.children) text) := by
  obtain ⟨compiled, succeeded, -⟩ := exists_compiled_braced
  have parses : ((Markup.parse braced).toOption.filter fun document =>
      decide (HasOpenScript braced document)).isSome = true := by
    have chars : braced.toList = _ := String.toList_ofList
    rw [Markup.parse_of_toList chars]
    decide +kernel
  obtain ⟨document, found⟩ := Option.isSome_iff_exists.mp parses
  obtain ⟨found, isOpen⟩ := Option.filter_eq_some_iff.mp found
  have parsed := toOption_eq_some.mp found
  exact ⟨document, compiled, parsed, of_decide_eq_true isOpen, succeeded,
    refused_iff_inlined parsed (of_decide_eq_true isOpen) succeeded⟩

/-- The chart is shown with a title that validation would refuse in an attribute. -/
theorem compile_braced : ∃ compiled,
    (Compiler.compile { policy := .permissive } braced "Braced.dash").outcome = .ok compiled ∧
      ∃ text ∈ RenderNode.propTextsAll (compiled.component.render []), violations text ≠ [] := by
  obtain ⟨compiled, succeeded, shown⟩ := exists_compiled_braced
  exact ⟨compiled, succeeded, _, shown, by decide +kernel⟩

end Compiler

end Dashboard
