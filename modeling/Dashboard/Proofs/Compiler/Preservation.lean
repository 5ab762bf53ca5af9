import Dashboard.Proofs.Compiler.Verdict

/-!
Compilation preserves meaning. What a compiled document renders is what the tree of its preprocessed
text means, whatever values the inputs have. Doubles go through the text of the module on the way;
they are what that text is read back as.
-/
namespace Dashboard

open Dashboard.Json (reread)

namespace Compiler

/-- What a compiled document renders is what its preprocessed tree means, its doubles as they are
read back; that is the meaning itself exactly when each of them is read back as itself. -/
theorem render_eq_meaning {compiler : Compiler} {source filename : String} {compiled : CompiledModule}
    (h : (compiler.compile source filename).outcome = .ok compiled) :
    ∃ text processed, preprocess source = .ok text ∧ Markup.parse text = .ok processed ∧
      ∀ state, compiled.component.render state =
          RenderNode.relayedAll (Meaning.ofDocument processed state) ∧
        (compiled.component.render state = Meaning.ofDocument processed state ↔
          ∀ x ∈ RenderNode.doublesAll (Meaning.ofDocument processed state), reread x = x) := by
  obtain ⟨text, processed, b, out, cs, prepared, parsed, generated, -, component⟩ :=
    isGenerated_of_compile h
  refine ⟨text, processed, prepared, parsed, fun state => ?_⟩
  have rendered : compiled.component.render state =
      RenderNode.relayedAll (Meaning.ofDocument processed state) := by
    rw [component, generated.render]
  refine ⟨rendered, ?_⟩
  rw [rendered]
  exact RenderNode.relayedAll_eq_self _

/-- The document of the gauge. -/
theorem render_eq_meaning_gauge : ∃ compiled, (compile {} gauge "Gauge.dash").outcome = .ok compiled ∧
    ∃ text processed, preprocess gauge = .ok text ∧ Markup.parse text = .ok processed ∧
      ∀ state, compiled.component.render state =
          RenderNode.relayedAll (Meaning.ofDocument processed state) ∧
        (compiled.component.render state = Meaning.ofDocument processed state ↔
          ∀ x ∈ RenderNode.doublesAll (Meaning.ofDocument processed state), reread x = x) := by
  obtain ⟨compiled, h⟩ := exists_compiled_gauge
  exact ⟨compiled, h, render_eq_meaning h⟩

set_option maxRecDepth 4000 in
/-- The number of the gauge is read back as 9.1, so the gauge does not render what it means. -/
theorem render_gauge_ne_meaning : ∃ compiled text processed,
    (compile {} gauge "Gauge.dash").outcome = .ok compiled ∧ preprocess gauge = .ok text ∧
      Markup.parse text = .ok processed ∧
      compiled.component.render [] ≠ Meaning.ofDocument processed [] := by
  obtain ⟨compiled, h⟩ := exists_compiled_gauge
  obtain ⟨text, processed, b, out, cs, prepared, parsed, generated, -, component⟩ :=
    isGenerated_of_compile h
  have shown : ((preprocess gauge).toOption.bind fun text => (Markup.parse text).toOption).map
      (fun document => RenderNode.doublesAll (Meaning.ofDocument document [])) =
        some [.ofDecimal false 9100000000000001 (-15)] := by
    have chars : gaugeText.toList = _ := String.toList_ofList
    rw [preprocess_gauge, Option.bind_some, Markup.parse_of_toList chars]
    decide +kernel
  have doubles : RenderNode.doublesAll (Meaning.ofDocument processed []) =
      [.ofDecimal false 9100000000000001 (-15)] := by
    simpa [prepared, parsed, Except.toOption] using shown
  refine ⟨compiled, text, processed, h, prepared, parsed, ?_⟩
  rw [component, generated.render, ne_eq, RenderNode.relayedAll_eq_self, doubles,
    List.forall_mem_singleton]
  decide +kernel

end Compiler

end Dashboard
