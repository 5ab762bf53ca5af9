import Dashboard.Proofs.Compiler.Verdict
import Dashboard.Proofs.Sandbox.Confinement

/-!
What a module can reach. Whatever text is loaded mounts what it imports and shows widgets of the
sandbox only; a compiled document imports displays of the registry under their own names, whatever
its author has written.
-/
namespace Dashboard

theorem standard_imports : ∀ entry ∈ Capabilities.standard,
    entry.1 ∈ Registry.displayNames ∧ entry.2 = ⟨entry.1, true⟩ := by
  decide

/-- A compiled document imports all displays of the registry, or nothing. -/
theorem Compiler.imports_of_compile {compiler : Compiler} {source filename : String}
    {compiled : CompiledModule} (h : (compiler.compile source filename).outcome = .ok compiled) :
    compiled.component.imports = [] ∨ compiled.component.imports = Capabilities.standard := by
  obtain ⟨text, processed, b, out, cs, -, -, generated, -, component⟩ := isGenerated_of_compile h
  rw [component]
  exact (generated.imports_eq filename).imp And.right And.right

example : Dictionary.keys Capabilities.standard = ["Chart", "Filter", "Grid"] := by decide +kernel

/-- A loaded module is confined to the widgets of its sandbox, and a compiled document to the
displays of the registry. -/
theorem confined_of_widgets :
    (∀ (widgets : List Widget) (limits : SandboxLimits) (code : String) (m : LoadedModule),
      Sandbox.load ⟨.ofWidgets widgets, limits⟩ code = .ok m →
        (∀ binding ∈ bindingsAll m.body, Dictionary.contains m.imports binding = true) ∧
        ∀ (state : InputState), ∀ name ∈ widgetNamesAll (m.render state),
          Dictionary.contains (Capabilities.ofWidgets widgets) name = true) ∧
      ∀ (compiler : Compiler) (source filename : String) (compiled : CompiledModule),
        (compiler.compile source filename).outcome = .ok compiled →
          ∀ entry ∈ compiled.component.imports,
            entry.1 ∈ Registry.displayNames ∧ entry.2 = ⟨entry.1, true⟩ := by
  constructor
  · intro widgets limits code m loaded
    exact Sandbox.confined_of_load (Capabilities.areNamed_ofWidgets widgets) loaded
  · intro compiler source filename compiled h
    rcases Compiler.imports_of_compile h with none | all
    · simp [none]
    · rw [all]
      exact standard_imports

/-- A sandbox with a widget that always shows, and the gauge. -/
theorem confined_of_widgets_gauge :
    (∃ m, Sandbox.load ⟨.ofWidgets [⟨"Note", false⟩], {}⟩
        "import Hint from \"Note\"\nopen Hint \x7b\x7d\nmount Hint \x7b\x7d\nclose" = .ok m ∧
      ∀ (state : InputState), ∀ name ∈ widgetNamesAll (m.render state),
        Dictionary.contains (Capabilities.ofWidgets [⟨"Note", false⟩]) name = true) ∧
      ∃ compiled, (Compiler.compile {} gauge "Gauge.dash").outcome = .ok compiled ∧
        ∀ entry ∈ compiled.component.imports,
          entry.1 ∈ Registry.displayNames ∧ entry.2 = ⟨entry.1, true⟩ := by
  obtain ⟨confined, named⟩ := confined_of_widgets
  constructor
  · have loads : (Sandbox.load ⟨.ofWidgets [⟨"Note", false⟩], {}⟩
        "import Hint from \"Note\"\nopen Hint \x7b\x7d\nmount Hint \x7b\x7d\nclose").toOption.isSome =
          true := by
      decide +kernel
    obtain ⟨m, found⟩ := Option.isSome_iff_exists.mp loads
    have loaded := toOption_eq_some.mp found
    exact ⟨m, loaded, (confined _ _ _ m loaded).2⟩
  · obtain ⟨compiled, h⟩ := exists_compiled_gauge
    exact ⟨compiled, h, named {} gauge "Gauge.dash" compiled h⟩

end Dashboard
