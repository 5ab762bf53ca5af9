import Dashboard.Proofs.Compiler.Verdict
import Dashboard.Proofs.Compiler.Violations
import Dashboard.Proofs.Sandbox.Running

/-!
The name of a file. It is printed on one line of the module and read back from that line, and nothing
that is generated, loaded, refused or counted depends on it. A check, which compiles under a name of
its own, therefore decides as any compilation does. Nor does the script policy matter to a document
without a script.
-/
namespace Dashboard

open Dashboard.Module (Instruction LoadError)
open Dashboard.Text (EndsInLine)

namespace Module

/-- The first two lines of a module: a comment, and the line that names it. -/
def heading (filename : String) : String :=
  "// dashc module\n" ++ (Instruction.title filename).line ++ "\n"

theorem toList_lineFeed : "\n".toList = ['\n'] := by decide

theorem toList_comment : "// dashc module\n".toList = "// dashc module".toList ++ ['\n'] := by
  decide

theorem toList_heading (filename : String) :
    (heading filename).toList =
      "// dashc module".toList ++ '\n' :: ((Instruction.title filename).line.toList ++ ['\n']) := by
  unfold heading
  simp only [String.toList_append, toList_comment, toList_lineFeed, List.append_assoc,
    List.cons_append, List.nil_append]

theorem toList_title (filename : String) :
    (Line.text ⟨0, .title filename⟩).toList = (Instruction.title filename).line.toList := by
  simp only [Line.text, Nat.mul_zero, List.replicate_zero, String.ofList_nil, String.empty_append]

theorem text_cons (filename : String) (more : List Line) :
    Module.text (⟨0, .title filename⟩ :: more) =
      heading filename ++ String.join (more.map fun line => line.text ++ "\n") := by
  have others : (more.map fun line => line.text ++ "\n").flatMap String.toList =
      ((more.map Line.text).map String.toList).flatMap (· ++ ['\n']) := by
    simp only [List.flatMap_map, String.toList_append, toList_lineFeed]
  rw [← String.toList_inj, toList_text, String.toList_append, String.toList_join, toList_heading,
    others]
  simp only [List.map_cons, List.flatMap_cons, toList_title, List.append_assoc, List.cons_append,
    List.nil_append]

theorem endsInLine_title (filename : String) :
    EndsInLine (Instruction.title filename).line.toList := by
  obtain ⟨-, c, last, visible⟩ := Instruction.isTight_line (i := .title filename) trivial
  exact endsInLine_of_visible last visible

/-- The name stands on a line of its own, whatever characters it has. -/
theorem lines_heading (filename tail : String) :
    Text.lines (heading filename ++ tail).toList =
      "// dashc module".toList :: (Instruction.title filename).line.toList ::
        Text.lines tail.toList := by
  have shape : (heading filename ++ tail).toList = "// dashc module".toList ++ '\n' ::
      ((Instruction.title filename).line.toList ++ '\n' :: tail.toList) := by
    simp only [String.toList_append, toList_heading, List.append_assoc, List.cons_append,
      List.nil_append]
  have noFeed : '\n' ∉ (Instruction.title filename).line.toList :=
    Instruction.lineFeed_not_mem_line (i := .title filename) trivial
  rw [shape, Text.lines_append_lineFeed (by decide),
    Text.lines_append_lineFeed (endsInLine_title filename),
    Text.lines_of_lineFeed_not_mem (endsInLine_title filename) noFeed,
    Text.lines_of_lineFeed_not_mem (by decide) (by decide)]
  rfl

end Module

/-! Loading. -/

def LoadedModule.named (filename : String) (m : LoadedModule) : LoadedModule :=
  { m with filename := filename }

namespace Loader

def named (filename : String) (l : Loader) : Loader :=
  { l with loaded := l.loaded.named filename }

variable {capabilities : Capabilities} {limits : SandboxLimits}

theorem push_named (filename : String) (l : Loader) (content : Content) :
    (l.named filename).push content = (l.push content).named filename := by
  unfold push
  cases stack : l.stack <;> simp [named, LoadedModule.named, stack]

theorem enter_named (filename : String) (l : Loader) (frame : Frame) :
    (l.named filename).enter limits frame = (l.enter limits frame).map (named filename) := by
  unfold enter
  by_cases deep : limits.maxDepth ≤ l.stack.length
  · simp [named, deep, Except.map]
  · simp [named, deep, Except.map]

/-- An instruction does the same whatever the module is called so far. -/
theorem execute_named (filename : String) (number : Nat) (l : Loader) (i : Instruction) :
    (execute capabilities limits number (l.named filename) i).map (named filename) =
      (execute capabilities limits number l i).map (named filename) := by
  have twice (x : Except LoadError Loader) :
      (x.map (named filename)).map (named filename) = x.map (named filename) := by
    cases x <;> rfl
  have pushed (l : Loader) (content : Content) :
      (Except.ok ((l.named filename).push content) : Except LoadError Loader).map (named filename) =
        (Except.ok (l.push content)).map (named filename) := by
    rw [push_named]
    rfl
  cases i with
  | title | param | constant => rfl
  | bind name source =>
    rw [execute, execute]
    cases Dictionary.find? capabilities source <;> rfl
  | mount | text | shown => exact pushed l _
  | openWidget binding props =>
    rw [execute, execute, enter_named, twice]
  | whenInput name =>
    rw [execute, execute, enter_named, twice]
  | closeWidget =>
    obtain ⟨loaded, stack, instructions⟩ := l
    rw [execute, execute]
    simp only [named]
    split
    · exact pushed ⟨loaded, _, instructions⟩ _
    · rfl
  | otherwise =>
    obtain ⟨loaded, stack, instructions⟩ := l
    rw [execute, execute]
    simp only [named]
    split <;> rfl
  | endWhen =>
    obtain ⟨loaded, stack, instructions⟩ := l
    rw [execute, execute]
    simp only [named]
    split
    · exact pushed ⟨loaded, _, instructions⟩ _
    · rfl

theorem line_named (filename : String) (number : Nat) (l : Loader) (text : List Char) :
    (line capabilities limits number (l.named filename) text).map (named filename) =
      (line capabilities limits number l text).map (named filename) := by
  rw [line, line]
  change Except.map _ (if _ then _ else if limits.maxInstructions < l.instructions + 1 then _ else
    (Instruction.read (Dictionary.contains l.loaded.imports) number text >>= _)) = _
  split_ifs
  · rfl
  · rfl
  · cases Instruction.read (Dictionary.contains l.loaded.imports) number text with
    | error e => rfl
    | ok i => exact execute_named filename number { l with instructions := l.instructions + 1 } i

theorem lines_named (filename : String) (texts : List (List Char)) (number : Nat) (l : Loader) :
    (lines capabilities limits number (l.named filename) texts).map (named filename) =
      (lines capabilities limits number l texts).map (named filename) := by
  induction texts generalizing number l with
  | nil => rfl
  | cons first more ih =>
    have step := @line_named capabilities limits filename number l (Text.trim first)
    rw [lines, lines]
    cases here : line capabilities limits number l (Text.trim first) with
    | error e =>
      rw [here] at step
      rw [map_eq_error.mp step]
    | ok next =>
      rw [here] at step
      obtain ⟨other, found, same⟩ := map_eq_ok.mp step
      rw [found]
      change (lines capabilities limits (number + 1) other more).map _ =
        (lines capabilities limits (number + 1) next more).map _
      rw [← ih (number + 1) other, same, ih (number + 1) next]

theorem finish_named (filename : String) (l : Loader) :
    (l.named filename).finish = l.finish.map (LoadedModule.named filename) := by
  unfold finish
  cases stack : l.stack <;> simp [named, stack, Except.map]

/-- The heading counts as one instruction, which leaves its name behind. -/
theorem lines_heading (filename tail : String) :
    lines capabilities limits 1 {} (Text.lines (Module.heading filename ++ tail).toList) =
      if limits.maxInstructions < 1 then .error (.tooManyInstructions limits.maxInstructions)
      else lines capabilities limits 3 (named filename { instructions := 1 })
        (Text.lines tail.toList) := by
  have plain : (Instruction.title filename).IsPlain := trivial
  have title : line capabilities limits 2 {} (Text.trim (Instruction.title filename).line.toList) =
      if limits.maxInstructions < 1 then .error (.tooManyInstructions limits.maxInstructions)
      else .ok (named filename { instructions := 1 }) := by
    rw [(Instruction.isTight_line plain).trim, line, Instruction.holdsInstruction_line,
      Instruction.read_line _ _ plain]
    rfl
  rw [Module.lines_heading, lines, line_comment, ok_bind, lines, title]
  split_ifs <;> rfl

end Loader

/-- A module is loaded whatever name its heading gives it, and is the same but for that name. -/
theorem Sandbox.load_heading (s : Sandbox) (a b tail : String) :
    (s.load (Module.heading a ++ tail)).map (LoadedModule.named "") =
      (s.load (Module.heading b ++ tail)).map (LoadedModule.named "") := by
  have finished (x : Except LoadError Loader) :
      (x >>= Loader.finish).map (LoadedModule.named "") =
        x.map (Loader.named "") >>= Loader.finish := by
    cases x with
    | error e => rfl
    | ok l => exact (Loader.finish_named "" l).symm
  have unnamed (filename : String) :
      (s.load (Module.heading filename ++ tail)).map (LoadedModule.named "") =
        if s.limits.maxInstructions < 1 then
          .error (.tooManyInstructions s.limits.maxInstructions)
        else (Loader.lines s.capabilities s.limits 3 (Loader.named "" { instructions := 1 })
          (Text.lines tail.toList)).map (Loader.named "") >>= Loader.finish := by
    rw [Sandbox.load, Loader.lines_heading, finished]
    split_ifs
    · rfl
    · have renamed := @Loader.lines_named s.capabilities s.limits "" (Text.lines tail.toList) 3 (Loader.named filename { instructions := 1 })
      rw [← renamed]
      rfl
  rw [unnamed a, unnamed b]

/-! Generating. -/

/-- The lines of a module below its heading. -/
def Generate.restLines (b : Bindings) (out : Output) : List Module.Line :=
  ((b.imports.map fun entry => Instruction.bind entry.1 entry.2) ++ out.params ++
      b.constants.map fun entry => Instruction.constant entry.1 entry.2).map (Module.Line.mk 0) ++
    out.body

theorem Generate.lines_eq (filename : String) (b : Bindings) (out : Output) :
    Generate.lines filename b out = ⟨0, .title filename⟩ :: restLines b out := rfl

/-- A first step that does not depend on the name leaves it to the steps behind it. -/
theorem exists_bind {ι ε α β γ δ : Type} {shown : β → γ} {made : ι → δ → γ} (first : Except ε α)
    {step : ι → α → Except ε β}
    (h : ∀ a, ∃ r : Except ε δ, ∀ i, (step i a).map shown = r.map (made i)) :
    ∃ r : Except ε δ, ∀ i, (first >>= step i).map shown = r.map (made i) := by
  cases first with
  | error e => exact ⟨.error e, fun _ => rfl⟩
  | ok a => exact h a

/-- The name is the heading of what is generated, and nothing else depends on it. -/
theorem exists_generate (text : String) :
    ∃ r : Except Failure (String × List GenerateWarning), ∀ filename,
      (generate text filename).map (fun g => (g.code, g.warnings)) =
        r.map fun found => (Module.heading filename ++ found.1, found.2) := by
  unfold generate
  refine exists_bind _ fun document => exists_bind _ fun program => ?_
  refine exists_bind _ fun b => exists_bind _ fun out => ?_
  refine ⟨.ok (String.join ((Generate.restLines b out).map fun line => line.text ++ "\n"),
    b.warnings ++ out.warnings), fun filename => ?_⟩
  have code := Module.text_cons filename (Generate.restLines b out)
  rw [← Generate.lines_eq] at code
  exact congrArg (fun code => Except.ok (code, b.warnings ++ out.warnings)) code

namespace Compiler

variable (compiler : Compiler) (source : String)

/-- Behind the gate the name decides neither what is built nor what fails. -/
theorem exists_build :
    ∃ r : Except Failure (String × LoadedModule × List GenerateWarning), ∀ filename,
      (compiler.build source filename).map
          (fun built => (built.1.code, built.1.component.named "", built.2)) =
        r.map fun found => (Module.heading filename ++ found.1, found.2) := by
  unfold build
  cases (preprocess source).mapError ParseError.failure with
  | error f => exact ⟨.error f, fun filename => rfl⟩
  | ok text =>
    simp only [ok_bind]
    obtain ⟨r, generated⟩ := exists_generate text
    cases r with
    | error f =>
      refine ⟨.error f, fun filename => ?_⟩
      rw [map_eq_error.mp (generated filename)]
      rfl
    | ok found =>
      obtain ⟨tail, warnings⟩ := found
      refine ⟨((compiler.sandbox.load (Module.heading "" ++ tail)).mapError .ofLoadError).map
        fun m => (tail, m.named "", warnings), fun filename => ?_⟩
      obtain ⟨g, built, same⟩ := map_eq_ok.mp (generated filename)
      obtain ⟨code, rfl⟩ := Prod.mk.inj same
      have loaded := compiler.sandbox.load_heading "" filename tail
      rw [built, ok_bind, code]
      cases named : compiler.sandbox.load (Module.heading filename ++ tail) with
      | error e =>
        rw [named] at loaded
        rw [map_eq_error.mp loaded]
        rfl
      | ok m =>
        rw [named] at loaded
        obtain ⟨other, unnamed, same⟩ := map_eq_ok.mp loaded
        rw [unnamed]
        exact congrArg (fun m => Except.ok (Module.heading filename ++ tail, m, g.warnings)) same.symm

/-- Of an artifact, all but the heading of its code is fixed by the source. -/
theorem exists_compile :
    ∃ (warnings : List Warning) (r : Except Failure String), ∀ filename,
      (compiler.compile source filename).warnings = warnings ∧
        (compiler.compile source filename).outcome.map CompiledModule.code =
          r.map (Module.heading filename ++ ·) := by
  by_cases clean : (gate compiler.policy source).violations = []
  · obtain ⟨r, built⟩ := compiler.exists_build source
    have before : (!(gate compiler.policy source).violations.isEmpty) = false := by simp [clean]
    cases r with
    | error f =>
      refine ⟨(gate compiler.policy source).warnings.map .component, .error f, fun filename => ?_⟩
      rw [compile, map_eq_error.mp (built filename), before]
      exact ⟨rfl, rfl⟩
    | ok found =>
      obtain ⟨tail, m, more⟩ := found
      refine ⟨(gate compiler.policy source).warnings.map .component ++ more.map .generation,
        .ok tail, fun filename => ?_⟩
      obtain ⟨⟨compiled, warnings⟩, success, same⟩ := map_eq_ok.mp (built filename)
      obtain ⟨code, rest⟩ := Prod.mk.inj same
      obtain ⟨-, rfl⟩ := Prod.mk.inj rest
      rw [compile, success, before]
      exact ⟨rfl, congrArg Except.ok code⟩
  · refine ⟨(gate compiler.policy source).warnings.map .component,
      .error (gate compiler.policy source).failure, fun filename => ?_⟩
    have before : (!(gate compiler.policy source).violations.isEmpty) = true := by simp [clean]
    rw [compile, before]
    exact ⟨rfl, rfl⟩

/-- Two compilations of one text under different names. -/
theorem compile_named (a b : String) :
    let first := compiler.compile source a
    let second := compiler.compile source b
    first.success = second.success ∧ first.warnings = second.warnings ∧
      first.failure? = second.failure? ∧ ∃ tail : Option String,
        first.code? = tail.map (Module.heading a ++ ·) ∧
        second.code? = tail.map (Module.heading b ++ ·) := by
  intro first second
  obtain ⟨warnings, r, fixed⟩ := compiler.exists_compile source
  obtain ⟨said, outcome⟩ := fixed a
  obtain ⟨said', outcome'⟩ := fixed b
  cases r with
  | error f =>
    have failed : first.outcome = .error f := map_eq_error.mp outcome
    have failed' : second.outcome = .error f := map_eq_error.mp outcome'
    simp [Artifact.success, Artifact.failure?, Artifact.code?, failed, failed', first, second,
      said, said']
  | ok tail =>
    obtain ⟨m, built, code⟩ := map_eq_ok.mp outcome
    obtain ⟨m', built', code'⟩ := map_eq_ok.mp outcome'
    refine ⟨?_, said.trans said'.symm, ?_, some tail, ?_, ?_⟩
    · simp only [first, second, Artifact.success, built, built']
    · simp only [first, second, Artifact.failure?, built, built']
    · simp only [first, Artifact.code?, built, code, Option.map_some]
    · simp only [second, Artifact.code?, built', code', Option.map_some]

end Compiler

/-! Failures always say something. -/

section Messages

variable {a b : String}

theorem append_ne_nil_left (some : a.toList ≠ []) : (a ++ b).toList ≠ [] := by
  rw [String.toList_append]
  exact List.append_ne_nil_of_left_ne_nil some _

theorem append_ne_nil_right (some : b.toList ≠ []) : (a ++ b).toList ≠ [] := by
  rw [String.toList_append]
  exact List.append_ne_nil_of_right_ne_nil _ some

theorem ParseError.message_ne_nil (e : ParseError) : e.message.toList ≠ [] := by
  obtain ⟨c, last, -⟩ := e.endsInLine_message
  exact List.ne_nil_of_mem (List.mem_of_getLast? last)

theorem CompileError.message_ne_nil (e : CompileError) : e.message.toList ≠ [] :=
  append_ne_nil_left (append_ne_nil_right (by decide))

theorem Module.LoadError.message_ne_nil (e : LoadError) : e.message.toList ≠ [] := by
  cases e with
  | malformed => exact append_ne_nil_left (append_ne_nil_right (by decide))
  | tooManyInstructions | undefinedBinding => exact append_ne_nil_right (by decide)
  | unbalanced | unknownInstruction =>
    exact append_ne_nil_left (append_ne_nil_right (by decide))
  | unclosedBlock => decide
  | _ => exact append_ne_nil_left (by decide)

end Messages

namespace Compiler

variable {compiler : Compiler} {source filename : String} {f : Failure}

theorem generate_ne_silent (silent : f.authorMessage.toList = []) :
    generate source filename ≠ .error f := by
  have parse (e : ParseError) : e.failure ≠ f := by
    rintro rfl
    exact e.message_ne_nil silent
  have compile (e : CompileError) : Failure.ofCompileError e ≠ f := by
    rintro rfl
    exact e.message_ne_nil silent
  refine bind_ne_error (mapError_ne_error parse _) fun document => ?_
  refine bind_ne_error (mapError_ne_error parse _) fun program => ?_
  refine bind_ne_error (mapError_ne_error compile _) fun b => ?_
  refine bind_ne_error (mapError_ne_error compile _) fun out => ?_
  rintro ⟨⟩

theorem build_ne_silent (silent : f.authorMessage.toList = []) :
    compiler.build source filename ≠ .error f := by
  have parse (e : ParseError) : e.failure ≠ f := by
    rintro rfl
    exact e.message_ne_nil silent
  have load (e : LoadError) : Failure.ofLoadError e ≠ f := by
    rintro rfl
    exact e.message_ne_nil silent
  refine bind_ne_error (mapError_ne_error parse _) fun text => ?_
  refine bind_ne_error (generate_ne_silent silent) fun g => ?_
  refine bind_ne_error (mapError_ne_error load _) fun component => ?_
  rintro ⟨⟩

/-- Every failure is reported with a line of text at least. -/
theorem lines_ne_nil_of_failure (h : (compiler.compile source filename).outcome = .error f) :
    Text.lines f.authorMessage.toList ≠ [] := by
  by_cases clean : (gate compiler.policy source).violations = []
  · rw [outcome_of_gate clean, map_eq_error] at h
    exact Text.lines_ne_nil fun silent => build_ne_silent silent h
  · rw [outcome_of_violations clean] at h
    have same := Except.error.inj h
    have joined : f.authorMessage =
        "\n".intercalate ((gate compiler.policy source).violations.map Violation.message) := by
      rw [← same, GateReport.failure]
      split_ifs <;> rfl
    have ended : ∀ message ∈ (gate compiler.policy source).violations.map Violation.message,
        EndsInLine message.toList :=
      List.forall_mem_map.mpr (endsInLine_gate compiler.policy source)
    have lines := lines_authorMessage ended
    rw [Failure.authorMessage, ← joined] at lines
    intro none
    rw [none] at lines
    obtain ⟨first, more, shape⟩ := List.exists_cons_of_ne_nil clean
    rw [shape, List.map_cons, messageLines, List.flatMap_cons] at lines
    have empty := (List.append_eq_nil_iff.mp lines.symm).1
    obtain ⟨c, last, -⟩ := ended first.message (by simp [shape])
    exact Text.lines_ne_nil (List.ne_nil_of_mem (List.mem_of_getLast? last))
      (List.map_eq_nil_iff.mp empty)

/-- A check fails with at least one line where the compilation under its own name fails. -/
theorem isValid_check (compiler : Compiler) (source : String) :
    (compiler.check source).isValid = (compiler.compile source "check.dash").success := by
  rw [check, Artifact.failure?, Artifact.success]
  cases outcome : (compiler.compile source "check.dash").outcome with
  | ok compiled => rfl
  | error f =>
    have lines := lines_ne_nil_of_failure outcome
    simp [Verdict.isValid, lines]

/-- Without a script region the policy has nothing to judge. -/
theorem compile_of_scriptless {document : Markup.Document}
    (parsed : Markup.parse source = .ok document) (scriptless : document.script = none)
    (policy : ScriptPolicy) (filename : String) :
    Compiler.compile { compiler with policy := policy } source filename =
      compiler.compile source filename := by
  have same : gate policy source = gate compiler.policy source := by
    simp only [gate, parsed, scriptless, ScriptPolicy.enforce]
  rw [compile, compile, same]
  rfl

/-- Whether a document is accepted does not depend on the name of its file, and without a script
not on the script policy. -/
theorem acceptance_of_filename (compiler : Compiler) (source : String) :
    (∀ a b, let first := compiler.compile source a
      let second := compiler.compile source b
      first.success = second.success ∧ first.warnings = second.warnings ∧
        first.failure? = second.failure? ∧ ∃ tail : Option String,
          first.code? = tail.map (Module.heading a ++ ·) ∧
          second.code? = tail.map (Module.heading b ++ ·)) ∧
      (∀ filename,
        (compiler.check source).isValid = (compiler.compile source filename).success) ∧
      ∀ document, Markup.parse source = .ok document → document.script = none →
        ∀ policy filename, Compiler.compile { compiler with policy := policy } source filename =
          compiler.compile source filename := by
  refine ⟨compiler.compile_named source, fun filename => ?_, fun document parsed scriptless =>
    compile_of_scriptless parsed scriptless⟩
  rw [isValid_check]
  exact (compiler.compile_named source "check.dash" filename).1

/-- The gauge under two names, one of which looks like lines of a module, and with a policy that
would look into a script. -/
theorem acceptance_of_filename_gauge :
    (Compiler.compile {} gauge "Gauge.dash").success = true ∧
      (Compiler.compile {} gauge "Gauge\"\nclose\n").success = true ∧
      (Compiler.check {} gauge).isValid = true ∧
      Compiler.compile { policy := .permissive } gauge "Gauge.dash" =
        Compiler.compile {} gauge "Gauge.dash" := by
  obtain ⟨named, valid, scriptless⟩ := acceptance_of_filename {} gauge
  obtain ⟨compiled, h⟩ := exists_compiled_gauge
  have success : (Compiler.compile {} gauge "Gauge.dash").success = true := by
    rw [Artifact.success, h]
  have plain : (Markup.parse gauge).toOption.any fun document => document.script.isNone := by
    have chars : gauge.toList = _ := String.toList_ofList
    rw [Markup.parse_of_toList chars]
    decide +kernel
  obtain ⟨document, parsed, none⟩ := (Option.any_eq_true _ _).mp plain
  refine ⟨success, ?_, ?_, ?_⟩
  · rw [← (named "Gauge.dash" _).1]
    exact success
  · rw [valid "Gauge.dash"]
    exact success
  · exact scriptless document (toOption_eq_some.mp parsed) (Option.isNone_iff_eq_none.mp none)
      .permissive "Gauge.dash"

end Compiler

end Dashboard
