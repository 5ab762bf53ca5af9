import Dashboard.Sandbox
import Dashboard.Proofs.Module.Lines

/-!
Loading a module by its instructions. A text that was written from plain instructions is loaded by
running them in order, each with its values as they come out of their text.
-/
namespace Dashboard

open Dashboard.Module (Instruction Line LoadError)

namespace Module

theorem toList_text (lines : List Line) :
    (Module.text lines).toList =
      (("// dashc module" :: lines.map Line.text).map String.toList).flatMap (· ++ ['\n']) := by
  rw [Module.text, String.toList_join]
  simp [List.flatMap_map]

/-- The characters of a line, from its operator and its operands. -/
def Line.letters (line : Line) : List Char :=
  List.replicate (2 * line.depth) ' ' ++ (line.instruction.parts.1.toList ++
    if line.instruction.parts.2 = [] then [] else ' ' :: line.instruction.parts.2)

theorem Line.toList_text (line : Line) : line.text.toList = line.letters := by
  rw [text, String.toList_append, String.toList_ofList, Instruction.toList_line, letters]

/-- The characters of a module, put together without its text. -/
def letters (lines : List Line) : List Char :=
  ("// dashc module".toList :: lines.map Line.letters).flatMap (· ++ ['\n'])

theorem toList_text_eq_letters (lines : List Line) : (Module.text lines).toList = letters lines := by
  have each : lines.map (String.toList ∘ Line.text) = lines.map Line.letters :=
    List.map_congr_left fun line _ => line.toList_text
  rw [toList_text, List.map_cons, List.map_map, each]
  rfl

theorem trim_lineText {line : Line} (plain : line.instruction.IsPlain) :
    Text.trim line.text.toList = line.instruction.line.toList := by
  rw [Line.text, String.toList_append, String.toList_ofList,
    Text.trim_blanks_append (Text.all_isBlank_replicate_space _)]
  exact (Instruction.isTight_line plain).trim

theorem lineFeed_not_mem_lineText {line : Line} (plain : line.instruction.IsPlain) :
    '\n' ∉ line.text.toList := by
  rw [Line.text, String.toList_append, String.toList_ofList, List.mem_append, not_or]
  refine ⟨?_, Instruction.lineFeed_not_mem_line plain⟩
  rw [List.mem_replicate]
  simp

/-- The lines of a module are those that were written. -/
theorem lines_text {written : List Line} (plain : ∀ line ∈ written, line.instruction.IsPlain) :
    Text.lines (Module.text written).toList =
      ("// dashc module" :: written.map Line.text).map String.toList := by
  have noFeed : ∀ text ∈ ("// dashc module" :: written.map Line.text).map String.toList,
      '\n' ∉ text := by
    rw [List.map_cons, List.map_map, List.forall_mem_cons, List.forall_mem_map]
    exact ⟨by decide, fun line member => lineFeed_not_mem_lineText (plain line member)⟩
  have kept : ∀ text ∈ ("// dashc module" :: written.map Line.text).map String.toList,
      Text.dropReturn text = text := by
    rw [List.map_cons, List.map_map, List.forall_mem_cons, List.forall_mem_map]
    refine ⟨by decide, fun line member => ?_⟩
    obtain ⟨-, c, last, visible⟩ := Instruction.isTight_line (plain line member)
    refine Text.dropReturn_of_getLast? ?_ visible
    rw [Function.comp_apply, Line.text, String.toList_append, List.getLast?_append, last]
    rfl
  rw [toList_text, Text.lines_flatMap noFeed]
  exact (List.map_congr_left kept).trans (List.map_id _)

end Module

namespace Loader

/-- Runs instructions in order within the limits. -/
def run (capabilities : Capabilities) (limits : SandboxLimits) (number : Nat) (l : Loader) :
    List Instruction → Except LoadError Loader
  | [] => .ok l
  | first :: more =>
    if limits.maxInstructions < l.instructions + 1 then
      .error (.tooManyInstructions limits.maxInstructions)
    else do
      let allowed ← first.allow (Dictionary.contains l.loaded.imports) number
      let next ← execute capabilities limits number { l with instructions := l.instructions + 1 }
        allowed
      run capabilities limits (number + 1) next more

variable {capabilities : Capabilities} {limits : SandboxLimits}

theorem line_instruction (number : Nat) (l : Loader) {i : Instruction} (plain : i.IsPlain)
    (more : List Instruction) :
    (line capabilities limits number l i.line.toList).bind
        (fun next => run capabilities limits (number + 1) next more) =
      run capabilities limits number l (i.relayed :: more) := by
  rw [line, run, Instruction.holdsInstruction_line, Instruction.read_line _ _ plain]
  by_cases full : limits.maxInstructions < l.instructions + 1
  · simp only [Bool.not_true, Bool.false_eq_true, if_false, full, if_true]
    rfl
  · simp only [Bool.not_true, Bool.false_eq_true, if_false, full]
    cases i.relayed.allow (Dictionary.contains l.loaded.imports) number <;> rfl

theorem lines_texts (number : Nat) (l : Loader) (all : List (List Char)) (is : List Instruction)
    (plain : ∀ i ∈ is, i.IsPlain) (h : all.map Text.trim = is.map fun i => i.line.toList) :
    lines capabilities limits number l all =
      run capabilities limits number l (is.map Instruction.relayed) := by
  induction is generalizing number l all with
  | nil =>
    obtain rfl : all = [] := by simpa using h
    rfl
  | cons i more ih =>
    obtain ⟨first, others, rfl⟩ : ∃ first others, all = first :: others := by
      cases all with
      | nil => simp at h
      | cons first others => exact ⟨first, others, rfl⟩
    obtain ⟨here, later⟩ : Text.trim first = i.line.toList ∧
        others.map Text.trim = more.map fun i => i.line.toList := by simpa using h
    rw [lines, here, List.map_cons, ← line_instruction number l (plain i (by simp))]
    congr 1
    funext next
    exact ih (number + 1) next others (fun j member => plain j (List.mem_cons_of_mem _ member)) later

/-- The comment in front of a module holds no instruction. -/
theorem line_comment (number : Nat) (l : Loader) :
    line capabilities limits number l (Text.trim "// dashc module".toList) = .ok l := by
  have shape : Text.trim "// dashc module".toList = "// dashc module".toList := by
    decide
  rw [shape, line]
  rfl

/-- A module is loaded by running its instructions. -/
theorem lines_text (written : List Line) (plain : ∀ line ∈ written, line.instruction.IsPlain) :
    lines capabilities limits 1 {} (Text.lines (Module.text written).toList) =
      run capabilities limits 2 {} (written.map fun line => line.instruction.relayed) := by
  have trimmed : ((written.map Line.text).map String.toList).map Text.trim =
      (written.map Line.instruction).map fun i => i.line.toList := by
    simp only [List.map_map]
    refine List.map_congr_left fun line member => ?_
    simp only [Function.comp_apply, Module.trim_lineText (plain line member)]
  rw [Module.lines_text plain, List.map_cons, lines, line_comment]
  show lines capabilities limits 2 {} _ = _
  rw [lines_texts 2 {} _ (written.map Line.instruction) (List.forall_mem_map.mpr plain) trimmed,
    List.map_map]
  rfl

end Loader

theorem Sandbox.load_text (s : Sandbox) (written : List Line)
    (plain : ∀ line ∈ written, line.instruction.IsPlain) :
    s.load (Module.text written) =
      (Loader.run s.capabilities s.limits 2 {}
        (written.map fun line => line.instruction.relayed)).bind Loader.finish := by
  rw [Sandbox.load, Loader.lines_text written plain]
  rfl

end Dashboard
