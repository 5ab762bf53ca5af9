import Dashboard.Sandbox
import Dashboard.Proofs.Outcome

/-!
What one line does to a loader. An instruction that is executed declares something, adds content to
the block that is open, or opens, turns or closes a block; a line that holds no instruction does
nothing.
-/
namespace Dashboard

open Dashboard.Module (Instruction LoadError)

namespace Loader

variable {capabilities : Capabilities} {limits : SandboxLimits} {number : Nat} {l next : Loader}

/-- What an instruction that succeeds does, in a sandbox with such capabilities and limits. -/
inductive Executes (capabilities : Capabilities) (limits : SandboxLimits) (l : Loader) :
    Instruction → Loader → Prop
  | title (filename : String) : Executes capabilities limits l (.title filename)
      { l with loaded := { l.loaded with filename := filename } }
  | bind {widget : Widget} (name source : String)
    (found : Dictionary.find? capabilities source = some widget) :
    Executes capabilities limits l (.bind name source)
      { l with loaded := { l.loaded with imports := Dictionary.insert name widget l.loaded.imports } }
  | param (component : String) (valueType : ValueType) (props : Dictionary Json) :
    Executes capabilities limits l (.param component valueType props)
      { l with loaded := { l.loaded with params := l.loaded.params ++ [⟨component, valueType, props⟩] } }
  | constant (name : String) (value : Json) : Executes capabilities limits l (.constant name value)
      { l with loaded := { l.loaded with constants := Dictionary.insert name value l.loaded.constants } }
  | mount (binding : String) (props : Dictionary Json) :
    Executes capabilities limits l (.mount binding props) (l.push (.mount binding props []))
  | text (data : String) : Executes capabilities limits l (.text data) (l.push (.text data))
  | shown (name : String) : Executes capabilities limits l (.shown name) (l.push (.shown name))
  | openWidget (binding : String) (props : Dictionary Json) (room : l.stack.length < limits.maxDepth) :
    Executes capabilities limits l (.openWidget binding props)
      { l with stack := .widget binding props [] :: l.stack }
  | whenInput (name : String) (room : l.stack.length < limits.maxDepth) :
    Executes capabilities limits l (.whenInput name) { l with stack := .choice name [] none :: l.stack }
  | closeWidget {binding : String} {props : Dictionary Json} {children : List Content}
    {outer : List Frame} (shape : l.stack = .widget binding props children :: outer) :
    Executes capabilities limits l .closeWidget
      (push { l with stack := outer } (.mount binding props children))
  | otherwise {name : String} {consequent : List Content} {outer : List Frame}
    (shape : l.stack = .choice name consequent none :: outer) :
    Executes capabilities limits l .otherwise
      { l with stack := .choice name consequent (some []) :: outer }
  | endWhen {name : String} {consequent : List Content} {alternate : Option (List Content)}
    {outer : List Frame} (shape : l.stack = .choice name consequent alternate :: outer) :
    Executes capabilities limits l .endWhen
      (push { l with stack := outer } (.choice name consequent (alternate.getD [])))

theorem enter_eq_ok {frame : Frame} : l.enter limits frame = .ok next ↔
    l.stack.length < limits.maxDepth ∧ next = { l with stack := frame :: l.stack } := by
  rw [enter]
  by_cases deep : limits.maxDepth ≤ l.stack.length
  · simp [deep, Nat.not_lt.mpr deep]
  · simp [deep, Nat.lt_of_not_le deep, eq_comm]

/-- An instruction succeeds with what it does, wherever it stands. -/
theorem execute_eq_ok {i : Instruction} :
    execute capabilities limits number l i = .ok next ↔ Executes capabilities limits l i next := by
  constructor
  · intro h
    cases i with
    | title filename =>
      cases h
      exact .title filename
    | bind name source =>
      rw [execute] at h
      split at h
      · cases h
      · next found =>
        cases h
        exact .bind name source found
    | param component valueType props =>
      cases h
      exact .param component valueType props
    | constant name value =>
      cases h
      exact .constant name value
    | mount binding props =>
      cases h
      exact .mount binding props
    | text data =>
      cases h
      exact .text data
    | shown name =>
      cases h
      exact .shown name
    | openWidget binding props =>
      obtain ⟨room, rfl⟩ := enter_eq_ok.mp h
      exact .openWidget binding props room
    | whenInput name =>
      obtain ⟨room, rfl⟩ := enter_eq_ok.mp h
      exact .whenInput name room
    | closeWidget =>
      rw [execute] at h
      split at h
      · next shape =>
        cases h
        exact .closeWidget shape
      · cases h
    | otherwise =>
      rw [execute] at h
      split at h
      · next shape =>
        cases h
        exact .otherwise shape
      · cases h
    | endWhen =>
      rw [execute] at h
      split at h
      · next shape =>
        cases h
        exact .endWhen shape
      · cases h
  · intro h
    cases h with
    | title | param | constant | mount | text | shown => rfl
    | bind name source found => rw [execute, found]
    | openWidget _ _ room => exact enter_eq_ok.mpr ⟨room, rfl⟩
    | whenInput _ room => exact enter_eq_ok.mpr ⟨room, rfl⟩
    | closeWidget shape => rw [execute, shape]
    | otherwise shape => rw [execute, shape]
    | endWhen shape => rw [execute, shape]

/-- So many more instructions have been run. -/
def counted (l : Loader) (n : Nat) : Loader := { l with instructions := l.instructions + n }

@[simp] theorem counted_counted (l : Loader) (m n : Nat) :
    (l.counted m).counted n = l.counted (m + n) := by
  simp [counted, Nat.add_assoc]

@[simp] theorem counted_stack (l : Loader) (n : Nat) : (l.counted n).stack = l.stack := rfl

@[simp] theorem counted_instructions (l : Loader) (n : Nat) :
    (l.counted n).instructions = l.instructions + n := rfl

/-- What a line that loads does: nothing, or its instruction. -/
theorem line_eq_ok {text : List Char} :
    line capabilities limits number l text = .ok next ↔
      Module.holdsInstruction text = false ∧ next = l ∨
        Module.holdsInstruction text = true ∧ l.instructions < limits.maxInstructions ∧
          ∃ i, Instruction.read (Dictionary.contains l.loaded.imports) number text = .ok i ∧
            Executes capabilities limits (l.counted 1) i next := by
  rw [line]
  cases Module.holdsInstruction text with
  | false => simp [eq_comm]
  | true =>
    by_cases full : limits.maxInstructions < l.instructions + 1
    · simp [full]
      omega
    · simp only [Bool.not_true, Bool.false_eq_true, if_false, full]
      rw [bind_eq_ok]
      simp only [← @execute_eq_ok capabilities limits number]
      simp [counted]
      omega

end Loader

end Dashboard
