import Dashboard.Module.Reader
import Dashboard.Proofs.Json.ReadBack
import Dashboard.Proofs.Placeholder

/-!
The lines of a module. A plain instruction is read back from its own line, with its values as they
come out of their text; a module is read back line by line.
-/
namespace Dashboard.Module

open Dashboard.Json (IsStandard relayed relayedEntries)

/-- A text that can stand between blanks. -/
def IsWord (text : String) : Prop :=
  text.toList ≠ [] ∧ ∀ c ∈ text.toList, Text.isBlank c = false

theorem IsWord.isTight {text : String} (h : IsWord text) : Text.IsTight text.toList :=
  Text.isTight_of_visible h.1 h.2

theorem IsWord.space_not_mem {text : String} (h : IsWord text) : ' ' ∉ text.toList := fun member =>
  absurd (h.2 _ member) (by decide)

theorem IsWord.lineFeed_not_mem {text : String} (h : IsWord text) : '\n' ∉ text.toList :=
  fun member => absurd (h.2 _ member) (by decide)

theorem isBlank_of_isIdentifierChar {c : Char} (h : Placeholder.isIdentifierChar c = true) :
    Text.isBlank c = false := by
  simp only [Placeholder.isIdentifierChar, Text.isAsciiAlphanumeric, Text.isAsciiLetter,
    Text.isAsciiDigit, Bool.or_eq_true, Bool.and_eq_true, decide_eq_true_eq, Char.le_def,
    UInt32.le_iff_toNat_le] at h
  have point : c = '_' → c.toNat = 95 := by
    rintro rfl
    rfl
  have bounds : 48 ≤ c.toNat ∧ c.toNat ≤ 122 := by
    rcases h with ((⟨low, high⟩ | ⟨low, high⟩) | ⟨low, high⟩) | rfl
    · exact ⟨le_trans (by decide) low, high⟩
    · exact ⟨le_trans (by decide) low, le_trans high (by decide)⟩
    · exact ⟨low, le_trans high (by decide)⟩
    · decide
  simp only [Text.isBlank, Text.inRanges, Text.blankRanges, List.any_cons, List.any_nil,
    Bool.or_false, Bool.or_eq_false_iff, Bool.and_eq_false_iff, decide_eq_false_iff_not]
  omega

theorem isWord_of_isIdentifier {name : String}
    (h : Placeholder.isIdentifier name.toList = true) : IsWord name := by
  simp only [Placeholder.isIdentifier, Bool.and_eq_true, List.all_eq_true] at h
  refine ⟨fun empty => ?_, fun c member => isBlank_of_isIdentifierChar (h.2 c member)⟩
  rw [empty] at h
  exact absurd h.1 (by decide)

theorem splitAt?_append {mark before : List Char} {first : Char} {others : List Char}
    (shape : mark = first :: others) (absent : first ∉ before) (rest : List Char) :
    splitAt? mark (before ++ mark ++ rest) = some (before, rest) := by
  subst shape
  induction before with
  | nil => simp [splitAt?, List.isPrefixOf_iff_prefix]
  | cons c more ih =>
    obtain ⟨different, later⟩ : first ≠ c ∧ first ∉ more := by simpa using absent
    have noPrefix : (first :: others).isPrefixOf (c :: (more ++ (first :: others) ++ rest)) = false := by
      simp [List.isPrefixOf, different]
    rw [List.cons_append, List.cons_append, splitAt?, noPrefix, ih later]
    rfl

theorem splitAt?_space {before : List Char} (absent : ' ' ∉ before) (rest : List Char) :
    splitAt? [' '] (before ++ ' ' :: rest) = some (before, rest) := by
  have split := splitAt?_append (rfl : [' '] = ' ' :: []) absent rest
  rw [List.append_assoc] at split
  exact split

theorem splitSpace_space {before : List Char} (absent : ' ' ∉ before) (rest : List Char) :
    splitSpace (before ++ ' ' :: rest) = (before, rest) := by
  rw [splitSpace, splitAt?_space absent]
  rfl

theorem splitAt?_absent {text : List Char} (absent : ' ' ∉ text) : splitAt? [' '] text = none := by
  induction text with
  | nil => rfl
  | cons c more ih =>
    obtain ⟨different, later⟩ : ' ' ≠ c ∧ ' ' ∉ more := by simpa using absent
    have noPrefix : [' '].isPrefixOf (c :: more) = false := by
      simp [List.isPrefixOf, different]
    rw [splitAt?, noPrefix, ih later]
    rfl

theorem splitSpace_absent {text : List Char} (absent : ' ' ∉ text) :
    splitSpace text = (text, []) := by
  rw [splitSpace, splitAt?_absent absent]
  rfl

namespace Instruction

/-- What an instruction needs so that its line is read back. Values hold at most as many levels as
the reader of values takes. -/
def IsPlain : Instruction → Prop
  | title _ | text _ | closeWidget | otherwise | endWhen => True
  | bind name _ => IsWord name
  | param component _ props => IsWord component ∧ IsStandard Json.maxNesting (.obj props)
  | constant name value => IsWord name ∧ IsStandard Json.maxNesting value
  | mount binding props | openWidget binding props =>
    IsWord binding ∧ IsStandard Json.maxNesting (.obj props)
  | whenInput name | shown name => IsWord name

/-- The instruction with its values as they come out of their text. -/
def relayed : Instruction → Instruction
  | param component valueType props => param component valueType (relayedEntries props)
  | constant name value => constant name (Json.relayed value)
  | mount binding props => mount binding (relayedEntries props)
  | openWidget binding props => openWidget binding (relayedEntries props)
  | other => other

/-- The binding that has to be known where the instruction stands. -/
def binding? : Instruction → Option String
  | mount binding _ | openWidget binding _ => some binding
  | _ => none

/-- The input that an instruction refers to. -/
def reference? : Instruction → Option String
  | whenInput name | shown name => some name
  | _ => none

/-- The binding of a widget is known, and the name of an input is an identifier. -/
structure IsAllowed (isBound : String → Bool) (i : Instruction) : Prop where
  binding : ∀ binding, i.binding? = some binding → isBound binding = true
  reference : ∀ name, i.reference? = some name → Placeholder.isIdentifier name.toList = true

/-- Refuses an instruction that is not allowed. -/
def allow (isBound : String → Bool) (number : Nat) (i : Instruction) :
    Except LoadError Instruction :=
  match i with
  | mount binding _ | openWidget binding _ =>
    if isBound binding then .ok i else .error (.undefinedBinding binding)
  | whenInput name | shown name =>
    if Placeholder.isIdentifier name.toList then .ok i
    else .error (malformedLine number i.line.toList)
  | _ => .ok i

theorem allow_eq_ok {isBound : String → Bool} {number : Nat} {i j : Instruction} :
    i.allow isBound number = .ok j ↔ j = i ∧ i.IsAllowed isBound := by
  have checked {test : Bool} {error : LoadError} :
      (if test then .ok i else .error error : Except LoadError Instruction) = .ok j ↔
        j = i ∧ test = true := by
    cases test <;> simp [eq_comm]
  constructor
  · intro h
    cases i with
    | mount | openWidget =>
      obtain ⟨rfl, known⟩ := checked.mp h
      exact ⟨rfl, by rintro _ ⟨⟩; exact known, by rintro _ ⟨⟩⟩
    | whenInput | shown =>
      obtain ⟨rfl, named⟩ := checked.mp h
      exact ⟨rfl, by rintro _ ⟨⟩, by rintro _ ⟨⟩; exact named⟩
    | _ =>
      cases h
      exact ⟨rfl, by rintro _ ⟨⟩, by rintro _ ⟨⟩⟩
  · rintro ⟨rfl, allowed⟩
    cases j with
    | mount | openWidget => exact checked.mpr ⟨rfl, allowed.binding _ rfl⟩
    | whenInput | shown => exact checked.mpr ⟨rfl, allowed.reference _ rfl⟩
    | _ => rfl

theorem toList_quoted (text : String) : (quoted text).toList = Json.quote text := by
  simp [quoted, Json.text, Json.chars]

theorem toList_props (entries : Dictionary Json) :
    (props entries).toList = Json.chars (.obj entries) := by
  simp [props, Json.text]

theorem readString_quote (number : Nat) (text : String) :
    readString number (Json.quote text) = .ok text := by
  have standard : IsStandard 0 (.str text) := by simp [IsStandard]
  have read : Json.ofChars? (Json.quote text) = some (.str text) :=
    Json.ofChars?_chars (Nat.zero_le _) standard
  rw [readString, read]

theorem readProps_chars (number : Nat) {entries : Dictionary Json}
    (standard : IsStandard Json.maxNesting (.obj entries)) :
    readProps number (Json.chars (.obj entries)) = .ok (relayedEntries entries) := by
  have read := Json.ofChars?_chars (le_refl _) standard
  rw [readProps, (Json.isTight_chars standard).trim, read]
  rfl

/-- The operator and the operands of an instruction as they stand on its line. -/
def parts : Instruction → String × List Char
  | title filename => ("module", Json.quote filename)
  | bind name source => ("import", name.toList ++ " from ".toList ++ Json.quote source)
  | param component valueType entries =>
    ("param", component.toList ++ ' ' :: (valueType.text.toList ++ ' ' :: Json.chars (.obj entries)))
  | constant name value => ("let", name.toList ++ ' ' :: Json.chars value)
  | mount binding entries => ("mount", binding.toList ++ ' ' :: Json.chars (.obj entries))
  | openWidget binding entries => ("open", binding.toList ++ ' ' :: Json.chars (.obj entries))
  | closeWidget => ("close", [])
  | whenInput name => ("if", "inputs.".toList ++ name.toList)
  | otherwise => ("else", [])
  | endWhen => ("end", [])
  | text data => ("text", Json.quote data)
  | shown name => ("expr", "inputs.".toList ++ name.toList)

def operators : List String :=
  ["module", "import", "param", "let", "mount", "open", "close", "if", "else", "end", "text", "expr"]

theorem operator_mem (i : Instruction) : i.parts.1 ∈ operators := by
  cases i <;> simp [parts, operators]

/-- Operators are words that do not begin like a comment. -/
theorem operator_spec : ∀ operator ∈ operators, operator.toList ≠ [] ∧
    (∀ c ∈ operator.toList, Text.isBlank c = false) ∧ operator.toList.head? ≠ some '/' := by
  decide

theorem isWord_operator (i : Instruction) : IsWord i.parts.1 :=
  ⟨(operator_spec _ i.operator_mem).1, (operator_spec _ i.operator_mem).2.1⟩

theorem quote_ne_nil (text : String) : Json.quote text ≠ [] := by
  simp [Json.quote]

theorem toList_line (i : Instruction) :
    i.line.toList = i.parts.1.toList ++ (if i.parts.2 = [] then [] else ' ' :: i.parts.2) := by
  cases i <;>
    simp [line, parts, toList_quoted, toList_props, quote_ne_nil, Json.text]

theorem splitSpace_line (i : Instruction) :
    splitSpace i.line.toList = (i.parts.1.toList, i.parts.2) := by
  rw [toList_line]
  split_ifs with none
  · rw [List.append_nil, splitSpace_absent i.isWord_operator.space_not_mem, none]
  · exact splitSpace_space i.isWord_operator.space_not_mem i.parts.2

theorem isTight_reference {name : String} (h : IsWord name) :
    Text.IsTight ("inputs.".toList ++ name.toList) :=
  Text.IsTight.append (Text.isTight_of_visible (by decide) (by decide)) h.isTight

theorem isTight_operands {i : Instruction} (plain : i.IsPlain) (some : i.parts.2 ≠ []) :
    Text.IsTight i.parts.2 := by
  cases i with
  | title filename => exact Json.isTight_quote filename
  | text data => exact Json.isTight_quote data
  | bind name source => exact plain.isTight.around (Json.isTight_quote source) _
  | param component valueType entries =>
    have around := plain.1.isTight.around (Json.isTight_chars plain.2)
      (' ' :: (valueType.text.toList ++ [' ']))
    simpa [parts] using around
  | constant name value =>
    simpa [parts] using plain.1.isTight.around (Json.isTight_chars plain.2) [' ']
  | mount binding entries =>
    simpa [parts] using plain.1.isTight.around (Json.isTight_chars plain.2) [' ']
  | openWidget binding entries =>
    simpa [parts] using plain.1.isTight.around (Json.isTight_chars plain.2) [' ']
  | whenInput name => exact isTight_reference plain
  | shown name => exact isTight_reference plain
  | closeWidget | otherwise | endWhen => exact absurd rfl some

theorem trim_operands {i : Instruction} (plain : i.IsPlain) : Text.trim i.parts.2 = i.parts.2 := by
  by_cases none : i.parts.2 = []
  · rw [none]
    rfl
  · exact (isTight_operands plain none).trim

theorem isTight_line {i : Instruction} (plain : i.IsPlain) : Text.IsTight i.line.toList := by
  rw [toList_line]
  split_ifs with none
  · rw [List.append_nil]
    exact i.isWord_operator.isTight
  · have around := i.isWord_operator.isTight.around (isTight_operands plain none) [' ']
    rwa [List.append_assoc, List.singleton_append] at around

theorem holdsInstruction_line (i : Instruction) : holdsInstruction i.line.toList = true := by
  obtain ⟨notEmpty, -, noSlash⟩ := operator_spec _ i.operator_mem
  obtain ⟨c, more, shape⟩ := List.exists_cons_of_ne_nil notEmpty
  have different : c ≠ '/' := by
    intro slash
    exact noSlash (by rw [shape, slash]; rfl)
  rw [toList_line, shape]
  simp [holdsInstruction, List.isPrefixOf, Ne.symm different]

theorem lineFeed_not_mem_line {i : Instruction} (plain : i.IsPlain) : '\n' ∉ i.line.toList := by
  rw [toList_line]
  cases i with
  | title filename => simp [parts, quote_ne_nil, Json.lineFeed_not_mem_quote filename]
  | text data => simp [parts, quote_ne_nil, Json.lineFeed_not_mem_quote data]
  | bind name source =>
    simp [parts, Json.lineFeed_not_mem_quote source, plain.lineFeed_not_mem]
  | param component valueType entries =>
    have type : '\n' ∉ valueType.text.toList := by cases valueType <;> simp [ValueType.text]
    simp [parts, plain.1.lineFeed_not_mem, type, Json.lineFeed_not_mem_chars plain.2]
  | constant name value =>
    simp [parts, plain.1.lineFeed_not_mem, Json.lineFeed_not_mem_chars plain.2]
  | mount binding entries =>
    simp [parts, plain.1.lineFeed_not_mem, Json.lineFeed_not_mem_chars plain.2]
  | openWidget binding entries =>
    simp [parts, plain.1.lineFeed_not_mem, Json.lineFeed_not_mem_chars plain.2]
  | whenInput name => simp [parts, IsWord.lineFeed_not_mem plain]
  | shown name => simp [parts, IsWord.lineFeed_not_mem plain]
  | closeWidget | otherwise | endWhen => simp [parts]

theorem readReference_inputs (number : Nat) (line : List Char) (make : String → Instruction)
    (name : String) :
    readReference number line ("inputs.".toList ++ name.toList) make =
      if Placeholder.isIdentifier name.toList then .ok (make name)
      else .error (malformedLine number line) := by
  have joined : String.ofList ("inputs.".toList ++ name.toList) = "inputs." ++ name := by
    rw [← String.toList_append, String.ofList_toList]
  rw [readReference, joined, Placeholder.reference?_inputs]
  cases Placeholder.isIdentifier name.toList <;> rfl

theorem readWidget_word (number : Nat) (isBound : String → Bool)
    (make : String → Dictionary Json → Instruction) {binding : String} (word : IsWord binding)
    {entries : Dictionary Json} (standard : IsStandard Json.maxNesting (.obj entries)) :
    readWidget number (binding.toList ++ ' ' :: Json.chars (.obj entries)) isBound make =
      if isBound binding then .ok (make binding (relayedEntries entries))
      else .error (.undefinedBinding binding) := by
  rw [readWidget, splitAt?_space word.space_not_mem]
  simp only [Option.getD_some, String.ofList_toList, readProps_chars number standard]
  rfl

/-- The line of a plain instruction is read as that instruction, if it is allowed. -/
theorem read_line (isBound : String → Bool) (number : Nat) {i : Instruction} (plain : i.IsPlain) :
    read isBound number i.line.toList = allow isBound number i.relayed := by
  simp only [read, splitSpace_line, trim_operands plain, String.ofList_toList]
  cases i with
  | title filename =>
    show (readString number (Json.quote filename)).map title = _
    rw [readString_quote]
    rfl
  | bind name source =>
    have absent := plain.space_not_mem
    show readBind number _ (name.toList ++ " from ".toList ++ Json.quote source) = _
    rw [readBind, splitAt?_append (rfl : " from ".toList = ' ' :: "from ".toList) absent]
    simp only [plain.isTight.trim, (Json.isTight_quote source).trim, readString_quote,
      String.ofList_toList]
    rfl
  | param component valueType entries =>
    have absent : ' ' ∉ valueType.text.toList := by cases valueType <;> simp [ValueType.text]
    have type : ValueType.ofText? valueType.text = some valueType := by cases valueType <;> rfl
    show readParam number _ (component.toList ++ ' ' :: (valueType.text.toList ++ ' ' ::
      Json.chars (.obj entries))) = _
    rw [readParam, splitAt?_space plain.1.space_not_mem]
    simp only [splitAt?_space absent, String.ofList_toList, type, readProps_chars number plain.2]
    rfl
  | constant name value =>
    have read : Json.ofChars? (Json.chars value) = some (Json.relayed value) :=
      Json.ofChars?_chars (le_refl _) plain.2
    show readConstant number _ (name.toList ++ ' ' :: Json.chars value) = _
    rw [readConstant, splitAt?_space plain.1.space_not_mem]
    simp only [(Json.isTight_chars plain.2).trim, read, String.ofList_toList]
    rfl
  | mount binding entries =>
    show readWidget number (binding.toList ++ ' ' :: Json.chars (.obj entries)) isBound mount = _
    rw [readWidget_word number isBound mount plain.1 plain.2]
    rfl
  | openWidget binding entries =>
    show readWidget number (binding.toList ++ ' ' :: Json.chars (.obj entries)) isBound openWidget = _
    rw [readWidget_word number isBound openWidget plain.1 plain.2]
    rfl
  | closeWidget | otherwise | endWhen => rfl
  | whenInput name =>
    exact readReference_inputs number _ whenInput name
  | text data =>
    show (readString number (Json.quote data)).map text = _
    rw [readString_quote]
    rfl
  | shown name =>
    exact readReference_inputs number _ shown name

end Instruction

end Dashboard.Module
