import Dashboard.Proofs.Pattern
import Dashboard.Proofs.Placeholder.Braces
import Dashboard.Proofs.Script.Texts

/-!
The grammar of placeholders. Validation has nothing against a text exactly when it holds no brace or
is one placeholder. What it lets pass between the braces of a tag is then read as the same reference
by everyone who reads it: by the parser of expressions, by the reader of modules, and when it is
resolved.
-/
namespace Dashboard.Placeholder

open Text (Pattern)

/-- A dangerous match begins with an opening brace and ends with a closing one. -/
theorem exists_inside_of_mem_ends {word : String} {start stop : Text.Place}
    (h : stop ∈ (dangerousPattern word).ends start) :
    ∃ inside, start.rest = '\x7b' :: (inside ++ '\x7d' :: stop.rest) := by
  obtain ⟨place, opened, way⟩ := List.mem_flatMap.mp h
  obtain ⟨first, begins, same⟩ := (Pattern.exists_mem_ends rfl).mp ⟨place, opened, rfl⟩
  obtain rfl : first = ['\x7b'] := same
  have shape : Pattern.sequence [.many fun c => c ≠ '\x7d', .boundary, .anyCase word.toList,
      .boundary, .many fun c => c ≠ '\x7d', .literal ['\x7d']] = .sequence ([.many fun c => c ≠ '\x7d',
        .boundary, .anyCase word.toList, .boundary, .many fun c => c ≠ '\x7d'] ++
          [.literal ['\x7d']]) := rfl
  obtain ⟨inside, last, within, ended⟩ := Pattern.exists_last (shape ▸ way)
  obtain ⟨mark, closes, same⟩ := (Pattern.exists_mem_ends rfl).mp ⟨stop, ended, rfl⟩
  obtain rfl : mark = ['\x7d'] := same
  exact ⟨inside, by rw [begins, within, closes]; rfl⟩

theorem hasNoBrace_append {front back : List Char} :
    HasNoBrace (front ++ back) ↔ HasNoBrace front ∧ HasNoBrace back :=
  List.forall_mem_append

theorem hasNoBrace_of_isIdentifier {name : List Char} (h : isIdentifier name = true) :
    HasNoBrace name := by
  intro c member
  have char := isIdentifierChar_of_isIdentifier h c member
  constructor
  · rintro rfl
    cases char
  · rintro rfl
    cases char

/-- What stands between the braces of a placeholder holds no brace. -/
theorem hasNoBrace_inside {name : List Char} (h : isIdentifier name = true) :
    HasNoBrace ("inputs.".toList ++ name) :=
  hasNoBrace_append.mpr ⟨by unfold HasNoBrace; decide, hasNoBrace_of_isIdentifier h⟩

section Group

/-! A text that is one group in braces without inner braces. -/

variable {body : List Char}

/-- A stretch of a group from an opening to a closing brace is the group. -/
theorem eq_group_of_stretch (plain : HasNoBrace body) {front inside rest : List Char}
    (h : '\x7b' :: (body ++ ['\x7d']) = front ++ '\x7b' :: (inside ++ '\x7d' :: rest)) :
    front = [] ∧ inside = body ∧ rest = [] := by
  cases front with
  | cons c more =>
    obtain ⟨-, same⟩ := List.cons.inj h
    have member : '\x7b' ∈ body ++ ['\x7d'] := by simp [same]
    rcases List.mem_append.mp member with inner | last
    · exact absurd rfl (plain _ inner).1
    · cases List.mem_singleton.mp last
  | nil =>
    obtain ⟨-, same⟩ := List.cons.inj h
    cases rest using List.reverseRecOn with
    | nil => exact ⟨rfl, (List.append_cancel_right same).symm, rfl⟩
    | append_singleton earlier c =>
      rw [← List.cons_append, ← List.append_assoc] at same
      have inner : body = inside ++ '\x7d' :: earlier := (List.append_inj' same rfl).1
      exact absurd rfl (plain '\x7d' (by simp [inner])).2

/-- A group that is a placeholder holds no danger, whatever its name is. -/
theorem dangers_eq_nil (plain : HasNoBrace body)
    (whole : isWhole ('\x7b' :: (body ++ ['\x7d'])) = true) :
    dangers ('\x7b' :: (body ++ ['\x7d'])) = [] := by
  rw [dangers, List.filterMap_eq_nil_iff]
  intro word _
  rw [Option.map_eq_none_iff, List.find?_eq_none]
  intro found reported
  obtain ⟨front, start, stop, shape, way, rfl⟩ := Pattern.exists_of_mem_allMatches reported
  obtain ⟨inside, stretch⟩ := exists_inside_of_mem_ends way
  rw [stretch] at shape
  obtain ⟨-, rfl, ended⟩ := eq_group_of_stretch plain shape
  have between : start.rest = '\x7b' :: (inside ++ ['\x7d']) ++ stop.rest := by
    rw [stretch, ended, List.append_nil]
  rw [Text.Place.upTo_eq between, whole]
  simp

end Group

/-- A placeholder is let pass, also one that is named like something dangerous. -/
theorem violations_of_isWhole {text : String} {name : List Char} (h : isIdentifier name = true)
    (shape : text.toList = opening ++ name ++ ['\x7d']) : violations text = [] := by
  have plain := hasNoBrace_inside h
  have group : text.toList = '\x7b' :: ("inputs.".toList ++ name ++ ['\x7d']) := by
    rw [shape, opening_eq]
    rfl
  have whole : isWhole text.toList = true := by
    rw [isWhole, whole?_eq_some.mpr ⟨h, shape⟩]
    rfl
  rw [group] at whole
  have braced : (text.toList.any fun c => c = '\x7b' || c = '\x7d') = true := by
    rw [group, List.any_cons]
    rfl
  have valid : [('\x7b' :: ("inputs.".toList ++ name ++ ['\x7d']))].filter
      (fun segment => !isWhole segment) = [] := by
    rw [List.filter_singleton, whole]
    rfl
  rw [violations]
  dsimp only
  rw [braced, group, braceSegments_group plain, dangers_eq_nil plain whole]
  dsimp only
  rw [valid, whole]
  rfl

theorem violations_eq_nil {text : String} : violations text = [] ↔ IsIntact text := by
  refine ⟨isIntact_of_violations, ?_⟩
  rintro (plain | ⟨name, identifier, shape⟩)
  · exact violations_of_hasNoBrace plain
  · exact violations_of_isWhole identifier shape

theorem isIdentifier_iff {name : List Char} :
    isIdentifier name = true ↔
      ∃ first more, name = first :: more ∧ (Text.isAsciiLetter first = true ∨ first = '_') ∧
        ∀ c ∈ more, Text.isAsciiLetter c = true ∨ Text.isAsciiDigit c = true ∨ c = '_' := by
  have begins (c : Char) : startsIdentifier c = true ↔ Text.isAsciiLetter c = true ∨ c = '_' := by
    simp [startsIdentifier]
  have goesOn (c : Char) : isIdentifierChar c = true ↔
      Text.isAsciiLetter c = true ∨ Text.isAsciiDigit c = true ∨ c = '_' := by
    simp [isIdentifierChar, Text.isAsciiAlphanumeric, or_assoc]
  cases name with
  | nil => simp [isIdentifier]
  | cons first more =>
    simp only [isIdentifier_cons, begins, goesOn]
    constructor
    · rintro ⟨starts, later⟩
      exact ⟨first, more, rfl, starts, later⟩
    · rintro ⟨_, _, same, starts, later⟩
      obtain ⟨rfl, rfl⟩ := List.cons.inj same
      exact ⟨starts, later⟩

/-- Validation accepts the texts without braces and the single placeholders, and nothing else. -/
theorem validate_eq_nil_iff (text : String) :
    validate text = [] ↔
      (∀ c ∈ text.toList, c ≠ '\x7b' ∧ c ≠ '\x7d') ∨
        ∃ first more, (Text.isAsciiLetter first = true ∨ first = '_') ∧
          (∀ c ∈ more, Text.isAsciiLetter c = true ∨ Text.isAsciiDigit c = true ∨ c = '_') ∧
          text = "\x7binputs." ++ String.ofList (first :: more) ++ "\x7d" := by
  have written (name : List Char) :
      text.toList = opening ++ name ++ ['\x7d'] ↔
        text = "\x7binputs." ++ String.ofList name ++ "\x7d" := by
    have parts : ("\x7binputs." ++ String.ofList name ++ "\x7d").toList =
        opening ++ name ++ ['\x7d'] := by
      rw [String.toList_append, String.toList_append, @String.toList_ofList name]
      rfl
    rw [← String.toList_inj, parts]
  rw [validate, List.map_eq_nil_iff, violations_eq_nil]
  refine or_congr_right ⟨?_, ?_⟩
  · rintro ⟨name, identifier, shape⟩
    obtain ⟨first, more, rfl, starts, later⟩ := isIdentifier_iff.mp identifier
    exact ⟨first, more, starts, later, (written _).mp shape⟩
  · rintro ⟨first, more, starts, later, shape⟩
    exact ⟨first :: more, isIdentifier_iff.mpr ⟨first, more, rfl, starts, later⟩,
      (written _).mpr shape⟩

/-- A reference that validation lets pass names one input for everyone who reads it: the parser of
expressions, the reader of modules, and whoever resolves it. -/
theorem exists_input_of_validateReference {text : String} (clean : validateReference text = []) :
    ∃ name : String, isIdentifier name.toList = true ∧ Text.trimmed text = "inputs." ++ name ∧
      (∀ origin, ∃ node, Script.parseExpression text origin = .ok node ∧
        node.inputName? = some name) ∧
      reference? ("inputs." ++ name) = some name ∧
      ∀ state, resolve ("\x7binputs." ++ name ++ "\x7d") state = state.shown name := by
  rw [validateReference, validate, List.map_eq_nil_iff] at clean
  obtain ⟨letters, identifier, shape⟩ := reference_of_violations clean
  obtain ⟨name, rfl⟩ : ∃ name : String, letters = name.toList := ⟨.ofList letters, by simp⟩
  obtain ⟨before, after, hb, ha, whole⟩ := Text.exists_trim text.toList
  have trimmed : Text.trim text.toList = "inputs.".toList ++ name.toList := by
    rw [← shape, Text.trimmed, String.toList_ofList]
  rw [trimmed] at whole
  refine ⟨name, identifier, ?_, fun origin => ?_, ?_, fun state => ?_⟩
  · rw [← String.toList_inj, shape, String.toList_append]
  · obtain ⟨node, parsed⟩ := Script.exists_parseExpression_reference whole hb ha identifier origin
    refine ⟨node, parsed, ?_⟩
    rw [Script.inputName?_of_parseExpression whole hb ha identifier parsed, String.ofList_toList]
  · rw [reference?_inputs, if_pos identifier]
  · have placeholder : ("\x7binputs." ++ name ++ "\x7d").toList =
        opening ++ name.toList ++ ['\x7d'] := by
      rw [String.toList_append, String.toList_append]
      rfl
    rw [resolve_whole state identifier placeholder, String.ofList_toList]

theorem exists_input_of_validateReference_window : validateReference " inputs.window\n" = [] ∧
    ∃ name : String, isIdentifier name.toList = true ∧
      Text.trimmed " inputs.window\n" = "inputs." ++ name ∧
      (∀ origin, ∃ node, Script.parseExpression " inputs.window\n" origin = .ok node ∧
        node.inputName? = some name) ∧
      reference? ("inputs." ++ name) = some name ∧
      ∀ state, resolve ("\x7binputs." ++ name ++ "\x7d") state = state.shown name :=
  have clean : validateReference " inputs.window\n" = [] := by decide +kernel
  ⟨clean, exists_input_of_validateReference clean⟩

end Dashboard.Placeholder
