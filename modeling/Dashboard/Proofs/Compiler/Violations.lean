import Dashboard.Proofs.Compiler.Stages
import Dashboard.Proofs.Component.Reducing
import Dashboard.Proofs.Placeholder.Grammar

/-!
The violations of a failed gate as a caller gets them. The artifact holds them as one text, joined by
line feeds, and they are read back as its lines: a violation whose message has a line feed in it
comes back as several. Nothing else is changed, since every message ends within a line.
-/
namespace Dashboard

open Dashboard.Text (EndsInLine isBlank trim)

/-! How messages end. -/

theorem endsInLine_append {text : String} (front : String) (ended : EndsInLine text.toList) :
    EndsInLine (front ++ text).toList := by
  rw [String.toList_append]
  exact ended.append _

theorem endsInLine_ofList {text : List Char} (ended : EndsInLine text) :
    EndsInLine (String.ofList text).toList := by
  rwa [String.toList_ofList]

theorem endsInLine_of_visible {text : List Char} {c : Char} (last : text.getLast? = some c)
    (visible : isBlank c = false) : EndsInLine text := by
  refine ⟨c, last, ?_, ?_⟩
  · rintro rfl
    cases visible
  · rintro rfl
    cases visible

theorem endsInLine_trim {text : List Char} (some : trim text ≠ []) : EndsInLine (trim text) := by
  have first := List.head?_dropWhile_not isBlank (Text.trimStart text).reverse
  rw [trim, Text.trimEnd] at some ⊢
  generalize (Text.trimStart text).reverse.dropWhile isBlank = kept at first some ⊢
  cases kept with
  | nil => exact absurd rfl some
  | cons c more => exact endsInLine_of_visible (by simp) first

theorem Position.endsInLine_text (p : Position) : EndsInLine p.text.toList := by
  have digits : EndsInLine (toString p.column).toList := by
    have shape : (toString p.column).toList = Nat.toDigits 10 p.column := Nat.toList_repr
    rw [shape]
    have some : Nat.toDigits 10 p.column ≠ [] := Nat.toDigits_ne_nil
    refine endsInLine_of_visible (List.getLast?_eq_some_getLast some) ?_
    exact Json.isBlank_of_isAsciiDigit (Json.isDigits_toDigits _ _ (List.getLast_mem some))
  exact endsInLine_append _ digits

theorem Prefilter.endsInLine_message {source : String} {v : Prefilter.Violation}
    (h : v ∈ Prefilter.scan source) : EndsInLine v.message.toList := by
  rw [Prefilter.scan, List.mem_filterMap] at h
  obtain ⟨category, -, found⟩ := h
  obtain ⟨text, -, rfl⟩ := Option.map_eq_some_iff.mp found
  unfold Prefilter.Violation.message
  rw [String.toList_append, String.toList_ofList]
  by_cases empty : trim text = []
  · rw [empty, List.append_nil]
    exact endsInLine_append _ (by decide)
  · exact (endsInLine_trim empty).append _

theorem ParseError.endsInLine_message (e : ParseError) : EndsInLine e.message.toList := by
  rw [ParseError.message]
  split
  · exact endsInLine_append _ (by decide)
  · exact endsInLine_append _ (endsInLine_append _ e.position.endsInLine_text)

theorem Policy.endsInLine_message (v : Policy.Violation) : EndsInLine v.message.toList := by
  cases v with
  | call name | variableName name | initializer kind =>
    exact endsInLine_append _ (by decide)
  | _ => exact endsInLine_ofList (by decide)

namespace Placeholder

theorem endsInLine_dangers {value : List Char} {v : Violation} (h : v ∈ dangers value) :
    EndsInLine v.message.toList := by
  rw [dangers, List.mem_filterMap] at h
  obtain ⟨word, -, found⟩ := h
  obtain ⟨text, matched, rfl⟩ := Option.map_eq_some_iff.mp found
  obtain ⟨-, start, stop, -, reached, rfl⟩ :=
    Text.Pattern.exists_of_mem_allMatches (List.mem_of_find?_eq_some matched)
  obtain ⟨inside, stretch⟩ := exists_inside_of_mem_ends reached
  have whole : start.rest = ('\x7b' :: inside ++ ['\x7d']) ++ stop.rest := by
    rw [stretch, List.append_assoc]
    rfl
  rw [Text.Place.upTo_eq whole]
  unfold Violation.message
  refine endsInLine_append _ ?_
  rw [String.toList_ofList]
  exact EndsInLine.append (by decide) ('\x7b' :: inside)

theorem endsInLine_step {value : List Char} {g : Groups} (c : Char)
    (h : ∀ v ∈ g.violations, EndsInLine v.message.toList) :
    ∀ v ∈ (g.step value c).violations, EndsInLine v.message.toList := by
  have unbalanced : EndsInLine (Violation.unbalanced value).message.toList :=
    endsInLine_append _ (by decide)
  have nested : EndsInLine (Violation.nested (g.current ++ ['\x7d'])).message.toList := by
    refine endsInLine_append _ ?_
    rw [String.toList_ofList]
    exact EndsInLine.append (by decide) _
  unfold Groups.step
  by_cases opening : c = '\x7b'
  · rw [if_pos opening]
    exact h
  · rw [if_neg opening]
    by_cases closing : c = '\x7d'
    · subst closing
      rw [if_pos rfl]
      split
      · exact List.forall_mem_append.mpr ⟨h, List.forall_mem_singleton.mpr unbalanced⟩
      · dsimp only
        split_ifs
        · exact List.forall_mem_append.mpr ⟨h, List.forall_mem_singleton.mpr nested⟩
        · exact h
      · exact h
    · rw [if_neg closing]
      split_ifs
      · exact h
      · exact h

theorem endsInLine_foldl {value : List Char} (rest : List Char) {g : Groups}
    (h : ∀ v ∈ g.violations, EndsInLine v.message.toList) :
    ∀ v ∈ (rest.foldl (Groups.step value) g).violations, EndsInLine v.message.toList := by
  induction rest generalizing g with
  | nil => exact h
  | cons c more ih => exact ih (endsInLine_step c h)

theorem endsInLine_braceSegments (value : List Char) :
    ∀ v ∈ (braceSegments value).2, EndsInLine v.message.toList := by
  have met := @endsInLine_foldl value value {} (by simp)
  rw [braceSegments]
  dsimp only
  split_ifs
  · exact met
  · exact List.forall_mem_append.mpr
      ⟨met, List.forall_mem_singleton.mpr (endsInLine_append _ (by decide))⟩

theorem endsInLine_violations (text : String) :
    ∀ v ∈ violations text, EndsInLine v.message.toList := by
  rw [violations]
  dsimp only
  split_ifs
  · simp
  · exact List.forall_mem_singleton.mpr (endsInLine_append _ (by decide))
  · refine List.forall_mem_append.mpr ⟨List.forall_mem_append.mpr ⟨?_, ?_⟩, ?_⟩
    · exact fun v => endsInLine_dangers
    · exact endsInLine_braceSegments _
    · refine List.forall_mem_map.mpr fun segment _ => ?_
      exact endsInLine_append _ (by decide)

end Placeholder

namespace Component

open Dashboard.Markup (Node Alternative)

/-- Every fault met so far ends within a line. -/
def EndInLine (faults : List ComponentFault) : Prop :=
  ∀ fault ∈ faults, EndsInLine fault.message.toList

theorem EndInLine.append {first second : List ComponentFault} (h : EndInLine first)
    (k : EndInLine second) : EndInLine (first ++ second) :=
  List.forall_mem_append.mpr ⟨h, k⟩

theorem endInLine_placeholders (text : String) :
    EndInLine ((Placeholder.violations text).map .placeholder) :=
  List.forall_mem_map.mpr (Placeholder.endsInLine_violations text)

theorem endInLine_textFaults (v : Json) : EndInLine (textFaults v) := by
  rw [textFaults_eq]
  intro fault member
  obtain ⟨text, -, found⟩ := List.mem_flatMap.mp member
  exact endInLine_placeholders text fault found

theorem endInLine_attributesOf (tag : String) (attributes : List Markup.Attribute) :
    EndInLine (attributesOf tag attributes).faults := by
  suffices run : ∀ found : Attributes, EndInLine found.faults →
      EndInLine (attributes.foldl (Attributes.add tag) found).faults from
    run {} (by simp [EndInLine])
  induction attributes with
  | nil => exact fun found h => h
  | cons first more ih =>
    intro found h
    refine ih _ ?_
    rw [Attributes.add]
    split_ifs
    · exact h.append (List.forall_mem_singleton.mpr (endsInLine_append _ (by decide)))
    · exact h.append (endInLine_textFaults _)

/-- The name of a tag holds no line break. -/
theorem endsInLine_unknownComponent {tag : String}
    (named : ∀ c ∈ tag.toList, Markup.Parser.isNameChar c = true) :
    EndsInLine (ComponentFault.unknownComponent tag).message.toList := by
  unfold ComponentFault.message
  rw [String.toList_append]
  by_cases empty : tag.toList = []
  · rw [empty]
    decide
  · refine EndsInLine.append ⟨_, List.getLast?_eq_some_getLast empty, ?_⟩ _
    have last := named _ (List.getLast_mem empty)
    constructor
    · intro same
      rw [same] at last
      exact absurd last (by decide)
    · intro same
      rw [same] at last
      exact absurd last (by decide)

theorem endInLine_enter {c : Classification} {tag : String} {attributes : List Markup.Attribute}
    (parent : Option Nat) (insideGrid : Bool) (h : EndInLine c.faults)
    (named : ∀ c ∈ tag.toList, Markup.Parser.isNameChar c = true) :
    EndInLine (enter c tag attributes parent insideGrid).1.faults := by
  have found := h.append (endInLine_attributesOf tag attributes)
  rw [enter]
  cases Registry.lookup tag with
  | unknown => exact found.append (List.forall_mem_singleton.mpr (endsInLine_unknownComponent named))
  | input spec => exact found
  | display spec implied => exact found

mutual

theorem endInLine_classifyNode (parent : Option Nat) (insideGrid : Bool) (c : Classification)
    (h : EndInLine c.faults) {levels : Nat} (node : Node) (sound : node.IsSound levels) :
    EndInLine (classifyNode parent insideGrid c node).faults := by
  match node with
  | .element _ tag attributes children =>
    obtain ⟨-, below, named⟩ := sound
    rw [classifyNode]
    have entered : EndInLine (enter c tag attributes parent insideGrid).1.faults :=
      endInLine_enter parent insideGrid h named
    rcases below with rfl | ⟨inner, rfl, deeper⟩
    · exact entered
    · exact endInLine_classifyAll _ _ _ entered children deeper
  | .ifBlock _ raw _ children alternative =>
    obtain ⟨inner, rfl, -, deeper, other⟩ := sound
    rw [classifyNode]
    refine endInLine_classifyAlternative _ _ _ ?_ alternative other
    refine endInLine_classifyAll _ _ _ ?_ children deeper
    exact h.append (endInLine_placeholders _)
  | .mustache tag => exact h.append (endInLine_placeholders _)
  | .style .. => exact h.append (List.forall_mem_singleton.mpr (by decide))
  | .text .. | .comment .. => exact h

theorem endInLine_classifyAll (parent : Option Nat) (insideGrid : Bool) (c : Classification)
    (h : EndInLine c.faults) {levels : Nat} (nodes : List Node)
    (sound : Markup.AreSound nodes levels) :
    EndInLine (classifyAll parent insideGrid c nodes).faults := by
  match nodes with
  | [] => exact h
  | first :: more =>
    exact endInLine_classifyAll _ _ _ (endInLine_classifyNode _ _ _ h first sound.1) more sound.2

theorem endInLine_classifyAlternative (parent : Option Nat) (insideGrid : Bool)
    (c : Classification) (h : EndInLine c.faults) {levels : Nat} (alternative : Alternative)
    (sound : alternative.IsSound levels) :
    EndInLine (classifyAlternative parent insideGrid c alternative).faults := by
  match alternative with
  | .absent => exact h
  | .otherwise _ children => exact endInLine_classifyAll _ _ _ h children sound
  | .elseIf _ block => exact endInLine_classifyNode _ _ _ h block sound

end

end Component

/-! The gate, and what is built behind it. -/

theorem endsInLine_gate (policy : ScriptPolicy) (source : String) :
    ∀ v ∈ (gate policy source).violations, EndsInLine v.message.toList := by
  have forbidden : ∀ v ∈ (Prefilter.scan source).map Violation.forbidden,
      EndsInLine v.message.toList :=
    List.forall_mem_map.mpr fun v => Prefilter.endsInLine_message
  have malformed (e : ParseError) : ∀ v ∈ [Violation.malformed e], EndsInLine v.message.toList :=
    List.forall_mem_singleton.mpr e.endsInLine_message
  rw [gate]
  split
  · exact List.forall_mem_append.mpr ⟨forbidden, malformed _⟩
  · next document parsed =>
    have components : ∀ v ∈ document.classify.faults.map Violation.component,
        EndsInLine v.message.toList :=
      List.forall_mem_map.mpr (Component.endInLine_classifyAll none false {}
        (by simp [Component.EndInLine]) _ (Markup.areSound_of_parse parsed))
    dsimp only
    split
    · refine List.forall_mem_append.mpr ⟨List.forall_mem_append.mpr ⟨forbidden, ?_⟩, components⟩
      exact List.forall_mem_map.mpr fun v _ => Policy.endsInLine_message v
    · exact List.forall_mem_append.mpr
        ⟨List.forall_mem_append.mpr ⟨forbidden, components⟩, malformed _⟩

section Behind

variable {source filename : String} (messages : List String)

/-- Generation fails over the text, or over what stands in it. -/
theorem generate_ne_security : generate source filename ≠ .error (.security messages) := by
  have parse (e : ParseError) : e.failure ≠ .security messages := by rintro ⟨⟩
  have compile (e : CompileError) : Failure.ofCompileError e ≠ .security messages := by rintro ⟨⟩
  refine bind_ne_error (mapError_ne_error parse _) fun document => ?_
  refine bind_ne_error (mapError_ne_error parse _) fun program => ?_
  refine bind_ne_error (mapError_ne_error compile _) fun b => ?_
  refine bind_ne_error (mapError_ne_error compile _) fun out => ?_
  rintro ⟨⟩

/-- No security violation is found behind the gate. -/
theorem Compiler.build_ne_security (compiler : Compiler) :
    compiler.build source filename ≠ .error (.security messages) := by
  have parse (e : ParseError) : e.failure ≠ .security messages := by rintro ⟨⟩
  have load (e : Module.LoadError) : Failure.ofLoadError e ≠ .security messages := by rintro ⟨⟩
  refine bind_ne_error (mapError_ne_error parse _) fun text => ?_
  refine bind_ne_error (generate_ne_security messages) fun g => ?_
  refine bind_ne_error (mapError_ne_error load _) fun component => ?_
  rintro ⟨⟩

end Behind

/-- The lines of messages, in order. -/
def messageLines (messages : List String) : List String :=
  messages.flatMap fun message => (Text.lines message.toList).map String.ofList

section Messages

variable {messages : List String} (ended : ∀ message ∈ messages, EndsInLine message.toList)
include ended

theorem lines_authorMessage :
    (Text.lines (Failure.security messages).authorMessage.toList).map String.ofList =
      messageLines messages := by
  have joined : Text.lines (Failure.security messages).authorMessage.toList =
      (messages.map String.toList).flatMap Text.lines := by
    rw [Failure.authorMessage, String.toList_intercalate]
    exact Text.lines_intercalate (List.forall_mem_map.mpr ended)
  rw [joined, messageLines, List.flatMap_map, List.map_flatMap]

theorem messageLines_eq_self :
    messageLines messages = messages ↔ ∀ message ∈ messages, '\n' ∉ message.toList := by
  have kept := Text.flatMap_lines_eq_self (List.forall_mem_map.mpr ended)
  have shape : messageLines messages =
      ((messages.map String.toList).flatMap Text.lines).map String.ofList := by
    rw [messageLines, List.flatMap_map, List.map_flatMap]
  have self : messages = (messages.map String.toList).map String.ofList := by
    simp [Function.comp_def]
  rw [List.forall_mem_map] at kept
  rw [← kept, shape]
  constructor
  · intro same
    simpa [Function.comp_def] using congrArg (List.map String.toList) same
  · intro same
    rw [same, ← self]

end Messages

example : messageLines ["a\nb", "c"] = ["a", "b", "c"] := by decide +kernel

theorem Artifact.outcome_of_failure? {a : Artifact} {f : Failure} (h : a.failure? = some f) :
    a.outcome = .error f := by
  rw [failure?] at h
  split at h
  · cases h
  · next met =>
    cases h
    exact met

namespace Compiler

variable {compiler : Compiler} {source filename : String} {messages : List String}

theorem outcome_of_violations (found : (gate compiler.policy source).violations ≠ []) :
    (compiler.compile source filename).outcome = .error (gate compiler.policy source).failure := by
  rw [compile]
  simp [found]

/-- Security violations are what the gate has found, whatever the name of the file. -/
theorem security_of_compile
    (h : (compiler.compile source filename).outcome = .error (.security messages)) :
    messages = (gate compiler.policy source).violations.map Violation.message ∧
      ∀ other, (compiler.compile source other).outcome = .error (.security messages) := by
  by_cases clean : (gate compiler.policy source).violations = []
  · rw [outcome_of_gate clean, map_eq_error] at h
    exact absurd h (build_ne_security messages compiler)
  · have failed := @outcome_of_violations compiler source filename clean
    have same : (gate compiler.policy source).failure = .security messages := by
      rw [failed] at h
      exact Except.error.inj h
    refine ⟨?_, fun other => by rw [outcome_of_violations clean, same]⟩
    rw [GateReport.failure] at same
    split_ifs at same
    exact (Failure.security.inj same).symm

/-- A caller finds the lines of the messages that the gate has collected, in the artifact as in a
check. They are the messages themselves exactly where no message has a line feed in it. -/
theorem violations_of_compile
    (h : (compiler.compile source filename).outcome = .error (.security messages)) :
    messages = (gate compiler.policy source).violations.map Violation.message ∧
      (compiler.compile source filename).result = .error (.security (messageLines messages)) ∧
      (compiler.check source).violations = messageLines messages ∧
      (messageLines messages = messages ↔ ∀ message ∈ messages, '\n' ∉ message.toList) := by
  obtain ⟨collected, everywhere⟩ := security_of_compile h
  have ended : ∀ message ∈ messages, EndsInLine message.toList := by
    rw [collected]
    exact List.forall_mem_map.mpr (endsInLine_gate compiler.policy source)
  have lines := lines_authorMessage ended
  refine ⟨collected, ?_, ?_, messageLines_eq_self ended⟩
  · rw [Artifact.result, h]
    exact congrArg (fun found => Except.error (Failure.security found)) lines
  · have failed : (compiler.compile source "check.dash").failure? = some (.security messages) := by
      rw [Artifact.failure?, everywhere]
    rw [check, failed]
    exact (Verdict.extend_violations _ _).trans lines

theorem violations_of_compile_unknownTags :
    (Compiler.compile {} "<Foo /><Bar />" "Tags.dash").outcome =
        .error (.security ["Unknown component: Foo", "Unknown component: Bar"]) ∧
      (Compiler.compile {} "<Foo /><Bar />" "Tags.dash").result =
        .error (.security ["Unknown component: Foo", "Unknown component: Bar"]) := by
  have failed : (Compiler.compile {} "<Foo /><Bar />" "Tags.dash").outcome =
      .error (.security ["Unknown component: Foo", "Unknown component: Bar"]) :=
    Artifact.outcome_of_failure? (by decide +kernel)
  obtain ⟨-, result, -, kept⟩ := violations_of_compile failed
  refine ⟨failed, ?_⟩
  rw [result, kept.mpr (by decide)]

/-- A text of an attribute with a line feed between its braces: one violation comes back as two. -/
theorem violations_of_lineFeed :
    (gate .strict "<Chart title=\"\x7ba\nb\x7d\" />").violations.map Violation.message =
        ["Invalid expression: \x7ba\nb\x7d. Only \x7binputs.paramName\x7d allowed."] ∧
      (Compiler.compile {} "<Chart title=\"\x7ba\nb\x7d\" />" "Chart.dash").result =
        .error (.security
          ["Invalid expression: \x7ba", "b\x7d. Only \x7binputs.paramName\x7d allowed."]) ∧
      (Compiler.check {} "<Chart title=\"\x7ba\nb\x7d\" />").violations =
        ["Invalid expression: \x7ba", "b\x7d. Only \x7binputs.paramName\x7d allowed."] := by
  have failed : (Compiler.compile {} "<Chart title=\"\x7ba\nb\x7d\" />" "Chart.dash").outcome =
      .error (.security
        ["Invalid expression: \x7ba\nb\x7d. Only \x7binputs.paramName\x7d allowed."]) :=
    Artifact.outcome_of_failure? (by decide +kernel)
  obtain ⟨found, result, checked, -⟩ := violations_of_compile failed
  have lines : messageLines
      ["Invalid expression: \x7ba\nb\x7d. Only \x7binputs.paramName\x7d allowed."] =
      ["Invalid expression: \x7ba", "b\x7d. Only \x7binputs.paramName\x7d allowed."] := by
    decide
  exact ⟨found.symm, by rw [result, lines], by rw [checked, lines]⟩

end Compiler

end Dashboard
