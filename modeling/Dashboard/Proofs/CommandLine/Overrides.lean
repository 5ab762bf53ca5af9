import Dashboard.CommandLine.Run
import Dashboard.Proofs.Compiler.Agreement
import Dashboard.Proofs.Files.Task

/-!
The inputs of a document that is rendered from the command line. Two parameters of a module may have
one name: an input begins with the value of the last of them that has one, while a text that is given
for it is read for the first. So a given text has the type of the value that it replaces where both
parameters have the same type, and nowhere else.
-/
namespace Dashboard

/-- What is found under a name among the entries that elements come to is that of the first element
with the name. -/
theorem lookup_filterMap {α β : Type} (read? : α → Option (String × β)) (name : String)
    (elements : List α) : (elements.filterMap read?).lookup name =
      (elements.find? fun a => (read? a).any fun entry => entry.1 = name).bind fun a =>
        (read? a).map Prod.snd := by
  induction elements with
  | nil => rfl
  | cons a more ih =>
    cases found : read? a with
    | none =>
      rw [List.filterMap_cons_none found, ih, List.find?_cons_of_neg]
      simp [found]
    | some entry =>
      rw [List.filterMap_cons_some found]
      refine (Dictionary.find?_cons entry _ name).trans ?_
      by_cases same : name = entry.1
      · rw [if_pos same, List.find?_cons_of_pos (by simp [found, same]), Option.bind_some, found]
        rfl
      · rw [if_neg same, List.find?_cons_of_neg (by simp [found, Ne.symm same])]
        exact ih

/-! The parameters of a name. -/

namespace LoadedModule

variable {m : LoadedModule} {name : String} {param : ParamDeclaration}

/-- The parameter that a text given for an input is read for. -/
def firstOf? (m : LoadedModule) (name : String) : Option ParamDeclaration :=
  m.params.find? fun param => param.name? = some name

/-- The parameter whose value an input begins with: the last one of its name that has a value. -/
def lastOf? (m : LoadedModule) (name : String) : Option ParamDeclaration :=
  m.params.reverse.find? fun param =>
    param.name? = some name && Dictionary.contains param.props "value"

theorem named_of_lastOf (found : m.lastOf? name = some param) :
    param ∈ m.params ∧ param.name? = some name := by
  have whole := List.find?_some found
  have both : decide (param.name? = some name) && Dictionary.contains param.props "value" := whole
  exact ⟨List.mem_reverse.mp (List.mem_of_find?_eq_some found),
    of_decide_eq_true (Bool.and_eq_true_iff.mp both).1⟩

theorem beginning?_eq (param : ParamDeclaration) : param.beginning? = param.name?.bind fun name =>
    (Dictionary.find? param.props "value").map fun value => (name, value.coerce param.valueType) := by
  rw [ParamDeclaration.beginning?, initially?]
  change (param.name?.bind fun name => _) = _
  cases param.name? with
  | none => rfl
  | some name => cases Dictionary.find? param.props "value" <;> rfl

theorem begins_iff (param : ParamDeclaration) (name : String) :
    (param.beginning?.any fun entry => entry.1 = name) =
      (param.name? = some name && Dictionary.contains param.props "value") := by
  rw [beginning?_eq, Dictionary.contains]
  cases param.name? with
  | none => rfl
  | some own => cases Dictionary.find? param.props "value" <;> simp

/-- An input begins with the value of the last parameter of its name that has one. -/
theorem find?_initialState (m : LoadedModule) (name : String) :
    Dictionary.find? m.initialState name = (m.lastOf? name).bind fun param =>
      (Dictionary.find? param.props "value").map fun value => value.coerce param.valueType := by
  rw [initialState_eq, Dictionary.ofList, Dictionary.find?_foldl_insert, Dictionary.find?_nil,
    Option.or_none, ← List.filterMap_reverse, lookup_filterMap]
  simp only [begins_iff]
  change (m.lastOf? name).bind _ = _
  cases found : m.lastOf? name with
  | none => rfl
  | some param =>
    rw [Option.bind_some, Option.bind_some, beginning?_eq, (named_of_lastOf found).2,
      Option.bind_some, Option.map_map]
    rfl

theorem exists_lastOf (h : Dictionary.contains m.initialState name = true) :
    ∃ last, m.lastOf? name = some last := by
  rw [Dictionary.contains, find?_initialState] at h
  cases found : m.lastOf? name with
  | none =>
    rw [found] at h
    cases h
  | some last => exact ⟨last, rfl⟩

theorem exists_firstOf (h : Dictionary.contains m.initialState name = true) :
    ∃ first, m.firstOf? name = some first := by
  obtain ⟨last, found⟩ := exists_lastOf h
  obtain ⟨member, named⟩ := named_of_lastOf found
  exact Option.isSome_iff_exists.mp (List.find?_isSome.mpr ⟨last, member, decide_eq_true named⟩)

end LoadedModule

/-- Types that make the same of every text are one type: no two make the same of a letter. -/
theorem Json.coerce_injective {a b : ValueType}
    (h : ∀ text, (Json.str text).coerce a = (Json.str text).coerce b) : a = b := by
  have noNumeral : Decimal.numeral? (Text.trim "x".toList) = none := by decide
  have noJson : (ofText? "x").isNone = true := by decide +kernel
  have boolean : (Json.str "x").coerce .boolean = .bool false := by simp [coerce]
  have number : (Json.str "x").coerce .number = .int 0 := by
    rw [coerce]
    simp only [noNumeral]
  have object : (Json.str "x").coerce .object = .obj [] := by
    simp [coerce, Option.isNone_iff_eq_none.mp noJson]
  have string : (Json.str "x").coerce .string = .str "x" := rfl
  have same := h "x"
  cases a <;> cases b <;> simp [boolean, number, object, string] at same ⊢

namespace CommandLine

open FileTask (perform)

variable {m : LoadedModule} {set name text : String} {sets : List String} {state : InputState}

/-! What is given on the command line. -/

/-- What stands before the first equals sign is the name, so no name with such a sign can be given. -/
theorem nameAndValue?_eq_some : nameAndValue? set = some (name, text) ↔
    set = name ++ "=" ++ text ∧ '=' ∉ name.toList := by
  rw [nameAndValue?]
  constructor
  · intro h
    split at h
    · next c rest found =>
      obtain ⟨rfl, rfl⟩ := Prod.mk.inj (Option.some.inj h)
      have first := List.head?_dropWhile_not (fun c => decide (c ≠ '=')) set.toList
      rw [found] at first
      obtain rfl : c = '=' := by simpa using first
      constructor
      · have whole := List.takeWhile_append_dropWhile (p := fun c => decide (c ≠ '=')) (l := set.toList)
        rw [found] at whole
        rw [← String.toList_inj, String.toList_append, String.toList_append, String.toList_ofList,
          String.toList_ofList, String.toList_ofList, List.append_assoc]
        exact whole.symm
      · intro member
        rw [String.toList_ofList] at member
        have kept := List.mem_takeWhile_imp member
        simp at kept
    · cases h
  · rintro ⟨rfl, noEquals⟩
    have kept : ∀ c ∈ name.toList, decide (c ≠ '=') = true := fun c member =>
      decide_eq_true fun equals => noEquals (equals ▸ member)
    have whole : (name ++ "=" ++ text).toList = name.toList ++ '=' :: text.toList := by simp
    rw [whole, List.dropWhile_append_of_pos kept, List.takeWhile_append_of_pos kept]
    simp

/-- The text given for an input, which is the last one where there are several. -/
def given? (sets : List String) (name : String) : Option String :=
  (sets.filterMap nameAndValue?).reverse.lookup name

theorem given?_cons (found : nameAndValue? set = some (name, text)) (sets : List String)
    (other : String) : given? (set :: sets) other =
      (given? sets other).or (if other = name then some text else none) := by
  rw [given?, List.filterMap_cons_some found, List.reverse_cons, List.lookup_append, given?]
  exact congrArg _ (Dictionary.find?_cons (name, text) [] other)

theorem exists_of_given (given : given? sets name = some text) :
    ∃ set ∈ sets, nameAndValue? set = some (name, text) := by
  have member := List.mem_reverse.mp (Dictionary.mem_of_find?_eq_some given)
  exact List.mem_filterMap.mp member

theorem override_eq_ok {first : ParamDeclaration} (found : nameAndValue? set = some (name, text))
    (param : m.firstOf? name = some first) : override m state set =
      .ok (Dictionary.insert name ((Json.str text).coerce first.valueType) state) := by
  rw [LoadedModule.firstOf?] at param
  rw [override, found]
  dsimp only
  rw [param]

/-- Texts for known inputs are all taken, each for the first parameter of its name. -/
theorem exists_foldlM_override
    (named : ∀ set ∈ sets, ∃ name text first,
      nameAndValue? set = some (name, text) ∧ m.firstOf? name = some first)
    (ordered : Dictionary.IsOrdered state) :
    ∃ after, sets.foldlM (override m) state = .ok after ∧ Dictionary.IsOrdered after ∧
      ∀ name, Dictionary.find? after name =
        match given? sets name with
        | none => Dictionary.find? state name
        | some text => (m.firstOf? name).map fun first => (Json.str text).coerce first.valueType := by
  induction sets generalizing state with
  | nil => exact ⟨state, rfl, ordered, fun _ => rfl⟩
  | cons set more ih =>
    obtain ⟨⟨name, text, first, found, param⟩, named⟩ := List.forall_mem_cons.mp named
    obtain ⟨after, run, order, values⟩ := ih named
      (ordered.insert name ((Json.str text).coerce first.valueType))
    refine ⟨after, ?_, order, fun other => ?_⟩
    · rw [List.foldlM_cons, override_eq_ok found param]
      exact run
    · rw [values, given?_cons found]
      cases given? more other with
      | some later => rfl
      | none =>
        rw [Dictionary.find?_insert, Option.none_or]
        by_cases same : other = name
        · rw [if_pos same, if_pos same, same, param]
          rfl
        · rw [if_neg same, if_neg same]

/-! Rendering. -/

/-- What is shown of a document: the values of its inputs, and what it renders under them. -/
def rendering (m : LoadedModule) (state : InputState) : Outcome :=
  .json (.object [("inputs", .obj state), ("tree", (Json.arr (renderNodesJson (m.render state))).ordered)])

theorem perform_readSource {now : Nat} {t : FileTree} {path : Path} {source : String}
    (read : t.read path = .ok source) : perform now (readSource path) t = (.ok source, t) := by
  rw [perform, readSource, ExceptT.run_mk, FileProgram.run_read, read]
  rfl

theorem perform_render {config : Config} {file source : String} {built : CompiledModule} {now : Nat}
    {t : FileTree} (read : t.read ⟨file, []⟩ = .ok source)
    (compiled : (config.compiler.compile source (logicalName ⟨file, []⟩ config)).outcome = .ok built)
    (run : sets.foldlM (override built.component) built.component.initialState = .ok state) :
    perform now (execute config (.render file sets)) t =
      (.ok (rendering built.component state), t) := by
  have whole : perform now (compileFile config file) t =
      (.ok (config.compiler.compile source (logicalName ⟨file, []⟩ config)), t) :=
    FileTask.perform_bind_of_ok (perform_readSource read)
  have rendered : render sets (config.compiler.compile source (logicalName ⟨file, []⟩ config)) =
      .ok (rendering built.component state) := by
    rw [render, compiled]
    dsimp only
    rw [run]
    rfl
  rw [execute, FileTask.perform_bind_of_ok whole, rendered]
  exact FileTask.perform_ofExcept _

/-- A document that compiles is rendered with the texts given for its inputs, the last one for each. A
text becomes a value of the type of the first parameter of its name, where what it replaces is of the
type of the last one that has a value; both types make the same of every text only if they are one. -/
theorem inputs_of_render {config : Config} {file source : String} {built : CompiledModule}
    {t : FileTree} (now : Nat) (read : t.read ⟨file, []⟩ = .ok source)
    (compiled : (config.compiler.compile source (logicalName ⟨file, []⟩ config)).outcome = .ok built)
    {sets : List String}
    (named : ∀ set ∈ sets, ∃ name text, nameAndValue? set = some (name, text) ∧
      Dictionary.contains built.component.initialState name = true) :
    ∃ state,
      perform now (execute config (.render file sets)) t = (.ok (rendering built.component state), t) ∧
      Dictionary.IsOrdered state ∧
      (∀ name, given? sets name = none →
        Dictionary.find? state name = Dictionary.find? built.component.initialState name) ∧
      ∀ name text, given? sets name = some text →
        ∃ first last, built.component.firstOf? name = some first ∧
          built.component.lastOf? name = some last ∧
          Dictionary.find? built.component.initialState name =
            (Dictionary.find? last.props "value").map (fun value => value.coerce last.valueType) ∧
          Dictionary.find? state name = some ((Json.str text).coerce first.valueType) ∧
          ((∀ other, (Json.str other).coerce first.valueType = (Json.str other).coerce last.valueType) ↔
            first.valueType = last.valueType) := by
  have known : ∀ set ∈ sets, ∃ name text first,
      nameAndValue? set = some (name, text) ∧ built.component.firstOf? name = some first := by
    intro set member
    obtain ⟨name, text, found, there⟩ := named set member
    obtain ⟨first, isFirst⟩ := LoadedModule.exists_firstOf there
    exact ⟨name, text, first, found, isFirst⟩
  have start : Dictionary.IsOrdered built.component.initialState := Dictionary.isOrdered_ofList _
  obtain ⟨state, run, ordered, values⟩ := exists_foldlM_override known start
  refine ⟨state, perform_render read compiled run, ordered, fun name none => ?_,
    fun name text given => ?_⟩
  · rw [values, none]
  · obtain ⟨set, member, found⟩ := exists_of_given given
    obtain ⟨_, _, same, there⟩ := named set member
    obtain ⟨rfl, rfl⟩ := Prod.mk.inj (Option.some.inj (found.symm.trans same))
    obtain ⟨first, isFirst⟩ := LoadedModule.exists_firstOf there
    obtain ⟨last, isLast⟩ := LoadedModule.exists_lastOf there
    refine ⟨first, last, isFirst, isLast, ?_, ?_, Json.coerce_injective, fun same _ => by rw [same]⟩
    · rw [LoadedModule.find?_initialState, isLast, Option.bind_some]
    · rw [values, given, isFirst]
      rfl

/-- A switch and a text of one name. -/
def repeated : String :=
  "<Toggle name=\"a\" value=\"true\" /><TextInput name=\"a\" value=\"x\" />"

/-- The inputs with the standard imports. -/
def repeatedText : String :=
  "<script>\nimport Chart from \"Chart\";\nimport Filter from \"Filter\";\nimport Grid from \"Grid\";\n</script>\n<Toggle name=\"a\" value=\"true\" /><TextInput name=\"a\" value=\"x\" />"

/-- What the inputs are generated into. -/
def repeatedModule : String :=
  "// dashc module\nmodule \"a.dash\"\nimport Chart from \"Chart\"\nimport Filter from \"Filter\"\nimport Grid from \"Grid\"\nparam Toggle boolean \x7b\"name\":\"a\",\"value\":\"true\"\x7d\nparam TextInput string \x7b\"name\":\"a\",\"value\":\"x\"\x7d\n"

/-- The types of the first and the last parameter of a name, and whether there is an input. -/
def typesOf (name : String) (m : LoadedModule) : Option ValueType × Option ValueType × Bool :=
  ((m.firstOf? name).map (·.valueType), (m.lastOf? name).map (·.valueType),
    Dictionary.contains m.initialState name)

set_option maxRecDepth 4000 in
theorem exists_compiled_repeated : ∃ built,
    (Compiler.compile {} repeated "a.dash").outcome = .ok built ∧
      typesOf "a" built.component = (some .boolean, some .string, true) := by
  have chars : repeated.toList = _ := String.toList_ofList
  have text : repeatedText.toList = _ := String.toList_ofList
  have code : repeatedModule.toList = _ := String.toList_ofList
  refine @Compiler.exists_compiled_of_stages {} repeated "a.dash" _ repeatedText repeatedModule
    (typesOf "a") _ ?_ ?_ ?_ ?_
  · rw [gate, Prefilter.scan, Markup.parse_of_toList chars, chars]
    decide +kernel
  · refine toOption_eq_some.mpr
      (Markup.preprocess_of_toList (Markup.importing_eq.trans String.toList_ofList) ?_)
    rw [Markup.parse_of_toList chars, chars, text]
    decide +kernel
  · exact code_of_toList text code (by decide +kernel)
  · rw [Sandbox.load, code]
    decide +kernel

/-- A tree that holds one file. -/
def single (source : String) : FileTree := ⟨[(["a.dash"], .file source)], []⟩

theorem read_single (source : String) : (single source).read ⟨"a.dash", []⟩ = .ok source := rfl

theorem nameAndValue?_hi : nameAndValue? "a=hi" = some ("a", "hi") := by decide

/-- The text is read for the switch, which is the first of the name. -/
theorem inputs_of_render_repeated : ∃ built state,
    (Compiler.compile {} repeated "a.dash").outcome = .ok built ∧
      perform 0 (execute {} (.render "a.dash" ["a=hi"])) (single repeated) =
        (.ok (rendering built.component state), single repeated) ∧
      Dictionary.find? state "a" = some (.bool false) := by
  obtain ⟨built, compiled, types⟩ := exists_compiled_repeated
  obtain ⟨ofFirst, -, there⟩ := Prod.mk.inj types |>.imp id Prod.mk.inj
  have named : ∀ set ∈ ["a=hi"], ∃ name text, nameAndValue? set = some (name, text) ∧
      Dictionary.contains built.component.initialState name = true := by
    intro set member
    rw [List.mem_singleton.mp member]
    exact ⟨"a", "hi", nameAndValue?_hi, there⟩
  obtain ⟨state, performed, -, -, values⟩ :=
    @inputs_of_render {} "a.dash" _ _ _ 0 (read_single repeated) compiled _ named
  obtain ⟨first, -, isFirst, -, -, value, -⟩ := values "a" "hi" (by decide)
  rw [isFirst, Option.map_some, Option.some.injEq] at ofFirst
  refine ⟨built, state, compiled, performed, ?_⟩
  rw [value, ofFirst]
  simp [Json.coerce]

/-- The input begins as a text, and a text given for it becomes a value of the switch. -/
theorem render_repeated : ∃ built last state,
    (Compiler.compile {} repeated "a.dash").outcome = .ok built ∧
      Dictionary.contains built.component.initialState "a" = true ∧
      built.component.lastOf? "a" = some last ∧
      perform 0 (execute {} (.render "a.dash" ["a=hi"])) (single repeated) =
        (.ok (rendering built.component state), single repeated) ∧
      Dictionary.find? state "a" ≠ some ((Json.str "hi").coerce last.valueType) := by
  obtain ⟨built, compiled, types⟩ := exists_compiled_repeated
  obtain ⟨ofFirst, ofLast, there⟩ := Prod.mk.inj types |>.imp id Prod.mk.inj
  obtain ⟨first, isFirst, switch⟩ := Option.map_eq_some_iff.mp ofFirst
  obtain ⟨last, isLast, string⟩ := Option.map_eq_some_iff.mp ofLast
  have run : ["a=hi"].foldlM (override built.component) built.component.initialState = .ok
      (Dictionary.insert "a" ((Json.str "hi").coerce first.valueType) built.component.initialState) := by
    rw [List.foldlM_cons, override_eq_ok nameAndValue?_hi isFirst]
    rfl
  refine ⟨built, last, _, compiled, there, isLast,
    @perform_render _ _ {} "a.dash" _ _ _ _ (read_single repeated) compiled run, ?_⟩
  rw [Dictionary.find?_insert, if_pos rfl, switch, string]
  simp [Json.coerce]

end CommandLine

end Dashboard
