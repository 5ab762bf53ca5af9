import Dashboard.Proofs.Sandbox.Confinement

/-!
What rendering reads of the inputs. The text of a module fixes the names once and for all: they
stand in its conditions, in its expressions and in the placeholders of its props. Two states that
agree on these names are rendered alike, whatever else they hold, since a text that takes the place
of a placeholder is not searched again.
-/
namespace Dashboard

open Dashboard.Module (Instruction LoadError)

namespace Json

mutual

/-- The names in all placeholders of a value, at any depth. Keys hold none. -/
def references : Json → List String
  | .str text => Placeholder.references text
  | .arr items => itemReferences items
  | .obj entries => entryReferences entries
  | .null | .bool _ | .int _ | .float _ => []

def itemReferences : List Json → List String
  | [] => []
  | first :: more => references first ++ itemReferences more

def entryReferences : List (String × Json) → List String
  | [] => []
  | (_, value) :: more => references value ++ entryReferences more

end

end Json

namespace Module

def Instruction.references : Instruction → List String
  | .mount _ props | .openWidget _ props => Json.entryReferences props
  | .whenInput name | .shown name => [name]
  | .title _ | .bind _ _ | .param _ _ _ | .constant _ _ | .closeWidget | .otherwise | .endWhen
  | .text _ => []

/-- The instruction on a line, whatever is bound and wherever the line stands. -/
def instruction? (line : List Char) : Option Instruction :=
  if holdsInstruction line then (Instruction.read (fun _ => true) 0 line).toOption else none

def lineReferences (line : List Char) : List String :=
  ((instruction? (Text.trim line)).map Instruction.references).getD []

/-- The names of inputs in the text of a module. -/
def references (code : String) : List String :=
  (Text.lines code.toList).flatMap lineReferences

end Module

/-- The same value, or none, under each of the names. -/
def InputState.Agree (names : List String) (a b : InputState) : Prop :=
  ∀ name ∈ names, Dictionary.find? a name = Dictionary.find? b name

namespace InputState

variable {a b : InputState} {names more : List String}

theorem Agree.mono (agree : Agree names a b) (inside : more ⊆ names) : Agree more a b :=
  fun name member => agree name (inside member)

theorem agree_append : Agree (names ++ more) a b ↔ Agree names a b ∧ Agree more a b :=
  List.forall_mem_append

theorem agree_cons {name : String} :
    Agree (name :: names) a b ↔
      Dictionary.find? a name = Dictionary.find? b name ∧ Agree names a b :=
  List.forall_mem_cons

theorem isTruthy_congr {name : String} (same : Dictionary.find? a name = Dictionary.find? b name) :
    a.isTruthy name = b.isTruthy name := by
  rw [isTruthy, isTruthy, same]

theorem shown_congr {name : String} (same : Dictionary.find? a name = Dictionary.find? b name) :
    a.shown name = b.shown name := by
  rw [shown, shown, same]

end InputState

open InputState (Agree agree_append agree_cons)

variable {a b : InputState}

/-- The pieces of a text do not depend on the state, so nothing that is put in is read again. -/
theorem Placeholder.resolve_congr {text : String} (agree : Agree (references text) a b) :
    resolve text a = resolve text b := by
  rw [resolve, resolve]
  refine congrArg String.ofList (List.flatMap_congr fun piece member => ?_)
  cases piece with
  | gap text => rfl
  | reference name =>
    have read : String.ofList name ∈ references text :=
      List.mem_filterMap.mpr ⟨.reference name, member, rfl⟩
    exact congrArg String.toList (InputState.shown_congr (agree _ read))

namespace LoadedModule

mutual

theorem resolveValue_congr (v : Json) (agree : Agree v.references a b) :
    resolveValue a v = resolveValue b v := by
  match v with
  | .null | .bool _ | .int _ | .float _ => rfl
  | .str text =>
    rw [resolveValue, resolveValue, Placeholder.resolve_congr agree]
  | .arr items =>
    rw [resolveValue, resolveValue, resolveItems_congr items agree]
  | .obj entries =>
    rw [resolveValue, resolveValue, resolveEntries_congr entries agree]

theorem resolveItems_congr (items : List Json) (agree : Agree (Json.itemReferences items) a b) :
    resolveItems a items = resolveItems b items := by
  match items with
  | [] => rfl
  | first :: more =>
    have ⟨here, later⟩ := agree_append.mp agree
    rw [resolveItems, resolveItems, resolveValue_congr first here, resolveItems_congr more later]

theorem resolveEntries_congr (entries : List (String × Json))
    (agree : Agree (Json.entryReferences entries) a b) :
    resolveEntries a entries = resolveEntries b entries := by
  match entries with
  | [] => rfl
  | (key, value) :: more =>
    have ⟨here, later⟩ := agree_append.mp agree
    rw [resolveEntries, resolveEntries, resolveValue_congr value here,
      resolveEntries_congr more later]

end

end LoadedModule

mutual

/-- The names of inputs in a piece of content, in both branches of a choice. -/
def Content.references : Content → List String
  | .mount _ props children => Json.entryReferences props ++ referencesAll children
  | .choice name consequent alternate =>
    name :: (referencesAll consequent ++ referencesAll alternate)
  | .text _ => []
  | .shown name => [name]

def referencesAll : List Content → List String
  | [] => []
  | first :: more => first.references ++ referencesAll more

end

theorem referencesAll_append (front back : List Content) :
    referencesAll (front ++ back) = referencesAll front ++ referencesAll back := by
  induction front with
  | nil => rfl
  | cons first more ih => rw [List.cons_append, referencesAll, referencesAll, ih, List.append_assoc]

namespace LoadedModule

variable (imports : Dictionary Widget)

mutual

/-- Props, the branch of a choice and so also what a widget hides depend on no other input. -/
theorem renderContent_congr (content : Content) (agree : Agree content.references a b) :
    renderContent imports a content = renderContent imports b content := by
  match content with
  | .mount binding props children =>
    have ⟨ofProps, inner⟩ := agree_append.mp agree
    rw [renderContent, renderContent, resolveEntries_congr props ofProps,
      renderAll_congr children inner]
  | .choice name consequent alternate =>
    have ⟨condition, inner⟩ := agree_cons.mp agree
    have ⟨first, second⟩ := agree_append.mp inner
    rw [renderContent, renderContent, InputState.isTruthy_congr condition,
      renderAll_congr consequent first, renderAll_congr alternate second]
  | .text data => rfl
  | .shown name =>
    have ⟨same, _⟩ := agree_cons.mp agree
    rw [renderContent, renderContent, InputState.shown_congr same]

theorem renderAll_congr (contents : List Content) (agree : Agree (referencesAll contents) a b) :
    renderAll imports a contents = renderAll imports b contents := by
  match contents with
  | [] => rfl
  | first :: more =>
    have ⟨here, later⟩ := agree_append.mp agree
    rw [renderAll, renderAll, renderContent_congr first here, renderAll_congr more later]

end

end LoadedModule

namespace Module

namespace Instruction

variable {isBound : String → Bool} {number : Nat} {line rest : List Char} {i : Instruction}

theorem readString_any {text : List Char} {value : String}
    (h : readString number text = .ok value) (other : Nat) : readString other text = .ok value := by
  unfold readString at h ⊢
  split at h
  · exact h
  · cases h

theorem readProps_any {text : List Char} {entries : Dictionary Json}
    (h : readProps number text = .ok entries) (other : Nat) :
    readProps other text = .ok entries := by
  unfold readProps at h ⊢
  split at h
  · exact h
  · cases h

theorem readBind_any (h : readBind number line rest = .ok i) (other : Nat) :
    readBind other line rest = .ok i := by
  unfold readBind at h ⊢
  split at h
  · cases h
  · obtain ⟨source, read, rfl⟩ := map_eq_ok.mp h
    exact map_eq_ok.mpr ⟨source, readString_any read other, rfl⟩

theorem readParam_any (h : readParam number line rest = .ok i) (other : Nat) :
    readParam other line rest = .ok i := by
  unfold readParam at h ⊢
  split at h
  · cases h
  · split at h
    · cases h
    · split at h
      · cases h
      · obtain ⟨entries, read, rfl⟩ := map_eq_ok.mp h
        exact map_eq_ok.mpr ⟨entries, readProps_any read other, rfl⟩

theorem readConstant_any (h : readConstant number line rest = .ok i) (other : Nat) :
    readConstant other line rest = .ok i := by
  unfold readConstant at h ⊢
  split at h
  · cases h
  · split at h
    · exact h
    · cases h

theorem readWidget_any {make : String → Dictionary Json → Instruction}
    (h : readWidget number rest isBound make = .ok i) (other : Nat) :
    readWidget other rest (fun _ => true) make = .ok i := by
  simp only [readWidget] at h ⊢
  split_ifs at h
  obtain ⟨props, read, rfl⟩ := map_eq_ok.mp h
  rw [if_pos trivial]
  exact map_eq_ok.mpr ⟨props, readProps_any read other, rfl⟩

theorem readReference_any {make : String → Instruction}
    (h : readReference number line rest make = .ok i) (other : Nat) :
    readReference other line rest make = .ok i := by
  unfold readReference at h ⊢
  split at h
  · exact h
  · cases h

/-- What is bound, and the number of the line, decide only whether a line is read. -/
theorem read_any (h : read isBound number line = .ok i) (other : Nat) :
    read (fun _ => true) other line = .ok i := by
  unfold read at h ⊢
  dsimp only at h ⊢
  generalize String.ofList (splitSpace line).1 = operator at h ⊢
  split at h
  case h_1 | h_11 =>
    obtain ⟨value, read, rfl⟩ := map_eq_ok.mp h
    exact map_eq_ok.mpr ⟨value, readString_any read other, rfl⟩
  case h_2 => exact readBind_any h other
  case h_3 => exact readParam_any h other
  case h_4 => exact readConstant_any h other
  case h_5 | h_6 => exact readWidget_any h other
  case h_8 | h_12 => exact readReference_any h other
  case h_13 => cases h
  all_goals exact h

end Instruction

theorem lineReferences_of_read {isBound : String → Bool} {number : Nat} {line : List Char}
    {i : Instruction} (holds : holdsInstruction (Text.trim line) = true)
    (h : Instruction.read isBound number (Text.trim line) = .ok i) :
    lineReferences line = i.references := by
  rw [lineReferences, instruction?, if_pos holds, Instruction.read_any h 0]
  rfl

end Module

def Frame.references : Frame → List String
  | .widget _ props children => Json.entryReferences props ++ referencesAll children
  | .choice name consequent alternate =>
    name :: (referencesAll consequent ++ referencesAll (alternate.getD []))

namespace Loader

/-- The names in everything that a loader has built so far. -/
def references (l : Loader) : List String :=
  l.stack.flatMap Frame.references ++ referencesAll l.loaded.body

variable {capabilities : Capabilities} {limits : SandboxLimits} {number : Nat} {l next : Loader}

theorem references_add (content : Content) (frame : Frame) :
    (frame.add content).references ⊆ frame.references ++ content.references := by
  intro name member
  cases frame with
  | widget binding props children =>
    simp only [Frame.add, Frame.references, referencesAll_append, referencesAll, List.append_nil,
      List.mem_append] at member ⊢
    tauto
  | choice condition consequent alternate =>
    cases alternate <;>
    · simp only [Frame.add, Frame.references, Option.getD_none, Option.getD_some,
        referencesAll_append, referencesAll, List.append_nil, List.mem_append,
        List.mem_cons] at member ⊢
      tauto

theorem references_push (l : Loader) (content : Content) :
    (l.push content).references ⊆ l.references ++ content.references := by
  intro name member
  unfold push at member
  split at member
  · next shape =>
    simpa [references, shape, referencesAll_append, referencesAll] using member
  · next frame outer shape =>
    have grown := @references_add content frame name
    simp only [references, shape, List.flatMap_cons, List.mem_append] at member grown ⊢
    tauto

theorem references_open (l : Loader) (frame : Frame) :
    references { l with stack := frame :: l.stack } ⊆ l.references ++ frame.references := by
  intro name member
  simp only [references, List.flatMap_cons, List.mem_append] at member ⊢
  tauto

/-- A block that closes brings no name that its frame did not have. -/
theorem references_close {frame : Frame} {outer : List Frame} (shape : l.stack = frame :: outer)
    {content : Content} (same : content.references = frame.references) :
    (push { l with stack := outer } content).references ⊆ l.references := by
  intro name member
  have pushed := references_push { l with stack := outer } content member
  simp only [references, shape, same, List.flatMap_cons, List.mem_append] at pushed ⊢
  tauto

/-- One instruction adds its own names and no others. -/
theorem Executes.references {i : Instruction} (h : Executes capabilities limits l i next) :
    next.references ⊆ l.references ++ i.references := by
  cases h with
  | title | bind | param | constant => exact List.subset_append_left _ _
  | mount binding props =>
    simpa [Content.references, referencesAll, Instruction.references] using
      references_push l (.mount binding props [])
  | text data => exact references_push l (.text data)
  | shown name => exact references_push l (.shown name)
  | openWidget binding props =>
    simpa [Frame.references, referencesAll, Instruction.references] using
      references_open l (.widget binding props [])
  | whenInput name =>
    simpa [Frame.references, referencesAll, Instruction.references] using
      references_open l (.choice name [] none)
  | closeWidget shape | endWhen shape =>
    exact List.subset_append_of_subset_left _ (references_close shape rfl)
  | otherwise shape =>
    refine List.subset_append_of_subset_left _ fun name member => ?_
    simpa [Loader.references, shape, Frame.references, referencesAll] using member

theorem references_line {line : List Char}
    (h : Loader.line capabilities limits number l (Text.trim line) = .ok next) :
    next.references ⊆ l.references ++ Module.lineReferences line := by
  rcases line_eq_ok.mp h with ⟨-, rfl⟩ | ⟨holds, -, i, read, executed⟩
  · exact List.subset_append_left _ _
  · rw [Module.lineReferences_of_read holds read]
    exact executed.references

/-- However far a text is loaded, what is built has no names but those of the lines so far. -/
theorem references_lines {texts : List (List Char)} {last : Loader}
    (h : Loader.lines capabilities limits number l texts = .ok last) :
    last.references ⊆ l.references ++ texts.flatMap Module.lineReferences := by
  induction texts generalizing l number with
  | nil =>
    obtain rfl := Except.ok.inj h
    exact List.subset_append_left _ _
  | cons first more ih =>
    obtain ⟨next, here, later⟩ := bind_eq_ok.mp h
    calc last.references
        ⊆ next.references ++ more.flatMap Module.lineReferences := ih later
      _ ⊆ (l.references ++ Module.lineReferences first) ++ more.flatMap Module.lineReferences :=
          List.append_subset.mpr
            ⟨List.subset_append_of_subset_left _ (references_line here),
              List.subset_append_right _ _⟩
      _ = l.references ++ (first :: more).flatMap Module.lineReferences := by
          rw [List.flatMap_cons, List.append_assoc]

end Loader

/-- The content of a loaded module refers to no input that its text does not name. -/
theorem Sandbox.references_body {s : Sandbox} {code : String} {m : LoadedModule}
    (h : s.load code = .ok m) : referencesAll m.body ⊆ Module.references code := by
  obtain ⟨last, read, finished⟩ := bind_eq_ok.mp h
  rw [Loader.finish] at finished
  split_ifs at finished
  obtain rfl := Except.ok.inj finished
  have named := Loader.references_lines read
  exact fun name member => named (List.mem_append_right _ member)

/-- Rendering reveals only the inputs that the text of the module names. -/
theorem Sandbox.render_eq_of_agree {s : Sandbox} {code : String} {m : LoadedModule}
    (loaded : s.load code = .ok m) {a b : InputState} (agree : Agree (Module.references code) a b) :
    m.render a = m.render b :=
  LoadedModule.renderAll_congr m.imports m.body (agree.mono (references_body loaded))

/-- A badge that is shown or not, and says what its title is. -/
def badge : String :=
  "import Badge from \"Badge\"\nif inputs.visible\n" ++
    "  mount Badge \x7b\"label\":[\"\x7binputs.title\x7d\"]\x7d\nend\n"

/-- A title that looks like a placeholder does not bring in the input that it seems to name. -/
theorem Sandbox.render_eq_of_agree_badge :
    let a : InputState :=
      [("secret", .int 1), ("title", .str "\x7binputs.secret\x7d"), ("visible", .bool true)]
    let b : InputState := [("title", .str "\x7binputs.secret\x7d"), ("visible", .bool true)]
    Agree (Module.references badge) a b ∧
      ∃ m, Sandbox.load ⟨.ofWidgets [⟨"Badge", false⟩], {}⟩ badge = .ok m ∧
        m.render a = m.render b := by
  intro a b
  have code : badge.toList = _ :=
    String.toList_append.trans (congrArg₂ (· ++ ·) String.toList_ofList String.toList_ofList)
  have names : Module.references badge = ["visible", "title"] := by
    rw [Module.references, code]
    decide +kernel
  have agree : Agree (Module.references badge) a b := by
    rw [names]
    refine agree_cons.mpr ⟨rfl, agree_cons.mpr ⟨rfl, ?_⟩⟩
    intro name member
    cases member
  have loads :
      (Sandbox.load ⟨.ofWidgets [⟨"Badge", false⟩], {}⟩ badge).toOption.isSome = true := by
    rw [Sandbox.load, code]
    decide +kernel
  obtain ⟨m, found⟩ := Option.isSome_iff_exists.mp loads
  have loaded := toOption_eq_some.mp found
  exact ⟨agree, m, loaded, Sandbox.render_eq_of_agree loaded agree⟩

end Dashboard
