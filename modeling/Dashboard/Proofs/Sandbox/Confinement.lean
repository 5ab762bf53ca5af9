import Dashboard.Proofs.Module.Lines
import Dashboard.Proofs.Sandbox.Steps

/-!
Confinement of the sandbox. Whatever text is loaded, the content mounts only what the module has
imported, the module imports only widgets of the sandbox, and so rendering shows no other widgets.
-/
namespace Dashboard

open Dashboard.Module (Instruction LoadError)

mutual

/-- The bindings of all mounts in a piece of content. -/
def Content.bindings : Content → List String
  | .mount binding _ children => binding :: bindingsAll children
  | .choice _ consequent alternate => bindingsAll consequent ++ bindingsAll alternate
  | .text _ | .shown _ => []

def bindingsAll : List Content → List String
  | [] => []
  | first :: more => first.bindings ++ bindingsAll more

end

mutual

/-- The names of all widgets in a rendered tree. -/
def RenderNode.widgetNames : RenderNode → List String
  | .widget name _ children => name :: widgetNamesAll children
  | .text _ => []

def widgetNamesAll : List RenderNode → List String
  | [] => []
  | first :: more => first.widgetNames ++ widgetNamesAll more

end

theorem bindingsAll_append (a b : List Content) :
    bindingsAll (a ++ b) = bindingsAll a ++ bindingsAll b := by
  induction a with
  | nil => rfl
  | cons first more ih => simp [bindingsAll, ih]

theorem widgetNamesAll_append (a b : List RenderNode) :
    widgetNamesAll (a ++ b) = widgetNamesAll a ++ widgetNamesAll b := by
  induction a with
  | nil => rfl
  | cons first more ih => simp [widgetNamesAll, ih]

def Frame.bindings : Frame → List String
  | .widget binding _ children => binding :: bindingsAll children
  | .choice _ consequent alternate => bindingsAll consequent ++ bindingsAll (alternate.getD [])

namespace Module.Instruction

variable {isBound : String → Bool} {number : Nat} {line rest : List Char} {i : Instruction}

theorem readWidget_eq_ok {make : String → Dictionary Json → Instruction}
    (h : readWidget number rest isBound make = .ok i) :
    ∃ binding props, isBound binding = true ∧ i = make binding props := by
  simp only [readWidget] at h
  split_ifs at h with known
  obtain ⟨props, -, rfl⟩ := map_eq_ok.mp h
  exact ⟨_, props, known, rfl⟩

theorem readReference_eq_ok {make : String → Instruction}
    (h : readReference number line rest make = .ok i) : ∃ name, i = make name := by
  rw [readReference] at h
  split at h
  · exact ⟨_, (Except.ok.inj h).symm⟩
  · cases h

theorem readBind_eq_ok (h : readBind number line rest = .ok i) :
    ∃ name source, i = .bind name source := by
  rw [readBind] at h
  split at h
  · cases h
  · obtain ⟨source, -, rfl⟩ := map_eq_ok.mp h
    exact ⟨_, source, rfl⟩

theorem readParam_eq_ok (h : readParam number line rest = .ok i) :
    ∃ component valueType props, i = .param component valueType props := by
  rw [readParam] at h
  split at h
  · cases h
  · split at h
    · cases h
    · split at h
      · cases h
      · obtain ⟨props, -, rfl⟩ := map_eq_ok.mp h
        exact ⟨_, _, props, rfl⟩

theorem readConstant_eq_ok (h : readConstant number line rest = .ok i) :
    ∃ name value, i = .constant name value := by
  rw [readConstant] at h
  split at h
  · cases h
  · split at h
    · obtain rfl := Except.ok.inj h
      exact ⟨_, _, rfl⟩
    · cases h

/-- A line is read as an instruction with its operator. -/
theorem operator_of_read (h : read isBound number line = .ok i) :
    String.ofList (splitSpace line).1 = i.parts.1 := by
  unfold read at h
  dsimp only at h
  generalize String.ofList (splitSpace line).1 = operator at h ⊢
  split at h
  case h_1 | h_11 =>
    obtain ⟨_, -, rfl⟩ := map_eq_ok.mp h
    rfl
  case h_2 =>
    obtain ⟨_, _, rfl⟩ := readBind_eq_ok h
    rfl
  case h_3 =>
    obtain ⟨_, _, _, rfl⟩ := readParam_eq_ok h
    rfl
  case h_4 =>
    obtain ⟨_, _, rfl⟩ := readConstant_eq_ok h
    rfl
  case h_5 | h_6 =>
    obtain ⟨_, _, -, rfl⟩ := readWidget_eq_ok h
    rfl
  case h_8 | h_12 =>
    obtain ⟨_, rfl⟩ := readReference_eq_ok h
    rfl
  case h_13 => cases h
  all_goals
    obtain rfl := Except.ok.inj h
    rfl

/-- An instruction that is read mounts or opens no binding, or a known one. -/
theorem binding?_of_read (h : read isBound number line = .ok i) :
    i.binding? = none ∨ ∃ binding, i.binding? = some binding ∧ isBound binding = true := by
  have widget {rest : List Char} {make : String → Dictionary Json → Instruction}
      (named : ∀ binding props, (make binding props).binding? = some binding)
      (h : readWidget number rest isBound make = .ok i) :
      i.binding? = none ∨ ∃ binding, i.binding? = some binding ∧ isBound binding = true := by
    obtain ⟨binding, props, known, rfl⟩ := readWidget_eq_ok h
    exact .inr ⟨binding, named binding props, known⟩
  simp only [read] at h
  split at h
  · obtain ⟨_, -, rfl⟩ := map_eq_ok.mp h
    exact .inl rfl
  · obtain ⟨_, _, rfl⟩ := readBind_eq_ok h
    exact .inl rfl
  · obtain ⟨_, _, _, rfl⟩ := readParam_eq_ok h
    exact .inl rfl
  · obtain ⟨_, _, rfl⟩ := readConstant_eq_ok h
    exact .inl rfl
  · exact widget (fun _ _ => rfl) h
  · exact widget (fun _ _ => rfl) h
  · obtain rfl := Except.ok.inj h
    exact .inl rfl
  · obtain ⟨name, rfl⟩ := readReference_eq_ok h
    exact .inl rfl
  · obtain rfl := Except.ok.inj h
    exact .inl rfl
  · obtain rfl := Except.ok.inj h
    exact .inl rfl
  · obtain ⟨_, -, rfl⟩ := map_eq_ok.mp h
    exact .inl rfl
  · obtain ⟨name, rfl⟩ := readReference_eq_ok h
    exact .inl rfl
  · cases h

/-- Only a known binding is read. -/
theorem isBound_of_read (h : read isBound number line = .ok i) (binding : String)
    (named : i.binding? = some binding) : isBound binding = true := by
  obtain none | ⟨found, some, known⟩ := binding?_of_read h
  · rw [none] at named
    cases named
  · obtain rfl := Option.some.inj (some.symm.trans named)
    exact known

end Module.Instruction

/-- Every key of the map is the name of its widget. -/
def Capabilities.AreNamed (capabilities : Capabilities) : Prop :=
  ∀ name widget, Dictionary.find? capabilities name = some widget → widget.name = name

theorem Capabilities.AreNamed.with {capabilities : Capabilities} (named : capabilities.AreNamed)
    (widget : Widget) : (capabilities.with widget).AreNamed := by
  intro name found h
  rw [Capabilities.with, Dictionary.find?_insert] at h
  split_ifs at h with same
  · obtain rfl := Option.some.inj h
    exact same.symm
  · exact named name found h

/-- The map of a list of widgets, a later one in the place of an earlier one with its name. -/
def Capabilities.ofWidgets (widgets : List Widget) : Capabilities :=
  widgets.foldl Capabilities.with []

theorem Capabilities.areNamed_ofWidgets (widgets : List Widget) :
    (ofWidgets widgets).AreNamed := by
  have general : ∀ capabilities : Capabilities, capabilities.AreNamed →
      (widgets.foldl Capabilities.with capabilities).AreNamed := by
    induction widgets with
    | nil => exact fun _ named => named
    | cons widget more ih => exact fun _ named => ih _ (named.with widget)
  exact general [] fun _ _ h => by cases h

namespace Loader

/-- What stays true while a module is loaded: mounts name imports, and imports are widgets of the
sandbox. -/
structure Confined (capabilities : Capabilities) (l : Loader) : Prop where
  body : ∀ binding ∈ bindingsAll l.loaded.body,
    Dictionary.contains l.loaded.imports binding = true
  stack : ∀ frame ∈ l.stack, ∀ binding ∈ frame.bindings,
    Dictionary.contains l.loaded.imports binding = true
  imports : ∀ name widget, Dictionary.find? l.loaded.imports name = some widget →
    Dictionary.contains capabilities widget.name = true

variable {capabilities : Capabilities} {limits : SandboxLimits}

theorem confined_empty : Confined capabilities {} :=
  ⟨by simp [bindingsAll], by simp, by simp⟩

theorem bindings_add (content : Content) (frame : Frame) :
    ∀ binding ∈ (frame.add content).bindings,
      binding ∈ frame.bindings ∨ binding ∈ content.bindings := by
  intro binding member
  cases frame with
  | widget name props children =>
    simp only [Frame.add, Frame.bindings, bindingsAll_append, bindingsAll, List.append_nil,
      List.mem_cons, List.mem_append] at member ⊢
    tauto
  | choice name consequent alternate =>
    cases alternate <;>
    · simp only [Frame.add, Frame.bindings, Option.getD_none, Option.getD_some, bindingsAll_append,
        bindingsAll, List.append_nil, List.mem_append] at member ⊢
      tauto

theorem Confined.push {l : Loader} (confined : l.Confined capabilities) {content : Content}
    (known : ∀ binding ∈ content.bindings, Dictionary.contains l.loaded.imports binding = true) :
    (l.push content).Confined capabilities := by
  unfold Loader.push
  split
  · refine ⟨?_, confined.stack, confined.imports⟩
    intro binding member
    simp only [bindingsAll_append, bindingsAll, List.append_nil, List.mem_append] at member
    exact member.elim (confined.body binding) (known binding)
  · next frame outer shape =>
    refine ⟨confined.body, ?_, confined.imports⟩
    intro other member binding named
    rcases List.mem_cons.mp member with rfl | member
    · rcases bindings_add content frame binding named with earlier | new
      · exact confined.stack frame (by simp [shape]) binding earlier
      · exact known binding new
    · exact confined.stack other (by simp [shape, member]) binding named

/-- Opening a block puts its frame on the stack. -/
theorem Confined.open {l : Loader} (confined : l.Confined capabilities) {frame : Frame}
    (known : ∀ binding ∈ frame.bindings, Dictionary.contains l.loaded.imports binding = true) :
    Confined capabilities { l with stack := frame :: l.stack } := by
  refine ⟨confined.body, ?_, confined.imports⟩
  intro other member binding named
  rcases List.mem_cons.mp member with rfl | member
  · exact known binding named
  · exact confined.stack other member binding named

/-- Closing a block takes its frame off the stack and adds what it holds. -/
theorem Confined.close {l : Loader} (confined : l.Confined capabilities) {frame : Frame}
    {outer : List Frame} (shape : l.stack = frame :: outer) {content : Content}
    (same : ∀ binding ∈ content.bindings, binding ∈ frame.bindings) :
    (Loader.push { l with stack := outer } content).Confined capabilities := by
  have popped : Confined capabilities { l with stack := outer } :=
    ⟨confined.body, fun other member => confined.stack other (by simp [shape, member]),
      confined.imports⟩
  exact popped.push fun binding member =>
    confined.stack frame (by simp [shape]) binding (same binding member)

theorem Confined.bind {l : Loader} (named : capabilities.AreNamed)
    (confined : l.Confined capabilities) (name source : String) {widget : Widget}
    (found : Dictionary.find? capabilities source = some widget) :
    Confined capabilities
      { l with loaded := { l.loaded with
          imports := Dictionary.insert name widget l.loaded.imports } } := by
  have grows : ∀ binding, Dictionary.contains l.loaded.imports binding = true →
      Dictionary.contains (Dictionary.insert name widget l.loaded.imports) binding = true := by
    intro binding known
    rw [Dictionary.contains_insert, known, Bool.or_true]
  refine ⟨fun binding member => grows _ (confined.body binding member),
    fun frame member binding named => grows _ (confined.stack frame member binding named), ?_⟩
  intro other imported h
  rw [Dictionary.find?_insert] at h
  split_ifs at h with same
  · obtain rfl := Option.some.inj h
    rw [named source widget found, Dictionary.contains, found]
    rfl
  · exact confined.imports other imported h

/-- One instruction whose binding is known. -/
theorem Confined.execute {l next : Loader} (named : capabilities.AreNamed)
    (confined : l.Confined capabilities) {i : Instruction}
    (known : ∀ binding, i.binding? = some binding →
      Dictionary.contains l.loaded.imports binding = true)
    (h : Executes capabilities limits l i next) : next.Confined capabilities := by
  cases h with
  | title | param | constant => exact ⟨confined.body, confined.stack, confined.imports⟩
  | bind name source found => exact confined.bind named name source found
  | mount binding props =>
    refine confined.push fun other member => ?_
    obtain rfl : other = binding := by simpa [Content.bindings, bindingsAll] using member
    exact known other rfl
  | text | shown => exact confined.push (by simp [Content.bindings])
  | openWidget binding props =>
    refine confined.open fun other member => ?_
    obtain rfl : other = binding := by simpa [Frame.bindings, bindingsAll] using member
    exact known other rfl
  | whenInput name => exact confined.open (by simp [Frame.bindings, bindingsAll])
  | closeWidget shape => exact confined.close shape fun _ member => member
  | @otherwise name consequent outer shape =>
    refine ⟨confined.body, fun frame member binding named => ?_, confined.imports⟩
    rcases List.mem_cons.mp member with rfl | member
    · exact confined.stack (.choice name consequent none) (by simp [shape]) binding named
    · exact confined.stack frame (by simp [shape, member]) binding named
  | endWhen shape => exact confined.close shape fun _ member => member

theorem Confined.line {l next : Loader} (named : capabilities.AreNamed)
    (confined : l.Confined capabilities) {number : Nat} {text : List Char}
    (h : Loader.line capabilities limits number l text = .ok next) :
    next.Confined capabilities := by
  rcases line_eq_ok.mp h with ⟨-, rfl⟩ | ⟨-, -, i, read, executed⟩
  · exact confined
  · have counted : (l.counted 1).Confined capabilities :=
      ⟨confined.body, confined.stack, confined.imports⟩
    exact counted.execute named (Instruction.isBound_of_read read) executed

/-- However far a text is loaded. -/
theorem Confined.lines {texts : List (List Char)} {l last : Loader}
    (named : capabilities.AreNamed) (confined : l.Confined capabilities) {number : Nat}
    (h : Loader.lines capabilities limits number l texts = .ok last) :
    last.Confined capabilities := by
  induction texts generalizing l number with
  | nil =>
    obtain rfl := Except.ok.inj h
    exact confined
  | cons first more ih =>
    obtain ⟨next, here, later⟩ := bind_eq_ok.mp h
    exact ih (confined.line named here) later

end Loader

namespace LoadedModule

variable {capabilities : Capabilities} {imports : Dictionary Widget}

mutual

/-- Rendering shows only widgets that are imported. -/
theorem widgetNames_renderContent
    (inside : ∀ name widget, Dictionary.find? imports name = some widget →
      Dictionary.contains capabilities widget.name = true) (state : InputState)
    (content : Content) :
    ∀ name ∈ widgetNamesAll (renderContent imports state content),
      Dictionary.contains capabilities name = true := by
  match content with
  | .mount binding props children =>
    have inner := widgetNames_renderAll inside state children
    intro name member
    rw [renderContent] at member
    split at member
    · simp [widgetNamesAll] at member
    · next widget found =>
      rw [Widget.render] at member
      split_ifs at member
      · simp [widgetNamesAll] at member
      · simp only [Option.toList_some, widgetNamesAll, RenderNode.widgetNames, List.append_nil,
          List.mem_cons] at member
        rcases member with rfl | member
        · exact inside binding widget found
        · exact inner name member
  | .choice name consequent alternate =>
    have first := widgetNames_renderAll inside state consequent
    have second := widgetNames_renderAll inside state alternate
    rw [renderContent]
    split_ifs
    · exact first
    · exact second
  | .text data => simp [renderContent, widgetNamesAll, RenderNode.widgetNames]
  | .shown name => simp [renderContent, widgetNamesAll, RenderNode.widgetNames]

theorem widgetNames_renderAll
    (inside : ∀ name widget, Dictionary.find? imports name = some widget →
      Dictionary.contains capabilities widget.name = true) (state : InputState)
    (contents : List Content) :
    ∀ name ∈ widgetNamesAll (renderAll imports state contents),
      Dictionary.contains capabilities name = true := by
  match contents with
  | [] => simp [renderAll, widgetNamesAll]
  | first :: more =>
    intro name member
    rw [renderAll, widgetNamesAll_append, List.mem_append] at member
    exact member.elim (widgetNames_renderContent inside state first name)
      (widgetNames_renderAll inside state more name)

end

end LoadedModule

/-- A module that was loaded mounts what it imports, and renders widgets of the sandbox. -/
theorem Sandbox.confined_of_load {s : Sandbox} (named : s.capabilities.AreNamed) {code : String}
    {m : LoadedModule} (h : s.load code = .ok m) :
    (∀ binding ∈ bindingsAll m.body, Dictionary.contains m.imports binding = true) ∧
      ∀ (state : InputState), ∀ name ∈ widgetNamesAll (m.render state),
        Dictionary.contains s.capabilities name = true := by
  obtain ⟨last, read, finished⟩ := bind_eq_ok.mp h
  have confined := Loader.Confined.lines named Loader.confined_empty read
  rw [Loader.finish] at finished
  split_ifs at finished
  obtain rfl := Except.ok.inj finished
  exact ⟨confined.body, fun state => LoadedModule.widgetNames_renderAll confined.imports state _⟩

end Dashboard
