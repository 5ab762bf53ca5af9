import Dashboard.Proofs.Generate.Modules

/-!
Loading what a document was generated into. The module is loaded exactly when it keeps to the limits
of the sandbox and all inputs that it refers to have names that a placeholder may hold; it then has
the content that its document was generated into.
-/
namespace Dashboard.Generate

open Dashboard.Module (Instruction Line nesting)

/-- A document with what it is generated into. -/
structure IsGenerated (document : Markup.Document) (b : Bindings) (out : Output)
    (cs : List Content) : Prop where
  sound : b.IsSound
  confined : b.IsConfined
  constants : b.constants = Meaning.declared document
  read : Markup.AreSound document.children maxNesting
  generates : Generates b document.children out.params (out.body.map Line.instruction) cs

/-- The declarations in front of the content. -/
def declarations (filename : String) (b : Bindings) (out : Output) : List Instruction :=
  (.title filename :: b.imports.map fun entry => Instruction.bind entry.1 entry.2) ++ out.params ++
    b.constants.map fun entry => Instruction.constant entry.1 entry.2

def instructions (filename : String) (b : Bindings) (out : Output) : List Instruction :=
  (lines filename b out).map Line.instruction

theorem instructions_eq (filename : String) (b : Bindings) (out : Output) :
    instructions filename b out =
      declarations filename b out ++ out.body.map Line.instruction := by
  rw [instructions, lines, List.map_append, List.map_map, declarations]
  congr 1
  exact List.map_id _

/-- A module has plain instructions when what is imported, declared and put into it is plain. -/
theorem isPlain_instructions {b : Bindings} {out : Output} (filename : String)
    (imports : ∀ entry ∈ b.imports, Module.IsWord entry.1) (sound : b.IsSound)
    (params : ∀ i ∈ out.params, i.IsPlain) (body : ∀ line ∈ out.body, line.instruction.IsPlain) :
    ∀ i ∈ instructions filename b out, i.IsPlain := by
  rw [instructions_eq]
  simp only [declarations, List.forall_mem_append, List.forall_mem_cons, List.forall_mem_map]
  refine ⟨⟨⟨⟨trivial, imports⟩, params⟩, fun entry member => ?_⟩, body⟩
  obtain ⟨word, standard⟩ := sound entry member
  exact ⟨word, standard.mono (by decide)⟩

/-- All inputs that the instructions refer to have names that a placeholder may hold. -/
def RefersByName (is : List Instruction) : Prop :=
  ∀ i ∈ is, ∀ name, i.reference? = some name → Placeholder.isIdentifier name.toList = true

theorem reference?_relayed (i : Instruction) : i.relayed.reference? = i.reference? := by
  cases i <;> rfl

theorem binding?_relayed (i : Instruction) : i.relayed.binding? = i.binding? := by
  cases i <;> rfl

theorem isDeclaration_relayed {i : Instruction} (h : Loader.IsDeclaration i) :
    Loader.IsDeclaration i.relayed := by
  cases i <;> exact h

theorem refersByName_relayed (is : List Instruction) :
    RefersByName (is.map Instruction.relayed) ↔ RefersByName is := by
  simp [RefersByName, reference?_relayed]

theorem nesting_relayed (is : List Instruction) : nesting (is.map Instruction.relayed) = nesting is := by
  have same (depth : Nat) : Module.nestingFrom depth (is.map Instruction.relayed) =
      Module.nestingFrom depth is := by
    induction is generalizing depth with
    | nil => rfl
    | cons i more ih =>
      have step : Module.depthAfter depth i.relayed = Module.depthAfter depth i := by
        cases i <;> rfl
      rw [List.map_cons, Module.nestingFrom, Module.nestingFrom, step, ih]
  exact same 0

theorem displays_bound : ∀ name ∈ Registry.displayNames,
    Dictionary.find? Capabilities.standard name = some ⟨name, true⟩ := by
  decide

/-- Imports bind displays to the widgets of the same name. -/
theorem foldl_declare_binds {names : List String} (known : ∀ name ∈ names, name ∈ Registry.displayNames)
    (m : LoadedModule) :
    ((names.map fun name => Instruction.bind name name).foldl Loader.declare m).imports =
      Dictionary.override m.imports (names.map fun name => (name, ⟨name, true⟩)) := by
  induction names generalizing m with
  | nil => rfl
  | cons name more ih =>
    obtain ⟨here, later⟩ := List.forall_mem_cons.mp known
    rw [List.map_cons, List.foldl_cons, ih later]
    simp [Loader.declare, displays_bound name here, Dictionary.override]

/-- Only imports bind widgets. -/
theorem foldl_declare_imports {is : List Instruction} (h : ∀ i ∈ is, ∀ name source, i ≠ .bind name source)
    (m : LoadedModule) : (is.foldl Loader.declare m).imports = m.imports := by
  induction is generalizing m with
  | nil => rfl
  | cons i more ih =>
    obtain ⟨here, later⟩ := List.forall_mem_cons.mp h
    rw [List.foldl_cons, ih later]
    cases i with
    | bind name source => exact absurd rfl (here name source)
    | _ => rfl

/-- The parameter that an instruction declares. -/
def declaration? : Instruction → Option ParamDeclaration
  | .param component valueType props => some ⟨component, valueType, props⟩
  | _ => none

theorem declare_params (m : LoadedModule) (i : Instruction) :
    (Loader.declare m i).params = m.params ++ (declaration? i).toList := by
  cases i with
  | param component valueType props => rfl
  | bind name source =>
    rw [Loader.declare]
    split <;> exact (List.append_nil _).symm
  | _ => exact (List.append_nil _).symm

theorem foldl_declare_params (is : List Instruction) (m : LoadedModule) :
    (is.foldl Loader.declare m).params = m.params ++ is.filterMap declaration? := by
  induction is generalizing m with
  | nil => exact (List.append_nil _).symm
  | cons i more ih =>
    rw [List.foldl_cons, ih, declare_params, List.append_assoc]
    cases declared : declaration? i with
    | none => rw [List.filterMap_cons_none declared, Option.toList_none, List.nil_append]
    | some param => rw [List.filterMap_cons_some declared, Option.toList_some, List.singleton_append]

namespace IsGenerated

variable {document : Markup.Document} {b : Bindings} {out : Output} {cs : List Content}

theorem isDeclaration (h : IsGenerated document b out cs) (filename : String) :
    ∀ i ∈ declarations filename b out, Loader.IsDeclaration i := by
  have imported : ∀ entry ∈ b.imports, Loader.IsDeclaration (.bind entry.1 entry.2) := by
    rcases h.confined with none | all
    · simp [none]
    · rw [all]
      unfold Loader.IsDeclaration
      decide
  simp only [declarations, List.forall_mem_append, List.forall_mem_cons, List.forall_mem_map]
  refine ⟨⟨⟨trivial, imported⟩, fun i member => ?_⟩, fun _ _ => trivial⟩
  obtain ⟨_, _, _, rfl⟩ := h.generates.params i member
  trivial

theorem isPlain (h : IsGenerated document b out cs) (filename : String) :
    ∀ i ∈ instructions filename b out, i.IsPlain := by
  obtain ⟨params, body⟩ := h.generates.plain h.sound h.read
  have imported : ∀ entry ∈ b.imports, Module.IsWord entry.1 := by
    rcases h.confined with none | all
    · simp [none]
    · rw [all]
      unfold Module.IsWord
      decide
  exact isPlain_instructions filename imported h.sound params (List.forall_mem_map.mp body)

/-- The widgets that the module binds: none, or all displays. -/
theorem imports_eq (h : IsGenerated document b out cs) (filename : String) :
    let bound := (((declarations filename b out).map Instruction.relayed).foldl Loader.declare {}).imports
    (b.imports = [] ∧ bound = []) ∨ (b.imports = Bindings.standard ∧ bound = Capabilities.standard) := by
  have params : ∀ i ∈ out.params.map Instruction.relayed, ∀ name source, i ≠ .bind name source := by
    intro i member name source same
    obtain ⟨j, inside, rfl⟩ := List.mem_map.mp member
    obtain ⟨_, _, _, rfl⟩ := h.generates.params j inside
    cases same
  have constants : ∀ i ∈ (b.constants.map fun entry => Instruction.constant entry.1 entry.2).map
      Instruction.relayed, ∀ name source, i ≠ .bind name source := by
    intro i member name source same
    obtain ⟨j, inside, rfl⟩ := List.mem_map.mp member
    obtain ⟨_, _, rfl⟩ := List.mem_map.mp inside
    cases same
  simp only [declarations, List.map_append, List.foldl_append]
  rw [foldl_declare_imports constants, foldl_declare_imports params, List.map_cons, List.foldl_cons]
  rcases h.confined with none | all
  · rw [none]
    exact Or.inl ⟨rfl, rfl⟩
  · rw [all]
    refine Or.inr ⟨rfl, (foldl_declare_binds (fun _ member => member) _).trans ?_⟩
    show Dictionary.override [] _ = _
    decide

/-- What is loaded when nothing is refused. -/
def loaded (filename : String) (b : Bindings) (out : Output) (cs : List Content) : LoadedModule :=
  { ((declarations filename b out).map Instruction.relayed).foldl Loader.declare {} with body := cs }

/-- The parameters of the module are those that are declared, as they are read back. -/
theorem params_loaded (filename : String) (b : Bindings) (out : Output) (cs : List Content) :
    (loaded filename b out cs).params = out.params.filterMap fun i => declaration? i.relayed := by
  rw [loaded]
  dsimp only
  rw [foldl_declare_params, List.filterMap_map]
  simp [declarations, List.filterMap_append, Function.comp_def, Instruction.relayed, declaration?]

theorem find?_imports (h : IsGenerated document b out cs) (filename : String) {name : String}
    (imported : b.isImported name = true) :
    Dictionary.find? (loaded filename b out cs).imports name = some ⟨name, true⟩ := by
  rcases h.imports_eq filename with ⟨none, -⟩ | ⟨-, bound⟩
  · rw [Bindings.isImported, none] at imported
    cases imported
  · exact (congrArg (Dictionary.find? · name) bound).trans
      (displays_bound name (mem_displayNames_of_isImported h.confined imported))

/-- Within the limits nothing is refused. -/
theorem run_of_limits (h : IsGenerated document b out cs) (filename : String) {limits : SandboxLimits}
    (few : (instructions filename b out).length ≤ limits.maxInstructions)
    (shallow : nesting (instructions filename b out) ≤ limits.maxDepth)
    (named : RefersByName (instructions filename b out)) :
    (Loader.run .standard limits 2 {}
        ((instructions filename b out).map Instruction.relayed)).bind Loader.finish =
      .ok (loaded filename b out cs) := by
  have declared : ∀ i ∈ (declarations filename b out).map Instruction.relayed,
      Loader.IsDeclaration i :=
    List.forall_mem_map.mpr fun i member => isDeclaration_relayed (h.isDeclaration filename i member)
  have known : ∀ i ∈ (out.body.map Line.instruction).map Instruction.relayed, i.IsAllowed
      (Dictionary.contains (loaded filename b out cs).imports) := by
    refine List.forall_mem_map.mpr fun i member => ⟨fun binding mounts => ?_, fun name refers => ?_⟩
    · rw [binding?_relayed] at mounts
      have found := h.find?_imports filename (h.generates.imported i member binding mounts)
      rw [Dictionary.contains, found]
      rfl
    · rw [reference?_relayed] at refers
      refine named i ?_ name refers
      rw [instructions_eq]
      exact List.mem_append_right _ member
  rw [← nesting_relayed] at shallow
  rw [instructions_eq, List.map_append] at shallow ⊢
  rw [instructions_eq, List.length_append] at few
  exact Loader.run_module declared h.generates.builds known (by simpa using few) shallow

/-- The module is loaded exactly when it keeps to the limits and refers to inputs by names. -/
theorem load_eq_ok (h : IsGenerated document b out cs) (filename : String) (limits : SandboxLimits)
    {m : LoadedModule} :
    Sandbox.load { limits := limits } (Module.text (lines filename b out)) = .ok m ↔
      (instructions filename b out).length ≤ limits.maxInstructions ∧
        nesting (instructions filename b out) ≤ limits.maxDepth ∧
        RefersByName (instructions filename b out) ∧ m = loaded filename b out cs := by
  have ran := Sandbox.load_text { limits := limits } (lines filename b out)
    (List.forall_mem_map.mp (h.isPlain filename))
  have same : ((lines filename b out).map fun line => line.instruction.relayed) =
      (instructions filename b out).map Instruction.relayed := by
    rw [instructions, List.map_map]
    rfl
  rw [ran, same]
  constructor
  · intro read
    obtain ⟨few, shallow⟩ := Loader.limits_of_load read
    obtain ⟨last, run, -⟩ := bind_eq_ok.mp read
    have named := (refersByName_relayed _).mp (Loader.references_of_run run)
    rw [List.length_map] at few
    rw [nesting_relayed] at shallow
    rw [h.run_of_limits filename few shallow named] at read
    exact ⟨few, shallow, named, (Except.ok.inj read).symm⟩
  · rintro ⟨few, shallow, named, rfl⟩
    exact h.run_of_limits filename few shallow named

/-- A loaded module renders what its document means. -/
theorem render (h : IsGenerated document b out cs) (filename : String) (state : InputState) :
    (loaded filename b out cs).render state =
      RenderNode.relayedAll (Meaning.ofDocument document state) := by
  have bound : ∀ name, b.isImported name = true →
      Dictionary.find? (loaded filename b out cs).imports name = some ⟨name, true⟩ :=
    fun name imported => h.find?_imports filename imported
  rw [LoadedModule.render, Meaning.ofDocument, ← h.constants]
  exact h.generates.render bound state

end IsGenerated

end Dashboard.Generate
