import Dashboard.Proofs.Component.Passing
import Dashboard.Proofs.Generate.Loading

/-!
What the generator refuses in a document that the classification has nothing against: attributes that
cannot be made into props, on an element outside of inputs, and nothing else.
-/
namespace Dashboard.Generate

open Dashboard.Component (Passes PassAll PassesAlternative referenceFaults)
open Dashboard.Markup (Node Alternative IsRead AreSound outerAll)
open Dashboard.Module (Instruction)

/-- A reference without faults names an input. -/
theorem exists_inputName? {raw : String} {expression : Script.Node} (read : IsRead raw expression)
    (clean : referenceFaults raw = []) :
    ∃ name, Placeholder.isIdentifier name.toList = true ∧ expression.inputName? = some name := by
  rw [referenceFaults, List.map_eq_nil_iff] at clean
  obtain ⟨content, place, same, parsed⟩ := read.source
  obtain ⟨name, identifier, shape⟩ := Placeholder.reference_of_violations clean
  obtain ⟨before, after, hb, ha, whole⟩ := Text.exists_trim content.toList
  have inner : Text.trim content.toList = "inputs.".toList ++ name := by
    rw [← shape, same, Text.trimmed, String.toList_ofList]
  rw [inner] at whole
  have named := Script.inputName?_of_parseExpression whole hb ha identifier parsed
  have same : (String.ofList name).toList = name := String.toList_ofList
  exact ⟨String.ofList name, same.symm ▸ identifier, named⟩

variable {b : Bindings}

theorem isImported_of_standard (all : b.imports = Bindings.standard) {tag : String}
    {spec : DisplaySpec} {implied : Option String}
    (found : Registry.lookup tag = .display spec implied) : b.isImported spec.name = true := by
  have member : spec.name ∈ Registry.displayNames :=
    List.mem_map_of_mem (Registry.mem_displays_of_lookup found)
  simpa [Bindings.isImported, all, Bindings.standard] using member

mutual

theorem exists_node (all : b.imports = Bindings.standard) (depth levels : Nat) (n : Node)
    (pass : Passes n) (sound : n.IsSound levels) (usable : ∀ e ∈ n.outer, AreUsable b e.2) :
    ∃ out, node b depth n = .ok out := by
  match n with
  | .element position tag attributes children =>
    obtain ⟨known, -, below⟩ := pass
    obtain ⟨here, inside⟩ := List.forall_mem_cons.mp usable
    have component := Registry.isComponentName_of_lookup known
    have confined : b.IsConfined := Or.inr all
    cases found : Registry.lookup tag with
    | unknown => exact absurd found known
    | input spec =>
      exact ⟨_, element_eq_ok.mpr ⟨component, here, Or.inl ⟨spec, found, rfl⟩⟩⟩
    | display spec implied =>
      have imported := isImported_of_standard all found
      have mounted {out : Output}
          (mounts : Mounts b depth (spec.name, displayed b implied attributes) children out) :
          node b depth (.element position tag attributes children) = .ok out :=
        element_eq_ok.mpr
          ⟨component, here, Or.inr ((mounts_iff confined).mpr ⟨spec, implied, found, mounts⟩)⟩
      rw [found] at inside
      cases blank : children.all isBlankNode with
      | true => exact ⟨_, mounted ⟨imported, Or.inl ⟨blank, rfl⟩⟩⟩
      | false =>
        obtain ⟨inner, rfl, deeper⟩ : ∃ inner, levels = inner + 1 ∧ AreSound children inner := by
          rcases sound.2.1 with rfl | deeper
          · cases blank
          · exact deeper
        obtain ⟨out, read⟩ := exists_nodes all (depth + 1) inner children below deeper inside
        exact ⟨_, mounted ⟨imported, Or.inr ⟨blank, out, read, rfl⟩⟩⟩
  | .text position data => exact ⟨_, rfl⟩
  | .mustache tag =>
    obtain ⟨name, -, named⟩ := exists_inputName? sound pass
    refine ⟨emit depth (.shown name), ?_⟩
    rw [node, reference, named]
  | .ifBlock position raw condition children alternative =>
    obtain ⟨test, first, second⟩ := pass
    obtain ⟨inner, rfl, read, deeper, other⟩ := sound
    obtain ⟨here, there⟩ := List.forall_mem_append.mp usable
    obtain ⟨name, -, named⟩ := exists_inputName? read test
    obtain ⟨a, consequent⟩ := exists_nodes all (depth + 1) inner children first deeper here
    obtain ⟨c, alternate⟩ := exists_alternative all depth inner alternative second other there
    exact ⟨_, ifBlock_eq_ok.mpr ⟨name, named, a, consequent, c, alternate, rfl⟩⟩
  | .comment .. => exact ⟨_, rfl⟩
  | .style .. => exact pass.elim

theorem exists_nodes (all : b.imports = Bindings.standard) (depth levels : Nat) (ns : List Node)
    (pass : PassAll ns) (sound : AreSound ns levels) (usable : ∀ e ∈ outerAll ns, AreUsable b e.2) :
    ∃ out, nodes b depth ns = .ok out := by
  match ns with
  | [] => exact ⟨_, rfl⟩
  | first :: more =>
    obtain ⟨here, later⟩ := List.forall_mem_append.mp usable
    obtain ⟨a, front⟩ := exists_node all depth levels first pass.1 sound.1 here
    obtain ⟨c, back⟩ := exists_nodes all depth levels more pass.2 sound.2 later
    rw [nodes, front, back]
    exact ⟨_, rfl⟩

theorem exists_alternative (all : b.imports = Bindings.standard) (depth levels : Nat)
    (alternative : Alternative) (pass : PassesAlternative alternative)
    (sound : alternative.IsSound levels) (usable : ∀ e ∈ alternative.outer, AreUsable b e.2) :
    ∃ out, alternativeNodes b depth alternative = .ok out := by
  match alternative with
  | .absent => exact ⟨_, rfl⟩
  | .otherwise _ children =>
    obtain ⟨out, built⟩ := exists_nodes all (depth + 1) levels children pass sound usable
    rw [alternativeNodes, built]
    exact ⟨_, rfl⟩
  | .elseIf _ block =>
    obtain ⟨out, built⟩ := exists_node all (depth + 1) levels block pass sound usable
    rw [alternativeNodes, built]
    exact ⟨_, rfl⟩

end

variable {nodes : List Node} {ps is : List Instruction} {cs : List Content}

theorem outer_content {alternative : Alternative} {others : List Node}
    (content : content? alternative = some others) : alternative.outer = outerAll others := by
  cases alternative with
  | absent => cases content
  | otherwise position children =>
    cases content
    rfl
  | elseIf position block =>
    cases content
    exact (List.append_nil _).symm

theorem passAll_content {alternative : Alternative} {others : List Node}
    (content : content? alternative = some others) (pass : PassesAlternative alternative) :
    PassAll others := by
  cases alternative with
  | absent => cases content
  | otherwise position children =>
    cases content
    exact pass
  | elseIf position block =>
    cases content
    exact ⟨pass, trivial⟩

/-- Blank nodes hold no elements. -/
theorem outerAll_blank {children : List Node} (blank : children.all isBlankNode = true) :
    outerAll children = [] := by
  induction children with
  | nil => rfl
  | cons first more ih =>
    rw [List.all_cons, Bool.and_eq_true] at blank
    rw [outerAll, ih blank.2, List.append_nil]
    cases first with
    | text | comment => rfl
    | _ => simp [isBlankNode] at blank

/-- All elements outside of inputs are known, and have attributes that were made into props. -/
theorem Generates.usable (h : Generates b nodes ps is cs) :
    ∀ e ∈ outerAll nodes, Registry.lookup e.1 ≠ .unknown ∧ AreUsable b e.2 := by
  induction h with
  | nil => simp [outerAll]
  | input found usable _ ih =>
    simp only [outerAll, Node.outer, found]
    exact List.forall_mem_cons.mpr ⟨⟨by simp [found], usable⟩, ih⟩
  | mount found usable _ blank _ ih =>
    simp only [outerAll, Node.outer, found, outerAll_blank blank]
    exact List.forall_mem_cons.mpr ⟨⟨by simp [found], usable⟩, ih⟩
  | widget found usable _ _ _ _ ihInside ihRest =>
    simp only [outerAll, Node.outer, found]
    exact List.forall_mem_append.mpr
      ⟨List.forall_mem_cons.mpr ⟨⟨by simp [found], usable⟩, ihInside⟩, ihRest⟩
  | blank _ _ ih | text _ _ ih | shown _ _ ih | literal _ _ _ ih | comment _ ih =>
    exact ih
  | choice _ _ _ ihInside ihRest =>
    simp only [outerAll, Node.outer, Alternative.outer, List.append_nil]
    exact List.forall_mem_append.mpr ⟨ihInside, ihRest⟩
  | choiceElse _ _ content _ _ ihInside ihOther ihRest =>
    simp only [outerAll, Node.outer, outer_content content]
    exact List.forall_mem_append.mpr ⟨List.forall_mem_append.mpr ⟨ihInside, ihOther⟩, ihRest⟩

/-- References without faults are made to inputs by names that a placeholder may hold. -/
theorem Generates.references (h : Generates b nodes ps is cs) {levels : Nat}
    (read : AreSound nodes levels) (pass : PassAll nodes) : RefersByName is := by
  induction h generalizing levels with
  | nil => exact fun _ member => by cases member
  | input _ _ _ ih | blank _ _ ih | comment _ ih => exact ih read.2 pass.2
  | mount _ _ _ _ _ ih | text _ _ ih =>
    exact List.forall_mem_cons.mpr ⟨fun _ named => (by cases named), ih read.2 pass.2⟩
  | literal unnamed _ _ ih =>
    obtain ⟨name, -, named⟩ := exists_inputName? read.1 pass.1
    rw [unnamed] at named
    cases named
  | shown named _ ih =>
    obtain ⟨name, identifier, same⟩ := exists_inputName? read.1 pass.1
    refine List.forall_mem_cons.mpr ⟨?_, ih read.2 pass.2⟩
    rintro _ ⟨⟩
    rw [named] at same
    cases same
    exact identifier
  | widget _ _ _ filled _ _ ihInside ihRest =>
    obtain ⟨⟨-, rfl | ⟨inner, -, children⟩⟩, later⟩ := read
    · cases filled
    · refine List.forall_mem_cons.mpr ⟨fun _ named => (by cases named), ?_⟩
      refine List.forall_mem_append.mpr ⟨ihInside children pass.1.2.2, ?_⟩
      exact List.forall_mem_cons.mpr ⟨fun _ named => (by cases named), ihRest later pass.2⟩
  | choice named _ _ ihInside ihRest =>
    obtain ⟨⟨inner, -, condition, children, -⟩, later⟩ := read
    obtain ⟨name, identifier, same⟩ := exists_inputName? condition pass.1.1
    rw [named] at same
    cases same
    refine List.forall_mem_cons.mpr ⟨?_, List.forall_mem_append.mpr
      ⟨ihInside children pass.1.2.1, List.forall_mem_cons.mpr
        ⟨fun _ named => (by cases named), ihRest later pass.2⟩⟩⟩
    rintro _ ⟨⟩
    exact identifier
  | choiceElse named _ content _ _ ihInside ihOther ihRest =>
    obtain ⟨⟨inner, -, condition, children, alternative⟩, later⟩ := read
    obtain ⟨name, identifier, same⟩ := exists_inputName? condition pass.1.1
    rw [named] at same
    cases same
    have second := ihOther (areSound_content content alternative)
      (passAll_content content pass.1.2.2)
    have closed : RefersByName [.endWhen] := List.forall_mem_singleton.mpr fun _ named =>
      (by cases named)
    refine List.forall_mem_cons.mpr ⟨?_, List.forall_mem_append.mpr
      ⟨ihInside children pass.1.2.1, List.forall_mem_cons.mpr ⟨fun _ named => (by cases named),
        List.forall_mem_append.mpr ⟨second, List.forall_mem_cons.mpr
          ⟨fun _ named => (by cases named), ihRest later pass.2⟩⟩⟩⟩⟩
    rintro _ ⟨⟩
    exact identifier

namespace IsGenerated

variable {document : Markup.Document} {b : Bindings} {out : Output}

theorem refersByName (h : IsGenerated document b out cs) (pass : PassAll document.children)
    (filename : String) : RefersByName (instructions filename b out) := by
  rw [instructions_eq]
  refine List.forall_mem_append.mpr ⟨fun i member name named => ?_,
    h.generates.references h.read pass⟩
  have declared := h.isDeclaration filename i member
  cases i with
  | whenInput | shown => exact declared.elim
  | _ => cases named

/-- Blocks nest no deeper than the document does. -/
theorem nesting_le (h : IsGenerated document b out cs) (filename : String) :
    Module.nesting (instructions filename b out) ≤ maxNesting := by
  have body := h.generates.nestingFrom_le h.read 0
  rw [Nat.zero_add] at body
  rw [instructions_eq, Module.nesting, Loader.nestingFrom_declarations (h.isDeclaration filename)]
  exact (nesting_relayed _).symm.trans_le body

end IsGenerated

end Dashboard.Generate
