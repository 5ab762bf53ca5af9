import Dashboard.Policy
import Dashboard.Proofs.Markup.Documents
import Dashboard.Proofs.Meaning

/-!
What the script of a preprocessed document binds: the standard imports or none, and the constants
that it declares. The author imports nothing, as the policies let no such statement pass.
-/
namespace Dashboard.Generate.Bindings

open Dashboard.Json (IsStandard)
open Dashboard.Module (IsWord)
open Dashboard.Script (Node importNode)

/-- Constants are named by words, and their values have so many levels at most. -/
def IsSound (b : Bindings) : Prop :=
  ∀ entry ∈ b.constants, IsWord entry.1 ∧ IsStandard maxNesting entry.2

/-- Every display under its own name. -/
def standard : List (String × String) := Registry.displayNames.map fun name => (name, name)

theorem isSound_empty (imports : List (String × String)) : IsSound { imports := imports } := by
  intro entry member
  cases member

variable {b b' : Bindings}

theorem addDeclarator_eq_ok {node : Node} (h : addDeclarator b node = .ok b') (sound : b.IsSound)
    (plain : node.IsBinding maxNesting) : b'.IsSound ∧ b'.imports = b.imports := by
  unfold addDeclarator at h
  split at h
  · next position place name value =>
    obtain ⟨word, literal⟩ := plain position place name value rfl
    obtain ⟨-, -, rest⟩ := bind_eq_ok.mp h
    have bound {v : Json} (standard : IsStandard maxNesting v) :
        IsSound { b with constants := Dictionary.insert name v b.constants } := by
      intro entry member
      rcases Dictionary.mem_insert member with rfl | member
      · exact ⟨word, standard⟩
      · exact sound entry member
    cases value with
    | none =>
      cases rest
      exact ⟨bound (by simp [IsStandard]), rfl⟩
    | some init =>
      cases found : init.literal? with
      | none =>
        simp only [found] at rest
        cases rest
      | some v =>
        simp only [found] at rest
        cases rest
        exact ⟨bound (literal init rfl v found), rfl⟩
  · cases h
    exact ⟨sound, rfl⟩

theorem addDeclarators_eq_ok {declarators : List Node}
    (h : declarators.foldlM addDeclarator b = .ok b') (sound : b.IsSound)
    (plain : ∀ node ∈ declarators, node.IsBinding maxNesting) :
    b'.IsSound ∧ b'.imports = b.imports := by
  refine foldlM_induction (fun c => c.IsSound ∧ c.imports = b.imports) h ⟨sound, rfl⟩ ?_
  rintro node member c c' added ⟨sound, same⟩
  obtain ⟨sound, kept⟩ := addDeclarator_eq_ok added sound (plain node member)
  exact ⟨sound, kept.trans same⟩

def isImport : Node → Bool
  | .imports .. => true
  | _ => false

theorem isImport_unplaced (node : Node) : isImport node.unplaced = isImport node := by
  cases node <;> rfl

/-- A statement other than an import leaves the imports as they are. -/
theorem addStatement_eq_ok {node : Node} (h : addStatement b node = .ok b') (sound : b.IsSound)
    (plain : node.IsPlain maxNesting) (other : isImport node = false) :
    b'.IsSound ∧ b'.imports = b.imports := by
  unfold addStatement at h
  split at h
  · cases other
  · next position kind declarators =>
    exact addDeclarators_eq_ok h sound (plain.bindings position kind declarators rfl)
  · cases h
    exact ⟨sound, rfl⟩
  · cases h
    exact ⟨sound, rfl⟩
  · cases h

theorem addStatements_eq_ok {body : List Node} (h : body.foldlM addStatement b = .ok b')
    (sound : b.IsSound) (plain : ∀ node ∈ body, node.IsPlain maxNesting)
    (others : ∀ node ∈ body, isImport node = false) : b'.IsSound ∧ b'.imports = b.imports := by
  refine foldlM_induction (fun c => c.IsSound ∧ c.imports = b.imports) h ⟨sound, rfl⟩ ?_
  rintro node member c c' added ⟨sound, same⟩
  obtain ⟨sound, kept⟩ := addStatement_eq_ok added sound (plain node member) (others node member)
  exact ⟨sound, kept.trans same⟩

/-! The constants of a script. -/

theorem constants_of_addDeclarator {node : Node} (h : addDeclarator b node = .ok b') :
    b'.constants = Dictionary.override b.constants ([node].filterMap Meaning.entry?) := by
  unfold addDeclarator at h
  split at h
  · next position place name value =>
    obtain ⟨-, -, rest⟩ := bind_eq_ok.mp h
    cases value with
    | none =>
      cases rest
      rfl
    | some init =>
      cases found : init.literal? with
      | none =>
        simp only [found] at rest
        cases rest
      | some v =>
        simp only [found] at rest
        cases rest
        simp [Meaning.entry?, found, Dictionary.override]
  · next other =>
    cases h
    have none : Meaning.entry? node = none := by
      unfold Meaning.entry?
      split
      · exact absurd rfl (other _ _ _ _)
      · exact absurd rfl (other _ _ _ _)
      · rfl
    simp [none, Dictionary.override]

theorem override_append (d : Dictionary Json) (changes more : List (String × Json)) :
    Dictionary.override d (changes ++ more) =
      Dictionary.override (Dictionary.override d changes) more := by
  simp [Dictionary.override]

/-- Where each node adds its entries, so do they all, in their order. -/
theorem constants_of_foldlM {step : Bindings → Node → Except CompileError Bindings}
    {entries : Node → List (String × Json)} {nodes : List Node}
    (h : nodes.foldlM step b = .ok b')
    (each : ∀ b b' node, step b node = .ok b' →
      b'.constants = Dictionary.override b.constants (entries node)) :
    b'.constants = Dictionary.override b.constants (nodes.flatMap entries) := by
  induction nodes generalizing b with
  | nil =>
    cases h
    rfl
  | cons first more ih =>
    rw [List.foldlM_cons] at h
    obtain ⟨next, here, rest⟩ := bind_eq_ok.mp h
    rw [ih rest, each b next first here, List.flatMap_cons, override_append]

theorem constants_of_addDeclarators {declarators : List Node}
    (h : declarators.foldlM addDeclarator b = .ok b') :
    b'.constants = Dictionary.override b.constants (declarators.filterMap Meaning.entry?) := by
  have single : declarators.filterMap Meaning.entry? =
      declarators.flatMap fun node => [node].filterMap Meaning.entry? := by
    rw [← List.filterMap_flatMap, List.flatMap_singleton']
  rw [single]
  exact constants_of_foldlM h fun _ _ _ => constants_of_addDeclarator

theorem constants_of_addSpecifiers {source : String} {specifiers : List Node}
    (h : specifiers.foldlM (addSpecifier source) b = .ok b') : b'.constants = b.constants := by
  refine foldlM_induction (fun c => c.constants = b.constants) h rfl ?_
  rintro specifier - c c' added same
  unfold addSpecifier at added
  split at added
  · obtain ⟨-, -, last⟩ := bind_eq_ok.mp added
    cases last
    exact same
  · cases added

theorem constants_of_addStatement {node : Node} (h : addStatement b node = .ok b') :
    b'.constants =
      Dictionary.override b.constants ((Meaning.declarators node).filterMap Meaning.entry?) := by
  unfold addStatement at h
  split at h
  · exact constants_of_addSpecifiers h
  · exact constants_of_addDeclarators h
  · cases h
    rfl
  · cases h
    rfl
  · cases h

theorem constants_of_addStatements {body : List Node} (h : body.foldlM addStatement b = .ok b') :
    b'.constants = Dictionary.override b.constants
      ((body.flatMap Meaning.declarators).filterMap Meaning.entry?) := by
  rw [List.filterMap_flatMap]
  exact constants_of_foldlM h fun _ _ _ => constants_of_addStatement

/-- A program binds the constants that it means. -/
theorem constants_of_ofProgram {p : Position} {body : List Node}
    (h : ofProgram (.program p body) = .ok b) : b.constants = Meaning.constants body :=
  constants_of_addStatements h

/-! The standard imports. -/

theorem isBound_import (b : Bindings) (name other : String) :
    isBound { b with imports := b.imports ++ [(name, name)] } other =
      (b.isBound other || decide (name = other)) := by
  simp only [isBound, isImported, List.any_append, List.any_cons, List.any_nil, Bool.or_false]
  cases b.imports.any _ <;> cases decide (name = other) <;> simp

theorem eq_of_unplaced_importNode {name : String} {node : Node}
    (h : node.unplaced = importNode name) : ∃ p q r t, node =
      .imports p [.defaultSpecifier q (.identifier r name)] (.literal t (.str name)) := by
  cases node with
  | imports p specifiers source =>
    rw [Node.unplaced, importNode] at h
    obtain ⟨-, listed, origin⟩ := Node.imports.inj h
    obtain ⟨t, rfl⟩ : ∃ t, source = .literal t (.str name) := by
      cases source with
      | literal t value =>
        cases origin
        exact ⟨t, rfl⟩
      | _ => cases origin
    cases specifiers with
    | nil => cases listed
    | cons first more =>
      obtain ⟨here, later⟩ := List.cons.inj listed
      obtain rfl : more = [] := by
        cases more with
        | nil => rfl
        | cons => cases later
      cases first with
      | defaultSpecifier q binding =>
        cases binding with
        | identifier r word =>
          cases here
          exact ⟨p, q, r, t, rfl⟩
        | _ => cases here
      | _ => cases here
  | _ => cases h

theorem addStatement_import {name : String} {node : Node} (same : node.unplaced = importNode name)
    (free : b.isBound name = false) :
    addStatement b node = .ok { b with imports := b.imports ++ [(name, name)] } := by
  obtain ⟨p, q, r, t, rfl⟩ := eq_of_unplaced_importNode same
  rw [addStatement, List.foldlM_cons, addSpecifier, checkFree, free]
  rfl

theorem addStatements_imports {names : List String} (distinct : names.Nodup) {nodes : List Node}
    (same : Node.unplacedAll nodes = names.map importNode)
    (free : ∀ name ∈ names, b.isBound name = false) :
    nodes.foldlM addStatement b =
      .ok { b with imports := b.imports ++ names.map fun name => (name, name) } := by
  induction names generalizing b nodes with
  | nil =>
    cases nodes with
    | nil => simp [pure, Except.pure]
    | cons => cases same
  | cons name more ih =>
    obtain ⟨new, distinct⟩ := List.nodup_cons.mp distinct
    cases nodes with
    | nil => cases same
    | cons first others =>
      obtain ⟨here, later⟩ := List.cons.inj same
      have step := addStatement_import here (free name (by simp))
      have rest := @ih { b with imports := b.imports ++ [(name, name)] } distinct others later (by
        intro other member
        rw [isBound_import, free other (List.mem_cons_of_mem _ member)]
        simpa using fun same : name = other => new (same ▸ member))
      rw [List.foldlM_cons, step]
      show others.foldlM addStatement _ = _
      rw [rest]
      simp

/-- A program that begins with the standard imports goes on with all of them bound. -/
theorem ofProgram_front {q : Position} {front rest : List Node}
    (same : Node.unplacedAll front = Registry.displayNames.map importNode) :
    ofProgram (.program q (front ++ rest)) = rest.foldlM addStatement { imports := standard } := by
  rw [ofProgram, List.foldlM_append, addStatements_imports (by decide) same fun _ _ => rfl]
  rfl

/-! What the policies let pass. -/

theorem subset_add (o : Policy.Outcome) (violations : List Policy.Violation) :
    o.violations ⊆ (o.add violations).violations :=
  List.subset_append_left _ _

theorem subset_declare (o : Policy.Outcome) (node : Node) :
    o.violations ⊆ (o.declare node).violations := by
  unfold Policy.Outcome.declare
  split
  · split_ifs
    · split
      · exact List.Subset.refl _
      · exact subset_add o _
    · exact subset_add o _
  · exact List.Subset.refl _

theorem subset_visit (o : Policy.Outcome) (node : Node) :
    o.violations ⊆ (o.visit node).violations := by
  unfold Policy.Outcome.visit
  split
  · next declarators =>
    induction declarators generalizing o with
    | nil => exact List.Subset.refl _
    | cons first more ih => exact List.Subset.trans (subset_declare o first) (ih _)
  · exact subset_add o _
  · dsimp only
    split_ifs
    · exact List.Subset.refl _
    · exact subset_add o _
  · split_ifs
    · exact List.Subset.refl _
    · exact subset_add o _
  · exact List.Subset.refl _

theorem subset_foldl_visit (nodes : List Node) (o : Policy.Outcome) :
    o.violations ⊆ (nodes.foldl Policy.Outcome.visit o).violations := by
  induction nodes generalizing o with
  | nil => exact List.Subset.refl _
  | cons first more ih => exact List.Subset.trans (subset_visit o first) (ih _)

theorem imports_mem_visit (o : Policy.Outcome) {node : Node} (h : isImport node = true) :
    .imports ∈ (o.visit node).violations := by
  cases node with
  | imports p specifiers source =>
    rw [Policy.Outcome.visit]
    split_ifs with reported
    · exact List.contains_iff_mem.mp reported
    · exact List.mem_append_right _ (by simp)
  | _ => cases h

/-- The permissive policy reports an import wherever it stands. -/
theorem imports_mem_permissive {program node : Node} (below : node ∈ program.subnodes)
    (h : isImport node = true) : .imports ∈ (Policy.permissive program).violations := by
  obtain ⟨before, behind, shape⟩ := List.append_of_mem below
  rw [Policy.permissive, shape, List.foldl_append, List.foldl_cons]
  exact subset_foldl_visit behind _ (imports_mem_visit _ h)

theorem isImport_of_permissive {p : Position} {body : List Node}
    (clean : (Policy.permissive (.program p body)).violations = []) :
    ∀ node ∈ body, isImport node = false := by
  intro node member
  by_contra import'
  have below : node ∈ (Node.program p body).subnodes := by
    have children : (Node.program p body).children = body := by
      simp [Node.children, Node.view, Branch.many]
    have self : node ∈ node.subnodes := by
      rw [Node.subnodes_eq]
      exact List.mem_cons_self
    rw [Node.subnodes_eq, children]
    exact List.mem_cons_of_mem _ (List.mem_flatMap.mpr ⟨node, member, self⟩)
  have reported := imports_mem_permissive below (by simpa using import')
  rw [clean] at reported
  cases reported

theorem isImport_of_agree {body rest : List Node} (agree : Script.AgreeAll maxNesting body rest)
    (h : ∀ node ∈ body, isImport node = false) : ∀ node ∈ rest, isImport node = false := by
  induction agree with
  | nil => simp
  | cons first _ ih =>
    obtain ⟨here, later⟩ := List.forall_mem_cons.mp h
    refine List.forall_mem_cons.mpr ⟨?_, ih later⟩
    rw [← isImport_unplaced, ← first.same, isImport_unplaced, here]

/-- What a region binds that holds the standard imports in front of a script that a policy lets
pass, or nothing. -/
theorem sound_of_region {policy : ScriptPolicy} {script : Option Markup.ScriptRegion}
    {outcome : Policy.Outcome} (enforced : policy.enforce script = .ok outcome)
    (clean : outcome.violations = []) {region : Markup.ScriptRegion}
    (raw : region.raw = "" ∨ (script = none ∧ region.raw.toList = Markup.importing) ∨
      ∃ old, script = some old ∧ region.raw.toList = Markup.importing ++ old.raw.toList)
    {program : Node} (parsed : region.program = .ok program) {b : Bindings}
    (bound : ofProgram program = .ok b) :
    b.IsSound ∧ (b.imports = [] ∨ b.imports = standard) := by
  rcases raw with none | ⟨-, alone⟩ | ⟨old, rfl, inside⟩
  · rw [Markup.ScriptRegion.program, none, Script.parseScript_empty] at parsed
    cases parsed
    cases bound
    exact ⟨isSound_empty [], Or.inl rfl⟩
  · obtain ⟨front, again, same⟩ := Script.parseScript_standardImports_alone region.origin alone
    rw [Markup.ScriptRegion.program, again] at parsed
    cases parsed
    have whole := @ofProgram_front region.origin front [] same
    rw [List.append_nil, bound] at whole
    cases whole
    exact ⟨isSound_empty standard, Or.inr rfl⟩
  · obtain rfl : policy = .permissive := by
      cases policy with
      | strict =>
        cases enforced
        cases clean
      | permissive => rfl
    obtain ⟨before, once, rfl⟩ := map_eq_ok.mp enforced
    have shape : region.raw.toList =
        '\n' :: (standardImports.toList ++ '\n' :: old.raw.toList) := by
      rw [inside, Markup.importing_append]
    obtain ⟨body, front, rest, rfl, again, same, agree⟩ :=
      @Script.parseScript_standardImports region.raw old.raw old.origin region.origin before shape once
    rw [Markup.ScriptRegion.program, again] at parsed
    cases parsed
    rw [ofProgram_front same] at bound
    have plain := Script.isPlain_of_parseScript again
    have others := isImport_of_agree agree (isImport_of_permissive clean)
    obtain ⟨sound, kept⟩ := addStatements_eq_ok bound (isSound_empty standard)
      (fun node member => plain node (List.mem_append_right front member)) others
    exact ⟨sound, Or.inr kept⟩

end Dashboard.Generate.Bindings
