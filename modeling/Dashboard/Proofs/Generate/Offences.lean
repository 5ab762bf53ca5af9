import Dashboard.Proofs.Compiler.Injection
import Dashboard.Proofs.Generate.Attributes

/-!
What there is against a document, told from its nodes. Every offence names the node that it is about by
the place of the node; the offences stand in the order of the text, the script before the markup. The
generator fails with the first offence, and without offences it succeeds and notes what it leaves out.
-/
namespace Dashboard.Generate

open Dashboard.Markup (Attribute Node Alternative Document)

variable {α β σ ν : Type}

/-- The first offence is the result, or the result is good. -/
def Meets (offences : List CompileError) (good : α → Prop) (result : Except CompileError α) : Prop :=
  match offences with
  | [] => ∃ v, result = .ok v ∧ good v
  | first :: _ => result = .error first

section Meets

variable {found others : List CompileError} {good : α → Prop} {better : β → Prop}
  {x : Except CompileError α} {f : α → Except CompileError β}

theorem Meets.ok {v : α} (h : good v) : Meets [] good (.ok v) := ⟨v, rfl, h⟩

theorem Meets.error (e : CompileError) (more : List CompileError) :
    Meets (e :: more) good (.error e) := rfl

theorem Meets.mono {better : α → Prop} (h : Meets found good x)
    (weaker : ∀ v, good v → better v) : Meets found better x := by
  cases found with
  | nil =>
    obtain ⟨v, rfl, value⟩ := h
    exact .ok (weaker v value)
  | cons => exact h

theorem Meets.bind (h : Meets found good x) (next : ∀ v, good v → Meets others better (f v)) :
    Meets (found ++ others) better (x >>= f) := by
  cases found with
  | nil =>
    obtain ⟨v, rfl, value⟩ := h
    exact next v value
  | cons first more =>
    obtain rfl : x = .error first := h
    rfl

/-- A last step that cannot fail. -/
theorem Meets.map (h : Meets found good x) (last : ∀ v, good v → ∃ w, f v = .ok w ∧ better w) :
    Meets found better (x >>= f) := by
  rw [← List.append_nil found]
  exact h.bind last

theorem Meets.head?_eq {e : CompileError} (h : Meets found good x) (failed : x = .error e) :
    found.head? = some e := by
  subst failed
  cases found with
  | nil =>
    obtain ⟨v, none, -⟩ := h
    cases none
  | cons first more =>
    cases h
    rfl

theorem Meets.eq_error {e : CompileError} (h : Meets found good x)
    (first : found.head? = some e) : x = .error e := by
  cases found with
  | nil => cases first
  | cons =>
    cases first
    exact h

theorem Meets.of_ok {v : α} (h : Meets found good x) (ran : x = .ok v) : good v := by
  subst ran
  cases found with
  | nil =>
    obtain ⟨w, same, value⟩ := h
    cases same
    exact value
  | cons => cases h

end Meets

/-- Offences of parts in a row, each in front of a state that the parts before it have made. -/
def along (offences : σ → ν → List CompileError) (next : σ → ν → σ) : σ → List ν → List CompileError
  | _, [] => []
  | s, part :: more => offences s part ++ along offences next (next s part) more

variable {offences : σ → ν → List CompileError} {next : σ → ν → σ}

theorem along_append (s : σ) (front back : List ν) : along offences next s (front ++ back) =
    along offences next s front ++ along offences next (front.foldl next s) back := by
  induction front generalizing s with
  | nil => rfl
  | cons part more ih => rw [List.cons_append, along, ih, along, List.append_assoc, List.foldl_cons]

theorem meets_foldlM {holds : σ → β → Prop} {step : β → ν → Except CompileError β}
    (each : ∀ s b part, holds s b → Meets (offences s part) (holds (next s part)) (step b part))
    (parts : List ν) {s : σ} {b : β} (h : holds s b) :
    Meets (along offences next s parts) (holds (parts.foldl next s)) (parts.foldlM step b) := by
  induction parts generalizing s b with
  | nil => exact .ok h
  | cons part more ih =>
    rw [List.foldlM_cons]
    exact (each s b part h).bind fun b' => ih

/-! Scripts. -/

/-- The names that are bound. -/
structure Scope where
  imports : List String := []
  constants : List String := []

namespace Scope

def names (s : Scope) : List String := s.imports ++ s.constants

def afterSpecifier (s : Scope) : Script.Node → Scope
  | .defaultSpecifier _ (.identifier _ name) => { s with imports := s.imports ++ [name] }
  | _ => s

def afterDeclarator (s : Scope) : Script.Node → Scope
  | .declarator _ (.identifier _ name) _ => { s with constants := s.constants ++ [name] }
  | _ => s

def after (s : Scope) : Script.Node → Scope
  | .imports _ specifiers (.literal _ (.str _)) => specifiers.foldl afterSpecifier s
  | .declarations _ _ declarators => declarators.foldl afterDeclarator s
  | _ => s

/-- A name is bound a second time. -/
def redeclaration (s : Scope) (name : String) (position : Position) : List CompileError :=
  if name ∈ s.names then [⟨.redeclared name, position⟩] else []

def specifierOffences (s : Scope) : Script.Node → List CompileError
  | .defaultSpecifier position (.identifier _ name) => s.redeclaration name position
  | specifier => [⟨.namedImport, specifier.position⟩]

/-- An initial value that is no literal. -/
def initializerOffences (name : String) : Option Script.Node → List CompileError
  | none => []
  | some init => if init.literal?.isSome then [] else [⟨.initializer name, init.position⟩]

def declaratorOffences (s : Scope) : Script.Node → List CompileError
  | .declarator position (.identifier _ name) value =>
    s.redeclaration name position ++ initializerOffences name value
  | _ => []

def statementOffences (s : Scope) : Script.Node → List CompileError
  | .imports _ specifiers (.literal _ (.str _)) =>
    along specifierOffences afterSpecifier s specifiers
  | .declarations _ _ declarators => along declaratorOffences afterDeclarator s declarators
  | .expression .. | .empty _ => []
  | statement => [⟨.unsupportedStatement statement.kind, statement.position⟩]

/-- What is noted of a statement. -/
def statementNotices : Script.Node → List GenerateWarning
  | .expression position _ => [.statementSkipped position]
  | _ => []

/-- The bindings hold the names of a scope, and what has been noted. -/
structure Matches (s : Scope) (noted : List GenerateWarning) (b : Bindings) : Prop where
  imports : b.imports.map Prod.fst = s.imports
  constants : ∀ name, Dictionary.contains b.constants name = true ↔ name ∈ s.constants
  warnings : b.warnings = noted

variable {s : Scope} {noted : List GenerateWarning} {b : Bindings}

theorem Matches.isImported (h : s.Matches noted b) (name : String) :
    b.isImported name = decide (name ∈ s.imports) := by
  rw [Bool.eq_iff_iff, decide_eq_true_iff, ← h.imports, Bindings.isImported, List.any_eq_true,
    List.mem_map]
  simp only [decide_eq_true_iff]

theorem Matches.isBound (h : s.Matches noted b) (name : String) :
    b.isBound name = decide (name ∈ s.names) := by
  rw [Bindings.isBound, h.isImported, Bool.eq_iff_iff, Bool.or_eq_true, h.constants, names,
    decide_eq_true_iff, decide_eq_true_iff, List.mem_append]

theorem Matches.checkFree (h : s.Matches noted b) (name : String) (position : Position) :
    Meets (s.redeclaration name position) (fun _ => True) (b.checkFree name position) := by
  rw [Bindings.checkFree, h.isBound, redeclaration]
  by_cases bound : name ∈ s.names
  · simp only [bound, decide_true, if_true]
    exact .error _ _
  · simp only [bound, decide_false, Bool.false_eq_true, if_false]
    exact .ok trivial

theorem meets_addSpecifier (source : String) (s : Scope) (b : Bindings) (part : Script.Node)
    (h : s.Matches noted b) : Meets (s.specifierOffences part)
      ((s.afterSpecifier part).Matches noted) (b.addSpecifier source part) := by
  unfold Bindings.addSpecifier
  split
  · next position place name =>
    refine (h.checkFree name position).map fun _ _ => ⟨_, rfl, ?_, h.constants, h.warnings⟩
    simp [afterSpecifier, h.imports]
  · next other =>
    unfold specifierOffences
    split
    · exact absurd rfl (other _ _ _)
    · exact .error _ _

theorem Matches.declare (h : s.Matches noted b) (name : String) (v : Json) :
    Matches { s with constants := s.constants ++ [name] } noted
      { b with constants := Dictionary.insert name v b.constants } where
  imports := h.imports
  constants other := by
    rw [Dictionary.contains_insert, Bool.or_eq_true, decide_eq_true_iff, h.constants,
      List.mem_append, List.mem_singleton, or_comm]
  warnings := h.warnings

theorem meets_addDeclarator (s : Scope) (b : Bindings) (part : Script.Node) (h : s.Matches noted b) :
    Meets (s.declaratorOffences part) ((s.afterDeclarator part).Matches noted)
      (b.addDeclarator part) := by
  unfold Bindings.addDeclarator
  split
  · next position place name value =>
    refine (h.checkFree name position).bind fun _ _ => ?_
    cases value with
    | none => exact .ok (h.declare name _)
    | some init =>
      rw [initializerOffences]
      cases found : init.literal? with
      | none =>
        simp only [found, Option.isSome_none, Bool.false_eq_true, if_false]
        exact .error _ _
      | some v =>
        simp only [found, Option.isSome_some, if_true]
        exact .ok (h.declare name v)
  · next other =>
    unfold declaratorOffences afterDeclarator
    split
    · exact absurd rfl (other _ _ _ _)
    · exact .ok h

theorem Matches.quiet (h : s.Matches noted b) : s.Matches (noted ++ []) b :=
  (List.append_nil noted).symm ▸ h

theorem meets_addStatement (h : s.Matches noted b) (statement : Script.Node) :
    Meets (s.statementOffences statement)
      ((s.after statement).Matches (noted ++ statementNotices statement)) (b.addStatement statement) := by
  cases statement with
  | imports position specifiers source =>
    cases source with
    | literal place value =>
      cases value with
      | str text =>
        exact (meets_foldlM (meets_addSpecifier text) specifiers h).mono fun _ => Matches.quiet
      | _ => exact .error _ _
    | _ => exact .error _ _
  | declarations position kind declarators =>
    exact (meets_foldlM meets_addDeclarator declarators h).mono fun _ => Matches.quiet
  | expression position value =>
    exact .ok ⟨h.imports, h.constants, congrArg (· ++ [.statementSkipped position]) h.warnings⟩
  | empty => exact .ok h.quiet
  | _ => exact .error _ _

theorem meets_addStatements (h : s.Matches noted b) (body : List Script.Node) :
    Meets (along statementOffences after s body)
      ((body.foldl after s).Matches (noted ++ body.flatMap statementNotices))
      (body.foldlM Bindings.addStatement b) := by
  induction body generalizing s noted b with
  | nil => exact .ok (by simpa using h)
  | cons statement more ih =>
    rw [List.foldlM_cons, List.flatMap_cons, ← List.append_assoc]
    exact (meets_addStatement h statement).bind fun _ holds => ih holds

end Scope

/-! What an attribute, a node or a document has against it. -/

section Markup

/-- The name under which a display is mounted. -/
def mountedName (tag : String) : String :=
  match Registry.lookup tag with
  | .display spec (some _) => spec.name
  | _ => tag

theorem displayBinding_fst (tag : String) (found : Dictionary Json) :
    (displayBinding tag found).1 = mountedName tag := by
  unfold displayBinding mountedName
  cases Registry.lookup tag with
  | display spec implied => cases implied <;> rfl
  | _ => rfl

/-- A name that stands for the value of an attribute is declared nowhere. -/
def undefinedNames (s : Scope) (a : Attribute) : List CompileError :=
  match a.value with
  | .mustache ⟨_, _, .identifier position name⟩ =>
    if name ∈ s.constants then [] else [⟨.undefinedName name, position⟩]
  | _ => []

/-- What there is against an attribute behind others of such names. -/
def attributeOffences (s : Scope) (tag : String) (earlier : List String) (a : Attribute) :
    List CompileError :=
  (if Component.isDirective a.name then [⟨.directive a.name, a.position⟩] else []) ++
    (undefinedNames s a ++
      if a.name ∈ earlier then [⟨.repeatedAttribute a.name tag, a.position⟩] else [])

def attributesOffences (s : Scope) (tag : String) (attributes : List Attribute) :
    List CompileError :=
  along (attributeOffences s tag) (fun earlier a => earlier ++ [a.name]) [] attributes

/-- A tag in the markup shows an input or a text. -/
def referenceOffences (tag : Markup.Mustache) : List CompileError :=
  match tag.expression.inputName?, tag.expression.literal? with
  | some _, _ | none, some (.str _) => []
  | none, _ => [⟨.markupExpression, tag.position⟩]

mutual

def nodeOffences (s : Scope) : Node → List CompileError
  | .element position tag attributes children =>
    if Markup.isComponentName tag then
      attributesOffences s tag attributes ++
        match Registry.lookup tag with
        | .input _ => []
        | _ =>
          (if mountedName tag ∈ s.imports then [] else [⟨.undefinedComponent tag, position⟩]) ++
            nodesOffences s children
    else [⟨.htmlElement tag, position⟩]
  | .text .. | .comment .. => []
  | .mustache tag => referenceOffences tag
  | .ifBlock position _ condition children alternative =>
    (if condition.inputName?.isSome then [] else [⟨.condition, position⟩]) ++
      (nodesOffences s children ++ alternativeOffences s alternative)
  | .style position .. => [⟨.styleRegion, position⟩]

def nodesOffences (s : Scope) : List Node → List CompileError
  | [] => []
  | first :: more => nodeOffences s first ++ nodesOffences s more

def alternativeOffences (s : Scope) : Alternative → List CompileError
  | .absent => []
  | .otherwise _ children => nodesOffences s children
  | .elseIf _ block => nodeOffences s block

end

mutual

/-- The inputs whose children are left out. -/
def nodeNotices : Node → List GenerateWarning
  | .element position tag _ children =>
    match Registry.lookup tag with
    | .input _ => if children.isEmpty then [] else [.childrenIgnored tag position]
    | _ => nodesNotices children
  | .ifBlock _ _ _ children alternative => nodesNotices children ++ alternativeNotices alternative
  | .text .. | .comment .. | .mustache _ | .style .. => []

def nodesNotices : List Node → List GenerateWarning
  | [] => []
  | first :: more => nodeNotices first ++ nodesNotices more

def alternativeNotices : Alternative → List GenerateWarning
  | .absent => []
  | .otherwise _ children => nodesNotices children
  | .elseIf _ block => nodeNotices block

end

variable {s : Scope} {noted : List GenerateWarning} {b : Bindings}

theorem meets_attributeValue (h : s.Matches noted b) (a : Attribute) :
    Meets (undefinedNames s a) (fun _ => True) (attributeValue b a) := by
  obtain ⟨position, name, value⟩ := a
  cases value with
  | bare | text => exact .ok trivial
  | mustache tag =>
    obtain ⟨place, raw, expression⟩ := tag
    cases bare : expression.bareName? with
    | some word =>
      obtain ⟨p, rfl⟩ := Script.Node.bareName?_eq_some.mp bare
      have declared := h.constants word
      unfold attributeValue undefinedNames
      simp only [Script.Node.literal?, Script.Node.inputName?]
      rw [Dictionary.contains] at declared
      cases found : Dictionary.find? b.constants word with
      | none =>
        rw [found] at declared
        rw [if_neg (by simpa using declared)]
        exact .error _ _
      | some v =>
        rw [found] at declared
        rw [if_pos (by simpa using declared)]
        exact .ok trivial
    | none =>
      have clear : undefinedNames s ⟨position, name, .mustache ⟨place, raw, expression⟩⟩ = [] := by
        cases expression with
        | identifier => cases bare
        | _ => rfl
      rw [clear, attributeValue]
      dsimp only
      cases expression.literal? with
      | some v => exact .ok trivial
      | none =>
        cases expression.inputName? with
        | some word => exact .ok trivial
        | none =>
          cases expression with
          | identifier => cases bare
          | _ => exact .ok trivial

/-- The names of the props that have been made. -/
def Holds (earlier : List String) (found : Dictionary Json) : Prop :=
  ∀ name, Dictionary.contains found name = true ↔ name ∈ earlier

theorem meets_addProp (h : s.Matches noted b) (tag : String) (earlier : List String)
    (found : Dictionary Json) (a : Attribute) (holds : Holds earlier found) :
    Meets (attributeOffences s tag earlier a) (Holds (earlier ++ [a.name])) (addProp b tag found a) := by
  have present := holds a.name
  unfold addProp attributeOffences
  dsimp only
  cases Component.isDirective a.name with
  | true => exact .error _ _
  | false =>
    refine (meets_attributeValue h a).bind fun v _ => ?_
    by_cases again : a.name ∈ earlier
    · rw [if_pos again, if_pos (present.mpr again)]
      exact .error _ _
    · rw [if_neg again, if_neg (mt present.mp again)]
      refine .ok fun name => ?_
      rw [Dictionary.contains_insert, Bool.or_eq_true, decide_eq_true_iff, holds, List.mem_append,
        List.mem_singleton, or_comm]

theorem meets_props (h : s.Matches noted b) (tag : String) (attributes : List Attribute) :
    Meets (attributesOffences s tag attributes) (fun _ => True) (props b tag attributes) :=
  (meets_foldlM (meets_addProp h tag) attributes fun _ => by simp [Dictionary.contains]).mono
    fun _ _ => trivial

theorem meets_reference (depth : Nat) (tag : Markup.Mustache) :
    Meets (referenceOffences tag) (fun out => out.warnings = []) (reference depth tag) := by
  unfold referenceOffences reference
  cases tag.expression.inputName? with
  | some name => exact .ok rfl
  | none =>
    cases tag.expression.literal? with
    | none => exact .error _ _
    | some v => cases v <;> first | exact .ok rfl | exact .error _ _

theorem nodesOffences_blank {children : List Node} (blank : children.all isBlankNode = true) :
    nodesOffences s children = [] ∧ nodesNotices children = [] := by
  induction children with
  | nil => exact ⟨rfl, rfl⟩
  | cons first more ih =>
    rw [List.all_cons, Bool.and_eq_true] at blank
    obtain ⟨offences, notices⟩ := ih blank.2
    rw [nodesOffences, nodesNotices, offences, notices, List.append_nil, List.append_nil]
    cases first with
    | text | comment => exact ⟨rfl, rfl⟩
    | _ => simp [isBlankNode] at blank

mutual

theorem meets_node (h : s.Matches noted b) (depth : Nat) (n : Node) :
    Meets (nodeOffences s n) (fun out => out.warnings = nodeNotices n) (node b depth n) := by
  match n with
  | .element position tag attributes children =>
    rw [node, nodeOffences]
    by_cases component : Markup.isComponentName tag = true
    · rw [if_pos component, if_pos component]
      refine (meets_props h tag attributes).bind fun found _ => ?_
      have named := displayBinding_fst tag found
      unfold nodeNotices
      cases Registry.lookup tag with
      | input spec => exact .ok rfl
      | _ =>
        dsimp only
        generalize displayBinding tag found = pair at named ⊢
        obtain ⟨binding, entries⟩ := pair
        obtain rfl : binding = mountedName tag := named
        dsimp only
        rw [h.isImported]
        by_cases imported : mountedName tag ∈ s.imports
        · simp only [imported, decide_true, Bool.not_true, Bool.false_eq_true, if_false, if_true,
            List.nil_append]
          cases blank : children.all isBlankNode with
          | true =>
            obtain ⟨offences, notices⟩ := @nodesOffences_blank s children blank
            rw [offences, notices]
            exact .ok rfl
          | false =>
            refine (meets_nodes h (depth + 1) children).map fun inner same => ⟨_, rfl, ?_⟩
            simp [Output.append, emit, same]
        · simp only [imported, decide_false, Bool.not_false, if_true, if_false]
          exact .error _ _
    · rw [if_neg component, if_neg component]
      exact .error _ _
  | .text position data =>
    rw [node, plainText]
    exact .ok (by split <;> rfl)
  | .mustache tag => exact meets_reference depth tag
  | .ifBlock position raw condition children alternative =>
    rw [node, nodeOffences]
    cases condition.inputName? with
    | none => exact .error _ _
    | some name =>
      simp only [Option.isSome_some, if_true, List.nil_append]
      refine (meets_nodes h (depth + 1) children).bind fun first one => ?_
      refine (meets_alternative h depth alternative).map fun second other => ⟨_, rfl, ?_⟩
      simp [Output.append, emit, nodeNotices, one, other]
  | .comment .. => exact .ok rfl
  | .style .. => exact .error _ _

theorem meets_nodes (h : s.Matches noted b) (depth : Nat) (ns : List Node) :
    Meets (nodesOffences s ns) (fun out => out.warnings = nodesNotices ns) (nodes b depth ns) := by
  match ns with
  | [] => exact .ok rfl
  | first :: more =>
    refine (meets_node h depth first).bind fun a one => ?_
    refine (meets_nodes h depth more).map fun rest others => ⟨_, rfl, ?_⟩
    rw [Output.append, one, others, nodesNotices]

theorem meets_alternative (h : s.Matches noted b) (depth : Nat) (alternative : Alternative) :
    Meets (alternativeOffences s alternative)
      (fun out => out.warnings = alternativeNotices alternative) (alternativeNodes b depth alternative) := by
  match alternative with
  | .absent => exact .ok rfl
  | .otherwise _ children =>
    exact (meets_nodes h (depth + 1) children).map fun inner same => ⟨_, rfl, same⟩
  | .elseIf _ block => exact (meets_node h (depth + 1) block).map fun inner same => ⟨_, rfl, same⟩

end

end Markup

/-! Whole documents. -/

/-- The names that are bound behind statements. -/
def scopeOf (bound : List String) (body : List Script.Node) : Scope :=
  body.foldl Scope.after { imports := bound }

/-- What there is against the statements of a script, behind imports of such names. -/
def scriptOffences (bound : List String) (body : List Script.Node) : List CompileError :=
  along Scope.statementOffences Scope.after { imports := bound } body

theorem meets_ofProgram (program : Option Script.Node) :
    Meets (scriptOffences [] (ownStatements program))
      ((scopeOf [] (ownStatements program)).Matches
        ((ownStatements program).flatMap Scope.statementNotices))
      (match program with
        | some node => Bindings.ofProgram node
        | none => .ok {}) := by
  have empty : Scope.Matches { imports := [] } [] {} := ⟨rfl, by simp [Dictionary.contains], rfl⟩
  cases program with
  | none => exact .ok empty
  | some node =>
    cases node with
    | program position body => exact Scope.meets_addStatements empty body
    | _ => exact .ok empty

end Dashboard.Generate

namespace Dashboard

open Dashboard.Generate
open Dashboard.Markup (Document)

namespace Markup.Document

/-- The statements of the script; none where it cannot be parsed. -/
def statements (document : Document) : List Script.Node :=
  match document.scriptProgram? with
  | .ok program => ownStatements program
  | .error _ => []

/-- What there is against a document, in order, where displays of such names are imported. -/
def offences (bound : List String) (document : Document) : List CompileError :=
  scriptOffences bound document.statements ++
    nodesOffences (scopeOf bound document.statements) document.children

/-- What is left out of a document, in order. -/
def notices (document : Document) : List GenerateWarning :=
  document.statements.flatMap Scope.statementNotices ++ nodesNotices document.children

end Markup.Document

section Generated

variable {text filename : String} {processed : Document} {program : Option Script.Node}

theorem exists_generate_eq (parsed : Markup.parse text = .ok processed)
    (read : processed.scriptProgram? = .ok program) (filename : String) :
    ∃ result, generate text filename = Except.mapError Failure.ofCompileError result ∧
      Generate.Meets (processed.offences []) (fun g => g.warnings = processed.notices) result := by
  refine ⟨(match program with
    | some node => Generate.Bindings.ofProgram node
    | none => .ok {}) >>= fun b => Generate.nodes b 0 processed.children >>= fun out =>
      .ok ⟨Generate.lines filename b out, b.warnings ++ out.warnings⟩, ?_, ?_⟩
  · rw [generate, parsed]
    simp only [mapError_bind, mapError_ok, ok_bind, read]
    rfl
  · rw [Document.offences, Document.notices, Document.statements, read]
    refine (Generate.meets_ofProgram program).bind fun b holds => ?_
    refine (Generate.meets_nodes holds 0 processed.children).map fun out same => ⟨_, rfl, ?_⟩
    rw [holds.warnings, same]

/-- The generator fails with the first offence. -/
theorem generate_eq_error (parsed : Markup.parse text = .ok processed)
    (read : processed.scriptProgram? = .ok program) {failure : Failure} :
    generate text filename = .error failure ↔
      ∃ e, (processed.offences []).head? = some e ∧ failure = .ofCompileError e := by
  obtain ⟨result, same, meets⟩ := exists_generate_eq parsed read filename
  rw [same, mapError_eq_error]
  constructor
  · rintro ⟨e, failed, rfl⟩
    exact ⟨e, meets.head?_eq failed, rfl⟩
  · rintro ⟨e, first, rfl⟩
    exact ⟨e, meets.eq_error first, rfl⟩

/-- What is generated has nothing against it, and what is left out is noted. -/
theorem warnings_of_generate (parsed : Markup.parse text = .ok processed)
    (read : processed.scriptProgram? = .ok program) {g : GeneratedModule}
    (generated : generate text filename = .ok g) : g.warnings = processed.notices := by
  obtain ⟨result, same, meets⟩ := exists_generate_eq parsed read filename
  rw [same, mapError_eq_ok] at generated
  exact meets.of_ok generated

end Generated

end Dashboard
