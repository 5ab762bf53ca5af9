import Dashboard.Proofs.Compiler.Stages
import Dashboard.Proofs.Json.Bounds
import Dashboard.Proofs.Policy.Literals

/-!
What the permissive policy promises of constants. The policy reduces initial values by itself, within its
bounds, and the generator reduces them once more in the preprocessed script; where the policy succeeds,
both find the same literal. So no initial value stops the generation, and the constants that are loaded
keep to the bounds.
-/
namespace Dashboard

open Dashboard.Json (IsStandard AreStandard EntriesStandard IsBounded relayed)
open Dashboard.Script (Node AgreeAll)

namespace Policy

/-! What the policy reduces keeps to the bounds, and still does when it is read back. -/

/-- A value that is read back within the bounds, if its text can be read back at all. -/
def IsKept (v : Json) : Prop := ∀ levels, IsStandard levels v → (relayed v).IsBounded

theorem isKept_of_boundedScalar {value : Scalar} {v : Json} (h : boundedScalar value = .ok v) :
    IsKept v := by
  have bound := boundedScalar_eq_ok.mp ⟨v, h⟩
  intro levels standard
  cases value with
  | null =>
    cases h
    exact .null
  | bool value =>
    cases h
    exact .bool value
  | str text =>
    rw [boundedScalar] at h
    split_ifs at h
    cases h
    exact .str bound
  | number x =>
    rw [boundedScalar] at h
    split_ifs at h
    cases h
    exact Json.isBounded_ofNumber ⟨bound.1, bound.2⟩ standard

theorem isKept_arr {items : List Json} (short : items.length ≤ 100) (each : ∀ v ∈ items, IsKept v) :
    IsKept (.arr items) := by
  intro levels standard
  cases levels with
  | zero => exact standard.elim
  | succ levels =>
    rw [relayed, Json.relayedItems_eq_map]
    refine .arr (by simpa using short) (List.forall_mem_map.mpr fun v member => ?_)
    exact each v member levels (Json.areStandard_iff.mp standard v member)

theorem isKept_object {entries : List (String × Json)} (small : entries.length ≤ 20)
    (each : ∀ entry ∈ entries, IsKept entry.2) : IsKept (.object entries) := by
  intro levels standard
  cases levels with
  | zero => exact standard.elim
  | succ levels =>
    have fewer := Dictionary.length_ofList_le entries
    rw [Json.object, relayed, Json.relayedEntries_eq_map]
    refine .obj (by simpa using fewer.trans small) (List.forall_mem_map.mpr fun entry member => ?_)
    exact each entry (Dictionary.mem_ofList member) levels
      (Json.entriesStandard_iff.mp standard.2 entry member)

mutual

theorem isKept_of_bounded : (node : Node) → (v : Json) → bounded node = .ok v → IsKept v
  | .literal _ value, v, h => isKept_of_boundedScalar h
  | .identifier _ name, v, h => by
    rw [bounded] at h
    split at h
    · cases h
      exact fun _ _ => .bool _
    · cases h
  | .array _ elements, v, h => by
    rw [bounded] at h
    split_ifs at h with long
    obtain ⟨values, read, rfl⟩ := map_eq_ok.mp h
    obtain ⟨length, each⟩ := areKept_of_boundedItems elements values read
    exact isKept_arr (length.trans_le (not_lt.mp long)) each
  | .object _ properties, v, h => by
    rw [bounded] at h
    split_ifs at h with large
    obtain ⟨entries, read, rfl⟩ := map_eq_ok.mp h
    obtain ⟨length, each⟩ := areKept_of_boundedEntries properties entries read
    exact isKept_object (length.trans_le (not_lt.mp large)) each

theorem areKept_of_boundedItems : (elements : List Node) → (values : List Json) →
    boundedItems elements = .ok values → values.length = elements.length ∧ ∀ v ∈ values, IsKept v
  | [], values, h => by
    cases h
    simp
  | first :: more, values, h => by
    rw [boundedItems] at h
    split at h
    · cases h
    · next value here =>
      obtain ⟨others, later, rfl⟩ := map_eq_ok.mp h
      obtain ⟨length, each⟩ := areKept_of_boundedItems more others later
      exact ⟨congrArg (· + 1) length,
        List.forall_mem_cons.mpr ⟨isKept_of_bounded first value here, each⟩⟩

theorem areKept_of_boundedEntries : (properties : List Node) → (entries : List (String × Json)) →
    boundedEntries properties = .ok entries →
      entries.length = properties.length ∧ ∀ entry ∈ entries, IsKept entry.2
  | [], entries, h => by
    cases h
    simp
  | .property _ key value _ :: more, entries, h => by
    rw [boundedEntries] at h
    split at h
    · cases h
    · split at h
      · cases h
      · next v here =>
        obtain ⟨others, later, rfl⟩ := map_eq_ok.mp h
        obtain ⟨length, each⟩ := areKept_of_boundedEntries more others later
        exact ⟨congrArg (· + 1) length,
          List.forall_mem_cons.mpr ⟨isKept_of_bounded value v here, each⟩⟩

end

end Policy

namespace Generate

/-! Only the script is refused for its initial values. -/

variable {b : Bindings} {name : String} {position : Position}

theorem attributeValue_ne (b : Bindings) (a : Markup.Attribute) :
    attributeValue b a ≠ .error ⟨.initializer name, position⟩ := by
  intro failed
  unfold attributeValue at failed
  split at failed
  · cases failed
  · cases failed
  · split at failed
    · cases failed
    · split at failed
      · cases failed
      · split at failed <;> cases failed
      · cases failed

theorem addProp_ne (tag : String) (a : Markup.Attribute) (found : Dictionary Json) :
    addProp b tag found a ≠ .error ⟨.initializer name, position⟩ := by
  unfold addProp
  dsimp only
  split
  · rintro ⟨⟩
  · refine bind_ne_error (attributeValue_ne b a) fun value => ?_
    split
    · rintro ⟨⟩
    · rintro ⟨⟩

theorem props_ne (tag : String) (attributes : List Markup.Attribute) :
    props b tag attributes ≠ .error ⟨.initializer name, position⟩ :=
  foldlM_ne_error (fun a _ found => addProp_ne tag a found) []

theorem reference_ne (depth : Nat) (tag : Markup.Mustache) :
    reference depth tag ≠ .error ⟨.initializer name, position⟩ := by
  intro failed
  unfold reference at failed
  split at failed <;> cases failed

mutual

theorem node_ne (depth : Nat) (n : Markup.Node) :
    node b depth n ≠ .error ⟨.initializer name, position⟩ := by
  match n with
  | .element _ tag attributes children =>
    rw [node]
    split
    · refine bind_ne_error (props_ne tag attributes) fun found => ?_
      split
      · rintro ⟨⟩
      · dsimp only
        split
        · rintro ⟨⟩
        · split
          · rintro ⟨⟩
          · refine bind_ne_error (nodes_ne (depth + 1) children) fun inner => ?_
            rintro ⟨⟩
    · rintro ⟨⟩
  | .text .. | .comment .. =>
    rintro ⟨⟩
  | .style .. =>
    rintro ⟨⟩
  | .mustache tag => exact reference_ne depth tag
  | .ifBlock _ _ condition children alternative =>
    rw [node]
    split
    · rintro ⟨⟩
    · refine bind_ne_error (nodes_ne (depth + 1) children) fun first => ?_
      refine bind_ne_error (alternativeNodes_ne depth alternative) fun second => ?_
      rintro ⟨⟩

theorem nodes_ne (depth : Nat) (ns : List Markup.Node) :
    nodes b depth ns ≠ .error ⟨.initializer name, position⟩ := by
  match ns with
  | [] =>
    rintro ⟨⟩
  | first :: more =>
    rw [nodes]
    refine bind_ne_error (node_ne depth first) fun a => bind_ne_error (nodes_ne depth more) fun rest => ?_
    rintro ⟨⟩

theorem alternativeNodes_ne (depth : Nat) (alternative : Markup.Alternative) :
    alternativeNodes b depth alternative ≠ .error ⟨.initializer name, position⟩ := by
  match alternative with
  | .absent =>
    rintro ⟨⟩
  | .otherwise _ children =>
    rw [alternativeNodes]
    refine bind_ne_error (nodes_ne (depth + 1) children) fun inner => ?_
    rintro ⟨⟩
  | .elseIf _ block =>
    rw [alternativeNodes]
    refine bind_ne_error (node_ne (depth + 1) block) fun inner => ?_
    rintro ⟨⟩

end

/-! The declarations of a script. -/

/-- A declarator whose initial value, if it has one, is a literal that keeps to the bounds. -/
def DeclaresBounded (d : Node) : Prop :=
  ∀ position place name init, d = .declarator position (.identifier place name) (some init) →
    ∃ v, init.literal? = some v ∧ (relayed v).IsBounded

theorem DeclaresBounded.of_unplaced {d e : Node} (h : DeclaresBounded d)
    (same : d.unplaced = e.unplaced) : DeclaresBounded e := by
  rintro position place name init rfl
  cases d with
  | declarator p id value =>
    simp only [Node.unplaced, Node.unplaced?, Node.declarator.injEq, true_and] at same
    obtain ⟨named, valued⟩ := same
    cases id with
    | identifier q word =>
      cases value with
      | none => cases valued
      | some other =>
        obtain ⟨v, read, bounded⟩ := h p q word other rfl
        refine ⟨v, ?_, bounded⟩
        rw [← Node.literal?_unplaced init, ← Option.some.inj valued, Node.literal?_unplaced, read]
    | _ => cases named
  | _ => cases same

/-- A statement that declares nothing else. -/
def IsBoundedStatement (node : Node) : Prop :=
  ∀ d ∈ Meaning.declarators node, DeclaresBounded d

theorem IsBoundedStatement.of_unplaced {node other : Node} (h : IsBoundedStatement node)
    (same : node.unplaced = other.unplaced) : IsBoundedStatement other := by
  intro e member
  cases other with
  | declarations q kind others =>
    cases node with
    | declarations p kind' declarators =>
      simp only [Node.unplaced, Node.declarations.injEq, Node.unplacedAll_eq_map, true_and] at same
      have listed : e.unplaced ∈ declarators.map Node.unplaced := same.2 ▸ List.mem_map_of_mem member
      obtain ⟨d, inside, agrees⟩ := List.mem_map.mp listed
      exact (h d inside).of_unplaced agrees
    | _ => cases same
  | _ => cases member

theorem isBoundedStatement_import {node : Node} {source : String}
    (same : node.unplaced = Script.importNode source) : IsBoundedStatement node := by
  intro d member
  cases node with
  | declarations => cases same
  | _ => cases member

namespace Bindings

theorem addSpecifier_ne (source : String) (b : Bindings) (specifier : Node) :
    addSpecifier source b specifier ≠ .error ⟨.initializer name, position⟩ := by
  unfold addSpecifier
  split
  · refine bind_ne_error ?_ fun _ => ?_
    · unfold checkFree
      split <;> rintro ⟨⟩
    · rintro ⟨⟩
  · rintro ⟨⟩

theorem addDeclarator_ne {d : Node} (bounded : DeclaresBounded d) (b : Bindings) :
    addDeclarator b d ≠ .error ⟨.initializer name, position⟩ := by
  unfold addDeclarator
  split
  · next place q word value =>
    refine bind_ne_error ?_ fun _ => ?_
    · unfold checkFree
      split <;> rintro ⟨⟩
    · cases value with
      | none => rintro ⟨⟩
      | some init =>
        obtain ⟨v, read, -⟩ := bounded place q word init rfl
        simp only [read]
        rintro ⟨⟩
  · rintro ⟨⟩

theorem addStatement_ne {node : Node} (bounded : IsBoundedStatement node) (b : Bindings) :
    addStatement b node ≠ .error ⟨.initializer name, position⟩ := by
  unfold addStatement
  split
  · exact foldlM_ne_error (fun specifier _ b => addSpecifier_ne _ b specifier) b
  · exact foldlM_ne_error (fun d member b => addDeclarator_ne (bounded d member) b) b
  · rintro ⟨⟩
  · rintro ⟨⟩
  · rintro ⟨⟩

theorem ofProgram_ne {p : Position} {body : List Node}
    (bounded : ∀ node ∈ body, IsBoundedStatement node) :
    ofProgram (.program p body) ≠ .error ⟨.initializer name, position⟩ :=
  foldlM_ne_error (fun node member b => addStatement_ne (bounded node member) b) {}

/-- The constants that bounded statements declare. -/
theorem isBounded_constants {body : List Node} (bounded : ∀ node ∈ body, IsBoundedStatement node)
    {entry : String × Json} (member : entry ∈ Meaning.constants body) :
    (relayed entry.2).IsBounded := by
  obtain ⟨d, inside, found⟩ := List.mem_filterMap.mp (Dictionary.mem_ofList member)
  obtain ⟨node, statement, declared⟩ := List.mem_flatMap.mp inside
  unfold Meaning.entry? at found
  split at found
  · cases found
    exact .null
  · next p q word init =>
    obtain ⟨v, read, rfl⟩ := Option.map_eq_some_iff.mp found
    obtain ⟨w, same, bounded⟩ := bounded node statement _ declared p q word init rfl
    rw [read] at same
    cases same
    exact bounded
  · cases found

/-- A script that the permissive policy accepts. -/
theorem isBoundedStatement_of_permissive {raw : String} {origin p : Position} {body : List Node}
    (parsed : Script.parseScript raw origin = .ok (.program p body))
    (clean : (Policy.permissive (.program p body)).violations = []) :
    ∀ node ∈ body, IsBoundedStatement node := by
  have formed := Script.isFormed_of_parseScript parsed
  have plain := Script.isPlain_of_parseScript parsed
  rintro node member d inside position place name init rfl
  cases node with
  | declarations q kind declarators =>
    have above : (Node.program p body).Occurs (.declarations q kind declarators) :=
      Node.Occurs.root.part member
    have occurs : (Node.program p body).Occurs (.declarator position (.identifier place name) (some init)) :=
      above.part inside
    obtain ⟨_, inner⟩ := formed.exists_of_occurs (by decide) occurs
    obtain ⟨-, initial⟩ := inner.of_declarator
    obtain ⟨_, _, -, -, literal⟩ :=
      Policy.isPermitted_declarator.mp ((Policy.permissive_violations formed).mp clean _ occurs)
    obtain ⟨v, read⟩ := (Policy.bounded_eq_ok (initial init rfl)).mpr literal
    have found := Policy.literal?_of_bounded init v (initial init rfl) read
    obtain ⟨-, standard⟩ := (plain _ member).bindings q kind declarators rfl _ inside _ _ _ _ rfl
    exact ⟨v, found, Policy.isKept_of_bounded init v read _ (standard init rfl v found)⟩
  | _ => cases inside

theorem isBoundedStatement_of_imports {front : List Node}
    (same : Node.unplacedAll front = Registry.displayNames.map Script.importNode) :
    ∀ node ∈ front, IsBoundedStatement node := by
  intro node member
  have listed : node.unplaced ∈ Registry.displayNames.map Script.importNode := by
    rw [← same, Node.unplacedAll_eq_map]
    exact List.mem_map_of_mem member
  obtain ⟨source, -, shape⟩ := List.mem_map.mp listed
  exact isBoundedStatement_import shape.symm

/-- What a region declares that holds the standard imports in front of a script that the permissive policy
lets pass, or nothing. -/
theorem isBoundedStatement_of_region {script : Option Markup.ScriptRegion} {outcome : Policy.Outcome}
    (enforced : ScriptPolicy.permissive.enforce script = .ok outcome)
    (clean : outcome.violations = []) {region : Markup.ScriptRegion}
    (raw : region.raw = "" ∨ (script = none ∧ region.raw.toList = Markup.importing) ∨
      ∃ old, script = some old ∧ region.raw.toList = Markup.importing ++ old.raw.toList)
    {program : Node} (parsed : region.program = .ok program) :
    ∃ p body, program = .program p body ∧ ∀ node ∈ body, IsBoundedStatement node := by
  rcases raw with none | ⟨-, alone⟩ | ⟨old, rfl, inside⟩
  · rw [Markup.ScriptRegion.program, none, Script.parseScript_empty] at parsed
    cases parsed
    exact ⟨_, [], rfl, by simp⟩
  · obtain ⟨front, again, same⟩ := Script.parseScript_standardImports_alone region.origin alone
    rw [Markup.ScriptRegion.program, again] at parsed
    cases parsed
    exact ⟨_, front, rfl, isBoundedStatement_of_imports same⟩
  · obtain ⟨before, once, rfl⟩ := map_eq_ok.mp enforced
    have shape : region.raw.toList =
        '\n' :: (standardImports.toList ++ '\n' :: old.raw.toList) := by
      rw [inside, Markup.importing_append]
    obtain ⟨body, front, rest, rfl, again, same, agree⟩ :=
      @Script.parseScript_standardImports region.raw old.raw old.origin region.origin before shape once
    rw [Markup.ScriptRegion.program, again] at parsed
    cases parsed
    refine ⟨_, _, rfl, List.forall_mem_append.mpr ⟨isBoundedStatement_of_imports same, fun node member => ?_⟩⟩
    have listed : node.unplaced ∈ Node.unplacedAll body := by
      rw [agree.same, Node.unplacedAll_eq_map]
      exact List.mem_map_of_mem member
    rw [Node.unplacedAll_eq_map] at listed
    obtain ⟨other, statement, agrees⟩ := List.mem_map.mp listed
    exact (isBoundedStatement_of_permissive once clean other statement).of_unplaced agrees

end Bindings

/-! Messages. -/

theorem not_prefix_append {text lead : List Char} (behind : ¬ text <+: lead) (before : ¬ lead <+: text)
    (rest : List Char) : ¬ text <+: lead ++ rest := fun start =>
  (List.prefix_or_prefix_of_prefix start (List.prefix_append lead rest)).elim behind before

/-- The message of every other fault begins otherwise. -/
theorem not_initializer_message {e : CompileError} (other : ∀ name, e.fault ≠ .initializer name) :
    ¬ "Initializer for ".toList <+: e.message.toList := by
  obtain ⟨fault, position⟩ := e
  have begins (lead rest : String) (behind : ¬ "Initializer for ".toList <+: lead.toList)
      (before : ¬ lead.toList <+: "Initializer for ".toList) :
      ¬ "Initializer for ".toList <+: (lead ++ rest).toList := by
    rw [String.toList_append]
    exact not_prefix_append behind before _
  unfold CompileError.message CompileFault.lead
  cases fault with
  | initializer name => exact absurd rfl (other name)
  | _ =>
    simp only [String.append_assoc]
    exact begins _ _ (by decide) (by decide)

/-- A script of bounded statements is generated, or something else is wrong. -/
theorem not_initializer_of_generate {text filename message : String}
    (bounded : ∀ processed program, Markup.parse text = .ok processed →
      processed.scriptProgram? = .ok (some program) →
        ∃ p body, program = .program p body ∧ ∀ node ∈ body, IsBoundedStatement node)
    (failed : generate text filename = .error (.compile message)) :
    ¬ "Initializer for ".toList <+: message.toList := by
  rw [generate] at failed
  rcases bind_eq_error.mp failed with unparsed | ⟨processed, parsed, failed⟩
  · obtain ⟨_, -, other⟩ := mapError_eq_error.mp unparsed
    cases other
  rw [mapError_eq_ok] at parsed
  rcases bind_eq_error.mp failed with unparsed | ⟨program, read, failed⟩
  · obtain ⟨_, -, other⟩ := mapError_eq_error.mp unparsed
    cases other
  rw [mapError_eq_ok] at read
  rcases bind_eq_error.mp failed with unbound | ⟨b, -, failed⟩
  · obtain ⟨e, refused, same⟩ := mapError_eq_error.mp unbound
    cases same
    refine not_initializer_message fun name shape => ?_
    obtain ⟨fault, position⟩ := e
    obtain rfl : fault = .initializer name := shape
    cases program with
    | none => cases refused
    | some program =>
      obtain ⟨p, body, rfl, each⟩ := bounded processed program parsed read
      exact Bindings.ofProgram_ne each refused
  · rcases bind_eq_error.mp failed with unread | ⟨_, -, last⟩
    · obtain ⟨e, refused, same⟩ := mapError_eq_error.mp unread
      cases same
      refine not_initializer_message fun name shape => ?_
      obtain ⟨fault, position⟩ := e
      obtain rfl : fault = .initializer name := shape
      exact nodes_ne 0 processed.children refused
    · cases last

/-! The constants that are loaded. -/

theorem mem_constants_foldl_declare {is : List Module.Instruction} {m : LoadedModule}
    {entry : String × Json} (h : entry ∈ (is.foldl Loader.declare m).constants) :
    entry ∈ m.constants ∨ .constant entry.1 entry.2 ∈ is := by
  induction is generalizing m with
  | nil => exact Or.inl h
  | cons i more ih =>
    rcases ih h with before | later
    · cases i with
      | constant word value =>
        rcases Dictionary.mem_insert before with rfl | kept
        · exact Or.inr (List.mem_cons_self ..)
        · exact Or.inl kept
      | bind word source =>
        rw [Loader.declare] at before
        split at before <;> exact Or.inl before
      | _ => exact Or.inl before
    · exact Or.inr (List.mem_cons_of_mem _ later)

theorem mem_constants_loaded {document : Markup.Document} {out : Output} {cs : List Content}
    (h : IsGenerated document b out cs) {filename : String} {entry : String × Json}
    (member : entry ∈ (IsGenerated.loaded filename b out cs).constants) :
    ∃ v, (entry.1, v) ∈ b.constants ∧ entry.2 = relayed v := by
  rcases mem_constants_foldl_declare member with none | declared
  · cases none
  · obtain ⟨i, inside, same⟩ := List.mem_map.mp declared
    simp only [declarations, List.mem_append, List.mem_cons, List.mem_map] at inside
    rcases inside with ((rfl | ⟨_, -, rfl⟩) | param) | ⟨found, constant, rfl⟩
    · cases same
    · cases same
    · obtain ⟨_, _, _, rfl⟩ := h.generates.params i param
      cases same
    · obtain ⟨word, v⟩ := found
      injection same with word' value
      exact ⟨v, word' ▸ constant, value.symm⟩

end Generate

namespace Compiler

open Generate (Bindings IsBoundedStatement)

/-- Where the permissive policy finds nothing against the script of a document, no initial value stops its
generation, and in a module that compiles under it every constant is null or a literal within the bounds. -/
theorem bounded_of_permissive (source filename : String) :
    (∀ document outcome, Markup.parse source = .ok document →
      ScriptPolicy.permissive.enforce document.script = .ok outcome → outcome.violations = [] →
        ∃ text, preprocess source = .ok text ∧
          ∀ message, generate text filename = .error (.compile message) →
            ¬ "Initializer for ".toList <+: message.toList) ∧
      ∀ limits compiled,
        (Compiler.compile ⟨.permissive, limits⟩ source filename).outcome = .ok compiled →
          ∀ entry ∈ compiled.component.constants, entry.2.IsBounded := by
  constructor
  · intro document outcome parsed enforced clean
    obtain ⟨text, prepared⟩ : ∃ text, preprocess source = .ok text := by
      cases met : document.script with
      | none =>
        obtain ⟨text, prepared, -⟩ := Markup.preprocess_front parsed met
        exact ⟨text, prepared⟩
      | some region =>
        obtain ⟨text, prepared, -⟩ := Markup.preprocess_inside parsed met
        exact ⟨text, prepared⟩
    refine ⟨text, prepared, fun message failed => ?_⟩
    refine Generate.not_initializer_of_generate (fun processed program again read => ?_) failed
    obtain ⟨region, met, raw⟩ := Markup.script_of_preprocess parsed prepared again
    rw [Markup.Document.scriptProgram?, met] at read
    obtain ⟨node, regionRead, same⟩ := map_eq_ok.mp read
    cases same
    exact Bindings.isBoundedStatement_of_region enforced clean raw regionRead
  · intro limits compiled succeeded entry member
    obtain ⟨⟨document, clean⟩, -⟩ := compile_eq_ok.mp succeeded
    obtain ⟨text, processed, b, out, cs, prepared, again, isGenerated, -, component⟩ :=
      isGenerated_of_compile succeeded
    rw [component] at member
    obtain ⟨v, constant, value⟩ := Generate.mem_constants_loaded isGenerated member
    obtain ⟨outcome, enforced, allowed⟩ := clean.script
    obtain ⟨region, met, raw⟩ := Markup.script_of_preprocess clean.parsed prepared again
    rw [isGenerated.constants, Meaning.declared, Markup.Document.scriptProgram?, met] at constant
    dsimp only at constant
    cases read : region.program with
    | error e =>
      rw [read] at constant
      cases constant
    | ok program =>
      obtain ⟨p, body, rfl, each⟩ := Bindings.isBoundedStatement_of_region enforced allowed raw read
      rw [read] at constant
      rw [value]
      exact Bindings.isBounded_constants each constant

/-- A script with a record of a fraction and a list, and a chart. -/
def axis : String :=
  "<script>const axisConfig = \x7b min: -2.5, marks: [999999.9, 'top'] \x7d; let chartTitle;</script>\n<Chart />"

/-- The script with the standard imports. -/
def axisText : String :=
  "<script>\nimport Chart from \"Chart\";\nimport Filter from \"Filter\";\nimport Grid from \"Grid\";\nconst axisConfig = \x7b min: -2.5, marks: [999999.9, 'top'] \x7d; let chartTitle;</script>\n<Chart />"

/-- What the script and the chart are generated into. -/
def axisModule : String :=
  "// dashc module\nmodule \"Axis.dash\"\nimport Chart from \"Chart\"\nimport Filter from \"Filter\"\nimport Grid from \"Grid\"\nlet axisConfig \x7b\"marks\":[999999.9,\"top\"],\"min\":-2.5\x7d\nlet chartTitle null\nmount Chart \x7b\x7d\n"

set_option maxRecDepth 4000 in
theorem exists_compiled_axis : ∃ compiled,
    (Compiler.compile { policy := .permissive } axis "Axis.dash").outcome = .ok compiled ∧
      Dictionary.keys compiled.component.constants = ["axisConfig", "chartTitle"] := by
  have chars : axis.toList = _ := String.toList_ofList
  have text : axisText.toList = _ := String.toList_ofList
  have code : axisModule.toList = _ := String.toList_ofList
  have prepared : preprocess axis = .ok axisText := by
    refine Markup.preprocess_of_toList (Markup.importing_eq.trans String.toList_ofList) ?_
    rw [Markup.parse_of_toList chars, chars, text]
    decide +kernel
  exact @exists_compiled_of_stages { policy := .permissive } axis "Axis.dash" (List String) axisText
    axisModule (fun m => Dictionary.keys m.constants) ["axisConfig", "chartTitle"]
    (by rw [gate, Prefilter.scan, Markup.parse_of_toList chars, chars]; decide +kernel)
    (toOption_eq_some.mpr prepared) (code_of_toList text code (by decide +kernel))
    (by rw [Sandbox.load, code]; decide +kernel)

theorem bounded_of_permissive_axis : ∃ document outcome compiled,
    Markup.parse axis = .ok document ∧
      ScriptPolicy.permissive.enforce document.script = .ok outcome ∧ outcome.violations = [] ∧
      (Compiler.compile { policy := .permissive } axis "Axis.dash").outcome = .ok compiled ∧
      Dictionary.keys compiled.component.constants = ["axisConfig", "chartTitle"] ∧
      (∃ text, preprocess axis = .ok text ∧
        ∀ message, generate text "Axis.dash" = .error (.compile message) →
          ¬ "Initializer for ".toList <+: message.toList) ∧
      ∀ entry ∈ compiled.component.constants, entry.2.IsBounded := by
  obtain ⟨compiled, succeeded, names⟩ := exists_compiled_axis
  obtain ⟨⟨document, clean⟩, -⟩ := compile_eq_ok.mp succeeded
  obtain ⟨outcome, enforced, allowed⟩ := clean.script
  obtain ⟨generates, keeps⟩ := bounded_of_permissive axis "Axis.dash"
  exact ⟨document, outcome, compiled, clean.parsed, enforced, allowed, succeeded, names,
    generates document outcome clean.parsed enforced allowed, keeps _ compiled succeeded⟩

end Compiler

end Dashboard
