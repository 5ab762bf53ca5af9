import Dashboard.Proofs.Json.ReadBack
import Dashboard.Proofs.Script.Lexing

/-!
Trees of scripts without their places, and what a parsed tree promises. What a tree reduces to does
not depend on places.
-/
namespace Dashboard.Script.Node

mutual

/-- The tree with every node at the start of a text. -/
def unplaced : Node → Node
  | literal _ value => .literal .start value
  | template _ raw => .template .start raw
  | identifier _ name => .identifier .start name
  | array _ elements => .array .start (unplacedAll elements)
  | object _ properties => .object .start (unplacedAll properties)
  | property _ key value shorthand => .property .start key.unplaced value.unplaced shorthand
  | spread _ argument => .spread .start argument.unplaced
  | function _ isDeclaration name params body =>
    .function .start isDeclaration (unplaced? name) (unplacedAll params) body.unplaced
  | arrow _ params body => .arrow .start (unplacedAll params) body.unplaced
  | unary _ operator argument => .unary .start operator argument.unplaced
  | update _ operator before argument => .update .start operator before argument.unplaced
  | binary _ operator left right => .binary .start operator left.unplaced right.unplaced
  | assignment _ operator left right => .assignment .start operator left.unplaced right.unplaced
  | conditional _ test consequent alternate =>
    .conditional .start test.unplaced consequent.unplaced alternate.unplaced
  | member _ owner name computed => .member .start owner.unplaced name.unplaced computed
  | call _ callee arguments => .call .start callee.unplaced (unplacedAll arguments)
  | construct _ callee arguments => .construct .start callee.unplaced (unplacedAll arguments)
  | declarations _ kind declarators => .declarations .start kind (unplacedAll declarators)
  | declarator _ name value => .declarator .start name.unplaced (unplaced? value)
  | imports _ specifiers source => .imports .start (unplacedAll specifiers) source.unplaced
  | defaultSpecifier _ binding => .defaultSpecifier .start binding.unplaced
  | namespaceSpecifier _ binding => .namespaceSpecifier .start binding.unplaced
  | namedSpecifier _ imported binding => .namedSpecifier .start imported.unplaced binding.unplaced
  | exported _ declaration => .exported .start declaration.unplaced
  | returned _ argument => .returned .start (unplaced? argument)
  | branching _ test consequent alternate =>
    .branching .start test.unplaced consequent.unplaced (unplaced? alternate)
  | block _ body => .block .start (unplacedAll body)
  | empty _ => .empty .start
  | expression _ e => .expression .start e.unplaced
  | program _ body => .program .start (unplacedAll body)

def unplacedAll : List Node → List Node
  | [] => []
  | first :: more => first.unplaced :: unplacedAll more

def unplaced? : Option Node → Option Node
  | none => none
  | some node => some node.unplaced

end

theorem unplacedAll_eq_map (nodes : List Node) : unplacedAll nodes = nodes.map unplaced := by
  induction nodes with
  | nil => rfl
  | cons first more ih => rw [unplacedAll, ih, List.map_cons]

theorem key?_unplaced (node : Node) : node.unplaced.key? = node.key? := by
  cases node with
  | literal position value => cases value <;> rfl
  | _ => rfl

/-- The name of an expression that is a name and nothing else. -/
def bareName? : Node → Option String
  | identifier _ name => some name
  | _ => none

theorem bareName?_unplaced (node : Node) : node.unplaced.bareName? = node.bareName? := by
  cases node <;> rfl

theorem bareName?_eq_some {node : Node} {name : String} :
    node.bareName? = some name ↔ ∃ position, node = .identifier position name := by
  constructor
  · intro h
    cases node <;> cases h
    exact ⟨_, rfl⟩
  · rintro ⟨position, rfl⟩
    rfl

theorem inputName?_member (position : Position) (owner name : Node) (computed : Bool) :
    inputName? (.member position owner name computed) =
      if owner.bareName? = some "inputs" ∧ computed = false then name.bareName? else none := by
  split_ifs with shape
  · obtain ⟨named, rfl⟩ := shape
    obtain ⟨place, rfl⟩ := bareName?_eq_some.mp named
    cases name <;> rfl
  · unfold inputName?
    split
    · next same =>
      cases same
      exact absurd ⟨rfl, rfl⟩ shape
    · rfl

theorem inputName?_unplaced (node : Node) : node.unplaced.inputName? = node.inputName? := by
  cases node with
  | member position owner name computed =>
    rw [unplaced, inputName?_member, inputName?_member, bareName?_unplaced, bareName?_unplaced]
  | _ => rfl

mutual

theorem value?_unplaced : (node : Node) → node.unplaced.value? = node.value?
  | member position owner name computed => by
    have same := inputName?_unplaced (.member position owner name computed)
    simp only [unplaced, value?] at same ⊢
    rw [same]
  | array _ elements => by
    simp only [unplaced, value?, valuesOrNull_unplaced elements]
  | object _ properties => by
    simp only [unplaced, value?, valueEntries_unplaced properties]
  | literal .. | identifier .. | template .. | property .. | spread .. | function .. | arrow ..
  | unary .. | update .. | binary .. | assignment .. | conditional .. | call .. | construct ..
  | declarations .. | declarator .. | imports .. | defaultSpecifier .. | namespaceSpecifier ..
  | namedSpecifier .. | exported .. | returned .. | branching .. | block .. | empty ..
  | expression .. | program .. => rfl

theorem valuesOrNull_unplaced : (nodes : List Node) →
    valuesOrNull (unplacedAll nodes) = valuesOrNull nodes
  | [] => rfl
  | first :: more => by
    simp only [unplacedAll, valuesOrNull, value?_unplaced first, valuesOrNull_unplaced more]

theorem valueEntries_unplaced : (nodes : List Node) →
    valueEntries (unplacedAll nodes) = valueEntries nodes
  | [] => rfl
  | .property _ key value _ :: more => by
    simp only [unplacedAll, unplaced, valueEntries, key?_unplaced, value?_unplaced value,
      valueEntries_unplaced more]
  | literal .. :: more | identifier .. :: more | template .. :: more | array .. :: more
  | object .. :: more | member .. :: more | spread .. :: more | function .. :: more
  | arrow .. :: more | unary .. :: more | update .. :: more | binary .. :: more
  | assignment .. :: more | conditional .. :: more | call .. :: more | construct .. :: more
  | declarations .. :: more | declarator .. :: more | imports .. :: more
  | defaultSpecifier .. :: more | namespaceSpecifier .. :: more | namedSpecifier .. :: more
  | exported .. :: more | returned .. :: more | branching .. :: more | block .. :: more
  | empty .. :: more | expression .. :: more | program .. :: more => by
    simp only [unplacedAll, unplaced, valueEntries, valueEntries_unplaced more]

end

mutual

theorem literal?_unplaced : (node : Node) → node.unplaced.literal? = node.literal?
  | array _ elements => by
    simp only [unplaced, literal?, literals?_unplaced elements]
  | object _ properties => by
    simp only [unplaced, literal?, literalEntries?_unplaced properties]
  | literal .. | identifier .. | member .. | template .. | property .. | spread .. | function ..
  | arrow .. | unary .. | update .. | binary .. | assignment .. | conditional .. | call ..
  | construct .. | declarations .. | declarator .. | imports .. | defaultSpecifier ..
  | namespaceSpecifier .. | namedSpecifier .. | exported .. | returned .. | branching .. | block ..
  | empty .. | expression .. | program .. => rfl

theorem literals?_unplaced : (nodes : List Node) → literals? (unplacedAll nodes) = literals? nodes
  | [] => rfl
  | first :: more => by
    simp only [unplacedAll, literals?, literal?_unplaced first, literals?_unplaced more]

theorem literalEntries?_unplaced : (nodes : List Node) →
    literalEntries? (unplacedAll nodes) = literalEntries? nodes
  | [] => rfl
  | .property _ key value _ :: more => by
    simp only [unplacedAll, unplaced, literalEntries?, key?_unplaced, literal?_unplaced value,
      literalEntries?_unplaced more]
  | literal .. :: more | identifier .. :: more | template .. :: more | array .. :: more
  | object .. :: more | member .. :: more | spread .. :: more | function .. :: more
  | arrow .. :: more | unary .. :: more | update .. :: more | binary .. :: more
  | assignment .. :: more | conditional .. :: more | call .. :: more | construct .. :: more
  | declarations .. :: more | declarator .. :: more | imports .. :: more
  | defaultSpecifier .. :: more | namespaceSpecifier .. :: more | namedSpecifier .. :: more
  | exported .. :: more | returned .. :: more | branching .. :: more | block .. :: more
  | empty .. :: more | expression .. :: more | program .. :: more => by
    simp only [unplacedAll, unplaced, literalEntries?]

end

/-! What a parsed tree promises. -/

open Dashboard.Json (IsStandard AreStandard EntriesStandard entriesStandard_iff)
open Dashboard.Module (IsWord)

/-- A declarator binds a word, and a literal behind it has so many levels at most. -/
def IsBinding (levels : Nat) (node : Node) : Prop :=
  ∀ position place name value, node = .declarator position (.identifier place name) value →
    IsWord name ∧ ∀ init, value = some init → ∀ v, init.literal? = some v → IsStandard levels v

/-- Names are words, and literals have so many levels at most. What a node is not asks for nothing. -/
structure IsPlain (levels : Nat) (node : Node) : Prop where
  literal : ∀ value, node.literal? = some value → IsStandard levels value := by
    intro value found
    cases found
  entry : ∀ entries, literalEntries? [node] = some entries → EntriesStandard levels entries := by
    intro entries found
    cases found
  name : ∀ name, node.bareName? = some name → IsWord name := by
    intro name found
    cases found
  reference : ∀ name, node.inputName? = some name → IsWord name := by
    intro name found
    cases found
  binding : IsBinding levels node := by
    intro position place name value shape
    cases shape
  bindings : ∀ position kind declarators, node = .declarations position kind declarators →
      ∀ declarator ∈ declarators, IsBinding levels declarator := by
    intro position kind declarators shape
    cases shape

theorem IsBinding.mono {m n : Nat} (h : m ≤ n) {node : Node} (plain : IsBinding m node) :
    IsBinding n node := by
  intro position place name value shape
  obtain ⟨word, literal⟩ := plain position place name value shape
  exact ⟨word, fun init written v found => (literal init written v found).mono h⟩

theorem IsPlain.mono {m n : Nat} (h : m ≤ n) {node : Node} (plain : IsPlain m node) :
    IsPlain n node where
  literal value found := (plain.literal value found).mono h
  entry entries found := (plain.entry entries found).mono h
  name := plain.name
  reference := plain.reference
  binding := plain.binding.mono h
  bindings position kind declarators shape declarator member :=
    (plain.bindings position kind declarators shape declarator member).mono h

/-- Nodes that are no literal, no name, no member and no declaration. -/
def isNeutral : Node → Bool
  | literal .. | identifier .. | array .. | object .. | property .. | member .. | declarations ..
  | declarator .. => false
  | _ => true

theorem isPlain_of_isNeutral (levels : Nat) {node : Node} (h : node.isNeutral = true) :
    IsPlain levels node := by
  constructor
  · intro value found
    cases node <;> cases h <;> cases found
  · intro entries found
    cases node <;> cases h <;> cases found
  · intro name found
    cases node <;> cases h <;> cases found
  · intro name found
    cases node <;> cases h <;> cases found
  · rintro position place name value rfl
    cases h
  · rintro position kind declarators rfl
    cases h

theorem isStandard_ofNumber (levels : Nat) {x : Binary64} (sound : IsSound x) :
    IsStandard levels (.ofNumber x) := by
  unfold Json.ofNumber
  split
  · next n whole =>
    have finite : x.isFinite = true := by
      cases x with
      | finite => rfl
      | infinite => cases whole
    split_ifs with small
    · rw [IsStandard, Json.isInteger]
      have bound : 9 * tenTo 15 < twoTo 63 := by decide
      have higher : twoTo 63 < twoTo 64 := by decide
      simp only [Bool.and_eq_true, decide_eq_true_eq]
      omega
    · rw [IsStandard]
      exact sound finite
  · split_ifs with finite
    · rw [IsStandard]
      exact sound finite
    · cases levels <;> trivial

theorem isStandard_toJson (levels : Nat) {value : Scalar}
    (sound : ∀ x, value = .number x → IsSound x) : IsStandard levels value.toJson := by
  cases value with
  | number x => exact isStandard_ofNumber levels (sound x rfl)
  | null => cases levels <;> trivial
  | bool => cases levels <;> trivial
  | str => cases levels <;> trivial

theorem isPlain_literal (levels : Nat) (position : Position) {value : Scalar}
    (sound : ∀ x, value = .number x → IsSound x) : IsPlain levels (.literal position value) where
  literal v found := Option.some.inj found ▸ isStandard_toJson levels sound

theorem isPlain_identifier (levels : Nat) (position : Position) {name : String} (word : IsWord name) :
    IsPlain levels (.identifier position name) where
  name other found := Option.some.inj found ▸ word

theorem isPlain_member (levels : Nat) (position : Position) (owner : Node) {name : Node}
    {computed : Bool} (plain : computed = false → IsPlain levels name) :
    IsPlain levels (.member position owner name computed) where
  reference word found := by
    rw [inputName?_member] at found
    split_ifs at found with shape
    exact (plain shape.2).name word found

theorem areStandard_literals? {levels : Nat} {nodes : List Node}
    (plain : ∀ node ∈ nodes, IsPlain levels node) {values : List Json}
    (h : literals? nodes = some values) : AreStandard levels values := by
  induction nodes generalizing values with
  | nil =>
    obtain rfl := Option.some.inj h
    trivial
  | cons first more ih =>
    rw [literals?] at h
    split at h
    · next value others here later =>
      obtain rfl := Option.some.inj h
      exact ⟨(plain first (by simp)).literal value here,
        ih (fun node member => plain node (List.mem_cons_of_mem _ member)) later⟩
    · cases h

theorem literalEntries?_cons {first : Node} {more : List Node} {entries : List (String × Json)}
    (h : literalEntries? (first :: more) = some entries) :
    ∃ here later, literalEntries? [first] = some here ∧ literalEntries? more = some later ∧
      entries = here ++ later := by
  cases first with
  | property position key value shorthand =>
    simp only [literalEntries?] at h ⊢
    split at h
    · next k v later named written others =>
      obtain rfl := Option.some.inj h
      exact ⟨[(k, v)], later, by rw [named, written], others, rfl⟩
    · cases h
  | _ => cases h

theorem entriesStandard_literalEntries? {levels : Nat} {nodes : List Node}
    (plain : ∀ node ∈ nodes, IsPlain levels node) {entries : List (String × Json)}
    (h : literalEntries? nodes = some entries) : EntriesStandard levels entries := by
  induction nodes generalizing entries with
  | nil =>
    obtain rfl := Option.some.inj h
    trivial
  | cons first more ih =>
    obtain ⟨here, later, found, others, rfl⟩ := literalEntries?_cons h
    have front := (plain first (by simp)).entry here found
    have back := ih (fun node member => plain node (List.mem_cons_of_mem _ member)) others
    rw [entriesStandard_iff] at front back ⊢
    intro entry member
    exact (List.mem_append.mp member).elim (front entry) (back entry)

theorem isPlain_array {levels : Nat} (position : Position) {elements : List Node}
    (plain : ∀ node ∈ elements, IsPlain levels node) :
    IsPlain (levels + 1) (.array position elements) := by
  refine ⟨fun v found => ?_, nofun, nofun, nofun, nofun, nofun⟩
  obtain ⟨values, read, rfl⟩ := Option.map_eq_some_iff.mp found
  exact areStandard_literals? plain read

theorem isPlain_object {levels : Nat} (position : Position) {properties : List Node}
    (plain : ∀ node ∈ properties, IsPlain levels node) :
    IsPlain (levels + 1) (.object position properties) := by
  refine ⟨fun v found => ?_, nofun, nofun, nofun, nofun, nofun⟩
  obtain ⟨entries, read, rfl⟩ := Option.map_eq_some_iff.mp found
  refine ⟨Dictionary.isOrdered_ofList entries, ?_⟩
  have standard := entriesStandard_literalEntries? plain read
  rw [entriesStandard_iff] at standard ⊢
  exact fun entry member => standard entry (Dictionary.mem_ofList member)

theorem isPlain_property {levels : Nat} (position : Position) (key : Node) {value : Node}
    (shorthand : Bool) (plain : IsPlain levels value) :
    IsPlain levels (.property position key value shorthand) := by
  refine ⟨nofun, fun entries found => ?_, nofun, nofun, nofun, nofun⟩
  simp only [literalEntries?] at found
  split at found
  · next k v later named written others =>
    obtain rfl := Option.some.inj found
    obtain rfl := Option.some.inj others
    exact ⟨plain.literal v written, trivial⟩
  · cases found

theorem isPlain_declarator {levels : Nat} (position : Position) {name : Node} {value : Option Node}
    (named : IsPlain levels name) (plain : ∀ init, value = some init → IsPlain levels init) :
    IsPlain levels (.declarator position name value) := by
  refine ⟨nofun, nofun, nofun, nofun, fun position place word written shape => ?_, nofun⟩
  cases shape
  exact ⟨named.name word rfl, fun init found v read => (plain init found).literal v read⟩

theorem isPlain_declarations {levels : Nat} (position : Position) (kind : DeclarationKind)
    {declarators : List Node} (plain : ∀ node ∈ declarators, IsPlain levels node) :
    IsPlain levels (.declarations position kind declarators) := by
  refine ⟨nofun, nofun, nofun, nofun, nofun, fun position kind others shape declarator member => ?_⟩
  cases shape
  exact (plain declarator member).binding

end Dashboard.Script.Node
