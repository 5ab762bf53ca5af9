import Dashboard.Policy
import Dashboard.Proofs.Decimal.Rounding
import Dashboard.Proofs.Outcome
import Dashboard.Proofs.Pattern
import Dashboard.Proofs.Script.Yielding
import Dashboard.Proofs.Text

/-!
What the permissive policy lets pass. The grammar of scripts tells where declarators stand and how
names are spelled, so the walk over a program meets all of its declarations, and an allowed call is
one of `Math`.
-/
namespace Dashboard.Policy

open Dashboard.Script (Node IsFormed)
open Dashboard.Text (isAsciiLetter Pattern)

/-- The conventions for names: a word for a state and then a name with a capital, or letters before
one of some endings. -/
def IsConventional (name : String) : Prop :=
  (∃ word ∈ ["show", "hide", "visible", "enabled", "disabled", "active", "inactive"],
    ∃ c rest, name.toList = word.toList ++ c :: rest ∧ ('A' ≤ c ∧ c ≤ 'Z') ∧
      ∀ d ∈ rest, isAsciiLetter d = true) ∨
  ∃ ending ∈ ["Data", "Config", "Title", "Label", "Count", "Value"],
    ∃ stem, name.toList = stem ++ ending.toList ∧ stem ≠ [] ∧ ∀ c ∈ stem, isAsciiLetter c = true

theorem spells_letters {text : List Char} :
    letters.Spells text ↔ text ≠ [] ∧ ∀ c ∈ text, isAsciiLetter c = true := by
  constructor
  · rintro ⟨-, back, rfl, ⟨c, letter, rfl⟩, others⟩
    exact ⟨by simp, List.forall_mem_cons.mpr ⟨letter, others⟩⟩
  · rintro ⟨nonempty, all⟩
    cases text with
    | nil => exact absurd rfl nonempty
    | cons c more =>
      obtain ⟨letter, others⟩ := List.forall_mem_cons.mp all
      exact ⟨[c], more, rfl, ⟨c, letter, rfl⟩, others⟩

theorem spells_flagName {text : List Char} :
    flagName.Spells text ↔
      ∃ word ∈ ["show", "hide", "visible", "enabled", "disabled", "active", "inactive"],
        ∃ c rest, text = word.toList ++ c :: rest ∧ ('A' ≤ c ∧ c ≤ 'Z') ∧
          ∀ d ∈ rest, isAsciiLetter d = true := by
  simp only [flagName, Pattern.spells_sequence, Pattern.spells_choice, List.mem_map,
    exists_exists_and_eq_and]
  constructor
  · rintro ⟨-, -, rfl, ⟨word, member, rfl⟩, -, -, rfl, ⟨c, capital, rfl⟩, rest, -, rfl, letters, rfl⟩
    exact ⟨word, member, c, rest, by simp, by simpa using capital, letters⟩
  · rintro ⟨word, member, c, rest, rfl, capital, letters⟩
    exact ⟨_, _, rfl, ⟨word, member, rfl⟩, [c], rest, rfl, ⟨c, by simpa using capital, rfl⟩,
      rest, [], by simp, letters, rfl⟩

theorem isAllowedName_iff {name : String} : isAllowedName name = true ↔ IsConventional name := by
  have free : ∀ pattern ∈ namePatterns, pattern.isContextFree = true := List.all_eq_true.mp rfl
  have spelled : isAllowedName name = true ↔ ∃ pattern ∈ namePatterns, pattern.Spells name.toList := by
    rw [isAllowedName, List.any_eq_true]
    exact exists_congr fun pattern => and_congr_right fun member =>
      Pattern.matchesWhole_iff (free pattern member)
  rw [spelled, namePatterns, List.exists_mem_cons_iff, IsConventional, spells_flagName]
  simp only [List.mem_map, exists_exists_and_eq_and]
  refine or_congr_right (exists_congr fun ending => and_congr_right fun _ => ?_)
  constructor
  · rintro ⟨stem, -, shape, spelled, rfl⟩
    exact ⟨stem, shape, spells_letters.mp spelled⟩
  · rintro ⟨stem, shape, spelled⟩
    exact ⟨stem, _, shape, spells_letters.mpr spelled, rfl⟩

/-! Bounded literals. -/

def IsBoundedScalar : Scalar → Prop
  | .str text => text.length ≤ 100
  | .number value => value.isFinite = true ∧ value.magnitude ≤ 1000000
  | .bool _ | .null => True

/-- Scalars within their bounds, short arrays of such values, and small objects with such values
that spread nothing. -/
inductive IsBounded : Node → Prop
  | literal (p : Position) {value : Scalar} (scalar : IsBoundedScalar value) :
    IsBounded (.literal p value)
  | array (p : Position) {elements : List Node} (short : elements.length ≤ 100)
      (items : ∀ e ∈ elements, IsBounded e) : IsBounded (.array p elements)
  | object (p : Position) {properties : List Node} (small : properties.length ≤ 20)
      (plain : ∀ q ∈ properties, ∃ p key value shorthand, q = .property p key value shorthand)
      (values : ∀ p key value shorthand, .property p key value shorthand ∈ properties →
        IsBounded value) :
    IsBounded (.object p properties)

theorem isBounded_array {p : Position} {elements : List Node} :
    IsBounded (.array p elements) ↔ elements.length ≤ 100 ∧ ∀ e ∈ elements, IsBounded e :=
  ⟨fun | .array _ short items => ⟨short, items⟩, fun ⟨short, items⟩ => .array p short items⟩

theorem isBounded_object {p : Position} {properties : List Node} :
    IsBounded (.object p properties) ↔ properties.length ≤ 20 ∧
      ∀ q ∈ properties, ∃ p key value shorthand, q = .property p key value shorthand ∧
        IsBounded value := by
  constructor
  · rintro (_ | _ | ⟨_, small, plain, values⟩)
    refine ⟨small, fun q member => ?_⟩
    obtain ⟨p, key, value, shorthand, rfl⟩ := plain q member
    exact ⟨p, key, value, shorthand, rfl, values _ _ _ _ member⟩
  · rintro ⟨small, items⟩
    refine .object p small (fun q member => ?_) fun p key value shorthand member => ?_
    · obtain ⟨p, key, value, shorthand, same, -⟩ := items q member
      exact ⟨p, key, value, shorthand, same⟩
    · obtain ⟨_, _, _, _, same, bound⟩ := items _ member
      cases same
      exact bound

theorem boundedScalar_eq_ok {value : Scalar} :
    (∃ v, boundedScalar value = .ok v) ↔ IsBoundedScalar value := by
  cases value with
  | str text =>
    rw [boundedScalar, IsBoundedScalar]
    split_ifs with long
    · simpa [maxStringLength] using long
    · simpa [maxStringLength] using long
  | number value =>
    rw [boundedScalar, IsBoundedScalar, ← Nat.cast_ofNat (R := ℚ), ← Binary64.magnitudeAbove_eq_false]
    split_ifs with large
    · simpa [maxMagnitude] using large
    · simpa [maxMagnitude] using large
  | bool _ | null => simp [boundedScalar, IsBoundedScalar]

theorem boundedItems_eq_ok {elements : List Node} :
    (∃ vs, boundedItems elements = .ok vs) ↔ ∀ e ∈ elements, ∃ v, bounded e = .ok v := by
  induction elements with
  | nil => simp [boundedItems]
  | cons first more ih =>
    rw [boundedItems, List.forall_mem_cons, ← ih]
    cases bounded first with
    | error reasons => simp
    | ok v => cases boundedItems more <;> simp [Except.map]

theorem boundedEntries_eq_ok {properties : List Node} :
    (∃ entries, boundedEntries properties = .ok entries) ↔
      ∀ q ∈ properties, ∃ p key value shorthand name v, q = .property p key value shorthand ∧
        key.key? = some name ∧ bounded value = .ok v := by
  induction properties with
  | nil => simp [boundedEntries]
  | cons first more ih =>
    rw [List.forall_mem_cons, ← ih]
    cases first with
    | property p key value shorthand =>
      rw [boundedEntries]
      cases named : key.key? with
      | none => simp [named]
      | some name =>
        cases read : bounded value with
        | error reasons => simp [read]
        | ok v => cases boundedEntries more <;> simp [Except.map, named, read]
    | _ => simp [boundedEntries]

theorem bounded_array_eq_ok {p : Position} {elements : List Node} :
    (∃ v, bounded (.array p elements) = .ok v) ↔
      elements.length ≤ 100 ∧ ∀ e ∈ elements, ∃ v, bounded e = .ok v := by
  rw [bounded, ← boundedItems_eq_ok]
  split_ifs with long
  · simpa [maxArrayLength] using fun short => absurd long (Nat.not_lt.mpr short)
  · rw [and_iff_right (a := elements.length ≤ 100) (Nat.not_lt.mp long)]
    cases boundedItems elements <;> simp [Except.map]

theorem bounded_object_eq_ok {p : Position} {properties : List Node} :
    (∃ v, bounded (.object p properties) = .ok v) ↔
      properties.length ≤ 20 ∧
        ∀ q ∈ properties, ∃ p key value shorthand name v, q = .property p key value shorthand ∧
          key.key? = some name ∧ bounded value = .ok v := by
  rw [bounded, ← boundedEntries_eq_ok]
  split_ifs with large
  · simpa [maxObjectSize] using fun small => absurd large (Nat.not_lt.mpr small)
  · rw [and_iff_right (a := properties.length ≤ 20) (Nat.not_lt.mp large)]
    cases boundedEntries properties <;> simp [Except.map]

theorem exists_key? {key : Node} (formed : IsFormed .key key) : ∃ name, key.key? = some name := by
  cases formed with
  | nameKey name =>
    cases name
    exact ⟨_, rfl⟩
  | stringKey | numberKey => exact ⟨_, rfl⟩

/-- A word for a truth value is no free name. -/
theorem truthValue?_of_isFree {name : String} (free : Script.IsFree name) : truthValue? name = none := by
  unfold truthValue?
  split_ifs with yes no
  · subst yes
    exact absurd free (by unfold Script.IsFree; decide)
  · subst no
    exact absurd free (by unfold Script.IsFree; decide)
  · rfl

/-- A name that stands for a value of its own is refused. -/
theorem bounded_reference {p : Position} {name : String}
    (formed : IsFormed .expression (.identifier p name)) :
    bounded (.identifier p name) = .error [.initializer "Identifier"] := by
  cases formed with
  | reference _ _ free =>
    rw [bounded, truthValue?_of_isFree free]
    rfl

/-- The policy reduces exactly the bounded literals among the expressions of a script. -/
theorem bounded_eq_ok {node : Node} (formed : IsFormed .expression node) :
    (∃ v, bounded node = .ok v) ↔ IsBounded node := by
  cases node with
  | literal p value =>
    rw [bounded, boundedScalar_eq_ok]
    exact ⟨.literal p, fun | .literal _ scalar => scalar⟩
  | array p elements =>
    have items : ∀ e ∈ elements, IsFormed .item e := by
      cases formed with
      | array _ items => exact items
    rw [bounded_array_eq_ok, isBounded_array]
    refine and_congr_right fun _ => forall₂_congr fun e member => ?_
    have smaller := List.sizeOf_lt_of_mem member
    cases items e member with
    | item formed => exact bounded_eq_ok formed
    | spreadItem => exact iff_of_false (by simp [bounded]) nofun
  | object p properties =>
    have items : ∀ q ∈ properties, IsFormed .property q := by
      cases formed with
      | object _ items => exact items
    rw [bounded_object_eq_ok, isBounded_object]
    refine and_congr_right fun _ => forall₂_congr fun q member => ?_
    have smaller := List.sizeOf_lt_of_mem member
    cases items q member with
    | property p shorthand named bound =>
      obtain ⟨name, named⟩ := exists_key? named
      have reads := bounded_eq_ok bound
      simp [named, ← reads]
    | spreadProperty => simp
  | identifier p name => exact iff_of_false (by simp [bounded_reference formed]) nofun
  | _ => exact iff_of_false (by simp [bounded]) nofun
-- The value of a property is two levels below the object.
termination_by sizeOf node
decreasing_by
  all_goals
    subst_vars
    simp only [Node.array.sizeOf_spec, Node.object.sizeOf_spec, Node.property.sizeOf_spec] at *
    omega

theorem ne_nil_of_boundedScalar {value : Scalar} {reasons : List Violation}
    (h : boundedScalar value = .error reasons) : reasons ≠ [] := by
  unfold boundedScalar at h
  split at h
  · split_ifs at h
    cases h
    exact List.cons_ne_nil _ _
  · split_ifs at h
    cases h
    exact List.cons_ne_nil _ _
  · cases h

theorem ne_nil_of_boundedItems {elements : List Node} {reasons : List Violation}
    (h : boundedItems elements = .error reasons) : reasons ≠ [] := by
  induction elements with
  | nil => cases h
  | cons first more ih =>
    rw [boundedItems] at h
    split at h
    · cases h
      exact List.append_ne_nil_of_right_ne_nil _ (List.cons_ne_nil _ _)
    · exact ih (map_eq_error.mp h)

theorem ne_nil_of_boundedEntries {properties : List Node} {reasons : List Violation}
    (h : boundedEntries properties = .error reasons) : reasons ≠ [] := by
  induction properties with
  | nil => cases h
  | cons first more ih =>
    cases first with
    | property p key value shorthand =>
      rw [boundedEntries] at h
      split at h
      · cases h
        exact List.cons_ne_nil _ _
      · split at h
        · cases h
          exact List.append_ne_nil_of_right_ne_nil _ (List.cons_ne_nil _ _)
        · exact ih (map_eq_error.mp h)
    | _ =>
      cases h
      exact List.cons_ne_nil _ _

/-- A value that is refused is refused for a reason. -/
theorem ne_nil_of_bounded {node : Node} {reasons : List Violation}
    (h : bounded node = .error reasons) : reasons ≠ [] := by
  cases node with
  | literal p value => exact ne_nil_of_boundedScalar h
  | array p elements =>
    rw [bounded] at h
    split_ifs at h
    · cases h
      exact List.cons_ne_nil _ _
    · exact ne_nil_of_boundedItems (map_eq_error.mp h)
  | object p properties =>
    rw [bounded] at h
    split_ifs at h
    · cases h
      exact List.cons_ne_nil _ _
    · exact ne_nil_of_boundedEntries (map_eq_error.mp h)
  | identifier p name =>
    rw [bounded] at h
    split at h
    · cases h
    · cases h
      exact List.cons_ne_nil _ _
  | _ =>
    cases h
    exact List.cons_ne_nil _ _

/-! What is asked of single nodes. -/

/-- A callee `Math.f`, without brackets, for one of five functions. -/
def IsHelper : Node → Prop
  | .member _ (.identifier _ owner) (.identifier _ name) false =>
    owner = "Math" ∧ name ∈ ["round", "floor", "ceil", "max", "min"]
  | _ => False

theorem dot_notMem_of_isName {name : String} (h : Script.IsName name) : '.' ∉ name.toList := by
  intro member
  have char := h.2 '.' member
  revert char
  decide

theorem append_dot_mem_allowedCalls {left right : String} (named : Script.IsName left) :
    left ++ "." ++ right ∈ allowedCalls ↔
      left = "Math" ∧ right ∈ ["round", "floor", "ceil", "max", "min"] := by
  have joined : allowedCalls =
      ["round", "floor", "ceil", "max", "min"].map ("Math" ++ "." ++ ·) := by decide
  rw [joined, List.mem_map]
  constructor
  · rintro ⟨name, member, same⟩
    have cut := congrArg String.toList same
    simp only [String.toList_append, List.append_assoc] at cut
    -- Neither `Math` nor a name holds a dot, so both texts are cut at the same place.
    obtain ⟨owner, rest⟩ := Text.eq_of_append_mark (by decide)
      (dot_notMem_of_isName named) cut
    obtain rfl : name = right := String.toList_inj.mp rest
    exact ⟨(String.toList_inj.mp owner).symm, member⟩
  · rintro ⟨rfl, member⟩
    exact ⟨right, member, rfl⟩

/-- How a part of a callee is shown: an identifier by its name, anything else by the same word. -/
def partName : Node → String
  | .identifier _ name => name
  | _ => "unknown"

theorem calleeName_dotted (p : Position) (owner field : Node) :
    calleeName (.member p owner field false) = partName owner ++ "." ++ partName field := by
  unfold calleeName
  refine congrArg₂ (· ++ "." ++ ·) ?_ ?_
  · cases owner <;> rfl
  · cases field <;> rfl

theorem calleeName_bracketed (p : Position) (owner field : Node) :
    calleeName (.member p owner field true) = partName owner ++ "." ++ "unknown" := by
  unfold calleeName
  refine congrArg₂ (· ++ "." ++ ·) ?_ ?_
  · cases owner <;> rfl
  · cases field <;> rfl

theorem isName_partName {node : Node} (formed : IsFormed .expression node) :
    Script.IsName (partName node) := by
  have unknown : Script.IsName "unknown" :=
    ⟨by decide, List.all_eq_true.mp (by decide)⟩
  cases node with
  | identifier p name =>
    cases formed with
    | reference _ spelled => exact spelled
  | _ => exact unknown

/-- The names of calls are unambiguous: only a helper of `Math` is shown like one. -/
theorem calleeName_mem_allowedCalls {callee : Node} (formed : IsFormed .expression callee) :
    calleeName callee ∈ allowedCalls ↔ IsHelper callee := by
  have dotted : ∀ call ∈ allowedCalls, '.' ∈ call.toList := by decide
  have unknown : "unknown" ∉ allowedCalls := by decide
  have other : "unknown" ≠ "Math" := by decide
  cases callee with
  | identifier p name =>
    refine iff_of_false (fun member => ?_) id
    exact dot_notMem_of_isName (isName_partName formed) (dotted name member)
  | member p owner field computed =>
    cases formed with
    | index _ target place =>
      rw [calleeName_bracketed, append_dot_mem_allowedCalls (isName_partName target)]
      refine iff_of_false (fun allowed => absurd allowed.2 (by decide)) ?_
      unfold IsHelper
      split
      · next shape => cases shape
      · exact id
    | member _ target name =>
      obtain ⟨r, spelled⟩ := name
      rw [calleeName_dotted, append_dot_mem_allowedCalls (isName_partName target)]
      cases owner with
      | identifier => exact Iff.rfl
      | _ => exact iff_of_false (fun allowed => other allowed.1) id
  | _ => exact iff_of_false unknown id

/-- What the permissive policy asks of a node. -/
def IsPermitted : Node → Prop
  | .function _ isDeclaration _ _ _ => isDeclaration = false
  | .imports .. => False
  | .call _ callee _ => IsHelper callee
  | .declarator _ (.identifier _ name) (some value) => IsConventional name ∧ IsBounded value
  | .declarator _ _ (some _) => False
  | _ => True

theorem isPermitted_declarator {p : Position} {id value : Node} :
    IsPermitted (.declarator p id (some value)) ↔
      ∃ q name, id = .identifier q name ∧ IsConventional name ∧ IsBounded value := by
  cases id <;> simp [IsPermitted]

/-- A node as the walk meets it: declarators are judged with the declaration that holds them. -/
def Passes : Node → Prop
  | .declarations _ _ declarators => ∀ d ∈ declarators, IsPermitted d
  | .declarator .. => True
  | node => IsPermitted node

namespace Outcome

variable {o : Outcome} {node : Node}

theorem add_violations {violations : List Violation} :
    (o.add violations).violations = [] ↔ o.violations = [] ∧ violations = [] :=
  List.append_eq_nil_iff

/-- Violations are never taken back, so nothing is reported if no step reports anything. -/
theorem foldl_violations {step : Outcome → Node → Outcome} {P : Node → Prop} {nodes : List Node}
    (each : ∀ node ∈ nodes, ∀ o : Outcome,
      (step o node).violations = [] ↔ o.violations = [] ∧ P node) (o : Outcome) :
    (nodes.foldl step o).violations = [] ↔ o.violations = [] ∧ ∀ node ∈ nodes, P node := by
  induction nodes generalizing o with
  | nil => simp
  | cons first more ih =>
    obtain ⟨here, later⟩ := List.forall_mem_cons.mp each
    rw [List.foldl_cons, ih later, here, List.forall_mem_cons, and_assoc]

theorem declare_violations (formed : IsFormed .declarator node) (o : Outcome) :
    (o.declare node).violations = [] ↔ o.violations = [] ∧ IsPermitted node := by
  cases formed with
  | @declarator p id init name value =>
    obtain ⟨q, spelled⟩ := name
    cases init with
    | none => simp [declare, IsPermitted]
    | some init =>
      rw [declare, IsPermitted, ← isAllowedName_iff, ← bounded_eq_ok (value init rfl)]
      split_ifs with allowed
      · cases read : bounded init with
        | ok v => simp [allowed]
        | error reasons => simp [add_violations, ne_nil_of_bounded read]
      · simp [add_violations, allowed]

theorem visit_violations {category : Script.Category} (formed : IsFormed category node)
    (o : Outcome) : (o.visit node).violations = [] ↔ o.violations = [] ∧ Passes node := by
  cases node with
  | declarations p kind declarators =>
    exact foldl_violations (fun d member => declare_violations (formed.of_declarations d member)) o
  | function p isDeclaration name params body =>
    cases isDeclaration with
    | true => simp [visit, add_violations, Passes, IsPermitted]
    | false => simp [visit, Passes, IsPermitted]
  | call p callee arguments =>
    have permitted : Passes (.call p callee arguments) ↔ calleeName callee ∈ allowedCalls :=
      (calleeName_mem_allowedCalls formed.of_call).symm
    rw [permitted, visit, ← List.contains_iff_mem]
    split_ifs with allowed
    · exact (and_iff_left allowed).symm
    · rw [add_violations]
      exact and_congr_right fun _ => iff_of_false (List.cons_ne_nil _ _) allowed
  | imports p specifiers source =>
    have refused : ¬ Passes (.imports p specifiers source) := id
    rw [visit]
    split_ifs with reported
    · refine iff_of_false (fun clean => ?_) fun passed => refused passed.2
      simp [clean] at reported
    · simp [add_violations, refused]
  | _ => simp [visit, Passes, IsPermitted]

end Outcome

/-- The walk reports nothing exactly if every node of the program is permitted. -/
theorem permissive_violations {program : Node} (formed : IsFormed .program program) :
    (permissive program).violations = [] ↔ ∀ node, program.Occurs node → IsPermitted node := by
  have other : Script.Category.program ≠ .declarator := by decide
  have walk : (permissive program).violations = [] ↔ ∀ node ∈ program.subnodes, Passes node := by
    have each : ∀ node ∈ program.subnodes, ∀ o : Outcome,
        (o.visit node).violations = [] ↔ o.violations = [] ∧ Passes node := by
      intro node member
      obtain ⟨_, inner⟩ := formed.exists_of_occurs other (Node.mem_subnodes_iff.mp member)
      exact Outcome.visit_violations inner
    rw [permissive, Outcome.foldl_violations each]
    exact and_iff_right rfl
  rw [walk]
  -- The walk judges a declarator where it meets the declaration around it, and the grammar lets
  -- declarators stand nowhere else.
  constructor
  · intro passes node occurs
    have passed := passes node (Node.mem_subnodes_iff.mpr occurs)
    cases node with
    | declarator p id init =>
      obtain ⟨q, kind, declarators, above, member⟩ := formed.declarator_mem other occurs
      exact passes _ (Node.mem_subnodes_iff.mpr above) _ member
    | declarations => trivial
    | _ => exact passed
  · intro permitted node member
    have occurs := Node.mem_subnodes_iff.mp member
    cases node with
    | declarations p kind declarators => exact fun d inside => permitted d (occurs.part inside)
    | declarator => trivial
    | _ => exact permitted _ occurs

/-- The permissive policy accepts a script that parses exactly if there are no declared functions
and no imports anywhere in it, every call is one of a helper of `Math`, and every variable with a
value has a conventional name and a bounded literal. -/
theorem enforce_permissive_iff {region : Markup.ScriptRegion} {program : Node}
    (parsed : region.program = .ok program) :
    ∃ outcome, ScriptPolicy.permissive.enforce (some region) = .ok outcome ∧
      (outcome.violations = [] ↔ ∀ node, program.Occurs node → IsPermitted node) :=
  ⟨permissive program, map_eq_ok.mpr ⟨program, parsed, rfl⟩,
    permissive_violations (Script.isFormed_of_parseScript parsed)⟩

/-- A script with a flag, an object and a call. -/
def plainRegion : Markup.ScriptRegion :=
  ⟨.start, [], .start, "let showTotal = true; const axisConfig = { min: -2.5 }; Math.max(1, 2);"⟩

theorem exists_enforced_plain : ∃ outcome,
    ScriptPolicy.permissive.enforce (some plainRegion) = .ok outcome ∧ outcome.violations = [] := by
  have shown : ((ScriptPolicy.permissive.enforce (some plainRegion)).toOption.map
      Outcome.violations) = some [] := by
    have read : plainRegion.program = Script.programOf _ .start := Script.parseScript_ofList _ _
    rw [ScriptPolicy.enforce, read]
    decide +kernel
  obtain ⟨outcome, enforced, clean⟩ := Option.map_eq_some_iff.mp shown
  exact ⟨outcome, toOption_eq_some.mp enforced, clean⟩

theorem enforce_permissive_iff_plain : ∃ program, plainRegion.program = .ok program ∧
    ∀ node, program.Occurs node → IsPermitted node := by
  obtain ⟨found, enforced, clean⟩ := exists_enforced_plain
  obtain ⟨program, parsed, -⟩ := map_eq_ok.mp enforced
  obtain ⟨outcome, same, permitted⟩ := enforce_permissive_iff parsed
  obtain rfl : outcome = found := Except.ok.inj (same.symm.trans enforced)
  exact ⟨program, parsed, permitted.mp clean⟩

/-! The variables that the policy accepts. -/

/-- A declarator that gives a name a bounded literal, where the name is allowed. -/
def Declares (name : String) : Node → Prop
  | .declarator _ (.identifier _ other) (some value) =>
    other = name ∧ isAllowedName name = true ∧ ∃ v, bounded value = .ok v
  | _ => False

namespace Outcome

theorem contains_declare (o : Outcome) (node : Node) (name : String) :
    Dictionary.contains (o.declare node).declared name = true ↔
      Dictionary.contains o.declared name = true ∨ Declares name node := by
  unfold declare
  split
  · next other value =>
    rw [Declares]
    split_ifs with allowed
    · split
      · next v read =>
        rw [Dictionary.contains_insert, Bool.or_eq_true, decide_eq_true_eq, or_comm]
        refine or_congr_right ⟨?_, fun h => h.1.symm⟩
        rintro rfl
        exact ⟨rfl, allowed, v, read⟩
      · next reasons read =>
        have refused : ¬ ∃ v, bounded value = .ok v := by simp [read]
        exact (or_iff_left fun h => refused h.2.2).symm
    · refine (or_iff_left ?_).symm
      rintro ⟨rfl, named, -⟩
      exact allowed named
  · next shape =>
    refine (or_iff_left fun h => ?_).symm
    unfold Declares at h
    split at h
    · exact shape _ _ _ _ rfl
    · exact h

theorem contains_foldl {step : Outcome → Node → Outcome} {P : Node → Prop} {name : String}
    (each : ∀ (o : Outcome) (node : Node), Dictionary.contains (step o node).declared name = true ↔
      Dictionary.contains o.declared name = true ∨ P node) (nodes : List Node) (o : Outcome) :
    Dictionary.contains (nodes.foldl step o).declared name = true ↔
      Dictionary.contains o.declared name = true ∨ ∃ node ∈ nodes, P node := by
  induction nodes generalizing o with
  | nil => simp
  | cons first more ih => rw [List.foldl_cons, ih, each, List.exists_mem_cons_iff, or_assoc]

theorem visit_declared (o : Outcome) {node : Node}
    (other : ∀ p kind declarators, node ≠ .declarations p kind declarators) :
    (o.visit node).declared = o.declared := by
  unfold visit
  split
  · exact absurd rfl (other _ _ _)
  · rfl
  · dsimp only
    split_ifs <;> rfl
  · split_ifs <;> rfl
  · rfl

theorem contains_visit (o : Outcome) (node : Node) (name : String) :
    Dictionary.contains (o.visit node).declared name = true ↔
      Dictionary.contains o.declared name = true ∨
        ∃ p kind declarators, node = .declarations p kind declarators ∧
          ∃ d ∈ declarators, Declares name d := by
  by_cases declaring : ∃ p kind declarators, node = .declarations p kind declarators
  · obtain ⟨p, kind, declarators, rfl⟩ := declaring
    rw [visit, contains_foldl fun o d => contains_declare o d name]
    simp
  · rw [visit_declared o fun p kind declarators same => declaring ⟨p, kind, declarators, same⟩]
    refine (or_iff_left ?_).symm
    rintro ⟨p, kind, declarators, same, -⟩
    exact declaring ⟨p, kind, declarators, same⟩

end Outcome

theorem contains_permissive {program : Node} (formed : IsFormed .program program) (name : String) :
    Dictionary.contains (permissive program).declared name = true ↔
      ∃ d, program.Occurs d ∧ Declares name d := by
  rw [permissive, Outcome.contains_foldl fun o node => Outcome.contains_visit o node name]
  constructor
  · rintro (nothing | ⟨_, member, p, kind, declarators, rfl, d, inside, declares⟩)
    · cases nothing
    · exact ⟨d, (Node.mem_subnodes_iff.mp member).part inside, declares⟩
  · rintro ⟨d, occurs, declares⟩
    cases d with
    | declarator p id init =>
      obtain ⟨q, kind, declarators, above, member⟩ := formed.declarator_mem (by decide) occurs
      exact Or.inr ⟨_, Node.mem_subnodes_iff.mpr above, q, kind, declarators, rfl, _, member, declares⟩
    | _ => cases declares

/-- In a script that the permissive policy accepts, every variable with a value has an allowed name,
and the variables reported are these. -/
theorem isAllowedName_of_enforce {region : Markup.ScriptRegion} {outcome : Outcome}
    (enforced : ScriptPolicy.permissive.enforce (some region) = .ok outcome)
    (clean : outcome.violations = []) :
    ∃ program, region.program = .ok program ∧
      (∀ p id value, program.Occurs (.declarator p id (some value)) →
        ∃ q name, id = .identifier q name ∧ isAllowedName name = true) ∧
      ∀ name, Dictionary.contains outcome.declared name = true ↔
        ∃ p q value, program.Occurs (.declarator p (.identifier q name) (some value)) := by
  obtain ⟨program, parsed, rfl⟩ := map_eq_ok.mp enforced
  have formed := Script.isFormed_of_parseScript parsed
  have named {p : Position} {id value : Node}
      (occurs : program.Occurs (.declarator p id (some value))) :
      ∃ q name, id = .identifier q name ∧ isAllowedName name = true ∧ ∃ v, bounded value = .ok v := by
    obtain ⟨_, inner⟩ := formed.exists_of_occurs (by decide) occurs
    obtain ⟨-, initial⟩ := inner.of_declarator
    obtain ⟨q, name, rfl, conventional, literal⟩ :=
      isPermitted_declarator.mp ((permissive_violations formed).mp clean _ occurs)
    exact ⟨q, name, rfl, isAllowedName_iff.mpr conventional,
      (bounded_eq_ok (initial value rfl)).mpr literal⟩
  refine ⟨program, parsed, fun p id value occurs => ?_, fun name => ?_⟩
  · obtain ⟨q, name, same, allowed, -⟩ := named occurs
    exact ⟨q, name, same, allowed⟩
  · rw [contains_permissive formed]
    constructor
    · rintro ⟨d, occurs, declares⟩
      unfold Declares at declares
      split at declares
      · obtain ⟨rfl, -⟩ := declares
        exact ⟨_, _, _, occurs⟩
      · cases declares
    · rintro ⟨p, q, value, occurs⟩
      obtain ⟨_, _, same, allowed, read⟩ := named occurs
      cases same
      exact ⟨_, occurs, rfl, allowed, read⟩

theorem isAllowedName_of_enforce_plain : ∃ outcome,
    ScriptPolicy.permissive.enforce (some plainRegion) = .ok outcome ∧ outcome.violations = [] ∧
      ∃ program, plainRegion.program = .ok program ∧
        (∀ p id value, program.Occurs (.declarator p id (some value)) →
          ∃ q name, id = .identifier q name ∧ isAllowedName name = true) ∧
        ∀ name, Dictionary.contains outcome.declared name = true ↔
          ∃ p q value, program.Occurs (.declarator p (.identifier q name) (some value)) := by
  obtain ⟨outcome, enforced, clean⟩ := exists_enforced_plain
  exact ⟨outcome, enforced, clean, isAllowedName_of_enforce enforced clean⟩

/-- A variable without a value, under a name that no convention knows. -/
def bareRegion : Markup.ScriptRegion := ⟨.start, [], .start, "let secret;"⟩

def declaresBare (name : String) : Node → Bool
  | .declarator _ (.identifier _ other) none => other = name
  | _ => false

/-- Such a variable passes: its declarator is left before the name is looked at. -/
theorem enforce_bare : ∃ outcome program p q,
    ScriptPolicy.permissive.enforce (some bareRegion) = .ok outcome ∧ outcome.violations = [] ∧
      bareRegion.program = .ok program ∧
      program.Occurs (.declarator p (.identifier q "secret") none) ∧
      isAllowedName "secret" = false := by
  have shown : (bareRegion.program.toOption.map fun program =>
      ((permissive program).violations, program.subnodes.any (declaresBare "secret"))) =
        some ([], true) := by
    decide +kernel
  obtain ⟨program, parsed, found⟩ := Option.map_eq_some_iff.mp shown
  obtain ⟨clean, declares⟩ := Prod.mk.inj found
  obtain ⟨node, member, bare⟩ := List.any_eq_true.mp declares
  have ok := toOption_eq_some.mp parsed
  have enforced : ScriptPolicy.permissive.enforce (some bareRegion) = .ok (permissive program) :=
    map_eq_ok.mpr ⟨program, ok, rfl⟩
  unfold declaresBare at bare
  split at bare
  · obtain rfl := of_decide_eq_true bare
    exact ⟨_, program, _, _, enforced, clean, ok, Node.mem_subnodes_iff.mp member, by decide⟩
  · cases bare

end Dashboard.Policy
