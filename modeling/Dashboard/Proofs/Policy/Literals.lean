import Dashboard.Proofs.Component.Reducing
import Dashboard.Proofs.Policy

/-!
Three reductions of an expression to a value: the permissive policy's, which keeps to its bounds, the
generator's, which knows literals only, and the classifier's, which makes a value of whatever it can.
On what a script can hold, each knows what the one before it knows, with the same value. The policy also
takes names for truth values; no such name comes out of the lexer, so nothing is read that only it takes.
-/
namespace Dashboard.Policy

open Dashboard.Script (Node IsFormed)

theorem toJson_of_boundedScalar {value : Scalar} {v : Json} (h : boundedScalar value = .ok v) :
    value.toJson = v := by
  cases value with
  | null | bool => exact Except.ok.inj h
  | str | number =>
    rw [boundedScalar] at h
    split_ifs at h
    exact Except.ok.inj h

mutual

/-- What the policy reduces is a literal of the same value. -/
theorem literal?_of_bounded : (node : Node) → (v : Json) → IsFormed .expression node →
    bounded node = .ok v → node.literal? = some v
  | .literal _ value, v, _, h => congrArg some (toJson_of_boundedScalar h)
  | .identifier _ name, v, formed, h => by
    rw [bounded_reference formed] at h
    cases h
  | .array _ elements, v, formed, h => by
    have items : ∀ e ∈ elements, IsFormed .item e := by
      cases formed with
      | array _ items => exact items
    rw [bounded] at h
    split_ifs at h
    obtain ⟨values, read, rfl⟩ := map_eq_ok.mp h
    rw [Node.literal?, literals?_of_bounded elements values items read]
    rfl
  | .object _ properties, v, formed, h => by
    have items : ∀ q ∈ properties, IsFormed .property q := by
      cases formed with
      | object _ items => exact items
    rw [bounded] at h
    split_ifs at h
    obtain ⟨entries, read, rfl⟩ := map_eq_ok.mp h
    rw [Node.literal?, literalEntries?_of_bounded properties entries items read]
    rfl

/-- Items are reduced in order; what is spread is no literal for either. -/
theorem literals?_of_bounded : (elements : List Node) → (values : List Json) →
    (∀ e ∈ elements, IsFormed .item e) → boundedItems elements = .ok values →
      Node.literals? elements = some values
  | [], values, _, h => congrArg some (Except.ok.inj h)
  | first :: more, values, items, h => by
    obtain ⟨item, others⟩ := List.forall_mem_cons.mp items
    rw [boundedItems] at h
    split at h
    · cases h
    · next value here =>
      obtain ⟨rest, later, rfl⟩ := map_eq_ok.mp h
      have formed : IsFormed .expression first := by
        cases item with
        | item formed => exact formed
        | spreadItem => cases here
      rw [Node.literals?, literal?_of_bounded first value formed here,
        literals?_of_bounded more rest others later]

/-- Entries are reduced in order, each under the name of its key. -/
theorem literalEntries?_of_bounded : (properties : List Node) → (entries : List (String × Json)) →
    (∀ q ∈ properties, IsFormed .property q) → boundedEntries properties = .ok entries →
      Node.literalEntries? properties = some entries
  | [], entries, _, h => congrArg some (Except.ok.inj h)
  | .property _ key value _ :: more, entries, items, h => by
    obtain ⟨property, others⟩ := List.forall_mem_cons.mp items
    have formed : IsFormed .expression value := by
      cases property with
      | property _ _ _ formed => exact formed
    rw [boundedEntries] at h
    split at h
    · cases h
    · next name named =>
      split at h
      · cases h
      · next v here =>
        obtain ⟨rest, later, rfl⟩ := map_eq_ok.mp h
        rw [Node.literalEntries?, named, literal?_of_bounded value v formed here,
          literalEntries?_of_bounded more rest others later]

end

/-- What the policy adds to literals is its bounds. -/
theorem bounded_eq_ok_iff {node : Node} {v : Json} (formed : IsFormed .expression node) :
    bounded node = .ok v ↔ IsBounded node ∧ node.literal? = some v := by
  constructor
  · intro read
    exact ⟨(bounded_eq_ok formed).mp ⟨v, read⟩, literal?_of_bounded node v formed read⟩
  · rintro ⟨within, literal⟩
    obtain ⟨w, read⟩ := (bounded_eq_ok formed).mpr within
    obtain rfl : v = w :=
      Option.some_inj.mp (literal.symm.trans (literal?_of_bounded node w formed read))
    exact read

/-- On an expression that was read from a text, whatever the policy reduces is a literal with that value,
and whatever is a literal has that value for the classifier. -/
theorem reductions_agree {text : String} {origin : Position} {node : Node}
    (parsed : Script.parseExpression text origin = .ok node) :
    (∀ v, bounded node = .ok v → node.literal? = some v) ∧
      ∀ v, node.literal? = some v → node.value? = some v := by
  have formed := Script.isFormed_of_parseExpression parsed
  exact ⟨fun v => literal?_of_bounded node v formed, node.value?_of_literal?⟩

def recordText : String := "\x7b 'a b': [1, \"x\", true, null], c: \x7b\x7d \x7d"

theorem reductions_agree_record : ∃ node v,
    Script.parseExpression recordText .start = .ok node ∧ bounded node = .ok v ∧
      v.text = "\x7b\"a b\":[1,\"x\",true,null],\"c\":\x7b\x7d\x7d" ∧
      node.literal? = some v ∧ node.value? = some v := by
  have shown : ((Script.parseExpression recordText .start).toOption.bind fun node =>
      (bounded node).toOption.map Json.text) =
        some "\x7b\"a b\":[1,\"x\",true,null],\"c\":\x7b\x7d\x7d" := by
    decide +kernel
  obtain ⟨node, found, reduces⟩ := Option.bind_eq_some_iff.mp shown
  obtain ⟨v, read, written⟩ := Option.map_eq_some_iff.mp reduces
  have parsed := toOption_eq_some.mp found
  have reduced := toOption_eq_some.mp read
  obtain ⟨literal, value⟩ := reductions_agree parsed
  exact ⟨node, v, parsed, reduced, written, literal v reduced, value v (literal v reduced)⟩

-- A name that spells a truth value would set the three apart, but the lexer makes a literal of it.
example : bounded (.identifier .start "true") = .ok (.bool true) ∧
    (Node.identifier .start "true").literal? = none ∧
    (Node.identifier .start "true").value? = some (.str "true") :=
  ⟨rfl, rfl, rfl⟩

end Dashboard.Policy
