import Dashboard.Proofs.Generate.Bindings
import Dashboard.Proofs.Meaning

/-!
Attributes in a generated module. Props are made exactly when the attributes have different names,
none of them is a directive, and every name that stands for a value is declared; they are then what
the attributes mean.
-/
namespace Dashboard.Generate

open Dashboard.Json (IsStandard EntriesStandard entriesStandard_iff)

variable {b : Bindings} {tag : String}

/-- A name that stands for the value is declared. -/
def IsDefined (b : Bindings) (a : Markup.Attribute) : Prop :=
  ∀ tag name, a.value = .mustache tag → tag.expression.bareName? = some name →
    Dictionary.contains b.constants name = true

theorem literal?_of_bareName? {node : Script.Node} {name : String}
    (h : node.bareName? = some name) : node.literal? = none ∧ node.inputName? = none := by
  obtain ⟨position, rfl⟩ := Script.Node.bareName?_eq_some.mp h
  exact ⟨rfl, rfl⟩

theorem attributeValue_eq_ok {a : Markup.Attribute} {v : Json} :
    attributeValue b a = .ok v ↔ IsDefined b a ∧ v = Meaning.value b.constants a := by
  have direct {w : Json} (defined : IsDefined b a) :
      (.ok w : Except CompileError Json) = .ok v ↔ IsDefined b a ∧ v = w := by
    rw [Except.ok.injEq, eq_comm]
    exact ⟨fun same => ⟨defined, same⟩, And.right⟩
  unfold attributeValue Meaning.value
  cases written : a.value with
  | bare | text => exact direct fun _ _ other => by rw [written] at other; cases other
  | mustache t =>
    have defined : IsDefined b a ↔ ∀ name, t.expression.bareName? = some name →
        Dictionary.contains b.constants name = true := by
      constructor
      · intro h name
        exact h t name written
      · intro h other name same
        obtain rfl := Markup.AttributeValue.mustache.inj (written.symm.trans same)
        exact h name
    dsimp only
    unfold Meaning.expressionValue
    cases bare : t.expression.bareName? with
    | some name =>
      obtain ⟨noLiteral, noInput⟩ := literal?_of_bareName? bare
      obtain ⟨position, shape⟩ := Script.Node.bareName?_eq_some.mp bare
      rw [defined, bare]
      simp only [noLiteral, noInput]
      simp only [shape, Dictionary.contains, Option.some.injEq, forall_eq']
      cases Dictionary.find? b.constants name with
      | none => simp
      | some value =>
        simp only [Option.isSome_some, true_and, Option.getD_some]
        exact ⟨fun same => (Except.ok.inj same).symm, fun same => same ▸ rfl⟩
    | none =>
      have always : IsDefined b a := defined.mpr fun name same => by rw [bare] at same; cases same
      cases t.expression.literal? with
      | some value => exact direct always
      | none =>
        cases t.expression.inputName? with
        | some name => exact direct always
        | none =>
          cases shape : t.expression with
          | identifier position name =>
            rw [shape] at bare
            cases bare
          | _ => exact direct always

/-- Attributes that can be made into props. -/
structure AreUsable (b : Bindings) (attributes : List Markup.Attribute) : Prop where
  plain : ∀ a ∈ attributes, Component.isDirective a.name = false
  defined : ∀ a ∈ attributes, IsDefined b a
  distinct : (attributes.map Markup.Attribute.name).Nodup

theorem addProp_eq_ok {found next : Dictionary Json} {a : Markup.Attribute} :
    addProp b tag found a = .ok next ↔ Component.isDirective a.name = false ∧ IsDefined b a ∧
      Dictionary.contains found a.name = false ∧
      next = Dictionary.insert a.name (Meaning.value b.constants a) found := by
  unfold addProp
  cases Component.isDirective a.name with
  | true => simp [bind, Except.bind, throw, throwThe, MonadExceptOf.throw]
  | false =>
    simp only [Bool.false_eq_true, if_false, true_and]
    show (attributeValue b a >>= _) = _ ↔ _
    rw [bind_eq_ok]
    simp only [attributeValue_eq_ok]
    constructor
    · rintro ⟨v, ⟨defined, rfl⟩, rest⟩
      split_ifs at rest with present
      · cases rest
      · cases rest
        exact ⟨defined, by simpa using present, rfl⟩
    · rintro ⟨defined, fresh, rfl⟩
      refine ⟨_, ⟨defined, rfl⟩, ?_⟩
      rw [if_neg (by simp [fresh])]
      rfl

theorem foldlM_addProp_eq_ok {attributes : List Markup.Attribute} {start found : Dictionary Json} :
    attributes.foldlM (addProp b tag) start = .ok found ↔ AreUsable b attributes ∧
      (∀ a ∈ attributes, Dictionary.contains start a.name = false) ∧
      found = (attributes.map fun a => (a.name, Meaning.value b.constants a)).foldl
        (fun d e => Dictionary.insert e.1 e.2 d) start := by
  induction attributes generalizing start with
  | nil =>
    constructor
    · intro h
      cases h
      exact ⟨⟨by simp, by simp, by simp⟩, by simp, rfl⟩
    · rintro ⟨-, -, rfl⟩
      rfl
  | cons first more ih =>
    rw [List.foldlM_cons, bind_eq_ok]
    simp only [addProp_eq_ok, ih]
    constructor
    · rintro ⟨_, ⟨plain, defined, fresh, rfl⟩, usable, others, rfl⟩
      have apart : ∀ a ∈ more, first.name ≠ a.name ∧ Dictionary.contains start a.name = false := by
        intro a member
        have here := others a member
        rw [Dictionary.contains_insert, Bool.or_eq_false_iff] at here
        exact ⟨Ne.symm (by simpa using here.1), here.2⟩
      refine ⟨⟨?_, ?_, ?_⟩, ?_, rfl⟩
      · exact List.forall_mem_cons.mpr ⟨plain, usable.plain⟩
      · exact List.forall_mem_cons.mpr ⟨defined, usable.defined⟩
      · refine List.nodup_cons.mpr ⟨fun member => ?_, usable.distinct⟩
        obtain ⟨a, inside, same⟩ := List.mem_map.mp member
        exact (apart a inside).1 same.symm
      · exact List.forall_mem_cons.mpr ⟨fresh, fun a member => (apart a member).2⟩
    · rintro ⟨⟨plain, defined, distinct⟩, fresh, rfl⟩
      obtain ⟨new, distinct⟩ := List.nodup_cons.mp distinct
      refine ⟨_, ⟨plain first (by simp), defined first (by simp), fresh first (by simp), rfl⟩,
        ⟨fun a member => plain a (List.mem_cons_of_mem _ member),
          fun a member => defined a (List.mem_cons_of_mem _ member), distinct⟩, fun a member => ?_, rfl⟩
      have other : first.name ≠ a.name := fun same => new (same ▸ List.mem_map_of_mem member)
      rw [Dictionary.contains_insert, fresh a (List.mem_cons_of_mem _ member)]
      simp [Ne.symm other]

/-- Props are made of usable attributes, and are what these mean. -/
theorem props_eq_ok {attributes : List Markup.Attribute} {found : Dictionary Json} :
    props b tag attributes = .ok found ↔
      AreUsable b attributes ∧ found = Meaning.props b.constants attributes := by
  rw [props, foldlM_addProp_eq_ok]
  constructor
  · rintro ⟨usable, -, rfl⟩
    exact ⟨usable, rfl⟩
  · rintro ⟨usable, rfl⟩
    exact ⟨usable, fun _ _ => rfl, rfl⟩

/-! What the values come to when the tree is sound. -/

theorem isStandard_value (sound : b.IsSound) {a : Markup.Attribute} (read : a.IsSound) :
    IsStandard maxNesting (Meaning.value b.constants a) := by
  unfold Meaning.value
  cases written : a.value with
  | bare | text => simp [IsStandard]
  | mustache t =>
    have plain := (read t written).plain
    show IsStandard maxNesting (Meaning.expressionValue b.constants t.expression)
    unfold Meaning.expressionValue
    split
    · next v found => exact plain.literal v found
    · simp [IsStandard]
    · next name _ _ _ =>
      cases declared : Dictionary.find? b.constants name with
      | none => simp [IsStandard]
      | some v => exact (sound _ (Dictionary.mem_of_find?_eq_some declared)).2
    · simp [IsStandard]

/-- The props of a sound element, with the type that its tag may imply, can be printed. -/
theorem isStandard_props (sound : b.IsSound) {attributes : List Markup.Attribute}
    (read : ∀ a ∈ attributes, a.IsSound) (implied : Option String) :
    IsStandard Json.maxNesting
      (.obj (Component.withImpliedType implied (Meaning.props b.constants attributes))) := by
  have ordered : Dictionary.IsOrdered (Meaning.props b.constants attributes) :=
    Dictionary.isOrdered_ofList _
  have standard : EntriesStandard maxNesting (Meaning.props b.constants attributes) := by
    rw [entriesStandard_iff]
    intro entry member
    obtain ⟨a, inside, rfl⟩ := List.mem_map.mp (Dictionary.mem_ofList member)
    exact isStandard_value sound (read a inside)
  have typed : Dictionary.IsOrdered
        (Component.withImpliedType implied (Meaning.props b.constants attributes)) ∧
      EntriesStandard maxNesting
        (Component.withImpliedType implied (Meaning.props b.constants attributes)) := by
    unfold Component.withImpliedType
    split
    · exact ⟨ordered, standard⟩
    · split_ifs
      · exact ⟨ordered, standard⟩
      · refine ⟨ordered.insert _ _, entriesStandard_iff.mpr fun entry member => ?_⟩
        rcases Dictionary.mem_insert member with rfl | member
        · simp [IsStandard]
        · exact entriesStandard_iff.mp standard entry member
  exact ⟨typed.1, typed.2.mono (by decide)⟩

end Dashboard.Generate
