import Dashboard.Placeholder
import Dashboard.Proofs.Text

/-!
What the validation of a text lets pass: a text without braces, or one placeholder and nothing else.
Resolving leaves the former as it is and puts what the input shows for the latter.
-/
namespace Dashboard.Placeholder

def HasNoBrace (text : List Char) : Prop := ∀ c ∈ text, c ≠ '\x7b' ∧ c ≠ '\x7d'

/-- A text that holds no brace, or is a placeholder for the value of an input. -/
def IsIntact (text : String) : Prop :=
  HasNoBrace text.toList ∨
    ∃ name, isIdentifier name = true ∧ text.toList = opening ++ name ++ ['\x7d']

theorem opening_eq : opening = '\x7b' :: "inputs.".toList := rfl

theorem isIdentifierChar_of_isIdentifier {name : List Char} (h : isIdentifier name = true) :
    ∀ c ∈ name, isIdentifierChar c = true := by
  rw [isIdentifier, Bool.and_eq_true] at h
  exact List.all_eq_true.mp h.2

theorem isIdentifier_cons {first : Char} {more : List Char} :
    isIdentifier (first :: more) = true ↔
      startsIdentifier first = true ∧ ∀ c ∈ more, isIdentifierChar c = true := by
  have char : startsIdentifier first = true → isIdentifierChar first = true := by
    rw [startsIdentifier, isIdentifierChar, Text.isAsciiAlphanumeric]
    simp only [Bool.or_eq_true]
    exact Or.imp_left .inl
  rw [isIdentifier, Bool.and_eq_true, List.all_eq_true, List.forall_mem_cons]
  exact ⟨fun ⟨starts, _, later⟩ => ⟨starts, later⟩, fun ⟨starts, later⟩ => ⟨starts, char starts, later⟩⟩

theorem takeWhile_identifier {name : List Char} (h : isIdentifier name = true) (rest : List Char) :
    (name ++ '\x7d' :: rest).takeWhile isIdentifierChar = name := by
  have stops : isIdentifierChar '\x7d' = false := by decide
  rw [List.takeWhile_append_of_pos (isIdentifierChar_of_isIdentifier h), List.takeWhile_cons, stops]
  simp

theorem at?_eq_some {text name : List Char} :
    at? text = some name ↔
      isIdentifier name = true ∧ ∃ rest, text = opening ++ name ++ '\x7d' :: rest := by
  constructor
  · intro h
    unfold at? at h
    split_ifs at h with begins
    · obtain ⟨inside, rfl⟩ := List.isPrefixOf_iff_prefix.mp begins
      simp only [List.drop_left, Bool.and_eq_true, Option.ite_none_right_eq_some,
        Option.some.injEq] at h
      obtain ⟨⟨identifier, closed⟩, rfl⟩ := h
      refine ⟨identifier, ?_⟩
      obtain ⟨rest, shape⟩ : ∃ rest, inside.drop (inside.takeWhile isIdentifierChar).length =
          '\x7d' :: rest := by
        cases left : inside.drop (inside.takeWhile isIdentifierChar).length with
        | nil => simp [left] at closed
        | cons c rest =>
          obtain rfl : c = '\x7d' := by simpa [left] using closed
          exact ⟨rest, rfl⟩
      have whole : inside.takeWhile isIdentifierChar ++
          inside.drop (inside.takeWhile isIdentifierChar).length = inside := by
        rw [← List.prefix_iff_eq_append]
        exact List.takeWhile_prefix _
      refine ⟨rest, ?_⟩
      rw [List.append_assoc, ← shape, whole]
  · rintro ⟨identifier, rest, rfl⟩
    have begins : opening.isPrefixOf (opening ++ name ++ '\x7d' :: rest) = true := by
      rw [List.isPrefixOf_iff_prefix, List.append_assoc]
      exact List.prefix_append _ _
    rw [at?, if_pos begins, List.append_assoc, List.drop_left]
    dsimp only
    rw [takeWhile_identifier identifier, List.drop_left]
    simp [identifier]

theorem whole?_eq_some {text name : List Char} :
    whole? text = some name ↔
      isIdentifier name = true ∧ text = opening ++ name ++ ['\x7d'] := by
  constructor
  · intro h
    unfold whole? at h
    split at h
    · next found begins =>
      split_ifs at h with size
      obtain rfl := Option.some.inj h
      obtain ⟨identifier, rest, rfl⟩ := at?_eq_some.mp begins
      obtain rfl : rest = [] := by
        simp only [List.length_append, List.length_cons] at size
        exact List.length_eq_zero_iff.mp (by omega)
      exact ⟨identifier, rfl⟩
    · cases h
  · rintro ⟨identifier, rfl⟩
    rw [whole?, at?_eq_some.mpr ⟨identifier, [], rfl⟩]
    simp
    omega

/-- What validation lets pass. -/
theorem isIntact_of_violations {text : String} (h : violations text = []) : IsIntact text := by
  unfold violations at h
  dsimp only at h
  split_ifs at h with plain whole
  · left
    intro c member
    have none := List.any_eq_false.mp (Bool.not_eq_true' _ ▸ plain) c member
    simpa using none
  · right
    simp only [h, List.isEmpty_nil, Bool.true_and, Bool.not_eq_true', Bool.not_eq_false] at whole
    obtain ⟨name, found⟩ := Option.isSome_iff_exists.mp whole
    exact ⟨name, whole?_eq_some.mp found⟩

theorem violations_of_hasNoBrace {text : String} (h : HasNoBrace text.toList) : violations text = [] := by
  have plain : (text.toList.any fun c => c = '\x7b' || c = '\x7d') = false := by
    refine List.any_eq_false.mpr fun c member => ?_
    simpa using h c member
  rw [violations]
  dsimp only
  rw [plain]
  rfl

/-- A reference that validation lets pass is the name of an input behind `inputs.`. -/
theorem reference_of_violations {raw : String}
    (h : violations ("\x7b" ++ Text.trimmed raw ++ "\x7d") = []) :
    ∃ name, isIdentifier name = true ∧ (Text.trimmed raw).toList = "inputs.".toList ++ name := by
  rcases isIntact_of_violations h with plain | ⟨name, identifier, shape⟩
  · exact absurd rfl (plain '\x7b' (by simp)).1
  · refine ⟨name, identifier, ?_⟩
    rw [opening_eq, String.toList_append, String.toList_append] at shape
    have inner : (Text.trimmed raw).toList ++ ['\x7d'] = "inputs.".toList ++ name ++ ['\x7d'] :=
      List.tail_eq_of_cons_eq shape
    exact List.append_cancel_right inner

theorem reference?_inputs (name : String) :
    reference? ("inputs." ++ name) =
      if isIdentifier name.toList then some name else none := by
  have begins : "inputs.".toList.isPrefixOf ("inputs." ++ name).toList = true := by
    rw [String.toList_append, List.isPrefixOf_iff_prefix]
    exact List.prefix_append _ _
  have behind : ("inputs." ++ name).toList.drop 7 = name.toList := by
    rw [String.toList_append]
    rfl
  rw [reference?, if_pos begins, behind]
  dsimp only
  rw [String.ofList_toList]

/-! Resolving. -/

/-- What a piece of a text becomes. -/
def resolvePiece (state : InputState) : Piece → List Char
  | .gap text => text
  | .reference name => (state.shown (String.ofList name)).toList

theorem toList_resolve (text : String) (state : InputState) :
    (resolve text state).toList = (pieces text.toList).flatMap (resolvePiece state) := by
  rw [resolve, String.toList_ofList]
  rfl

theorem flatMap_consChar {f : Piece → List Char} (keeps : ∀ text, f (.gap text) = text) (c : Char)
    (all : List Piece) : (consChar c all).flatMap f = c :: all.flatMap f := by
  unfold consChar
  split
  · rw [List.flatMap_cons, List.flatMap_cons, keeps, keeps, List.cons_append]
  · rw [List.flatMap_cons, keeps, List.cons_append, List.nil_append]

/-- A text without braces stays as it is. -/
theorem flatMap_pieces_of_hasNoBrace (state : InputState) {text : List Char} (h : HasNoBrace text) :
    (pieces text).flatMap (resolvePiece state) = text := by
  induction text with
  | nil =>
    rw [pieces]
    rfl
  | cons c more ih =>
    obtain ⟨⟨opens, -⟩, later⟩ := List.forall_mem_cons.mp h
    have none : at? (c :: more) = none := by
      have apart : ('\x7b' == c) = false := beq_eq_false_iff_ne.mpr (Ne.symm opens)
      rw [at?, if_neg]
      rw [opening_eq, List.isPrefixOf, apart]
      simp
    rw [pieces, none, flatMap_consChar fun _ => rfl, ih later]

theorem resolve_of_hasNoBrace (state : InputState) {text : String} (h : HasNoBrace text.toList) :
    resolve text state = text := by
  rw [← String.toList_inj, toList_resolve, flatMap_pieces_of_hasNoBrace state h]

/-- What is left of a text behind a placeholder that it begins with. -/
theorem drop_placeholder {c : Char} {more name rest : List Char}
    (shape : c :: more = opening ++ name ++ '\x7d' :: rest) :
    more.drop (name.length + opening.length) = rest := by
  have size : (opening ++ name ++ ['\x7d']).length = name.length + opening.length + 1 := by
    rw [List.length_append, List.length_append, Nat.add_comm opening.length]
    rfl
  have whole : c :: more = opening ++ name ++ ['\x7d'] ++ rest := by
    rw [shape, List.append_assoc _ ['\x7d']]
    rfl
  have taken : (c :: more).drop (name.length + opening.length + 1) = rest := by
    rw [whole, ← size, List.drop_left]
  exact taken

theorem pieces_placeholder {name : List Char} (h : isIdentifier name = true) (rest : List Char) :
    pieces (opening ++ name ++ '\x7d' :: rest) = .reference name :: pieces rest := by
  have found : at? (opening ++ name ++ '\x7d' :: rest) = some name := at?_eq_some.mpr ⟨h, rest, rfl⟩
  obtain ⟨c, more, shape⟩ : ∃ c more, opening ++ name ++ '\x7d' :: rest = c :: more := ⟨_, _, rfl⟩
  have taken := drop_placeholder shape.symm
  rw [shape] at found ⊢
  rw [pieces, found]
  dsimp only
  rw [taken]

/-- A placeholder becomes what its input shows. -/
theorem resolve_whole (state : InputState) {text : String} {name : List Char}
    (h : isIdentifier name = true) (shape : text.toList = opening ++ name ++ ['\x7d']) :
    resolve text state = state.shown (String.ofList name) := by
  rw [← String.toList_inj, toList_resolve, shape, pieces_placeholder h, pieces]
  simp [resolvePiece]

/-- No brace comes in by resolving an intact text, as long as the inputs show none. -/
theorem IsIntact.resolve {text : String} (h : IsIntact text) {state : InputState}
    (shown : ∀ name, HasNoBrace (state.shown name).toList) :
    HasNoBrace (Placeholder.resolve text state).toList := by
  rcases h with plain | ⟨name, identifier, shape⟩
  · rw [resolve_of_hasNoBrace state plain]
    exact plain
  · rw [resolve_whole state identifier shape]
    exact shown _

end Dashboard.Placeholder
