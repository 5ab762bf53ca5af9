import Dashboard.Json.Reader
import Dashboard.Proofs.Dictionary
import Dashboard.Proofs.Json.Doubles
import Dashboard.Proofs.Json.Quoting

/-!
Reading back JSON text. The text of a standard value is read as that value, except that every
double in it is replaced by the one that its own text is read as.
-/
namespace Dashboard.Json

open Binary64 (InRange)

/-- The double that the text of a double is read as; nearly always the same one. -/
def reread (x : Binary64) : Binary64 :=
  match ofChars? (floatChars x) with
  | some (.float y) => y
  | _ => x

mutual

/-- A value as it comes out of its own text. -/
def relayed : Json → Json
  | .float x => .float (reread x)
  | .arr items => .arr (relayedItems items)
  | .obj entries => .obj (relayedEntries entries)
  | value => value

def relayedItems : List Json → List Json
  | [] => []
  | first :: more => relayed first :: relayedItems more

def relayedEntries : List (String × Json) → List (String × Json)
  | [] => []
  | (key, value) :: more => (key, relayed value) :: relayedEntries more

end

mutual

/-- Integers of 64 bits, finite doubles, objects with their keys in order, and no more than so many
levels of arrays and objects. -/
def IsStandard : (levels : Nat) → Json → Prop
  | _, .int n => isInteger n = true
  | _, .float x => InRange x
  | 0, .arr _ | 0, .obj _ => False
  | levels + 1, .arr items => AreStandard levels items
  | levels + 1, .obj entries => Dictionary.IsOrdered entries ∧ EntriesStandard levels entries
  | _, .null | _, .bool _ | _, .str _ => True

def AreStandard (levels : Nat) : List Json → Prop
  | [] => True
  | first :: more => IsStandard levels first ∧ AreStandard levels more

def EntriesStandard (levels : Nat) : List (String × Json) → Prop
  | [] => True
  | (_, value) :: more => IsStandard levels value ∧ EntriesStandard levels more

end

theorem areStandard_iff {levels : Nat} {items : List Json} :
    AreStandard levels items ↔ ∀ v ∈ items, IsStandard levels v := by
  induction items with
  | nil => simp [AreStandard]
  | cons first more ih => simp [AreStandard, ih]

theorem entriesStandard_iff {levels : Nat} {entries : List (String × Json)} :
    EntriesStandard levels entries ↔ ∀ entry ∈ entries, IsStandard levels entry.2 := by
  induction entries with
  | nil => simp [EntriesStandard]
  | cons entry more ih => simp [EntriesStandard, ih]

mutual

/-- The form of the text of a value. -/
def form : Json → Form
  | .null => .null
  | .bool value => .bool value
  | .int n => .number (integerNumeral n)
  | .float x => .number (doubleNumeral x)
  | .str text => .string (some text)
  | .arr items => .array (itemForms items)
  | .obj entries => .object (entryForms entries)

def itemForms : List Json → List Form
  | [] => []
  | first :: more => form first :: itemForms more

def entryForms : List (String × Json) → List (Option String × Form)
  | [] => []
  | (key, value) :: more => (some key, form value) :: entryForms more

end

mutual

/-- The lexemes of the text of a value. -/
def tokens : Json → List Lexeme
  | .arr items => .openArray :: itemTokens items ++ [.closeArray]
  | .obj entries => .openObject :: entryTokens entries ++ [.closeObject]
  | value => [.literal (form value)]

def itemTokens : List Json → List Lexeme
  | [] => []
  | [item] => tokens item
  | item :: more => tokens item ++ .comma :: itemTokens more

def entryTokens : List (String × Json) → List Lexeme
  | [] => []
  | [(key, value)] => .literal (.string (some key)) :: .colon :: tokens value
  | (key, value) :: more =>
    .literal (.string (some key)) :: .colon :: tokens value ++ .comma :: entryTokens more

end

theorem tokens_arr_append (items : List Json) (more : List Lexeme) :
    tokens (.arr items) ++ more = .openArray :: (itemTokens items ++ .closeArray :: more) := by
  simp [tokens]

theorem tokens_obj_append (entries : List (String × Json)) (more : List Lexeme) :
    tokens (.obj entries) ++ more = .openObject :: (entryTokens entries ++ .closeObject :: more) := by
  simp [tokens]

theorem itemTokens_append (item next : Json) (others : List Json) (more : List Lexeme) :
    itemTokens (item :: next :: others) ++ more =
      tokens item ++ .comma :: (itemTokens (next :: others) ++ more) := by
  simp [itemTokens]

theorem entryTokens_append (key : String) (value : Json) (next : String × Json)
    (others : List (String × Json)) (more : List Lexeme) :
    entryTokens ((key, value) :: next :: others) ++ more =
      .literal (.string (some key)) :: .colon ::
        (tokens value ++ .comma :: (entryTokens (next :: others) ++ more)) := by
  simp [entryTokens]

/-! Cutting the text into lexemes. -/

theorem lexemes_of_lexeme? {c : Char} {rest : List Char} {found : Lexeme} {n : Nat}
    (notSpace : isSpace c = false) (h : lexeme? c rest = some (found, n)) :
    lexemes (c :: rest) = (lexemes (rest.drop n)).map (found :: ·) := by
  rw [lexemes, notSpace, h]
  rfl

theorem lexemes_mark {c : Char} {found : Lexeme} (notSpace : isSpace c = false)
    (h : ∀ rest, lexeme? c rest = some (found, 0)) (rest : List Char) :
    lexemes (c :: rest) = (lexemes rest).map (found :: ·) :=
  lexemes_of_lexeme? notSpace (h rest)

theorem lexemes_quote (text : String) (rest : List Char) :
    lexemes (quote text ++ rest) = (lexemes rest).map (.literal (.string (some text)) :: ·) := by
  have shape : quote text ++ rest =
      '\x22' :: (text.toList.flatMap escaped ++ '\x22' :: rest) := by
    simp [quote]
  have read : lexeme? '\x22' (text.toList.flatMap escaped ++ '\x22' :: rest) =
      some (.literal (.string (some text)), (text.toList.flatMap escaped).length + 1) := by
    rw [lexeme?, unquote_flatMap_escaped]
    simp
  rw [shape, lexemes_of_lexeme? (by decide) read]
  congr 2
  rw [← List.singleton_append, ← List.append_assoc]
  exact List.drop_left' (by simp)

theorem lexeme?_numeral {c : Char} (h : c = '-' ∨ Text.isAsciiDigit c = true) (rest : List Char) :
    lexeme? c rest = (numeral? (c :: rest)).map fun r => (.literal (.number r.1), r.2 - 1) := by
  rw [lexeme?.eq_def]
  split <;> first | rfl | exact absurd h (by decide)

theorem isSpace_numeral {c : Char} (h : c = '-' ∨ Text.isAsciiDigit c = true) :
    isSpace c = false := by
  by_contra space
  simp only [isSpace, Bool.or_eq_true, decide_eq_true_eq, Bool.not_eq_false] at space
  rcases space with ((rfl | rfl) | rfl) | rfl <;> exact absurd h (by decide)

theorem lexemes_numeral {n : Numeral} (wellFormed : n.IsWellFormed) {rest : List Char}
    (delimited : IsDelimited rest) :
    lexemes (n.chars ++ rest) = (lexemes rest).map (.literal (.number n) :: ·) := by
  obtain ⟨c, more, shape, first⟩ := wellFormed.head
  have read := lexeme?_numeral first (more ++ rest)
  have cut := numeral?_chars wellFormed delimited
  rw [shape, List.cons_append] at cut ⊢
  rw [cut] at read
  rw [lexemes_of_lexeme? (isSpace_numeral first) read]
  congr 2
  exact List.drop_left' (by simp)

theorem lexemes_null (rest : List Char) :
    lexemes ('n' :: 'u' :: 'l' :: 'l' :: rest) = (lexemes rest).map (.literal .null :: ·) :=
  lexemes_of_lexeme? (c := 'n') (n := 3) (by decide) rfl

theorem lexemes_true (rest : List Char) :
    lexemes ('t' :: 'r' :: 'u' :: 'e' :: rest) = (lexemes rest).map (.literal (.bool true) :: ·) :=
  lexemes_of_lexeme? (c := 't') (n := 3) (by decide) rfl

theorem lexemes_false (rest : List Char) :
    lexemes ('f' :: 'a' :: 'l' :: 's' :: 'e' :: rest) =
      (lexemes rest).map (.literal (.bool false) :: ·) :=
  lexemes_of_lexeme? (c := 'f') (n := 4) (by decide) rfl

theorem lexemes_intChars (n : Int) {rest : List Char} (delimited : IsDelimited rest) :
    lexemes (intChars n ++ rest) =
      (lexemes rest).map (.literal (.number (integerNumeral n)) :: ·) := by
  have read := lexemes_numeral (isWellFormed_integerNumeral n) delimited
  rwa [chars_integerNumeral] at read

theorem lexemes_floatChars {x : Binary64} (range : InRange x) {rest : List Char}
    (delimited : IsDelimited rest) : lexemes (floatChars x ++ rest) =
      (lexemes rest).map (.literal (.number (doubleNumeral x)) :: ·) := by
  have read := lexemes_numeral (isWellFormed_doubleNumeral range) delimited
  rwa [chars_doubleNumeral range.isFinite] at read

theorem isDelimited_comma (rest : List Char) : IsDelimited (',' :: rest) :=
  isDelimited_cons (Or.inl rfl) rest

theorem isDelimited_closeArray (rest : List Char) : IsDelimited (']' :: rest) :=
  isDelimited_cons (Or.inr (Or.inl rfl)) rest

theorem isDelimited_closeObject (rest : List Char) : IsDelimited ('\x7d' :: rest) :=
  isDelimited_cons (Or.inr (Or.inr (Or.inl rfl))) rest

mutual

theorem lexemes_chars {levels : Nat} {v : Json} (standard : IsStandard levels v) {rest : List Char}
    (delimited : IsDelimited rest) :
    lexemes (chars v ++ rest) = (lexemes rest).map (tokens v ++ ·) := by
  cases v with
  | null => exact lexemes_null rest
  | bool value =>
    cases value with
    | true => exact lexemes_true rest
    | false => exact lexemes_false rest
  | int n => exact lexemes_intChars n delimited
  | float x => exact lexemes_floatChars (by simpa [IsStandard] using standard) delimited
  | str text => exact lexemes_quote text rest
  | arr items =>
    cases levels with
    | zero => exact standard.elim
    | succ levels =>
      have inner := lexemes_itemChars standard (isDelimited_closeArray rest)
      have shape : chars (.arr items) ++ rest = '[' :: (itemChars items ++ ']' :: rest) := by
        simp [chars]
      rw [shape, lexemes_mark (by decide) (fun _ => rfl), inner,
        lexemes_mark (by decide) (fun _ => rfl)]
      simp [tokens, Function.comp_def]
  | obj entries =>
    cases levels with
    | zero => exact standard.elim
    | succ levels =>
      have inner := lexemes_entryChars standard.2 (isDelimited_closeObject rest)
      have shape : chars (.obj entries) ++ rest =
          '\x7b' :: (entryChars entries ++ '\x7d' :: rest) := by
        simp [chars]
      rw [shape, lexemes_mark (by decide) (fun _ => rfl), inner,
        lexemes_mark (by decide) (fun _ => rfl)]
      simp [tokens, Function.comp_def]

theorem lexemes_itemChars {levels : Nat} {items : List Json} (standard : AreStandard levels items)
    {rest : List Char} (delimited : IsDelimited rest) :
    lexemes (itemChars items ++ rest) = (lexemes rest).map (itemTokens items ++ ·) := by
  match items with
  | [] => simp [itemChars, itemTokens]
  | [item] => exact lexemes_chars standard.1 delimited
  | item :: next :: more =>
    have later := lexemes_itemChars standard.2 delimited
    have first := lexemes_chars standard.1 (isDelimited_comma (itemChars (next :: more) ++ rest))
    have shape : itemChars (item :: next :: more) ++ rest =
        chars item ++ ',' :: (itemChars (next :: more) ++ rest) := by
      simp [itemChars]
    rw [shape, first, lexemes_mark (by decide) (fun _ => rfl), later]
    simp [itemTokens, Function.comp_def]

theorem lexemes_entryChars {levels : Nat} {entries : List (String × Json)}
    (standard : EntriesStandard levels entries) {rest : List Char} (delimited : IsDelimited rest) :
    lexemes (entryChars entries ++ rest) = (lexemes rest).map (entryTokens entries ++ ·) := by
  match entries with
  | [] => simp [entryChars, entryTokens]
  | [(key, value)] =>
    have inner := lexemes_chars standard.1 delimited
    have shape : entryChars [(key, value)] ++ rest = quote key ++ ':' :: (chars value ++ rest) := by
      simp [entryChars]
    rw [shape, lexemes_quote, lexemes_mark (by decide) (fun _ => rfl), inner]
    simp [entryTokens, Function.comp_def]
  | (key, value) :: next :: more =>
    have later := lexemes_entryChars standard.2 delimited
    have first := lexemes_chars standard.1 (isDelimited_comma (entryChars (next :: more) ++ rest))
    have shape : entryChars ((key, value) :: next :: more) ++ rest =
        quote key ++ ':' :: (chars value ++ ',' :: (entryChars (next :: more) ++ rest)) := by
      simp [entryChars]
    rw [shape, lexemes_quote, lexemes_mark (by decide) (fun _ => rfl), first,
      lexemes_mark (by decide) (fun _ => rfl), later]
    simp [entryTokens, Function.comp_def]

end

/-! Building the form. -/

namespace Machine

mutual

/-- A value may begin where one is expected, and at the start of an array. -/
theorem run_tokens (v : Json) {expects : Expectation}
    (ready : expects = .value ∨ expects = .valueOrEnd) (stack : List Frame) (more : List Lexeme) :
    run ⟨expects, stack⟩ (tokens v ++ more) = run (finish (form v) stack) more := by
  match v with
  | .arr items =>
    have first : run ⟨expects, stack⟩ (tokens (.arr items) ++ more) =
        run ⟨.valueOrEnd, .items [] :: stack⟩ (itemTokens items ++ .closeArray :: more) := by
      rw [tokens_arr_append]
      rcases ready with rfl | rfl <;> rfl
    rw [first]
    by_cases none : items = []
    · subst none
      rfl
    · exact run_itemTokens items none (Or.inr rfl) [] stack more
  | .obj entries =>
    have first : run ⟨expects, stack⟩ (tokens (.obj entries) ++ more) =
        run ⟨.keyOrEnd, stack⟩ (entryTokens entries ++ .closeObject :: more) := by
      rw [tokens_obj_append]
      rcases ready with rfl | rfl <;> rfl
    rw [first]
    by_cases none : entries = []
    · subst none
      rfl
    · exact run_entryTokens entries none (Or.inl ⟨rfl, rfl⟩) stack more
  | .null | .bool _ | .int _ | .float _ | .str _ =>
    rcases ready with rfl | rfl <;> rfl

theorem run_itemTokens (items : List Json) (notEmpty : items ≠ []) {expects : Expectation}
    (ready : expects = .value ∨ expects = .valueOrEnd) (done : List Form) (stack : List Frame)
    (more : List Lexeme) :
    run ⟨expects, .items done :: stack⟩ (itemTokens items ++ .closeArray :: more) =
      run (finish (.array (done ++ itemForms items)) stack) more := by
  match items with
  | [] => exact absurd rfl notEmpty
  | [item] =>
    rw [itemTokens, run_tokens item ready]
    rfl
  | item :: next :: others =>
    have later := run_itemTokens (next :: others) (by simp) (Or.inl rfl) (done ++ [form item]) stack
      more
    rw [List.append_assoc] at later
    rw [itemTokens_append, run_tokens item ready]
    exact later

theorem run_entryTokens (entries : List (String × Json)) (notEmpty : entries ≠ [])
    {expects : Expectation} {done : List (Option String × Form)}
    (ready : (expects = .keyOrEnd ∧ done = []) ∨ expects = .key done) (stack : List Frame)
    (more : List Lexeme) :
    run ⟨expects, stack⟩ (entryTokens entries ++ .closeObject :: more) =
      run (finish (.object (done ++ entryForms entries)) stack) more := by
  -- A key and its colon lead to the state in which the value is expected.
  have begun : ∀ (key : String) rest,
      run ⟨expects, stack⟩ (.literal (.string (some key)) :: .colon :: rest) =
        run ⟨.value, .members done (some key) :: stack⟩ rest := by
    intro key rest
    rcases ready with ⟨rfl, rfl⟩ | rfl <;> rfl
  match entries with
  | [] => exact absurd rfl notEmpty
  | [(key, value)] =>
    rw [entryTokens, List.cons_append, List.cons_append, begun, run_tokens value (Or.inl rfl)]
    rfl
  | (key, value) :: next :: others =>
    have later := run_entryTokens (next :: others) (by simp)
      (Or.inr (rfl : Expectation.key (done ++ [(some key, form value)]) = _)) stack more
    rw [List.append_assoc] at later
    rw [entryTokens_append, begun, run_tokens value (Or.inl rfl)]
    exact later

end

end Machine

/-- A text is read by its lexemes alone. -/
theorem ofChars?_of_lexemes {text : List Char} {v : Json} (cut : lexemes text = some (tokens v)) :
    Form.ofChars? text = some (form v) := by
  have built := Machine.run_tokens v (Or.inl rfl) [] []
  rw [List.append_nil] at built
  rw [Form.ofChars?, cut]
  simp only [Option.bind_eq_bind, Option.bind_some, Machine.start, built]
  rfl

theorem ofChars?_form {levels : Nat} {v : Json} (standard : IsStandard levels v) :
    Form.ofChars? (chars v) = some (form v) := by
  have cut := lexemes_chars standard isDelimited_nil
  rw [List.append_nil, lexemes, Option.map_some, List.append_nil] at cut
  exact ofChars?_of_lexemes cut

/-! The value of the form. -/

theorem value?_doubleNumeral {x : Binary64} (range : InRange x) :
    (doubleNumeral x).value = some (.float (reread x)) := by
  obtain ⟨y, read⟩ := value_doubleNumeral range
  have standard : IsStandard 0 (.float x) := range
  have whole : ofChars? (floatChars x) = some (.float y) := by
    have built : Form.ofChars? (floatChars x) = some (form (.float x)) := ofChars?_form standard
    rw [ofChars?, built]
    exact read
  rw [reread, whole, read]

theorem relayedItems_eq_map (items : List Json) : relayedItems items = items.map relayed := by
  induction items with
  | nil => rfl
  | cons first more ih => rw [relayedItems, ih, List.map_cons]

theorem relayedEntries_eq_map (entries : List (String × Json)) :
    relayedEntries entries = entries.map fun entry => (entry.1, relayed entry.2) := by
  induction entries with
  | nil => rfl
  | cons entry more ih =>
    rw [List.map_cons, ← ih]
    rfl

mutual

theorem value?_form {levels : Nat} {v : Json} (standard : IsStandard levels v) :
    (form v).value? levels = some (relayed v) := by
  match v with
  | .null | .bool _ | .str _ => simp [form, Form.value?, relayed]
  | .int n =>
    rw [form, Form.value?]
    exact value_integerNumeral (by simpa [IsStandard] using standard)
  | .float x =>
    rw [form, Form.value?]
    exact value?_doubleNumeral (by simpa [IsStandard] using standard)
  | .arr items =>
    cases levels with
    | zero => exact standard.elim
    | succ levels =>
      rw [form, Form.value?, itemValues?_itemForms standard]
      rfl
  | .obj entries =>
    cases levels with
    | zero => exact standard.elim
    | succ levels =>
      have ordered : Dictionary.IsOrdered (relayedEntries entries) := by
        rw [relayedEntries_eq_map]
        exact standard.1.map _
      rw [form, Form.value?, memberValues?_entryForms standard.2, Option.map_some, object,
        Dictionary.ofList_of_isOrdered ordered]
      rfl

theorem itemValues?_itemForms {levels : Nat} {items : List Json}
    (standard : AreStandard levels items) :
    Form.itemValues? levels (itemForms items) = some (relayedItems items) := by
  match items with
  | [] => rfl
  | item :: more =>
    rw [itemForms, Form.itemValues?, value?_form standard.1, itemValues?_itemForms standard.2]
    rfl

theorem memberValues?_entryForms {levels : Nat} {entries : List (String × Json)}
    (standard : EntriesStandard levels entries) :
    Form.memberValues? levels (entryForms entries) = some (relayedEntries entries) := by
  match entries with
  | [] => rfl
  | (key, value) :: more =>
    simp only [entryForms, Form.memberValues?, value?_form standard.1,
      memberValues?_entryForms standard.2, relayedEntries]

end

mutual

theorem IsStandard.mono {m n : Nat} (h : m ≤ n) {v : Json} (standard : IsStandard m v) :
    IsStandard n v := by
  match v with
  | .null | .bool _ | .str _ => simp [IsStandard]
  | .int _ | .float _ => simpa [IsStandard] using standard
  | .arr items =>
    match m, n with
    | 0, _ => exact standard.elim
    | m + 1, n + 1 => exact AreStandard.mono (Nat.le_of_succ_le_succ h) standard
  | .obj entries =>
    match m, n with
    | 0, _ => exact standard.elim
    | m + 1, n + 1 =>
      exact ⟨standard.1, EntriesStandard.mono (Nat.le_of_succ_le_succ h) standard.2⟩

theorem AreStandard.mono {m n : Nat} (h : m ≤ n) {items : List Json}
    (standard : AreStandard m items) : AreStandard n items := by
  match items with
  | [] => trivial
  | item :: more => exact ⟨standard.1.mono h, AreStandard.mono h standard.2⟩

theorem EntriesStandard.mono {m n : Nat} (h : m ≤ n) {entries : List (String × Json)}
    (standard : EntriesStandard m entries) : EntriesStandard n entries := by
  match entries with
  | [] => trivial
  | (key, value) :: more => exact ⟨standard.1.mono h, EntriesStandard.mono h standard.2⟩

end

/-- The text of a standard value is read as the value, its doubles as they are read. -/
theorem ofChars?_chars {levels : Nat} (few : levels ≤ maxNesting) {v : Json}
    (standard : IsStandard levels v) : ofChars? (chars v) = some (relayed v) := by
  rw [ofChars?, ofChars?_form standard]
  exact value?_form (standard.mono few)

/-! The text on a line. -/

theorem isTight_chars {levels : Nat} {v : Json} (standard : IsStandard levels v) :
    Text.IsTight (chars v) := by
  match v with
  | .null | .bool true | .bool false => exact Text.isTight_of_visible (by decide) (by decide)
  | .int n =>
    rw [chars, ← chars_integerNumeral]
    exact (isWellFormed_integerNumeral n).isTight
  | .float x =>
    have range : InRange x := by simpa [IsStandard] using standard
    rw [chars, ← chars_doubleNumeral range.isFinite]
    exact (isWellFormed_doubleNumeral range).isTight
  | .str text => exact isTight_quote text
  | .arr items =>
    exact ⟨⟨'[', rfl, by decide⟩, ']', List.getLast?_concat, by decide⟩
  | .obj entries =>
    exact ⟨⟨'\x7b', rfl, by decide⟩, '\x7d', List.getLast?_concat, by decide⟩

theorem lineFeed_not_mem_of_visible {text : List Char}
    (visible : ∀ c ∈ text, Text.isBlank c = false) : '\n' ∉ text := fun member =>
  absurd (visible _ member) (by decide)

mutual

theorem lineFeed_not_mem_chars {levels : Nat} {v : Json} (standard : IsStandard levels v) :
    '\n' ∉ chars v := by
  match v with
  | .null | .bool true | .bool false => exact lineFeed_not_mem_of_visible (by decide)
  | .int n =>
    rw [chars, ← chars_integerNumeral]
    exact lineFeed_not_mem_of_visible (isWellFormed_integerNumeral n).visible
  | .float x =>
    have range : InRange x := by simpa [IsStandard] using standard
    rw [chars, ← chars_doubleNumeral range.isFinite]
    exact lineFeed_not_mem_of_visible (isWellFormed_doubleNumeral range).visible
  | .str text => exact lineFeed_not_mem_quote text
  | .arr items =>
    cases levels with
    | zero => exact standard.elim
    | succ levels => simpa [chars] using lineFeed_not_mem_itemChars standard
  | .obj entries =>
    cases levels with
    | zero => exact standard.elim
    | succ levels => simpa [chars] using lineFeed_not_mem_entryChars standard.2

theorem lineFeed_not_mem_itemChars {levels : Nat} {items : List Json}
    (standard : AreStandard levels items) : '\n' ∉ itemChars items := by
  match items with
  | [] => simp [itemChars]
  | [item] => exact lineFeed_not_mem_chars standard.1
  | item :: next :: more =>
    have first := lineFeed_not_mem_chars standard.1
    have later := lineFeed_not_mem_itemChars standard.2
    simp [itemChars, first, later]

theorem lineFeed_not_mem_entryChars {levels : Nat} {entries : List (String × Json)}
    (standard : EntriesStandard levels entries) : '\n' ∉ entryChars entries := by
  match entries with
  | [] => simp [entryChars]
  | [(key, value)] =>
    have first := lineFeed_not_mem_chars standard.1
    simp [entryChars, first, lineFeed_not_mem_quote key]
  | (key, value) :: next :: more =>
    have first := lineFeed_not_mem_chars standard.1
    have later := lineFeed_not_mem_entryChars standard.2
    simp [entryChars, first, later, lineFeed_not_mem_quote key]

end

end Dashboard.Json
