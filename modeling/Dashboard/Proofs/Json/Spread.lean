import Dashboard.Proofs.Json.ReadBack

/-!
Reading back spread text. Line breaks and indentation stand between the lexemes only, so the spread
text of a value has the lexemes of its compact text, whatever the order of the keys in it.
-/
namespace Dashboard.Json

open Binary64 (InRange)

mutual

/-- Every double in the value has a text. -/
def IsPrintable : Json → Prop
  | .float x => InRange x
  | .arr items => ArePrintable items
  | .obj entries => EntriesPrintable entries
  | .null | .bool _ | .int _ | .str _ => True

def ArePrintable : List Json → Prop
  | [] => True
  | first :: more => IsPrintable first ∧ ArePrintable more

def EntriesPrintable : List (String × Json) → Prop
  | [] => True
  | (_, value) :: more => IsPrintable value ∧ EntriesPrintable more

end

theorem lexemes_replicate_space (n : Nat) (rest : List Char) :
    lexemes (List.replicate n ' ' ++ rest) = lexemes rest := by
  induction n with
  | zero => rfl
  | succ n ih => rw [List.replicate_succ, List.cons_append, lexemes, if_pos (by decide), ih]

theorem lexemes_indentation (level : Nat) (rest : List Char) :
    lexemes (indentation level ++ rest) = lexemes rest := by
  rw [indentation, List.cons_append, lexemes, if_pos (by decide), lexemes_replicate_space]

/-- A colon in spread text has a space behind it. -/
theorem lexemes_colon (rest : List Char) :
    lexemes (": ".toList ++ rest) = (lexemes rest).map (.colon :: ·) := by
  have space : lexemes (' ' :: rest) = lexemes rest := lexemes_replicate_space 1 rest
  rw [← space]
  exact lexemes_mark (c := ':') (by decide) (fun _ => rfl) (' ' :: rest)

theorem isDelimited_indentation (level : Nat) (rest : List Char) :
    IsDelimited (indentation level ++ rest) :=
  isDelimited_cons (Or.inr (Or.inr (Or.inr rfl))) _

mutual

theorem lexemes_spreadChars {v : Json} (printable : IsPrintable v) (level : Nat) {rest : List Char}
    (delimited : IsDelimited rest) :
    lexemes (spreadChars level v ++ rest) = (lexemes rest).map (tokens v ++ ·) := by
  match v with
  | .null => exact lexemes_null rest
  | .bool true => exact lexemes_true rest
  | .bool false => exact lexemes_false rest
  | .int n => exact lexemes_intChars n delimited
  | .float x => exact lexemes_floatChars (by simpa [IsPrintable] using printable) delimited
  | .str text => exact lexemes_quote text rest
  | .arr [] =>
    rw [show spreadChars level (.arr []) ++ rest = '[' :: ']' :: rest from rfl,
      lexemes_mark (by decide) (fun _ => rfl), lexemes_mark (by decide) (fun _ => rfl)]
    simp [tokens, itemTokens, Function.comp_def]
  | .arr (first :: more) =>
    have inner := lexemes_spreadItems printable (level + 1)
      (isDelimited_indentation level (']' :: rest))
    have shape : spreadChars level (.arr (first :: more)) ++ rest =
        '[' :: (spreadItems (level + 1) (first :: more) ++ (indentation level ++ ']' :: rest)) := by
      simp [spreadChars]
    rw [shape, lexemes_mark (by decide) (fun _ => rfl), inner, lexemes_indentation,
      lexemes_mark (by decide) (fun _ => rfl)]
    simp [tokens, Function.comp_def]
  | .obj [] =>
    rw [show spreadChars level (.obj []) ++ rest = '\x7b' :: '\x7d' :: rest from rfl,
      lexemes_mark (by decide) (fun _ => rfl), lexemes_mark (by decide) (fun _ => rfl)]
    simp [tokens, entryTokens, Function.comp_def]
  | .obj (first :: more) =>
    have inner := lexemes_spreadEntries printable (level + 1)
      (isDelimited_indentation level ('\x7d' :: rest))
    have shape : spreadChars level (.obj (first :: more)) ++ rest =
        '\x7b' :: (spreadEntries (level + 1) (first :: more) ++
          (indentation level ++ '\x7d' :: rest)) := by
      simp [spreadChars]
    rw [shape, lexemes_mark (by decide) (fun _ => rfl), inner, lexemes_indentation,
      lexemes_mark (by decide) (fun _ => rfl)]
    simp [tokens, Function.comp_def]

theorem lexemes_spreadItems {items : List Json} (printable : ArePrintable items) (level : Nat)
    {rest : List Char} (delimited : IsDelimited rest) :
    lexemes (spreadItems level items ++ rest) = (lexemes rest).map (itemTokens items ++ ·) := by
  match items with
  | [] => simp [spreadItems, itemTokens]
  | [item] =>
    rw [spreadItems, List.append_assoc, lexemes_indentation]
    exact lexemes_spreadChars printable.1 level delimited
  | item :: next :: more =>
    have later := lexemes_spreadItems printable.2 level delimited
    have first := lexemes_spreadChars printable.1 level
      (isDelimited_comma (spreadItems level (next :: more) ++ rest))
    have shape : spreadItems level (item :: next :: more) ++ rest = indentation level ++
        (spreadChars level item ++ ',' :: (spreadItems level (next :: more) ++ rest)) := by
      simp [spreadItems]
    rw [shape, lexemes_indentation, first, lexemes_mark (by decide) (fun _ => rfl), later]
    simp [itemTokens, Function.comp_def]

theorem lexemes_spreadEntries {entries : List (String × Json)}
    (printable : EntriesPrintable entries) (level : Nat) {rest : List Char} (delimited : IsDelimited rest) :
    lexemes (spreadEntries level entries ++ rest) =
      (lexemes rest).map (entryTokens entries ++ ·) := by
  match entries with
  | [] => simp [spreadEntries, entryTokens]
  | [(key, value)] =>
    have inner := lexemes_spreadChars printable.1 level delimited
    have shape : spreadEntries level [(key, value)] ++ rest =
        indentation level ++ (quote key ++ (": ".toList ++ (spreadChars level value ++ rest))) := by
      simp [spreadEntries]
    rw [shape, lexemes_indentation, lexemes_quote, lexemes_colon, inner]
    simp [entryTokens, Function.comp_def]
  | (key, value) :: next :: more =>
    have later := lexemes_spreadEntries printable.2 level delimited
    have first := lexemes_spreadChars printable.1 level
      (isDelimited_comma (spreadEntries level (next :: more) ++ rest))
    have shape : spreadEntries level ((key, value) :: next :: more) ++ rest =
        indentation level ++ (quote key ++ (": ".toList ++
          (spreadChars level value ++ ',' :: (spreadEntries level (next :: more) ++ rest)))) := by
      simp [spreadEntries]
    rw [shape, lexemes_indentation, lexemes_quote, lexemes_colon, first,
      lexemes_mark (by decide) (fun _ => rfl), later]
    simp [entryTokens, Function.comp_def]

end

theorem ofChars?_spread {v : Json} (printable : IsPrintable v) :
    Form.ofChars? v.spread.toList = some (form v) := by
  have cut := lexemes_spreadChars printable 0 isDelimited_nil
  rw [List.append_nil, lexemes, Option.map_some, List.append_nil] at cut
  rw [spread, String.toList_ofList]
  exact ofChars?_of_lexemes cut

end Dashboard.Json
