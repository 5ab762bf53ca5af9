import Dashboard.Proofs.Position
import Dashboard.Proofs.Script.Texts
import Dashboard.Proofs.Script.Yielding

/-!
Where the names of a script stand. The lexer takes at least one character for a token and counts
places over what it takes, so every name in a tree stands in the text at the place of its node.
-/
namespace Dashboard.Script

open Dashboard.Script.Parser

/-! What the scans take. -/

theorem pos_of_scanNumber {text : List Char} {token : Token} {k : Nat}
    (h : scanNumber text = .ok (token, k)) : 0 < k := by
  have decimal {text : List Char} (h : scanNumber.decimal text = .ok (token, k)) : 0 < k := by
    have empty : Decimal.numeral? [] = none := by decide
    rw [scanNumber.decimal] at h
    cases run : numberRun text with
    | nil =>
      rw [run, List.filter_nil] at h
      simp only [empty] at h
      cases h
    | cons c more =>
      rw [run] at h
      simp only [List.length_cons] at h
      repeat' split at h
      all_goals
        cases h
        try omega
  unfold scanNumber at h
  split at h
  · split_ifs at h
    · dsimp only at h
      split at h
      · cases h
      · cases h
        omega
    · exact decimal h
  · exact decimal h

theorem pos_of_scanPunctuation {c : Char} {rest : List Char} {token : Token} {k : Nat}
    (h : scanPunctuation c rest = .ok (token, k)) : 0 < k := by
  have written (operator : Operator) : 0 < operator.text.length := by
    cases operator <;> decide
  unfold scanPunctuation at h
  repeat' split at h
  all_goals
    cases h
    try first | exact written _ | exact Nat.succ_pos _

theorem propertyName?_of_scanPunctuation {c : Char} {rest : List Char} {token : Token} {k : Nat}
    (h : scanPunctuation c rest = .ok (token, k)) : token.propertyName? = none := by
  unfold scanPunctuation at h
  repeat' split at h
  all_goals
    cases h
    try rfl

/-- A token takes a character or more, and what can be taken for a name is what is taken. -/
theorem scanToken_spec {c : Char} {rest : List Char} {token : Token} {k : Nat}
    (h : scanToken c rest = .ok (token, k)) :
    0 < k ∧ ∀ name, token.propertyName? = some name → name.toList <+: c :: rest := by
  unfold scanToken at h
  split at h
  · next found =>
    cases h
    unfold mark? at found
    split at found <;> cases found <;> exact ⟨Nat.one_pos, nofun⟩
  · split_ifs at h with quote template digit name
    · obtain ⟨value, k, -, rfl, rfl⟩ := Scan.map_eq_ok h
      exact ⟨Nat.succ_pos _, nofun⟩
    · split at h
      · cases h
      · cases h
        exact ⟨Nat.succ_pos _, nofun⟩
    · obtain ⟨value, rfl⟩ := scanNumber_eq_ok h
      exact ⟨pos_of_scanNumber h, nofun⟩
    · cases h
      refine ⟨?_, fun text spelled => ?_⟩
      · exact List.length_pos_of_ne_nil (by simpa using (isWord_nameRun name rest).1)
      · rw [propertyName?_ofWord] at spelled
        rw [← Option.some.inj spelled, String.toList_ofList]
        exact List.takeWhile_prefix _
    · refine ⟨pos_of_scanPunctuation h, fun text spelled => ?_⟩
      rw [propertyName?_of_scanPunctuation h] at spelled
      cases spelled

theorem length_of_stringBody {quote : Char} {before n : Nat} {value rest : List Char}
    (h : stringBody quote before rest = .ok (value, n)) : n ≤ rest.length := by
  fun_induction stringBody quote before rest generalizing value n with
  | case1 => cases h
  | case2 => cases h
  | case3 before a b c d rest code known ih =>
    obtain ⟨_, k, scanned, -, rfl⟩ := Scan.map_eq_ok h
    have below := ih scanned
    simp
    omega
  | case4 => cases h
  | case5 => cases h
  | case6 => cases h
  | case7 before e rest =>
    rename_i ih
    obtain ⟨_, k, scanned, -, rfl⟩ := Scan.map_eq_ok h
    have below := ih scanned
    simp
    omega
  | case8 before rest _ _ _ =>
    cases h
    simp
  | case9 before c rest _ _ _ _ _ ih =>
    obtain ⟨_, k, scanned, -, rfl⟩ := Scan.map_eq_ok h
    have below := ih scanned
    simp
    omega

theorem length_of_templateBody {rest raw : List Char} {n : Nat}
    (h : templateBody rest = some (raw, n)) : n ≤ rest.length := by
  fun_induction templateBody rest generalizing raw n with
  | case1 => cases h
  | case2 rest =>
    cases h
    simp
  | case3 c rest ih =>
    obtain ⟨found, ended, same⟩ := Option.map_eq_some_iff.mp h
    cases same
    have below := ih ended
    simp
    omega
  | case4 c rest _ _ ih =>
    obtain ⟨found, ended, same⟩ := Option.map_eq_some_iff.mp h
    cases same
    have below := ih ended
    simp
    omega

theorem isPrefix_numberRun (text : List Char) : numberRun text <+: text := by
  fun_induction numberRun text with
  | case1 c d rest part ih => exact (List.prefix_cons_inj c).mpr ih
  | case2 c d rest _ exponent ih =>
    exact (List.prefix_cons_inj c).mpr ((List.prefix_cons_inj d).mpr ih)
  | case3 => exact List.nil_prefix
  | case4 c part => exact List.prefix_rfl
  | case5 => exact List.nil_prefix
  | case6 => exact List.nil_prefix

theorem length_of_scanNumber {text : List Char} {token : Token} {k : Nat}
    (h : scanNumber text = .ok (token, k)) : k ≤ text.length := by
  have decimal {text : List Char} (h : scanNumber.decimal text = .ok (token, k)) :
      k ≤ text.length := by
    have run := (isPrefix_numberRun text).length_le
    rw [scanNumber.decimal] at h
    repeat' split at h
    all_goals
      cases h
      try exact run
  unfold scanNumber at h
  split at h
  · next x rest =>
    split_ifs at h
    · dsimp only at h
      split at h
      · cases h
      · cases h
        have digits := (List.takeWhile_prefix (l := rest) Text.isAsciiHexDigit).length_le
        simp
        omega
    · exact decimal h
  · exact decimal h

theorem length_of_scanPunctuation {c : Char} {rest : List Char} {token : Token} {k : Nat}
    (h : scanPunctuation c rest = .ok (token, k)) : k ≤ (c :: rest).length := by
  unfold scanPunctuation at h
  repeat' split at h
  · next arrow =>
    obtain ⟨more, rfl⟩ := List.head?_eq_some_iff.mp arrow.2
    cases h
    simp
  · cases h
  · next op read =>
    cases h
    have written := List.find?_some read
    exact (List.isPrefixOf_iff_prefix.mp written).length_le
  · cases h
    simp
  · cases h
    simp
  · cases h

/-- A token takes no more characters than there are. -/
theorem length_of_scanToken {c : Char} {rest : List Char} {token : Token} {k : Nat}
    (h : scanToken c rest = .ok (token, k)) : k ≤ (c :: rest).length := by
  unfold scanToken at h
  split at h
  · cases h
    simp
  · split_ifs at h
    · obtain ⟨value, n, scanned, -, rfl⟩ := Scan.map_eq_ok h
      exact Nat.succ_le_succ (length_of_stringBody scanned)
    · split at h
      · cases h
      · next ended =>
        cases h
        exact Nat.succ_le_succ (length_of_templateBody ended)
    · exact length_of_scanNumber h
    · cases h
      exact (List.takeWhile_prefix _).length_le
    · exact length_of_scanPunctuation h

/-! Names of lexemes, and of trees. -/

/-- Names that stand in a text, at their places. -/
abbrev InText (origin : Position) (text : List Char) (p : Position) (name : String) : Prop :=
  Stands origin text p name.toList

theorem inText_of_lexemes {origin : Position} {text : List Char} {found : List Lexeme × Position}
    (h : lexemes origin text = .ok found) : ∀ l ∈ found.1, NamesStand (InText origin text) l := by
  induction text using tokens?.induct generalizing origin found with
  | case1 text fault unended =>
    rw [lexemes, unended] at h
    cases h
  | case2 text n skipped spent =>
    rw [lexemes_end origin skipped spent] at h
    cases h
    simp
  | case3 text n skipped c rest ahead fault failed =>
    rw [lexemes_cons origin skipped ahead, failed] at h
    cases h
  | case4 text n skipped c rest ahead token k scanned ih =>
    rw [lexemes_cons origin skipped ahead, scanned] at h
    dsimp only at h
    split at h
    · cases h
    next later =>
    cases h
    obtain ⟨some, spelled⟩ := scanToken_spec scanned
    have behind : Stands origin text (origin.advance (text.take n)) (c :: rest) := by
      rw [← ahead]
      exact ⟨text.take n, [], by simp, rfl⟩
    refine List.forall_mem_cons.mpr ⟨fun name same => ?_, fun l member name same => ?_⟩
    · obtain ⟨after, split⟩ := spelled name same
      rw [← split] at behind
      exact behind.left
    · refine Stands.trans ?_ (ih later l member name same)
      have further : rest.drop (k - 1) = (c :: rest).drop k := by
        rw [← List.drop_succ_cons, Nat.sub_add_cancel some]
      rw [further]
      rw [← (c :: rest).take_append_drop k] at behind
      exact behind.right

/-- Every identifier of a parsed text spells its name at its place. -/
theorem stands_of_parseText {category : Category} {parser : Parser Node}
    (forms : ∀ stands, Forms stands category parser) (other : category ≠ .declarator)
    {text : String} {origin : Position} {node : Node} (h : parseText parser text origin = .ok node)
    {p : Position} {name : String} (member : .identifier p name ∈ node.subnodes) :
    Stands origin text.toList p name.toList := by
  have formed := isFormedWith_of_parseText (forms (InText origin text.toList))
    (fun found cut => inText_of_lexemes cut) h
  obtain ⟨_, named⟩ := formed.exists_of_occurs other (Node.mem_subnodes_iff.mp member)
  exact named.of_identifier

theorem stands_of_parseExpression {text : String} {origin : Position} {node : Node}
    (h : parseExpression text origin = .ok node) {p : Position} {name : String}
    (member : .identifier p name ∈ node.subnodes) : Stands origin text.toList p name.toList :=
  stands_of_parseText (fun _ => forms_wholeExpression) nofun h member

theorem stands_of_parseScript {text : String} {origin : Position} {node : Node}
    (h : parseScript text origin = .ok node) {p : Position} {name : String}
    (member : .identifier p name ∈ node.subnodes) : Stands origin text.toList p name.toList :=
  stands_of_parseText (fun _ => forms_program origin) nofun h member

end Dashboard.Script
