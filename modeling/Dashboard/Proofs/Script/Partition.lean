import Dashboard.Proofs.Script.Standing

/-!
How the lexer goes through a text. In every round it skips a gap and takes a token; the token takes at
least one character and no more than there are, so the text is the gaps and the stretches of its
tokens in a row, and the rounds come to an end.
-/
namespace Dashboard

namespace Script

/-! Gaps. -/

/-- What stands between tokens, in front of the text `behind`: blanks, line comments up to a line feed
or to the end of the text, and block comments up to the first mark that ends them. -/
inductive IsGap (behind : List Char) : List Char → Prop
  | nil : IsGap behind []
  | blank {c : Char} {more : List Char} : Text.isBlank c = true → IsGap behind more →
      IsGap behind (c :: more)
  | lineComment {body more : List Char} : '\n' ∉ body →
      (∀ c ∈ (more ++ behind).head?, c = '\n') → IsGap behind more →
      IsGap behind ('/' :: '/' :: (body ++ more))
  | blockComment {body more : List Char} : ¬ ['*', '/'] <:+: body → IsGap behind more →
      IsGap behind ('/' :: '*' :: (body ++ '*' :: '/' :: more))

theorem exists_of_blockComment {text : List Char} {n : Nat} (h : blockComment text = some n) :
    ∃ body rest, text = body ++ '*' :: '/' :: rest ∧ n = body.length + 2 ∧
      ¬ ['*', '/'] <:+: body := by
  fun_induction blockComment text generalizing n with
  | case1 => cases h
  | case2 rest =>
    cases h
    exact ⟨[], rest, rfl, rfl, by simp⟩
  | case3 c rest notEnd ih =>
    obtain ⟨m, ended, rfl⟩ := Option.map_eq_some_iff.mp h
    obtain ⟨body, others, rfl, rfl, free⟩ := ih ended
    refine ⟨c :: body, others, rfl, by simp, fun inside => ?_⟩
    rcases List.infix_cons_iff.mp inside with ⟨after, first⟩ | later
    · obtain ⟨rfl, rfl⟩ : '*' = c ∧ '/' :: after = body := by simpa using first
      exact notEnd _ rfl rfl
    · exact free later

theorem exists_of_lineComment (text : List Char) : ∃ body rest, text = body ++ rest ∧
    lineComment text = body.length ∧ '\n' ∉ body ∧ ∀ c ∈ rest.head?, c = '\n' := by
  refine ⟨text.takeWhile (· ≠ '\n'), text.dropWhile (· ≠ '\n'),
    List.takeWhile_append_dropWhile.symm, rfl, fun member => ?_, fun c first => ?_⟩
  · have other := List.mem_takeWhile_imp member
    simp at other
  · have stops := List.head?_dropWhile_not (· ≠ '\n') text
    rw [Option.mem_def.mp first] at stops
    simpa using stops

theorem exists_of_gap {before n : Nat} {text : List Char} (h : gap before text = .ok n) :
    ∃ stretch rest, text = stretch ++ rest ∧ n = before + stretch.length ∧ IsGap rest stretch := by
  induction before, text using gap.induct with
  | case1 before =>
    rw [gap] at h
    cases h
    exact ⟨[], [], rfl, rfl, .nil⟩
  | case2 before c rest blank ih =>
    rw [gap, if_pos blank] at h
    obtain ⟨stretch, behind, rfl, rfl, skipped⟩ := ih h
    exact ⟨c :: stretch, behind, rfl, by simp; omega, .blank blank skipped⟩
  | case3 before c rest visible slashes n ih =>
    rw [gap, if_neg visible, if_pos slashes] at h
    obtain ⟨rfl, second⟩ := slashes
    obtain ⟨more, rfl⟩ : ∃ more, rest = '/' :: more := by
      cases rest with
      | nil => cases second
      | cons d more => exact ⟨more, by simpa using second⟩
    obtain ⟨body, after, rfl, length, unbroken, breaks⟩ := exists_of_lineComment more
    have whole : lineComment ('/' :: (body ++ after)) = body.length + 1 := by
      rw [← length]
      simp [lineComment]
    have rest : ('/' :: (body ++ after)).drop (body.length + 1) = after := by
      rw [List.drop_succ_cons, List.drop_left]
    simp only [whole, rest] at h
    simp only [n, whole, rest] at ih
    obtain ⟨stretch, behind, rfl, rfl, skipped⟩ := ih h
    refine ⟨'/' :: '/' :: (body ++ stretch), behind, by simp, ?_,
      .lineComment unbroken breaks skipped⟩
    simp
    omega
  | case4 before c rest visible noSlashes star unended =>
    rw [gap, if_neg visible, if_neg noSlashes, if_pos star, unended] at h
    cases h
  | case5 before c rest visible noSlashes star n ended ih =>
    rw [gap, if_neg visible, if_neg noSlashes, if_pos star, ended] at h
    obtain ⟨rfl, second⟩ := star
    obtain ⟨more, rfl⟩ : ∃ more, rest = '*' :: more := by
      cases rest with
      | nil => cases second
      | cons d more => exact ⟨more, by simpa using second⟩
    obtain ⟨body, others, same, rfl, free⟩ := exists_of_blockComment ended
    obtain rfl : more = body ++ '*' :: '/' :: others := same
    have rest : ('*' :: (body ++ '*' :: '/' :: others)).drop (1 + (body.length + 2)) = others := by
      rw [Nat.add_comm, List.drop_succ_cons, ← List.drop_drop, List.drop_left]
      rfl
    simp only [rest] at h ih
    obtain ⟨stretch, behind, rfl, rfl, skipped⟩ := ih h
    refine ⟨'/' :: '*' :: (body ++ '*' :: '/' :: stretch), behind, by simp, ?_,
      .blockComment free skipped⟩
    simp
    omega
  | case6 before c rest visible noSlashes noStar =>
    rw [gap, if_neg visible, if_neg noSlashes, if_neg noStar] at h
    cases h
    exact ⟨[], _, rfl, rfl, .nil⟩

/-! Tokens. -/

/-- The token is scanned from the stretch, with more text behind it. -/
def Covers (token : Token) (stretch behind : List Char) : Prop :=
  ∃ c more, stretch = c :: more ∧ scanToken c (more ++ behind) = .ok (token, stretch.length)

theorem exists_of_scanToken {c : Char} {rest : List Char} {token : Token} {k : Nat}
    (h : scanToken c rest = .ok (token, k)) :
    ∃ stretch behind, c :: rest = stretch ++ behind ∧ stretch.length = k ∧
      Covers token stretch behind := by
  obtain ⟨some, -⟩ := scanToken_spec h
  obtain ⟨n, rfl⟩ : ∃ n, k = n + 1 := ⟨k - 1, by omega⟩
  have length := length_of_scanToken h
  have taken : (c :: rest.take n).length = n + 1 := by
    simp at length ⊢
    exact length
  refine ⟨c :: rest.take n, rest.drop n, by simp, taken, c, rest.take n, rfl, ?_⟩
  rw [List.take_append_drop, taken, h]

/-! Rounds. -/

/-- Behind `before`, the text is cut into gaps and the stretches of the lexemes, each at its place, and
the place of its end. -/
inductive IsCut (origin : Position) : List Char → List Char → List Lexeme → Position → Prop
  | done {before rest : List Char} : IsGap [] rest →
      IsCut origin before rest [] (origin.behind (before ++ rest))
  | lexeme {before gap stretch rest : List Char} {token : Token} {more : List Lexeme}
      {stop : Position} : IsGap (stretch ++ rest) gap → Covers token stretch rest →
      IsCut origin (before ++ gap ++ stretch) rest more stop →
      IsCut origin before (gap ++ (stretch ++ rest))
        (⟨token, origin.behind (before ++ gap)⟩ :: more) stop

/-- One round of the lexer: a gap and a token behind it. -/
def Round (text later : List Char) : Prop :=
  ∃ n c rest token k, gap 0 text = .ok n ∧ text.drop n = c :: rest ∧
    scanToken c rest = .ok (token, k) ∧ later = (c :: rest).drop k

/-- Rounds in a row. -/
inductive Rounds : Nat → List Char → List Char → Prop
  | none {text : List Char} : Rounds 0 text text
  | next {n : Nat} {text between later : List Char} : Round text between → Rounds n between later →
      Rounds (n + 1) text later

theorem length_of_round {text later : List Char} (h : Round text later) :
    later.length < text.length := by
  obtain ⟨n, c, rest, token, k, -, here, scanned, rfl⟩ := h
  obtain ⟨some, -⟩ := scanToken_spec scanned
  have behind := congrArg List.length here
  rw [List.length_drop] at behind ⊢
  simp at behind ⊢
  omega

theorem length_of_rounds {n : Nat} {text later : List Char} (h : Rounds n text later) :
    n + later.length ≤ text.length := by
  induction h with
  | none => exact (Nat.zero_add _).le
  | next round _ ih =>
    have less := length_of_round round
    omega

theorem exists_last_round (text : List Char) :
    ∃ n later, Rounds n text later ∧ ∀ next, ¬ Round later next := by
  by_cases last : ∃ next, Round text next
  · obtain ⟨next, round⟩ := last
    have less := length_of_round round
    obtain ⟨n, later, rounds, ends⟩ := exists_last_round next
    exact ⟨n + 1, later, .next round rounds, ends⟩
  · exact ⟨0, text, .none, not_exists.mp last⟩
termination_by text.length

theorem isCut_of_lexemes {origin : Position} {before text : List Char}
    {found : List Lexeme × Position}
    (h : lexemes (origin.behind before) text = .ok found) :
    IsCut origin before text found.1 found.2 := by
  induction text using tokens?.induct generalizing before found with
  | case1 text fault unended =>
    rw [lexemes, unended] at h
    cases h
  | case2 text n skipped spent =>
    obtain ⟨stretch, rest, rfl, rfl, isGap⟩ := exists_of_gap skipped
    obtain rfl : rest = [] := by simpa using spent
    rw [lexemes_end _ skipped spent] at h
    cases h
    rw [Nat.zero_add, List.append_nil, List.take_length, ← Position.behind_append]
    exact .done isGap
  | case3 text n skipped c rest ahead fault failed =>
    rw [lexemes_cons _ skipped ahead, failed] at h
    cases h
  | case4 text n skipped c rest ahead token k scanned ih =>
    rw [lexemes_cons _ skipped ahead, scanned] at h
    dsimp only at h
    split at h
    · cases h
    next later =>
    cases h
    obtain ⟨front, back, rfl, rfl, isGap⟩ := exists_of_gap skipped
    obtain rfl : back = c :: rest := by simpa using ahead
    obtain ⟨some, -⟩ := scanToken_spec scanned
    obtain ⟨stretch, behind, shape, rfl, covers⟩ := exists_of_scanToken scanned
    have further : rest.drop (stretch.length - 1) = behind := by
      rw [← List.drop_succ_cons (a := c), Nat.sub_add_cancel some, shape, List.drop_left]
    rw [further] at later ih
    rw [Nat.zero_add, List.take_left, ← Position.behind_append, shape, List.take_left,
      ← Position.behind_append] at later
    rw [Nat.zero_add, List.take_left, ← Position.behind_append, shape]
    rw [shape] at isGap
    exact .lexeme isGap covers (ih later)

/-- Tokens partition a text and stand where their characters stand. And the lexer comes to an end:
no round leaves as many characters as it found. -/
theorem lexemesOf_partitions (text : String) (origin : Position) :
    (∀ found stop, lexemesOf text origin = .ok (found, stop) →
      IsCut origin [] text.toList found stop) ∧
    (∃ n later, Rounds n text.toList later ∧ ∀ next, ¬ Round later next) ∧
    ∀ n later, Rounds n text.toList later → n + later.length ≤ text.length := by
  refine ⟨fun found stop cut => ?_, exists_last_round _, fun n later rounds => ?_⟩
  · have here : lexemes (origin.behind []) text.toList = .ok (found, stop) := by
      rw [← Position.advance_eq_behind]
      exact cut
    exact isCut_of_lexemes here
  · exact length_of_rounds rounds

/-- A comment stands between two tokens, and a line feed in front of the second. -/
theorem lexemesOf_partitions_commented :
    IsCut ⟨3, 5, 40⟩ [] "a /* b */\n'c' ".toList
      [⟨.identifier "a", ⟨3, 5, 40⟩⟩, ⟨.string "c", ⟨4, 1, 50⟩⟩] ⟨4, 5, 54⟩ ∧
    ∀ n later, Rounds n "a /* b */\n'c' ".toList later → n + later.length ≤ 14 :=
  have cut := lexemesOf_partitions "a /* b */\n'c' " ⟨3, 5, 40⟩
  ⟨cut.1 _ _ (by decide +kernel), cut.2.2⟩

end Script

end Dashboard
