import Dashboard.Generate
import Dashboard.Proofs.Decimal.Rounding
import Dashboard.Proofs.Module.Lines

/-!
Tokens of a script without their places: the same text gives the same tokens wherever it stands.
Every name among them is a word, and every finite number is in the range of the doubles.
-/
namespace Dashboard

open Dashboard.Module (IsWord)

namespace Text

/-- The code points of the blanks. -/
def blankCodes : List Nat :=
  blankRanges.flatMap fun r => List.range' r.1 (r.2 + 1 - r.1)

theorem toNat_mem_blankCodes {c : Char} (h : isBlank c = true) : c.toNat ∈ blankCodes := by
  simp only [isBlank, inRanges, List.any_eq_true, Bool.and_eq_true, decide_eq_true_eq] at h
  obtain ⟨r, member, low, high⟩ := h
  refine List.mem_flatMap.mpr ⟨r, member, List.mem_range'_1.mpr ⟨low, ?_⟩⟩
  omega

/-- What fails for the blanks one by one fails for every blank. -/
theorem isBlank_eq_false_of {p : Char → Bool}
    (none : ∀ n ∈ blankCodes, p (Char.ofNat n) = false) {c : Char} (h : p c = true) :
    isBlank c = false := by
  by_contra blank
  have code := none c.toNat (toNat_mem_blankCodes (Bool.not_eq_false _ ▸ blank))
  rw [Char.ofNat_toNat, h] at code
  cases code

end Text

namespace Script

open Text

def isNameChar (c : Char) : Bool := isAlphanumeric c || c = '_' || c = '$'

theorem isBlank_of_isNameChar {c : Char} (h : isNameChar c = true) : isBlank c = false :=
  isBlank_eq_false_of (by decide +kernel) h

theorem isNameChar_of_startsName {c : Char} (h : startsName c = true) : isNameChar c = true := by
  have letter : isAlphabetic c = true → isAlphanumeric c = true := by
    simp only [isAlphabetic, isAlphanumeric, isAsciiAlphanumeric]
    split_ifs with ascii
    · intro h
      rw [h, Bool.true_or]
    · intro h
      rw [h, Bool.true_or]
  simp only [startsName, isNameChar, Bool.or_eq_true] at h ⊢
  exact h.imp_left (Or.imp_left letter)

/-- A word, as the lexer cuts names out of a text. -/
theorem isWord_nameRun {c : Char} (h : startsName c = true) (rest : List Char) :
    IsWord (String.ofList (nameRun (c :: rest))) := by
  rw [IsWord, String.toList_ofList]
  constructor
  · have first := isNameChar_of_startsName h
    rw [isNameChar] at first
    simp [nameRun, first]
  · intro d member
    have name := List.mem_takeWhile_imp member
    exact isBlank_of_isNameChar name

/-- A finite number is in the range of the doubles. -/
def IsSound (x : Binary64) : Prop := x.isFinite = true → Binary64.InRange x

theorem isSound_of_numeral? {digits : List Char} {x : Binary64}
    (h : Decimal.numeral? digits = some x) : IsSound x := by
  simp only [Decimal.numeral?, Decimal.unsigned?] at h
  split_ifs at h
  obtain ⟨e, -, rfl⟩ := Option.map_eq_some_iff.mp h
  exact Binary64.inRange_ofDecimal

theorem isSound_of_hexNumber {digits : List Char} {x : Binary64} (h : hexNumber digits = some x) :
    IsSound x := by
  simp only [hexNumber] at h
  split_ifs at h
  obtain rfl := Option.some.inj h
  exact Binary64.inRange_ofRatio Nat.one_pos

/-- What the lexer promises of its tokens. -/
def Token.IsClean : Token → Prop
  | identifier name | reserved name => IsWord name
  | number value => IsSound value
  | _ => True

theorem propertyName?_ofWord (word : String) : (Token.ofWord word).propertyName? = some word := by
  unfold Token.ofWord
  split
  · next keyword found =>
    have same : keyword.text = word := by simpa using List.find?_some found
    rw [Token.propertyName?, same]
  · split_ifs with yes no null
    · rw [yes]
      rfl
    · rw [no]
      rfl
    · rw [null]
      rfl
    · rfl
    · rfl

theorem Token.isClean_ofWord {word : String} (h : IsWord word) : (ofWord word).IsClean := by
  unfold ofWord
  split
  · trivial
  · split_ifs
    · trivial
    · trivial
    · trivial
    · exact h
    · exact h

theorem Token.isWord_of_propertyName? {token : Token} {name : String} (clean : token.IsClean)
    (h : token.propertyName? = some name) : IsWord name := by
  cases token with
  | identifier word => exact Option.some.inj h ▸ clean
  | reserved word => exact Option.some.inj h ▸ clean
  | keyword word =>
    obtain rfl := Option.some.inj h
    cases word <;> exact Module.isWord_of_isIdentifier (by decide)
  | boolean value =>
    obtain rfl := Option.some.inj h
    cases value <;> exact Module.isWord_of_isIdentifier (by decide)
  | null =>
    obtain rfl := Option.some.inj h
    exact Module.isWord_of_isIdentifier (by decide)
  | _ => cases h

theorem Scan.map_eq_ok {α β : Type} {f : α → β} {more n : Nat} {scan : Scan α} {b : β}
    (h : scan.map f more = .ok (b, n)) : ∃ a k, scan = .ok (a, k) ∧ b = f a ∧ n = k + more := by
  cases scan with
  | error => cases h
  | ok found =>
    cases h
    exact ⟨found.1, found.2, rfl, rfl, rfl⟩

theorem isClean_scanNumber {text : List Char} {token : Token} {k : Nat}
    (h : scanNumber text = .ok (token, k)) : token.IsClean := by
  have plain : ∀ {text : List Char}, scanNumber.decimal text = .ok (token, k) → token.IsClean := by
    intro text h
    simp only [scanNumber.decimal] at h
    split at h
    · cases h
    · next value read =>
      split at h
      · split_ifs at h
        cases h
        exact isSound_of_numeral? read
      · cases h
        exact isSound_of_numeral? read
  unfold scanNumber at h
  split at h
  · split_ifs at h
    · dsimp only at h
      split at h
      · cases h
      · next value read =>
        cases h
        exact isSound_of_hexNumber read
    · exact plain h
  · exact plain h

theorem isClean_scanToken {c : Char} {rest : List Char} {token : Token} {k : Nat}
    (h : scanToken c rest = .ok (token, k)) : token.IsClean := by
  unfold scanToken at h
  split at h
  · next mark found =>
    cases h
    unfold mark? at found
    split at found <;> cases found <;> trivial
  · split_ifs at h with quote template digit name
    · obtain ⟨value, k, -, rfl, -⟩ := Scan.map_eq_ok h
      trivial
    · split at h
      · cases h
      · cases h
        trivial
    · exact isClean_scanNumber h
    · cases h
      exact Token.isClean_ofWord (isWord_nameRun name rest)
    · unfold scanPunctuation at h
      repeat' split at h
      all_goals
        cases h
        try trivial

/-- The tokens of a text, if it can be cut into lexemes. -/
def tokens? (text : List Char) : Option (List Token) :=
  match gap 0 text with
  | .error _ => none
  | .ok n =>
    match _h : text.drop n with
    | [] => some []
    | c :: rest =>
      match scanToken c rest with
      | .error _ => none
      | .ok (token, k) => (tokens? (rest.drop (k - 1))).map (token :: ·)
termination_by text.length
decreasing_by
  have := congrArg List.length _h
  simp [List.length_drop] at this ⊢
  omega

/-! The lexer after a gap: at the end of the text, and in front of a token. -/

section Gap

variable {text rest : List Char} {n : Nat} {c : Char}

theorem tokens?_end (skipped : gap 0 text = .ok n) (spent : text.drop n = []) :
    tokens? text = some [] := by
  rw [tokens?]
  simp only [skipped]
  split
  · rfl
  · next remains => exact absurd (spent.symm.trans remains) (by simp)

theorem tokens?_cons (skipped : gap 0 text = .ok n) (here : text.drop n = c :: rest) :
    tokens? text = match scanToken c rest with
      | .error _ => none
      | .ok (token, k) => (tokens? (rest.drop (k - 1))).map (token :: ·) := by
  rw [tokens?]
  simp only [skipped]
  split
  · next remains => exact absurd (here.symm.trans remains) (by simp)
  · next remains =>
    obtain ⟨rfl, rfl⟩ := List.cons.inj (here.symm.trans remains)
    rfl

theorem lexemes_end (position : Position) (skipped : gap 0 text = .ok n) (spent : text.drop n = []) :
    lexemes position text = .ok ([], position.advance (text.take n)) := by
  rw [lexemes]
  simp only [skipped]
  split
  · rfl
  · next remains => exact absurd (spent.symm.trans remains) (by simp)

theorem lexemes_cons (position : Position) (skipped : gap 0 text = .ok n)
    (here : text.drop n = c :: rest) :
    lexemes position text =
      match scanToken c rest with
      | .error (fault, k) =>
        .error ⟨fault, (position.advance (text.take n)).advance ((c :: rest).take k)⟩
      | .ok (token, k) =>
        match lexemes ((position.advance (text.take n)).advance ((c :: rest).take k))
          (rest.drop (k - 1)) with
        | .error e => .error e
        | .ok (more, stop) =>
          .ok (⟨token, position.advance (text.take n)⟩ :: more, stop) := by
  rw [lexemes]
  simp only [skipped]
  split
  · next remains => exact absurd (here.symm.trans remains) (by simp)
  · next remains =>
    obtain ⟨rfl, rfl⟩ := List.cons.inj (here.symm.trans remains)
    rfl

end Gap

/-- Where a text stands does not matter for its tokens. -/
theorem tokens_lexemes (position : Position) (text : List Char) :
    (lexemes position text).toOption.map (fun found => found.1.map Lexeme.token) = tokens? text := by
  induction text using tokens?.induct generalizing position with
  | case1 text fault unended =>
    obtain ⟨fault, n⟩ := fault
    rw [lexemes, tokens?, unended]
    rfl
  | case2 text n skipped spent =>
    rw [lexemes_end position skipped spent, tokens?_end skipped spent]
    rfl
  | case3 text n skipped c rest here fault failed =>
    obtain ⟨fault, k⟩ := fault
    rw [lexemes_cons position skipped here, tokens?_cons skipped here, failed]
    rfl
  | case4 text n skipped c rest here token k scanned ih =>
    rw [lexemes_cons position skipped here, tokens?_cons skipped here, scanned]
    simp only []
    rw [← ih ((position.advance (text.take n)).advance ((c :: rest).take k))]
    split <;> next later => simp [later, Except.toOption]

theorem tokens?_eq_some {position : Position} {text : List Char}
    {found : List Lexeme × Position} (h : lexemes position text = .ok found) :
    tokens? text = some (found.1.map Lexeme.token) := by
  rw [← tokens_lexemes position, h]
  rfl

theorem exists_lexemes {text : List Char} {tokens : List Token} (h : tokens? text = some tokens)
    (position : Position) :
    ∃ found, lexemes position text = .ok found ∧ found.1.map Lexeme.token = tokens := by
  rw [← tokens_lexemes position] at h
  obtain ⟨found, ok, same⟩ := Option.map_eq_some_iff.mp h
  cases read : lexemes position text with
  | error e =>
    rw [read] at ok
    cases ok
  | ok other =>
    rw [read] at ok
    exact ⟨found, congrArg _ (Option.some.inj ok), same⟩

/-- What holds of every token that the lexer cuts holds of all tokens of a text. -/
theorem forall_of_tokens? {P : Token → Prop}
    (scans : ∀ {c rest token k}, scanToken c rest = .ok (token, k) → P token)
    {text : List Char} {tokens : List Token} (h : tokens? text = some tokens) :
    ∀ token ∈ tokens, P token := by
  induction text using tokens?.induct generalizing tokens with
  | case1 text fault unended =>
    rw [tokens?, unended] at h
    cases h
  | case2 text n skipped spent =>
    rw [tokens?_end skipped spent] at h
    obtain rfl := Option.some.inj h
    simp
  | case3 text n skipped c rest here fault failed =>
    rw [tokens?_cons skipped here, failed] at h
    cases h
  | case4 text n skipped c rest here token k scanned ih =>
    rw [tokens?_cons skipped here, scanned] at h
    obtain ⟨more, later, rfl⟩ := Option.map_eq_some_iff.mp h
    intro other member
    rcases List.mem_cons.mp member with rfl | member
    · exact scans scanned
    · exact ih later other member

theorem isClean_of_tokens? {text : List Char} {tokens : List Token}
    (h : tokens? text = some tokens) : ∀ token ∈ tokens, token.IsClean :=
  forall_of_tokens? isClean_scanToken h

/-! Tokens of a text that is known in front. -/

theorem gap_succ (before : Nat) (text : List Char) :
    gap (before + 1) text = match gap before text with
      | .ok n => .ok (n + 1)
      | .error (fault, n) => .error (fault, n + 1) := by
  induction before, text using gap.induct with
  | case1 before => simp [gap]
  | case2 before c rest blank ih => simp only [gap, blank, if_true, ih]
  | case3 before c rest visible slashes n ih =>
    have place : before + 1 + 1 + n = before + 1 + n + 1 := by omega
    rw [gap, gap, if_neg visible, if_neg visible, if_pos slashes, if_pos slashes]
    simp only []
    rw [place, ih]
  | case4 before c rest visible noSlashes star unended =>
    rw [gap, gap, if_neg visible, if_neg visible, if_neg noSlashes, if_neg noSlashes, if_pos star,
      if_pos star, unended]
  | case5 before c rest visible noSlashes star n ended ih =>
    have place : before + 1 + 2 + n = before + 2 + n + 1 := by omega
    rw [gap, gap, if_neg visible, if_neg visible, if_neg noSlashes, if_neg noSlashes, if_pos star,
      if_pos star, ended]
    simp only []
    rw [place, ih]
  | case6 before c rest visible noSlashes noStar =>
    rw [gap, gap, if_neg visible, if_neg visible, if_neg noSlashes, if_neg noSlashes, if_neg noStar,
      if_neg noStar]

/-- With the rest behind it the piece is cut into lexemes with these tokens, and the rest is cut as it
is by itself, at the place where it stands. -/
def Cuts (piece : List Char) (tokens : List Token) (rest : List Char) : Prop :=
  ∀ p : Position, ∃ front : List Lexeme, front.map Lexeme.token = tokens ∧
    lexemes p (piece ++ rest) =
      (lexemes (p.advance piece) rest).map fun found => (front ++ found.1, found.2)

section Cuts

variable {piece other rest : List Char} {tokens more : List Token}

theorem Cuts.nil (rest : List Char) : Cuts [] [] rest := by
  intro p
  refine ⟨[], rfl, ?_⟩
  rw [List.nil_append, Position.advance_nil]
  cases lexemes p rest <;> rfl

theorem Cuts.append (first : Cuts piece tokens (other ++ rest)) (second : Cuts other more rest) :
    Cuts (piece ++ other) (tokens ++ more) rest := by
  intro p
  obtain ⟨front, rfl, one⟩ := first p
  obtain ⟨back, rfl, two⟩ := second (p.advance piece)
  refine ⟨front ++ back, List.map_append, ?_⟩
  rw [List.append_assoc, one, two, Position.advance_append]
  cases lexemes ((p.advance piece).advance other) rest with
  | error => rfl
  | ok found => simp [Except.map]

theorem Cuts.tokens? (h : Cuts piece tokens rest) :
    tokens? (piece ++ rest) = (tokens? rest).map (tokens ++ ·) := by
  obtain ⟨front, rfl, same⟩ := h .start
  rw [← tokens_lexemes .start, ← tokens_lexemes (Position.start.advance piece), same]
  cases lexemes (Position.start.advance piece) rest with
  | error => rfl
  | ok found => simp [Except.map, Except.toOption]

theorem cuts_blank {c : Char} (blank : isBlank c = true) (rest : List Char) : Cuts [c] [] rest := by
  intro p
  refine ⟨[], rfl, ?_⟩
  have unchanged (found : Except ParseError (List Lexeme × Position)) :
      (found.map fun found => ([] ++ found.1, found.2)) = found := by
    cases found <;> rfl
  have step : gap 0 (c :: rest) = gap (0 + 1) rest := by simp only [gap, blank, if_true]
  rw [gap_succ] at step
  rw [unchanged, List.singleton_append]
  cases skipped : gap 0 rest with
  | error failure =>
    rw [skipped] at step
    rw [lexemes, lexemes, step, skipped]
    rfl
  | ok n =>
    rw [skipped] at step
    cases remains : rest.drop n with
    | nil =>
      rw [lexemes_end _ skipped remains, lexemes_end _ step remains]
      rfl
    | cons d more =>
      rw [lexemes_cons _ skipped remains, lexemes_cons _ step remains]
      rfl

theorem cuts_blanks {blanks : List Char} (h : blanks.all isBlank = true) (rest : List Char) :
    Cuts blanks [] rest := by
  induction blanks with
  | nil => exact .nil rest
  | cons c more ih =>
    obtain ⟨blank, others⟩ := Bool.and_eq_true_iff.mp h
    exact (cuts_blank blank (more ++ rest)).append (ih others)

/-- A token that stands at the very front. -/
theorem cuts_token {c : Char} {body : List Char} {token : Token} (visible : isBlank c = false)
    (noSlash : c ≠ '/') (h : scanToken c (body ++ rest) = .ok (token, body.length + 1)) :
    Cuts (c :: body) [token] rest := by
  intro p
  have skipped : gap 0 (c :: (body ++ rest)) = .ok 0 := by simp [gap, visible, noSlash]
  have taken : (c :: (body ++ rest)).take (body.length + 1) = c :: body := by simp
  refine ⟨[⟨token, p⟩], rfl, ?_⟩
  rw [List.cons_append, lexemes_cons p skipped List.drop_zero, h]
  simp only [taken, Nat.add_sub_cancel, List.drop_left, List.take_zero, Position.advance_nil]
  cases lexemes (p.advance (c :: body)) rest <;> rfl

theorem cuts_mark {c : Char} {token : Token} (visible : isBlank c = false) (noSlash : c ≠ '/')
    (mark : mark? c = some token) (rest : List Char) : Cuts [c] [token] rest :=
  cuts_token visible noSlash (by simp only [scanToken, mark]; rfl)

end Cuts

theorem toNat_of_isIdentifierChar {c : Char} (h : Placeholder.isIdentifierChar c = true) :
    c.toNat < 128 := by
  simp only [Placeholder.isIdentifierChar, isAsciiAlphanumeric, isAsciiLetter, isAsciiDigit,
    Bool.or_eq_true, Bool.and_eq_true, decide_eq_true_eq, Char.le_def, UInt32.le_iff_toNat_le] at h
  rcases h with ((⟨-, high⟩ | ⟨-, high⟩) | ⟨-, high⟩) | rfl
  · exact lt_of_le_of_lt high (by decide)
  · exact lt_of_le_of_lt high (by decide)
  · exact lt_of_le_of_lt high (by decide)
  · decide

/-- What holds of the characters of identifiers one by one. -/
theorem of_isIdentifierChar {p : Char → Bool}
    (all : ∀ n < 128, Placeholder.isIdentifierChar (Char.ofNat n) = true → p (Char.ofNat n) = true)
    {c : Char} (h : Placeholder.isIdentifierChar c = true) : p c = true := by
  have code := all c.toNat (toNat_of_isIdentifierChar h)
  rw [Char.ofNat_toNat] at code
  exact code h

theorem isIdentifierChar_of_startsIdentifier {c : Char}
    (h : Placeholder.startsIdentifier c = true) : Placeholder.isIdentifierChar c = true := by
  simp only [Placeholder.startsIdentifier, Placeholder.isIdentifierChar, isAsciiAlphanumeric,
    Bool.or_eq_true] at h ⊢
  exact h.imp_left Or.inl

theorem isNameChar_of_isIdentifierChar {c : Char} (h : Placeholder.isIdentifierChar c = true) :
    isNameChar c = true :=
  of_isIdentifierChar (by decide) h

/-- No other kind of token begins with a character that begins an identifier. -/
theorem scanToken_startsIdentifier {c : Char} (h : Placeholder.startsIdentifier c = true)
    (rest : List Char) :
    scanToken c rest =
      .ok (.ofWord (String.ofList (nameRun (c :: rest))), (nameRun (c :: rest)).length) := by
  have kinds := of_isIdentifierChar
    (p := fun c => !Placeholder.startsIdentifier c || ((mark? c).isNone &&
      !(c = '\x22' ∨ c = '\x27') && c ≠ '\x60' && !isAsciiDigit c && c ≠ '.' && startsName c))
    (by decide) (isIdentifierChar_of_startsIdentifier h)
  simp only [h, Bool.not_true, Bool.false_or, Bool.and_eq_true, Bool.not_eq_true', decide_eq_true_eq,
    decide_eq_false_iff_not, Option.isNone_iff_eq_none] at kinds
  obtain ⟨⟨⟨⟨⟨mark, quote⟩, template⟩, digit⟩, point⟩, name⟩ := kinds
  simp [scanToken, mark, quote, template, digit, point, name]

/-- An identifier is one token, up to a character that no name holds. -/
theorem cuts_word {word : List Char} (h : Placeholder.isIdentifier word = true)
    {rest : List Char} (stops : rest.head?.all (fun c => !isNameChar c) = true) :
    Cuts word [Token.ofWord (String.ofList word)] rest := by
  cases word with
  | nil => cases h
  | cons c more =>
    obtain ⟨starts, chars⟩ := Bool.and_eq_true_iff.mp h
    have first : Placeholder.startsIdentifier c = true := starts
    have ends : rest.takeWhile isNameChar = [] := by
      cases rest with
      | nil => rfl
      | cons d others => exact List.takeWhile_cons_of_neg (by simpa using stops)
    have run : nameRun (c :: (more ++ rest)) = c :: more := by
      show (c :: more ++ rest).takeWhile isNameChar = _
      rw [List.takeWhile_append_of_pos, ends, List.append_nil]
      exact fun d member => isNameChar_of_isIdentifierChar (List.all_eq_true.mp chars d member)
    have scanned := scanToken_startsIdentifier first (more ++ rest)
    rw [run] at scanned
    refine cuts_token ?_ ?_ scanned
    · exact isBlank_of_isNameChar (isNameChar_of_isIdentifierChar
        (isIdentifierChar_of_startsIdentifier first))
    · rintro rfl
      cases first

theorem stringBody_cons {quote c : Char} (before : Nat) (noBreak : c ≠ '\n') (noEscape : c ≠ '\\')
    (rest : List Char) :
    stringBody quote before (c :: rest) =
      if c = quote then .ok ([], 1)
      else (stringBody quote (before + 1) rest).map (c :: ·) 1 := by
  rw [stringBody] <;> simp [noBreak, noEscape]

theorem stringBody_plain {quote : Char} {body : List Char} (before : Nat)
    (plain : ∀ c ∈ body, c ≠ quote ∧ c ≠ '\n' ∧ c ≠ '\\') (notBreak : quote ≠ '\n')
    (notEscape : quote ≠ '\\') (rest : List Char) :
    stringBody quote before (body ++ quote :: rest) = .ok (body, body.length + 1) := by
  induction body generalizing before with
  | nil => rw [List.nil_append, stringBody_cons before notBreak notEscape, if_pos rfl, List.length_nil]
  | cons c more ih =>
    obtain ⟨notQuote, noBreak, noEscape⟩ := plain c (by simp)
    have later := ih (before + 1) fun d member => plain d (List.mem_cons_of_mem _ member)
    rw [List.cons_append, stringBody_cons before noBreak noEscape, if_neg notQuote, later]
    rfl

theorem cuts_string {body : List Char} (h : Placeholder.isIdentifier body = true)
    (rest : List Char) : Cuts ('\x22' :: (body ++ ['\x22'])) [.string (String.ofList body)] rest := by
  have plain : ∀ c ∈ body, c ≠ '\x22' ∧ c ≠ '\n' ∧ c ≠ '\\' := by
    intro c member
    have char := List.all_eq_true.mp (Bool.and_eq_true_iff.mp h).2 c member
    refine ⟨?_, ?_, ?_⟩ <;>
    · rintro rfl
      cases char
  refine cuts_token (by decide) (by decide) ?_
  rw [List.append_assoc, List.singleton_append, scanToken, show mark? '\x22' = none from rfl,
    stringBody_plain 1 plain (by decide) (by decide) rest, List.length_append]
  rfl

/-- A line that imports a module under its own name, and its tokens. -/
def importLine (name : List Char) : List Char :=
  "import".toList ++ ' ' :: (name ++ ' ' :: ("from".toList ++ ' ' :: '\x22' ::
    (name ++ ['\x22', ';'])))

def importTokens (name : String) : List Token :=
  [.keyword .importWord, .ofWord name, .identifier "from", .string name, .semicolon]

theorem cuts_importLine {name : List Char} (h : Placeholder.isIdentifier name = true)
    (rest : List Char) : Cuts (importLine name) (importTokens (String.ofList name)) rest := by
  have importing : Token.ofWord "import" = .keyword .importWord := by decide
  have source : Token.ofWord "from" = .identifier "from" := by decide
  have blank : isBlank ' ' = true := by decide
  have stops (text : List Char) : (' ' :: text).head?.all (fun c => !isNameChar c) = true := by
    show (!isNameChar ' ') = true
    decide
  have line := (@cuts_word "import".toList (by decide) _ (stops _)).append <|
    (cuts_blank blank _).append <| (cuts_word h (stops _)).append <| (cuts_blank blank _).append <|
    (@cuts_word "from".toList (by decide) _ (stops _)).append <|
    (cuts_blank blank _).append <| (cuts_string h _).append <|
    cuts_mark (c := ';') (by decide) (by decide) rfl rest
  have closing : '\x22' :: (name ++ ['\x22']) ++ [';'] = '\x22' :: (name ++ ['\x22', ';']) := by simp
  rw [String.ofList_toList, String.ofList_toList, importing, source, closing] at line
  exact line

theorem cuts_importLines {names : List (List Char)}
    (h : ∀ name ∈ names, Placeholder.isIdentifier name = true) (rest : List Char) :
    Cuts (['\n'].intercalate (names.map importLine) ++ ['\n'])
      (names.flatMap fun name => importTokens (String.ofList name)) rest := by
  have lineFeed (rest : List Char) : Cuts ['\n'] [] rest := cuts_blank (by decide) rest
  induction names with
  | nil => exact lineFeed rest
  | cons name more ih =>
    have later := ih fun other member => h other (List.mem_cons_of_mem _ member)
    have line (rest : List Char) := (cuts_importLine (h name (by simp)) _).append (lineFeed rest)
    cases more with
    | nil => simpa using line rest
    | cons other others =>
      rw [List.map_cons, List.map_cons, List.intercalate_cons_cons, List.append_assoc,
        ← List.map_cons]
      simpa using (line _).append later

/-- The standard imports come first among the tokens, one line for each display. -/
theorem cuts_standardImports (rest : List Char) :
    Cuts (standardImports.toList ++ ['\n']) (Registry.displayNames.flatMap importTokens) rest := by
  have identifiers : ∀ name ∈ Registry.displayNames.map String.toList,
      Placeholder.isIdentifier name = true := by decide
  have lines := cuts_importLines identifiers rest
  have shape : standardImports.toList =
      ['\n'].intercalate ((Registry.displayNames.map String.toList).map importLine) := by
    decide
  rw [shape]
  simpa [List.flatMap_map] using lines

theorem scan?_dot {c : Char} (notDot : c ≠ '.') (rest : List Char) :
    Operator.scan? ('.' :: c :: rest) = none := by
  have shapes : ∀ op : Operator, op.text.toList ≠ [] ∧
      (op.text.toList.head? = some '.' → op.text.toList.take 2 = ['.', '.']) := by
    intro op
    cases op <;> decide
  refine List.find?_eq_none.mpr fun op _ isPrefix => ?_
  obtain ⟨more, shape⟩ := List.isPrefixOf_iff_prefix.mp isPrefix
  obtain ⟨notEmpty, double⟩ := shapes op
  cases text : op.text.toList with
  | nil => exact notEmpty text
  | cons d others =>
    rw [text] at shape double
    obtain ⟨rfl, same⟩ := List.cons.inj shape
    have two := double rfl
    cases others with
    | nil => cases two
    | cons e others =>
      obtain ⟨rfl, -⟩ := List.cons.inj same
      exact notDot (List.cons.inj (List.cons.inj two).2).1

theorem cuts_dot {c : Char} (h : Placeholder.startsIdentifier c = true) (rest : List Char) :
    Cuts ['.'] [.dot] (c :: rest) := by
  have kinds := of_isIdentifierChar
    (p := fun c => !Placeholder.startsIdentifier c || (!isAsciiDigit c && c ≠ '.'))
    (by decide) (isIdentifierChar_of_startsIdentifier h)
  simp only [h, Bool.not_true, Bool.false_or, Bool.and_eq_true, Bool.not_eq_true',
    decide_eq_true_eq] at kinds
  obtain ⟨digit, notDot⟩ := kinds
  have mark : mark? '.' = none := rfl
  have name : startsName '.' = false := by decide
  have plain : isAsciiDigit '.' = false := by decide
  refine cuts_token (by decide) (by decide) ?_
  simp [scanToken, mark, plain, digit, name, scanPunctuation, scan?_dot notDot]

/-- A reference to an input is three tokens, whatever blanks stand around it. -/
theorem tokens?_reference {name : List Char} (h : Placeholder.isIdentifier name = true)
    {before after : List Char} (hb : before.all isBlank = true) (ha : after.all isBlank = true) :
    tokens? (before ++ ("inputs.".toList ++ name) ++ after) =
      some [.identifier "inputs", .dot, .ofWord (String.ofList name)] := by
  obtain ⟨c, more, rfl⟩ : ∃ c more, name = c :: more := by
    cases name with
    | nil => cases h
    | cons c more => exact ⟨c, more, rfl⟩
  have first : Placeholder.startsIdentifier c = true := (Bool.and_eq_true_iff.mp h).1
  have ended : after.head?.all (fun c => !isNameChar c) = true := by
    cases after with
    | nil => rfl
    | cons d others =>
      have blank := (Bool.and_eq_true_iff.mp ha).1
      by_contra name
      have visible := isBlank_of_isNameChar (c := d) (by simpa using name)
      rw [visible] at blank
      cases blank
  have nothing : tokens? after = some [] := by
    have skipped := (cuts_blanks ha []).tokens?
    have atEnd : gap 0 [] = .ok 0 := by simp [gap]
    rw [List.append_nil, tokens?_end atEnd List.drop_nil] at skipped
    exact skipped
  have inputs : Token.ofWord "inputs" = .identifier "inputs" := by decide
  have stops : (['.'] ++ c :: more ++ after).head?.all (fun c => !isNameChar c) = true := by
    show (!isNameChar '.') = true
    decide
  have whole := (cuts_blanks hb _).append <|
    (@cuts_word "inputs".toList (by decide) _ stops).append <|
    (cuts_dot first (more ++ after)).append (cuts_word h ended)
  have shape : before ++ ("inputs.".toList ++ c :: more) ++ after =
      before ++ ("inputs".toList ++ (['.'] ++ (c :: more))) ++ after := by
    rw [show "inputs.".toList = "inputs".toList ++ ['.'] by decide]
    simp only [List.append_assoc]
  rw [shape, whole.tokens?, nothing, String.ofList_toList, inputs]
  rfl

end Script

end Dashboard
