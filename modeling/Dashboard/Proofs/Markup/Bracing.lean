import Dashboard.Proofs.Markup.Documents
import Dashboard.Proofs.Script.Extent
import Dashboard.Proofs.Script.Standing
import Dashboard.Proofs.Script.Yielding

/-!
The search for the brace that closes an expression, beside the lexer. Both know strings and
templates, and braces come in pairs in an expression; so over its tokens the search keeps the depth
of the lexer. Only the lexer knows comments: to the search they are text like any other.
-/
namespace Dashboard.Script

/-- The comments among the blanks at the front of a text. -/
def gapComments : List Char → List (List Char)
  | [] => []
  | c :: rest =>
    if Text.isBlank c then gapComments rest
    else if c = '/' ∧ rest.head? = some '/' then
      (c :: rest.take (lineComment rest)) :: gapComments (rest.drop (lineComment rest))
    else if c = '/' ∧ rest.head? = some '*' then
      match blockComment (rest.drop 1) with
      | none => []
      | some n => (c :: rest.take (1 + n)) :: gapComments (rest.drop (1 + n))
    else []
termination_by text => text.length
decreasing_by all_goals (simp [List.length_drop]; try omega)

/-- The comments of a text: those in front of each token, and those behind the last. -/
def comments (text : List Char) : List (List Char) :=
  match gap 0 text with
  | .error _ => []
  | .ok n =>
    match _h : text.drop n with
    | [] => gapComments text
    | c :: rest =>
      match scanToken c rest with
      | .error _ => gapComments text
      | .ok (_, k) => gapComments text ++ comments (rest.drop (k - 1))
termination_by text.length
decreasing_by
  have := congrArg List.length _h
  simp [List.length_drop] at this ⊢
  omega

section Gap

variable {text rest : List Char} {n k : Nat} {c : Char} {token : Token}

theorem comments_end (skipped : gap 0 text = .ok n) (spent : text.drop n = []) :
    comments text = gapComments text := by
  rw [comments]
  simp only [skipped]
  split
  · rfl
  · next remains => exact absurd (spent.symm.trans remains) (by simp)

theorem comments_cons (skipped : gap 0 text = .ok n) (here : text.drop n = c :: rest)
    (scanned : scanToken c rest = .ok (token, k)) :
    comments text = gapComments text ++ comments (rest.drop (k - 1)) := by
  rw [comments]
  simp only [skipped]
  split
  · next remains => exact absurd (here.symm.trans remains) (by simp)
  · next remains =>
    obtain ⟨rfl, rfl⟩ := List.cons.inj (here.symm.trans remains)
    simp only [scanned]

end Gap

end Dashboard.Script

namespace Dashboard.Markup

open Dashboard.Markup.Parser Dashboard.Markup.Productions
open Dashboard.Script (braceDepth? Scan stringBody templateBody numberRun nameRun scanNumber
  scanPunctuation scanToken gap lineComment tokens? tokens?_end tokens?_cons)

/-- The search goes over a stretch of text, from one depth and quote to another. -/
def Crosses (before after : Nat × Option Char) (stretch : List Char) : Prop :=
  ∀ more, bracedLength? before.1 before.2 (stretch ++ more) =
    (bracedLength? after.1 after.2 more).map (· + stretch.length)

section Crossing

variable {before between after : Nat × Option Char} {x y : List Char} {depth : Nat} {c q : Char}

theorem Crosses.nil (state : Nat × Option Char) : Crosses state state [] := by
  intro more
  simp

theorem Crosses.append (first : Crosses before between x) (second : Crosses between after y) :
    Crosses before after (x ++ y) := by
  intro more
  rw [List.append_assoc, first, second, Option.map_map, List.length_append, Nat.add_comm]
  congr 1
  funext n
  exact Nat.add_assoc n _ _

theorem Crosses.cons (first : Crosses before between [c]) (rest : Crosses between after x) :
    Crosses before after (c :: x) := first.append rest

/-- The characters that the search heeds outside of quotes. -/
def marks : List Char := ['\x22', '\x27', '\x60', '\x7b', '\x7d']

theorem not_mem_marks {p : Char → Bool} (none : ∀ d ∈ marks, p d = false) (h : p c = true) :
    c ∉ marks := by
  intro member
  rw [none c member] at h
  cases h

theorem crosses_plain (depth : Nat) (plain : c ∉ marks) :
    Crosses (depth, none) (depth, none) [c] := by
  simp only [marks, List.mem_cons, List.not_mem_nil, or_false, not_or] at plain
  obtain ⟨double, single, template, opening, closing⟩ := plain
  intro more
  rw [List.singleton_append, bracedLength?_unquoted, if_neg (by simp [double, single, template]),
    if_neg opening, if_neg closing]
  rfl

theorem crosses_plains (depth : Nat) (plain : ∀ c ∈ x, c ∉ marks) :
    Crosses (depth, none) (depth, none) x := by
  induction x with
  | nil => exact .nil _
  | cons c more ih =>
    obtain ⟨first, later⟩ := List.forall_mem_cons.mp plain
    exact (crosses_plain depth first).cons (ih later)

theorem crosses_open (depth : Nat) : Crosses (depth, none) (depth + 1, none) ['\x7b'] := by
  intro more
  rw [List.singleton_append, bracedLength?_unquoted]
  rfl

theorem crosses_close (depth : Nat) : Crosses (depth + 1, none) (depth, none) ['\x7d'] := by
  intro more
  rw [List.singleton_append, bracedLength?_unquoted]
  rfl

theorem crosses_quote (depth : Nat) (quote : q = '\x22' ∨ q = '\x27' ∨ q = '\x60') :
    Crosses (depth, none) (depth, some q) [q] := by
  intro more
  rw [List.singleton_append, bracedLength?_unquoted, if_pos quote]
  rfl

theorem crosses_quoted (depth : Nat) (noEscape : c ≠ '\\') (noEnd : c ≠ q) :
    Crosses (depth, some q) (depth, some q) [c] := by
  intro more
  rw [List.singleton_append, bracedLength?_quoted depth q noEscape, if_neg noEnd]
  rfl

theorem crosses_unquote (depth : Nat) (noEscape : q ≠ '\\') :
    Crosses (depth, some q) (depth, none) [q] := by
  intro more
  rw [List.singleton_append, bracedLength?_quoted depth q noEscape, if_pos rfl]
  rfl

theorem crosses_escape (depth : Nat) (q c : Char) :
    Crosses (depth, some q) (depth, some q) ['\\', c] := by
  intro more
  rw [List.cons_append, List.singleton_append, bracedLength?]
  rfl

end Crossing

/-! Tokens. -/

theorem isAsciiHexDigit_of_hexEscape? {a b c d value : Char}
    (h : Script.hexEscape? a b c d = some value) :
    ∀ digit ∈ [a, b, c, d], Text.isAsciiHexDigit digit = true := by
  unfold Script.hexEscape? at h
  split_ifs at h with digits
  exact List.all_eq_true.mp digits

section Tokens

variable {depth : Nat} {rest : List Char}

/-- A string ends for the search where it ends for the lexer. -/
theorem crosses_stringBody {quote : Char} (either : quote = '\x22' ∨ quote = '\x27') {before n : Nat}
    {value : List Char} (h : stringBody quote before rest = .ok (value, n)) :
    Crosses (depth, some quote) (depth, none) (rest.take n) := by
  have noEscape : quote ≠ '\\' := by rcases either with rfl | rfl <;> decide
  have digit {c : Char} (hex : Text.isAsciiHexDigit c = true) :
      Crosses (depth, some quote) (depth, some quote) [c] := by
    refine crosses_quoted depth ?_ ?_
    · rintro rfl
      cases hex
    · rintro rfl
      rcases either with rfl | rfl <;> cases hex
  fun_induction stringBody quote before rest generalizing value n with
  | case1 => cases h
  | case2 => cases h
  | case3 before a b c d rest code known ih =>
    obtain ⟨_, k, later, -, rfl⟩ := Scan.map_eq_ok h
    have digits := isAsciiHexDigit_of_hexEscape? known
    simp only [List.forall_mem_cons] at digits
    obtain ⟨ha, hb, hc, hd, -⟩ := digits
    exact (crosses_escape depth quote 'u').append
      ((digit ha).cons ((digit hb).cons ((digit hc).cons ((digit hd).cons (ih later)))))
  | case4 => cases h
  | case5 => cases h
  | case6 => cases h
  | case7 before e rest short notUnicode escaped =>
    rename_i ih
    obtain ⟨_, k, later, -, rfl⟩ := Scan.map_eq_ok h
    exact (crosses_escape depth quote e).append (ih later)
  | case8 =>
    cases h
    exact crosses_unquote depth noEscape
  | case9 before c rest noBreak noUnicode noEnd noPair noQuote ih =>
    obtain ⟨_, k, later, -, rfl⟩ := Scan.map_eq_ok h
    refine (crosses_quoted depth ?_ noQuote).cons (ih later)
    rintro rfl
    cases rest with
    | nil => exact noEnd rfl rfl
    | cons e more => exact noPair e more rfl rfl

/-- So does a template. -/
theorem crosses_templateBody {n : Nat} {raw : List Char} (h : templateBody rest = some (raw, n)) :
    Crosses (depth, some '\x60') (depth, none) (rest.take n) := by
  induction rest using Script.templateBody.induct generalizing raw n with
  | case1 => cases h
  | case2 rest =>
    cases h
    exact crosses_unquote depth (by decide)
  | case3 c rest ih =>
    obtain ⟨⟨raw, k⟩, later, same⟩ := Option.map_eq_some_iff.mp h
    cases same
    exact (crosses_escape depth '\x60' c).append (ih later)
  | case4 c rest noEnd noPair ih =>
    rw [templateBody] at h
    · obtain ⟨⟨raw, k⟩, later, same⟩ := Option.map_eq_some_iff.mp h
      cases same
      refine (crosses_quoted depth ?_ noEnd).cons (ih later)
      rintro rfl
      cases rest with
      | nil => cases later
      | cons d more => exact noPair d more rfl rfl
    all_goals assumption

theorem plain_numberRun : ∀ c ∈ rest.take (numberRun rest).length, c ∉ marks := by
  have digit {c : Char} (h : (Text.isAsciiDigit c || decide (c = '.') || decide (c = '_')) = true) :
      c ∉ marks :=
    not_mem_marks (p := fun c => Text.isAsciiDigit c || decide (c = '.') || decide (c = '_'))
      (by decide) h
  induction rest using Script.numberRun.induct with
  | case1 c d rest part ih =>
    rw [numberRun, if_pos part]
    exact List.forall_mem_cons.mpr ⟨digit part, ih⟩
  | case2 c d rest noPart exponent ih =>
    rw [numberRun, if_neg noPart, if_pos exponent]
    obtain ⟨mark, sign⟩ := Bool.and_eq_true_iff.mp exponent
    have first : c ∉ marks :=
      not_mem_marks (p := fun c => decide (c = 'e') || decide (c = 'E')) (by decide) mark
    have second : d ∉ marks := not_mem_marks
      (p := fun d => Text.isAsciiDigit d || decide (d = '-') || decide (d = '+')) (by decide) sign
    exact List.forall_mem_cons.mpr ⟨first, List.forall_mem_cons.mpr ⟨second, ih⟩⟩
  | case3 c d rest noPart noExponent =>
    rw [numberRun, if_neg noPart, if_neg noExponent]
    exact List.forall_mem_nil _
  | case4 c part =>
    rw [numberRun, if_pos part]
    exact List.forall_mem_singleton.mpr (digit part)
  | case5 c noPart =>
    rw [numberRun, if_neg noPart]
    exact List.forall_mem_nil _
  | case6 => exact List.forall_mem_nil _

theorem plain_scanNumber {text : List Char} {token : Script.Token} {k : Nat}
    (h : scanNumber text = .ok (token, k)) : ∀ c ∈ text.take k, c ∉ marks := by
  have decimal {text : List Char} (h : scanNumber.decimal text = .ok (token, k)) :
      ∀ c ∈ text.take k, c ∉ marks := by
    simp only [scanNumber.decimal] at h
    repeat' split at h
    all_goals
      cases h
      try exact plain_numberRun
  unfold scanNumber at h
  split at h
  · next x rest =>
    split_ifs at h with hex
    · simp only at h
      split at h
      · cases h
      · cases h
        have digits : rest.take (rest.takeWhile Text.isAsciiHexDigit).length =
            rest.takeWhile Text.isAsciiHexDigit :=
          (List.prefix_iff_eq_take.mp (List.takeWhile_prefix _)).symm
        rw [Nat.add_comm, List.take_succ_cons, List.take_succ_cons, digits]
        refine List.forall_mem_cons.mpr ⟨by decide, List.forall_mem_cons.mpr ⟨?_, ?_⟩⟩
        · rcases hex with rfl | rfl <;> decide
        · exact fun c member => not_mem_marks (by decide) (List.mem_takeWhile_imp member)
    · exact decimal h
  · exact decimal h

theorem plain_scanPunctuation {c : Char} {rest : List Char} {token : Script.Token} {k : Nat}
    (h : scanPunctuation c rest = .ok (token, k)) :
    ∀ d ∈ (c :: rest).take k, d ∉ marks := by
  have operators (op : Script.Operator) : ∀ d ∈ op.text.toList, d ∉ marks := by
    cases op <;> decide
  unfold scanPunctuation at h
  split at h
  · next arrow =>
    cases h
    obtain ⟨rfl, next⟩ := arrow
    obtain ⟨more, rfl⟩ := List.head?_eq_some_iff.mp next
    exact (by decide : ∀ d ∈ ['=', '>'], d ∉ marks)
  · split at h
    · cases h
    · split at h
      · next op found =>
        cases h
        have found : Script.Operator.all.find?
            (fun op => op.text.toList.isPrefixOf (c :: rest)) = some op := found
        have begins : op.text.toList <+: c :: rest := by simpa using List.find?_some found
        rw [← String.length_toList, ← List.prefix_iff_eq_take.mp begins]
        exact operators op
      · split_ifs at h with dot question
        · cases h
          exact List.forall_mem_singleton.mpr (dot ▸ by decide)
        · cases h
          exact List.forall_mem_singleton.mpr (question ▸ by decide)

theorem isBrace_ofWord (word : String) : (Script.Token.ofWord word).isBrace = false := by
  unfold Script.Token.ofWord
  split
  · rfl
  · split_ifs <;> rfl

theorem isBrace_of_scanPunctuation {c : Char} {token : Script.Token} {k : Nat}
    (h : scanPunctuation c rest = .ok (token, k)) : token.isBrace = false := by
  unfold scanPunctuation at h
  repeat' split at h
  all_goals
    cases h
    try rfl

/-- Over a token the search keeps the depth of the token, whatever its depth is. -/
theorem crosses_scanToken {c : Char} {token : Script.Token} {k before after : Nat}
    (scanned : scanToken c rest = .ok (token, k)) (depth : token.braceDepth? before = some after) :
    Crosses (before, none) (after, none) ((c :: rest).take k) := by
  have plain {x : List Char} (same : token.isBrace = false)
      (crosses : Crosses (before, none) (before, none) x) :
      Crosses (before, none) (after, none) x := by
    rw [Script.Token.braceDepth?_plain before same] at depth
    exact Option.some.inj depth ▸ crosses
  have letters {x : List Char} (same : token.isBrace = false) (all : ∀ c ∈ x, c ∉ marks) :
      Crosses (before, none) (after, none) x := plain same (crosses_plains before all)
  unfold scanToken at scanned
  split at scanned
  · next mark found =>
    cases scanned
    unfold Script.mark? at found
    split at found
    · cases found
      cases depth
      exact crosses_open _
    · cases found
      cases before with
      | zero => cases depth
      | succ before =>
        cases depth
        exact crosses_close _
    all_goals
      cases found
      try exact letters rfl (List.forall_mem_singleton.mpr (by decide))
  · split_ifs at scanned with quote template digit name
    · obtain ⟨value, n, body, rfl, rfl⟩ := Scan.map_eq_ok scanned
      refine plain rfl ((crosses_quote before ?_).cons (crosses_stringBody quote body))
      exact quote.imp_right Or.inl
    · subst template
      split at scanned
      · cases scanned
      · next raw n body =>
        cases scanned
        exact plain rfl
          ((crosses_quote before (Or.inr (Or.inr rfl))).cons (crosses_templateBody body))
    · obtain ⟨value, rfl⟩ := Script.scanNumber_eq_ok scanned
      exact letters rfl (plain_scanNumber scanned)
    · cases scanned
      have word : nameRun (c :: rest) <+: c :: rest := List.takeWhile_prefix _
      rw [← List.prefix_iff_eq_take.mp word]
      exact letters (isBrace_ofWord _) fun d member =>
        not_mem_marks (p := Script.isNameChar) (by decide) (List.mem_takeWhile_imp member)
    · exact letters (isBrace_of_scanPunctuation scanned) (plain_scanPunctuation scanned)

end Tokens

/-! Comments, and whole texts. -/

/-- Quotes and braces pair up in a stretch of text: in front of a closing brace, the search ends
there. -/
def IsEnclosed (stretch : List Char) : Prop :=
  bracedLength? 0 none (stretch ++ ['\x7d']) = some stretch.length

instance (stretch : List Char) : Decidable (IsEnclosed stretch) :=
  inferInstanceAs (Decidable (_ = _))

theorem eq_some_of_map_succ {found : Option Nat} {n : Nat}
    (h : found.map (· + 1) = some (n + 1)) : found = some n := by
  obtain ⟨k, rfl, same⟩ := Option.map_eq_some_iff.mp h
  rw [Nat.succ.inj same]

/-- What the search goes over in front of a closing brace, it goes over anywhere. -/
theorem crosses_of_closes (more : Nat) : (x : List Char) → {start : Nat} → {quote : Option Char} →
    bracedLength? start quote (x ++ ['\x7d']) = some x.length →
      Crosses (start + more, quote) (more, none) x
  | [], 0, none, _ => by
    rw [Nat.zero_add]
    exact .nil _
  | [], start + 1, none, h => by
    rw [List.nil_append, bracedLength?_unquoted] at h
    cases h
  | [], start, some q, h => by
    rw [List.nil_append, bracedLength?_quoted start q (by decide)] at h
    cases h
  | c :: rest, start, some q, h => by
    by_cases escape : c = '\\'
    · subst escape
      cases rest with
      | nil => cases h
      | cons d rest =>
        rw [List.cons_append, List.cons_append, bracedLength?] at h
        obtain ⟨n, later, same⟩ := Option.map_eq_some_iff.mp h
        obtain rfl : n = rest.length := by simpa using same
        exact (crosses_escape _ q d).append (crosses_of_closes more rest later)
    · rw [List.cons_append, bracedLength?_quoted start q escape] at h
      have later := eq_some_of_map_succ h
      split_ifs at later with ends
      · subst ends
        exact (crosses_unquote _ escape).cons (crosses_of_closes more rest later)
      · exact (crosses_quoted _ escape ends).cons (crosses_of_closes more rest later)
  | c :: rest, start, none, h => by
    rw [List.cons_append, bracedLength?_unquoted] at h
    split_ifs at h with quote opening closing
    · exact (crosses_quote _ quote).cons (crosses_of_closes more rest (eq_some_of_map_succ h))
    · subst opening
      have deeper := crosses_of_closes more rest (eq_some_of_map_succ h)
      rw [Nat.add_right_comm] at deeper
      exact (crosses_open _).cons deeper
    · subst closing
      cases start with
      | zero => cases h
      | succ start =>
        have outer := crosses_close (start + more)
        rw [Nat.add_right_comm] at outer
        exact outer.cons (crosses_of_closes more rest (eq_some_of_map_succ h))
    · refine (crosses_plain _ ?_).cons (crosses_of_closes more rest (eq_some_of_map_succ h))
      simp only [marks, List.mem_cons, List.not_mem_nil, or_false, not_or]
      simp only [not_or] at quote
      exact ⟨quote.1, quote.2.1, quote.2.2, opening, closing⟩

theorem IsEnclosed.crosses {stretch : List Char} (h : IsEnclosed stretch) (depth : Nat) :
    Crosses (depth, none) (depth, none) stretch := by
  have crosses := crosses_of_closes depth stretch h
  rwa [Nat.zero_add] at crosses

/-- Blanks and enclosed comments leave the search as it is. -/
theorem crosses_gap (depth : Nat) {before n : Nat} {text : List Char}
    (enclosed : ∀ comment ∈ Script.gapComments text, IsEnclosed comment)
    (h : gap before text = .ok n) :
    ∃ k, n = before + k ∧ Crosses (depth, none) (depth, none) (text.take k) := by
  fun_induction gap before text generalizing n with
  | case1 before =>
    cases h
    exact ⟨0, rfl, .nil _⟩
  | case2 before c rest blank ih =>
    rw [Script.gapComments, if_pos blank] at enclosed
    obtain ⟨k, rfl, later⟩ := ih enclosed h
    have plain : c ∉ marks := not_mem_marks (p := Text.isBlank) (by decide) blank
    exact ⟨k + 1, by omega, (crosses_plain depth plain).cons later⟩
  | case3 before c rest visible line =>
    rename_i ih
    rw [Script.gapComments, if_neg visible, if_pos line, List.forall_mem_cons] at enclosed
    obtain ⟨comment, enclosed⟩ := enclosed
    obtain ⟨k, rfl, later⟩ := ih enclosed h
    refine ⟨lineComment rest + k + 1, by omega, ?_⟩
    rw [List.take_succ_cons, List.take_add]
    exact (comment.crosses depth).append later
  | case4 => cases h
  | case5 before c rest visible noLine block size ended ih =>
    rw [Script.gapComments, if_neg visible, if_neg noLine, if_pos block, ended] at enclosed
    obtain ⟨comment, enclosed⟩ := List.forall_mem_cons.mp enclosed
    obtain ⟨k, rfl, later⟩ := ih enclosed h
    refine ⟨1 + size + k + 1, by omega, ?_⟩
    rw [List.take_succ_cons, List.take_add]
    exact (comment.crosses depth).append later
  | case6 =>
    cases h
    exact ⟨0, rfl, .nil _⟩

/-- Over a text the search keeps the depth of its tokens, where its comments are enclosed. -/
theorem crosses_tokens {text : List Char} {tokens : List Script.Token} {before after : Nat}
    (enclosed : ∀ comment ∈ Script.comments text, IsEnclosed comment)
    (cut : tokens? text = some tokens) (depth : braceDepth? before tokens = some after) :
    Crosses (before, none) (after, none) text := by
  induction text using Script.tokens?.induct generalizing tokens before with
  | case1 text fault unended =>
    rw [tokens?, unended] at cut
    cases cut
  | case2 text n skipped spent =>
    rw [tokens?_end skipped spent] at cut
    cases cut
    obtain rfl : before = after := Option.some.inj depth
    rw [Script.comments_end skipped spent] at enclosed
    obtain ⟨k, rfl, gap⟩ := crosses_gap before enclosed skipped
    rw [Nat.zero_add] at spent
    rwa [List.take_of_length_le (List.drop_eq_nil_iff.mp spent)] at gap
  | case3 text n skipped c rest here fault failed =>
    rw [tokens?_cons skipped here, failed] at cut
    cases cut
  | case4 text n skipped c rest here token k scanned ih =>
    rw [tokens?_cons skipped here, scanned] at cut
    obtain ⟨later, remaining, rfl⟩ := Option.map_eq_some_iff.mp cut
    rw [Script.comments_cons skipped here scanned] at enclosed
    obtain ⟨between, first, depth⟩ := Option.bind_eq_some_iff.mp depth
    obtain ⟨ahead, behind⟩ := List.forall_mem_append.mp enclosed
    obtain ⟨j, rfl, gap⟩ := crosses_gap before ahead skipped
    have some := (Script.scanToken_spec scanned).1
    have last : rest.drop (k - 1) = (c :: rest).drop k := by
      obtain ⟨k, rfl⟩ := Nat.exists_eq_add_of_le' some
      rfl
    have pieces : text = text.take j ++ ((c :: rest).take k ++ rest.drop (k - 1)) := by
      rw [last, List.take_append_drop, ← here, Nat.zero_add, List.take_append_drop]
    rw [pieces]
    exact gap.append ((crosses_scanToken scanned first).append (ih behind remaining depth))

/-! The tag, the attribute and the document around an expression. -/

section Around

variable {e : String} {origin : Position} {node : Script.Node} {s : Source} {more : List Char}

/-- The search finds the end of an expression whose comments are enclosed. -/
theorem bracedLength?_of_parseExpression (accepted : Script.parseExpression e origin = .ok node)
    (enclosed : ∀ comment ∈ Script.comments e.toList, IsEnclosed comment) (more : List Char) :
    bracedLength? 0 none (e.toList ++ '\x7d' :: more) = some e.length := by
  obtain ⟨tokens, cut, depth⟩ := Script.braceDepth?_of_parseExpression accepted
  rw [crosses_tokens enclosed cut depth ('\x7d' :: more), bracedLength?_unquoted, ← e.length_toList]
  exact congrArg some (Nat.zero_add _)

theorem mustache_of_parseExpression (accepted : Script.parseExpression e origin = .ok node)
    (visible : Text.isAllBlank e = false)
    (enclosed : ∀ comment ∈ Script.comments e.toList, IsEnclosed comment)
    (h : s.cursor.rest = '\x7b' :: (e.toList ++ '\x7d' :: more)) :
    ∃ expression, Parser.mustache s =
        .ok (⟨s.cursor.pos, Text.trimmed e, expression⟩, s.after (e.length + 2)) ∧
      expression.unplaced = node.unplaced := by
  obtain ⟨expression, again, agree⟩ := Script.parseExpression_agree accepted (s.after 1).cursor.pos
  have inside : (s.after 1).cursor.rest = e.toList ++ '\x7d' :: more := by
    rw [Source.after_rest, h]
    rfl
  have content : String.ofList ((s.after 1).cursor.rest.take e.length) = e := by
    rw [inside, ← e.length_toList, List.take_left]
    exact String.ofList_toList
  have braced : Parser.braced s =
      .ok ((e, (s.after 1).cursor.pos), ((s.after 1).after e.length).after 1) := by
    refine run_bind_eq_ok.mpr ⟨s.cursor.pos, s, rfl, ?_⟩
    refine run_bind_eq_ok.mpr ⟨(), s.after 1, rfl, ?_⟩
    rw [here_bind, rest_bind, inside, bracedLength?_of_parseExpression accepted enclosed more]
    show Except.ok ((String.ofList ((s.after 1).cursor.rest.take e.length), _), _) = _
    rw [content]
    rfl
  refine ⟨expression, ?_, agree.same.symm⟩
  refine run_bind_eq_ok.mpr ⟨s.cursor.pos, s, rfl, ?_⟩
  refine run_bind_eq_ok.mpr ⟨_, _, braced, ?_⟩
  dsimp only
  rw [visible, if_neg Bool.false_ne_true]
  have lifted : liftExpression e (s.after 1).cursor.pos (((s.after 1).after e.length).after 1) =
      .ok (expression, ((s.after 1).after e.length).after 1) := by
    rw [liftExpression, again]
    rfl
  have taken : ((s.after 1).after e.length).after 1 = s.after (e.length + 2) := by
    rw [← s.after_add, ← s.after_add]
    congr 1
    omega
  rw [run_bind, lifted, taken]
  rfl

theorem attribute_of_parseExpression (accepted : Script.parseExpression e origin = .ok node)
    (visible : Text.isAllBlank e = false)
    (enclosed : ∀ comment ∈ Script.comments e.toList, IsEnclosed comment)
    (h : s.cursor.rest = "data=".toList ++ '\x7b' :: (e.toList ++ '\x7d' :: more)) :
    ∃ expression, singleAttribute s =
        .ok (⟨s.cursor.pos, "data", .mustache ⟨(s.after 5).cursor.pos, Text.trimmed e, expression⟩⟩,
          s.after (e.length + 7)) ∧
      expression.unplaced = node.unplaced := by
  have word : s.cursor.rest =
      "data".toList ++ '=' :: '\x7b' :: (e.toList ++ '\x7d' :: more) := h
  have named : name "attribute name" s = .ok ("data", s.after 4) :=
    name_word word (by decide) (by decide) (by decide)
  have equals : (s.after 4).cursor.rest = '=' :: '\x7b' :: (e.toList ++ '\x7d' :: more) := by
    rw [Source.after_rest, h]
    rfl
  have opens : (s.after 5).cursor.rest = '\x7b' :: (e.toList ++ '\x7d' :: more) := by
    rw [Source.after_rest, h]
    rfl
  obtain ⟨expression, read, same⟩ := mustache_of_parseExpression accepted visible enclosed opens
  have value : attributeValue (s.after 5) =
      .ok (.mustache ⟨(s.after 5).cursor.pos, Text.trimmed e, expression⟩,
        (s.after 5).after (e.length + 2)) := by
    rw [attributeValue, here_bind, rest_bind, opens, List.head?_cons]
    refine run_bind_eq_ok.mpr ⟨_, _, read, rfl⟩
  refine ⟨expression, ?_, same⟩
  refine run_bind_eq_ok.mpr ⟨s.cursor.pos, s, rfl, ?_⟩
  refine run_bind_eq_ok.mpr ⟨_, _, named, ?_⟩
  refine run_bind_eq_ok.mpr ⟨(), _, skipBlanks_visible equals (by decide), ?_⟩
  rw [Source.after_zero, rest_bind, equals, List.head?_cons, if_pos rfl]
  refine run_bind_eq_ok.mpr ⟨(), s.after 5, by rw [s.after_add 4 1]; rfl, ?_⟩
  refine run_bind_eq_ok.mpr ⟨(), _, skipBlanks_visible opens (by decide), ?_⟩
  have taken : 5 + (e.length + 2) = e.length + 7 := by omega
  rw [Source.after_zero, run_bind, value, ← s.after_add, taken]
  rfl

theorem skipBlanks_one {c : Char} (h : s.cursor.rest = ' ' :: c :: more)
    (visible : Text.isBlank c = false) : skipBlanks s = .ok ((), s.after 1) := by
  have space : Text.isBlank ' ' = true := by decide
  show Except.ok ((), s.after (s.cursor.rest.takeWhile Text.isBlank).length) = _
  rw [h, List.takeWhile_cons, space, if_pos rfl, List.takeWhile_cons, visible]
  rfl

/-- The attributes of a tag with one value in braces. -/
theorem attributes_of_parseExpression (accepted : Script.parseExpression e origin = .ok node)
    (visible : Text.isAllBlank e = false)
    (enclosed : ∀ comment ∈ Script.comments e.toList, IsEnclosed comment)
    (h : s.cursor.rest =
      " data=".toList ++ '\x7b' :: (e.toList ++ '\x7d' :: (" />".toList ++ more))) :
    ∃ expression, attributes s =
        .ok (([⟨(s.after 1).cursor.pos, "data",
            .mustache ⟨(s.after 6).cursor.pos, Text.trimmed e, expression⟩⟩], true),
          s.after (e.length + 11)) ∧
      expression.unplaced = node.unplaced := by
  have inside : (s.after 1).cursor.rest =
      "data=".toList ++ '\x7b' :: (e.toList ++ '\x7d' :: (" />".toList ++ more)) := by
    rw [Source.after_rest, h]
    rfl
  obtain ⟨expression, read, same⟩ := attribute_of_parseExpression accepted visible enclosed inside
  rw [← s.after_add, ← s.after_add, Nat.add_left_comm] at read
  have first : attributeStep s = .ok (.inl ⟨(s.after 1).cursor.pos, "data",
      .mustache ⟨(s.after 6).cursor.pos, Text.trimmed e, expression⟩⟩, s.after (e.length + 8)) := by
    rw [attributeStep_eq (skipBlanks_one h (by decide)), inside]
    refine (attributeOrEnd_attribute (by decide) (by decide) (by decide) _ _).trans ?_
    rw [read]
    rfl
  have length : s.cursor.rest.length = e.length + (more.length + 11) := by
    rw [h]
    simp [String.length_toList]
    omega
  have behind : (s.after (e.length + 8)).cursor.rest = ' ' :: '/' :: '>' :: more := by
    have pieces : s.cursor.rest =
        (" data=".toList ++ '\x7b' :: (e.toList ++ ['\x7d'])) ++ (" />".toList ++ more) := by
      rw [h]
      simp
    have size : e.length + 8 =
        (" data=".toList ++ '\x7b' :: (e.toList ++ ['\x7d'])).length := by
      simp [String.length_toList]
    rw [Source.after_rest, pieces, size, List.drop_left]
    rfl
  have slash : (s.after (e.length + 9)).cursor.rest = '/' :: '>' :: more := by
    rw [s.after_add (e.length + 8) 1, Source.after_rest, behind]
    rfl
  have angle : ((s.after (e.length + 9)).after 1).cursor.rest = '>' :: more := by
    rw [Source.after_rest, slash]
    rfl
  have last : attributeStep (s.after (e.length + 8)) = .ok (.inr true, s.after (e.length + 11)) := by
    rw [attributeStep_eq (skipBlanks_one behind (by decide)), ← s.after_add, slash,
      attributeOrEnd_slash, expectChar_cons '>' angle, ← s.after_add, ← s.after_add]
    rfl
  refine ⟨expression, ?_, same⟩
  rw [attributes_eq]
  refine repeated_eq_ok.mpr (Or.inr ⟨_, _, first, Or.inl ⟨?_, [], ?_, rfl⟩⟩)
  · rw [Source.after_rest, List.length_drop, length]
    omega
  · exact repeated_eq_ok.mpr (Or.inl ⟨last, rfl⟩)

variable {deeper : Position → Bool → Parser (List Node × Terminator)}
variable {ifBlock : Bool → String → Position → Parser Node}

theorem step_of_parseExpression (inElement : Bool)
    (accepted : Script.parseExpression e origin = .ok node) (visible : Text.isAllBlank e = false)
    (enclosed : ∀ comment ∈ Script.comments e.toList, IsEnclosed comment)
    (h : s.cursor.rest =
      "<Chart data=".toList ++ '\x7b' :: (e.toList ++ '\x7d' :: (" />".toList ++ more))) :
    ∃ expression, step deeper ifBlock inElement s = .ok (.inl (some (.element s.cursor.pos "Chart"
        [⟨(s.after 7).cursor.pos, "data",
          .mustache ⟨(s.after 12).cursor.pos, Text.trimmed e, expression⟩⟩] [])),
        s.after (e.length + 17)) ∧
      expression.unplaced = node.unplaced := by
  have word : (s.after 1).cursor.rest = "Chart".toList ++
      ' ' :: ("data=".toList ++ '\x7b' :: (e.toList ++ '\x7d' :: (" />".toList ++ more))) := by
    rw [Source.after_rest, h]
    rfl
  have inside : (s.after 6).cursor.rest =
      " data=".toList ++ '\x7b' :: (e.toList ++ '\x7d' :: (" />".toList ++ more)) := by
    rw [Source.after_rest, h]
    rfl
  have named : name "tag name" (s.after 1) = .ok ("Chart", (s.after 1).after 5) :=
    name_word word (by decide) (by decide) (by decide)
  have lowered : ¬ ("Chart".toLower = "script" ∨ "Chart".toLower = "style") := by decide +kernel
  obtain ⟨expression, read, same⟩ := attributes_of_parseExpression accepted visible enclosed inside
  rw [← s.after_add, ← s.after_add, ← s.after_add, Nat.add_left_comm] at read
  refine ⟨expression, ?_, same⟩
  have element : element deeper inElement s = .ok (some (.element s.cursor.pos "Chart"
      [⟨(s.after 7).cursor.pos, "data",
        .mustache ⟨(s.after 12).cursor.pos, Text.trimmed e, expression⟩⟩] []),
      s.after (e.length + 17)) := by
    rw [element_run, named]
    show afterName deeper inElement s.cursor.pos "Chart" ((s.after 1).after 5) = _
    rw [← s.after_add, afterName, if_neg lowered]
    exact run_bind_eq_ok.mpr ⟨_, _, read, rfl⟩
  rw [step_run, h]
  show (do return .inl (← Productions.element deeper inElement) :
    Parser (Option Node ⊕ Terminator)) s = _
  rw [run_bind, element]
  rfl

end Around

/-- An expression whose comments are enclosed can stand as the value of an attribute, and is parsed there
as it is by itself. -/
theorem parse_of_parseExpression {e : String} {origin : Position} {node : Script.Node}
    (accepted : Script.parseExpression e origin = .ok node) (visible : Text.isAllBlank e = false)
    (enclosed : ∀ comment ∈ Script.comments e.toList, IsEnclosed comment) :
    ∃ expression, parse ("<Chart data=\x7b" ++ e ++ "\x7d />") = .ok ⟨none, [.element ⟨1, 1, 0⟩ "Chart"
        [⟨⟨1, 8, 7⟩, "data", .mustache ⟨⟨1, 13, 12⟩, Text.trimmed e, expression⟩⟩] []]⟩ ∧
      expression.unplaced = node.unplaced := by
  have text : ("<Chart data=\x7b" ++ e ++ "\x7d />").toList =
      "<Chart data=".toList ++ '\x7b' :: (e.toList ++ '\x7d' :: (" />".toList ++ [])) := by
    simp
  generalize "<Chart data=\x7b" ++ e ++ "\x7d />" = source at text ⊢
  generalize start : (⟨.ofText source .start, none⟩ : Source) = s
  have rest : s.cursor.rest = source.toList := by
    rw [← start]
    rfl
  obtain ⟨expression, first, same⟩ := @step_of_parseExpression _ _ _ s []
    (fun _ => (atLevel 63).children) (branches (atLevel 63)) false accepted visible enclosed
    (rest.trans text)
  refine ⟨expression, ?_, same⟩
  have length : s.cursor.rest.length = e.length + 17 := by
    rw [rest, text]
    simp [String.length_toList]
  have spent : (s.after (e.length + 17)).cursor.rest = [] := by
    rw [Source.after_rest, ← length, List.drop_length]
  have last : step (fun _ => (atLevel 63).children) (branches (atLevel 63)) false
      (s.after (e.length + 17)) = .ok (.inr .endOfText, s.after (e.length + 17)) := by
    rw [step_run, spent]
    rfl
  have place (n : Nat) : (s.after n).cursor.pos = Position.start.advance (source.toList.take n) := by
    rw [← start]
    rfl
  have tag : s.cursor.pos = ⟨1, 1, 0⟩ := by
    rw [← start]
    rfl
  have field : (s.after 7).cursor.pos = ⟨1, 8, 7⟩ := by
    rw [place, text]
    rfl
  have value : (s.after 12).cursor.pos = ⟨1, 13, 12⟩ := by
    rw [place, text]
    rfl
  rw [tag, field, value] at first
  generalize Node.element _ _ _ _ = chart at first ⊢
  refine parse_eq_ok.mpr ⟨[chart], s.after (e.length + 17), ?_, ?_⟩
  · rw [start]
    show childrenUntil (fun _ => (atLevel 63).children) (branches (atLevel 63)) false _ = _
    rw [childrenUntil_eq]
    refine run_bind_eq_ok.mpr ⟨_, _, repeated_eq_ok.mpr (Or.inr ⟨_, _, first,
      Or.inl ⟨?_, [], repeated_eq_ok.mpr (Or.inl ⟨last, rfl⟩), rfl⟩⟩), rfl⟩
    rw [spent, length]
    exact Nat.succ_pos _
  · rw [← start]
    rfl

/-- An array with a brace in a string, and a comment with a pair of braces. -/
def annotated : String := "[total, \x22\x7d\x22] /* \x7btotal\x7d */"

theorem parse_of_parseExpression_annotated : ∃ node expression,
    Script.parseExpression annotated .start = .ok node ∧
      parse ("<Chart data=\x7b" ++ annotated ++ "\x7d />") = .ok ⟨none, [.element ⟨1, 1, 0⟩ "Chart"
        [⟨⟨1, 8, 7⟩, "data", .mustache ⟨⟨1, 13, 12⟩, Text.trimmed annotated, expression⟩⟩] []]⟩ ∧
      expression.unplaced = node.unplaced := by
  have accepted : (Script.parseExpression annotated .start).toOption.isSome = true := by
    decide +kernel
  obtain ⟨node, accepted⟩ := Option.isSome_iff_exists.mp accepted
  have accepted := toOption_eq_some.mp accepted
  obtain ⟨expression, parsed, same⟩ :=
    parse_of_parseExpression accepted (by decide) (by decide +kernel)
  exact ⟨node, expression, accepted, parsed, same⟩

/-- The apostrophe of a comment opens a quote for the search, and the closing brace is not found. -/
theorem parse_apostrophe : (∃ node, Script.parseExpression "1 /* it's */" .start = .ok node) ∧
    Text.isAllBlank "1 /* it's */" = false ∧
    parse ("<Chart data=\x7b" ++ "1 /* it's */" ++ "\x7d />") =
      .error ⟨.unterminatedBrace, ⟨1, 13, 12⟩⟩ := by
  have accepted : (Script.parseExpression "1 /* it's */" .start).toOption.isSome = true := by
    decide +kernel
  obtain ⟨node, accepted⟩ := Option.isSome_iff_exists.mp accepted
  refine ⟨⟨node, toOption_eq_some.mp accepted⟩, by decide, ?_⟩
  have failed : (parse ("<Chart data=\x7b" ++ "1 /* it's */" ++ "\x7d />")).map (fun _ => ()) =
      .error ⟨.unterminatedBrace, ⟨1, 13, 12⟩⟩ := by
    decide +kernel
  exact map_eq_error.mp failed

end Dashboard.Markup
