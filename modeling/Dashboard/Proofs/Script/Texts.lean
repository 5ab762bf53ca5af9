import Dashboard.Proofs.Script.Parsing

/-!
Whole texts of the script language. An expression is parsed alike wherever it stands, a reference to
an input is read as one, and a script behind the standard imports goes on as it does by itself.
-/
namespace Dashboard.Script

open Dashboard.Script.Parser Dashboard.Script.Productions
open Node (moved movedAll unplacedAll unplaced_moved)

/-- The same tree up to places, and a plain one. -/
structure Agree (levels : Nat) (v w : Node) : Prop where
  same : v.unplaced = w.unplaced
  plain : v.IsPlain levels

abbrev AgreeAll (levels : Nat) : List Node → List Node → Prop := List.Forall₂ (Agree levels)

theorem AgreeAll.same {levels : Nat} {vs ws : List Node} (agree : AgreeAll levels vs ws) :
    unplacedAll vs = unplacedAll ws := by
  induction agree with
  | nil => rfl
  | cons first _ ih => rw [unplacedAll, unplacedAll, first.same, ih]

theorem Alike.agree {f : Position → Position} {levels : Nat} {v w : Node} (alike : Alike f levels v w) :
    Agree levels v w :=
  ⟨by rw [alike.same, unplaced_moved], alike.plain⟩

theorem isClean_of_lexemes {text : List Char} {p : Position} {found : List Lexeme × Position}
    (h : lexemes p text = .ok found) : Tokens.IsClean ⟨found.1, found.2⟩ := fun _ member =>
  isClean_of_tokens? (tokens?_eq_some h) _ (List.mem_map_of_mem member)

theorem follows_wholeExpression (f : Position → Position) :
    Follows f (Alike f maxNesting) wholeExpression wholeExpression := by
  refine (follow_entered f maxNesting).assignment.bind fun v w alike => ?_
  refine follows_peek.bind fun next other same => ?_
  obtain ⟨rfl, -⟩ := same
  split
  · exact .pure alike
  · exact .unexpected _ _

theorem parseText_eq_ok {parser : Parser Node} {text : String} {origin : Position} {v : Node} :
    parseText parser text origin = .ok v ↔
      ∃ found, lexemes origin text.toList = .ok found ∧
        ∃ s, parser ⟨found.1, found.2⟩ = .ok (v, s) := by
  constructor
  · intro h
    obtain ⟨found, cut, rest⟩ := bind_eq_ok.mp h
    obtain ⟨⟨w, s⟩, ran, last⟩ := bind_eq_ok.mp rest
    cases last
    exact ⟨found, cut, s, ran⟩
  · rintro ⟨found, cut, s, ran⟩
    exact bind_eq_ok.mpr ⟨found, cut, bind_eq_ok.mpr ⟨(v, s), ran, rfl⟩⟩

/-- A text that is parsed is parsed at any other place too, by a parser that follows. -/
theorem parseText_follows {R : Node → Node → Prop} {parser other : Parser Node} {text : String}
    {origin target : Position} {v : Node} (follows : Follows (.shift origin target) R parser other)
    (h : parseText parser text origin = .ok v) :
    ∃ w, parseText other text target = .ok w ∧ R v w := by
  obtain ⟨found, cut, s, ran⟩ := parseText_eq_ok.mp h
  obtain ⟨w, second, related, -⟩ := follows _ (isClean_of_lexemes cut) v s ran
  exact ⟨w, parseText_eq_ok.mpr ⟨_, lexemes_moved cut target, _, second⟩, related⟩

/-- An expression is parsed alike wherever it stands. -/
theorem parseExpression_agree {text : String} {p : Position} {v : Node}
    (h : parseExpression text p = .ok v) (q : Position) :
    ∃ w, parseExpression text q = .ok w ∧ Agree maxNesting v w := by
  obtain ⟨w, again, alike⟩ := parseText_follows (follows_wholeExpression (.shift p q)) h
  exact ⟨w, again, alike.agree⟩

theorem propertyName_eq_ok {token : Token} {name : String} (h : token.propertyName? = some name)
    (p : Position) (rest : List Lexeme) (stop : Position) :
    Parser.propertyName ⟨⟨token, p⟩ :: rest, stop⟩ = .ok (name, ⟨rest, stop⟩) := by
  simp [-bind_pure_comp, propertyName, peek, Parser.skip, h, run_bind, run_pure, ok_bind]

theorem wholeExpression_reference {token : Token} {name : String}
    (h : token.propertyName? = some name) (a b c stop : Position) :
    wholeExpression ⟨[⟨.identifier "inputs", a⟩, ⟨.dot, b⟩, ⟨token, c⟩], stop⟩ =
      .ok (.member a (.identifier a "inputs") (.identifier c name) false, ⟨[], stop⟩) := by
  let whole : Node := .member a (.identifier a "inputs") (.identifier c name) false
  have chain : postfixChain (entered 63) 63 (.identifier a "inputs")
      ⟨[⟨.dot, b⟩, ⟨token, c⟩], stop⟩ = .ok (whole, ⟨[], stop⟩) := by
    rw [postfixChain]
    show (propertyName >>= fun name => postfixChain (entered 63) 62
      (.member a (.identifier a "inputs") (.identifier c name) false)) ⟨[⟨token, c⟩], stop⟩ = _
    rw [run_bind, propertyName_eq_ok h, ok_bind, postfixChain]
    rfl
  have binary : binaryBody 63 (entered 63) 1
      ⟨[⟨.identifier "inputs", a⟩, ⟨.dot, b⟩, ⟨token, c⟩], stop⟩ = .ok (whole, ⟨[], stop⟩) := by
    refine run_bind_eq_ok.mpr ⟨a, _, rfl, run_bind_eq_ok.mpr ⟨whole, _, chain, ?_⟩⟩
    rw [binaryChain]
    rfl
  have conditional : conditional 63 (entered 63)
      ⟨[⟨.identifier "inputs", a⟩, ⟨.dot, b⟩, ⟨token, c⟩], stop⟩ = .ok (whole, ⟨[], stop⟩) :=
    run_bind_eq_ok.mpr ⟨a, _, rfl, run_bind_eq_ok.mpr ⟨whole, _, binary, rfl⟩⟩
  have assignment : assignmentBody 63 (entered 63)
      ⟨[⟨.identifier "inputs", a⟩, ⟨.dot, b⟩, ⟨token, c⟩], stop⟩ = .ok (whole, ⟨[], stop⟩) :=
    run_bind_eq_ok.mpr ⟨_, _, rfl, run_bind_eq_ok.mpr ⟨a, _, rfl,
      run_bind_eq_ok.mpr ⟨whole, _, conditional, rfl⟩⟩⟩
  exact run_bind_eq_ok.mpr ⟨whole, _, assignment, rfl⟩

/-- A reference to an input is read as such, whatever blanks stand around it. -/
theorem inputName?_of_parseExpression {text : String} {name before after : List Char}
    (shape : text.toList = before ++ ("inputs.".toList ++ name) ++ after)
    (hb : before.all Text.isBlank = true) (ha : after.all Text.isBlank = true)
    (h : Placeholder.isIdentifier name = true) {p : Position} {v : Node}
    (parsed : parseExpression text p = .ok v) : v.inputName? = some (String.ofList name) := by
  obtain ⟨found, cut, s, ran⟩ := parseText_eq_ok.mp parsed
  have tokens := tokens?_eq_some cut
  rw [shape, tokens?_reference h hb ha] at tokens
  obtain ⟨lexemes, stop⟩ := found
  have same : lexemes.map Lexeme.token =
      [.identifier "inputs", .dot, .ofWord (String.ofList name)] := (Option.some.inj tokens).symm
  obtain ⟨⟨_, a⟩, _, rfl, rfl, second⟩ := List.map_eq_cons_iff.mp same
  obtain ⟨⟨_, b⟩, _, rfl, rfl, third⟩ := List.map_eq_cons_iff.mp second
  obtain ⟨⟨_, c⟩, _, rfl, rfl, spent⟩ := List.map_eq_cons_iff.mp third
  obtain rfl := List.map_eq_nil_iff.mp spent
  rw [wholeExpression_reference (propertyName?_ofWord _)] at ran
  cases ran
  rfl

theorem exists_parseExpression_reference {text : String} {name before after : List Char}
    (shape : text.toList = before ++ ("inputs.".toList ++ name) ++ after)
    (hb : before.all Text.isBlank = true) (ha : after.all Text.isBlank = true)
    (h : Placeholder.isIdentifier name = true) (p : Position) :
    ∃ v, parseExpression text p = .ok v := by
  obtain ⟨⟨lexemes, stop⟩, cut, same⟩ := exists_lexemes (tokens?_reference h hb ha) p
  rw [← shape] at cut
  obtain ⟨⟨_, a⟩, _, rfl, rfl, second⟩ := List.map_eq_cons_iff.mp same
  obtain ⟨⟨_, b⟩, _, rfl, rfl, third⟩ := List.map_eq_cons_iff.mp second
  obtain ⟨⟨_, c⟩, _, rfl, rfl, spent⟩ := List.map_eq_cons_iff.mp third
  obtain rfl := List.map_eq_nil_iff.mp spent
  exact ⟨_, parseText_eq_ok.mpr
    ⟨_, cut, _, wholeExpression_reference (propertyName?_ofWord _) a b c stop⟩⟩

/-! Programs behind the standard imports. -/

theorem statementBody_import (inner : Productions) (name : String) (a b c d : Position)
    (rest : List Lexeme) (stop : Position) :
    statementBody inner ⟨⟨.keyword .importWord, a⟩ :: ⟨.identifier name, b⟩ ::
        ⟨.identifier "from", c⟩ :: ⟨.string name, d⟩ :: rest, stop⟩ =
      .ok (.imports a [.defaultSpecifier b (.identifier b name)] (.literal d (.str name)),
        ⟨rest, stop⟩) := by
  simp [-bind_pure_comp, statementBody, declaration?, importDeclaration, importClause,
    Parser.identifier, accept, namespaceOrNamed, word, expect, peek, here, skip, run_bind, run_pure,
    ok_bind]

/-- The import of a module under its own name. -/
def importNode (name : String) : Node :=
  .imports .start [.defaultSpecifier .start (.identifier .start name)] (.literal .start (.str name))

/-- The lexemes without the semicolons in front. -/
def afterSemicolons (ls : List Lexeme) : List Lexeme := ls.dropWhile fun l => l.token = .semicolon

theorem statementsUntil_import (inner : Productions) {name : String}
    (plain : Token.ofWord name = .identifier name) {front : List Lexeme}
    (shape : front.map Lexeme.token = importTokens name) (rest : List Lexeme) (stop : Position) :
    ∃ node : Node, node.unplaced = importNode name ∧
      statementsUntil none (statementBody inner) ⟨front ++ rest, stop⟩ =
        (statementsUntil none (statementBody inner) ⟨afterSemicolons rest, stop⟩).map
          fun found => (node :: found.1, found.2) := by
  rw [importTokens, plain] at shape
  obtain ⟨⟨_, a⟩, _, rfl, rfl, second⟩ := List.map_eq_cons_iff.mp shape
  obtain ⟨⟨_, b⟩, _, rfl, rfl, third⟩ := List.map_eq_cons_iff.mp second
  obtain ⟨⟨_, c⟩, _, rfl, rfl, fourth⟩ := List.map_eq_cons_iff.mp third
  obtain ⟨⟨_, d⟩, _, rfl, rfl, fifth⟩ := List.map_eq_cons_iff.mp fourth
  obtain ⟨⟨_, e⟩, _, rfl, rfl, spent⟩ := List.map_eq_cons_iff.mp fifth
  obtain rfl := List.map_eq_nil_iff.mp spent
  refine ⟨.imports a [.defaultSpecifier b (.identifier b name)] (.literal d (.str name)), rfl, ?_⟩
  have first : (do let first ← statementBody inner; skipSemicolons; return first : Parser Node)
      ⟨⟨.keyword .importWord, a⟩ :: ⟨.identifier name, b⟩ :: ⟨.identifier "from", c⟩ ::
        ⟨.string name, d⟩ :: ⟨.semicolon, e⟩ :: rest, stop⟩ =
      .ok (.imports a [.defaultSpecifier b (.identifier b name)] (.literal d (.str name)),
        ⟨afterSemicolons rest, stop⟩) := by
    refine run_bind_eq_ok.mpr ⟨_, _, statementBody_import inner name a b c d _ stop, ?_⟩
    simp [skipSemicolons, afterSemicolons, run_bind, run_pure, ok_bind]
  have shorter : (afterSemicolons rest).length < rest.length + 5 :=
    Nat.lt_of_le_of_lt (List.dropWhile_suffix _).length_le (by omega)
  rw [statementsUntil]
  simp only [List.cons_append, List.nil_append, first, List.length_cons, List.head?_cons,
    Option.map_some, reduceCtorEq, or_self, if_false, shorter, if_true]
  cases statementsUntil none (statementBody inner) ⟨afterSemicolons rest, stop⟩ <;> rfl

/-- Behind a line of imports for each name a program goes on as it does by itself. -/
theorem statementsUntil_imports (inner : Productions) {names : List String}
    (plain : ∀ name ∈ names, Token.ofWord name = .identifier name) {front : List Lexeme}
    (shape : front.map Lexeme.token = names.flatMap importTokens) (rest : List Lexeme)
    (stop : Position) :
    ∃ nodes : List Node, unplacedAll nodes = names.map importNode ∧
      statementsUntil none (statementBody inner) ⟨afterSemicolons (front ++ rest), stop⟩ =
        (statementsUntil none (statementBody inner) ⟨afterSemicolons rest, stop⟩).map
          fun found => (nodes ++ found.1, found.2) := by
  induction names generalizing front with
  | nil =>
    obtain rfl := List.map_eq_nil_iff.mp shape
    refine ⟨[], rfl, ?_⟩
    rw [List.nil_append]
    cases statementsUntil none (statementBody inner) ⟨afterSemicolons rest, stop⟩ <;> rfl
  | cons name more ih =>
    rw [List.flatMap_cons] at shape
    obtain ⟨line, others, rfl, first, later⟩ := List.map_eq_append_iff.mp shape
    obtain ⟨nodes, same, ran⟩ := ih (fun other member => plain other (List.mem_cons_of_mem _ member)) later
    obtain ⟨node, here, step⟩ := statementsUntil_import inner (plain name (by simp)) first
      (others ++ rest) stop
    refine ⟨node :: nodes, by rw [unplacedAll, here, same, List.map_cons], ?_⟩
    have kept : afterSemicolons (line ++ others ++ rest) = line ++ (others ++ rest) := by
      rw [List.append_assoc]
      cases line with
      | nil => cases first
      | cons l ls =>
        have token : l.token = .keyword .importWord := (List.cons.inj first).1
        exact List.dropWhile_cons_of_neg (by simp [token])
    rw [kept, step, ran]
    cases statementsUntil none (statementBody inner) ⟨afterSemicolons rest, stop⟩ <;> rfl

theorem program_eq (origin : Position) (ls : List Lexeme) (stop : Position) :
    program origin ⟨ls, stop⟩ =
      (statementsUntil none (statementBody (entered 63)) ⟨afterSemicolons ls, stop⟩).map
        fun found => (.program origin found.1, found.2) := by
  have start : program origin ⟨ls, stop⟩ =
      statementsUntil none (statementBody (entered 63)) ⟨afterSemicolons ls, stop⟩ >>=
        fun found => .ok (.program origin found.1, found.2) := rfl
  rw [start]
  cases statementsUntil none (statementBody (entered 63)) ⟨afterSemicolons ls, stop⟩ <;> rfl

theorem parseScript_eq_ok {text : String} {p : Position} {v : Node} :
    parseScript text p = .ok v ↔ ∃ found body s, lexemes p text.toList = .ok found ∧
      statementsUntil none (statementBody (entered 63)) ⟨afterSemicolons found.1, found.2⟩ =
        .ok (body, s) ∧ v = .program p body := by
  rw [parseScript, parseText_eq_ok]
  simp only [program_eq]
  constructor
  · rintro ⟨found, cut, s, ran⟩
    obtain ⟨⟨body, u⟩, statements, last⟩ := map_eq_ok.mp ran
    cases last
    exact ⟨found, body, u, cut, statements, rfl⟩
  · rintro ⟨found, body, s, cut, statements, rfl⟩
    exact ⟨found, cut, s, map_eq_ok.mpr ⟨(body, s), statements, rfl⟩⟩

/-- A script is parsed as a program that begins where the script does. -/
theorem eq_program_of_parseScript {text : String} {p : Position} {v : Node}
    (h : parseScript text p = .ok v) : ∃ body, v = .program p body := by
  obtain ⟨found, body, s, -, -, same⟩ := parseScript_eq_ok.mp h
  exact ⟨body, same⟩

/-- A program goes on as it does by itself where the standard imports are cut in front of it. -/
theorem parseScript_behind {text raw : String} {piece : List Char}
    (cuts : Cuts piece (Registry.displayNames.flatMap importTokens) raw.toList)
    (shape : text.toList = piece ++ raw.toList) (p : Position) :
    ∃ front, unplacedAll front = Registry.displayNames.map importNode ∧ ∀ v,
      parseScript text p = .ok v ↔ ∃ body, v = .program p (front ++ body) ∧
        parseScript raw (p.advance piece) = .ok (.program (p.advance piece) body) := by
  have plain : ∀ name ∈ Registry.displayNames, Token.ofWord name = .identifier name := by
    decide
  obtain ⟨ls, tokens, cut⟩ := cuts p
  rw [← shape] at cut
  simp only [parseScript_eq_ok]
  cases rest : lexemes (p.advance piece) raw.toList with
  | error e =>
    rw [rest] at cut
    refine ⟨Registry.displayNames.map importNode, rfl, fun v => ⟨?_, ?_⟩⟩
    · rintro ⟨found, body, s, again, -⟩
      cases cut.symm.trans again
    · rintro ⟨body, -, found, own, s, again, -⟩
      cases again
  | ok found =>
    rw [rest] at cut
    obtain ⟨front, same, step⟩ :=
      statementsUntil_imports (entered 63) plain tokens found.1 found.2
    refine ⟨front, same, fun v => ⟨?_, ?_⟩⟩
    · rintro ⟨whole, body, s, again, ran, rfl⟩
      cases cut.symm.trans again
      rw [step] at ran
      obtain ⟨⟨own, u⟩, statements, last⟩ := map_eq_ok.mp ran
      cases last
      exact ⟨own, rfl, found, own, u, rfl, statements, rfl⟩
    · rintro ⟨body, rfl, _, own, s, again, statements, same⟩
      cases again
      cases same
      refine ⟨_, front ++ body, s, cut, ?_, rfl⟩
      rw [step, statements]
      rfl

theorem follows_program (f : Position → Position) (origin : Position) :
    Follows f (fun v w => w = v.moved f ∧ ∀ body, v = .program origin body →
      ∀ node ∈ body, node.IsPlain maxNesting) (program origin) (program (f origin)) := by
  refine follows_skipSemicolons.bind fun _ _ _ => ?_
  refine (follows_statementsUntil none (follow_entered f maxNesting).statement).bind
    fun body other alike => .pure ⟨?_, ?_⟩
  · rw [moved, AlikeAll.same alike]
  · rintro _ ⟨⟩
    exact AlikeAll.plain alike

/-- A script that begins at another place is parsed into the same program, which moves along. -/
theorem parseScript_moved {text : String} {origin : Position} {body : List Node}
    (h : parseScript text origin = .ok (.program origin body)) (target : Position) :
    parseScript text target = .ok (.program target (movedAll (.shift origin target) body)) ∧
      ∀ node ∈ body, node.IsPlain maxNesting := by
  have start : Position.shift origin target origin = target :=
    Position.shift_advance origin target []
  have follows := follows_program (.shift origin target) origin
  rw [start] at follows
  obtain ⟨w, again, same, plain⟩ := parseText_follows follows h
  rw [moved, start] at same
  exact ⟨same ▸ again, plain body rfl⟩

/-- The statements of a parsed script are plain. -/
theorem isPlain_of_parseScript {text : String} {p q : Position} {body : List Node}
    (h : parseScript text p = .ok (.program q body)) : ∀ node ∈ body, node.IsPlain maxNesting := by
  obtain ⟨statements, same⟩ := eq_program_of_parseScript h
  cases same
  exact (parseScript_moved h p).2

theorem agreeAll_moved {levels : Nat} {body : List Node} (plain : ∀ node ∈ body, node.IsPlain levels)
    (f : Position → Position) : AgreeAll levels body (movedAll f body) := by
  induction body with
  | nil => exact .nil
  | cons first more ih =>
    obtain ⟨here, later⟩ := List.forall_mem_cons.mp plain
    exact .cons (Alike.agree ⟨rfl, here⟩) (ih later)

/-- A script behind the standard imports: the imports, and then the statements of the script. -/
theorem parseScript_standardImports {text raw : String} {p q : Position} {v : Node}
    (shape : text.toList = '\n' :: (standardImports.toList ++ '\n' :: raw.toList))
    (h : parseScript raw p = .ok v) :
    ∃ body front rest, v = .program p body ∧ parseScript text q = .ok (.program q (front ++ rest)) ∧
      unplacedAll front = Registry.displayNames.map importNode ∧ AgreeAll maxNesting body rest := by
  have lineFeed : Text.isBlank '\n' = true := by decide
  have cuts := (cuts_blank lineFeed _).append (cuts_standardImports raw.toList)
  have split : text.toList = ['\n'] ++ (standardImports.toList ++ ['\n']) ++ raw.toList := by
    simp [shape]
  obtain ⟨front, same, behind⟩ := parseScript_behind cuts split q
  obtain ⟨body, rfl⟩ := eq_program_of_parseScript h
  obtain ⟨again, plain⟩ := parseScript_moved h (q.advance (['\n'] ++ (standardImports.toList ++ ['\n'])))
  exact ⟨body, front, _, rfl, (behind _).mpr ⟨_, rfl, again⟩, same, agreeAll_moved plain _⟩

theorem parseScript_empty (p : Position) : parseScript "" p = .ok (.program p []) := by
  have none : gap 0 [] = .ok 0 := by simp [gap]
  have cut : lexemes p [] = .ok ([], p) := lexemes_end p none List.drop_nil
  refine parseText_eq_ok.mpr ⟨([], p), cut, ⟨[], p⟩, ?_⟩
  rw [program_eq, statementsUntil]
  rfl

theorem parseScript_standardImports_alone {text : String} (q : Position)
    (shape : text.toList = '\n' :: (standardImports.toList ++ ['\n'])) :
    ∃ front, parseScript text q = .ok (.program q front) ∧
      unplacedAll front = Registry.displayNames.map importNode := by
  obtain ⟨body, front, rest, empty, parsed, same, agree⟩ :=
    @parseScript_standardImports text "" .start q _ shape (parseScript_empty .start)
  cases empty
  cases agree
  rw [List.append_nil] at parsed
  exact ⟨front, parsed, same⟩

end Dashboard.Script
