import Dashboard.Proofs.Outline
import Dashboard.Proofs.Script.Grammar
import Dashboard.Proofs.Script.Parsing

/-!
How far the productions reach: the braces among the tokens they take come in pairs, and their trees
are only so high. The levels that remain bound the depth of the recursion and the length of every
chain, so they bound the height of a tree.
-/
namespace Dashboard.Script

/-- How deep in braces the text is after a token; none where a brace closes that is not open. -/
def Token.braceDepth? : Nat → Token → Option Nat
  | depth, .openBrace => some (depth + 1)
  | 0, .closeBrace => none
  | depth + 1, .closeBrace => some depth
  | depth, _ => some depth

def braceDepth? (depth : Nat) (tokens : List Token) : Option Nat :=
  tokens.foldlM Token.braceDepth? depth

theorem Token.braceDepth?_add {before after : Nat} {token : Token} (more : Nat)
    (h : token.braceDepth? before = some after) :
    token.braceDepth? (before + more) = some (after + more) := by
  cases token
  case openBrace =>
    cases h
    rw [Token.braceDepth?, Nat.add_right_comm]
  case closeBrace =>
    cases before with
    | zero => cases h
    | succ before =>
      cases h
      rw [Nat.add_right_comm]
      rfl
  all_goals
    cases h
    rfl

/-- What is open around some tokens stays open. -/
theorem braceDepth?_add {before after : Nat} {tokens : List Token} (more : Nat)
    (h : braceDepth? before tokens = some after) :
    braceDepth? (before + more) tokens = some (after + more) := by
  induction tokens generalizing before with
  | nil =>
    cases h
    rfl
  | cons token rest ih =>
    obtain ⟨between, first, later⟩ := Option.bind_eq_some_iff.mp h
    exact Option.bind_eq_some_iff.mpr ⟨_, Token.braceDepth?_add more first, ih later⟩

theorem braceDepth?_append {before between after : Nat} {as bs : List Token}
    (first : braceDepth? before as = some between) (second : braceDepth? between bs = some after) :
    braceDepth? before (as ++ bs) = some after := by
  rw [braceDepth?, List.foldlM_append]
  exact Option.bind_eq_some_iff.mpr ⟨between, first, second⟩

def Token.isBrace : Token → Bool
  | .openBrace | .closeBrace => true
  | _ => false

theorem Token.braceDepth?_plain {token : Token} (depth : Nat) (h : token.isBrace = false) :
    token.braceDepth? depth = some depth := by
  cases token <;> first | rfl | cases h

theorem braceDepth?_singleton {token : Token} (depth : Nat) (h : token.isBrace = false) :
    braceDepth? depth [token] = some depth := by
  rw [braceDepth?, List.foldlM_cons, Token.braceDepth?_plain depth h]
  rfl

theorem braceDepth?_of_forall {tokens : List Token} (depth : Nat)
    (h : ∀ token ∈ tokens, token.isBrace = false) : braceDepth? depth tokens = some depth := by
  induction tokens with
  | nil => rfl
  | cons token rest ih =>
    obtain ⟨first, later⟩ := List.forall_mem_cons.mp h
    exact braceDepth?_append (braceDepth?_singleton depth first) (ih later)

/-- From one state to a later one, over tokens that lead from one depth in braces to another. -/
def Passes (before after : Nat) (s t : Tokens) : Prop :=
  ∃ taken, s.ahead = taken ++ t.ahead ∧ braceDepth? before taken = some after

namespace Passes

variable {before between after : Nat} {s t u : Tokens}

theorem refl (depth : Nat) (s : Tokens) : Passes depth depth s s := ⟨[], rfl, rfl⟩

theorem trans (first : Passes before between s t) (second : Passes between after t u) :
    Passes before after s u := by
  obtain ⟨as, ahead, depth⟩ := first
  obtain ⟨bs, ahead', depth'⟩ := second
  exact ⟨as ++ bs, by rw [ahead, ahead', List.append_assoc], braceDepth?_append depth depth'⟩

theorem add (more : Nat) (h : Passes before after s t) :
    Passes (before + more) (after + more) s t := by
  obtain ⟨taken, ahead, depth⟩ := h
  exact ⟨taken, ahead, braceDepth?_add more depth⟩

theorem tail {token : Token} (next : s.lexemes.head?.map Lexeme.token = some token)
    (depth : braceDepth? before [token] = some after) :
    Passes before after s ⟨s.lexemes.tail, s.stop⟩ := by
  obtain ⟨l, head, rfl⟩ := Option.map_eq_some_iff.mp next
  obtain ⟨rest, same⟩ := List.head?_eq_some_iff.mp head
  refine ⟨[l.token], ?_, depth⟩
  rw [Tokens.ahead, Tokens.ahead, same]
  rfl

end Passes

/-! What parsers take and give. -/

variable {α β : Type} {P Q : α → Prop} {before between after : Nat}

namespace Parser

/-- Where the next token is as it should be, the parser gives nothing but results that satisfy `P`,
and what it takes leads from one depth in braces to the other. -/
def Takes (next : Option Token → Prop) (before after : Nat) (P : α → Prop) (p : Parser α) : Prop :=
  ∀ s v t, next (s.lexemes.head?.map Lexeme.token) → p s = .ok (v, t) → P v ∧ Passes before after s t

/-- Whatever comes next. -/
abbrev TakesAny (before after : Nat) (P : α → Prop) (p : Parser α) : Prop :=
  Takes (fun _ => True) before after P p

variable {next : Option Token → Prop}

namespace Takes

theorem bind {p : Parser β} {f : β → Parser α} {Q : β → Prop} (h : Takes next before between Q p)
    (k : ∀ v, Q v → TakesAny between after P (f v)) : Takes next before after P (p >>= f) := by
  intro s v u ahead ran
  obtain ⟨a, t, first, rest⟩ := run_bind_eq_ok.mp ran
  obtain ⟨result, passed⟩ := h s a t ahead first
  obtain ⟨result', passed'⟩ := k a result t v u trivial rest
  exact ⟨result', passed.trans passed'⟩

theorem pure {v : α} (h : P v) : Takes next before before P (Pure.pure v : Parser α) := by
  intro s a t _ ran
  cases ran
  exact ⟨h, .refl _ _⟩

theorem fail (fault : ParseFault) : Takes next before after P (fail fault : Parser α) := by
  intro s v t _ ran
  cases ran

theorem unexpected (expected : String) :
    Takes next before after P (unexpected expected : Parser α) := by
  intro s v t _ ran
  cases ran

theorem mono {p : Parser α} (h : Takes next before after P p) (weaker : ∀ v, P v → Q v) :
    Takes next before after Q p :=
  fun s v t ahead ran => (h s v t ahead ran).imp_left (weaker v)

theorem of_any {p : Parser α} (h : TakesAny before after P p) : Takes next before after P p :=
  fun s v t _ ran => h s v t trivial ran

theorem add {p : Parser α} (more : Nat) (h : Takes next before after P p) :
    Takes next (before + more) (after + more) P p :=
  fun s v t ahead ran => (h s v t ahead ran).imp_right (Passes.add more)

theorem map {p : Parser β} {Q : β → Prop} (h : Takes next before after Q p) {f : β → α}
    (k : ∀ v, Q v → P (f v)) : Takes next before after P (f <$> p) := by
  rw [map_eq_pure_bind]
  exact h.bind fun v result => .pure (k v result)

theorem here {f : Position → Parser α} (k : ∀ position, Takes next before after P (f position)) :
    Takes next before after P (Parser.here >>= f) :=
  fun s v t ahead ran => k _ s v t ahead ran

theorem peek {f : Option Token → Parser α}
    (k : ∀ token, next token → Takes (· = token) before after P (f token)) :
    Takes next before after P (Parser.peek >>= f) :=
  fun s v t ahead ran => k _ ahead s v t rfl ran

/-- A token that may be taken leads to its own depth if it is. -/
theorem accept {token : Token} {f : Bool → Parser α}
    (depth : braceDepth? before [token] = some between)
    (yes : TakesAny between after P (f true)) (no : TakesAny before after P (f false)) :
    Takes next before after P (Parser.accept token >>= f) := by
  intro s v t _ ran
  obtain ⟨taken, u, accepted, rest⟩ := run_bind_eq_ok.mp ran
  obtain ⟨found, u', ahead, accepted⟩ := run_bind_eq_ok.mp accepted
  cases ahead
  split_ifs at accepted with same
  · cases accepted
    obtain ⟨result, passed⟩ := yes _ v t trivial rest
    exact ⟨result, (Passes.tail same depth).trans passed⟩
  · cases accepted
    exact no s v t trivial rest

end Takes

theorem takes_skip {token : Token} (depth : braceDepth? before [token] = some after) :
    Takes (· = some token) before after (fun _ => True) skip := by
  intro s v t ahead ran
  cases ran
  exact ⟨trivial, .tail ahead depth⟩

theorem takes_accept {token : Token} (depth : braceDepth? before [token] = some before) :
    Takes next before before (fun _ => True) (accept token) := by
  rw [← bind_pure (accept token)]
  exact .accept depth (.pure trivial) (.pure trivial)

theorem takes_expect {token : Token} (expected : String)
    (depth : braceDepth? before [token] = some after) :
    Takes next before after (fun _ => True) (expect token expected) :=
  .accept depth (.pure trivial) (.unexpected _)

theorem takes_skipSemicolons : Takes next before before (fun _ => True) skipSemicolons := by
  intro s v t _ ran
  cases ran
  refine ⟨trivial, (s.lexemes.takeWhile fun l => l.token = .semicolon).map Lexeme.token, ?_, ?_⟩
  · rw [Tokens.ahead, Tokens.ahead, ← List.map_append, List.takeWhile_append_dropWhile]
  · refine braceDepth?_of_forall before (List.forall_mem_map.mpr fun l member => ?_)
    have semicolon : l.token = .semicolon := by simpa using List.mem_takeWhile_imp member
    rw [semicolon]
    rfl

theorem takes_word (text : String) :
    Takes next before before (fun _ => True) (word text) := by
  refine .peek fun token _ => ?_
  split_ifs with same
  · subst same
    exact takes_skip rfl
  · exact .unexpected _

theorem takes_propertyName : Takes next before before (fun _ => True) propertyName := by
  refine .peek fun token _ => ?_
  split
  · next name found =>
    obtain ⟨token, rfl, named⟩ := Option.bind_eq_some_iff.mp found
    refine (takes_skip (braceDepth?_singleton _ ?_)).bind fun _ _ => .pure trivial
    cases token <;> first | rfl | cases named
  · exact .unexpected _

/-! Lists of items. -/

theorem takes_afterItem {room : Nat} {others : Parser (List α)}
    (ih : ∀ s, s.lexemes.length < room → ∀ vs t, others s = .ok (vs, t) →
      (∀ v ∈ vs, P v) ∧ Passes before before s t)
    {first : α} (result : P first) {s : Tokens} {vs : List α} {t : Tokens}
    (ran : afterItem room others first s = .ok (vs, t)) :
    (∀ v ∈ vs, P v) ∧ Passes before before s t := by
  have single : ∀ v ∈ [first], P v := List.forall_mem_singleton.mpr result
  unfold afterItem at ran
  split at ran
  · next place rest shape =>
    have comma : Passes before before s ⟨rest, s.stop⟩ := by
      have next : s.lexemes.head?.map Lexeme.token = some .comma := by rw [shape]; rfl
      have taken : Passes before before s ⟨s.lexemes.tail, s.stop⟩ := .tail next rfl
      rwa [shape] at taken
    split_ifs at ran with shorter
    · split at ran
      · cases ran
      · next more u taken =>
        cases ran
        obtain ⟨results, passed⟩ := ih _ shorter more _ taken
        exact ⟨List.forall_mem_cons.mpr ⟨result, results⟩, comma.trans passed⟩
    · cases ran
      exact ⟨single, comma⟩
  · cases ran
    exact ⟨single, .refl _ _⟩

theorem takes_commaSeparated (close : Token) {item : Parser α}
    (h : TakesAny before before P item) :
    TakesAny before before (fun vs => ∀ v ∈ vs, P v) (commaSeparated close item) := by
  intro s
  induction n : s.lexemes.length using Nat.strong_induction_on generalizing s with
  | _ n ih =>
    intro vs t _ ran
    rw [commaSeparated_eq] at ran
    split_ifs at ran
    · cases ran
      exact ⟨by simp, .refl _ _⟩
    · split at ran
      · cases ran
      · next first u taken =>
        obtain ⟨result, passed⟩ := h s first u trivial taken
        have rest := takes_afterItem
          (fun w shorter vs t ran => ih w.lexemes.length (n ▸ shorter) w rfl vs t trivial ran)
          result ran
        exact rest.imp_right passed.trans

theorem takes_commaChain {item : Parser α} (h : TakesAny before before P item) :
    TakesAny before before (fun vs => ∀ v ∈ vs, P v) (commaChain item) := by
  intro s
  induction n : s.lexemes.length using Nat.strong_induction_on generalizing s with
  | _ n ih =>
    intro vs t _ ran
    rw [commaChain_eq] at ran
    split at ran
    · cases ran
    · next first u taken =>
      obtain ⟨result, passed⟩ := h s first u trivial taken
      have rest := takes_afterItem
        (fun w shorter vs t ran => ih w.lexemes.length (n ▸ shorter) w rfl vs t trivial ran)
        result ran
      exact rest.imp_right passed.trans

theorem takes_statementsUntil (close : Option Token) {P : Node → Prop} {statement : Parser Node}
    (h : TakesAny before before P statement) :
    TakesAny before before (fun vs => ∀ v ∈ vs, P v) (statementsUntil close statement) := by
  intro s
  induction n : s.lexemes.length using Nat.strong_induction_on generalizing s with
  | _ n ih =>
    intro vs t _ ran
    rw [statementsUntil] at ran
    split_ifs at ran
    · cases ran
      exact ⟨by simp, .refl _ _⟩
    · split at ran
      · cases ran
      · next first u taken =>
        have ended : TakesAny before before P
            (do let first ← statement; skipSemicolons; return first : Parser Node) :=
          h.bind fun _ result => takes_skipSemicolons.bind fun _ _ => .pure result
        obtain ⟨result, passed⟩ := ended s first u trivial taken
        split_ifs at ran with shorter
        · split at ran
          · cases ran
          · next more w others =>
            cases ran
            obtain ⟨results, passed'⟩ :=
              ih u.lexemes.length (n ▸ shorter) u rfl more t trivial others
            exact ⟨List.forall_mem_cons.mpr ⟨result, results⟩, passed.trans passed'⟩
        · cases ran
          exact ⟨List.forall_mem_singleton.mpr result, passed⟩

end Parser

/-! The productions, by the height of their trees. -/

namespace Node

/-- No path from the node down has more than so many nodes on it. -/
abbrev IsWithin (height : Nat) (node : Node) : Prop := node.outline.Within height

theorem isWithin_succ {height : Nat} {node : Node} :
    node.IsWithin (height + 1) ↔ ∀ part ∈ node.parts, part.IsWithin height := by
  rw [IsWithin, within_outline]
  exact forall_congr' fun part => by rw [mem_children]

theorem isWithin_leaf {height : Nat} {node : Node} (leaf : node.parts = []) :
    node.IsWithin (height + 1) := by
  rw [isWithin_succ, leaf]
  nofun

theorem isWithin_pair {height : Nat} {node first second : Node} (parts : node.parts = [first, second])
    (within : first.IsWithin height) (within' : second.IsWithin height) :
    node.IsWithin (height + 1) := by
  rw [isWithin_succ, parts]
  exact List.forall_mem_cons.mpr ⟨within, List.forall_mem_singleton.mpr within'⟩

theorem isWithin_single {height : Nat} {node part : Node} (parts : node.parts = [part])
    (within : part.IsWithin height) : node.IsWithin (height + 1) := by
  rw [isWithin_succ, parts]
  exact List.forall_mem_singleton.mpr within

end Node

open Node (IsWithin isWithin_succ isWithin_leaf isWithin_single isWithin_pair)

namespace Parser

/-- Braces are taken in pairs, and the tree is only so high. -/
abbrev Builds (height : Nat) (p : Parser Node) : Prop := TakesAny 0 0 (IsWithin height) p

abbrev BuildsAll (height : Nat) (p : Parser (List Node)) : Prop :=
  TakesAny 0 0 (fun nodes => ∀ node ∈ nodes, node.IsWithin height) p

theorem Builds.mono {height higher : Nat} {p : Parser Node} (h : Builds height p)
    (le : height ≤ higher) : Builds higher p :=
  Takes.mono h fun _ within => within.mono le

theorem builds_identifier (height : Nat) : Builds (height + 1) identifier := by
  refine .here fun p => .peek fun token _ => ?_
  split
  · exact (takes_skip rfl).bind fun _ _ => .pure (isWithin_leaf rfl)
  · exact .unexpected _

theorem builds_params (height : Nat) : BuildsAll (height + 1) params := by
  refine (takes_expect _ rfl).bind fun _ _ => ?_
  refine (takes_commaSeparated _ (builds_identifier height)).bind fun names within => ?_
  exact (takes_expect _ rfl).bind fun _ _ => .pure within

theorem builds_importSpecifier : Builds 2 importSpecifier := by
  refine .here fun p => (builds_identifier 0).bind fun imported within => ?_
  refine .peek fun token _ => ?_
  split_ifs with same
  · subst same
    refine (takes_skip rfl).bind fun _ _ => (builds_identifier 0).bind fun binding within' => ?_
    exact .pure (isWithin_pair rfl within within')
  · exact .pure (isWithin_pair rfl within within)

theorem builds_namespaceOrNamed : BuildsAll 2 namespaceOrNamed := by
  refine .accept rfl ?_ (.accept rfl ?_ (.pure nofun))
  · refine .here fun p => (takes_word _).bind fun _ _ => ?_
    refine (builds_identifier 0).bind fun binding within => .pure ?_
    exact List.forall_mem_singleton.mpr (isWithin_single rfl within)
  · refine (takes_commaSeparated _ (builds_importSpecifier.add 1)).bind fun specifiers within => ?_
    exact (takes_expect _ rfl).bind fun _ _ => .pure within

theorem builds_importClause : BuildsAll 2 importClause := by
  refine .peek fun token _ => ?_
  split
  · exact .pure nofun
  · refine .here fun p => (builds_identifier 0).of_any.bind fun binding within => ?_
    refine (takes_accept rfl).bind fun _ _ => builds_namespaceOrNamed.bind fun others within' => ?_
    refine (takes_word _).bind fun _ _ => .pure ?_
    exact List.forall_mem_cons.mpr ⟨isWithin_single rfl within, within'⟩
  · refine builds_namespaceOrNamed.of_any.bind fun specifiers within => ?_
    exact (takes_word _).bind fun _ _ => .pure within

theorem builds_importDeclaration : Builds 3 importDeclaration := by
  refine .here fun p => (takes_expect _ rfl).bind fun _ _ => ?_
  refine builds_importClause.bind fun specifiers within => .here fun q => .peek fun token _ => ?_
  split
  · refine (takes_skip rfl).bind fun _ _ => .pure (isWithin_succ.mpr ?_)
    exact List.forall_mem_append.mpr ⟨within, List.forall_mem_singleton.mpr (isWithin_leaf rfl)⟩
  · exact .unexpected _

end Parser

namespace Productions

open Dashboard.Script.Parser

/-- Every production of this level builds trees of this height. -/
structure AreWithin (height : Nat) (p : Productions) : Prop where
  statement : Builds height p.statement
  assignment : Builds height p.assignment
  binary : ∀ least, Builds height (p.binary least)
  unary : Builds height p.unary
  primary : Builds height p.primary

section Level

variable {height : Nat} {inner : Productions} (h : inner.AreWithin height)

include h

theorem builds_block : Builds (height + 1) (block inner) := by
  refine .here fun p => (takes_expect _ rfl).bind fun _ _ => ?_
  refine takes_skipSemicolons.bind fun _ _ => ?_
  refine (takes_statementsUntil _ (h.statement.add 1)).bind fun body within => ?_
  exact (takes_expect _ rfl).bind fun _ _ => .pure (isWithin_succ.mpr within)

theorem builds_declarator : Builds (height + 2) (declarator inner) := by
  refine .here fun p => (builds_identifier height).bind fun name within => ?_
  refine (takes_accept rfl).bind fun taken _ => ?_
  split_ifs
  · refine h.assignment.bind fun value bound => .pure ?_
    exact isWithin_pair rfl within (bound.mono (Nat.le_succ height))
  · exact .pure (isWithin_single rfl within)

theorem builds_declarationOf (kind : DeclarationKind) {token : Token}
    (plain : token.isBrace = false) :
    Takes (· = some token) 0 0 (IsWithin (height + 3)) (declarationOf inner kind) := by
  refine .here fun p => (takes_skip (braceDepth?_singleton 0 plain)).bind fun _ _ => ?_
  exact (takes_commaChain (builds_declarator h)).bind fun declarators within =>
    .pure (isWithin_succ.mpr within)

theorem builds_function (isDeclaration : Bool) :
    Builds (height + 2) (function inner isDeclaration) := by
  refine .here fun p => (takes_expect _ rfl).bind fun _ _ => .peek fun token _ => ?_
  have rest (name : Option Node) (named : ∀ n ∈ name.toList, n.IsWithin (height + 1)) :
      Builds (height + 2) (do
        let names ← params
        let body ← block inner
        return .function p isDeclaration name names body : Parser Node) := by
    refine (builds_params height).bind fun names within => (builds_block h).bind fun body within' => ?_
    refine .pure (isWithin_succ.mpr (List.forall_mem_append.mpr ⟨?_, ?_⟩))
    · exact List.forall_mem_append.mpr ⟨named, within⟩
    · exact List.forall_mem_singleton.mpr within'
  split
  · refine Takes.bind (Q := fun name : Option Node => ∀ n ∈ name.toList, n.IsWithin (height + 1))
      ((builds_identifier height).of_any.map fun v within => ?_) rest
    exact List.forall_mem_singleton.mpr within
  · split_ifs
    · exact (Takes.unexpected _).bind rest
    · exact Takes.bind (.pure nofun) rest

theorem builds_declaration? :
    TakesAny 0 0 (fun found => ∀ node, found = some node → node.IsWithin (height + 3))
      (declaration? inner) := by
  have given {token : Token} {p : Parser Node}
      (builds : Takes (· = some token) 0 0 (IsWithin (height + 3)) p) :
      Takes (· = some token) 0 0 (fun found => ∀ node, found = some node → node.IsWithin (height + 3))
        (some <$> p) :=
    builds.map fun v within node same => Option.some.inj same ▸ within
  refine .peek fun token _ => ?_
  split
  · exact given (builds_declarationOf h .letKind rfl)
  · exact given (builds_declarationOf h .constKind rfl)
  · exact given (builds_declarationOf h .varKind rfl)
  · exact given ((builds_function h true).mono (Nat.le_succ _)).of_any
  · exact .pure nofun

theorem builds_returnStatement :
    Takes (· = some (.keyword .returnWord)) 0 0 (IsWithin (height + 1)) (returnStatement inner) := by
  refine .here fun p => (takes_skip rfl).bind fun _ _ => .peek fun token _ => ?_
  split
  · exact .pure (isWithin_leaf rfl)
  · exact .pure (isWithin_leaf rfl)
  · exact .pure (isWithin_leaf rfl)
  · exact h.assignment.of_any.bind fun value within => .pure (isWithin_single rfl within)

theorem builds_ifStatement :
    Takes (· = some (.keyword .ifWord)) 0 0 (IsWithin (height + 1)) (ifStatement inner) := by
  refine .here fun p => (takes_skip rfl).bind fun _ _ => (takes_expect _ rfl).bind fun _ _ => ?_
  refine h.assignment.bind fun test condition => (takes_expect _ rfl).bind fun _ _ => ?_
  refine h.statement.bind fun consequent yes => takes_skipSemicolons.bind fun _ _ => ?_
  refine (takes_accept rfl).bind fun taken _ => ?_
  split_ifs
  · refine h.statement.bind fun alternate no => .pure (isWithin_succ.mpr ?_)
    exact List.forall_mem_cons.mpr ⟨condition, List.forall_mem_cons.mpr
      ⟨yes, List.forall_mem_singleton.mpr no⟩⟩
  · exact .pure (isWithin_pair rfl condition yes)

theorem builds_statementBody : Builds (height + 4) (statementBody inner) := by
  refine .here fun p => (builds_declaration? h).bind fun found within => ?_
  cases found with
  | some node => exact .pure ((within node rfl).mono (Nat.le_succ _))
  | none =>
    refine .peek fun token _ => ?_
    split
    · exact (builds_importDeclaration.mono (by omega)).of_any
    · refine (takes_skip rfl).bind fun _ _ => (builds_declaration? h).bind fun found within => ?_
      cases found with
      | some node => exact .pure (isWithin_single rfl (within node rfl))
      | none => exact .unexpected _
    · exact (builds_returnStatement h).mono fun _ within => within.mono (by omega)
    · exact (builds_ifStatement h).mono fun _ within => within.mono (by omega)
    · exact ((builds_block h).mono (by omega)).of_any
    · exact (takes_skip rfl).bind fun _ _ => .pure (isWithin_leaf rfl)
    · exact .unexpected _
    · refine h.assignment.of_any.bind fun value within => .pure ?_
      exact (isWithin_single rfl within).mono (by omega)

theorem builds_spreadOrAssignment : Builds (height + 1) (spreadOrAssignment inner) := by
  refine .here fun p => (takes_accept rfl).bind fun taken _ => ?_
  split_ifs
  · exact h.assignment.bind fun value within => .pure (isWithin_single rfl within)
  · exact h.assignment.mono (Nat.le_succ height)

theorem builds_arguments : BuildsAll (height + 1) (arguments inner) := by
  refine (takes_expect _ rfl).bind fun _ _ => ?_
  refine (takes_commaSeparated _ (builds_spreadOrAssignment h)).bind fun values within => ?_
  exact (takes_expect _ rfl).bind fun _ _ => .pure within

theorem builds_element : Builds (height + 1) (element inner) := by
  refine .peek fun token _ => ?_
  split_ifs
  · exact .fail _
  · exact (builds_spreadOrAssignment h).of_any

theorem builds_array : Builds (height + 2) (array inner) := by
  refine .here fun p => (takes_expect _ rfl).bind fun _ _ => ?_
  refine (takes_commaSeparated _ (builds_element h)).bind fun elements within => ?_
  exact (takes_expect _ rfl).bind fun _ _ => .pure (isWithin_succ.mpr within)

omit h in
theorem builds_propertyKey (height : Nat) :
    TakesAny 0 0 (fun found => found.1.IsWithin (height + 1)) propertyKey := by
  refine .here fun p => .peek fun token _ => ?_
  split
  · exact (takes_skip rfl).bind fun _ _ => .pure (isWithin_leaf rfl)
  · exact (takes_skip rfl).bind fun _ _ => .pure (isWithin_leaf rfl)
  · exact .fail _
  · exact (takes_skip rfl).bind fun _ _ => .pure (isWithin_leaf rfl)
  · exact takes_propertyName.bind fun _ _ => .pure (isWithin_leaf rfl)

theorem builds_property : Builds (height + 2) (property inner) := by
  refine .here fun p => (takes_accept rfl).bind fun taken _ => ?_
  split_ifs
  · refine h.assignment.bind fun value within => .pure ?_
    exact (isWithin_single rfl within).mono (Nat.le_succ _)
  · refine (builds_propertyKey height).bind fun found within => ?_
    obtain ⟨key, alone⟩ := found
    refine (takes_accept rfl).bind fun taken _ => ?_
    split_ifs
    · refine h.assignment.bind fun value within' => .pure ?_
      exact isWithin_pair rfl within (within'.mono (Nat.le_succ height))
    · exact .pure (isWithin_pair rfl within within)
    · exact .unexpected _

theorem builds_object : Builds (height + 3) (object inner) := by
  refine .here fun p => (takes_expect _ rfl).bind fun _ _ => ?_
  refine (takes_commaSeparated _ ((builds_property h).add 1)).bind fun properties within => ?_
  exact (takes_expect _ rfl).bind fun _ _ => .pure (isWithin_succ.mpr within)

omit h in
/-- Every name after the first makes the callee one level higher. -/
theorem builds_constructorPath (links : Nat) (p : Position) {callee : Node}
    (within : callee.IsWithin (height + 1)) :
    Builds (height + 1 + links) (constructorPath p links callee) := by
  induction links generalizing height callee with
  | zero =>
    refine (takes_accept rfl).bind fun taken _ => ?_
    split_ifs
    · exact .fail _
    · exact .pure within
  | succ links ih =>
    refine (takes_accept rfl).bind fun taken _ => ?_
    split_ifs
    · refine .here fun q => takes_propertyName.bind fun name _ => ?_
      have longer : IsWithin (height + 2) (.member p callee (.identifier q name) false) :=
        isWithin_pair rfl within (isWithin_leaf rfl)
      exact (ih longer).mono (by omega)
    · exact .pure (within.mono (by omega))

theorem builds_newExpression (links : Nat) :
    Takes (· = some (.keyword .newWord)) 0 0 (IsWithin (height + 2 + links))
      (newExpression links inner) := by
  refine .here fun p => (takes_skip rfl).bind fun _ _ => h.primary.bind fun first within => ?_
  refine (builds_constructorPath links p (within.mono (Nat.le_succ height))).bind
    fun callee within' => ?_
  have single : IsWithin (height + 2 + links) (.construct p callee []) :=
    (isWithin_single rfl within').mono (by omega)
  refine .peek fun token _ => ?_
  split_ifs
  · refine (builds_arguments h).of_any.bind fun values items => .pure ?_
    have parts : IsWithin (height + 1 + links + 1) (.construct p callee values) :=
      isWithin_succ.mpr (List.forall_mem_cons.mpr
        ⟨within', fun value member => (items value member).mono (by omega)⟩)
    exact parts.mono (by omega)
  · exact .pure single

theorem builds_primaryBody (links : Nat) :
    Builds (height + 3 + links) (primaryBody links inner) := by
  refine .here fun p => .peek fun token _ => ?_
  have leaf {node : Node} (none : node.parts = []) : node.IsWithin (height + 3 + links) :=
    (isWithin_leaf none : node.IsWithin 1).mono (by omega)
  split
  · exact (takes_skip rfl).bind fun _ _ => .pure (leaf rfl)
  · exact (takes_skip rfl).bind fun _ _ => .pure (leaf rfl)
  · exact (takes_skip rfl).bind fun _ _ => .pure (leaf rfl)
  · exact (takes_skip rfl).bind fun _ _ => .pure (leaf rfl)
  · exact (takes_skip rfl).bind fun _ _ => .pure (leaf rfl)
  · exact ((builds_identifier 0).mono (by omega)).of_any
  · refine (takes_skip rfl).bind fun _ _ => h.assignment.bind fun inside within => ?_
    exact (takes_expect _ rfl).bind fun _ _ => .pure (within.mono (by omega))
  · exact ((builds_array h).mono (by omega)).of_any
  · exact ((builds_object h).mono (by omega)).of_any
  · exact ((builds_function h false).mono (by omega)).of_any
  · exact (builds_newExpression h links).mono fun _ within => within.mono (by omega)
  · exact .unexpected _

/-- Every link makes the target one level higher. -/
theorem builds_postfixChain (links : Nat) {base : Nat} (enough : height + 1 ≤ base) {target : Node}
    (within : target.IsWithin base) : Builds (base + links) (postfixChain inner links target) := by
  induction links generalizing base target with
  | zero =>
    rw [postfixChain]
    refine .peek fun token _ => ?_
    split
    · exact .pure within
    · split_ifs
      · exact .fail _
      · exact .pure within
  | succ links ih =>
    have longer {node : Node} (higher : node.IsWithin (base + 1)) :
        Builds (base + (links + 1)) (postfixChain inner links node) :=
      (ih (by omega) higher).mono (by omega)
    have same : IsWithin (base + (links + 1)) target := within.mono (by omega)
    rw [postfixChain]
    refine .peek fun token _ => ?_
    split
    · exact .pure same
    · split_ifs
      · dsimp only
        split
        · refine (builds_arguments h).of_any.bind fun values items => longer (isWithin_succ.mpr ?_)
          exact List.forall_mem_cons.mpr
            ⟨within, fun value member => (items value member).mono enough⟩
        · refine (takes_skip rfl).bind fun _ _ => h.assignment.bind fun name place => ?_
          refine (takes_expect _ rfl).bind fun _ _ => longer ?_
          exact isWithin_pair rfl within (place.mono (by omega))
        · refine (takes_skip rfl).bind fun _ _ => .here fun q => ?_
          refine takes_propertyName.bind fun name _ => longer ?_
          have leaf : IsWithin 1 (.identifier q name) := isWithin_leaf rfl
          exact isWithin_pair rfl within (leaf.mono (by omega))
        · exact (takes_skip rfl).bind fun _ _ => longer (isWithin_single rfl within)
        · exact .pure same
      · exact .pure same

theorem builds_prefixed (operator : UnaryOperator) (p : Position) {token : Token}
    (plain : token.isBrace = false) :
    Takes (· = some token) 0 0 (IsWithin (height + 1)) (prefixed inner operator p) :=
  (takes_skip (braceDepth?_singleton 0 plain)).bind fun _ _ => h.unary.bind fun _ within =>
    .pure (isWithin_single rfl within)

theorem builds_stepped (operator : Operator) (p : Position) {token : Token}
    (plain : token.isBrace = false) :
    Takes (· = some token) 0 0 (IsWithin (height + 1)) (stepped inner operator p) :=
  (takes_skip (braceDepth?_singleton 0 plain)).bind fun _ _ => h.unary.bind fun _ within =>
    .pure (isWithin_single rfl within)

theorem builds_unaryBody (links : Nat) :
    Builds (height + 3 + links + links) (unaryBody links inner) := by
  have enough : height + 1 ≤ height + 3 + links := by omega
  refine .here fun p => .peek fun token _ => ?_
  split
  · refine (takes_skip rfl).bind fun _ _ => .peek fun token _ => ?_
    split
    · next value =>
      refine (takes_skip rfl).bind fun _ _ => builds_postfixChain h links enough ?_
      exact (isWithin_leaf rfl : IsWithin 1 (.literal p (.number value.negate))).mono (by omega)
    · refine h.unary.of_any.bind fun _ within => .pure ?_
      exact (isWithin_single rfl within).mono (by omega)
  · exact (builds_prefixed h _ _ rfl).mono fun _ within => within.mono (by omega)
  · exact (builds_prefixed h _ _ rfl).mono fun _ within => within.mono (by omega)
  · exact (builds_prefixed h _ _ rfl).mono fun _ within => within.mono (by omega)
  · exact (builds_prefixed h _ _ rfl).mono fun _ within => within.mono (by omega)
  · exact (builds_stepped h _ _ rfl).mono fun _ within => within.mono (by omega)
  · exact (builds_stepped h _ _ rfl).mono fun _ within => within.mono (by omega)
  · exact (builds_primaryBody h links).of_any.bind fun _ within =>
      builds_postfixChain h links enough within

/-- Every operator makes the tree one level higher. -/
theorem builds_binaryChain (links least : Nat) (p : Position) {base : Nat} (enough : height ≤ base)
    {left : Node} (within : left.IsWithin base) :
    Builds (base + links) (binaryChain inner p least links left) := by
  induction links generalizing base left with
  | zero =>
    rw [binaryChain]
    refine .peek fun token _ => ?_
    split
    · split
      · exact .pure within
      · split_ifs
        · exact .pure within
        · exact .fail _
    · exact .pure within
  | succ links ih =>
    have same : IsWithin (base + (links + 1)) left := within.mono (by omega)
    have longer {operator : Operator} {right : Node} (operand : right.IsWithin height) :
        Builds (base + (links + 1))
          (binaryChain inner p least links (.binary p operator left right)) :=
      (ih (by omega) (isWithin_pair rfl within (operand.mono enough))).mono (by omega)
    rw [binaryChain]
    refine .peek fun token _ => ?_
    split
    · split
      · exact .pure same
      · split_ifs
        · exact .pure same
        · exact (takes_skip rfl).bind fun _ _ => (h.binary _).bind fun _ operand => longer operand
    · exact .pure same

theorem builds_binaryBody (links least : Nat) :
    Builds (height + 3 + links + links + links) (binaryBody links inner least) :=
  .here fun p => (builds_unaryBody h links).bind fun _ within =>
    builds_binaryChain h links least p (by omega) within

theorem builds_conditional (links : Nat) :
    Builds (height + 4 + links + links + links) (conditional links inner) := by
  refine .here fun p => (builds_binaryBody h links 1).bind fun test condition => ?_
  refine (takes_accept rfl).bind fun taken _ => ?_
  split_ifs
  · refine h.assignment.bind fun consequent yes => (takes_expect _ rfl).bind fun _ _ => ?_
    refine h.assignment.bind fun alternate no => .pure ?_
    have parts : IsWithin (height + 3 + links + links + links + 1)
        (.conditional p test consequent alternate) :=
      isWithin_succ.mpr (List.forall_mem_cons.mpr ⟨condition, List.forall_mem_cons.mpr
        ⟨yes.mono (by omega), List.forall_mem_singleton.mpr (no.mono (by omega))⟩⟩)
    exact parts.mono (by omega)
  · exact .pure (condition.mono (by omega))

theorem builds_arrow : Builds (height + 2) (arrow inner) := by
  refine .here fun p => .peek fun token _ => ?_
  have rest (names : List Node) (within : ∀ n ∈ names, n.IsWithin (height + 1)) :
      Builds (height + 2) (do
        expect .arrow "'=>'"
        if (← peek) = some .openBrace then return .arrow p names (← block inner)
        else return .arrow p names (← inner.assignment) : Parser Node) := by
    have made {body : Node} (inside : body.IsWithin (height + 1)) :
        IsWithin (height + 2) (.arrow p names body) :=
      isWithin_succ.mpr
        (List.forall_mem_append.mpr ⟨within, List.forall_mem_singleton.mpr inside⟩)
    refine (takes_expect _ rfl).bind fun _ _ => .peek fun token _ => ?_
    split_ifs
    · exact (builds_block h).of_any.bind fun body inside => .pure (made inside)
    · exact h.assignment.of_any.bind fun body inside =>
        .pure (made (inside.mono (Nat.le_succ height)))
  split
  · exact ((builds_identifier height).of_any.map fun v within =>
      List.forall_mem_singleton.mpr within).bind rest
  · exact (builds_params height).of_any.bind rest

theorem builds_assignmentBody (links : Nat) :
    Builds (height + 5 + links + links + links) (assignmentBody links inner) := by
  have tokens : TakesAny 0 0 (fun _ => True) (get : Parser Tokens) := by
    intro s v t _ ran
    cases ran
    exact ⟨trivial, .refl _ _⟩
  refine tokens.bind fun s _ => ?_
  split_ifs
  · exact (builds_arrow h).mono (by omega)
  · refine .here fun p => (builds_conditional h links).bind fun left target => ?_
    have same : IsWithin (height + 5 + links + links + links) left := target.mono (by omega)
    refine .peek fun token _ => ?_
    split
    · split_ifs
      · refine (takes_skip rfl).bind fun _ _ => h.assignment.bind fun right value => .pure ?_
        exact (isWithin_pair rfl target (value.mono (by omega))).mono (by omega)
      · exact .pure same
    · exact .pure same

end Level

/-- How high the trees are that productions with so many levels left build. A level adds the nodes
of its own, and up to three chains as long as the levels below it. -/
def heightAt : Nat → Nat
  | 0 => 0
  | links + 1 => heightAt links + 5 + links + links + links

theorem areWithin_entered (levels : Nat) : (entered levels).AreWithin (heightAt levels) := by
  induction levels with
  | zero => exact ⟨.fail _, .fail _, fun _ => .fail _, .fail _, .fail _⟩
  | succ levels ih =>
    have room {height : Nat} {p : Parser Node} (builds : Builds height p)
        (le : height ≤ heightAt levels + 5 + levels + levels + levels) :
        Builds (heightAt (levels + 1)) p := builds.mono le
    exact ⟨room (builds_statementBody ih) (by omega), builds_assignmentBody ih levels,
      fun least => room (builds_binaryBody ih levels least) (by omega),
      room (builds_unaryBody ih levels) (by omega), room (builds_primaryBody ih levels) (by omega)⟩

/-! The levels that remain, as a depth that is counted and checked. -/

/-- A production is entered only where the depth is below the limit. -/
def guarded (depth : Nat) (p : Productions) : Productions :=
  if depth < maxNesting then p else exhausted

/-- The productions at a depth. Each calls those one level deeper through the check of the depth,
down to so many levels; deeper than that stands anything. -/
def counted (beyond : Productions) : (room depth : Nat) → Productions
  | 0, _ => beyond
  | room + 1, depth =>
    let inner := counted beyond room (depth + 1)
    let links := maxNesting - (depth + 1)
    guarded depth
      { statement := statementBody inner
        assignment := assignmentBody links inner
        binary := binaryBody links inner
        unary := unaryBody links inner
        primary := primaryBody links inner }

theorem counted_eq (beyond : Productions) {room depth : Nat} (enough : maxNesting < depth + room)
    (le : depth ≤ maxNesting) : counted beyond room depth = entered (maxNesting - depth) := by
  induction room generalizing depth with
  | zero => omega
  | succ room ih =>
    rw [counted, guarded]
    split_ifs with below
    · have level : maxNesting - depth = maxNesting - (depth + 1) + 1 := by omega
      rw [ih (by omega) below, level]
      rfl
    · obtain rfl : depth = maxNesting := by omega
      rw [Nat.sub_self]
      rfl

/-- No production runs at a depth beyond the limit: whatever stood there, nothing would change. -/
theorem counted_start (beyond : Productions) :
    counted beyond (maxNesting + 1) 0 = entered maxNesting :=
  counted_eq beyond (by omega) (Nat.zero_le _)

end Productions

open Dashboard.Script.Parser

/-- How high the trees of expressions are. -/
def expressionHeight : Nat := Productions.heightAt maxNesting

theorem builds_wholeExpression : Builds expressionHeight wholeExpression := by
  refine (Productions.areWithin_entered _).assignment.bind fun node within => ?_
  refine .peek fun token _ => ?_
  split
  · exact .pure within
  · exact .unexpected _

theorem builds_program (origin : Position) : Builds (expressionHeight + 1) (program origin) :=
  takes_skipSemicolons.bind fun _ _ =>
    (takes_statementsUntil none (Productions.areWithin_entered _).statement).bind
      fun _ within => .pure (isWithin_succ.mpr within)

/-- The braces of an expression come in pairs. -/
theorem braceDepth?_of_parseExpression {text : String} {origin : Position} {node : Node}
    (h : parseExpression text origin = .ok node) :
    ∃ tokens, tokens? text.toList = some tokens ∧ braceDepth? 0 tokens = some 0 := by
  obtain ⟨⟨lexemes, stop⟩, cut, rest⟩ := bind_eq_ok.mp h
  obtain ⟨⟨found, s⟩, ran, -⟩ := bind_eq_ok.mp rest
  obtain ⟨taken, ahead, depth⟩ := (builds_wholeExpression _ found s trivial ran).2
  have spent : s.ahead = [] := by
    obtain ⟨node, ⟨left, stop⟩, -, last⟩ := run_bind_eq_ok.mp ran
    obtain ⟨next, t, peeked, last⟩ := run_bind_eq_ok.mp last
    cases peeked
    cases left with
    | nil =>
      cases last
      rfl
    | cons => cases last
  rw [spent, List.append_nil] at ahead
  exact ⟨taken, ahead ▸ tokens?_eq_some cut, depth⟩

theorem within_of_parseText {height : Nat} {parser : Parser Node} (builds : Builds height parser)
    {text : String} {origin : Position} {node : Node} (h : parseText parser text origin = .ok node) :
    node.outline.Within height := by
  obtain ⟨⟨lexemes, stop⟩, -, rest⟩ := bind_eq_ok.mp h
  obtain ⟨⟨found, s⟩, ran, last⟩ := bind_eq_ok.mp rest
  cases last
  exact (builds _ _ s trivial ran).1

end Dashboard.Script
