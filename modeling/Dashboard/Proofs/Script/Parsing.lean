import Dashboard.Proofs.Outcome
import Dashboard.Proofs.Script.Moving

/-!
Parsing of the same tokens at other places. A run that succeeds is followed by a run over the same
tokens at their new places: it succeeds too, with the tree at its new place, and the tree is plain.
-/
namespace Dashboard.Script

open Node (IsPlain moved movedAll moved?)
open Dashboard.Module (IsWord)

variable {α β γ δ : Type} {f : Position → Position}

/-- The tokens still to be read. -/
def Tokens.ahead (s : Tokens) : List Token := s.lexemes.map Lexeme.token

/-- All tokens still to be read are clean. -/
def Tokens.IsClean (s : Tokens) : Prop := ∀ l ∈ s.lexemes, l.token.IsClean

/-- The same tree at its new place, and a plain one. -/
structure Alike (f : Position → Position) (levels : Nat) (v w : Node) : Prop where
  same : w = v.moved f
  plain : v.IsPlain levels

abbrev AlikeAll (f : Position → Position) (levels : Nat) : List Node → List Node → Prop :=
  List.Forall₂ (Alike f levels)

abbrev Alike? (f : Position → Position) (levels : Nat) : Option Node → Option Node → Prop :=
  Option.Rel (Alike f levels)

theorem Alike.mono {m n : Nat} (h : m ≤ n) {v w : Node} (alike : Alike f m v w) : Alike f n v w :=
  ⟨alike.same, alike.plain.mono h⟩

theorem alike_of_isNeutral (levels : Nat) {v w : Node} (neutral : v.isNeutral = true)
    (same : w = v.moved f) : Alike f levels v w :=
  ⟨same, Node.isPlain_of_isNeutral levels neutral⟩

theorem AlikeAll.same {levels : Nat} {vs ws : List Node} (alike : AlikeAll f levels vs ws) :
    ws = movedAll f vs := by
  induction alike with
  | nil => rfl
  | cons first _ ih => rw [movedAll, first.same, ih]

theorem AlikeAll.plain {levels : Nat} {vs ws : List Node} (alike : AlikeAll f levels vs ws) :
    ∀ v ∈ vs, v.IsPlain levels := by
  induction alike with
  | nil => simp
  | cons first _ ih => exact List.forall_mem_cons.mpr ⟨first.plain, ih⟩

theorem Alike?.same {levels : Nat} {v w : Option Node} (alike : Alike? f levels v w) :
    w = moved? f v := by
  cases alike with
  | none => rfl
  | some here => rw [moved?, here.same]

namespace Tokens

variable {s : Tokens}

theorem isClean_next (clean : s.IsClean) {token : Token}
    (next : s.lexemes.head?.map Lexeme.token = some token) : token.IsClean := by
  obtain ⟨l, head, rfl⟩ := Option.map_eq_some_iff.mp next
  exact clean l (List.mem_of_head? head)

theorem IsClean.suffix (clean : s.IsClean) {rest : List Lexeme} (suffix : rest <:+ s.lexemes)
    (stop : Position) : IsClean ⟨rest, stop⟩ :=
  fun l member => clean l (suffix.subset member)

end Tokens

namespace Parser

/-- Whenever the first parser succeeds, the second succeeds on the same tokens at their new places
with a related result. -/
def Follows (f : Position → Position) (R : α → β → Prop) (p : Parser α) (q : Parser β) : Prop :=
  ∀ s, s.IsClean → ∀ v s', p s = .ok (v, s') →
    ∃ w, q (s.moved f) = .ok (w, s'.moved f) ∧ R v w ∧ s'.IsClean

variable {R : α → β → Prop} {S : γ → δ → Prop}

theorem Follows.bind {p : Parser α} {q : Parser β} {k : α → Parser γ} {m : β → Parser δ}
    (h : Follows f R p q) (next : ∀ v w, R v w → Follows f S (k v) (m w)) :
    Follows f S (p >>= k) (q >>= m) := by
  intro s clean v s' ran
  obtain ⟨a, s1, first, rest⟩ := run_bind_eq_ok.mp ran
  obtain ⟨b, second, related, later⟩ := h s clean a s1 first
  obtain ⟨w, last, result, final⟩ := next a b related s1 later v s' rest
  exact ⟨w, run_bind_eq_ok.mpr ⟨b, s1.moved f, second, last⟩, result, final⟩

theorem Follows.pure {v : α} {w : β} (h : R v w) :
    Follows f R (Pure.pure v : Parser α) (Pure.pure w) := by
  intro s clean a s' ran
  cases ran
  exact ⟨w, rfl, h, clean⟩

theorem Follows.fail (fault : ParseFault) (q : Parser β) :
    Follows f R (fail fault : Parser α) q := by
  intro s clean v s' ran
  cases ran

theorem Follows.unexpected (expected : String) (q : Parser β) :
    Follows f R (unexpected expected : Parser α) q := by
  intro s clean v s' ran
  cases ran

/-- The place of the next token is moved with it. -/
theorem Follows.here {k : Position → Parser α} {m : Position → Parser β}
    (next : ∀ p, Follows f R (k p) (m (f p))) : Follows f R (here >>= k) (here >>= m) := by
  intro s clean v s' ran
  have place : (((s.moved f).lexemes.head?.map Lexeme.position).getD (s.moved f).stop) =
      f ((s.lexemes.head?.map Lexeme.position).getD s.stop) := by
    rw [Tokens.moved]
    cases s.lexemes <;> rfl
  obtain ⟨w, second, related, later⟩ := next _ s clean v s' ran
  refine ⟨w, ?_, related, later⟩
  rw [← place] at second
  exact second

/-- A next token is the same on both sides, and clean. -/
def SameNext (a b : Option Token) : Prop := a = b ∧ ∀ token, a = some token → token.IsClean

theorem follows_peek : Follows f SameNext peek peek := by
  intro s clean v s' ran
  cases ran
  exact ⟨_, rfl, ⟨(s.next_moved f).symm, fun _ => s.isClean_next clean⟩, clean⟩

theorem follows_skip : Follows f Eq skip skip := by
  intro s clean v s' ran
  cases ran
  refine ⟨(), ?_, rfl, clean.suffix (List.tail_suffix _) _⟩
  rw [skip, Tokens.moved, Tokens.moved, List.map_tail]

theorem follows_skipSemicolons : Follows f Eq skipSemicolons skipSemicolons := by
  intro s clean v s' ran
  cases ran
  refine ⟨(), ?_, rfl, clean.suffix (List.dropWhile_suffix _) _⟩
  rw [skipSemicolons, Tokens.moved, Tokens.moved, List.dropWhile_map]
  rfl

theorem follows_accept (token : Token) : Follows f Eq (accept token) (accept token) := by
  refine follows_peek.bind fun next other same => ?_
  obtain ⟨rfl, clean⟩ := same
  split_ifs with found
  · exact follows_skip.bind fun _ _ _ => .pure rfl
  · exact .pure rfl

theorem follows_expect (token : Token) (expected : String) :
    Follows f Eq (expect token expected) (expect token expected) := by
  refine (follows_accept token).bind fun taken other same => ?_
  obtain rfl := same
  cases taken with
  | true => exact .pure rfl
  | false => exact .unexpected _ _

theorem follows_identifier (levels : Nat) : Follows f (Alike f levels) identifier identifier := by
  refine Follows.here fun p => follows_peek.bind fun next other same => ?_
  obtain ⟨rfl, clean⟩ := same
  split
  · next name =>
    exact follows_skip.bind fun _ _ _ => .pure ⟨rfl, Node.isPlain_identifier _ _ (clean _ rfl)⟩
  · exact .unexpected _ _

theorem follows_propertyName :
    Follows f (fun a b => a = b ∧ IsWord a) propertyName propertyName := by
  refine follows_peek.bind fun next other same => ?_
  obtain ⟨rfl, clean⟩ := same
  split
  · next name found =>
    obtain ⟨token, rfl, named⟩ := Option.bind_eq_some_iff.mp found
    exact follows_skip.bind fun _ _ _ =>
      .pure ⟨rfl, Token.isWord_of_propertyName? (clean _ rfl) named⟩
  · exact .unexpected _ _

/-- What comes after the first item of a list: nothing, or a comma and then the other items. -/
def afterItem (room : Nat) (others : Parser (List α)) (first : α) (s : Tokens) :
    Except ParseError (List α × Tokens) :=
  match s.lexemes with
  | ⟨.comma, _⟩ :: rest =>
    if rest.length < room then
      match others ⟨rest, s.stop⟩ with
      | .error e => .error e
      | .ok (more, u) => .ok (first :: more, u)
    else .ok ([first], ⟨rest, s.stop⟩)
  | _ => .ok ([first], s)

theorem commaSeparated_eq (close : Token) (item : Parser α) (s : Tokens) :
    commaSeparated close item s =
      if s.lexemes.head?.map Lexeme.token = some close then .ok ([], s)
      else match item s with
        | .error e => .error e
        | .ok (first, t) => afterItem s.lexemes.length (commaSeparated close item) first t := by
  rw [commaSeparated]
  rfl

theorem commaChain_eq (item : Parser α) (s : Tokens) :
    commaChain item s =
      match item s with
      | .error e => .error e
      | .ok (first, t) => afterItem s.lexemes.length (commaChain item) first t := by
  rw [commaChain]
  rfl

theorem follows_afterItem {room : Nat} {others : Parser (List α)} {others' : Parser (List β)}
    (ih : ∀ s, s.IsClean → s.lexemes.length < room → ∀ vs s', others s = .ok (vs, s') →
      ∃ ws, others' (s.moved f) = .ok (ws, s'.moved f) ∧ List.Forall₂ R vs ws ∧ s'.IsClean)
    {first : α} {first' : β} (related : R first first') {s : Tokens} (clean : s.IsClean)
    {vs : List α} {s' : Tokens} (ran : afterItem room others first s = .ok (vs, s')) :
    ∃ ws, afterItem room others' first' (s.moved f) = .ok (ws, s'.moved f) ∧
      List.Forall₂ R vs ws ∧ s'.IsClean := by
  have single : List.Forall₂ R [first] [first'] := .cons related .nil
  obtain ⟨ls, stop⟩ := s
  unfold afterItem at ran ⊢
  cases ls with
  | nil =>
    cases ran
    exact ⟨[first'], rfl, single, clean⟩
  | cons l rest =>
    obtain ⟨token, place⟩ := l
    have behind : Tokens.IsClean ⟨rest, stop⟩ := clean.suffix (List.suffix_cons _ _) _
    by_cases comma : token = .comma
    · subst comma
      simp only [Tokens.moved, List.map_cons, Lexeme.moved, List.length_map] at ran ⊢
      split_ifs at ran ⊢ with shorter
      · split at ran
        · cases ran
        · next more u later =>
          cases ran
          obtain ⟨ws, second, rel, final⟩ := ih ⟨rest, stop⟩ behind shorter more s' later
          rw [Tokens.moved] at second
          exact ⟨first' :: ws, by rw [second]; rfl, .cons related rel, final⟩
      · cases ran
        exact ⟨[first'], rfl, single, behind⟩
    · split at ran
      · next same =>
        cases same
        exact absurd rfl comma
      · cases ran
        refine ⟨[first'], ?_, single, clean⟩
        split
        · next same =>
          cases same
          exact absurd rfl comma
        · rfl

theorem follows_commaSeparated (close : Token) {item : Parser α} {other : Parser β}
    (h : Follows f R item other) :
    Follows f (List.Forall₂ R) (commaSeparated close item) (commaSeparated close other) := by
  intro s
  induction n : s.lexemes.length using Nat.strong_induction_on generalizing s with
  | _ n ih =>
    intro clean vs s' ran
    rw [commaSeparated_eq] at ran
    rw [commaSeparated_eq, s.next_moved, s.length_moved]
    split_ifs at ran ⊢ with closed
    · cases ran
      exact ⟨[], rfl, .nil, clean⟩
    · split at ran
      · cases ran
      · next first u taken =>
        obtain ⟨w, second, related, later⟩ := h s clean first u taken
        rw [second]
        exact follows_afterItem (fun s1 clean1 shorter vs1 s1' =>
          ih s1.lexemes.length (n ▸ shorter) s1 rfl clean1 vs1 s1') related later ran

theorem follows_commaChain {item : Parser α} {other : Parser β} (h : Follows f R item other) :
    Follows f (List.Forall₂ R) (commaChain item) (commaChain other) := by
  intro s
  induction n : s.lexemes.length using Nat.strong_induction_on generalizing s with
  | _ n ih =>
    intro clean vs s' ran
    rw [commaChain_eq] at ran
    rw [commaChain_eq, s.length_moved]
    split at ran
    · cases ran
    · next first u taken =>
      obtain ⟨w, second, related, later⟩ := h s clean first u taken
      rw [second]
      exact follows_afterItem (fun s1 clean1 shorter vs1 s1' =>
        ih s1.lexemes.length (n ▸ shorter) s1 rfl clean1 vs1 s1') related later ran

theorem follows_statementsUntil (close : Option Token) {levels : Nat}
    {statement : Parser Node} (h : Follows f (Alike f levels) statement statement) :
    Follows f (AlikeAll f levels) (statementsUntil close statement)
      (statementsUntil close statement) := by
  intro s
  induction n : s.lexemes.length using Nat.strong_induction_on generalizing s with
  | _ n ih =>
    intro clean vs s' ran
    rw [statementsUntil] at ran
    rw [statementsUntil]
    simp only [s.next_moved, s.length_moved] at ran ⊢
    split_ifs at ran ⊢ with closed
    · cases ran
      exact ⟨[], rfl, .nil, clean⟩
    · split at ran
      · cases ran
      · next first u taken =>
        have ended : Follows f (Alike f levels)
            (do let first ← statement; skipSemicolons; return first : Parser Node)
            (do let first ← statement; skipSemicolons; return first : Parser Node) :=
          h.bind fun _ _ alike => follows_skipSemicolons.bind fun _ _ _ => .pure alike
        obtain ⟨w, second, related, later⟩ := ended s clean first u taken
        rw [second]
        simp only [u.length_moved]
        split_ifs at ran ⊢ with shorter
        · split at ran
          · cases ran
          · next more v others =>
            cases ran
            obtain ⟨ws, third, rel, final⟩ :=
              ih u.lexemes.length (n ▸ shorter) u rfl later more s' others
            exact ⟨w :: ws, by rw [third], .cons related rel, final⟩
        · cases ran
          exact ⟨[w], rfl, .cons related .nil, later⟩

theorem Follows.map {p : Parser α} {q : Parser β} (h : Follows f R p q) {k : α → γ} {m : β → δ}
    (image : ∀ v w, R v w → S (k v) (m w)) : Follows f S (k <$> p) (m <$> q) := by
  rw [map_eq_pure_bind, map_eq_pure_bind]
  exact h.bind fun v w related => .pure (image v w related)

theorem follows_params (levels : Nat) : Follows f (AlikeAll f levels) params params := by
  refine (follows_expect _ _).bind fun _ _ _ => ?_
  refine (follows_commaSeparated _ (follows_identifier levels)).bind fun vs ws alike => ?_
  exact (follows_expect _ _).bind fun _ _ _ => .pure alike

theorem follows_importSpecifier (levels : Nat) :
    Follows f (Alike f levels) importSpecifier importSpecifier := by
  refine Follows.here fun _ => ?_
  refine (follows_identifier levels).bind fun imported imported' alike => ?_
  refine follows_peek.bind fun next other same => ?_
  obtain ⟨rfl, -⟩ := same
  split_ifs
  · refine follows_skip.bind fun _ _ _ => (follows_identifier levels).bind fun binding binding' h => ?_
    refine .pure (alike_of_isNeutral levels rfl ?_)
    simp only [moved, alike.same, h.same]
  · refine .pure (alike_of_isNeutral levels rfl ?_)
    simp only [moved, alike.same]

theorem follows_word (text : String) : Follows f Eq (word text) (word text) := by
  refine follows_peek.bind fun next other same => ?_
  obtain ⟨rfl, -⟩ := same
  split_ifs
  · exact follows_skip
  · exact .unexpected _ _

theorem follows_namespaceOrNamed (levels : Nat) :
    Follows f (AlikeAll f levels) namespaceOrNamed namespaceOrNamed := by
  refine (follows_accept _).bind fun star star' same => ?_
  obtain rfl := same
  split_ifs
  · refine Follows.here fun _ => (follows_word _).bind fun _ _ _ => ?_
    refine (follows_identifier levels).bind fun binding binding' alike => .pure ?_
    refine .cons (alike_of_isNeutral levels rfl ?_) .nil
    simp only [moved, alike.same]
  · refine (follows_accept _).bind fun brace brace' same => ?_
    obtain rfl := same
    split_ifs
    · refine (follows_commaSeparated _ (follows_importSpecifier levels)).bind fun vs ws alike => ?_
      exact (follows_expect _ _).bind fun _ _ _ => .pure alike
    · exact .pure .nil

theorem follows_importClause (levels : Nat) :
    Follows f (AlikeAll f levels) importClause importClause := by
  refine follows_peek.bind fun next other same => ?_
  obtain ⟨rfl, -⟩ := same
  split
  · exact .pure .nil
  · refine Follows.here fun _ => ?_
    refine (follows_identifier levels).bind fun binding binding' alike => ?_
    refine (follows_accept _).bind fun _ _ _ => ?_
    refine (follows_namespaceOrNamed levels).bind fun vs ws others => ?_
    refine (follows_word _).bind fun _ _ _ => .pure (.cons (alike_of_isNeutral levels rfl ?_) others)
    simp only [moved, alike.same]
  · refine (follows_namespaceOrNamed levels).bind fun vs ws others => ?_
    exact (follows_word _).bind fun _ _ _ => .pure others

theorem follows_importDeclaration (levels : Nat) :
    Follows f (Alike f levels) importDeclaration importDeclaration := by
  refine Follows.here fun _ => (follows_expect _ _).bind fun _ _ _ => ?_
  refine (follows_importClause levels).bind fun vs ws alike => Follows.here fun _ => ?_
  refine follows_peek.bind fun next other same => ?_
  obtain ⟨rfl, -⟩ := same
  split
  · refine follows_skip.bind fun _ _ _ => .pure (alike_of_isNeutral levels rfl ?_)
    simp only [moved, alike.same]
  · exact .unexpected _ _

end Parser

open Dashboard.Script.Parser

namespace Productions

/-- Every production of this level is followed by itself, with plain trees. -/
structure Follow (f : Position → Position) (levels : Nat) (p : Productions) : Prop where
  statement : Follows f (Alike f levels) p.statement p.statement
  assignment : Follows f (Alike f levels) p.assignment p.assignment
  binary : ∀ least, Follows f (Alike f levels) (p.binary least) (p.binary least)
  unary : Follows f (Alike f levels) p.unary p.unary
  primary : Follows f (Alike f levels) p.primary p.primary

section Level

variable {levels : Nat} {inner : Productions} (h : inner.Follow f levels)

include h

theorem follows_block : Follows f (Alike f (levels + 1)) (block inner) (block inner) := by
  refine Follows.here fun _ => (follows_expect _ _).bind fun _ _ _ => ?_
  refine follows_skipSemicolons.bind fun _ _ _ => ?_
  refine (follows_statementsUntil _ h.statement).bind fun vs ws alike => ?_
  refine (follows_expect _ _).bind fun _ _ _ => .pure (alike_of_isNeutral _ rfl ?_)
  simp only [moved, alike.same]

theorem follows_declarator : Follows f (Alike f levels) (declarator inner) (declarator inner) := by
  refine Follows.here fun _ => (follows_identifier levels).bind fun name name' named => ?_
  refine (follows_accept _).bind fun taken taken' same => ?_
  obtain rfl := same
  split_ifs
  · refine h.assignment.bind fun value value' alike => .pure ⟨?_, ?_⟩
    · simp only [moved, moved?, named.same, alike.same]
    · refine Node.isPlain_declarator _ named.plain fun init found => ?_
      exact Option.some.inj found ▸ alike.plain
  · refine .pure ⟨?_, Node.isPlain_declarator _ named.plain fun init found => ?_⟩
    · simp only [moved, moved?, named.same]
    · cases found

theorem follows_declarationOf (kind : DeclarationKind) :
    Follows f (Alike f levels) (declarationOf inner kind) (declarationOf inner kind) := by
  refine Follows.here fun _ => follows_skip.bind fun _ _ _ => ?_
  refine (follows_commaChain (follows_declarator h)).bind fun vs ws alike => .pure ⟨?_, ?_⟩
  · simp only [moved, AlikeAll.same alike]
  · exact Node.isPlain_declarations _ _ (AlikeAll.plain alike)

theorem follows_function (isDeclaration : Bool) :
    Follows f (Alike f (levels + 1)) (function inner isDeclaration) (function inner isDeclaration) := by
  refine Follows.here fun _ => (follows_expect _ _).bind fun _ _ _ => ?_
  refine follows_peek.bind fun next other same => ?_
  obtain ⟨rfl, -⟩ := same
  have rest (name name' : Option Node) (named : Alike? f (levels + 1) name name')
      (position : Position) :
      Follows f (Alike f (levels + 1))
        (do
          let names ← params
          let body ← block inner
          return .function position isDeclaration name names body : Parser Node)
        (do
          let names ← params
          let body ← block inner
          return .function (f position) isDeclaration name' names body : Parser Node) := by
    refine (follows_params (levels + 1)).bind fun vs ws alike => ?_
    refine (follows_block h).bind fun body body' same => .pure (alike_of_isNeutral _ rfl ?_)
    simp only [moved, named.same, alike.same, same.same]
  split
  · refine ((follows_identifier (levels + 1)).map fun v w alike => ?_).bind fun name name' named =>
      rest name name' named _
    exact Option.Rel.some alike
  · dsimp only
    split_ifs
    · exact (Follows.unexpected _ _).bind fun name name' named => rest name name' named _
    · exact (Follows.pure .none).bind fun name name' named => rest name name' named _

theorem follows_declaration? :
    Follows f (Alike? f (levels + 1)) (declaration? inner) (declaration? inner) := by
  refine follows_peek.bind fun next other same => ?_
  obtain ⟨rfl, -⟩ := same
  have declares (kind : DeclarationKind) :
      Follows f (Alike? f (levels + 1)) (some <$> declarationOf inner kind)
        (some <$> declarationOf inner kind) :=
    (follows_declarationOf h kind).map fun v w alike => .some (alike.mono (Nat.le_succ _))
  split
  · exact declares .letKind
  · exact declares .constKind
  · exact declares .varKind
  · exact (follows_function h true).map fun v w alike => .some alike
  · exact .pure .none

theorem follows_returnStatement :
    Follows f (Alike f (levels + 1)) (returnStatement inner) (returnStatement inner) := by
  refine Follows.here fun _ => follows_skip.bind fun _ _ _ => ?_
  refine follows_peek.bind fun next other same => ?_
  obtain ⟨rfl, -⟩ := same
  have nothing (position : Position) :
      Follows f (Alike f (levels + 1)) (pure (Node.returned position none) : Parser Node)
        (pure (Node.returned (f position) none)) :=
    .pure (alike_of_isNeutral _ rfl rfl)
  split
  · exact nothing _
  · exact nothing _
  · exact nothing _
  · refine h.assignment.bind fun v w alike => .pure (alike_of_isNeutral _ rfl ?_)
    simp only [moved, moved?, alike.same]

theorem follows_ifStatement :
    Follows f (Alike f (levels + 1)) (ifStatement inner) (ifStatement inner) := by
  refine Follows.here fun _ => follows_skip.bind fun _ _ _ => ?_
  refine (follows_expect _ _).bind fun _ _ _ => h.assignment.bind fun test test' tested => ?_
  refine (follows_expect _ _).bind fun _ _ _ => h.statement.bind fun yes yes' alike => ?_
  refine follows_skipSemicolons.bind fun _ _ _ => (follows_accept _).bind fun taken taken' same => ?_
  obtain rfl := same
  split_ifs
  · refine h.statement.bind fun no no' other => .pure (alike_of_isNeutral _ rfl ?_)
    simp only [moved, moved?, tested.same, alike.same, other.same]
  · refine .pure (alike_of_isNeutral _ rfl ?_)
    simp only [moved, moved?, tested.same, alike.same]

theorem follows_statementBody :
    Follows f (Alike f (levels + 1)) (statementBody inner) (statementBody inner) := by
  refine Follows.here fun _ => (follows_declaration? h).bind fun found found' alike => ?_
  cases alike with
  | some alike => exact .pure alike
  | none =>
    refine follows_peek.bind fun next other same => ?_
    obtain ⟨rfl, -⟩ := same
    split
    · exact follows_importDeclaration _
    · refine follows_skip.bind fun _ _ _ => (follows_declaration? h).bind fun found found' alike => ?_
      cases alike with
      | some alike =>
        refine .pure (alike_of_isNeutral _ rfl ?_)
        simp only [moved, alike.same]
      | none => exact .unexpected _ _
    · exact follows_returnStatement h
    · exact follows_ifStatement h
    · exact follows_block h
    · exact follows_skip.bind fun _ _ _ => .pure (alike_of_isNeutral _ rfl rfl)
    · exact .unexpected _ _
    · refine h.assignment.bind fun v w alike => .pure (alike_of_isNeutral _ rfl ?_)
      simp only [moved, alike.same]

theorem follows_spreadOrAssignment :
    Follows f (Alike f levels) (spreadOrAssignment inner) (spreadOrAssignment inner) := by
  refine Follows.here fun _ => (follows_accept _).bind fun taken taken' same => ?_
  obtain rfl := same
  split_ifs
  · refine h.assignment.bind fun v w alike => .pure (alike_of_isNeutral _ rfl ?_)
    simp only [moved, alike.same]
  · exact h.assignment

theorem follows_arguments :
    Follows f (AlikeAll f levels) (arguments inner) (arguments inner) := by
  refine (follows_expect _ _).bind fun _ _ _ => ?_
  refine (follows_commaSeparated _ (follows_spreadOrAssignment h)).bind fun vs ws alike => ?_
  exact (follows_expect _ _).bind fun _ _ _ => .pure alike

theorem follows_element : Follows f (Alike f levels) (element inner) (element inner) := by
  refine follows_peek.bind fun next other same => ?_
  obtain ⟨rfl, -⟩ := same
  split_ifs
  · exact .fail _ _
  · exact follows_spreadOrAssignment h

theorem follows_array : Follows f (Alike f (levels + 1)) (array inner) (array inner) := by
  refine Follows.here fun _ => (follows_expect _ _).bind fun _ _ _ => ?_
  refine (follows_commaSeparated _ (follows_element h)).bind fun vs ws alike => ?_
  refine (follows_expect _ _).bind fun _ _ _ => .pure ⟨?_, Node.isPlain_array _ (AlikeAll.plain alike)⟩
  simp only [moved, AlikeAll.same alike]

omit h in
theorem follows_propertyKey (levels : Nat) :
    Follows f (fun a b => Alike f levels a.1 b.1 ∧ a.2 = b.2) propertyKey propertyKey := by
  refine Follows.here fun _ => follows_peek.bind fun next other same => ?_
  obtain ⟨rfl, clean⟩ := same
  split
  · refine follows_skip.bind fun _ _ _ => .pure ⟨⟨rfl, Node.isPlain_literal _ _ ?_⟩, rfl⟩
    intro x shape
    cases shape
  · refine follows_skip.bind fun _ _ _ => .pure ⟨⟨rfl, Node.isPlain_literal _ _ ?_⟩, rfl⟩
    intro x shape
    cases shape
    exact clean _ rfl
  · exact .fail _ _
  · exact follows_skip.bind fun _ _ _ => .pure ⟨⟨rfl, Node.isPlain_identifier _ _ (clean _ rfl)⟩, rfl⟩
  · refine follows_propertyName.bind fun name name' named => ?_
    obtain ⟨rfl, word⟩ := named
    exact .pure ⟨⟨rfl, Node.isPlain_identifier _ _ word⟩, rfl⟩

theorem follows_property : Follows f (Alike f levels) (property inner) (property inner) := by
  refine Follows.here fun _ => (follows_accept _).bind fun taken taken' same => ?_
  obtain rfl := same
  split_ifs
  · refine h.assignment.bind fun v w alike => .pure (alike_of_isNeutral _ rfl ?_)
    simp only [moved, alike.same]
  · refine (follows_propertyKey levels).bind fun a b related => ?_
    obtain ⟨key, alone⟩ := a
    obtain ⟨key', alone'⟩ := b
    obtain ⟨alike, rfl⟩ := related
    change Alike f levels key key' at alike
    refine (follows_accept _).bind fun taken taken' same => ?_
    obtain rfl := same
    split_ifs
    · refine h.assignment.bind fun v w value => .pure ⟨?_, Node.isPlain_property _ _ _ value.plain⟩
      simp only [moved, alike.same, value.same]
    · refine .pure ⟨?_, Node.isPlain_property _ _ _ alike.plain⟩
      simp only [moved, alike.same]
    · exact .unexpected _ _

theorem follows_object : Follows f (Alike f (levels + 1)) (object inner) (object inner) := by
  refine Follows.here fun _ => (follows_expect _ _).bind fun _ _ _ => ?_
  refine (follows_commaSeparated _ (follows_property h)).bind fun vs ws alike => ?_
  refine (follows_expect _ _).bind fun _ _ _ => .pure ⟨?_, Node.isPlain_object _ (AlikeAll.plain alike)⟩
  simp only [moved, AlikeAll.same alike]

omit h in
theorem follows_constructorPath (links : Nat) (position : Position) {v w : Node}
    (alike : Alike f (levels + 1) v w) :
    Follows f (Alike f (levels + 1)) (constructorPath position links v)
      (constructorPath (f position) links w) := by
  induction links generalizing v w with
  | zero =>
    refine (follows_accept _).bind fun taken taken' same => ?_
    obtain rfl := same
    split_ifs
    · exact .fail _ _
    · exact .pure alike
  | succ links ih =>
    refine (follows_accept _).bind fun taken taken' same => ?_
    obtain rfl := same
    split_ifs
    · refine Follows.here fun _ => follows_propertyName.bind fun name name' named => ?_
      obtain ⟨rfl, word⟩ := named
      refine ih ⟨?_, Node.isPlain_member _ _ _ fun _ => Node.isPlain_identifier _ _ word⟩
      simp only [moved, alike.same]
    · exact .pure alike

theorem follows_newExpression (links : Nat) :
    Follows f (Alike f (levels + 1)) (newExpression links inner) (newExpression links inner) := by
  refine Follows.here fun _ => follows_skip.bind fun _ _ _ => ?_
  refine h.primary.bind fun first first' alike => ?_
  refine (follows_constructorPath links _ (alike.mono (Nat.le_succ _))).bind
    fun callee callee' called => follows_peek.bind fun next other same => ?_
  obtain ⟨rfl, -⟩ := same
  split_ifs
  · refine (follows_arguments h).bind fun vs ws others => .pure (alike_of_isNeutral _ rfl ?_)
    simp only [moved, called.same, AlikeAll.same others]
  · refine .pure (alike_of_isNeutral _ rfl ?_)
    simp only [moved, movedAll, called.same]

theorem follows_primaryBody (links : Nat) :
    Follows f (Alike f (levels + 1)) (primaryBody links inner) (primaryBody links inner) := by
  refine Follows.here fun p => follows_peek.bind fun next other same => ?_
  obtain ⟨rfl, clean⟩ := same
  have scalar (value : Scalar) (sound : ∀ x, value = .number x → IsSound x) :
      Follows f (Alike f (levels + 1)) (do skip; return .literal p value : Parser Node)
        (do skip; return .literal (f p) value : Parser Node) :=
    follows_skip.bind fun _ _ _ => .pure ⟨rfl, Node.isPlain_literal _ _ sound⟩
  split
  · refine scalar _ fun x shape => ?_
    cases shape
    exact clean _ rfl
  · exact scalar _ fun x shape => by cases shape
  · exact scalar _ fun x shape => by cases shape
  · exact scalar _ fun x shape => by cases shape
  · exact follows_skip.bind fun _ _ _ => .pure (alike_of_isNeutral _ rfl rfl)
  · exact follows_identifier _
  · refine follows_skip.bind fun _ _ _ => h.assignment.bind fun v w alike => ?_
    exact (follows_expect _ _).bind fun _ _ _ => .pure (alike.mono (Nat.le_succ _))
  · exact follows_array h
  · exact follows_object h
  · exact follows_function h false
  · exact follows_newExpression h links
  · exact .unexpected _ _

theorem follows_postfixChain (links : Nat) {v w : Node} (alike : Alike f (levels + 1) v w) :
    Follows f (Alike f (levels + 1)) (postfixChain inner links v) (postfixChain inner links w) := by
  induction links generalizing v w with
  | zero =>
    rw [postfixChain, postfixChain]
    refine follows_peek.bind fun next other same => ?_
    obtain ⟨rfl, -⟩ := same
    split
    · exact .pure alike
    · split_ifs
      · exact .fail _ _
      · exact .pure alike
  | succ links ih =>
    rw [postfixChain, postfixChain]
    refine follows_peek.bind fun next other same => ?_
    obtain ⟨rfl, -⟩ := same
    split
    · exact .pure alike
    · split_ifs
      · dsimp only
        split
        · refine (follows_arguments h).bind fun vs ws others => ih (alike_of_isNeutral _ rfl ?_)
          simp only [moved, Node.position_moved, alike.same, AlikeAll.same others]
        · refine follows_skip.bind fun _ _ _ => h.assignment.bind fun name name' named => ?_
          refine (follows_expect _ _).bind fun _ _ _ => ih ⟨?_, Node.isPlain_member _ _ _ ?_⟩
          · simp only [moved, Node.position_moved, alike.same, named.same]
          · intro written
            cases written
        · refine follows_skip.bind fun _ _ _ => Follows.here fun _ => ?_
          refine follows_propertyName.bind fun name name' named => ?_
          obtain ⟨rfl, word⟩ := named
          refine ih ⟨?_, Node.isPlain_member _ _ _ fun _ => Node.isPlain_identifier _ _ word⟩
          simp only [moved, Node.position_moved, alike.same]
        · refine follows_skip.bind fun _ _ _ => ih (alike_of_isNeutral _ rfl ?_)
          simp only [moved, Node.position_moved, alike.same]
        · exact .pure alike
      · exact .pure alike

theorem follows_prefixed (operator : UnaryOperator) (position : Position) :
    Follows f (Alike f (levels + 1)) (prefixed inner operator position)
      (prefixed inner operator (f position)) := by
  refine follows_skip.bind fun _ _ _ => h.unary.bind fun v w alike => ?_
  refine .pure (alike_of_isNeutral _ rfl ?_)
  simp only [moved, alike.same]

theorem follows_stepped (operator : Operator) (position : Position) :
    Follows f (Alike f (levels + 1)) (stepped inner operator position)
      (stepped inner operator (f position)) := by
  refine follows_skip.bind fun _ _ _ => h.unary.bind fun v w alike => ?_
  refine .pure (alike_of_isNeutral _ rfl ?_)
  simp only [moved, alike.same]

theorem follows_unaryBody (links : Nat) :
    Follows f (Alike f (levels + 1)) (unaryBody links inner) (unaryBody links inner) := by
  refine Follows.here fun p => follows_peek.bind fun next other same => ?_
  obtain ⟨rfl, -⟩ := same
  split
  · refine follows_skip.bind fun _ _ _ => follows_peek.bind fun next other same => ?_
    obtain ⟨rfl, clean⟩ := same
    split
    · next value =>
      refine follows_skip.bind fun _ _ _ => follows_postfixChain h links ⟨rfl, ?_⟩
      refine Node.isPlain_literal _ _ fun x shape => ?_
      cases shape
      have sound : IsSound value := clean _ rfl
      intro finite
      refine (sound ?_).negate
      cases value with
      | finite => rfl
      | infinite => exact finite
    · refine h.unary.bind fun v w alike => .pure (alike_of_isNeutral _ rfl ?_)
      simp only [moved, alike.same]
  · exact follows_prefixed h _ _
  · exact follows_prefixed h _ _
  · exact follows_prefixed h _ _
  · exact follows_prefixed h _ _
  · exact follows_stepped h _ _
  · exact follows_stepped h _ _
  · exact (follows_primaryBody h links).bind fun v w alike => follows_postfixChain h links alike

theorem follows_binaryChain (links least : Nat) (position : Position) {v w : Node}
    (alike : Alike f (levels + 1) v w) :
    Follows f (Alike f (levels + 1)) (binaryChain inner position least links v)
      (binaryChain inner (f position) least links w) := by
  induction links generalizing v w with
  | zero =>
    rw [binaryChain, binaryChain]
    refine follows_peek.bind fun next other same => ?_
    obtain ⟨rfl, -⟩ := same
    split
    · split
      · exact .pure alike
      · split_ifs
        · exact .pure alike
        · exact .fail _ _
    · exact .pure alike
  | succ links ih =>
    rw [binaryChain, binaryChain]
    refine follows_peek.bind fun next other same => ?_
    obtain ⟨rfl, -⟩ := same
    split
    · split
      · exact .pure alike
      · split_ifs
        · exact .pure alike
        · refine follows_skip.bind fun _ _ _ => (h.binary _).bind fun right right' other => ?_
          refine ih (alike_of_isNeutral _ rfl ?_)
          simp only [moved, alike.same, other.same]
    · exact .pure alike

theorem follows_binaryBody (links least : Nat) :
    Follows f (Alike f (levels + 1)) (binaryBody links inner least) (binaryBody links inner least) := by
  refine Follows.here fun _ => (follows_unaryBody h links).bind fun v w alike => ?_
  exact follows_binaryChain h links least _ alike

theorem follows_conditional (links : Nat) :
    Follows f (Alike f (levels + 1)) (conditional links inner) (conditional links inner) := by
  refine Follows.here fun _ => (follows_binaryBody h links 1).bind fun test test' tested => ?_
  refine (follows_accept _).bind fun taken taken' same => ?_
  obtain rfl := same
  split_ifs
  · refine h.assignment.bind fun yes yes' alike => (follows_expect _ _).bind fun _ _ _ => ?_
    refine h.assignment.bind fun no no' other => .pure (alike_of_isNeutral _ rfl ?_)
    simp only [moved, tested.same, alike.same, other.same]
  · exact .pure tested

theorem follows_arrow : Follows f (Alike f (levels + 1)) (arrow inner) (arrow inner) := by
  refine Follows.here fun p => follows_peek.bind fun next other same => ?_
  obtain ⟨rfl, -⟩ := same
  have rest (names names' : List Node) (alike : AlikeAll f (levels + 1) names names') :
      Follows f (Alike f (levels + 1))
        (do
          expect .arrow "'=>'"
          if (← peek) = some .openBrace then return .arrow p names (← block inner)
          else return .arrow p names (← inner.assignment) : Parser Node)
        (do
          expect .arrow "'=>'"
          if (← peek) = some .openBrace then return .arrow (f p) names' (← block inner)
          else return .arrow (f p) names' (← inner.assignment) : Parser Node) := by
    refine (follows_expect _ _).bind fun _ _ _ => follows_peek.bind fun next other same => ?_
    obtain ⟨rfl, -⟩ := same
    split_ifs
    · refine (follows_block h).bind fun body body' same => .pure (alike_of_isNeutral _ rfl ?_)
      simp only [moved, alike.same, same.same]
    · refine h.assignment.bind fun body body' same => .pure (alike_of_isNeutral _ rfl ?_)
      simp only [moved, alike.same, same.same]
  split
  · refine ((follows_identifier (levels + 1)).map fun v w alike => ?_).bind rest
    exact .cons alike .nil
  · exact (follows_params (levels + 1)).bind rest

omit h in
theorem arrowAhead_moved (f : Position → Position) (s : Tokens) :
    arrowAhead (s.moved f).lexemes = arrowAhead s.lexemes := by
  unfold arrowAhead
  rw [Tokens.moved, map_token_moved]

theorem follows_assignmentBody (links : Nat) :
    Follows f (Alike f (levels + 1)) (assignmentBody links inner) (assignmentBody links inner) := by
  have whole : Follows f (fun s t => t = s.moved f) get get := by
    intro s clean v s' ran
    cases ran
    exact ⟨s.moved f, rfl, rfl, clean⟩
  refine whole.bind fun s t same => ?_
  rw [same, arrowAhead_moved]
  split_ifs
  · exact follows_arrow h
  · refine Follows.here fun _ => (follows_conditional h links).bind fun left left' alike => ?_
    refine follows_peek.bind fun next other same => ?_
    obtain ⟨rfl, -⟩ := same
    split
    · split_ifs
      · refine follows_skip.bind fun _ _ _ => h.assignment.bind fun right right' other => ?_
        refine .pure (alike_of_isNeutral _ rfl ?_)
        simp only [moved, alike.same, other.same]
      · exact .pure alike
    · exact .pure alike

end Level

theorem follow_entered (f : Position → Position) (levels : Nat) : Follow f levels (entered levels) := by
  induction levels with
  | zero => exact ⟨.fail _ _, .fail _ _, fun _ => .fail _ _, .fail _ _, .fail _ _⟩
  | succ levels ih =>
    exact ⟨follows_statementBody ih, follows_assignmentBody ih levels, follows_binaryBody ih levels,
      follows_unaryBody ih levels, follows_primaryBody ih levels⟩

end Productions

/-- The program that characters spell. -/
def programOf (letters : List Char) (origin : Position) : Except ParseError Node := do
  let (found, stop) ← lexemes origin letters
  let (node, _) ← program origin ⟨found, stop⟩
  return node

theorem parseScript_ofList (letters : List Char) (origin : Position) :
    parseScript (String.ofList letters) origin = programOf letters origin := by
  rw [parseScript, parseText, lexemesOf, String.toList_ofList]
  rfl

end Dashboard.Script
