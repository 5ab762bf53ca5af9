import Dashboard.Proofs.Script.Grammar
import Dashboard.Proofs.Script.Parsing

/-!
What parsers give: from tokens that satisfy a condition, only results that satisfy another. The
lexer spells its words as names, so a script parses to no tree outside the grammar.
-/
namespace Dashboard.Script

/-- Words are spelled as names, and those of identifiers are free. -/
def Token.IsSpelled : Token → Prop
  | identifier name => IsName name ∧ IsFree name
  | reserved name => IsName name
  | _ => True

theorem isName_nameRun {c : Char} (h : startsName c = true) (rest : List Char) :
    IsName (String.ofList (nameRun (c :: rest))) := by
  refine ⟨(isWord_nameRun h rest).1, fun d member => ?_⟩
  rw [String.toList_ofList] at member
  exact List.mem_takeWhile_imp member

theorem Token.isSpelled_ofWord {word : String} (h : IsName word) : (ofWord word).IsSpelled := by
  cases found : ofWord word with
  | identifier name =>
    have same := propertyName?_ofWord word
    rw [found] at same
    obtain rfl : name = word := Option.some.inj same
    exact ⟨h, found⟩
  | reserved name =>
    have same := propertyName?_ofWord word
    rw [found] at same
    obtain rfl : name = word := Option.some.inj same
    exact h
  | _ => trivial

theorem Token.isName_of_propertyName? {token : Token} {name : String} (spelled : token.IsSpelled)
    (h : token.propertyName? = some name) : IsName name := by
  cases token with
  | identifier word => exact Option.some.inj h ▸ spelled.1
  | reserved word => exact Option.some.inj h ▸ spelled
  | keyword word =>
    obtain rfl := Option.some.inj h
    cases word <;> exact ⟨by decide, List.all_eq_true.mp (by decide)⟩
  | boolean value =>
    obtain rfl := Option.some.inj h
    cases value <;> exact ⟨by decide, List.all_eq_true.mp (by decide)⟩
  | null =>
    obtain rfl := Option.some.inj h
    exact ⟨by decide, List.all_eq_true.mp (by decide)⟩
  | _ => cases h

theorem scanNumber_eq_ok {text : List Char} {token : Token} {k : Nat}
    (h : scanNumber text = .ok (token, k)) : ∃ value, token = .number value := by
  have plain {text : List Char} (h : scanNumber.decimal text = .ok (token, k)) :
      ∃ value, token = .number value := by
    simp only [scanNumber.decimal] at h
    repeat' split at h
    all_goals
      cases h
      try exact ⟨_, rfl⟩
  unfold scanNumber at h
  split at h
  · split_ifs at h
    · dsimp only at h
      split at h
      · cases h
      · cases h
        exact ⟨_, rfl⟩
    · exact plain h
  · exact plain h

theorem isSpelled_scanToken {c : Char} {rest : List Char} {token : Token} {k : Nat}
    (h : scanToken c rest = .ok (token, k)) : token.IsSpelled := by
  unfold scanToken at h
  split at h
  · next mark found =>
    cases h
    unfold mark? at found
    split at found <;> cases found <;> trivial
  · split_ifs at h with quote template digit name
    · obtain ⟨value, k, -, rfl, -⟩ := Scan.map_eq_ok h
      trivial
    · split at h
      · cases h
      · cases h
        trivial
    · obtain ⟨value, rfl⟩ := scanNumber_eq_ok h
      trivial
    · cases h
      exact Token.isSpelled_ofWord (isName_nameRun name _)
    · unfold scanPunctuation at h
      repeat' split at h
      all_goals
        cases h
        try trivial

/-! What parsers give. -/

section Yielding

variable {α β γ : Type}

/-- All lexemes ahead satisfy `T`. -/
def Tokens.Satisfy (T : Lexeme → Prop) (s : Tokens) : Prop := ∀ l ∈ s.lexemes, T l

variable {T : Lexeme → Prop} {P Q : α → Prop}

theorem Tokens.Satisfy.tail {s : Tokens} (h : s.Satisfy T) {rest : List Lexeme}
    (suffix : rest ⊆ s.lexemes) (stop : Position) : Tokens.Satisfy T ⟨rest, stop⟩ :=
  fun l member => h l (suffix member)

namespace Parser

/-- From lexemes that satisfy `T` the parser gives nothing but results that satisfy `P`, and leaves
such lexemes. -/
def Yields (T : Lexeme → Prop) (P : α → Prop) (p : Parser α) : Prop :=
  ∀ s, s.Satisfy T → ∀ v s', p s = .ok (v, s') → P v ∧ s'.Satisfy T

theorem Yields.bind {p : Parser β} {f : β → Parser α} {Q : β → Prop} (h : Yields T Q p)
    (k : ∀ v, Q v → Yields T P (f v)) : Yields T P (p >>= f) := by
  intro s holds v s' ran
  obtain ⟨a, t, first, rest⟩ := run_bind_eq_ok.mp ran
  obtain ⟨result, later⟩ := h s holds a t first
  exact k a result t later v s' rest

theorem Yields.pure {v : α} (h : P v) : Yields T P (Pure.pure v : Parser α) := by
  intro s holds a s' ran
  cases ran
  exact ⟨h, holds⟩

theorem Yields.fail (fault : ParseFault) : Yields T P (fail fault : Parser α) := by
  intro s holds v s' ran
  cases ran

theorem Yields.unexpected (expected : String) : Yields T P (unexpected expected : Parser α) := by
  intro s holds v s' ran
  cases ran

theorem Yields.mono {p : Parser α} (h : Yields T P p) (weaker : ∀ v, P v → Q v) : Yields T Q p :=
  fun s holds v s' ran => (h s holds v s' ran).imp_left (weaker v)

theorem Yields.map {p : Parser β} {Q : β → Prop} (h : Yields T Q p) {f : β → α}
    (k : ∀ v, Q v → P (f v)) : Yields T P (f <$> p) := by
  rw [map_eq_pure_bind]
  exact h.bind fun v result => .pure (k v result)

theorem yields_peek : Yields T (fun _ => True) peek := by
  intro s holds v s' ran
  cases ran
  exact ⟨trivial, holds⟩

theorem yields_here : Yields T (fun _ => True) here := by
  intro s holds v s' ran
  cases ran
  exact ⟨trivial, holds⟩

/-- A look at the next lexeme, its place first. -/
theorem Yields.next {f : Position → Option Token → Parser α}
    (ahead : ∀ l, T l → Yields T P (f l.position (some l.token)))
    (spent : ∀ stop, Yields T P (f stop none)) :
    Yields T P (do
      let position ← here
      let next ← peek
      f position next) := by
  intro s holds v s' ran
  obtain ⟨lexemes, stop⟩ := s
  cases lexemes with
  | nil => exact spent stop _ holds v s' ran
  | cons l rest => exact ahead l (holds l List.mem_cons_self) _ holds v s' ran

theorem yields_skip : Yields T (fun _ => True) skip := by
  intro s holds v s' ran
  cases ran
  exact ⟨trivial, holds.tail (List.tail_subset _) _⟩

theorem yields_skipSemicolons : Yields T (fun _ => True) skipSemicolons := by
  intro s holds v s' ran
  cases ran
  exact ⟨trivial, holds.tail (List.dropWhile_suffix _).subset _⟩

theorem yields_accept (token : Token) : Yields T (fun _ => True) (accept token) := by
  refine yields_peek.bind fun next _ => ?_
  split_ifs
  · exact yields_skip.bind fun _ _ => .pure trivial
  · exact .pure trivial

theorem yields_expect (token : Token) (expected : String) :
    Yields T (fun _ => True) (expect token expected) := by
  refine (yields_accept token).bind fun taken _ => ?_
  cases taken with
  | true => exact .pure trivial
  | false => exact .unexpected _

theorem yields_word (text : String) : Yields T (fun _ => True) (word text) := by
  refine yields_peek.bind fun next _ => ?_
  split_ifs
  · exact yields_skip
  · exact .unexpected _

theorem yields_afterItem {room : Nat} {others : Parser (List α)}
    (ih : ∀ s, s.Satisfy T → s.lexemes.length < room → ∀ vs s', others s = .ok (vs, s') →
      (∀ v ∈ vs, P v) ∧ s'.Satisfy T)
    {first : α} (result : P first) {s : Tokens} (holds : s.Satisfy T) {vs : List α} {s' : Tokens}
    (ran : afterItem room others first s = .ok (vs, s')) : (∀ v ∈ vs, P v) ∧ s'.Satisfy T := by
  have single : ∀ v ∈ [first], P v := List.forall_mem_singleton.mpr result
  unfold afterItem at ran
  split at ran
  · next place rest shape =>
    have later : Tokens.Satisfy T ⟨rest, s.stop⟩ :=
      holds.tail (shape ▸ List.subset_cons_self _ rest) _
    split_ifs at ran with shorter
    · split at ran
      · cases ran
      · next more u taken =>
        cases ran
        obtain ⟨results, final⟩ := ih _ later shorter more _ taken
        exact ⟨List.forall_mem_cons.mpr ⟨result, results⟩, final⟩
    · cases ran
      exact ⟨single, later⟩
  · cases ran
    exact ⟨single, holds⟩

theorem yields_commaSeparated (close : Token) {item : Parser α} (h : Yields T P item) :
    Yields T (fun vs => ∀ v ∈ vs, P v) (commaSeparated close item) := by
  intro s
  induction n : s.lexemes.length using Nat.strong_induction_on generalizing s with
  | _ n ih =>
    intro holds vs s' ran
    rw [commaSeparated_eq] at ran
    split_ifs at ran
    · cases ran
      exact ⟨by simp, holds⟩
    · split at ran
      · cases ran
      · next first t taken =>
        obtain ⟨result, later⟩ := h s holds first t taken
        exact yields_afterItem
          (fun u satisfied shorter => ih u.lexemes.length (n ▸ shorter) u rfl satisfied) result later ran

theorem yields_commaChain {item : Parser α} (h : Yields T P item) :
    Yields T (fun vs => ∀ v ∈ vs, P v) (commaChain item) := by
  intro s
  induction n : s.lexemes.length using Nat.strong_induction_on generalizing s with
  | _ n ih =>
    intro holds vs s' ran
    rw [commaChain_eq] at ran
    split at ran
    · cases ran
    · next first t taken =>
      obtain ⟨result, later⟩ := h s holds first t taken
      exact yields_afterItem
        (fun u satisfied shorter => ih u.lexemes.length (n ▸ shorter) u rfl satisfied) result later ran

theorem yields_statementsUntil (close : Option Token) {P : Node → Prop} {statement : Parser Node}
    (h : Yields T P statement) :
    Yields T (fun vs => ∀ v ∈ vs, P v) (statementsUntil close statement) := by
  intro s
  induction n : s.lexemes.length using Nat.strong_induction_on generalizing s with
  | _ n ih =>
    intro holds vs s' ran
    rw [statementsUntil] at ran
    split_ifs at ran
    · cases ran
      exact ⟨by simp, holds⟩
    · split at ran
      · cases ran
      · next first t taken =>
        have ended : Yields T P
            (do let first ← statement; skipSemicolons; return first : Parser Node) :=
          h.bind fun _ result => yields_skipSemicolons.bind fun _ _ => .pure result
        obtain ⟨result, later⟩ := ended s holds first t taken
        split_ifs at ran with shorter
        · split at ran
          · cases ran
          · next more u others =>
            cases ran
            obtain ⟨results, final⟩ :=
              ih t.lexemes.length (n ▸ shorter) t rfl later more s' others
            exact ⟨List.forall_mem_cons.mpr ⟨result, results⟩, final⟩
        · cases ran
          exact ⟨List.forall_mem_singleton.mpr result, later⟩

end Parser

end Yielding

/-! The productions, from lexemes with a condition on their names. -/

variable {stands : Position → String → Prop}

/-- A lexeme that can be taken for a name stands where that name does. -/
def NamesStand (stands : Position → String → Prop) (l : Lexeme) : Prop :=
  ∀ name, l.token.propertyName? = some name → stands l.position name

/-- A lexeme as the lexer cuts it, with a condition on its name. -/
structure Fits (stands : Position → String → Prop) (l : Lexeme) : Prop where
  named : NamesStand stands l
  spelled : l.token.IsSpelled

namespace Parser

abbrev Forms (stands : Position → String → Prop) (category : Category) (p : Parser Node) : Prop :=
  Yields (Fits stands) (IsFormedWith stands category) p

abbrev FormsAll (stands : Position → String → Prop) (category : Category) (p : Parser (List Node)) :
    Prop :=
  Yields (Fits stands) (fun nodes => ∀ node ∈ nodes, IsFormedWith stands category node) p

theorem yields_identifier {P : Node → Prop}
    (made : ∀ p word, stands p word → IsFree word → P (.identifier p word)) :
    Yields (Fits stands) P identifier := by
  refine .next (fun ⟨token, p⟩ fits => ?_) fun _ => .unexpected _
  dsimp only
  split
  · next word found =>
    obtain rfl : token = .identifier word := Option.some.inj found
    exact yields_skip.bind fun _ _ => .pure (made p word (fits.named word rfl) fits.spelled.2)
  · exact .unexpected _

theorem forms_identifier : Forms stands .name identifier :=
  yields_identifier fun p _ spelled _ => .name p spelled

theorem forms_reference : Forms stands .expression identifier :=
  yields_identifier fun p _ spelled free => .reference p spelled free

/-- The name of a property, its place first. -/
theorem Yields.named {α : Type} {P : α → Prop} {f : Position → String → Parser α}
    (h : ∀ p name, stands p name → Yields (Fits stands) P (f p name)) :
    Yields (Fits stands) P (do
      let place ← here
      let name ← propertyName
      f place name) := by
  intro s holds v s' ran
  obtain ⟨_ | ⟨⟨token, p⟩, rest⟩, stop⟩ := s
  · cases ran
  · have named := (holds _ List.mem_cons_self).named
    have later : Tokens.Satisfy (Fits stands) ⟨rest, stop⟩ :=
      holds.tail (List.subset_cons_self _ rest) stop
    obtain ⟨q, t, place, ran⟩ := run_bind_eq_ok.mp ran
    cases place
    obtain ⟨name, t, taken, ran⟩ := run_bind_eq_ok.mp ran
    obtain ⟨next, u, ahead, taken⟩ := run_bind_eq_ok.mp taken
    cases ahead
    cases found : token.propertyName? with
    | none =>
      simp only [List.head?_cons, Option.map_some, Option.bind_some, found] at taken
      cases taken
    | some spelled =>
      simp only [List.head?_cons, Option.map_some, Option.bind_some, found] at taken
      cases taken
      exact h p _ (named _ found) _ later v s' ran

theorem forms_params : FormsAll stands .name params := by
  refine (yields_expect _ _).bind fun _ _ => ?_
  refine (yields_commaSeparated _ forms_identifier).bind fun names formed => ?_
  exact (yields_expect _ _).bind fun _ _ => .pure formed

theorem forms_importSpecifier : Forms stands .specifier importSpecifier := by
  refine yields_here.bind fun p _ => forms_identifier.bind fun imported source => ?_
  refine yields_peek.bind fun next _ => ?_
  split_ifs
  · refine yields_skip.bind fun _ _ => forms_identifier.bind fun binding name => ?_
    exact .pure (.namedSpecifier p source name)
  · exact .pure (.namedSpecifier p source source)

theorem forms_namespaceOrNamed : FormsAll stands .specifier namespaceOrNamed := by
  refine (yields_accept _).bind fun star _ => ?_
  split_ifs
  · refine yields_here.bind fun p _ => (yields_word _).bind fun _ _ => ?_
    refine forms_identifier.bind fun binding name => .pure ?_
    exact List.forall_mem_singleton.mpr (.namespaceSpecifier p name)
  · refine (yields_accept _).bind fun brace _ => ?_
    split_ifs
    · refine (yields_commaSeparated _ forms_importSpecifier).bind fun specifiers formed => ?_
      exact (yields_expect _ _).bind fun _ _ => .pure formed
    · exact .pure (by simp)

theorem forms_importClause : FormsAll stands .specifier importClause := by
  refine yields_peek.bind fun next _ => ?_
  split
  · exact .pure (by simp)
  · refine yields_here.bind fun p _ => forms_identifier.bind fun binding name => ?_
    refine (yields_accept _).bind fun _ _ => forms_namespaceOrNamed.bind fun others formed => ?_
    refine (yields_word _).bind fun _ _ => .pure ?_
    exact List.forall_mem_cons.mpr ⟨.defaultSpecifier p name, formed⟩
  · refine forms_namespaceOrNamed.bind fun specifiers formed => ?_
    exact (yields_word _).bind fun _ _ => .pure formed

theorem forms_importDeclaration : Forms stands .statement importDeclaration := by
  refine yields_here.bind fun p _ => (yields_expect _ _).bind fun _ _ => ?_
  refine forms_importClause.bind fun specifiers formed => yields_here.bind fun q _ => ?_
  refine yields_peek.bind fun next _ => ?_
  split
  · exact yields_skip.bind fun _ _ => .pure (.imports p q _ formed)
  · exact .unexpected _

end Parser

open Dashboard.Script.Parser

namespace Productions

/-- Every production of this level gives trees of its category. -/
structure AreFormed (stands : Position → String → Prop) (p : Productions) : Prop where
  statement : Forms stands .statement p.statement
  assignment : Forms stands .expression p.assignment
  binary : ∀ least, Forms stands .expression (p.binary least)
  unary : Forms stands .expression p.unary
  primary : Forms stands .expression p.primary

section Level

variable {inner : Productions} (h : inner.AreFormed stands)

include h

theorem forms_block : Forms stands .block (block inner) := by
  refine yields_here.bind fun p _ => (yields_expect _ _).bind fun _ _ => ?_
  refine yields_skipSemicolons.bind fun _ _ => ?_
  refine (yields_statementsUntil _ h.statement).bind fun body formed => ?_
  exact (yields_expect _ _).bind fun _ _ => .pure (.block p formed)

theorem forms_declarator : Forms stands .declarator (declarator inner) := by
  refine yields_here.bind fun p _ => forms_identifier.bind fun id name => ?_
  refine (yields_accept _).bind fun taken _ => ?_
  split_ifs
  · refine h.assignment.bind fun value formed => .pure (.declarator p name ?_)
    intro v found
    exact Option.some.inj found ▸ formed
  · exact .pure (.declarator p name fun v found => by cases found)

theorem forms_declarationOf (kind : DeclarationKind) :
    Forms stands .declaration (declarationOf inner kind) := by
  refine yields_here.bind fun p _ => yields_skip.bind fun _ _ => ?_
  exact (yields_commaChain (forms_declarator h)).bind fun declarators formed =>
    .pure (.bindings p kind formed)

/-- The parameters and the body of a function, with what comes in front. -/
theorem forms_functionRest {category : Category} {make : List Node → Node → Node}
    (made : ∀ params body, (∀ n ∈ params, IsFormedWith stands .name n) →
      IsFormedWith stands .block body → IsFormedWith stands category (make params body)) :
    Forms stands category (do
      let names ← params
      let body ← block inner
      return make names body : Parser Node) :=
  forms_params.bind fun names formed => (forms_block h).bind fun body inside =>
    .pure (made names body formed inside)

theorem forms_functionValue : Forms stands .expression (function inner false) := by
  refine yields_here.bind fun p _ => (yields_expect _ _).bind fun _ _ => ?_
  refine yields_peek.bind fun next _ => ?_
  split
  · refine (forms_identifier.map
        (P := fun id => ∀ n, id = some n → IsFormedWith stands .name n) ?_).bind
      fun id name => forms_functionRest h fun _ _ => .functionValue p name
    rintro v formed n same
    exact Option.some.inj same ▸ formed
  · refine Yields.bind (Q := fun id => ∀ n, id = some n → IsFormedWith stands .name n) (.pure ?_)
      fun id name => forms_functionRest h fun _ _ => .functionValue p name
    nofun

theorem forms_functionDeclaration : Forms stands .declaration (function inner true) := by
  refine yields_here.bind fun p _ => (yields_expect _ _).bind fun _ _ => ?_
  refine yields_peek.bind fun next _ => ?_
  have named (id : Option Node) (name : ∃ n, id = some n ∧ IsFormedWith stands .name n) :
      Forms stands .declaration (do
        let names ← params
        let body ← block inner
        return .function p true id names body : Parser Node) := by
    obtain ⟨n, rfl, formed⟩ := name
    exact forms_functionRest h fun _ _ => .function p formed
  split
  · exact (forms_identifier.map fun v formed => ⟨v, rfl, formed⟩).bind named
  · exact (Yields.unexpected _).bind named

theorem forms_declaration? :
    Yields (Fits stands)
      (fun found => ∀ node, found = some node → IsFormedWith stands .declaration node)
      (declaration? inner) := by
  have given {p : Parser Node} (formed : Forms stands .declaration p) :
      Yields (Fits stands)
        (fun found => ∀ node, found = some node → IsFormedWith stands .declaration node)
        (some <$> p) :=
    formed.map fun v formed node same => Option.some.inj same ▸ formed
  refine yields_peek.bind fun next _ => ?_
  split
  · exact given (forms_declarationOf h .letKind)
  · exact given (forms_declarationOf h .constKind)
  · exact given (forms_declarationOf h .varKind)
  · exact given (forms_functionDeclaration h)
  · exact .pure nofun

theorem forms_returnStatement : Forms stands .statement (returnStatement inner) := by
  refine yields_here.bind fun p _ => yields_skip.bind fun _ _ => yields_peek.bind fun next _ => ?_
  have nothing : Forms stands .statement (pure (.returned p none) : Parser Node) :=
    .pure (.returned p nofun)
  split
  · exact nothing
  · exact nothing
  · exact nothing
  · refine h.assignment.bind fun value formed => .pure (.returned p ?_)
    intro v found
    exact Option.some.inj found ▸ formed

theorem forms_ifStatement : Forms stands .statement (ifStatement inner) := by
  refine yields_here.bind fun p _ => yields_skip.bind fun _ _ => (yields_expect _ _).bind fun _ _ => ?_
  refine h.assignment.bind fun test condition => (yields_expect _ _).bind fun _ _ => ?_
  refine h.statement.bind fun consequent yes => yields_skipSemicolons.bind fun _ _ => ?_
  refine (yields_accept _).bind fun taken _ => ?_
  split_ifs
  · refine h.statement.bind fun alternate no => .pure (.branching p condition yes ?_)
    intro s found
    exact Option.some.inj found ▸ no
  · exact .pure (.branching p condition yes nofun)

theorem forms_statementBody : Forms stands .statement (statementBody inner) := by
  refine yields_here.bind fun p _ => (forms_declaration? h).bind fun found formed => ?_
  cases found with
  | some node => exact .pure (.declared (formed node rfl))
  | none =>
    refine yields_peek.bind fun next _ => ?_
    split
    · exact forms_importDeclaration
    · refine yields_skip.bind fun _ _ => (forms_declaration? h).bind fun found formed => ?_
      cases found with
      | some node => exact .pure (.exported p (formed node rfl))
      | none => exact .unexpected _
    · exact forms_returnStatement h
    · exact forms_ifStatement h
    · exact (forms_block h).mono fun _ => .nested
    · exact yields_skip.bind fun _ _ => .pure (.empty p)
    · exact .unexpected _
    · exact h.assignment.bind fun value formed => .pure (.expression p formed)

theorem forms_spreadOrAssignment : Forms stands .item (spreadOrAssignment inner) := by
  refine yields_here.bind fun p _ => (yields_accept _).bind fun taken _ => ?_
  split_ifs
  · exact h.assignment.bind fun value formed => .pure (.spreadItem p formed)
  · exact h.assignment.mono fun _ => .item

theorem forms_arguments : FormsAll stands .item (arguments inner) := by
  refine (yields_expect _ _).bind fun _ _ => ?_
  refine (yields_commaSeparated _ (forms_spreadOrAssignment h)).bind fun values formed => ?_
  exact (yields_expect _ _).bind fun _ _ => .pure formed

theorem forms_element : Forms stands .item (element inner) := by
  refine yields_peek.bind fun next _ => ?_
  split_ifs
  · exact .fail _
  · exact forms_spreadOrAssignment h

theorem forms_array : Forms stands .expression (array inner) := by
  refine yields_here.bind fun p _ => (yields_expect _ _).bind fun _ _ => ?_
  refine (yields_commaSeparated _ (forms_element h)).bind fun elements formed => ?_
  exact (yields_expect _ _).bind fun _ _ => .pure (.array p formed)

omit h in
/-- A key that may stand for the value too is an expression by itself. -/
theorem yields_propertyKey :
    Yields (Fits stands)
      (fun found => IsFormedWith stands .key found.1 ∧
        (found.2 = true → IsFormedWith stands .expression found.1))
      propertyKey := by
  intro s holds v s' ran
  obtain ⟨_ | ⟨⟨token, p⟩, rest⟩, stop⟩ := s
  · cases ran
  · have fits := holds _ List.mem_cons_self
    have later : Tokens.Satisfy (Fits stands) ⟨rest, stop⟩ :=
      holds.tail (List.subset_cons_self _ rest) stop
    have name {text : String} (h : token.propertyName? = some text) :
        IsFormedWith stands .name (.identifier p text) := .name p (fits.named text h)
    cases token with
    | string text =>
      cases ran
      exact ⟨⟨.stringKey p text, nofun⟩, later⟩
    | number value =>
      cases ran
      exact ⟨⟨.numberKey p value, nofun⟩, later⟩
    | identifier =>
      cases ran
      exact ⟨⟨.nameKey (name rfl), fun _ => .reference p (fits.named _ rfl) fits.spelled.2⟩, later⟩
    | reserved | keyword | boolean | null =>
      cases ran
      exact ⟨⟨.nameKey (name rfl), nofun⟩, later⟩
    | _ => cases ran

theorem forms_property : Forms stands .property (property inner) := by
  refine yields_here.bind fun p _ => (yields_accept _).bind fun taken _ => ?_
  split_ifs
  · exact h.assignment.bind fun value formed => .pure (.spreadProperty p formed)
  · refine yields_propertyKey.bind fun found formed => ?_
    obtain ⟨key, alone⟩ := found
    obtain ⟨named, value⟩ := formed
    refine (yields_accept _).bind fun taken _ => ?_
    split_ifs with colon standing
    · exact h.assignment.bind fun value bound => .pure (.property p false named bound)
    · exact .pure (.property p true named (value standing))
    · exact .unexpected _

theorem forms_object : Forms stands .expression (object inner) := by
  refine yields_here.bind fun p _ => (yields_expect _ _).bind fun _ _ => ?_
  refine (yields_commaSeparated _ (forms_property h)).bind fun properties formed => ?_
  exact (yields_expect _ _).bind fun _ _ => .pure (.object p formed)

omit h in
theorem forms_constructorPath (links : Nat) (p : Position) {callee : Node}
    (formed : IsFormedWith stands .expression callee) :
    Forms stands .expression (constructorPath p links callee) := by
  induction links generalizing callee with
  | zero =>
    refine (yields_accept _).bind fun taken _ => ?_
    split_ifs
    · exact .fail _
    · exact .pure formed
  | succ links ih =>
    refine (yields_accept _).bind fun taken _ => ?_
    split_ifs
    · exact .named fun q name word => ih (.member p formed (.name q word))
    · exact .pure formed

theorem forms_newExpression (links : Nat) :
    Forms stands .expression (newExpression links inner) := by
  refine yields_here.bind fun p _ => yields_skip.bind fun _ _ => ?_
  refine h.primary.bind fun first formed => ?_
  refine (forms_constructorPath links p formed).bind fun callee target => ?_
  refine yields_peek.bind fun next _ => ?_
  split_ifs
  · exact (forms_arguments h).bind fun values items => .pure (.construct p target items)
  · exact .pure (.construct p target (by simp))

theorem forms_primaryBody (links : Nat) : Forms stands .expression (primaryBody links inner) := by
  refine yields_here.bind fun p _ => yields_peek.bind fun next _ => ?_
  have scalar (value : Scalar) :
      Forms stands .expression (do skip; return .literal p value : Parser Node) :=
    yields_skip.bind fun _ _ => .pure (.literal p value)
  split
  · exact scalar _
  · exact scalar _
  · exact scalar _
  · exact scalar _
  · exact yields_skip.bind fun _ _ => .pure (.template p _)
  · exact forms_reference
  · refine yields_skip.bind fun _ _ => h.assignment.bind fun inside formed => ?_
    exact (yields_expect _ _).bind fun _ _ => .pure formed
  · exact forms_array h
  · exact forms_object h
  · exact forms_functionValue h
  · exact forms_newExpression h links
  · exact .unexpected _

theorem forms_postfixChain (links : Nat) {target : Node}
    (formed : IsFormedWith stands .expression target) :
    Forms stands .expression (postfixChain inner links target) := by
  induction links generalizing target with
  | zero =>
    rw [postfixChain]
    refine yields_peek.bind fun next _ => ?_
    split
    · exact .pure formed
    · split_ifs
      · exact .fail _
      · exact .pure formed
  | succ links ih =>
    rw [postfixChain]
    refine yields_peek.bind fun next _ => ?_
    split
    · exact .pure formed
    · split_ifs
      · dsimp only
        split
        · exact (forms_arguments h).bind fun values items => ih (.call _ formed items)
        · refine yields_skip.bind fun _ _ => h.assignment.bind fun name place => ?_
          exact (yields_expect _ _).bind fun _ _ => ih (.index _ formed place)
        · refine yields_skip.bind fun _ _ => .named fun q name word => ?_
          exact ih (.member _ formed (.name q word))
        · exact yields_skip.bind fun _ _ => ih (.update _ _ false formed)
        · exact .pure formed
      · exact .pure formed

theorem forms_prefixed (operator : UnaryOperator) (p : Position) :
    Forms stands .expression (prefixed inner operator p) :=
  yields_skip.bind fun _ _ => h.unary.bind fun _ formed => .pure (.unary p operator formed)

theorem forms_stepped (operator : Operator) (p : Position) :
    Forms stands .expression (stepped inner operator p) :=
  yields_skip.bind fun _ _ => h.unary.bind fun _ formed => .pure (.update p operator true formed)

theorem forms_unaryBody (links : Nat) : Forms stands .expression (unaryBody links inner) := by
  refine yields_here.bind fun p _ => yields_peek.bind fun next _ => ?_
  split
  · refine yields_skip.bind fun _ _ => yields_peek.bind fun next _ => ?_
    split
    · exact yields_skip.bind fun _ _ => forms_postfixChain h links (.literal p _)
    · exact h.unary.bind fun _ formed => .pure (.unary p .minus formed)
  · exact forms_prefixed h _ _
  · exact forms_prefixed h _ _
  · exact forms_prefixed h _ _
  · exact forms_prefixed h _ _
  · exact forms_stepped h _ _
  · exact forms_stepped h _ _
  · exact (forms_primaryBody h links).bind fun _ formed => forms_postfixChain h links formed

theorem forms_binaryChain (links least : Nat) (p : Position) {left : Node}
    (formed : IsFormedWith stands .expression left) :
    Forms stands .expression (binaryChain inner p least links left) := by
  induction links generalizing left with
  | zero =>
    rw [binaryChain]
    refine yields_peek.bind fun next _ => ?_
    split
    · split
      · exact .pure formed
      · split_ifs
        · exact .pure formed
        · exact .fail _
    · exact .pure formed
  | succ links ih =>
    rw [binaryChain]
    refine yields_peek.bind fun next _ => ?_
    split
    · split
      · exact .pure formed
      · split_ifs
        · exact .pure formed
        · refine yields_skip.bind fun _ _ => (h.binary _).bind fun right second => ?_
          exact ih (.binary p _ formed second)
    · exact .pure formed

theorem forms_binaryBody (links least : Nat) :
    Forms stands .expression (binaryBody links inner least) :=
  yields_here.bind fun p _ => (forms_unaryBody h links).bind fun _ formed =>
    forms_binaryChain h links least p formed

theorem forms_conditional (links : Nat) : Forms stands .expression (conditional links inner) := by
  refine yields_here.bind fun p _ => (forms_binaryBody h links 1).bind fun test condition => ?_
  refine (yields_accept _).bind fun taken _ => ?_
  split_ifs
  · refine h.assignment.bind fun consequent yes => (yields_expect _ _).bind fun _ _ => ?_
    exact h.assignment.bind fun alternate no => .pure (.conditional p condition yes no)
  · exact .pure condition

theorem forms_arrow : Forms stands .expression (arrow inner) := by
  refine yields_here.bind fun p _ => yields_peek.bind fun next _ => ?_
  have rest (names : List Node) (formed : ∀ n ∈ names, IsFormedWith stands .name n) :
      Forms stands .expression (do
        expect .arrow "'=>'"
        if (← peek) = some .openBrace then return .arrow p names (← block inner)
        else return .arrow p names (← inner.assignment) : Parser Node) := by
    refine (yields_expect _ _).bind fun _ _ => yields_peek.bind fun next _ => ?_
    split_ifs
    · exact (forms_block h).bind fun body inside => .pure (.arrow p formed (Or.inl rfl) inside)
    · exact h.assignment.bind fun body inside => .pure (.arrow p formed (Or.inr rfl) inside)
  split
  · exact (forms_identifier.map fun v formed => List.forall_mem_singleton.mpr formed).bind rest
  · exact forms_params.bind rest

theorem forms_assignmentBody (links : Nat) :
    Forms stands .expression (assignmentBody links inner) := by
  have tokens : Yields (Fits stands) (fun _ => True) (get : Parser Tokens) := by
    intro s holds v s' ran
    cases ran
    exact ⟨trivial, holds⟩
  refine tokens.bind fun s _ => ?_
  split_ifs
  · exact forms_arrow h
  · refine yields_here.bind fun p _ => (forms_conditional h links).bind fun left target => ?_
    refine yields_peek.bind fun next _ => ?_
    split
    · split_ifs
      · refine yields_skip.bind fun _ _ => h.assignment.bind fun right value => ?_
        exact .pure (.assignment p _ target value)
      · exact .pure target
    · exact .pure target

end Level

theorem areFormed_entered (levels : Nat) : (entered levels).AreFormed stands := by
  induction levels with
  | zero => exact ⟨.fail _, .fail _, fun _ => .fail _, .fail _, .fail _⟩
  | succ levels ih =>
    exact ⟨forms_statementBody ih, forms_assignmentBody ih levels, forms_binaryBody ih levels,
      forms_unaryBody ih levels, forms_primaryBody ih levels⟩

end Productions

/-- What the names of a text stand for, the names of the tree stand for that it parses to. -/
theorem isFormedWith_of_parseText {category : Category} {parser : Parser Node}
    (forms : Forms stands category parser) {text : String} {origin : Position} {node : Node}
    (names : ∀ found, lexemes origin text.toList = .ok found → ∀ l ∈ found.1, NamesStand stands l)
    (h : parseText parser text origin = .ok node) : IsFormedWith stands category node := by
  obtain ⟨⟨lexemes, stop⟩, cut, rest⟩ := bind_eq_ok.mp h
  obtain ⟨⟨found, s⟩, ran, last⟩ := bind_eq_ok.mp rest
  cases last
  refine (forms ⟨lexemes, stop⟩ (fun l member => ⟨names _ cut l member, ?_⟩) _ s ran).1
  exact forall_of_tokens? isSpelled_scanToken (tokens?_eq_some cut) _ (List.mem_map_of_mem member)

theorem forms_program (origin : Position) : Forms stands .program (program origin) :=
  yields_skipSemicolons.bind fun _ _ =>
    (yields_statementsUntil none (Productions.areFormed_entered _).statement).bind
      fun _ formed => .pure (.program origin formed)

theorem forms_wholeExpression : Forms stands .expression wholeExpression := by
  refine (Productions.areFormed_entered _).assignment.bind fun node formed => ?_
  refine yields_peek.bind fun next _ => ?_
  split
  · exact .pure formed
  · exact .unexpected _

/-- The lexer spells its words as names, so what is parsed is formed. -/
theorem isFormed_of_parseText {category : Category} {parser : Parser Node}
    (forms : ∀ stands, Forms stands category parser) {text : String} {origin : Position} {node : Node}
    (h : parseText parser text origin = .ok node) : IsFormed category node := by
  refine isFormedWith_of_parseText (forms _) (fun found cut l member name same => ?_) h
  refine Token.isName_of_propertyName? ?_ same
  exact forall_of_tokens? isSpelled_scanToken (tokens?_eq_some cut) _ (List.mem_map_of_mem member)

theorem isFormed_of_parseScript {text : String} {origin : Position} {program : Node}
    (h : parseScript text origin = .ok program) : IsFormed .program program :=
  isFormed_of_parseText (fun _ => forms_program origin) h

theorem isFormed_of_parseExpression {text : String} {origin : Position} {node : Node}
    (h : parseExpression text origin = .ok node) : IsFormed .expression node :=
  isFormed_of_parseText (fun _ => forms_wholeExpression) h

end Dashboard.Script
