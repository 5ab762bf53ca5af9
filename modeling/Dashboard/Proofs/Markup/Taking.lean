import Dashboard.Proofs.Markup.Standing

/-!
How far the parser of documents goes. What a run takes is the text between the place where it begins and
the place where it ends. A production that is entered ends strictly behind the place where it was entered,
and every text among the children of what it gives holds at least one character.
-/
namespace Dashboard.Markup

open Dashboard.Markup.Parser

/-- From the state `s` to the state `t` the parser takes a text and counts its place over it. -/
structure Source.Passed (s : Source) (taken : List Char) (t : Source) : Prop where
  rest : s.cursor.rest = taken ++ t.cursor.rest
  place : t.cursor.pos = s.cursor.pos.advance taken

/-- The parser has taken one character or more. -/
def Source.Advanced (s t : Source) : Prop := ∃ taken, taken ≠ [] ∧ s.Passed taken t

namespace Source

variable {s t u : Source} {taken more : List Char}

theorem passed_nil (s : Source) : s.Passed [] s := ⟨rfl, rfl⟩

theorem Passed.append (first : s.Passed taken t) (second : t.Passed more u) :
    s.Passed (taken ++ more) u where
  rest := by rw [first.rest, second.rest, List.append_assoc]
  place := by rw [second.place, first.place, Position.advance_append]

theorem passed_after (s : Source) (n : Nat) : s.Passed (s.cursor.rest.take n) (s.after n) :=
  ⟨(List.take_append_drop n _).symm, rfl⟩

theorem Passed.suffix (h : s.Passed taken t) : t.cursor.rest <:+ s.cursor.rest :=
  ⟨taken, h.rest.symm⟩

theorem Advanced.shorter (h : s.Advanced t) : t.cursor.rest.length < s.cursor.rest.length := by
  obtain ⟨taken, some, passed⟩ := h
  have more := List.length_pos_of_ne_nil some
  rw [passed.rest, List.length_append]
  omega

end Source

mutual

/-- No text among the children of a node, at any depth, is empty. -/
def Node.IsFilled : Node → Prop
  | .text _ data => data ≠ ""
  | .element _ _ _ children => AreFilled children
  | .ifBlock _ _ _ children alternative => AreFilled children ∧ alternative.IsFilled
  | .mustache _ | .comment .. | .style .. => True

def Alternative.IsFilled : Alternative → Prop
  | .absent => True
  | .otherwise _ children => AreFilled children
  | .elseIf _ block => block.IsFilled

def AreFilled : List Node → Prop
  | [] => True
  | first :: more => first.IsFilled ∧ AreFilled more

end

theorem areFilled_flatMap {found : List (Option Node)}
    (h : ∀ child ∈ found, ∀ node, child = some node → node.IsFilled) :
    AreFilled (found.flatMap Option.toList) := by
  induction found with
  | nil => trivial
  | cons first more ih =>
    obtain ⟨here, later⟩ := List.forall_mem_cons.mp h
    cases first with
    | none => exact ih later
    | some node => exact ⟨here node rfl, ih later⟩

/-- A child, if there is one, has no empty text in it, and a text is taken for it. -/
abbrev IsChild (child : Option Node) (taken : List Char) : Prop :=
  taken ≠ [] ∧ ∀ node, child = some node → node.IsFilled

namespace Parser

variable {α β τ : Type} {P : α → List Char → Prop} {Q : β → List Char → Prop}

/-- Every run that succeeds takes a text, and its result is as `P` says of that text. -/
def Takes (P : α → List Char → Prop) (p : Parser α) : Prop :=
  ∀ s v t, p s = .ok (v, t) → ∃ taken, s.Passed taken t ∧ P v taken

/-- Every run that succeeds ends strictly behind the place where it began. -/
def Advances (p : Parser α) : Prop := ∀ s v t, p s = .ok (v, t) → s.Advanced t

/-- Every run that succeeds takes a text, if only an empty one. -/
abbrev TakesAny (p : Parser α) : Prop := Takes (fun _ _ => True) p

/-- Every run that succeeds takes a character. -/
abbrev TakesSome (p : Parser α) : Prop := Takes (fun _ taken => taken ≠ []) p

theorem Takes.mono {P' : α → List Char → Prop} {p : Parser α} (h : Takes P p)
    (weaker : ∀ v taken, P v taken → P' v taken) : Takes P' p := by
  intro s v t ran
  obtain ⟨taken, passed, result⟩ := h s v t ran
  exact ⟨taken, passed, weaker v taken result⟩

theorem Takes.any {p : Parser α} (h : Takes P p) : TakesAny p := h.mono fun _ _ _ => trivial

theorem Takes.advances {p : Parser α} (h : Takes P p) (some : ∀ v taken, P v taken → taken ≠ []) :
    Advances p := by
  intro s v t ran
  obtain ⟨taken, passed, result⟩ := h s v t ran
  exact ⟨taken, some v taken result, passed⟩

theorem Takes.bind {p : Parser β} {f : β → Parser α} (h : Takes Q p)
    (next : ∀ v taken, Q v taken → Takes (fun w more => P w (taken ++ more)) (f v)) :
    Takes P (p >>= f) := by
  intro s v u ran
  obtain ⟨w, t, first, second⟩ := run_bind_eq_ok.mp ran
  obtain ⟨taken, passed, result⟩ := h s w t first
  obtain ⟨more, later, final⟩ := next w taken result t v u second
  exact ⟨taken ++ more, passed.append later, final⟩

/-- Behind a parser that takes a character, it does not matter how much is taken. -/
theorem TakesSome.then {p : Parser β} {f : β → Parser α} (h : TakesSome p)
    (next : ∀ v, TakesAny (f v)) : TakesSome (p >>= f) :=
  h.bind fun v _ some => (next v).mono fun _ more _ => List.append_ne_nil_of_left_ne_nil some more

theorem TakesAny.then {p : Parser β} {f : β → Parser α} (h : TakesAny p)
    (next : ∀ v, TakesAny (f v)) : TakesAny (p >>= f) := h.bind fun v _ _ => next v

/-- Nor does it matter in front of one. -/
theorem TakesAny.thenSome {p : Parser β} {f : β → Parser α} (h : TakesAny p)
    (next : ∀ v, TakesSome (f v)) : TakesSome (p >>= f) :=
  h.bind fun v taken _ => (next v).mono fun _ _ some => List.append_ne_nil_of_right_ne_nil taken some

theorem Takes.pure {v : α} (h : P v []) : Takes P (Pure.pure v) := by
  intro s w t ran
  cases ran
  exact ⟨[], s.passed_nil, h⟩

theorem Takes.throw (e : ParseError) : Takes P (MonadExcept.throw e : Parser α) := by
  intro s v t ran
  cases ran

theorem Takes.failAt (fault : ParseFault) (position : Position) :
    Takes P (Parser.failAt fault position : Parser α) := .throw _

theorem Takes.fail (fault : ParseFault) : Takes P (Parser.fail fault : Parser α) := by
  intro s v t ran
  cases ran

theorem Takes.rest {f : List Char → Parser α} (h : ∀ text, Takes P (f text)) :
    Takes P (rest >>= f) :=
  fun s => h s.cursor.rest s

theorem Takes.here {f : Position → Parser α} (h : ∀ position, Takes P (f position)) :
    Takes P (here >>= f) :=
  fun s => h s.cursor.pos s

theorem takes_skip (n : Nat) : TakesAny (skip n) := by
  intro s v t ran
  cases ran
  exact ⟨_, s.passed_after n, trivial⟩

theorem takes_take (n : Nat) : Takes (fun v taken => v.toList = taken) (take n) := by
  intro s v t ran
  cases ran
  exact ⟨_, s.passed_after n, String.toList_ofList⟩

theorem takes_skipBlanks : TakesAny skipBlanks := .rest fun _ => takes_skip _

theorem takes_expectChar (c : Char) : TakesSome (expectChar c) := by
  intro s v t ran
  obtain ⟨next, rfl⟩ := expectChar_eq_ok ran
  obtain ⟨more, shape⟩ := List.head?_eq_some_iff.mp next
  exact ⟨_, s.passed_after 1, by simp [shape]⟩

theorem takes_name (what : String) : TakesSome (name what) := by
  have run : Takes (fun v taken => v.toList = taken) (takeWhile isNameChar) :=
    .rest fun _ => takes_take _
  refine run.bind fun v taken same => ?_
  split_ifs with empty
  · exact .fail _
  · refine .pure ?_
    rw [List.append_nil, ← same]
    simpa using empty

/-- A parser that fails at the end of the text has skipped a character. -/
theorem Takes.behindSkip {A : α → Prop} {p : Parser α} (h : Takes (fun v _ => A v) p)
    (fails : ∀ s r, s.cursor.rest = [] → p s ≠ .ok r) (n : Nat) :
    Takes (fun v taken => taken ≠ [] ∧ A v) (do skip (n + 1); p) := by
  intro s v t ran
  have ran : p (s.after (n + 1)) = .ok (v, t) := ran
  obtain ⟨more, later, result⟩ := h _ v t ran
  have present : s.cursor.rest ≠ [] := by
    intro ended
    exact fails (s.after (n + 1)) _ (by rw [Source.after_rest, ended, List.drop_nil]) ran
  have some : s.cursor.rest.take (n + 1) ≠ [] := by simp [present]
  have passed := (s.passed_after (n + 1)).append later
  exact ⟨_, passed, List.append_ne_nil_of_left_ne_nil some more, result⟩

theorem takes_braced : TakesSome braced := by
  refine .here fun position => Takes.mono (.behindSkip (A := fun _ => True) ?_ ?_ 0)
    fun _ _ => And.left
  · refine .here fun inside => .rest fun text => ?_
    cases bracedLength? 0 none text with
    | none => exact .failAt _ _
    | some n => exact (takes_take n).any.then fun _ => (takes_skip 1).then fun _ => .pure trivial
  · intro s r ended ran
    rw [here_bind, rest_bind, ended] at ran
    cases ran

theorem takes_liftExpression (text : String) (origin : Position) :
    TakesAny (liftExpression text origin) := by
  intro s v t ran
  obtain ⟨node, -, same⟩ := map_eq_ok.mp ran
  cases same
  exact ⟨[], s.passed_nil, trivial⟩

theorem takes_mustache : TakesSome mustache := by
  refine .here fun position => takes_braced.then fun found => ?_
  obtain ⟨content, inside⟩ := found
  dsimp only
  split_ifs
  · intro s v t ran
    cases ran
  · exact (takes_liftExpression _ _).then fun _ => .pure trivial

theorem takes_unquoted (p : Position) : TakesAny (do
    match unquotedLength (← rest) with
    | 0 => Parser.fail .missingAttributeValue
    | n => return AttributeValue.text p (← take n)) := by
  refine .rest fun text => ?_
  split
  · exact .fail _
  · exact (takes_take _).any.then fun _ => .pure trivial

theorem takes_attributeValue : TakesAny attributeValue := by
  refine .here fun position => .rest fun text => ?_
  split
  · exact takes_mustache.any.then fun _ => .pure trivial
  · next c _ _ =>
    split_ifs
    · refine (takes_skip 1).then fun _ => .rest fun text => ?_
      cases distance? [c] text with
      | none => exact .failAt _ _
      | some n => exact (takes_take n).any.then fun _ => (takes_skip 1).then fun _ => .pure trivial
    · exact takes_unquoted position
  · exact .fail _

theorem takes_singleAttribute : TakesSome singleAttribute := by
  refine .here fun position => (takes_name _).then fun name => takes_skipBlanks.then fun _ => ?_
  refine .rest fun text => ?_
  split_ifs
  · exact (takes_skip 1).then fun _ => takes_skipBlanks.then fun _ =>
      takes_attributeValue.then fun _ => .pure trivial
  · exact .pure trivial

/-- Steps that take a character each, up to the one that ends them. -/
theorem takes_repeated {A : α → Prop} {E : τ → List Char → Prop} {step : Parser (α ⊕ τ)} {last : τ}
    (longer : ∀ ended taken more, E ended more → E ended (taken ++ more))
    (each : Takes (fun v taken => v.elim (fun a => taken ≠ [] ∧ A a) (E · taken)) step) :
    Takes (fun v taken => (∀ a ∈ v.1, A a) ∧ E v.2 taken) (repeated step last) := by
  intro s v u ran
  induction n : s.cursor.rest.length using Nat.strong_induction_on generalizing s v with
  | _ n ih =>
    obtain ⟨found, ended⟩ := v
    rcases repeated_eq_ok.mp ran with ⟨spent, rfl⟩ | ⟨first, t, step, rest⟩
    · obtain ⟨taken, passed, result⟩ := each s _ u spent
      exact ⟨taken, passed, by simp, result⟩
    · obtain ⟨taken, passed, some, here⟩ := each s _ t step
      have further : s.Advanced t := ⟨taken, some, passed⟩
      rcases rest with ⟨shorter, more, others, rfl⟩ | ⟨stuck, -⟩
      · obtain ⟨behind, later, results, final⟩ := ih _ (n ▸ shorter) t _ others rfl
        exact ⟨taken ++ behind, passed.append later, List.forall_mem_cons.mpr ⟨here, results⟩,
          longer _ _ _ final⟩
      · exact absurd further.shorter stuck

theorem takes_attributeStep : TakesSome attributeStep := by
  intro s v t ran
  obtain ⟨k, some, rfl⟩ : ∃ k, 0 < k ∧ t = s.after k := by
    have sees := Lookahead.tag.sees s.cursor.rest
    cases v with
    | inl a =>
      obtain ⟨k, enough, same, -⟩ := attributeStep_further ran
      exact ⟨k, by omega, same⟩
    | inr ended =>
      obtain ⟨k, enough, -, same, -⟩ := attributeStep_ended ran
      exact ⟨k, by omega, same⟩
  have present : s.cursor.rest ≠ [] := by
    intro empty
    obtain ⟨j, blank, -⟩ := skipBlanks_spec s
    rw [attributeStep_eq blank, Source.after_rest, empty, List.drop_nil] at ran
    cases ran
  exact ⟨_, s.passed_after k, fun none => (List.take_eq_nil_iff.mp none).elim some.ne' present⟩

theorem takes_attributes : TakesSome attributes := by
  have same : attributes = repeated attributeStep false := funext attributes_eq
  rw [same]
  refine (takes_repeated (A := fun _ => True) (E := fun _ taken => taken ≠ []) ?_ ?_).mono
    fun _ _ => And.right
  · exact fun _ taken _ => List.append_ne_nil_of_right_ne_nil taken
  · refine takes_attributeStep.mono fun v taken some => ?_
    cases v with
    | inl => exact ⟨some, trivial⟩
    | inr => exact some

theorem takes_rawText (tag : String) (position : Position) : TakesAny (rawText tag position) := by
  refine .rest fun text => ?_
  cases distance? ("</".toList ++ tag.toList) text with
  | none => exact .failAt _ _
  | some n =>
    exact (takes_take n).any.then fun _ => (takes_skip _).then fun _ =>
      takes_skipBlanks.then fun _ => (takes_expectChar '>').any.then fun _ => .pure trivial

theorem takes_get : TakesAny (get : Parser Source) := by
  intro s v t ran
  cases ran
  exact ⟨[], s.passed_nil, trivial⟩

theorem takes_meet (region : ScriptRegion) :
    TakesAny (modify fun s => { s with script := some region } : Parser Unit) := by
  intro s v t ran
  cases ran
  exact ⟨[], ⟨rfl, rfl⟩, trivial⟩

/-- What is kept of a region has no children. -/
theorem takes_keepRegion (tag : String) (region : ScriptRegion) :
    Takes (fun found _ => ∀ node, found = some node → node.IsFilled) (keepRegion tag region) := by
  unfold keepRegion
  split_ifs
  · refine .pure ?_
    rintro _ ⟨⟩
    trivial
  · refine takes_get.bind fun s _ _ => ?_
    split_ifs
    · exact (Takes.failAt (P := fun _ _ => False) _ _).bind fun _ _ => False.elim
    · exact (takes_meet region).bind fun _ _ _ => .pure nofun

theorem takes_rawRegion (tag : String) (position : Position) (inElement : Bool) :
    Takes IsChild (rawRegion tag position inElement) := by
  have kept (found : List Attribute) (origin : Position) {raw : Parser String} (h : TakesAny raw)
      {taken : List Char} (present : taken ≠ []) :
      Takes (fun child more => IsChild child (taken ++ more)) (do
        keepRegion tag ⟨position, found, origin, ← raw⟩) :=
    h.bind fun text _ _ => (takes_keepRegion tag _).mono fun _ _ filled =>
      ⟨List.append_ne_nil_of_left_ne_nil present _, filled⟩
  cases inElement with
  | true => exact .failAt _ _
  | false =>
    refine takes_attributes.bind fun v taken present => .here fun origin => ?_
    obtain ⟨found, selfClosing⟩ := v
    cases selfClosing with
    | true => exact kept found origin (.pure (v := "") trivial) present
    | false => exact kept found origin (takes_rawText tag position) present

/-- A child that is read takes a character, and no text in it is empty. -/
abbrev TakesChild (p : Parser Node) : Prop := Takes (fun node taken => taken ≠ [] ∧ node.IsFilled) p

theorem takes_comment : TakesChild comment := by
  refine .here fun position => .behindSkip (.rest fun text => ?_) (fun s r ended ran => ?_) 3
  · cases distance? "-->".toList text with
    | none => exact .failAt _ _
    | some n => exact (takes_take n).bind fun _ _ _ => (takes_skip 3).bind fun _ _ _ => .pure trivial
  · rw [rest_bind, ended] at ran
    cases ran

theorem takes_text : TakesChild Parser.text := by
  intro s node t ran
  cases length : textLength s.cursor.rest with
  | zero =>
    rw [Parser.text, here_bind, rest_bind, length] at ran
    cases ran
  | succ n =>
    rw [text_eq_ok length] at ran
    cases ran
    have present : s.cursor.rest.take (n + 1) ≠ [] := by
      intro none
      have empty : s.cursor.rest = [] := by simpa using none
      rw [empty] at length
      cases length
    refine ⟨_, s.passed_after (n + 1), present, ?_⟩
    rw [Node.IsFilled, Ne, ← String.toList_inj, String.toList_ofList]
    exact present

end Parser

namespace Productions

section Level

variable {deeper : Position → Bool → Parser (List Node × Terminator)}
variable {ifBlock : Bool → String → Position → Parser Node}

/-- Children that are read have no empty text among them, and what ends them, but for the end of the
text, has been taken. -/
abbrev TakesChildren (p : Parser (List Node × Terminator)) : Prop :=
  Takes (fun v taken => AreFilled v.1 ∧ (v.2 = .endOfText ∨ taken ≠ [])) p

/-- A step takes a child, or what ends the children. -/
abbrev TakesStep (p : Parser (Option Node ⊕ Terminator)) : Prop :=
  Takes (fun v taken => v.elim (IsChild · taken) fun ended => ended = .endOfText ∨ taken ≠ []) p

theorem takes_elementChildren (hd : ∀ p e, TakesChildren (deeper p e)) (name : String)
    (position : Position) :
    Takes (fun children _ => AreFilled children) (elementChildren deeper name position) := by
  refine (hd position true).bind fun v _ filled => ?_
  obtain ⟨children, ended⟩ := v
  cases ended with
  | closingTag closing place =>
    dsimp only
    split_ifs
    · exact .pure filled.1
    · exact .failAt _ _
  | _ => exact .failAt _ _

theorem takes_element (hd : ∀ p e, TakesChildren (deeper p e)) (inElement : Bool) :
    Takes IsChild (element deeper inElement) := by
  refine .here fun position => (takes_skip 1).bind fun _ first _ => ?_
  refine (takes_name _).bind fun name taken some => ?_
  have took {more : List Char} : first ++ (taken ++ more) ≠ [] := by simp [some]
  dsimp only
  split_ifs
  · exact (takes_rawRegion _ _ _).mono fun _ _ result => ⟨took, result.2⟩
  · refine takes_attributes.bind fun v _ _ => ?_
    obtain ⟨found, selfClosing⟩ := v
    dsimp only
    split_ifs
    · refine .pure ⟨took, ?_⟩
      rintro _ ⟨⟩
      trivial
    · refine (takes_elementChildren hd name _).bind fun children _ filled => .pure ⟨took, ?_⟩
      rintro _ ⟨⟩
      exact filled

theorem takes_openBlock (hi : ∀ e condition p, TakesChild (ifBlock e condition p)) (inElement : Bool) :
    TakesChild (openBlock ifBlock inElement) := by
  refine .here fun position => takes_braced.bind fun v taken some => ?_
  obtain ⟨content, inside⟩ := v
  dsimp only
  split_ifs
  · exact (hi _ _ _).mono fun _ _ result => ⟨List.append_ne_nil_of_left_ne_nil some _, result.2⟩
  · exact .failAt _ _

theorem takes_closingTag : TakesSome closingTag :=
  .here fun _ => (takes_skip 2).thenSome fun _ => (takes_name _).then fun _ =>
    takes_skipBlanks.then fun _ => (takes_expectChar '>').any.then fun _ => .pure trivial

theorem takes_continuation : TakesSome continuation := by
  refine .here fun position => takes_braced.then fun v => ?_
  obtain ⟨content, inside⟩ := v
  dsimp only
  split_ifs
  · exact .pure trivial
  · exact .pure trivial
  · exact .failAt _ _

theorem takes_blockEnd : TakesSome blockEnd := by
  refine .here fun position => takes_braced.then fun v => ?_
  obtain ⟨content, inside⟩ := v
  dsimp only
  split_ifs
  · exact .pure trivial
  · exact .failAt _ _

/-- A step takes a character unless it meets the end of the text. -/
theorem takes_step (hd : ∀ p e, TakesChildren (deeper p e))
    (hi : ∀ e condition p, TakesChild (ifBlock e condition p))
    (inElement : Bool) :
    TakesStep (step deeper ifBlock inElement) := by
  have child {p : Parser Node} (h : TakesChild p) : TakesStep (do return .inl (some (← p))) :=
    h.bind fun node taken result => .pure
      ⟨by simpa using result.1, fun other same => Option.some.inj same ▸ result.2⟩
  have terminator {p : Parser Terminator} (h : TakesSome p) : TakesStep (do return .inr (← p)) :=
    h.bind fun ended taken some => .pure (.inr (by simpa using some))
  refine .rest fun text => ?_
  split
  · exact .pure (.inl rfl)
  · exact child takes_comment
  · exact terminator takes_closingTag
  · exact child (takes_openBlock hi inElement)
  · exact terminator takes_continuation
  · exact terminator takes_blockEnd
  · exact .fail _
  · exact takes_mustache.bind fun tag taken some => .pure
      ⟨by simpa using some, fun other same => Option.some.inj same ▸ trivial⟩
  · split_ifs
    · exact (takes_element hd inElement).bind fun found taken result => .pure
        ⟨by simpa using result.1, result.2⟩
    · exact child takes_text
  · exact child takes_text

theorem takes_childrenUntil (hd : ∀ p e, TakesChildren (deeper p e))
    (hi : ∀ e condition p, TakesChild (ifBlock e condition p))
    (inElement : Bool) : TakesChildren (childrenUntil deeper ifBlock inElement) := by
  rw [childrenUntil_eq]
  refine (takes_repeated (fun ended taken more ends => ?_) (takes_step hd hi inElement)).bind
    fun v taken result => .pure ⟨areFilled_flatMap result.1, by simpa using result.2⟩
  exact ends.imp_right (List.append_ne_nil_of_right_ne_nil taken)

end Level

/-- Both productions of a level take what they give. -/
structure TakeTrees (inner : Productions) : Prop where
  children : ∀ e, TakesChildren (inner.children e)
  ifBlock : ∀ e condition p, TakesChild (inner.ifBlock e condition p)

/-- A block ends with a tag of its own, which is taken. -/
theorem takes_branches {inner : Productions} (h : inner.TakeTrees) (inElement : Bool)
    (condition : String) (position : Position) :
    TakesChild (branches inner inElement condition position) := by
  cases written : condition.isEmpty with
  | true =>
    intro s v t ran
    simp only [branches, written, if_true] at ran
    cases ran
  | false =>
    rw [branches_eq inElement written]
    refine (takes_liftExpression condition position).bind fun test first _ => ?_
    refine (h.children inElement).bind fun found taken result => ?_
    obtain ⟨children, ended⟩ := found
    obtain ⟨filled, ends⟩ := result
    -- Only a tag of the block ends its children here, and a tag has been taken.
    have took (closed : ended ≠ .endOfText) {more : List Char} : first ++ (taken ++ more) ≠ [] := by
      simp [ends.resolve_left closed]
    cases ended with
    | endIf => exact .pure ⟨took (by simp), filled, trivial⟩
    | otherwise place =>
      refine (h.children inElement).bind fun found _ result => ?_
      obtain ⟨others, ended⟩ := found
      cases ended with
      | endIf => exact .pure ⟨took (by simp), filled, result.1⟩
      | _ => exact .throw _
    | elseIf next place =>
      refine (h.ifBlock inElement next place).bind fun block _ result => ?_
      exact .pure ⟨took (by simp), filled, result.2⟩
    | _ => exact .throw _

theorem takeTrees_atLevel (levels : Nat) : (atLevel levels).TakeTrees := by
  induction levels with
  | zero =>
    have tooDeep (e : Bool) (condition : String) (position : Position) :
        TakesChild (Parser.failAt .nestingTooDeep position) := .failAt _ _
    exact ⟨takes_childrenUntil (fun _ _ => .failAt _ _) tooDeep, tooDeep⟩
  | succ levels ih =>
    have blocks := takes_branches ih
    exact ⟨takes_childrenUntil (fun _ => ih.children) blocks, blocks⟩

end Productions

/-- No text among the children of a parsed document is empty. -/
theorem areFilled_of_parse {source : String} {document : Document}
    (h : parse source = .ok document) : AreFilled document.children := by
  obtain ⟨children, s, ran, rfl⟩ := parse_eq_ok.mp h
  obtain ⟨-, -, filled, -⟩ := (Productions.takeTrees_atLevel maxNesting).children false _ _ s ran
  exact filled

end Dashboard.Markup
